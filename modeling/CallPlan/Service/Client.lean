import CallPlan.Service.Naming
import CallPlan.Service.Registry
import CallPlan.Service.Settings

/-!
# Clients of services

A session gives clients, one for a service, and a client performs the operations of
its service. A pool asks the session for a client when a service is needed first and
keeps it for the rest of the run, so there is one client for a service. A client is
asked for with the version that the settings give for the type of the object, else for
the service, and with the timeouts and the number of attempts of the settings.

A response may hold streams in its fields. They are read before the response becomes a
result.
-/

namespace CallPlan

/-- A part of a response: data, or a stream of bytes that has not been read. -/
inductive ResponsePart
  | data (v : Value)
  | stream (bytes : List UInt8)
  deriving BEq, Repr

/-- What an operation answers: data, or fields of which some may be streams. -/
inductive Response
  | data (v : Value)
  | fields (parts : List (Value × ResponsePart))
  deriving BEq, Repr

def ResponsePart.read : ResponsePart → Value
  | data v => v
  | stream bytes => .bytes bytes

def Response.read : Response → Value
  | data v => v
  | fields parts => .map (parts.map fun (k, part) => (k, part.read))

/-- Performs the operations of a service. -/
structure Client (σ : Type) where
  operations : List String
  call : (operation : String) → Value → EStateM Halt σ Response

/-- What a client is asked for with. -/
structure ClientRequest where
  service : String
  version : Option String
  connectTimeout : Binary64
  readTimeout : Binary64
  maxAttempts : Int
  deriving Repr

/-- Gives clients; none for a service that it does not know. It has its own way to name the
operation that a method is, such as `create_function` for `createFunction`. -/
structure Session (σ : Type) where
  client : ClientRequest → EStateM Halt σ (Option (Client σ))
  operation : (method : String) → String

namespace Settings

def serviceOf (s : Settings) (objectType : String) : String :=
  Naming.service s.aliases objectType

/-- The version for a type of objects of a service. An empty version is none for the
type, but stands as it is for the service. -/
def versionOf (s : Settings) (objectType service : String) : Option String :=
  (usableText? (Fields.get? (Text.lower objectType) s.versions)).or
    (Fields.get? service s.versions)

def requestFor (s : Settings) (objectType : String) : ClientRequest where
  service := s.serviceOf objectType
  version := s.versionOf objectType (s.serviceOf objectType)
  connectTimeout := s.connectTimeout.value
  readTimeout := s.readTimeout.value
  maxAttempts := s.maxAttempts

end Settings

/-- The clients that a run has, by services, with the state of the session. -/
structure Pool (σ : Type) where
  clients : List (String × Client σ)
  session : σ

namespace Pool

variable {σ : Type}

def start (session : σ) : Pool σ := ⟨[], session⟩

/-- The client for a type of objects: the one that is there, or a new one. -/
def client (session : Session σ) (settings : Settings) (objectType : String)
    (p : Pool σ) : EStateM.Result Halt (Pool σ) (Client σ) :=
  let request := settings.requestFor objectType
  match Fields.get? request.service p.clients with
  | some c => .ok c p
  | none =>
    match session.client request p.session with
    | .ok (some c) s => .ok c ⟨Fields.set request.service c p.clients, s⟩
    | .ok none s =>
      .error (.cause (.unknownService objectType request.service)) { p with session := s }
    | .error h s => .error h { p with session := s }

/-- The parameters that a value stands for: entries whose keys are texts. -/
def parameters (v : Value) : Except Fault (List (Value × Value)) := do
  let es ← v.toEntries.mapError .pairs
  if es.all (·.1.kind = .text) then return es else .error .unnamedParameter

def handler (c : Client σ) (operation : String) (params : Value) (p : Pool σ) :
    EStateM.Result Halt (Pool σ) Value :=
  match parameters params with
  | .error f => .error (.fault f) p
  | .ok es =>
    match c.call operation (.map es) p.session with
    | .ok r s => .ok r.read { p with session := s }
    | .error h s => .error h { p with session := s }

def binder (session : Session σ) (settings : Settings) : Binder (Pool σ) where
  bind objectType method := fun p =>
    match client session settings objectType p with
    | .error h p => .error h p
    | .ok c p =>
      let operation := session.operation method
      if operation ∈ c.operations then .ok (fun params => handler c operation params) p
      else
        .error (.cause (.unknownOperation (capabilityName objectType method) operation)) p

end Pool

end CallPlan
