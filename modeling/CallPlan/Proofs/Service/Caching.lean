import CallPlan.Proofs.Fields
import CallPlan.Proofs.Service.Pooling

/-!
# One client for a service

A pool is asked for clients and for handlers, in any order, and its session gives a client at one
time and refuses it at another. What becomes of one question is listed once (`Asked`): the service
has its client already, or the session gives one, or it refuses; and the client, old or new, may
not know the method. So all that a question ever does to the clients of a pool is to add one for a
service that had none (`clients_ask`).

A session can keep a record of the clients that it gives (`Session.recorded`). Whatever a pool is
asked, the clients that it has are those of the record, with every service once, and they are the
ones that its answers use (`one_client`).
-/

namespace CallPlan

open Sequencing

variable {σ ρ : Type}

/-! ## Sessions with a record -/

/-- The client beside data that it leaves alone. -/
def Client.beside (c : Client σ) : Client (σ × ρ) where
  operations := c.operations
  call operation params := fun (s, r) =>
    match c.call operation params s with
    | .ok response s => .ok response (s, r)
    | .error h s => .error h (s, r)

/-- The session with a record of the clients that it gives, each with its service. -/
def Session.recorded (session : Session σ) : Session (σ × List (String × Client σ)) where
  client request := fun (s, given) =>
    match session.client request s with
    | .ok (some c) s => .ok (some c.beside) (s, given ++ [(request.service, c)])
    | .ok none s => .ok none (s, given)
    | .error h s => .error h (s, given)
  operation := session.operation

namespace Pool

/-! ## Questions -/

/-- What a pool is asked for: the client for a type of objects, or the handler for a method. -/
inductive Ask
  | client (objectType : String)
  | handler (objectType method : String)

/-- What a pool gives. -/
inductive Answer (σ : Type)
  | client (c : Client σ)
  | handler (handler : Handler (Pool σ))

namespace Ask

def objectType : Ask → String
  | client objectType => objectType
  | handler objectType _ => objectType

/-- The client knows the method that is asked for, if one is. -/
def Suits (session : Session σ) (c : Client σ) : Ask → Prop
  | client _ => True
  | handler _ method => session.operation method ∈ c.operations

/-- The answer that uses this client. -/
def answer (session : Session σ) (c : Client σ) : Ask → Answer σ
  | client _ => .client c
  | handler _ method => .handler (Pool.handler c (session.operation method))

end Ask

/-- Asks a pool. -/
def ask (session : Session σ) (settings : Settings) (a : Ask) (p : Pool σ) :
    EStateM.Result Halt (Pool σ) (Answer σ) :=
  match a with
  | .client objectType =>
    match client session settings objectType p with
    | .ok c p => .ok (.client c) p
    | .error h p => .error h p
  | .handler objectType method =>
    match (binder session settings).bind objectType method p with
    | .ok handler p => .ok (.handler handler) p
    | .error h p => .error h p

/-- The pool behind some questions, whatever they ended with. -/
def afterAsking (session : Session σ) (settings : Settings) (p : Pool σ) (questions : List Ask) :
    Pool σ :=
  questions.foldl (fun p a => after (ask session settings a p)) p

variable {session : Session σ} {settings : Settings} {a : Ask} {p p' : Pool σ}

theorem afterAsking_append (p : Pool σ) (questions more : List Ask) :
    afterAsking session settings p (questions ++ more)
      = afterAsking session settings (afterAsking session settings p questions) more :=
  List.foldl_append

theorem ask_of_client_eq_ok {c : Client σ}
    (hclient : client session settings a.objectType p = .ok c p') (hsuits : a.Suits session c) :
    ask session settings a p = .ok (a.answer session c) p' := by
  cases a with
  | client objectType =>
      rw [Ask.objectType] at hclient
      simp only [ask, hclient, Ask.answer]
  | handler objectType method =>
      rw [Ask.objectType] at hclient
      have hbind := (bind_eq_ok_iff hclient).mpr ⟨hsuits, rfl, rfl⟩
      simp only [ask, hbind, Ask.answer]

theorem ask_of_client_unsuited {c : Client σ}
    (hclient : client session settings a.objectType p = .ok c p') (hsuits : ¬ a.Suits session c) :
    ∃ objectType method, a = .handler objectType method ∧ ask session settings a p
      = .error (.cause (.unknownOperation (capabilityName objectType method)
        (session.operation method))) p' := by
  cases a with
  | client objectType => exact absurd trivial hsuits
  | handler objectType method =>
      rw [Ask.objectType] at hclient
      rw [Ask.Suits] at hsuits
      refine ⟨objectType, method, rfl, ?_⟩
      simp only [ask, binder, hclient, if_neg hsuits]

theorem ask_of_client_eq_error {h : Halt}
    (hclient : client session settings a.objectType p = .error h p') :
    ask session settings a p = .error h p' := by
  cases a with
  | client objectType =>
      rw [Ask.objectType] at hclient
      simp only [ask, hclient]
  | handler objectType method =>
      rw [Ask.objectType] at hclient
      simp only [ask, binder, hclient]

/-- A question leaves the pool as asking for the client does. -/
theorem after_ask (session : Session σ) (settings : Settings) (a : Ask) (p : Pool σ) :
    after (ask session settings a p) = after (client session settings a.objectType p) := by
  cases hclient : client session settings a.objectType p with
  | error h p' => rw [ask_of_client_eq_error hclient, after_error, after_error]
  | ok c p' =>
      by_cases hsuits : a.Suits session c
      · rw [ask_of_client_eq_ok hclient hsuits, after_ok, after_ok]
      · obtain ⟨objectType, method, -, hask⟩ := ask_of_client_unsuited hclient hsuits
        rw [hask, after_error, after_ok]

/-! ## What becomes of a question -/

/-- The session gives the client that is asked for. -/
def Gives (session : Session σ) (settings : Settings) (a : Ask) (p : Pool σ) (c : Client σ)
    (s : σ) : Prop :=
  session.client (settings.requestFor a.objectType) p.session = .ok (some c) s

/-- The pool has no client for the service that is asked for. -/
def Lacks (settings : Settings) (a : Ask) (p : Pool σ) : Prop :=
  Fields.get? (settings.serviceOf a.objectType) p.clients = none

/-- The pool with one more client, in another state of the session. -/
def extended (settings : Settings) (a : Ask) (p : Pool σ) (c : Client σ) (s : σ) : Pool σ :=
  ⟨p.clients ++ [(settings.serviceOf a.objectType, c)], s⟩

/-- What becomes of a question. -/
inductive Asked (session : Session σ) (settings : Settings) (a : Ask) (p : Pool σ) :
    EStateM.Result Halt (Pool σ) (Answer σ) → Prop
  /-- The service has its client. -/
  | held {c : Client σ}
      (there : Fields.get? (settings.serviceOf a.objectType) p.clients = some c)
      (suits : a.Suits session c) :
      Asked session settings a p (.ok (a.answer session c) p)
  /-- The session gives one. -/
  | given {c : Client σ} {s : σ} (missing : Lacks settings a p)
      (gives : Gives session settings a p c s) (suits : a.Suits session c) :
      Asked session settings a p (.ok (a.answer session c) (extended settings a p c s))
  /-- The session gives none. -/
  | refused {h : Halt} {s : σ} (missing : Lacks settings a p)
      (refuses : ∀ c s', ¬ Gives session settings a p c s') :
      Asked session settings a p (.error h { p with session := s })
  /-- The client of the service does not know the method. -/
  | unknown {h : Halt} {c : Client σ}
      (there : Fields.get? (settings.serviceOf a.objectType) p.clients = some c)
      (unsuited : ¬ a.Suits session c) :
      Asked session settings a p (.error h p)
  /-- The one that the session gives does not. -/
  | givenUnknown {h : Halt} {c : Client σ} {s : σ} (missing : Lacks settings a p)
      (gives : Gives session settings a p c s) (unsuited : ¬ a.Suits session c) :
      Asked session settings a p (.error h (extended settings a p c s))

/-- A session that gives no client leaves a failure. -/
theorem client_of_refused (hmissing : Lacks settings a p)
    (hrefuses : ∀ c s', ¬ Gives session settings a p c s') :
    ∃ h s, client session settings a.objectType p = .error h { p with session := s } := by
  have hservice : (settings.requestFor a.objectType).service = settings.serviceOf a.objectType :=
    rfl
  unfold Lacks at hmissing
  unfold Gives at hrefuses
  cases hsession : session.client (settings.requestFor a.objectType) p.session with
  | error h s =>
      refine ⟨h, s, ?_⟩
      simp only [client, hservice, hmissing, hsession]
  | ok given s =>
      cases given with
      | some c => exact absurd hsession (hrefuses c s)
      | none =>
          refine ⟨.cause (.unknownService a.objectType (settings.serviceOf a.objectType)), s, ?_⟩
          simp only [client, hservice, hmissing, hsession]

theorem client_of_gives {c : Client σ} {s : σ} (hmissing : Lacks settings a p)
    (hgives : Gives session settings a p c s) :
    client session settings a.objectType p = .ok c (extended settings a p c s) := by
  rw [client_of_none hmissing hgives, Fields.set_of_get?_eq_none hmissing]
  rfl

theorem asked (session : Session σ) (settings : Settings) (a : Ask) (p : Pool σ) :
    Asked session settings a p (ask session settings a p) := by
  cases hthere : Fields.get? (settings.serviceOf a.objectType) p.clients with
  | some c =>
      have hclient : client session settings a.objectType p = .ok c p := client_of_some hthere
      by_cases hsuits : a.Suits session c
      · rw [ask_of_client_eq_ok hclient hsuits]
        exact .held hthere hsuits
      · obtain ⟨objectType, method, -, hask⟩ := ask_of_client_unsuited hclient hsuits
        rw [hask]
        exact .unknown hthere hsuits
  | none =>
      by_cases hgiven : ∃ c s, Gives session settings a p c s
      · obtain ⟨c, s, hgives⟩ := hgiven
        have hclient := client_of_gives hthere hgives
        by_cases hsuits : a.Suits session c
        · rw [ask_of_client_eq_ok hclient hsuits]
          exact .given hthere hgives hsuits
        · obtain ⟨objectType, method, -, hask⟩ := ask_of_client_unsuited hclient hsuits
          rw [hask]
          exact .givenUnknown hthere hgives hsuits
      · have hrefuses : ∀ c s, ¬ Gives session settings a p c s := fun c s hgives =>
          hgiven ⟨c, s, hgives⟩
        obtain ⟨h, s, hclient⟩ := client_of_refused hthere hrefuses
        rw [ask_of_client_eq_error hclient]
        exact .refused hthere hrefuses

/-- A question adds a client for a service that had none, or none at all. -/
theorem clients_ask (session : Session σ) (settings : Settings) (a : Ask) (p : Pool σ) :
    (after (ask session settings a p)).clients = p.clients ∨
      Lacks settings a p ∧ ∃ c s, after (ask session settings a p) = extended settings a p c s := by
  have hasked := asked session settings a p
  generalize ask session settings a p = outcome at hasked ⊢
  cases hasked with
  | held there suits => exact .inl rfl
  | given missing gives suits => exact .inr ⟨missing, _, _, rfl⟩
  | refused missing refuses => exact .inl rfl
  | unknown there unsuited => exact .inl rfl
  | givenUnknown missing gives unsuited => exact .inr ⟨missing, _, _, rfl⟩

/-! ## Many questions -/

/-- A service keeps its client. -/
theorem get?_afterAsking {service : String} {c : Client σ}
    (h : Fields.get? service p.clients = some c) (questions : List Ask) :
    Fields.get? service (afterAsking session settings p questions).clients = some c := by
  induction questions generalizing p with
  | nil => exact h
  | cons a questions ih =>
      have hstep : Fields.get? service (after (ask session settings a p)).clients = some c := by
        rcases clients_ask session settings a p with hsame | ⟨-, c', s, hadded⟩
        · rw [hsame]
          exact h
        · rw [hadded, extended, Fields.get?_append, h]
          rfl
      exact ih hstep

/-- No service gets a second client. -/
theorem nodup_keys_afterAsking (h : (Fields.keys p.clients).Nodup) (questions : List Ask) :
    (Fields.keys (afterAsking session settings p questions).clients).Nodup := by
  induction questions generalizing p with
  | nil => exact h
  | cons a questions ih =>
      have hstep : (Fields.keys (after (ask session settings a p)).clients).Nodup := by
        rcases clients_ask session settings a p with hsame | ⟨hlacks, c, s, hadded⟩
        · rw [hsame]
          exact h
        · have hnew : settings.serviceOf a.objectType ∉ Fields.keys p.clients :=
            Fields.get?_eq_none_iff.mp hlacks
          rw [hadded, extended, Fields.keys_append, List.nodup_append]
          refine ⟨h, by simp [Fields.keys], ?_⟩
          intro service hservice other hother heq
          obtain rfl : other = settings.serviceOf a.objectType := by
            simpa [Fields.keys] using hother
          exact hnew (heq ▸ hservice)
      exact ih hstep

/-! ## The record -/

/-- The first pool is the second one with a record, which has the clients of the pool. -/
structure Noted (r : Pool (σ × List (String × Client σ))) (p : Pool σ) : Prop where
  session : r.session = (p.session, p.clients)
  clients : r.clients = p.clients.map fun (service, c) => (service, c.beside)

theorem Noted.get?_eq {r : Pool (σ × List (String × Client σ))} (h : Noted r p)
    (service : String) :
    Fields.get? service r.clients = (Fields.get? service p.clients).map Client.beside := by
  rw [h.clients]
  exact Fields.get?_map Client.beside service p.clients

theorem Noted.ask {r : Pool (σ × List (String × Client σ))} (h : Noted r p) (a : Ask) :
    Noted (after (ask session.recorded settings a r)) (after (ask session settings a p)) := by
  rw [after_ask, after_ask]
  have hget := h.get?_eq (settings.serviceOf a.objectType)
  cases hthere : Fields.get? (settings.serviceOf a.objectType) p.clients with
  | some c =>
      rw [hthere] at hget
      rw [client_of_some hthere, client_of_some hget]
      exact h
  | none =>
      rw [hthere] at hget
      have hservice : (settings.requestFor a.objectType).service
          = settings.serviceOf a.objectType := rfl
      simp only [client, hservice, hthere, hget, Session.recorded, h.session, Option.map_none]
      cases hsession : session.client (settings.requestFor a.objectType) p.session with
      | error halt s => exact ⟨rfl, h.clients⟩
      | ok given s =>
          cases given with
          | none => exact ⟨rfl, h.clients⟩
          | some c =>
              refine ⟨?_, ?_⟩
              · rw [after_ok, after_ok, Fields.set_of_get?_eq_none hthere]
              · rw [after_ok, after_ok, Fields.set_of_get?_eq_none hthere,
                  Fields.set_of_get?_eq_none hget, h.clients, List.map_append]
                rfl

theorem Noted.afterAsking {r : Pool (σ × List (String × Client σ))} (h : Noted r p)
    (questions : List Ask) :
    Noted (afterAsking session.recorded settings r questions)
      (afterAsking session settings p questions) := by
  induction questions generalizing r p with
  | nil => exact h
  | cons a questions ih => exact ih (h.ask a)

/-- **A service has one client.** Whatever a new pool is asked, the clients that its session has
given are those that the pool has, and there is one for a service at most. An answer uses the
client that its service has in the end, whoever asks for it; so all answers for one service use the
same. A question without answer leaves the clients as they were, unless the session has given one
for the service and this does not know the method; then that one is added and no other. -/
theorem one_client (session : Session σ) (settings : Settings) (s : σ) (before : List Ask) (a : Ask)
    (behind : List Ask) :
    let p := afterAsking session settings (start s) before
    let last := afterAsking session settings (start s) (before ++ a :: behind)
    let recorded := afterAsking session.recorded settings (start (s, [])) (before ++ a :: behind)
    recorded.session = (last.session, last.clients)
    ∧ (Fields.keys last.clients).Nodup
    ∧ (∀ answer p', ask session settings a p = .ok answer p' →
      ∃ c, Fields.get? (settings.serviceOf a.objectType) last.clients = some c
        ∧ answer = a.answer session c)
    ∧ (∀ h p', ask session settings a p = .error h p' →
      p'.clients = p.clients
      ∨ ∃ c s', Lacks settings a p ∧ Gives session settings a p c s' ∧ ¬ a.Suits session c
        ∧ p'.clients = p.clients ++ [(settings.serviceOf a.objectType, c)]) := by
  intro p last recorded
  have hlast : last = afterAsking session settings (after (ask session settings a p)) behind :=
    afterAsking_append (start s) before (a :: behind)
  have hnoted : Noted (start (s, [])) (start s) := ⟨rfl, rfl⟩
  have hnone : (Fields.keys (start s).clients).Nodup := List.nodup_nil
  have hasked := asked session settings a p
  refine ⟨(hnoted.afterAsking _).session, nodup_keys_afterAsking hnone _, ?_, ?_⟩
  · intro answer p' hok
    rw [hok, after_ok] at hlast
    rw [hok] at hasked
    rw [hlast]
    cases hasked with
    | @held c there suits => exact ⟨c, get?_afterAsking there behind, rfl⟩
    | @given c s' missing gives suits =>
        refine ⟨c, get?_afterAsking ?_ behind, rfl⟩
        rw [extended, Fields.get?_append, missing]
        simp [Fields.get?]
  · intro h p' herror
    rw [herror] at hasked
    cases hasked with
    | refused missing refuses => exact .inl rfl
    | unknown there unsuited => exact .inl rfl
    | givenUnknown missing gives unsuited =>
        exact .inr ⟨_, _, missing, gives, unsuited, rfl⟩

/-! ## A session that refuses at first -/

/-- A session that refuses every first request and then gives clients that can put events. -/
def reluctant : Session Nat where
  client _ := fun n =>
    if n = 0 then .error (.fault (.raised .system "no connection")) 1
    else .ok (some ⟨["put_events"], fun _ _ => pure (.data .null)⟩) (n + 1)
  operation := id

/-- The first question is refused; the second one gets the service its client, though this does not
know the method; and the third one uses that client. -/
example :
    let p := afterAsking reluctant .initial (start 0)
      [.client "EventBridge", .handler "CloudWatchEvents" "put_rule", .client "EventBridge"]
    (Fields.keys p.clients, p.session) = (["events"], 2) := by
  decide +kernel

end Pool

end CallPlan
