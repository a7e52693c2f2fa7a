import Mathlib.Data.List.Induction
import CallPlan.Proofs.Sequencing
import CallPlan.Service.Client

/-!
# Which version a client has

A pool asks the session for a client when the first method of a service is bound, and keeps it
(`Pool.Holds`). Several types of objects may belong to one service, and each may have a version of
its own in the settings. The one that counts is that of the type which is bound first, whatever
the later ones have (`Pool.bind_version`). So each type gets its own version as long as the types of
its service do not differ in it.
-/

namespace CallPlan

open Sequencing

variable {σ : Type} {session : Session σ} {settings : Settings} {s : σ} {p : Pool σ}
  {calls before : List (String × String)}

/-- The session has a client for the service, whatever it is asked for with and in every state. -/
def Session.Knows (session : Session σ) (service : String) : Prop :=
  ∀ request s, request.service = service → ∃ c s', session.client request s = .ok (some c) s'

namespace Pool

/-! ## Asking for clients -/

theorem client_of_some {objectType : String} {c : Client σ}
    (h : Fields.get? (settings.serviceOf objectType) p.clients = some c) :
    client session settings objectType p = .ok c p := by
  simp only [client, Settings.requestFor, h]

theorem client_of_none {objectType : String} {c : Client σ} {s' : σ}
    (hnone : Fields.get? (settings.serviceOf objectType) p.clients = none)
    (hclient : session.client (settings.requestFor objectType) p.session = .ok (some c) s') :
    client session settings objectType p
      = .ok c ⟨Fields.set (settings.serviceOf objectType) c p.clients, s'⟩ := by
  have hservice : (settings.requestFor objectType).service = settings.serviceOf objectType := rfl
  simp only [client, hservice, hnone, hclient]

/-- Binding leaves the pool as asking for the client does. -/
theorem after_bind_eq (session : Session σ) (settings : Settings) (objectType method : String)
    (p : Pool σ) :
    after ((binder session settings).bind objectType method p)
      = after (client session settings objectType p) := by
  simp only [binder]
  cases client session settings objectType p with
  | ok c p => simp only; split <;> rfl
  | error h p => rfl

/-- A method is bound if the client has its operation, and the handler calls the client. -/
theorem bind_eq_ok_iff {objectType method : String} {c : Client σ} {p' p'' : Pool σ}
    {handler : Handler (Pool σ)} (hclient : client session settings objectType p = .ok c p') :
    (binder session settings).bind objectType method p = .ok handler p'' ↔
      session.operation method ∈ c.operations ∧ handler = Pool.handler c (session.operation method)
        ∧ p'' = p' := by
  simp only [binder, hclient]
  by_cases hoperation : session.operation method ∈ c.operations
  · rw [if_pos hoperation]
    constructor
    · rintro ⟨⟩
      exact ⟨hoperation, rfl, rfl⟩
    · rintro ⟨-, rfl, rfl⟩
      rfl
  · rw [if_neg hoperation]
    constructor
    · nofun
    · rintro ⟨h, -⟩
      exact absurd h hoperation

/-! ## Binding one method after the other -/

/-- The pool behind some bindings, also where these fail. -/
def afterBinding (session : Session σ) (settings : Settings) (s : σ)
    (calls : List (String × String)) : Pool σ :=
  calls.foldl (fun p call => after ((binder session settings).bind call.1 call.2 p)) (start s)

theorem afterBinding_append_singleton (calls : List (String × String)) (call : String × String) :
    afterBinding session settings s (calls ++ [call])
      = after (client session settings call.1 (afterBinding session settings s calls)) := by
  rw [afterBinding, List.foldl_append]
  exact after_bind_eq ..

/-- One of the calls is the first of its service, and for its type the session gave the client when
it was bound. -/
def Created (session : Session σ) (settings : Settings) (s : σ) (calls : List (String × String))
    (first : String × String) (c : Client σ) : Prop :=
  ∃ earlier later s', calls = earlier ++ first :: later
    ∧ (∀ call ∈ earlier, settings.serviceOf call.1 ≠ settings.serviceOf first.1)
    ∧ session.client (settings.requestFor first.1)
        (afterBinding session settings s earlier).session = .ok (some c) s'

theorem Created.append {first : String × String} {c : Client σ}
    (h : Created session settings s calls first c) (more : List (String × String)) :
    Created session settings s (calls ++ more) first c := by
  obtain ⟨earlier, later, s', rfl, hearlier, hclient⟩ := h
  exact ⟨earlier, later ++ more, s', by simp, hearlier, hclient⟩

theorem Created.mem {first : String × String} {c : Client σ}
    (h : Created session settings s calls first c) : first ∈ calls := by
  obtain ⟨earlier, later, s', rfl, -⟩ := h
  simp

/-- The pool has clients for just the services of these calls, each created for the first of
them. -/
structure Holds (session : Session σ) (settings : Settings) (s : σ)
    (calls : List (String × String)) (p : Pool σ) : Prop where
  missing : ∀ service, (∀ call ∈ calls, settings.serviceOf call.1 ≠ service) →
    Fields.get? service p.clients = none
  held : ∀ call ∈ calls, ∃ first c, Created session settings s calls first c
    ∧ settings.serviceOf first.1 = settings.serviceOf call.1
    ∧ Fields.get? (settings.serviceOf call.1) p.clients = some c

theorem holds_start : Holds session settings s [] (start s) where
  missing _ _ := rfl
  held := nofun

/-- A service that is there already keeps its client. -/
theorem Holds.append_of_mem {call : String × String} (h : Holds session settings s calls p)
    (hmem : ∃ call' ∈ calls, settings.serviceOf call'.1 = settings.serviceOf call.1) :
    Holds session settings s (calls ++ [call]) p where
  missing service hnone := h.missing service fun call' hcall' =>
    hnone call' (List.mem_append_left _ hcall')
  held call' hcall' := by
    rcases List.mem_append.mp hcall' with hcalls | hlast
    · obtain ⟨first, c, hcreated, hservice, hget⟩ := h.held call' hcalls
      exact ⟨first, c, hcreated.append _, hservice, hget⟩
    · obtain rfl := List.mem_singleton.mp hlast
      obtain ⟨call'', hcall'', heq⟩ := hmem
      obtain ⟨first, c, hcreated, hservice, hget⟩ := h.held call'' hcall''
      exact ⟨first, c, hcreated.append _, hservice.trans heq, heq ▸ hget⟩

/-- A new service gets the client that the session gives for this call. -/
theorem Holds.append_of_not_mem {call : String × String} {c : Client σ} {s' : σ}
    (h : Holds session settings s calls (afterBinding session settings s calls))
    (hnew : ∀ call' ∈ calls, settings.serviceOf call'.1 ≠ settings.serviceOf call.1)
    (hclient : session.client (settings.requestFor call.1)
      (afterBinding session settings s calls).session = .ok (some c) s') :
    Holds session settings s (calls ++ [call])
      ⟨Fields.set (settings.serviceOf call.1) c
        (afterBinding session settings s calls).clients, s'⟩ where
  missing service hnone := by
    have hne : settings.serviceOf call.1 ≠ service := hnone call (by simp)
    rw [Fields.get?_set, if_neg hne]
    exact h.missing service fun call' hcall' => hnone call' (List.mem_append_left _ hcall')
  held call' hcall' := by
    rcases List.mem_append.mp hcall' with hcalls | hlast
    · obtain ⟨first, c', hcreated, hservice, hget⟩ := h.held call' hcalls
      refine ⟨first, c', hcreated.append _, hservice, ?_⟩
      rw [Fields.get?_set, if_neg (hnew call' hcalls).symm]
      exact hget
    · obtain rfl := List.mem_singleton.mp hlast
      refine ⟨call', c, ⟨calls, [], s', rfl, hnew, hclient⟩, rfl, ?_⟩
      rw [Fields.get?_set, if_pos rfl]

/-- Binding keeps this, and what is bound has the client of its service. -/
theorem Holds.step (h : Holds session settings s calls (afterBinding session settings s calls))
    (call : String × String) (hknows : session.Knows (settings.serviceOf call.1)) :
    ∃ c, client session settings call.1 (afterBinding session settings s calls)
        = .ok c (afterBinding session settings s (calls ++ [call]))
      ∧ Fields.get? (settings.serviceOf call.1)
        (afterBinding session settings s (calls ++ [call])).clients = some c
      ∧ Holds session settings s (calls ++ [call])
        (afterBinding session settings s (calls ++ [call])) := by
  rw [afterBinding_append_singleton]
  by_cases hmem : ∃ call' ∈ calls, settings.serviceOf call'.1 = settings.serviceOf call.1
  · obtain ⟨call', hcall', heq⟩ := hmem
    obtain ⟨first, c, -, -, hget⟩ := h.held call' hcall'
    rw [heq] at hget
    rw [client_of_some hget]
    exact ⟨c, rfl, hget, h.append_of_mem ⟨call', hcall', heq⟩⟩
  · have hnew : ∀ call' ∈ calls, settings.serviceOf call'.1 ≠ settings.serviceOf call.1 :=
      fun call' hcall' heq => hmem ⟨call', hcall', heq⟩
    obtain ⟨c, s', hclient⟩ := hknows (settings.requestFor call.1)
      (afterBinding session settings s calls).session rfl
    rw [client_of_none (h.missing _ hnew) hclient]
    refine ⟨c, rfl, ?_, h.append_of_not_mem hnew hclient⟩
    rw [after_ok, Fields.get?_set, if_pos rfl]

/-- So the pool behind any bindings has the clients of their services. -/
theorem holds_afterBinding (hknows : ∀ call ∈ calls, session.Knows (settings.serviceOf call.1)) :
    Holds session settings s calls (afterBinding session settings s calls) := by
  induction calls using List.reverseRecOn with
  | nil => exact holds_start
  | append_singleton calls call ih =>
      have hcalls := ih fun call' hcall' => hknows call' (List.mem_append_left _ hcall')
      obtain ⟨c, -, -, hholds⟩ := hcalls.step call (hknows call (by simp))
      exact hholds

/-- **The version of a client is that of the type which is bound first.** If a method is bound
behind others, and the session knows all their services, then its handler calls the client that the
session gave for the first of them that belongs to the same service; there is a handler if this
client has the operation. The version which the client was asked for with is that of the settings
for the first one's type: it is the version for the method's own type if the types that were bound
before do not differ in it. -/
theorem bind_version (session : Session σ) (settings : Settings) (s : σ)
    (before : List (String × String)) (objectType method : String)
    (hknows : ∀ call ∈ before ++ [(objectType, method)],
      session.Knows (settings.serviceOf call.1)) :
    ∃ first c, Created session settings s (before ++ [(objectType, method)]) first c
      ∧ settings.serviceOf first.1 = settings.serviceOf objectType
      ∧ (∀ handler p', (binder session settings).bind objectType method
          (afterBinding session settings s before) = .ok handler p' ↔
        session.operation method ∈ c.operations ∧ handler = Pool.handler c (session.operation method)
          ∧ p' = afterBinding session settings s (before ++ [(objectType, method)]))
      ∧ (settings.requestFor first.1).version
        = settings.versionOf first.1 (settings.serviceOf objectType)
      ∧ ((∀ call ∈ before, settings.serviceOf call.1 = settings.serviceOf objectType →
          settings.versionOf call.1 (settings.serviceOf objectType)
            = settings.versionOf objectType (settings.serviceOf objectType)) →
        (settings.requestFor first.1).version
          = settings.versionOf objectType (settings.serviceOf objectType)) := by
  have hbefore : Holds session settings s before
      (afterBinding session settings s before) :=
    holds_afterBinding fun call hcall => hknows call (List.mem_append_left _ hcall)
  obtain ⟨c, hclient, hget, hholds⟩ := hbefore.step (objectType, method) (hknows _ (by simp))
  obtain ⟨first, c', hcreated, hservice, hget'⟩ := hholds.held (objectType, method) (by simp)
  obtain rfl : c = c' := Option.some.inj (hget.symm.trans hget')
  have hversion : (settings.requestFor first.1).version
      = settings.versionOf first.1 (settings.serviceOf objectType) := by
    rw [← hservice]
    rfl
  refine ⟨first, c, hcreated, hservice, fun handler p' => bind_eq_ok_iff hclient, hversion,
    fun hsame => ?_⟩
  rw [hversion]
  rcases List.mem_append.mp hcreated.mem with hmem | hlast
  · exact hsame first hmem hservice
  · obtain rfl := List.mem_singleton.mp hlast
    rfl

/-! ## Two types of one service -/

/-- A session whose clients answer with the version that they were asked for with. -/
def answering : Session Unit where
  client request := pure (some ⟨["put_events"], fun _ _ =>
    pure (.data (.text (request.version.getD "")))⟩)
  operation := id

theorem knows_answering (service : String) : answering.Knows service :=
  fun _ _ _ => ⟨_, _, rfl⟩

/-- Settings with these versions. -/
def versioned (versions : List (String × String)) : Settings :=
  { Settings.initial with versions }

/-- A version for the service holds for both types. -/
theorem bind_version_events :
    (∀ service, answering.Knows service)
    ∧ ∃ first c, Created answering (versioned [("events", "2015-10-07")]) ()
        [("CloudWatchEvents", "put_events"), ("EventBridge", "put_events")] first c
      ∧ ((versioned [("events", "2015-10-07")]).requestFor first.1).version
        = some "2015-10-07" := by
  obtain ⟨first, c, hcreated, -, -, -, hversion⟩ := bind_version answering
    (versioned [("events", "2015-10-07")]) () [("CloudWatchEvents", "put_events")] "EventBridge"
    "put_events" fun _ _ => knows_answering _
  refine ⟨knows_answering, first, c, hcreated, (hversion fun call hcall _ => ?_).trans (by decide)⟩
  obtain rfl := List.mem_singleton.mp hcall
  decide

/-- Where each type has a version of its own, the second one gets that of the first. -/
theorem bind_eventBridge :
    let settings := versioned [("cloudwatchevents", "2014-02-03"), ("eventbridge", "2015-10-07")]
    settings.versionOf "EventBridge" (settings.serviceOf "EventBridge") = some "2015-10-07"
    ∧ ∃ handler p, (binder answering settings).bind "EventBridge" "put_events"
          (afterBinding answering settings () [("CloudWatchEvents", "put_events")])
        = .ok handler p
      ∧ handler (.map []) p = .ok (.text "2014-02-03") p :=
  ⟨by decide, _, _, rfl, rfl⟩

end Pool

end CallPlan
