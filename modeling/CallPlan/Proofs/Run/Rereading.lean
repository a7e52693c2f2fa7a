import CallPlan.Run.Store
import CallPlan.Proofs.Template.Dependence
import CallPlan.Proofs.Template.Leafwise

/-!
# Reading results again

Resolving parameters looks up the ids that their references come to once the variables in them
have been expanded (`Template.Asks`), and no others: stores that agree on these are as good as each
other, for what parameters become and for how they fail. Publishing never changes what a store
has under an id (`Store.Grows.get?_eq`), and parameters that resolve have found all that they ask
for. So they resolve to the same value however many results are published later
(`Template.resolve_asks_only`).
-/

namespace CallPlan

/-! ## Stores that grow -/

namespace Store

/-- The store `t` comes from `s` by publishing results. -/
inductive Grows (s : Store) : Store → Prop
  | refl : Grows s s
  | publish {t u : Store} {id : String} {v : Value}
      (grown : Grows s t) (published : t.publish id v = .ok u) : Grows s u

/-- A publication leaves every result that is there as it is. -/
theorem get?_publish_of_ne_none {s t : Store} {id other : String} {v : Value}
    (h : s.publish id v = .ok t) (ho : s.get? other ≠ none) : t.get? other = s.get? other := by
  have hid : id ≠ other := by
    rintro rfl
    rw [publish_of_get?_ne_none ho] at h
    cases h
  rw [get?_publish h, if_neg hid]

theorem Grows.get?_eq {s t : Store} (h : s.Grows t) {id : String} (hid : s.get? id ≠ none) :
    t.get? id = s.get? id := by
  induction h with
  | refl => rfl
  | publish grown published ih =>
      rw [get?_publish_of_ne_none published (by rwa [ih]), ih]

end Store

/-! ## Resolving against stores -/

namespace Template

variable {scope : Scope} {params : Value}

/-- What parameters ask for does not depend on what is there. -/
theorem asks_withResults {results : String → Option Value} {id : String} :
    Asks (withResults scope results) params id ↔ Asks scope params id := by
  have henviron : (withResults scope results).environ = scope.environ := rfl
  exact asks_congr henviron

/-- Results that agree on what parameters ask for are as good as each other. -/
theorem resolve_withResults_congr {results results' : String → Option Value}
    (h : ∀ id, Asks scope params id → results id = results' id) :
    resolve (withResults scope results) params = resolve (withResults scope results') params := by
  have hagree : ∀ id, Asks (withResults scope results') params id → results id = results' id :=
    fun id ha => h id (asks_withResults.mp ha)
  exact resolve_withResults hagree

/-- Parameters that resolve against a store do so against every store that it grows into. -/
theorem resolve_of_grows {s t : Store} {y : Value} (hg : s.Grows t)
    (h : resolve (withResults scope s.get?) params = .ok y) :
    resolve (withResults scope t.get?) params = .ok y := by
  -- A resolution that succeeds has found everything that it asks for, and that stays as it is.
  have hagree : ∀ id, Asks scope params id → t.get? id = s.get? id := fun id ha =>
    hg.get?_eq (results_ne_none_of_asks h (asks_withResults.mpr ha))
  rw [resolve_withResults_congr hagree, h]

/-- **Resolving reads only the results that references name.** Against two stores that agree on
every id that parameters ask for, they become the same or fail in the same way; and what they have
become against one store, they become against every store that later publications make of it. -/
theorem resolve_asks_only (scope : Scope) (params : Value) :
    (∀ s t : Store, (∀ id, Asks scope params id → s.get? id = t.get? id) →
      resolve (withResults scope s.get?) params = resolve (withResults scope t.get?) params)
    ∧ ∀ (s t : Store) (y : Value), s.Grows t →
      resolve (withResults scope s.get?) params = .ok y →
      resolve (withResults scope t.get?) params = .ok y :=
  ⟨fun _ _ h => resolve_withResults_congr h, fun _ _ _ hg h => resolve_of_grows hg h⟩

/-! ## A reference whose id is a variable -/

def indirectParams : Value := .list [.text "\x7b%X%.f\x7d"]

/-- A store with the text `v` as the field `f` of the result `X`. -/
def soleStore : Store := Store.empty.push "X" (.record [("f", .text "v")]) rfl

/-- The same store with another result behind it. -/
def laterStore : Store := soleStore.push "Y" .null (by decide)

theorem asks_indirectParams {id : String} (h : Asks echoScope indirectParams id) : id = "X" := by
  obtain ⟨r, ⟨l, hl, ts, ht, hr⟩, hid⟩ := h
  have hleaves : leaves Place.top indirectParams = [("$[0]", "\x7b%X%.f\x7d")] := by cbv
  have htokens : tokenize "\x7b%X%.f\x7d" = .ok [.reference ⟨"%X%", "f", none⟩] := by cbv
  have hexpand : expand echoScope "%X%" = .ok "X" := by cbv
  rw [hleaves, List.mem_singleton] at hl
  rw [hl, htokens] at ht
  cases ht
  cases List.mem_singleton.mp hr
  exact Except.ok.inj (hid.symm.trans hexpand)

/-- The two stores agree on `X`, which is all that the parameters ask for. -/
theorem resolve_asks_only_indirectParams :
    resolve (withResults echoScope laterStore.get?) indirectParams = .ok (.list [.text "v"])
      ∧ resolve (withResults echoScope soleStore.get?) indirectParams =
        resolve (withResults echoScope laterStore.get?) indirectParams := by
  have hsole : resolve (withResults echoScope soleStore.get?) indirectParams =
      .ok (.list [.text "v"]) := by
    cbv
  have hgrows : soleStore.Grows laterStore :=
    .publish .refl (Store.publish_of_get?_eq_none (by decide) .null)
  obtain ⟨hagree, hlater⟩ := resolve_asks_only echoScope indirectParams
  exact ⟨hlater _ _ _ hgrows hsole, hagree _ _ fun id hid => by
    rw [asks_indirectParams hid]
    rfl⟩

end Template

end CallPlan
