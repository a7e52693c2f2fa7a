import CallPlan.Failure

/-!
# Values in texts

The text that stands for a value where a template splices it in: a text itself, a date
in its written form, the text that a byte string encodes, and the canonical text of
everything else. A null has no such text, and neither has a byte string that encodes
none or a value without canonical text.
-/

namespace CallPlan.Template

def render (v : Value) : Except Failure.Cause String :=
  match v with
  | .null => .error .nullValue
  | .text s => .ok s
  | .date d => .ok d.iso
  | .dateTime d => .ok d.iso
  | .bytes bs => (Text.Utf8.decodeText bs).mapError .binaryValue
  | v => (Canonical.text v).mapError (.unrenderable v.kind)

/-- Whatever keeps a value out of a text is a failure of resolution. -/
theorem kind_of_render_eq_error {v : Value} {c : Failure.Cause} (h : render v = .error c) :
    c.kind = .resolution := by
  unfold render at h
  split at h
  · cases h; rfl
  · cases h
  · cases h
  · cases h
  · next bs =>
    cases hd : Text.Utf8.decodeText bs <;> rw [hd] at h <;> cases h
    rfl
  · cases hd : Canonical.text v <;> rw [hd] at h <;> cases h
    rfl

end CallPlan.Template
