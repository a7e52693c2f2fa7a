import CallPlan.Proofs.Number.Digits
import CallPlan.Proofs.Number.Shortest

/-!
# Numbers read back from their text

The text of a finite number is a numeral of its shortest decimal, whether it is written with a
point among the digits or with a power of ten (`exists_ofChars?_write`). Zeros may be added behind
the point, so the numeral need not have the digits of the decimal; it has the value, and the
nearest number to a numeral is a matter of its value. So what is read back is the number itself
(`read_write`).
-/

namespace CallPlan.Numeral

/-- The number that a numeral writes. -/
def value (n : Numeral) : ℚ :=
  (if n.negative then -1 else 1) * (n.digits * 10 ^ n.exponent)

/-! ## Pieces of a numeral -/

/-- The text does not go on with a digit. -/
def Ends (cs : List Char) : Prop :=
  ∀ c ∈ cs.head?, c.isDigit = false

theorem ends_nil : Ends [] := by
  rintro c ⟨⟩

theorem takeWhile_digits {ds rest : List Char} (hds : ∀ c ∈ ds, c.isDigit = true)
    (h : Ends rest) : (ds ++ rest).takeWhile Char.isDigit = ds ∧
      (ds ++ rest).dropWhile Char.isDigit = rest := by
  rw [List.takeWhile_append_of_pos hds, List.dropWhile_append_of_pos hds]
  cases rest with
  | nil => simp
  | cons c rest =>
      have hc : c.isDigit = false := h c rfl
      simp [hc]

/-- The sign of a negative number. -/
def minus (negative : Bool) : List Char :=
  if negative then ['-'] else []

theorem sign_minus (negative : Bool) {ds : List Char} (hds : ∀ c ∈ ds, c.isDigit = true)
    (hne : ds ≠ []) (rest : List Char) :
    sign (minus negative ++ (ds ++ rest)) = (negative, ds ++ rest) := by
  obtain ⟨d, ds, rfl⟩ := List.exists_cons_of_ne_nil hne
  have hd : d.isDigit = true := hds d (List.mem_cons_self ..)
  cases negative with
  | true => rfl
  | false =>
      change sign (d :: (ds ++ rest)) = (false, d :: (ds ++ rest))
      unfold sign
      split
      · next heq =>
        cases heq
        cases hd
      · next heq =>
        cases heq
        cases hd
      · rfl

/-- A numeral without a point. -/
theorem ofChars?_whole (negative : Bool) {whole tail : List Char} {p : Int}
    (hwhole : ∀ c ∈ whole, c.isDigit = true) (hne : whole ≠ []) (htail : Ends tail)
    (hpoint : tail.head? ≠ some '.') (hpower : power? tail = some p) :
    ofChars? (minus negative ++ (whole ++ tail)) = some ⟨negative, natOfDigits whole, p⟩ := by
  obtain ⟨htake, hdrop⟩ := takeWhile_digits hwhole htail
  have hfraction : fraction tail = ([], tail) := by
    unfold fraction
    split
    · exact absurd rfl hpoint
    · rfl
  simp only [ofChars?, sign_minus negative hwhole hne, htake, hdrop, hfraction, hpower]
  simp [hne]

/-- A numeral with a point and digits before it. -/
theorem ofChars?_pointed (negative : Bool) {whole part tail : List Char} {p : Int}
    (hwhole : ∀ c ∈ whole, c.isDigit = true) (hne : whole ≠ [])
    (hpart : ∀ c ∈ part, c.isDigit = true) (htail : Ends tail) (hpower : power? tail = some p) :
    ofChars? (minus negative ++ (whole ++ '.' :: (part ++ tail))) =
      some ⟨negative, natOfDigits (whole ++ part), p - part.length⟩ := by
  have hpoint : Ends ('.' :: (part ++ tail)) := by
    rintro c ⟨⟩
    rfl
  obtain ⟨htake, hdrop⟩ := takeWhile_digits hwhole hpoint
  obtain ⟨htakePart, hdropPart⟩ := takeWhile_digits hpart htail
  simp only [ofChars?, sign_minus negative hwhole hne, htake, hdrop, fraction, htakePart,
    hdropPart, hpower]
  simp [hne]

theorem ofChars?_point (negative : Bool) {whole part : List Char}
    (hwhole : ∀ c ∈ whole, c.isDigit = true) (hne : whole ≠ [])
    (hpart : ∀ c ∈ part, c.isDigit = true) :
    ofChars? (minus negative ++ (whole ++ '.' :: part)) =
      some ⟨negative, natOfDigits (whole ++ part), -part.length⟩ := by
  have hread := ofChars?_pointed negative hwhole hne hpart ends_nil rfl
  rwa [List.append_nil, zero_sub] at hread

end CallPlan.Numeral

namespace CallPlan.Binary64

open Numeral (isDigit_toDigits natOfDigits_toDigits)

/-! ## The two written forms -/

/-- Behind a sign the characters are a numeral of the decimal. -/
def Denotes (cs : List Char) (digits : Nat) (exponent : Int) : Prop :=
  ∀ negative, ∃ n : Numeral, Numeral.ofChars? (Numeral.minus negative ++ cs) = some n ∧
    n.negative = negative ∧ (n.digits : ℚ) * 10 ^ n.exponent = digits * 10 ^ exponent

theorem denotes_of_eq {cs : List Char} {c : Nat} {e : Int}
    (h : ∀ negative, Numeral.ofChars? (Numeral.minus negative ++ cs) = some ⟨negative, c, e⟩) :
    Denotes cs c e :=
  fun negative => ⟨_, h negative, rfl, rfl⟩

/-- All digits are behind the point, after zeros. -/
theorem denotes_behind {ds : List Char} (hds : ∀ d ∈ ds, d.isDigit = true) {point : Int}
    (hpoint : point ≤ 0) :
    Denotes ('0' :: '.' :: (List.replicate (-point).toNat '0' ++ ds))
      (Numeral.natOfDigits ds) (point - ds.length) := by
  refine denotes_of_eq fun negative => ?_
  have hread : Numeral.ofChars? (Numeral.minus negative ++
      (['0'] ++ '.' :: (List.replicate (-point).toNat '0' ++ ds))) = _ :=
    Numeral.ofChars?_point negative (Numeral.isDigit_zeros (n := 1)) (List.cons_ne_nil _ _)
      (Numeral.isDigit_append Numeral.isDigit_zeros hds)
  have hdigits : Numeral.natOfDigits (['0'] ++ (List.replicate (-point).toNat '0' ++ ds)) =
      Numeral.natOfDigits ds :=
    Numeral.natOfDigits_zeros_append ((-point).toNat + 1) ds
  have hexp : -(((List.replicate (-point).toNat '0' ++ ds).length : Nat) : Int) =
      point - ds.length := by
    rw [List.length_append, List.length_replicate]
    omega
  rw [hdigits, hexp] at hread
  exact hread

/-- All digits are before the point, followed by zeros. One more zero is behind it. -/
theorem denotes_before {ds : List Char} (hds : ∀ d ∈ ds, d.isDigit = true) (hne : ds ≠ [])
    {point : Int} (hpoint : ds.length ≤ point) :
    Denotes (ds ++ List.replicate (point.toNat - ds.length) '0' ++ ['.', '0'])
      (Numeral.natOfDigits ds) (point - ds.length) := by
  obtain ⟨k, rfl⟩ : ∃ k : Nat, point = ds.length + k := ⟨(point - ds.length).toNat, by omega⟩
  have hzeros : (ds.length + k : Int).toNat - ds.length = k := by omega
  rw [hzeros, add_sub_cancel_left]
  intro negative
  refine ⟨_, Numeral.ofChars?_point negative (Numeral.isDigit_append hds Numeral.isDigit_zeros)
    (by simp [hne]) (Numeral.isDigit_zeros (n := 1)), rfl, ?_⟩
  have hdigits : Numeral.natOfDigits (ds ++ List.replicate k '0' ++ ['0']) =
      Numeral.natOfDigits ds * 10 ^ k * 10 := by
    rw [Numeral.natOfDigits_append, Numeral.natOfDigits_append, Numeral.natOfDigits_zeros,
      List.length_replicate]
    rfl
  -- The zero behind the point is one digit more, which the exponent takes back.
  have hone : (-((['0'] : List Char).length : Nat) : Int) = -1 := rfl
  simp only [hdigits, hone]
  push_cast
  rw [zpow_natCast, zpow_neg_one]
  field_simp

/-- The point is among the digits. -/
theorem denotes_among {ds : List Char} (hds : ∀ d ∈ ds, d.isDigit = true) {point : Int}
    (hpos : 0 < point) (hpoint : point < ds.length) :
    Denotes (ds.take point.toNat ++ '.' :: ds.drop point.toNat)
      (Numeral.natOfDigits ds) (point - ds.length) := by
  refine denotes_of_eq fun negative => ?_
  have hne : ds.take point.toNat ≠ [] := by
    rw [ne_eq, List.take_eq_nil_iff]
    rintro (h | rfl)
    · omega
    · rw [List.length_nil] at hpoint
      omega
  have hread := Numeral.ofChars?_point negative
    (fun d hd => hds d (List.mem_of_mem_take (i := point.toNat) hd)) hne
    (fun d hd => hds d (List.mem_of_mem_drop (i := point.toNat) hd))
  have hexp : -(((ds.drop point.toNat).length : Nat) : Int) = point - ds.length := by
    rw [List.length_drop]
    omega
  rw [List.take_append_drop, hexp] at hread
  exact hread

theorem denotes_positional {ds : List Char} (hds : ∀ d ∈ ds, d.isDigit = true) (hne : ds ≠ [])
    (point : Int) :
    Denotes (positional ds point) (Numeral.natOfDigits ds) (point - ds.length) := by
  unfold positional
  by_cases hpoint : point ≤ 0
  · rw [if_pos hpoint]
    exact denotes_behind hds hpoint
  · rw [if_neg hpoint]
    split
    · next hlength => exact denotes_before hds hne (by omega)
    · next hlength => exact denotes_among hds (by omega) (by omega)

/-- A written power of ten. -/
theorem power?_written (exponent : Int) :
    Numeral.power? ('e' :: (if exponent < 0 then '-' else '+') ::
      (List.replicate (2 - (Nat.toDigits 10 exponent.natAbs).length) '0' ++
        Nat.toDigits 10 exponent.natAbs)) = some exponent := by
  have hdigits := Numeral.isDigit_append
    (Numeral.isDigit_zeros (n := 2 - (Nat.toDigits 10 exponent.natAbs).length))
    (isDigit_toDigits (n := exponent.natAbs))
  have hne : List.replicate (2 - (Nat.toDigits 10 exponent.natAbs).length) '0' ++
      Nat.toDigits 10 exponent.natAbs ≠ [] :=
    fun h => Nat.toDigits_ne_nil (List.append_eq_nil_iff.mp h).2
  have hvalue := (Numeral.natOfDigits_zeros_append
    (2 - (Nat.toDigits 10 exponent.natAbs).length) (Nat.toDigits 10 exponent.natAbs)).trans
    (natOfDigits_toDigits _)
  generalize List.replicate (2 - (Nat.toDigits 10 exponent.natAbs).length) '0' ++
    Nat.toDigits 10 exponent.natAbs = cs at *
  have hall : cs.all Char.isDigit = true := List.all_eq_true.mpr hdigits
  by_cases hexp : exponent < 0
  · rw [if_pos hexp]
    simp only [Numeral.power?, Numeral.sign, hvalue]
    rw [if_pos ⟨.inl trivial, hne, hall⟩, if_pos trivial, Option.some.injEq]
    omega
  · rw [if_neg hexp]
    simp only [Numeral.power?, Numeral.sign, hvalue]
    rw [if_pos ⟨.inl trivial, hne, hall⟩, if_neg (by decide), Option.some.injEq]
    omega

theorem denotes_scientific {ds : List Char} (hds : ∀ d ∈ ds, d.isDigit = true) (hne : ds ≠ [])
    (exponent : Int) :
    Denotes (scientific ds exponent) (Numeral.natOfDigits ds) (exponent + 1 - ds.length) := by
  obtain ⟨d, ds, rfl⟩ := List.exists_cons_of_ne_nil hne
  have hpower := power?_written exponent
  have hends : ∀ cs, Numeral.Ends ('e' :: cs) := by
    rintro cs c ⟨⟩
    rfl
  refine denotes_of_eq fun negative => ?_
  unfold scientific
  simp only [List.take_succ_cons, List.take_zero, List.drop_succ_cons, List.drop_zero,
    List.length_cons]
  cases ds with
  | nil =>
      have hread := Numeral.ofChars?_whole negative hds hne (hends _) (by simp) hpower
      simpa using hread
  | cons b ds =>
      have hwhole : ∀ c ∈ [d], c.isDigit = true := by simpa using hds d (by simp)
      have hpart : ∀ c ∈ b :: ds, c.isDigit = true :=
        fun c hc => hds c (List.mem_cons_of_mem _ hc)
      have hread := Numeral.ofChars?_pointed negative hwhole (by simp) hpart (hends _) hpower
      have hexp : exponent + 1 - ((ds.length + 1 + 1 : Nat) : Int) =
          exponent - ((b :: ds).length : Nat) := by
        rw [List.length_cons]
        omega
      rw [List.length_cons, hexp, if_neg (by omega)]
      simpa using hread

/-! ## Written numbers -/

variable {biased : Fin 2047} {fraction : Fin 4503599627370496}

theorem toList_signed (negative : Bool) (cs : List Char) :
    ((if negative then "-" else "") ++ String.ofList cs).toList = Numeral.minus negative ++ cs := by
  rw [String.toList_append, String.toList_ofList]
  cases negative <;> rfl

/-- The text of a number is a numeral of its shortest decimal. -/
theorem exists_ofChars?_write (style : Style) (negative : Bool)
    (hmantissa : 0 < mantissa biased fraction) :
    ∃ n, Numeral.ofChars? (write style (.finite negative biased fraction)).toList = some n ∧
      n.negative = negative ∧ (n.digits : ℚ) * 10 ^ n.exponent =
        (shortest biased fraction).digits * 10 ^ (shortest biased fraction).exponent := by
  have hdigits : ∀ d ∈ Nat.toDigits 10 (shortest biased fraction).digits, d.isDigit = true :=
    isDigit_toDigits
  have hne := Nat.toDigits_ne_nil (b := 10) (n := (shortest biased fraction).digits)
  have hvalue := natOfDigits_toDigits (shortest biased fraction).digits
  simp only [write, if_neg hmantissa.ne', toList_signed]
  generalize shortest biased fraction = s at *
  have hexp : s.exponent + (Nat.toDigits 10 s.digits).length - 1 + 1 -
      (Nat.toDigits 10 s.digits).length = s.exponent := by omega
  split
  · have hread := denotes_positional hdigits hne
      (s.exponent + (Nat.toDigits 10 s.digits).length - 1 + 1) negative
    rwa [hvalue, hexp] at hread
  · have hread := denotes_scientific hdigits hne
      (s.exponent + (Nat.toDigits 10 s.digits).length - 1) negative
    rwa [hvalue, hexp] at hread

/-- **A finite number is read back from its text.** -/
theorem read_write (style : Style) (negative : Bool) (biased : Fin 2047)
    (fraction : Fin 4503599627370496) :
    (Numeral.ofChars? (write style (.finite negative biased fraction)).toList).map
      Numeral.toBinary64 = some (.finite negative biased fraction) := by
  by_cases hmantissa : mantissa biased fraction = 0
  · obtain ⟨rfl, rfl⟩ := mantissa_eq_zero_iff.mp hmantissa
    have htext : write style (.finite negative 0 0) =
        (if negative then "-" else "") ++ String.ofList ['0', '.', '0'] := rfl
    rw [htext]
    cases negative <;> decide
  · obtain ⟨n, hn, hnegative, hvalue⟩ :=
      exists_ofChars?_write style negative (Nat.pos_of_ne_zero hmantissa)
    rw [hn, Option.map_some, Numeral.toBinary64, hnegative, ofDecimal_congr negative hvalue,
      ofDecimal_shortest negative (Nat.pos_of_ne_zero hmantissa)]

end CallPlan.Binary64
