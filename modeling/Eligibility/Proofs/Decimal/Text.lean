import Eligibility.Decimal.Text
import Eligibility.Proofs.Numeral
/-!
# Decimals and their texts

As long as digits fit they are appended to what has been read of a text (`read?_append`).  The text of a decimal has
all its digits and places, so it is read back exactly, but for the sign of a zero (`read?_text`), which no sum shows
(`add?_withoutZeroSign`).
-/
namespace Eligibility.Decimal

/-- The decimal, without a sign if it is zero. -/
def withoutZeroSign (d : Decimal) : Decimal := { d with negative := d.negative && d.coefficient ≠ 0 }

@[simp] theorem coefficient_withoutZeroSign (d : Decimal) : d.withoutZeroSign.coefficient = d.coefficient := rfl

@[simp] theorem places_withoutZeroSign (d : Decimal) : d.withoutZeroSign.places = d.places := rfl

@[simp] theorem signed_withoutZeroSign (d : Decimal) : d.withoutZeroSign.signed = d.signed := by
  unfold signed withoutZeroSign
  by_cases h : d.coefficient = 0 <;> simp [h]

@[simp] theorem scaled_withoutZeroSign (d : Decimal) (places : Nat) :
    d.withoutZeroSign.scaled places = d.scaled places := by simp [scaled]

@[simp] theorem withoutZeroSign_withoutZeroSign (d : Decimal) : d.withoutZeroSign.withoutZeroSign = d.withoutZeroSign := by
  simp [withoutZeroSign]

theorem eqv_withoutZeroSign (d : Decimal) : d.eqv d.withoutZeroSign = true := by simp [eqv]

/-- **No sum shows the sign of a zero.** -/
theorem add?_withoutZeroSign (a b : Decimal) :
    (a.withoutZeroSign.add? b.withoutZeroSign).map withoutZeroSign = (a.add? b).map withoutZeroSign := by
  unfold add?
  simp only [coefficient_withoutZeroSign, places_withoutZeroSign, scaled_withoutZeroSign]
  split
  · simp
  · split <;> simp

namespace Progress

/-- What has been read when digits have been appended. -/
def after (p : Progress) (text : List Char) : Progress := text.foldl (fun p c => p.digit (c.toNat - '0'.toNat)) p

theorem after_cons (p : Progress) (c : Char) (text : List Char) :
    p.after (c :: text) = (p.digit (c.toNat - '0'.toNat)).after text := by rw [after, List.foldl_cons, after]

theorem coefficient_after (text : List Char) : ∀ p : Progress,
    (p.after text).coefficient = Nat.ofDigitChars 10 text p.coefficient := by
  induction text with
  | nil => exact fun _ => rfl
  | cons c rest ih =>
    intro p
    rw [after_cons, ih, Nat.ofDigitChars_cons, Nat.mul_comm]
    rfl

theorem le_coefficient_after (p : Progress) (text : List Char) : p.coefficient ≤ (p.after text).coefficient := by
  rw [coefficient_after, Nat.ofDigitChars_eq_ofDigitChars_zero]
  exact Nat.le_add_right_of_le (Nat.le_mul_of_pos_left _ (Nat.pow_pos (by decide)))

theorem point_after (text : List Char) : ∀ p : Progress, (p.after text).point = p.point := by
  induction text with
  | nil => exact fun _ => rfl
  | cons c rest ih => exact fun p => ih _

theorem digits_after {text : List Char} (h : text ≠ []) : ∀ p : Progress, (p.after text).digits = true := by
  induction text with
  | nil => exact absurd rfl h
  | cons c rest ih =>
    intro p
    cases rest with
    | nil => rfl
    | cons d others => exact ih (List.cons_ne_nil _ _) _

theorem places_after (text : List Char) : ∀ {p : Progress}, (p.point = false → p.places = 0) →
    (p.after text).places = p.places + if p.point then text.length else 0 := by
  induction text with
  | nil => simp [after]
  | cons c rest ih =>
    intro p hp
    rw [after_cons, ih (by simp +contextual [digit])]
    cases h : p.point with
    | false => simp [digit, h, hp h]
    | true =>
      simp [digit, h]
      omega

theorem read?_cons_of_isDigit {p : Progress} {c : Char} {rest : List Char} (hc : c.isDigit = true)
    (hplaces : p.point = true → p.places < maxPlaces)
    (hfit : (p.digit (c.toNat - '0'.toNat)).coefficient < coefficientLimit) :
    p.read? (c :: rest) = (p.digit (c.toNat - '0'.toNat)).read? rest := by
  have hfull : ¬ ((p.point && maxPlaces ≤ p.places) = true) := by simpa using hplaces
  have hpoint : c ≠ '.' := by
    rintro rfl
    exact absurd hc (by decide)
  have hunderscore : c ≠ '_' := by
    rintro rfl
    exact absurd hc (by decide)
  rw [read?, if_neg hfull, if_neg hpoint, if_neg hunderscore, Numeral.digitOf?_ten_of_isDigit hc]
  exact if_pos hfit

/-- **Digits that fit are appended.** -/
theorem read?_append {text rest : List Char} (hall : text.all Char.isDigit = true) : ∀ {p : Progress},
    (p.point = true → p.places + text.length ≤ maxPlaces) → (p.after text).coefficient < coefficientLimit →
      p.read? (text ++ rest) = (p.after text).read? rest := by
  induction text with
  | nil => exact fun _ _ => rfl
  | cons c others ih =>
    intro p hplaces hfit
    rw [List.all_cons, Bool.and_eq_true] at hall
    rw [after_cons] at hfit ⊢
    have hdigit := Nat.lt_of_le_of_lt (le_coefficient_after _ others) hfit
    rw [List.length_cons] at hplaces
    rw [List.cons_append, read?_cons_of_isDigit hall.1 (fun h => by have := hplaces h; omega) hdigit]
    refine ih hall.2 (fun h => ?_) hfit
    have := hplaces h
    have hnext : (p.digit (c.toNat - '0'.toNat)).places = p.places + 1 := if_pos h
    omega

theorem read?_point {p : Progress} (h : p.point = false) (rest : List Char) :
    p.read? ('.' :: rest) = { p with point := true }.read? rest := by
  rw [read?, h]
  rfl

/-- **Digits alone** are read as the number that they write. -/
theorem read?_digits {digits : List Char} (hne : digits ≠ []) (hall : digits.all Char.isDigit = true)
    (hfit : Nat.ofDigitChars 10 digits 0 < coefficientLimit) :
    start.read? digits = some (Nat.ofDigitChars 10 digits 0, 0) := by
  have hnopoint : start.point = true → start.places + digits.length ≤ maxPlaces := fun h => by cases h
  have hcoefficient : (start.after digits).coefficient = Nat.ofDigitChars 10 digits 0 := coefficient_after digits start
  have hplaces : (start.after digits).places = 0 := places_after digits fun _ => rfl
  rw [← hcoefficient] at hfit ⊢
  rw [← List.append_nil digits, read?_append hall hnopoint hfit, List.append_nil, read?, done?,
    if_pos (digits_after hne start), hplaces]

/-- **Digits with a point between them** are read as the number that all of them write, and the digits after it. -/
theorem read?_digits_point {whole fraction : List Char} (hne : whole ≠ [])
    (hall : (whole ++ fraction).all Char.isDigit = true) (hplaces : fraction.length ≤ maxPlaces)
    (hfit : Nat.ofDigitChars 10 (whole ++ fraction) 0 < coefficientLimit) :
    start.read? (whole ++ '.' :: fraction) = some (Nat.ofDigitChars 10 (whole ++ fraction) 0, fraction.length) := by
  rw [List.all_append, Bool.and_eq_true] at hall
  -- the point leaves the coefficient as it is
  let p : Progress := { start.after whole with point := true }
  have hcoefficient : (p.after fraction).coefficient = Nat.ofDigitChars 10 (whole ++ fraction) 0 := by
    rw [Nat.ofDigitChars_append, coefficient_after]
    exact congrArg (Nat.ofDigitChars 10 fraction) (coefficient_after whole start)
  have hpoint : (start.after whole).point = false := point_after whole start
  have hstart : (start.after whole).places = 0 := places_after whole fun _ => rfl
  have hlength : (p.after fraction).places = fraction.length := by
    rw [places_after fraction (fun h => by cases h)]
    simp [p, hstart]
  have hdigits : (p.after fraction).digits = true := by
    cases fraction with
    | nil => exact digits_after hne start
    | cons c rest => exact digits_after (List.cons_ne_nil _ _) p
  have hnopoint : start.point = true → start.places + whole.length ≤ maxPlaces := fun h => by cases h
  have hroom : p.point = true → p.places + fraction.length ≤ maxPlaces := by
    intro _
    simpa [p, hstart] using hplaces
  rw [← hcoefficient] at hfit ⊢
  have hwhole : (start.after whole).coefficient < coefficientLimit :=
    Nat.lt_of_le_of_lt (p.le_coefficient_after fraction) hfit
  rw [read?_append hall.1 hnopoint hwhole, read?_point hpoint, ← List.append_nil fraction,
    read?_append hall.2 hroom hfit, List.append_nil, read?, done?, if_pos hdigits, hlength]

end Progress

/-- Digits with a point are the same digits, after zeros at most, with the point before the last places. -/
theorem exists_withPoint_eq {digits : List Char} (hne : digits ≠ []) (places : Nat) :
    ∃ zeros whole fraction, whole ≠ [] ∧ whole ++ fraction = List.replicate zeros '0' ++ digits ∧
      fraction.length = places ∧ withPoint digits places = if places = 0 then whole else whole ++ '.' :: fraction := by
  by_cases h : places = 0
  · subst h
    exact ⟨0, digits, [], hne, by simp, rfl, rfl⟩
  · generalize hpadded : List.replicate (places + 1 - digits.length) '0' ++ digits = padded
    have hlength : places < padded.length := by
      rw [← hpadded, List.length_append, List.length_replicate]
      omega
    refine ⟨places + 1 - digits.length, padded.take (padded.length - places), padded.drop (padded.length - places),
      ?_, ?_, ?_, ?_⟩
    · rw [← List.length_pos_iff, List.length_take]
      omega
    · rw [hpadded, List.take_append_drop]
    · rw [List.length_drop]
      omega
    · rw [withPoint, if_neg h, if_neg h, ← hpadded]

/-- **A coefficient that fits and its places are read back.** -/
theorem read?_withPoint {n places : Nat} (hn : n < coefficientLimit) (hplaces : places ≤ maxPlaces) :
    Progress.start.read? (withPoint (Nat.toDigits 10 n) places) = some (n, places) := by
  obtain ⟨zeros, whole, fraction, hne, hdigits, rfl, htext⟩ := exists_withPoint_eq Nat.toDigits_ne_nil places
  have hall := Numeral.all_isDigit_replicate_append_toDigits zeros n
  have hvalue := Numeral.ofDigitChars_replicate_append_toDigits zeros n
  rw [← hdigits] at hall hvalue
  rw [htext]
  split
  · rename_i h
    obtain rfl := List.length_eq_zero_iff.1 h
    rw [List.append_nil] at hall hvalue
    rw [Progress.read?_digits hne hall (hvalue ▸ hn), hvalue, h]
  · rw [Progress.read?_digits_point hne hall hplaces (hvalue ▸ hn), hvalue]

theorem head?_withPoint (n places : Nat) : ∃ c ∈ (withPoint (Nat.toDigits 10 n) places).head?, c.isDigit = true := by
  obtain ⟨zeros, whole, fraction, hne, hdigits, -, htext⟩ := exists_withPoint_eq (n.toDigits_ne_nil (b := 10)) places
  have hall := Numeral.all_isDigit_replicate_append_toDigits zeros n
  rw [← hdigits] at hall
  cases whole with
  | nil => exact absurd rfl hne
  | cons c rest =>
    refine ⟨c, ?_, (by simpa using hall : c.isDigit = true ∧ _).1⟩
    rw [htext]
    split <;> rfl

theorem readPlain?_of_isDigit {text : List Char} (h : ∃ c ∈ text.head?, c.isDigit = true) :
    readPlain? text = (Progress.start.read? text).bind fun (n, places) => ofParts? (false && n ≠ 0) n places := by
  obtain ⟨c, hc, hdigit⟩ := h
  cases text with
  | nil => cases hc
  | cons d rest =>
    cases hc
    unfold readPlain?
    split
    rename_i heq
    split at heq
    · rename_i hminus
      cases hminus
      exact absurd hdigit (by decide)
    · rename_i hplus
      cases hplus
      exact absurd hdigit (by decide)
    · cases heq
      rfl

/-- **A decimal is read back from its text**, but for the sign of a zero. -/
theorem read?_text (d : Decimal) : read? d.text = some d.withoutZeroSign := by
  have hread := read?_withPoint d.coefficient_lt d.places_le
  have hplain : readPlain? d.text.toList = some d.withoutZeroSign := by
    have hparts (negative : Bool) : ofParts? (negative && d.coefficient ≠ 0) d.coefficient d.places =
        some { d with negative := negative && d.coefficient ≠ 0 } :=
      dif_pos ⟨d.coefficient_lt, d.places_le⟩
    rw [text, String.toList_ofList, Nat.toList_repr]
    split
    · rename_i hnegative
      rw [readPlain?, hread, Option.bind_some, withoutZeroSign, hnegative]
      exact hparts true
    · rename_i hpositive
      rw [readPlain?_of_isDigit (head?_withPoint d.coefficient d.places), hread, Option.bind_some, withoutZeroSign,
        Bool.eq_false_iff.2 hpositive]
      exact hparts false
  rw [read?, hplain]

end Eligibility.Decimal
