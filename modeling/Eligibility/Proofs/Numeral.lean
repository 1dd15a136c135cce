import Eligibility.Numeral
import Mathlib.Data.List.Induction
/-!
# Numerals and the numbers that they write

A number is written in digits in one way but for zeros in front (`eq_replicate_append_toDigits`).  So the texts that are
read as a number of 64 bits are its digits, after any number of zeros and at most one plus sign
(`word?_eq_some_iff`).
-/
namespace Eligibility.Numeral

/-- **A text that writes a number**: its decimal digits, zeros in front of them, and a plus sign or none. -/
def Writes (text : List Char) (n : Nat) : Prop :=
  ∃ sign zeros, (sign = [] ∨ sign = ['+']) ∧ text = sign ++ (List.replicate zeros '0' ++ Nat.toDigits 10 n)

theorem isDigit_iff {c : Char} : c.isDigit = true ↔ '0' ≤ c ∧ c ≤ '9' := by
  simp [Char.isDigit, Char.le_def]

theorem toNat_of_isDigit {c : Char} (h : c.isDigit = true) : ∃ d, d < 10 ∧ c.toNat = 48 + d := by
  have hbounds : 48 ≤ c.toNat ∧ c.toNat ≤ 57 := isDigit_iff.1 h
  exact ⟨c.toNat - 48, by omega, by omega⟩

theorem digitOf?_ten_of_isDigit {c : Char} (h : c.isDigit = true) : digitOf? 10 c = some (c.toNat - '0'.toNat) := by
  obtain ⟨d, hlt, hd⟩ := toNat_of_isDigit h
  simp [digitOf?, digitValue?, isDigit_iff.1 h, hd, hlt]

theorem isDigit_of_digitOf?_ten {c : Char} {d : Nat} (h : digitOf? 10 c = some d) : c.isDigit = true := by
  obtain ⟨e, he, h⟩ := Option.bind_eq_some_iff.1 h
  have hlt : e < 10 := by
    by_contra hge
    rw [if_neg hge] at h
    cases h
  rw [digitValue?] at he
  split at he
  · rename_i hc
    exact isDigit_iff.2 hc
  · -- the value of a letter is ten at least
    split at he
    · obtain rfl := Option.some.inj he
      omega
    · split at he
      · obtain rfl := Option.some.inj he
        omega
      · cases he

theorem continue?_ten (n : Nat) : ∀ text : List Char,
    (text.all Char.isDigit = true → continue? 10 n text = some (Nat.ofDigitChars 10 text n)) ∧
      ∀ m, continue? 10 n text = some m → text.all Char.isDigit = true
  | [] => ⟨fun _ => rfl, fun _ _ => rfl⟩
  | c :: rest => by
    have ih := continue?_ten (n * 10 + (c.toNat - '0'.toNat)) rest
    rw [List.all_cons, Bool.and_eq_true, continue?]
    constructor
    · rintro ⟨hc, hrest⟩
      rw [digitOf?_ten_of_isDigit hc, Option.bind_some, ih.1 hrest, Nat.ofDigitChars_cons, Nat.mul_comm]
    · intro m h
      obtain ⟨d, hd, h⟩ := Option.bind_eq_some_iff.1 h
      have hc := isDigit_of_digitOf?_ten hd
      rw [digitOf?_ten_of_isDigit hc] at hd
      cases hd
      exact ⟨hc, ih.2 m h⟩

theorem ofDigits?_ten_eq_some_iff {text : List Char} {n : Nat} : ofDigits? 10 text = some n ↔
    text ≠ [] ∧ text.all Char.isDigit = true ∧ Nat.ofDigitChars 10 text 0 = n := by
  cases text with
  | nil => simp [ofDigits?]
  | cons c rest =>
    obtain ⟨hof, hto⟩ := continue?_ten 0 (c :: rest)
    rw [ofDigits?]
    constructor
    · intro h
      have hall := hto n h
      rw [hof hall] at h
      exact ⟨List.cons_ne_nil _ _, hall, Option.some.inj h⟩
    · rintro ⟨-, hall, rfl⟩
      exact hof hall

theorem digitChar_of_isDigit {c : Char} (h : c.isDigit = true) :
    ∃ d, d < 10 ∧ c = Nat.digitChar d ∧ c.toNat - '0'.toNat = d := by
  obtain ⟨d, hlt, hd⟩ := toNat_of_isDigit h
  refine ⟨d, hlt, ?_, by simp [hd]⟩
  apply Char.toNat_inj.1
  rw [Nat.toNat_digitChar_of_lt_ten hlt, hd]

/-- **Digits that do not start with a zero are those of the number that they write.** -/
theorem toDigits_ofDigitChars : ∀ digits : List Char, digits.all Char.isDigit = true → (∃ c ∈ digits.head?, c ≠ '0') →
    0 < Nat.ofDigitChars 10 digits 0 ∧ Nat.toDigits 10 (Nat.ofDigitChars 10 digits 0) = digits := by
  intro digits
  -- digits are read from the left and written from the right, so the induction takes off the last one
  induction digits using List.reverseRecOn with
  | nil => simp
  | append_singleton front c ih =>
    intro hall hhead
    rw [List.all_append, Bool.and_eq_true, List.all_cons, Bool.and_eq_true] at hall
    obtain ⟨hfront, hc, -⟩ := hall
    obtain ⟨d, hd, rfl, hvalue⟩ := digitChar_of_isDigit hc
    rw [Nat.ofDigitChars_append, Nat.ofDigitChars_cons, Nat.ofDigitChars_nil, hvalue]
    cases front with
    | nil =>
      have hne : d ≠ 0 := by simpa using hhead
      simp [Nat.toDigits_of_lt_base hd]
      omega
    | cons b rest =>
      obtain ⟨hpos, hdigits⟩ := ih hfront (by simpa using hhead)
      rw [← Nat.toDigits_append_toDigits (by decide) hpos hd, hdigits, Nat.toDigits_of_lt_base hd]
      exact ⟨by omega, rfl⟩

/-- **Digits write a number in one way**, but for zeros in front. -/
theorem eq_replicate_append_toDigits : ∀ digits : List Char, digits ≠ [] → digits.all Char.isDigit = true →
    ∃ zeros, digits = List.replicate zeros '0' ++ Nat.toDigits 10 (Nat.ofDigitChars 10 digits 0)
  | [], h, _ => absurd rfl h
  | c :: rest, _, hall => by
    by_cases hc : c = '0'
    · subst hc
      have hvalue : Nat.ofDigitChars 10 ('0' :: rest) 0 = Nat.ofDigitChars 10 rest 0 := by
        rw [Nat.ofDigitChars_cons]
        rfl
      cases rest with
      | nil => exact ⟨0, rfl⟩
      | cons d others =>
        obtain ⟨zeros, hzeros⟩ := eq_replicate_append_toDigits (d :: others) (List.cons_ne_nil _ _)
          (by rw [List.all_cons, Bool.and_eq_true] at hall; exact hall.2)
        refine ⟨zeros + 1, ?_⟩
        rw [hvalue, List.replicate_succ, List.cons_append, ← hzeros]
    · exact ⟨0, (toDigits_ofDigitChars (c :: rest) hall ⟨c, rfl, hc⟩).2.symm⟩

theorem ofDigitChars_replicate_append_toDigits (zeros n : Nat) :
    Nat.ofDigitChars 10 (List.replicate zeros '0' ++ Nat.toDigits 10 n) 0 = n := by
  rw [Nat.ofDigitChars_append, Nat.ofDigitChars_replicate_zero, Nat.mul_zero, Nat.ofDigitChars_ten_toDigits]

theorem all_isDigit_replicate_append_toDigits (zeros n : Nat) :
    (List.replicate zeros '0' ++ Nat.toDigits 10 n).all Char.isDigit = true := by
  rw [List.all_append, List.all_replicate, Bool.and_eq_true, List.all_eq_true]
  exact ⟨by simp, fun c => Nat.isDigit_of_mem_toDigits (by decide) (by decide)⟩

theorem ofDigits?_ten_eq_some_iff_exists {text : List Char} {n : Nat} :
    ofDigits? 10 text = some n ↔ ∃ zeros, text = List.replicate zeros '0' ++ Nat.toDigits 10 n := by
  rw [ofDigits?_ten_eq_some_iff]
  constructor
  · rintro ⟨hne, hall, rfl⟩
    exact eq_replicate_append_toDigits text hne hall
  · rintro ⟨zeros, rfl⟩
    exact ⟨by simp [Nat.toDigits_ne_nil], all_isDigit_replicate_append_toDigits zeros n,
      ofDigitChars_replicate_append_toDigits zeros n⟩

theorem exists_toDigits_eq_cons (n : Nat) : ∃ c rest, Nat.toDigits 10 n = c :: rest ∧ c.isDigit = true := by
  cases h : Nat.toDigits 10 n with
  | nil => exact absurd h Nat.toDigits_ne_nil
  | cons c rest => exact ⟨c, rest, rfl, Nat.isDigit_of_mem_toDigits (by decide) (by decide) (h ▸ List.mem_cons_self)⟩

/-- The digits of a number do not start with a zero, but for zero. -/
theorem toDigits_eq_cons {n : Nat} (hn : 0 < n) : ∃ c rest, Nat.toDigits 10 n = c :: rest ∧ c ≠ '0' := by
  induction n using Nat.strongRecOn with
  | ind n ih =>
    by_cases hlt : n < 10
    · refine ⟨n.digitChar, [], Nat.toDigits_of_lt_base hlt, ?_⟩
      intro h
      have hvalue := congrArg Char.toNat h
      rw [Nat.toNat_digitChar_of_lt_ten hlt] at hvalue
      simp at hvalue
      omega
    · obtain ⟨c, rest, hdigits, hc⟩ := ih (n / 10) (by omega) (by omega)
      refine ⟨c, rest ++ [(n % 10).digitChar], ?_, hc⟩
      rw [Nat.toDigits_of_base_le (by decide) (by omega), hdigits, List.cons_append]

theorem bind_limit_eq_some_iff {o : Option Nat} {n : Nat} :
    (o.bind fun m => if m < 18_446_744_073_709_551_616 then some m else none) = some n ↔
      o = some n ∧ n < 18_446_744_073_709_551_616 := by
  cases o with
  | none => simp
  | some m => grind

/-- **A text is read as a number of 64 bits if it writes one.** -/
theorem word?_eq_some_iff {text : List Char} {n : Nat} :
    word? text = some n ↔ Writes text n ∧ n < 18_446_744_073_709_551_616 := by
  by_cases hplus : ∃ rest, text = '+' :: rest
  · obtain ⟨rest, rfl⟩ := hplus
    have hread : word? ('+' :: rest) = (ofDigits? 10 rest).bind fun m =>
      if m < 18_446_744_073_709_551_616 then some m else none := rfl
    rw [hread, bind_limit_eq_some_iff, ofDigits?_ten_eq_some_iff_exists]
    refine and_congr_left' ⟨fun ⟨zeros, h⟩ => ⟨['+'], zeros, .inr rfl, by rw [h]; rfl⟩, ?_⟩
    rintro ⟨sign, zeros, rfl | rfl, h⟩
    · -- no digit is a plus sign
      have hall := all_isDigit_replicate_append_toDigits zeros n
      rw [← List.nil_append (_ ++ _), ← h] at hall
      simp at hall
    · exact ⟨zeros, (List.cons.inj h).2⟩
  · have hread : word? text = (ofDigits? 10 text).bind fun m =>
        if m < 18_446_744_073_709_551_616 then some m else none := by
      unfold word? unsigned?
      split
      · exact absurd ⟨_, rfl⟩ hplus
      · rfl
    rw [hread, bind_limit_eq_some_iff, ofDigits?_ten_eq_some_iff_exists]
    refine and_congr_left' ⟨fun ⟨zeros, h⟩ => ⟨[], zeros, .inl rfl, h⟩, ?_⟩
    rintro ⟨sign, zeros, rfl | rfl, h⟩
    · exact ⟨zeros, h⟩
    · exact absurd ⟨_, h⟩ hplus

end Eligibility.Numeral
