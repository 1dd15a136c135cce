import Eligibility.Proofs.Decimal.Sum
/-!
# Which sums of decimals are exact, and which there are not

A sum gives up places until its coefficient fits.  If a decimal has the value of the sum, only zeros are given up
(`add?_of_representable`).  There is no sum if what is left without any place still does not fit, that is from half a
unit above the greatest coefficient on (`add?_eq_none_iff`).
-/
namespace Eligibility.Decimal

open Binary64 (nearestEven le_nearestEven nearestEven_le nearestEven_mul)

/-- **Whether a decimal has a value**, in units of the most places. -/
def Representable (n : Int) : Prop := ∃ d : Decimal, d.scaled maxPlaces = n

/-- **Whether a value is too large for a decimal**, in units of the most places: half a unit above the greatest
coefficient, or further from zero. -/
def Overflows (n : Int) : Prop := (2 * coefficientLimit - 1) * tenTo maxPlaces ≤ 2 * n.natAbs

instance (n : Int) : Decidable (Overflows n) := inferInstanceAs (Decidable (_ ≤ _))

theorem natAbs_signed (d : Decimal) : d.signed.natAbs = d.coefficient := by
  rw [signed]
  split <;> omega

theorem natAbs_scaled (d : Decimal) (places : Nat) :
    (d.scaled places).natAbs = d.coefficient * tenTo (places - d.places) := by
  rw [scaled, Int.natAbs_mul, natAbs_signed, Int.natAbs_natCast]

theorem natAbs_withoutPlaces (n : Int) (given : Nat) :
    (withoutPlaces n given).natAbs = nearestEven n.natAbs (tenTo given) := by
  rw [withoutPlaces]
  split <;> omega

theorem withoutPlaces_mul (n : Int) (given : Nat) : withoutPlaces (n * tenTo given) given = n := by
  have hpos : (0 : Int) < tenTo given := Int.natCast_pos.2 (tenTo_pos given)
  rw [withoutPlaces, Int.natAbs_mul, Int.natAbs_natCast, nearestEven_mul _ (tenTo_pos given)]
  by_cases hn : n < 0
  · rw [if_pos (Int.mul_neg_of_neg_of_pos hn hpos)]
    omega
  · have hnonneg : 0 ≤ n * (tenTo given : Int) := Int.mul_nonneg (by omega) (by omega)
    rw [if_neg (by omega)]
    omega

theorem ofSigned?_eq_none_iff {n : Int} {p : Nat} (hp : p ≤ maxPlaces) :
    ofSigned? n p = none ↔ coefficientLimit ≤ n.natAbs := by
  constructor
  · intro h
    by_contra hge
    obtain ⟨d, hd, -⟩ := ofSigned?_of_lt (Nat.lt_of_not_le hge) hp
    rw [hd] at h
    cases h
  · intro h
    exact dif_neg fun hfits => absurd hfits.1 (Nat.not_lt.2 h)

theorem le_nearestEven_iff {limit num den : Nat} (heven : limit % 2 = 0) (hlimit : 0 < limit) (hden : 0 < den) :
    limit ≤ nearestEven num den ↔ (2 * limit - 1) * den ≤ 2 * num := by
  have hnum := Nat.div_add_mod num den
  have hmod := Nat.mod_lt num hden
  have hle := le_nearestEven num den
  have hge := nearestEven_le num den
  obtain ⟨m, rfl⟩ : ∃ m, limit = m + 1 := ⟨limit - 1, by omega⟩
  have hdouble : (2 * (m + 1) - 1) * den = 2 * (den * m) + den := by
    rw [show 2 * (m + 1) - 1 = 2 * m + 1 by omega, Nat.add_mul, Nat.one_mul, Nat.mul_assoc, Nat.mul_comm m den]
  rw [hdouble]
  -- rounding adds no more than one, so the remainder matters only where the quotient is one below the limit
  rcases Nat.lt_trichotomy (num / den) m with hq | hq | hq
  · have hmul := Nat.mul_le_mul_left den hq
    rw [Nat.mul_succ] at hmul
    exact iff_of_false (by omega) (by omega)
  · unfold nearestEven
    dsimp only
    rw [hq] at hnum ⊢
    split
    · omega
    · split <;> omega
  · have hmul := Nat.mul_le_mul_left den hq
    rw [Nat.mul_succ] at hmul
    exact iff_of_true (by omega) (by omega)

theorem coefficientLimit_le_nearestEven_iff {num den : Nat} (hden : 0 < den) :
    coefficientLimit ≤ nearestEven num den ↔ (2 * coefficientLimit - 1) * den ≤ 2 * num :=
  le_nearestEven_iff (by decide) (by decide) hden

/-- **Giving up places fails if the coefficient does not fit without any.** -/
theorem fit?_eq_none_iff (n : Int) : ∀ left given : Nat, left ≤ maxPlaces →
    (fit? n given left = none ↔ (2 * coefficientLimit - 1) * tenTo (given + left) ≤ 2 * n.natAbs)
  | 0, given, h => by
    rw [fit?, ofSigned?_eq_none_iff h, natAbs_withoutPlaces, coefficientLimit_le_nearestEven_iff (tenTo_pos given),
      Nat.add_zero]
  | left + 1, given, h => by
    have ih := fit?_eq_none_iff n left (given + 1) (by omega)
    have hnone := ofSigned?_eq_none_iff (n := withoutPlaces n given) h
    rw [natAbs_withoutPlaces, coefficientLimit_le_nearestEven_iff (tenTo_pos given)] at hnone
    rw [show given + 1 + left = given + (left + 1) by omega] at ih
    have hle : (2 * coefficientLimit - 1) * tenTo given ≤ (2 * coefficientLimit - 1) * tenTo (given + (left + 1)) :=
      Nat.mul_le_mul_left _ (by rw [tenTo_add]; exact Nat.le_mul_of_pos_right _ (tenTo_pos _))
    rw [fit?]
    cases hfit : ofSigned? (withoutPlaces n given) (left + 1) with
    | none => exact ih
    | some d =>
      have hsmall := mt hnone.2 (by rw [hfit]; exact Option.some_ne_none d)
      exact ⟨fun h => absurd h (Option.some_ne_none d), fun h => absurd (Nat.le_trans hle h) hsmall⟩

theorem not_overflows_scaled (d : Decimal) : ¬ Overflows (d.scaled maxPlaces) := by
  have hlt := d.coefficient_lt
  rw [← coefficientLimit] at hlt
  have hle : d.coefficient * tenTo (maxPlaces - d.places) ≤ (coefficientLimit - 1) * tenTo maxPlaces :=
    Nat.mul_le_mul (by omega) (Nat.pow_le_pow_right (by decide) (Nat.sub_le _ _))
  have hpos := tenTo_pos maxPlaces
  have hlimit : 2 * coefficientLimit - 1 = 2 * (coefficientLimit - 1) + 1 := by decide
  rw [Overflows, natAbs_scaled, hlimit, Nat.add_mul, Nat.mul_assoc]
  omega

theorem tenTo_places (p : Nat) (h : p ≤ maxPlaces) : tenTo maxPlaces = tenTo p * tenTo (maxPlaces - p) := by
  rw [← tenTo_add]
  congr 1
  omega

theorem max_places_le (a b : Decimal) : max a.places b.places ≤ maxPlaces :=
  Nat.max_le.2 ⟨a.places_le, b.places_le⟩

theorem scaled_add_scaled (a b : Decimal) : a.scaled maxPlaces + b.scaled maxPlaces =
    (a.scaled (max a.places b.places) + b.scaled (max a.places b.places)) *
      tenTo (maxPlaces - max a.places b.places) := by
  rw [scaled_of_le (Nat.le_max_left _ _) (max_places_le a b), scaled_of_le (Nat.le_max_right _ _) (max_places_le a b),
    Int.add_mul]

/-- A term without a value leaves the other as the sum; else the sum gives up places. -/
theorem add?_exact_or_fit? (a b : Decimal) :
    (∃ c, a.add? b = some c ∧ c.scaled maxPlaces = a.scaled maxPlaces + b.scaled maxPlaces) ∨
    a.add? b =
      fit? (a.scaled (max a.places b.places) + b.scaled (max a.places b.places)) 0 (max a.places b.places) := by
  rw [add?]
  by_cases ha : a.coefficient = 0
  · rw [if_pos ha, scaled_of_coefficient_eq_zero ha, Int.zero_add]
    exact .inl ⟨b, rfl, rfl⟩
  · by_cases hb : b.coefficient = 0
    · rw [if_neg ha, if_pos hb, scaled_of_coefficient_eq_zero hb, Int.add_zero]
      exact .inl ⟨a, rfl, rfl⟩
    · rw [if_neg ha, if_neg hb]
      exact .inr rfl

/-- **There is no sum of two decimals exactly if the value of their sum is too large.** -/
theorem add?_eq_none_iff (a b : Decimal) :
    a.add? b = none ↔ Overflows (a.scaled maxPlaces + b.scaled maxPlaces) := by
  rcases add?_exact_or_fit? a b with ⟨c, hc, hscaled⟩ | hfit
  · rw [hc, ← hscaled]
    exact iff_of_false (Option.some_ne_none c) (not_overflows_scaled c)
  · have hle := max_places_le a b
    rw [hfit, fit?_eq_none_iff _ _ _ hle, scaled_add_scaled, Overflows, Int.natAbs_mul, Int.natAbs_natCast,
      tenTo_places _ hle, Nat.zero_add, ← Nat.mul_assoc, ← Nat.mul_assoc, Nat.mul_le_mul_right_iff (tenTo_pos _)]

/-- A coefficient that does not fit has more places than a decimal of its value, so it ends in a zero. -/
theorem eq_scaled_mul_ten {d : Decimal} {n : Int} {left : Nat} (hleft : left + 1 ≤ maxPlaces)
    (hd : d.scaled maxPlaces = n * tenTo (maxPlaces - (left + 1))) (hn : coefficientLimit ≤ n.natAbs) :
    d.places ≤ left ∧ n = d.scaled left * 10 := by
  have hlt := d.coefficient_lt
  rw [← coefficientLimit] at hlt
  have hplaces : d.places ≤ left := by
    by_contra hge
    have habs := congrArg Int.natAbs hd
    rw [natAbs_scaled, Int.natAbs_mul, Int.natAbs_natCast] at habs
    have hle : n.natAbs * tenTo (maxPlaces - (left + 1)) ≤ d.coefficient * tenTo (maxPlaces - (left + 1)) := by
      rw [← habs]
      exact Nat.mul_le_mul_left _ (Nat.pow_le_pow_right (by decide) (by omega))
    have := Nat.le_of_mul_le_mul_right hle (tenTo_pos _)
    omega
  refine ⟨hplaces, ?_⟩
  have hscaled := scaled_of_le hplaces (show left ≤ left + 1 by omega)
  have hvalue : d.scaled (left + 1) * tenTo (maxPlaces - (left + 1)) = n * tenTo (maxPlaces - (left + 1)) := by
    rw [← hd, scaled_of_le (by omega) hleft]
  have hpos : (0 : Int) < tenTo (maxPlaces - (left + 1)) := Int.natCast_pos.2 (tenTo_pos _)
  rw [← Int.eq_of_mul_eq_mul_right (by omega) hvalue, hscaled, show left + 1 - left = 1 by omega]
  rfl

theorem natAbs_lt_of_no_places {d : Decimal} {n : Int} (hd : d.scaled maxPlaces = n * tenTo maxPlaces) :
    n.natAbs < coefficientLimit := by
  have habs := congrArg Int.natAbs hd
  rw [natAbs_scaled, Int.natAbs_mul, Int.natAbs_natCast] at habs
  have hle : d.coefficient * tenTo (maxPlaces - d.places) ≤ d.coefficient * tenTo maxPlaces :=
    Nat.mul_le_mul_left _ (Nat.pow_le_pow_right (by decide) (Nat.sub_le _ _))
  rw [habs] at hle
  exact Nat.lt_of_le_of_lt (Nat.le_of_mul_le_mul_right hle (tenTo_pos _)) d.coefficient_lt

/-- **A value that a decimal has is found by giving up zeros**, and nothing else. -/
theorem fit?_of_representable (d : Decimal) : ∀ (left given : Nat) (n : Int), left ≤ maxPlaces →
    d.scaled maxPlaces = n * tenTo (maxPlaces - left) →
      ∃ c, fit? (n * tenTo given) given left = some c ∧ c.scaled maxPlaces = d.scaled maxPlaces
  | 0, given, n, hleft, hd => by
    obtain ⟨c, hc, hplaces, hsigned⟩ := ofSigned?_of_lt (natAbs_lt_of_no_places hd) hleft
    refine ⟨c, by rw [fit?, withoutPlaces_mul, hc], ?_⟩
    rw [hd, scaled, hplaces, hsigned]
  | left + 1, given, n, hleft, hd => by
    rw [fit?, withoutPlaces_mul]
    by_cases hn : n.natAbs < coefficientLimit
    · obtain ⟨c, hc, hplaces, hsigned⟩ := ofSigned?_of_lt hn hleft
      refine ⟨c, by rw [hc], ?_⟩
      rw [hd, scaled, hplaces, hsigned]
    · obtain ⟨hplaces, hzero⟩ := eq_scaled_mul_ten hleft hd (by omega)
      have hnone : ofSigned? n (left + 1) = none := (ofSigned?_eq_none_iff hleft).2 (by omega)
      have hnext : n * tenTo given = d.scaled left * tenTo (given + 1) := by
        rw [hzero, tenTo_succ, Int.mul_assoc, Int.natCast_mul, Int.mul_comm 10]
        rfl
      rw [hnone, hnext]
      exact fit?_of_representable d left (given + 1) (d.scaled left) (by omega) (scaled_of_le hplaces (by omega))

/-- **A sum that a decimal has the value of is exact.** -/
theorem add?_of_representable {a b : Decimal} (h : Representable (a.scaled maxPlaces + b.scaled maxPlaces)) :
    ∃ c, a.add? b = some c ∧ c.scaled maxPlaces = a.scaled maxPlaces + b.scaled maxPlaces := by
  rcases add?_exact_or_fit? a b with hexact | hfit
  · exact hexact
  · obtain ⟨d, hd⟩ := h
    have hsum := hd.trans (scaled_add_scaled a b)
    obtain ⟨c, hc, hscaled⟩ := fit?_of_representable d _ 0 _ (max_places_le a b) hsum
    rw [tenTo_zero, Int.natCast_one, Int.mul_one] at hc
    exact ⟨c, hfit.trans hc, hscaled.trans hd⟩

/-- **A sum from left to right is missing** exactly if a term is too much for the sum of those before it. -/
theorem addAll?_eq_none_iff : ∀ {ds : List Decimal} {total : Decimal}, addAll? total ds = none ↔
    ∃ before d after sum, ds = before ++ d :: after ∧ addAll? total before = some sum ∧
      Overflows (sum.scaled maxPlaces + d.scaled maxPlaces)
  | [], total => by
    refine iff_of_false (Option.some_ne_none total) ?_
    rintro ⟨before, d, after, sum, h, -⟩
    cases before <;> cases h
  | d :: rest, total => by
    rw [addAll?]
    cases hnext : total.add? d with
    | none =>
      exact iff_of_true rfl ⟨[], d, rest, total, rfl, rfl, (add?_eq_none_iff total d).1 hnext⟩
    | some next =>
      rw [Option.bind_some, addAll?_eq_none_iff]
      constructor
      · rintro ⟨before, e, after, sum, rfl, hsum, hover⟩
        exact ⟨d :: before, e, after, sum, rfl, by rw [addAll?, hnext]; exact hsum, hover⟩
      · rintro ⟨before, e, after, sum, h, hsum, hover⟩
        cases before with
        | nil =>
          cases h
          cases hsum
          rw [(add?_eq_none_iff total d).2 hover] at hnext
          cases hnext
        | cons f before =>
          cases h
          rw [addAll?, hnext] at hsum
          exact ⟨before, e, after, sum, rfl, hsum, hover⟩

end Eligibility.Decimal
