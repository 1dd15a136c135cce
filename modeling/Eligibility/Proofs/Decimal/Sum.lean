import Eligibility.Decimal.Basic
import Mathlib.Algebra.Order.BigOperators.Group.List
import Mathlib.Algebra.Order.Group.Nat
import Mathlib.Algebra.Ring.Int.Defs
import Mathlib.Algebra.Ring.Nat
/-!
# Sums of decimals

A sum of two decimals is exact if their magnitudes, brought to so many places, together fit a coefficient
(`add?_exact`).  Then all that follows is exact, too: a sum of decimals from left to right has every partial sum within
the same bound (`addAll?_exact`).
-/
namespace Eligibility.Decimal

/-- Adds decimals to a total, from left to right. -/
def addAll? : Decimal → List Decimal → Option Decimal
  | total, [] => some total
  | total, d :: rest => (total.add? d).bind fun next => addAll? next rest

/-- The sum of the magnitudes of decimals, each brought to so many places. -/
def magnitude (places : Nat) (ds : List Decimal) : Nat := (ds.map fun d => (d.scaled places).natAbs).sum

/-- The exact sum of decimals, in units of so many places. -/
def exactSum (places : Nat) (ds : List Decimal) : Int := (ds.map fun d => d.scaled places).sum

def mostPlaces (ds : List Decimal) : Nat := (ds.map places).foldr max 0

/-- **Whether decimals fit together**: brought to the most places among them, they have magnitudes that add up to less
than 2⁹⁶. -/
def FitTogether (ds : List Decimal) : Prop := magnitude (mostPlaces ds) ds < coefficientLimit

instance (ds : List Decimal) : Decidable (FitTogether ds) := inferInstanceAs (Decidable (_ < _))

/-- The same at some places, of which no decimal has more. -/
structure FitAt (places : Nat) (ds : List Decimal) : Prop where
  places_le : places ≤ maxPlaces
  le_places : ∀ d ∈ ds, d.places ≤ places
  magnitude_lt : magnitude places ds < coefficientLimit

theorem scaled_of_le {d : Decimal} {p q : Nat} (hp : d.places ≤ p) (hpq : p ≤ q) :
    d.scaled q = d.scaled p * tenTo (q - p) := by
  have hsplit : q - d.places = (p - d.places) + (q - p) := by omega
  rw [scaled, scaled, hsplit, tenTo_add, Int.natCast_mul, Int.mul_assoc]

theorem scaled_of_coefficient_eq_zero {d : Decimal} (h : d.coefficient = 0) (p : Nat) : d.scaled p = 0 := by
  have hsigned : d.signed = 0 := by
    rw [signed, h]
    split <;> rfl
  rw [scaled, hsigned, Int.zero_mul]

theorem scaled_zero (p : Nat) : zero.scaled p = 0 := scaled_of_coefficient_eq_zero rfl p

theorem eqv_of_scaled {a b : Decimal} {p : Nat} (hp : p ≤ maxPlaces) (ha : a.places ≤ p) (hb : b.places ≤ p)
    (h : a.scaled p = b.scaled p) : a.eqv b = true := by
  rw [eqv, scaled_of_le ha hp, scaled_of_le hb hp, h]
  exact beq_self_eq_true _

theorem exactSum_append (p : Nat) (ds es : List Decimal) : exactSum p (ds ++ es) = exactSum p ds + exactSum p es := by
  rw [exactSum, List.map_append, List.sum_append]
  rfl

theorem exactSum_of_perm (p : Nat) {ds es : List Decimal} (h : ds.Perm es) : exactSum p ds = exactSum p es :=
  (h.map _).sum_eq

theorem magnitude_append (p : Nat) (ds es : List Decimal) :
    magnitude p (ds ++ es) = magnitude p ds + magnitude p es := by
  rw [magnitude, List.map_append, List.sum_append]
  rfl

theorem exactSum_of_le {p q : Nat} (hpq : p ≤ q) : ∀ {ds : List Decimal}, (∀ d ∈ ds, d.places ≤ p) →
    exactSum q ds = exactSum p ds * tenTo (q - p)
  | [], _ => (Int.zero_mul _).symm
  | d :: rest, h => by
    have ih := exactSum_of_le hpq fun e he => h e (List.mem_cons_of_mem _ he)
    have hd := scaled_of_le (h d List.mem_cons_self) hpq
    simp only [exactSum, List.map_cons, List.sum_cons] at ih ⊢
    rw [ih, hd, Int.add_mul]

theorem places_le_mostPlaces : ∀ {ds : List Decimal} {d : Decimal}, d ∈ ds → d.places ≤ mostPlaces ds
  | e :: rest, d, h => by
    rcases List.mem_cons.1 h with rfl | h
    · exact Nat.le_max_left _ _
    · exact Nat.le_trans (places_le_mostPlaces h) (Nat.le_max_right _ _)

theorem mostPlaces_le_maxPlaces : ∀ ds : List Decimal, mostPlaces ds ≤ maxPlaces
  | [] => Nat.zero_le _
  | d :: rest => Nat.max_le.2 ⟨d.places_le, mostPlaces_le_maxPlaces rest⟩

/-- A decimal that is an exact sum is so in units of the most places as well. -/
theorem scaled_eq_exactSum {d : Decimal} {ds : List Decimal} (hd : d.places ≤ mostPlaces ds)
    (h : d.scaled (mostPlaces ds) = exactSum (mostPlaces ds) ds) : d.scaled maxPlaces = exactSum maxPlaces ds := by
  have hplaces := mostPlaces_le_maxPlaces ds
  rw [scaled_of_le hd hplaces, h, exactSum_of_le hplaces fun _ => places_le_mostPlaces]

theorem FitTogether.fitAt {ds : List Decimal} (h : FitTogether ds) : FitAt (mostPlaces ds) ds :=
  ⟨mostPlaces_le_maxPlaces ds, fun _ => places_le_mostPlaces, h⟩

/-- Of decimals that fit together any do, in any order. -/
theorem FitAt.of_subperm {p : Nat} {es ds : List Decimal} (hsub : es.Subperm ds) (h : FitAt p ds) : FitAt p es := by
  refine ⟨h.places_le, fun d hd => h.le_places d (hsub.subset hd), Nat.lt_of_le_of_lt ?_ h.magnitude_lt⟩
  obtain ⟨fs, hperm, hfs⟩ := hsub
  rw [magnitude, ← (hperm.map _).sum_eq]
  exact (hfs.map _).sum_le_sum fun _ _ => Nat.zero_le _

theorem ofSigned?_of_lt {n : Int} {p : Nat} (hn : n.natAbs < coefficientLimit) (hp : p ≤ maxPlaces) :
    ∃ d, ofSigned? n p = some d ∧ d.places = p ∧ d.signed = n := by
  refine ⟨⟨n < 0, n.natAbs, p, hn, hp⟩, ?_, rfl, ?_⟩
  · rw [ofSigned?, ofParts?, dif_pos ⟨hn, hp⟩]
  · rw [signed]
    dsimp only
    split
    · rename_i hneg
      have := of_decide_eq_true hneg
      omega
    · rename_i hpos
      have : ¬ n < 0 := fun h => hpos (decide_eq_true h)
      omega

theorem withoutPlaces_zero (n : Int) : withoutPlaces n 0 = n := by
  have hnearest : Binary64.nearestEven n.natAbs 1 = n.natAbs := by
    have h := Binary64.nearestEven_mul n.natAbs (show 0 < 1 by decide)
    rwa [Nat.mul_one] at h
  rw [withoutPlaces, tenTo_zero, hnearest]
  split <;> omega

theorem fit?_of_lt {n : Int} {p : Nat} (hn : n.natAbs < coefficientLimit) (hp : p ≤ maxPlaces) :
    ∃ d, fit? n 0 p = some d ∧ d.places = p ∧ d.signed = n := by
  obtain ⟨d, hd, hplaces, hsigned⟩ := ofSigned?_of_lt hn hp
  refine ⟨d, ?_, hplaces, hsigned⟩
  cases p with
  | zero => rw [fit?, withoutPlaces_zero, hd]
  | succ p => rw [fit?, withoutPlaces_zero, hd]

/-- **A sum is exact if the magnitudes of its terms fit a coefficient together**, brought to places that both have. -/
theorem add?_exact {a b : Decimal} {places : Nat} (hplaces : places ≤ maxPlaces) (ha : a.places ≤ places)
    (hb : b.places ≤ places) (h : (a.scaled places).natAbs + (b.scaled places).natAbs < coefficientLimit) :
    ∃ c, a.add? b = some c ∧ c.places ≤ places ∧ c.scaled places = a.scaled places + b.scaled places := by
  rw [add?]
  by_cases ha0 : a.coefficient = 0
  · rw [if_pos ha0, scaled_of_coefficient_eq_zero ha0, Int.zero_add]
    exact ⟨b, rfl, hb, rfl⟩
  · by_cases hb0 : b.coefficient = 0
    · rw [if_neg ha0, if_pos hb0, scaled_of_coefficient_eq_zero hb0, Int.add_zero]
      exact ⟨a, rfl, ha, rfl⟩
    · rw [if_neg ha0, if_neg hb0]
      dsimp only
      -- the sum is formed at the places of its terms, where it is no larger than at those of the bound
      generalize hp : max a.places b.places = p
      have hpa : a.places ≤ p := hp ▸ Nat.le_max_left _ _
      have hpb : b.places ≤ p := hp ▸ Nat.le_max_right _ _
      have hple : p ≤ places := hp ▸ Nat.max_le.2 ⟨ha, hb⟩
      have hsum : a.scaled places + b.scaled places = (a.scaled p + b.scaled p) * tenTo (places - p) := by
        rw [scaled_of_le hpa hple, scaled_of_le hpb hple, Int.add_mul]
      have hlt : (a.scaled p + b.scaled p).natAbs < coefficientLimit := by
        have hle : (a.scaled p + b.scaled p).natAbs ≤ (a.scaled places + b.scaled places).natAbs := by
          rw [hsum, Int.natAbs_mul]
          exact Nat.le_mul_of_pos_right _ (tenTo_pos _)
        have htriangle := Int.natAbs_add_le (a.scaled places) (b.scaled places)
        omega
      obtain ⟨c, hc, hcplaces, hsigned⟩ := fit?_of_lt hlt (Nat.le_trans hple hplaces)
      refine ⟨c, hc, by rw [hcplaces]; exact hple, ?_⟩
      rw [hsum, scaled, hsigned, hcplaces]

theorem natAbs_exactSum_le (places : Nat) : ∀ ds : List Decimal, (exactSum places ds).natAbs ≤ magnitude places ds
  | [] => Nat.le_refl 0
  | d :: rest => by
    have ih := natAbs_exactSum_le places rest
    have htriangle := Int.natAbs_add_le (d.scaled places) (exactSum places rest)
    simp only [exactSum, magnitude, List.map_cons, List.sum_cons] at ih htriangle ⊢
    omega

/-- **A sum from left to right is exact** if all that is added fits a coefficient together, the total included. -/
theorem addAll?_exact {places : Nat} : ∀ (ds : List Decimal) (total : Decimal), FitAt places (total :: ds) →
    ∃ c, addAll? total ds = some c ∧ c.places ≤ places ∧ c.scaled places = exactSum places (total :: ds)
  | [], total, h => ⟨total, rfl, h.le_places total List.mem_cons_self, (Int.add_zero _).symm⟩
  | d :: rest, total, h => by
    have hmagnitude := h.magnitude_lt
    simp only [magnitude, List.map_cons, List.sum_cons] at hmagnitude
    have htotal := h.le_places total List.mem_cons_self
    have hd := h.le_places d (List.mem_cons_of_mem _ List.mem_cons_self)
    obtain ⟨next, hnext, hplaces, hscaled⟩ := add?_exact h.places_le htotal hd (by omega)
    -- the magnitudes of the two terms bound that of their sum, so the rest fits with the new total
    have hfit : FitAt places (next :: rest) := by
      refine ⟨h.places_le, ?_, ?_⟩
      · intro e he
        rcases List.mem_cons.1 he with rfl | he
        · exact hplaces
        · exact h.le_places e (List.mem_cons_of_mem _ (List.mem_cons_of_mem _ he))
      · have htriangle := Int.natAbs_add_le (total.scaled places) (d.scaled places)
        simp only [magnitude, List.map_cons, List.sum_cons, hscaled]
        omega
    obtain ⟨c, hc, hcplaces, hcscaled⟩ := addAll?_exact rest next hfit
    refine ⟨c, by rw [addAll?, hnext]; exact hc, hcplaces, ?_⟩
    rw [hcscaled]
    simp only [exactSum, List.map_cons, List.sum_cons, hscaled, Int.add_assoc]

end Eligibility.Decimal
