import Eligibility.Proofs.Json.Normal
import Eligibility.Proofs.Operator.Order
import Eligibility.Proofs.Table.Sorted
import Mathlib.Algebra.Order.BigOperators.Group.List
import Mathlib.Data.Rat.Cast.Order
import Mathlib.Data.Set.List
import Mathlib.Tactic.Linarith
import Mathlib.Tactic.NormNum
import Mathlib.Tactic.Ring
/-!
# Sums of whole numbers

A sum of whole numbers of up to 53 bits is not rounded, so as long as magnitudes add up to no more than 2⁵³ every running
total is exact (`exists_total_of_whole`).  The sum is then a number by its value alone, in whichever order it was added
(`applied_sum_of_perm`).  A total that is not finite stays so (`total?_eq_none_of_take`), and what is no number fails the
sum wherever the total stands (`addAll_of_not_number`).
-/
namespace Eligibility

open Binary64 (Finite SameValue nearest nearest_mul_unitsPerOne unitLimit unitsPerOne unitsPerOne_pos)
open Json (Number)

namespace Json

/-- What a collection holds, in order. -/
inductive Holds : Json → List Json → Prop
  | array (items : List Json) : Holds (.array items) items
  | object (members : Table Json) : Holds (.object members) members.values

theorem Holds.collection_eq {v : Json} {items : List Json} (h : v.Holds items) : Operator.collection v = .ok items := by
  cases h <;> rfl

/-- **Up to 2⁵³ a whole number is seen as itself.** -/
theorem toInt_toFinite_of_value {n : Number} {k : Int} (hn : n.value = k) (hk : k.natAbs ≤ twoTo 53) :
    n.toFinite.toInt = k * unitsPerOne := by
  cases n with
  | integer i =>
    have hi : i.value = k := Int.cast_injective hn
    rw [toInt_toFinite, hi, nearest_mul_unitsPerOne hk]
  | real x => exact (Number.value_real_eq_iff x k).1 hn

/-- **A whole number is an integer below 10¹⁵**, and a binary64 from there on. -/
theorem exists_ofBinary64?_of_whole {x : Finite} {k : Int} (hx : x.toInt = k * unitsPerOne) :
    ∃ n, ofBinary64? (.finite x) = some (.number n) ∧ n.value = k ∧
      ((∃ i, n = .integer i) ↔ k.natAbs < 1_000_000_000_000_000) := by
  obtain ⟨n, hn, hnormal, hvalue⟩ := exists_normal x
  have hk : n.value = k := hvalue.trans ((Number.value_real_eq_iff x k).2 hx)
  exact ⟨n, hn, hk, hnormal.trans (Number.integral_iff_of_value hk)⟩

end Json

namespace Binary64

/-- **A sum of whole numbers of up to 53 bits is not rounded.** -/
theorem Finite.add_of_whole {x y : Finite} {m n : Int} (hx : x.toInt = m * unitsPerOne) (hy : y.toInt = n * unitsPerOne)
    (h : (m + n).natAbs ≤ twoTo 53) : ∃ z, x.add y = .finite z ∧ z.toInt = (m + n) * unitsPerOne := by
  have hsum : nearest (x.toInt + y.toInt) = (m + n) * unitsPerOne := by
    rw [hx, hy, ← Int.add_mul, nearest_mul_unitsPerOne h]
  have hlt : ((m + n) * (unitsPerOne : Int)).natAbs < unitLimit := by
    rw [Int.natAbs_mul, Int.natAbs_natCast]
    exact Nat.lt_of_le_of_lt (Nat.mul_le_mul_right _ h) (lt_unitLimit (by decide))
  obtain ⟨z, hz⟩ := exists_add_eq (hsum ▸ hlt)
  exact ⟨z, hz, (toInt_add hz).trans hsum⟩

/-- The total of numbers added to another one, from left to right. -/
def totalFrom (t : Binary64) (xs : List Finite) : Binary64 := xs.foldl (fun total x => total.add (.finite x)) t

theorem finite?_add_eq_none {t : Binary64} (h : t.finite? = none) (x : Finite) : (t.add (.finite x)).finite? = none := by
  cases t with
  | finite y => cases h
  | infinite _ | nan => rfl

theorem finite?_totalFrom_eq_none : ∀ (xs : List Finite) {t : Binary64}, t.finite? = none →
    (totalFrom t xs).finite? = none
  | [], _, h => h
  | x :: rest, _, h => finite?_totalFrom_eq_none rest (finite?_add_eq_none h x)

/-- **A running total that is not finite stays so.** -/
theorem total?_eq_none_of_take {xs : List Finite} {k : Nat} (h : total? (xs.take k) = none) : total? xs = none := by
  have hsplit : total? xs = (totalFrom (totalFrom (.finite (.zero false)) (xs.take k)) (xs.drop k)).finite? := by
    rw [totalFrom, totalFrom, ← List.foldl_append, List.take_append_drop]
    rfl
  rw [hsplit]
  exact finite?_totalFrom_eq_none _ h

/-- **Every running total of whole numbers is exact** as long as their magnitudes add up to no more than 2⁵³. -/
theorem exists_total_of_whole : ∀ {ns : List Number} {t : Finite} {k : Int}, t.toInt = k * unitsPerOne →
    (∀ n ∈ ns, ∃ z : Int, n.value = z) → |(k : ℚ)| + (ns.map fun n => |n.value|).sum ≤ twoTo 53 →
    ∃ x s, totalFrom (.finite t) (ns.map Number.toFinite) = .finite x ∧ x.toInt = s * unitsPerOne ∧
      (s : ℚ) = k + (ns.map Number.value).sum
  | [], t, k, ht, _, _ => ⟨t, k, rfl, ht, by simp⟩
  | n :: rest, t, k, ht, hwhole, hle => by
    obtain ⟨z, hz⟩ := hwhole n List.mem_cons_self
    have hrest : ∀ m ∈ rest, ∃ z : Int, m.value = z := fun m hm => hwhole m (List.mem_cons_of_mem n hm)
    have hmagnitude : 0 ≤ (rest.map fun m => |m.value|).sum := List.sum_nonneg (by simp)
    rw [List.map_cons, List.sum_cons, hz] at hle
    have htriangle := abs_add_le (k : ℚ) z
    have hk0 := abs_nonneg (k : ℚ)
    have hzle : z.natAbs ≤ twoTo 53 := by
      have : |(z : ℚ)| ≤ twoTo 53 := by linarith
      rw [← Int.cast_abs, ← Int.natCast_natAbs] at this
      exact_mod_cast this
    have hsumle : (k + z).natAbs ≤ twoTo 53 := by
      have : |((k + z : Int) : ℚ)| ≤ twoTo 53 := by
        push_cast
        linarith
      rw [← Int.cast_abs, ← Int.natCast_natAbs] at this
      exact_mod_cast this
    obtain ⟨x, hx, hxk⟩ := Finite.add_of_whole ht (Json.toInt_toFinite_of_value hz hzle) hsumle
    -- the rest is added to the next total, whose magnitude is bounded by those of its two terms
    obtain ⟨y, s, hy, hys, hs⟩ := exists_total_of_whole hxk hrest (by push_cast; linarith)
    refine ⟨y, s, ?_, hys, ?_⟩
    · rw [List.map_cons, totalFrom, List.foldl_cons, add, hx]
      exact hy
    · rw [hs, List.map_cons, List.sum_cons, hz]
      push_cast
      ring

end Binary64

namespace Operator

theorem real_of_not_number (name : String) {v : Json} (h : ∀ n, v ≠ .number n) :
    real name v = .error (.operationFailed name (RuleError.rejection "Real Number" v.display)) := by
  cases v with
  | number n => exact absurd rfl (h n)
  | null | bool _ | string _ | array _ | object _ => rfl

/-- **The first element that is no number fails the sum**, wherever the total stands. -/
theorem addAll_of_not_number {v : Json} (h : ∀ n, v ≠ .number n) (rest : List Json) :
    ∀ (ns : List Number) (t : Binary64), addAll t (ns.map .number ++ v :: rest) =
      .error (.operationFailed "sum" (RuleError.rejection "Real Number" v.display))
  | [], t => by rw [List.map_nil, List.nil_append, addAll, real_of_not_number "sum" h, Outcome.chain]
  | n :: ns, t => addAll_of_not_number h rest ns (t.add (.finite n.toFinite))

theorem addAll_numbers (ns : List Number) (t : Binary64) :
    addAll t (ns.map .number) = .ok (Binary64.totalFrom t (ns.map Number.toFinite)) :=
  addAll_of_mapM (Json.mapM_asReal_number ns) t

end Operator

namespace OperatorTable

/-- The failure of a sum that is not finite. -/
def notFinite : RuleError := .operationFailed "sum" "result is not a finite number"

theorem applied_sum (v : Json) : applied "sum" [v] =
    ((Operator.collection v).chain (Operator.addAll (.finite (.zero false)))).chain fun t =>
      match Json.ofBinary64? t with
      | some w => .ok w
      | none => .error notFinite := by
  have hsum : applied "sum" [v] = Operator.total.body [v] := rfl
  rw [hsum]
  cases hv : Operator.collection v with
  | error e => simp [Operator.total, Operation.unary, hv, Outcome.chain, bind, Except.bind]
  | ok items =>
    cases hadd : Operator.addAll (.finite (.zero false)) items with
    | error e => simp [Operator.total, Operation.unary, hv, hadd, Outcome.chain, bind, Except.bind]
    | ok t =>
      simp only [Operator.total, Operation.unary, hv, hadd, Outcome.chain, bind, Except.bind]
      cases Json.ofBinary64? t <;> rfl

theorem applied_sum_of_numbers {v : Json} {ns : List Number} (hv : v.Holds (ns.map .number)) : applied "sum" [v] =
    match Json.ofBinary64? (Binary64.totalFrom (.finite (.zero false)) (ns.map Number.toFinite)) with
    | some w => .ok w
    | none => .error notFinite := by
  rw [applied_sum, hv.collection_eq, Outcome.chain, Operator.addAll_numbers, Outcome.chain]

theorem applied_sum_of_not_number {v w : Json} {ns : List Number} {rest : List Json}
    (hv : v.Holds (ns.map .number ++ w :: rest)) (hw : ∀ n, w ≠ .number n) :
    applied "sum" [v] = .error (.operationFailed "sum" (RuleError.rejection "Real Number" w.display)) := by
  rw [applied_sum, hv.collection_eq, Outcome.chain, Operator.addAll_of_not_number hw, Outcome.chain]

/-- A total of whole numbers is exact, so the sum is the normal form of it. -/
theorem exists_applied_sum_of_whole {v : Json} {ns : List Number} (hv : v.Holds (ns.map .number))
    (hwhole : ∀ n ∈ ns, ∃ z : Int, n.value = z) (hle : (ns.map fun n => |n.value|).sum ≤ twoTo 53) :
    ∃ x w, applied "sum" [v] = .ok w ∧ Json.ofBinary64? (.finite x) = some w ∧
      ∃ s : Int, x.toInt = s * unitsPerOne ∧ (s : ℚ) = (ns.map Number.value).sum := by
  have hzero : (Finite.zero false).toInt = 0 * unitsPerOne := by simp
  obtain ⟨x, s, hx, hxs, hs⟩ := Binary64.exists_total_of_whole hzero hwhole (by simpa using hle)
  obtain ⟨w, hw, -⟩ := Json.exists_ofBinary64?_of_whole hxs
  refine ⟨x, .number w, ?_, hw, s, hxs, by simpa using hs⟩
  rw [applied_sum_of_numbers hv, hx, hw]

theorem applied_sum_of_whole {v : Json} {ns : List Number} (hv : v.Holds (ns.map .number))
    (hwhole : ∀ n ∈ ns, ∃ z : Int, n.value = z) (hle : (ns.map fun n => |n.value|).sum ≤ twoTo 53) :
    ∃ s, applied "sum" [v] = .ok (.number s) ∧ s.value = (ns.map Number.value).sum ∧
      ((∃ i, s = .integer i) ↔ |s.value| < 1_000_000_000_000_000) := by
  obtain ⟨x, w, hw, hx, k, hxk, hk⟩ := exists_applied_sum_of_whole hv hwhole hle
  obtain ⟨s, hs, hvalue, hinteger⟩ := Json.exists_ofBinary64?_of_whole hxk
  cases hx.symm.trans hs
  refine ⟨s, hw, hvalue.trans hk, hinteger.trans ?_⟩
  rw [hvalue, ← Int.cast_abs, ← Int.natCast_natAbs]
  exact_mod_cast Iff.rfl

/-- **Whole numbers have one sum in any order**, in a list or under any keys. -/
theorem applied_sum_of_perm {v w : Json} {ns ms : List Number} (hv : v.Holds (ns.map .number))
    (hw : w.Holds (ms.map .number)) (hperm : ms.Perm ns) (hwhole : ∀ n ∈ ns, ∃ z : Int, n.value = z)
    (hle : (ns.map fun n => |n.value|).sum ≤ twoTo 53) : applied "sum" [w] = applied "sum" [v] := by
  obtain ⟨x, a, ha, hxa, j, hxj, hj⟩ := exists_applied_sum_of_whole hv hwhole hle
  obtain ⟨y, b, hb, hyb, k, hyk, hk⟩ := exists_applied_sum_of_whole hw
    (fun n hn => hwhole n (hperm.mem_iff.1 hn)) (by rwa [(hperm.map _).sum_eq])
  have hjk : j = k := by
    rw [← Int.cast_inj (α := ℚ), hj, hk, (hperm.map _).sum_eq]
  have hsame : SameValue (.finite y) (.finite x) := .finite (by rw [hyk, hxj, hjk])
  rw [Json.ofBinary64?_of_sameValue hsame, hxa] at hyb
  cases hyb
  rw [hb, ha]

theorem applied_sum_of_sorted {members : Table Json} (hsorted : members.Sorted) {key : String} {v : Json}
    (hmem : (key, v) ∈ members) (hv : ∀ n, v ≠ .number n)
    (hbefore : ∀ other w, (other, w) ∈ members → other < key → ∃ n, w = .number n) :
    applied "sum" [.object members] = .error (.operationFailed "sum" (RuleError.rejection "Real Number" v.display)) := by
  obtain ⟨before, after, rfl⟩ := List.append_of_mem hmem
  have hlt : ∀ e ∈ before, e.1 < key := by
    intro e he
    rw [Table.Sorted, Table.keys, List.map_append, List.map_cons, List.pairwise_append] at hsorted
    exact hsorted.2.2 e.1 (List.mem_map_of_mem he) key List.mem_cons_self
  have hnumbers : ∀ w ∈ before.map Prod.snd, ∃ n, Json.number n = w := by
    intro w hw
    obtain ⟨e, he, rfl⟩ := List.mem_map.1 hw
    obtain ⟨n, hn⟩ := hbefore e.1 e.2 (List.mem_append_left _ he) (hlt e he)
    exact ⟨n, hn.symm⟩
  obtain ⟨ns, hns⟩ : before.map Prod.snd ∈ Set.range (List.map Json.number) := by
    rw [Set.range_list_map]
    exact hnumbers
  have hvalues : Table.values (before ++ (key, v) :: after) = ns.map .number ++ v :: after.map Prod.snd := by
    rw [Table.values, List.map_append, List.map_cons, hns]
  have hholds : Json.Holds (.object (before ++ (key, v) :: after)) (ns.map .number ++ v :: after.map Prod.snd) := by
    rw [← hvalues]
    exact .object _
  exact applied_sum_of_not_number hholds hv

theorem applied_sum_of_not_collection {v : Json} (harray : v.isArray = false) (hobject : v.isObject = false) :
    applied "sum" [v] = .error (.operationFailed "sum" (RuleError.rejection "Mapping" v.display)) := by
  rw [applied_sum]
  cases v with
  | array _ => cases harray
  | object _ => cases hobject
  | null | bool _ | number _ | string _ => rfl

theorem applied_sum_of_finite {v : Json} {ns : List Number} (hv : v.Holds (ns.map .number)) {x : Finite}
    (hx : Binary64.total? (ns.map Number.toFinite) = some x) :
    ∃ s, applied "sum" [v] = .ok (.number s) ∧ s.toFinite.toInt = x.toInt := by
  have htotal : Binary64.totalFrom (.finite (.zero false)) (ns.map Number.toFinite) = .finite x :=
    Binary64.eq_finite_of_finite? hx
  obtain ⟨w, hw⟩ : ∃ w, Json.ofBinary64? (.finite x) = some w := ⟨_, rfl⟩
  obtain ⟨y, hy, hyx⟩ := Json.asReal_of_ofBinary64? hw
  cases w with
  | number s =>
    cases hy
    exact ⟨s, by rw [applied_sum_of_numbers hv, htotal, hw], hyx⟩
  | null | bool _ | string _ | array _ | object _ => cases hy

theorem applied_sum_of_not_finite {v : Json} {ns : List Number} (hv : v.Holds (ns.map .number)) {k : Nat}
    (hk : Binary64.total? ((ns.map Number.toFinite).take k) = none) : applied "sum" [v] = .error notFinite := by
  have htotal : (Binary64.totalFrom (.finite (.zero false)) (ns.map Number.toFinite)).finite? = none :=
    Binary64.total?_eq_none_of_take hk
  rw [applied_sum_of_numbers hv]
  cases h : Binary64.totalFrom (.finite (.zero false)) (ns.map Number.toFinite) with
  | finite x =>
    rw [h] at htotal
    cases htotal
  | infinite _ | nan => rfl

/-- **The sum of a collection.**  Whole numbers whose magnitudes add up to no more than 2⁵³ have their exact sum, as an
integer if it is below 10¹⁵, in whichever order and under whichever keys they come.  What is no collection has no sum.
Nor has a collection with something else than numbers; the first of these is told, of a mapping that of the least key,
however large the numbers before it.  Other numbers have a sum exactly if no running total leaves the finite numbers. -/
theorem sum_of_collection :
    (∀ (v : Json) (ns : List Number), v.Holds (ns.map .number) → (∀ n ∈ ns, ∃ z : Int, n.value = z) →
      (ns.map fun n => |n.value|).sum ≤ twoTo 53 →
      (∃ s, applied "sum" [v] = .ok (.number s) ∧ s.value = (ns.map Number.value).sum ∧
        ((∃ i, s = .integer i) ↔ |s.value| < 1_000_000_000_000_000)) ∧
      ∀ (w : Json) (ms : List Number), w.Holds (ms.map .number) → ms.Perm ns → applied "sum" [w] = applied "sum" [v]) ∧
    (∀ v : Json, v.isArray = false → v.isObject = false →
      applied "sum" [v] = .error (.operationFailed "sum" (RuleError.rejection "Mapping" v.display))) ∧
    (∀ v : Json, (∀ n, v ≠ .number n) →
      (∀ (ns : List Number) rest, applied "sum" [.array (ns.map .number ++ v :: rest)] =
        .error (.operationFailed "sum" (RuleError.rejection "Real Number" v.display))) ∧
      ∀ (members : Table Json) key, members.Sorted → (key, v) ∈ members →
        (∀ other w, (other, w) ∈ members → other < key → ∃ n, w = .number n) →
        applied "sum" [.object members] =
          .error (.operationFailed "sum" (RuleError.rejection "Real Number" v.display))) ∧
    (∀ (v : Json) (ns : List Number), v.Holds (ns.map .number) →
      ((∀ k, Binary64.total? ((ns.map Number.toFinite).take k) ≠ none) →
        ∃ s x, applied "sum" [v] = .ok (.number s) ∧ Binary64.total? (ns.map Number.toFinite) = some x ∧
          s.toFinite.toInt = x.toInt) ∧
      ((∃ k, Binary64.total? ((ns.map Number.toFinite).take k) = none) → applied "sum" [v] = .error notFinite)) := by
  refine ⟨?_, fun v => applied_sum_of_not_collection, ?_, ?_⟩
  · intro v ns hv hwhole hle
    exact ⟨applied_sum_of_whole hv hwhole hle, fun w ms hw hperm => applied_sum_of_perm hv hw hperm hwhole hle⟩
  · intro v hnumber
    exact ⟨fun ns rest => applied_sum_of_not_number (.array _) hnumber,
      fun members key hsorted hmem => applied_sum_of_sorted hsorted hmem hnumber⟩
  · intro v ns hv
    refine ⟨?_, fun ⟨k, hk⟩ => applied_sum_of_not_finite hv hk⟩
    intro hfinite
    obtain ⟨x, hx⟩ := Option.ne_none_iff_exists'.1 (hfinite (ns.map Number.toFinite).length)
    rw [List.take_length] at hx
    obtain ⟨s, hs, hsx⟩ := applied_sum_of_finite hv hx
    exact ⟨s, x, hs, hx, hsx⟩

/-- An integer and a binary64 below zero, whose sum is just below 10¹⁵; a text behind two numbers that overflow; and these
two numbers alone. -/
theorem sum_of_collection_of_overflow :
    let much : Number := .integer ⟨1_000_000_000_000_000, by decide⟩
    let minusOne : Number := .real (.ofWord true 1 (by decide))
    let huge : Number := .real ⟨false, twoTo (Binary64.unitBits + 1023),
      by rw [log2_twoTo]; exact twoTo_dvd (Nat.sub_le _ _), twoTo_lt (by omega)⟩
    let failure : RuleError := .operationFailed "sum" "Not a valid Real Number: x"
    (∃ i : Json.Integer, applied "sum" [.array [.number much, .number minusOne]] = .ok (.number (.integer i)) ∧
      (i.value : ℚ) = 999_999_999_999_999 ∧
      applied "sum" [.object [("a", .number minusOne), ("b", .number much)]] = .ok (.number (.integer i))) ∧
    applied "sum" [.null] = .error (.operationFailed "sum" "Not a valid Mapping: null") ∧
    applied "sum" [.array [.number huge, .number huge, .string "x", .null]] = .error failure ∧
    applied "sum" [.object [("a", .number huge), ("b", .string "x"), ("c", .null)]] = .error failure ∧
    applied "sum" [.array [.number huge, .number huge]] = .error notFinite := by
  intro much minusOne huge failure
  obtain ⟨hwhole, hnone, hnumber, hfinite⟩ := sum_of_collection
  have hminus : minusOne.value = (-1 : Int) := by
    have hpos : (unitsPerOne : ℚ) ≠ 0 := Nat.cast_ne_zero.2 (Nat.ne_of_gt unitsPerOne_pos)
    have hunits : (Finite.ofWord true 1 (by decide)).toInt = -1 * unitsPerOne := by decide +kernel
    rw [Number.value, div_eq_iff hpos, hunits]
    push_cast
    rfl
  have hmuch : much.value = (1_000_000_000_000_000 : Int) := rfl
  have hlist : Json.Holds (.array [.number much, .number minusOne]) ([much, minusOne].map .number) := .array _
  have hmapping : Json.Holds (.object [("a", .number minusOne), ("b", .number much)])
      ([minusOne, much].map .number) := .object _
  obtain ⟨⟨s, hs, hvalue, hinteger⟩, horder⟩ := hwhole _ [much, minusOne] hlist
    (by
      intro n hn
      rcases List.mem_pair.1 hn with rfl | rfl
      · exact ⟨_, hmuch⟩
      · exact ⟨_, hminus⟩)
    (by
      simp only [List.map_cons, List.map_nil, List.sum_cons, List.sum_nil, hmuch, hminus]
      have h53 : twoTo 53 = 9_007_199_254_740_992 := by decide
      rw [h53]
      norm_num)
  have hsum : s.value = 999_999_999_999_999 := by
    rw [hvalue]
    simp only [List.map_cons, List.map_nil, List.sum_cons, List.sum_nil, hmuch, hminus]
    norm_num
  obtain ⟨i, rfl⟩ := hinteger.2 (by rw [hsum]; norm_num)
  have hx : ∀ n, Json.string "x" ≠ .number n := by
    intro n h
    cases h
  have hsorted : Table.Sorted [("a", Json.number huge), ("b", .string "x"), ("c", .null)] := by
    rw [Table.Sorted]
    decide
  have hover : Binary64.total? (([huge, huge].map Number.toFinite).take 2) = none := by decide +kernel
  have hbefore : ∀ other w, (other, w) ∈ [("a", Json.number huge), ("b", .string "x"), ("c", .null)] → other < "b" →
      ∃ n, w = .number n := by
    intro other w hw hlt
    simp only [List.mem_cons, Prod.mk.injEq, List.not_mem_nil, or_false] at hw
    rcases hw with ⟨-, rfl⟩ | ⟨rfl, -⟩ | ⟨rfl, -⟩
    · exact ⟨huge, rfl⟩
    · exact absurd hlt (by decide)
    · exact absurd hlt (by decide)
  have hmapped := hnone .null rfl rfl
  have hitems := (hnumber _ hx).1 [huge, huge] [.null]
  have hmembers := (hnumber _ hx).2 _ "b" hsorted (by simp) hbefore
  have hnull : RuleError.rejection "Mapping" Json.null.display = "Not a valid Mapping: null" := by decide +kernel
  have htext : RuleError.rejection "Real Number" (Json.string "x").display = "Not a valid Real Number: x" := by
    decide +kernel
  rw [hnull] at hmapped
  rw [htext] at hitems hmembers
  exact ⟨⟨i, hs, hsum, (horder _ [minusOne, much] hmapping (.swap _ _ _)).trans hs⟩, hmapped, hitems, hmembers,
    (hfinite _ [huge, huge] (.array _)).2 ⟨2, hover⟩⟩

end OperatorTable
end Eligibility
