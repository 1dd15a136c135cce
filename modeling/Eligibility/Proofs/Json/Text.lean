import Eligibility.Json.Printer
import Eligibility.Json.Written
import Eligibility.Proofs.Numeral
import Mathlib.Data.List.DropRight
import Mathlib.Data.List.TakeDrop
import Mathlib.Tactic.IntervalCases
/-!
# Values and their texts

`Written.ofJson?` is what the compact text of a value without real numbers writes.  The text is read as just that, in
front of whatever may stand after a value (`value?_compactChars`), so that a value is read from its text
(`read?_compact`).  Strings are read back character by character (`string?_quote`), integers with all their digits
(`NumberText.toNumber?_ofInteger`).
-/
namespace Eligibility.Json

/-- **Whether a text is at an end, or goes on as it may after a value** in a list or a mapping. -/
def Closed (text : List Char) : Prop := ∀ c ∈ text.head?, c = ',' ∨ c = ']' ∨ c = '\x7d'

theorem closed_nil : Closed [] := nofun

theorem closed_cons {c : Char} {text : List Char} (h : c = ',' ∨ c = ']' ∨ c = '\x7d') : Closed (c :: text) := by
  rintro _ ⟨⟩
  exact h

/-! ## Numbers -/

namespace NumberText

/-- An integer as it is written. -/
def ofInteger (n : Integer) : NumberText := ⟨decide (n.value < 0), Nat.toDigits 10 n.value.natAbs, none, none⟩

theorem toList_repr (n : Int) :
    n.repr.toList = if n < 0 then '-' :: Nat.toDigits 10 n.natAbs else Nat.toDigits 10 n.natAbs := by
  rw [Int.repr_eq_if]
  by_cases h : n < 0
  · have habs : (-n).toNat = n.natAbs := by omega
    rw [if_neg (by omega), if_pos h, String.toList_append, Nat.toList_repr, habs]
    rfl
  · have habs : n.toNat = n.natAbs := by omega
    rw [if_pos (by omega), if_neg h, Nat.toList_repr, habs]

theorem not_isDigit_of_closed {text : List Char} (h : Closed text) : ∀ c ∈ text.head?, c.isDigit = false := by
  intro c hc
  rcases h c hc with rfl | rfl | rfl <;> rfl

theorem splitDigits_append {digits rest : List Char} (hall : digits.all Char.isDigit = true) (hrest : Closed rest) :
    Numeral.splitDigits (digits ++ rest) = (digits, rest) := by
  rw [List.all_eq_true] at hall
  have hhead : rest.span Char.isDigit = ([], rest) := by
    cases rest with
    | nil => rfl
    | cons c others =>
      have hc := not_isDigit_of_closed hrest c rfl
      simp [List.span_eq_takeWhile_dropWhile, hc]
  rw [List.span_eq_takeWhile_dropWhile] at hhead
  obtain ⟨htake, hdrop⟩ := Prod.mk.inj hhead
  rw [Numeral.splitDigits, List.span_eq_takeWhile_dropWhile, List.takeWhile_append_of_pos hall,
    List.dropWhile_append_of_pos hall, htake, hdrop, List.append_nil]

theorem whole?_toDigits (n : Nat) {rest : List Char} (hrest : Closed rest) :
    whole? (Nat.toDigits 10 n ++ rest) = some (Nat.toDigits 10 n, rest) := by
  by_cases hn : n = 0
  · subst hn
    rfl
  · obtain ⟨c, others, hdigits, hc⟩ := Numeral.toDigits_eq_cons (Nat.pos_of_ne_zero hn)
    have hsplit := splitDigits_append (Numeral.all_isDigit_replicate_append_toDigits 0 n) hrest
    rw [List.replicate_zero, List.nil_append, hdigits] at hsplit
    rw [hdigits, List.cons_append, whole?, digits?, ← List.cons_append, hsplit]
    rintro rest heq
    exact hc (List.cons.inj heq).1

theorem fraction?_of_closed {rest : List Char} (h : Closed rest) : fraction? rest = some (none, rest) := by
  cases rest with
  | nil => rfl
  | cons c others => rcases h c rfl with rfl | rfl | rfl <;> rfl

theorem exponent?_of_closed {rest : List Char} (h : Closed rest) : exponent? rest = some (none, rest) := by
  cases rest with
  | nil => rfl
  | cons c others => rcases h c rfl with rfl | rfl | rfl <;> rfl

/-- **An integer is read from its digits.** -/
theorem read?_ofInteger (n : Integer) {rest : List Char} (hrest : Closed rest) :
    read? (n.value.repr.toList ++ rest) = some (ofInteger n, rest) := by
  have hwhole := whole?_toDigits n.value.natAbs hrest
  have hfraction := fraction?_of_closed hrest
  have hexponent := exponent?_of_closed hrest
  rw [toList_repr]
  by_cases hnegative : n.value < 0
  · rw [if_pos hnegative]
    simp [read?, ofInteger, hwhole, hfraction, hexponent, hnegative]
  · obtain ⟨c, others, hdigits, hc⟩ := Numeral.exists_toDigits_eq_cons n.value.natAbs
    have hminus : c ≠ '-' := by
      rintro rfl
      exact absurd hc (by decide)
    rw [if_neg hnegative]
    simp only [hdigits, List.cons_append] at hwhole
    simp [read?, ofInteger, hdigits, hminus, hwhole, hfraction, hexponent, hnegative]

theorem value_toDigits (n : Nat) : Numeral.value (Nat.toDigits 10 n) = n := by
  have h := Nat.ofDigitChars_ten_toDigits (n := n)
  rw [Nat.ofDigitChars_eq_foldl] at h
  simpa only [Numeral.value, Nat.mul_comm] using h

/-- **What the digits of an integer write is the integer.** -/
theorem toNumber?_ofInteger (n : Integer) : (ofInteger n).toNumber? = some (.integer n) := by
  have hofInt : Integer.ofInt? n.value = some n := dif_pos n.inRange
  have h : (ofInteger n).toInteger? = some n := by
    rw [ofInteger, toInteger?, value_toDigits]
    by_cases hnegative : n.value < 0
    · have hne : n.value.natAbs ≠ 0 := by omega
      have hvalue : -(n.value.natAbs : Int) = n.value := by omega
      simp only [hnegative, hne, hvalue, hofInt, decide_true, if_true, if_false]
    · have hvalue : (n.value.natAbs : Int) = n.value := by omega
      simp [hnegative, hvalue, hofInt]
  rw [toNumber?, h]

end NumberText

namespace Written

/-! ## Strings -/

theorem join?_unit {c : Char} (h : c.toNat < 32) (ps : List Piece) :
    join? (.unit c.toNat :: ps) = (join? ps).map (c :: ·) := by
  have hleading : isLeading c.toNat = false := by
    simp [isLeading]
    omega
  have htrailing : isTrailing c.toNat = false := by
    simp [isTrailing]
    omega
  cases ps with
  | nil => simp [join?, hleading, htrailing]
  | cons p rest => cases p <;> simp [join?, hleading, htrailing]

/-- Whether a piece is read from the text of a character, and stands for it. -/
structure Piece.Shows (p : Piece) (c : Char) : Prop where
  read (text : List Char) : pieces? (escape c ++ text) = (pieces? text).map fun (ps, rest) => (p :: ps, rest)
  join (ps : List Piece) : join? (p :: ps) = (join? ps).map (c :: ·)

/-- **A character is written in a way that is read back.** -/
theorem exists_shows (c : Char) : ∃ p : Piece, p.Shows c := by
  by_cases hspecial : c ∈ ['"', '\\', '\n', '\r', '\t', '\x08', '\x0c']
  · refine ⟨.char c, ?_, fun _ => rfl⟩
    simp only [List.mem_cons, List.not_mem_nil, or_false] at hspecial
    rcases hspecial with rfl | rfl | rfl | rfl | rfl | rfl | rfl <;> exact fun _ => rfl
  · simp only [List.mem_cons, List.not_mem_nil, or_false, not_or] at hspecial
    obtain ⟨hquote, hbackslash, hn, hr, ht, hb, hf⟩ := hspecial
    by_cases hcontrol : c < ' '
    · have hlt : c.toNat < 32 := hcontrol
      have hescape : escape c = ['\\', 'u', '0', '0', Nat.digitChar (c.toNat / 16), Nat.digitChar (c.toNat % 16)] := by
        simp [escape, hquote, hbackslash, hn, hr, ht, hb, hf, hcontrol]
      have hdigits : ∀ n < 32,
          Numeral.ofDigits? 16 ['0', '0', Nat.digitChar (n / 16), Nat.digitChar (n % 16)] = some n := by decide
      refine ⟨.unit c.toNat, fun text => ?_, join?_unit hlt⟩
      rw [hescape]
      simp [pieces?, hdigits _ hlt]
    · have hescape : escape c = [c] := by simp [escape, hquote, hbackslash, hn, hr, ht, hb, hf, hcontrol]
      refine ⟨.char c, fun text => ?_, fun _ => rfl⟩
      rw [hescape, List.singleton_append, pieces?]
      · simp [hcontrol, hbackslash]
      all_goals simp_all

/-- **A string is read back from its text.** -/
theorem string?_quote (s : String) (rest : List Char) :
    string? (s.toList.flatMap escape ++ '"' :: rest) = some (some s, rest) := by
  have hpieces : ∀ cs : List Char, ∃ ps, pieces? (cs.flatMap escape ++ '"' :: rest) = some (ps, rest) ∧
      join? ps = some cs := by
    intro cs
    induction cs with
    | nil => exact ⟨[], rfl, rfl⟩
    | cons c others ih =>
      obtain ⟨ps, hps, hjoin⟩ := ih
      obtain ⟨p, hp⟩ := exists_shows c
      refine ⟨p :: ps, ?_, ?_⟩
      · rw [List.flatMap_cons, List.append_assoc, hp.read, hps, Option.map_some]
      · rw [hp.join, hjoin, Option.map_some]
  obtain ⟨ps, hps, hjoin⟩ := hpieces s.toList
  simp [string?, hps, hjoin]

/-! ## Values -/

mutual

/-- **What the compact text of a value writes**, if its numbers are integers. -/
def ofJson? : Json → Option Written
  | .null => some .null
  | .bool b => some (.bool b)
  | .number (.integer n) => some (.number (.ofInteger n))
  | .number (.real _) => none
  | .string s => some (.string (some s))
  | .array items => (itemsOfJson? items).map .array
  | .object members => (membersOfJson? members).map .object

def itemsOfJson? : List Json → Option (List Written)
  | [] => some []
  | v :: rest => (ofJson? v).bind fun w => (itemsOfJson? rest).map (w :: ·)

def membersOfJson? : List (String × Json) → Option (List (Option String × Written))
  | [] => some []
  | (k, v) :: rest => (ofJson? v).bind fun w => (membersOfJson? rest).map ((some k, w) :: ·)

end

theorem isSome_ofJson?_array {items : List Json} (h : ∀ v ∈ items, (ofJson? v).isSome) :
    (ofJson? (.array items)).isSome := by
  have hitems : (itemsOfJson? items).isSome := by
    induction items with
    | nil => rfl
    | cons v rest ih =>
      obtain ⟨hv, hrest⟩ := List.forall_mem_cons.1 h
      simp [itemsOfJson?, Option.isSome_bind, hv, ih hrest]
  rw [ofJson?, Option.isSome_map, hitems]

theorem isSome_ofJson?_object {members : List (String × Json)} (h : ∀ m ∈ members, (ofJson? m.2).isSome) :
    (ofJson? (.object members)).isSome := by
  have hmembers : (membersOfJson? members).isSome := by
    induction members with
    | nil => rfl
    | cons m rest ih =>
      obtain ⟨hm, hrest⟩ := List.forall_mem_cons.1 h
      simp [membersOfJson?, Option.isSome_bind, hm, ih hrest]
  rw [ofJson?, Option.isSome_map, hmembers]

theorem skipBlanks_skipBlanks (text : List Char) : skipBlanks (skipBlanks text) = skipBlanks text :=
  List.dropWhile_idempotent _ _

theorem skipBlanks_cons {c : Char} (h : isBlank c = false) (text : List Char) :
    skipBlanks (c :: text) = c :: text := List.dropWhile_cons_of_neg (Bool.eq_false_iff.1 h)

theorem value?_skipBlanks (fuel : Nat) (text : List Char) : value? fuel (skipBlanks text) = value? fuel text := by
  cases fuel with
  | zero => rfl
  | succ fuel => rw [value?, value?, skipBlanks_skipBlanks]

theorem items?_skipBlanks (fuel : Nat) (text : List Char) : items? fuel (skipBlanks text) = items? fuel text := by
  cases fuel with
  | zero => rfl
  | succ fuel => rw [items?, items?, value?_skipBlanks]

theorem members?_skipBlanks (fuel : Nat) (text : List Char) : members? fuel (skipBlanks text) = members? fuel text := by
  cases fuel with
  | zero => rfl
  | succ fuel => rw [members?, members?, skipBlanks_skipBlanks]

theorem value?_integer (fuel : Nat) (n : Integer) {rest : List Char} (hrest : Closed rest) :
    value? (fuel + 1) (n.value.repr.toList ++ rest) = some (.number (.ofInteger n), rest) := by
  have hread := NumberText.read?_ofInteger n hrest
  obtain ⟨c, others, htext, hc⟩ : ∃ c others, n.value.repr.toList = c :: others ∧ (c = '-' ∨ c.isDigit = true) := by
    obtain ⟨c, others, hdigits, hc⟩ := Numeral.exists_toDigits_eq_cons n.value.natAbs
    rw [NumberText.toList_repr]
    split
    · exact ⟨'-', _, rfl, .inl rfl⟩
    · exact ⟨c, others, hdigits, .inr hc⟩
  have hnumber : ∀ text, value? (fuel + 1) (c :: text) =
      (NumberText.read? (c :: text)).map fun p => (.number p.1, p.2) := by
    intro text
    rcases hc with rfl | hc
    · rfl
    · obtain ⟨d, hd, rfl, -⟩ := Numeral.digitChar_of_isDigit hc
      interval_cases d <;> rfl
  rw [htext, List.cons_append] at hread ⊢
  rw [hnumber, hread, Option.map_some]

theorem value?_array {fuel : Nat} {text rest : List Char} {ws : List Written}
    (h : items? fuel text = some (ws, rest)) : value? (fuel + 1) ('[' :: text) = some (.array ws, rest) := by
  have hblank : isBlank '[' = false := rfl
  rw [← items?_skipBlanks] at h
  simp only [value?, skipBlanks_cons hblank]
  split
  · -- no element starts with a closing bracket
    rename_i heq
    rw [heq] at h
    rcases fuel with _ | _ | fuel <;> cases h
  · rw [h, Option.map_some]

theorem value?_object {fuel : Nat} {text rest : List Char} {ws : List (Option String × Written)}
    (h : members? fuel text = some (ws, rest)) : value? (fuel + 1) ('\x7b' :: text) = some (.object ws, rest) := by
  have hblank : isBlank '\x7b' = false := rfl
  rw [← members?_skipBlanks] at h
  simp only [value?, skipBlanks_cons hblank]
  split
  · -- no member starts with a closing brace
    rename_i heq
    rw [heq] at h
    rcases fuel with _ | fuel <;> cases h
  · rw [h, Option.map_some]

theorem items?_last {fuel : Nat} {text rest : List Char} {w : Written}
    (h : value? fuel text = some (w, ']' :: rest)) : items? (fuel + 1) text = some ([w], rest) := by
  simp [items?, h, skipBlanks_cons, isBlank]

theorem items?_cons {fuel : Nat} {text next rest : List Char} {w : Written} {ws : List Written}
    (h : value? fuel text = some (w, ',' :: next)) (hnext : items? fuel next = some (ws, rest)) :
    items? (fuel + 1) text = some (w :: ws, rest) := by
  simp [items?, h, skipBlanks_cons, isBlank, hnext]

theorem members?_last {fuel : Nat} {k : String} {text rest : List Char} {w : Written}
    (h : value? fuel text = some (w, '\x7d' :: rest)) :
    members? (fuel + 1) (quote k ++ ':' :: text) = some ([(some k, w)], rest) := by
  simp [members?, quote, skipBlanks_cons, isBlank, string?_quote, h]

theorem members?_cons {fuel : Nat} {k : String} {text next rest : List Char} {w : Written}
    {ws : List (Option String × Written)} (h : value? fuel text = some (w, ',' :: next))
    (hnext : members? fuel next = some (ws, rest)) :
    members? (fuel + 1) (quote k ++ ':' :: text) = some ((some k, w) :: ws, rest) := by
  simp [members?, quote, skipBlanks_cons, isBlank, string?_quote, h, hnext]

-- by induction on values; a step takes two units of fuel for a character at most, as an element takes a second step
mutual

/-- **The compact text of a value is read as what it writes.** -/
theorem value?_compactChars : ∀ (v : Json) {w : Written} {fuel : Nat} {rest : List Char}, ofJson? v = some w →
    Closed rest → 2 * (compactChars v).length ≤ fuel → value? (fuel + 1) (compactChars v ++ rest) = some (w, rest)
  | .null, _, _, _, h, _, _ => by
    cases h
    rfl
  | .bool b, _, _, _, h, _, _ => by
    cases h
    cases b <;> rfl
  | .number (.integer n), _, fuel, _, h, hrest, _ => by
    cases h
    exact value?_integer fuel n hrest
  | .number (.real _), _, _, _, h, _, _ => by cases h
  | .string s, _, fuel, rest, h, _, _ => by
    cases h
    have hread : value? (fuel + 1) (compactChars (.string s) ++ rest) =
        (string? (s.toList.flatMap escape ++ '"' :: rest)).map fun (content, rest) => (.string content, rest) := by
      rw [compactChars, quote, List.cons_append, List.append_assoc]
      rfl
    rw [hread, string?_quote, Option.map_some]
  | .array items, w, fuel, rest, h, hrest, hfuel => by
    obtain ⟨ws, hws, rfl⟩ := Option.map_eq_some_iff.1 h
    rw [compactChars, List.length_cons, List.length_append, List.length_singleton] at hfuel
    rw [compactChars, List.cons_append, List.append_assoc, List.singleton_append]
    cases items with
    | nil =>
      cases hws
      rfl
    | cons v others =>
      obtain ⟨n, rfl⟩ : ∃ n, fuel = n + 1 := ⟨fuel - 1, by omega⟩
      obtain ⟨w, -, hw⟩ := Option.bind_eq_some_iff.1 hws
      obtain ⟨us, -, rfl⟩ := Option.map_eq_some_iff.1 hw
      exact value?_array (items?_compactItems (v :: others) hws (by omega))
  | .object members, w, fuel, rest, h, hrest, hfuel => by
    obtain ⟨ws, hws, rfl⟩ := Option.map_eq_some_iff.1 h
    rw [compactChars, List.length_cons, List.length_append, List.length_singleton] at hfuel
    rw [compactChars, List.cons_append, List.append_assoc, List.singleton_append]
    cases members with
    | nil =>
      cases hws
      rfl
    | cons m others =>
      obtain ⟨n, rfl⟩ : ∃ n, fuel = n + 1 := ⟨fuel - 1, by omega⟩
      obtain ⟨w, -, hw⟩ := Option.bind_eq_some_iff.1 hws
      obtain ⟨us, -, rfl⟩ := Option.map_eq_some_iff.1 hw
      exact value?_object (members?_compactMembers (m :: others) hws (by omega))

theorem items?_compactItems : ∀ (items : List Json) {u : Written} {us : List Written} {fuel : Nat} {rest : List Char},
    itemsOfJson? items = some (u :: us) → 2 * (compactItems items).length < fuel →
      items? (fuel + 1) (compactItems items ++ ']' :: rest) = some (u :: us, rest)
  | [], _, _, _, _, h, _ => by cases h
  | [v], u, us, fuel, rest, h, hfuel => by
    obtain ⟨w, hw, h⟩ := Option.bind_eq_some_iff.1 h
    cases h
    obtain ⟨n, rfl⟩ : ∃ n, fuel = n + 1 := ⟨fuel - 1, by omega⟩
    rw [compactItems] at hfuel ⊢
    exact items?_last (value?_compactChars v hw (closed_cons (by decide)) (Nat.le_of_lt_succ hfuel))
  | v :: v' :: others, u, us, fuel, rest, h, hfuel => by
    obtain ⟨w, hw, h⟩ := Option.bind_eq_some_iff.1 h
    obtain ⟨ws, hws, h⟩ := Option.map_eq_some_iff.1 h
    cases h
    obtain ⟨w', hw', hmore⟩ := Option.bind_eq_some_iff.1 hws
    obtain ⟨ws', -, rfl⟩ := Option.map_eq_some_iff.1 hmore
    obtain ⟨n, rfl⟩ : ∃ n, fuel = n + 1 := ⟨fuel - 1, by omega⟩
    rw [compactItems, List.length_append, List.length_cons] at hfuel
    rw [compactItems, List.append_assoc, List.cons_append]
    exact items?_cons (value?_compactChars v hw (closed_cons (by decide)) (by omega))
      (items?_compactItems (v' :: others) hws (by omega))

theorem members?_compactMembers : ∀ (members : List (String × Json)) {u : Option String × Written}
    {us : List (Option String × Written)} {fuel : Nat} {rest : List Char},
    membersOfJson? members = some (u :: us) → 2 * (compactMembers members).length < fuel →
      members? (fuel + 1) (compactMembers members ++ '\x7d' :: rest) = some (u :: us, rest)
  | [], _, _, _, _, h, _ => by cases h
  | [(k, v)], u, us, fuel, rest, h, hfuel => by
    obtain ⟨w, hw, h⟩ := Option.bind_eq_some_iff.1 h
    cases h
    obtain ⟨n, rfl⟩ : ∃ n, fuel = n + 1 := ⟨fuel - 1, by omega⟩
    rw [compactMembers, List.length_append, List.length_cons] at hfuel
    rw [compactMembers, List.append_assoc, List.cons_append]
    exact members?_last (value?_compactChars v hw (closed_cons (by decide)) (by omega))
  | (k, v) :: m :: others, u, us, fuel, rest, h, hfuel => by
    obtain ⟨w, hw, h⟩ := Option.bind_eq_some_iff.1 h
    obtain ⟨ws, hws, h⟩ := Option.map_eq_some_iff.1 h
    cases h
    obtain ⟨w', hw', hmore⟩ := Option.bind_eq_some_iff.1 hws
    obtain ⟨ws', -, rfl⟩ := Option.map_eq_some_iff.1 hmore
    obtain ⟨n, rfl⟩ : ∃ n, fuel = n + 1 := ⟨fuel - 1, by omega⟩
    rw [compactMembers, List.length_append, List.length_cons, List.length_append, List.length_cons] at hfuel
    rw [compactMembers, List.append_assoc, List.cons_append, List.append_assoc, List.cons_append]
    exact members?_cons (value?_compactChars v hw (closed_cons (by decide)) (by omega))
      (members?_compactMembers (m :: others) hws (by omega))

end

/-- **A value whose numbers are integers is read from its text.** -/
theorem read?_compact {v : Json} {w : Written} (h : ofJson? v = some w) : read? (compact v) = some w := by
  have hlength : 2 * (compactChars v).length ≤ 2 * (compact v).length + 1 := by
    rw [compact, String.length_ofList]
    omega
  have hread := value?_compactChars v h closed_nil hlength
  rw [List.append_nil] at hread
  rw [read?, compact, String.toList_ofList, ← compact, hread]
  rfl

end Written
end Eligibility.Json
