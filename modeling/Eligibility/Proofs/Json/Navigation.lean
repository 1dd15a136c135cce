import Eligibility.Proofs.Json.Path
import Eligibility.Proofs.Numeral
import Eligibility.Proofs.Table.Sorted
import Mathlib.Data.List.Forall2
/-!
# Where paths lead

A value is reached from another one by steps, each to the member of a key or to the element at a place (`Reaches`).
A path is its pieces with points between them (`joined_steps`, `steps_joined`), and looking it up is reading each piece
as the step that there is from the value reached so far (`lookup?_eq_some_iff`): a key in a mapping, an index in a list.
-/
namespace Eligibility.Json.Path

/-- A step into a value: to the member of a key, or to the element at a place. -/
inductive Step where
  | key (name : String)
  | index (i : Nat)

/-- **What is reached from a value by steps.** -/
inductive Reaches : Json → List Step → Json → Prop
  | here (v : Json) : Reaches v [] v
  | member {members : Table Json} {name : String} {next v : Json} {rest : List Step}
      (h : members.get? name = some next) (hrest : Reaches next rest v) : Reaches (.object members) (.key name :: rest) v
  | element {items : List Json} {i : Nat} {next v : Json} {rest : List Step}
      (h : items[i]? = some next) (hrest : Reaches next rest v) : Reaches (.array items) (.index i :: rest) v

namespace Step

/-- The text of a step, an index in decimal digits. -/
def text : Step → String
  | key name => name
  | index i => i.repr

/-- Whether a piece of a path can be read as a step. -/
def Reads : Step → String → Prop
  | key name, piece => piece = name
  | index i, piece => Numeral.Writes piece.toList i

theorem reads_text : ∀ s : Step, s.Reads s.text
  | key _ => rfl
  | index i => ⟨[], 0, .inl rfl, by rw [text, Nat.toList_repr]; rfl⟩

theorem not_mem_text {s : Step} (h : ∀ name, s = key name → '.' ∉ name.toList) : '.' ∉ s.text.toList := by
  cases s with
  | key name => exact h name rfl
  | index i =>
    rw [text, Nat.toList_repr]
    intro hpoint
    have hdigit := Nat.isDigit_of_mem_toDigits (by decide) (by decide) hpoint
    exact absurd hdigit (by decide)

end Step

/-- Pieces with points between them. -/
def joined (pieces : List String) : String := String.intercalate "." pieces

/-- **Whether 64 bits count the elements of every list** of a value. -/
def Countable (v : Json) : Prop :=
  ∀ steps items, Reaches v steps (.array items) → items.length < 18_446_744_073_709_551_616

theorem steps_joined {pieces : List String} (hne : pieces ≠ []) (h : ∀ piece ∈ pieces, '.' ∉ piece.toList) :
    steps (joined pieces) = pieces := by
  have htexts : ∀ text ∈ pieces.map String.toList, '.' ∉ text := by simpa using h
  have hpoint : ".".toList = ['.'] := rfl
  rw [steps, joined, String.toList_intercalate, hpoint, split_eq_splitOn,
    List.splitOn_intercalate '.' htexts (by simpa using hne), List.map_map]
  simp

theorem joined_steps (path : String) : joined (steps path) = path := by
  apply String.toList_inj.1
  have hpoint : ".".toList = ['.'] := rfl
  have hpieces : (steps path).map String.toList = split path.toList := by simp [steps]
  rw [joined, String.toList_intercalate, hpoint, hpieces, split_eq_splitOn, List.intercalate_splitOn]

theorem Reaches.trans {u v w : Json} {first second : List Step} (h : Reaches u first v) (h' : Reaches v second w) :
    Reaches u (first ++ second) w := by
  induction h with
  | here _ => exact h'
  | member h _ ih => exact .member h (ih h')
  | element h _ ih => exact .element h (ih h')

theorem Countable.of_reaches {v w : Json} {s : List Step} (h : Countable v) (hw : Reaches v s w) : Countable w :=
  fun rest items hitems => h (s ++ rest) items (hw.trans hitems)

theorem Countable.length_lt {items : List Json} (h : Countable (.array items)) :
    items.length < 18_446_744_073_709_551_616 := h [] items (.here _)

theorem countable_array {items : List Json} (hlength : items.length < 18_446_744_073_709_551_616)
    (h : ∀ v ∈ items, Countable v) : Countable (.array items) := by
  rintro s others (_ | _ | ⟨hnext, hrest⟩)
  · exact hlength
  · exact h _ (List.mem_of_getElem? hnext) _ others hrest

theorem countable_object {members : Table Json} (h : ∀ m ∈ members, Countable m.2) : Countable (.object members) := by
  rintro s items (_ | ⟨hnext, hrest⟩ | _)
  exact h _ (Table.mem_of_get? hnext) _ items hrest

/-- **One step of a path** is a step into the value that its piece can be read as. -/
theorem exists_step_of_step? {v next : Json} {piece : String} (h : step? v piece = some next) :
    ∃ s : Step, s.Reads piece ∧ Reaches v [s] next := by
  cases v with
  | object members => exact ⟨.key piece, rfl, .member h (.here next)⟩
  | array items =>
    obtain ⟨i, hi, hnext⟩ := Option.bind_eq_some_iff.1 h
    exact ⟨.index i, (Numeral.word?_eq_some_iff.1 hi).1, .element hnext (.here next)⟩
  | null | bool _ | number _ | string _ => cases h

theorem step?_of_index {items : List Json} {i : Nat} {next : Json} {piece : String} (hv : Countable (.array items))
    (hpiece : Numeral.Writes piece.toList i) (h : items[i]? = some next) :
    step? (.array items) piece = some next := by
  have hi : i < items.length := (List.getElem?_eq_some_iff.1 h).1
  have hword : Numeral.word? piece.toList = some i :=
    Numeral.word?_eq_some_iff.2 ⟨hpiece, Nat.lt_trans hi hv.length_lt⟩
  rw [step?, hword]
  exact h

theorem exists_reaches_of_walk? : ∀ {pieces : List String} {v w : Json}, walk? v pieces = some w →
    ∃ s, List.Forall₂ Step.Reads s pieces ∧ Reaches v s w
  | [], v, w, h => by
    cases h
    exact ⟨[], .nil, .here v⟩
  | piece :: rest, v, w, h => by
    obtain ⟨next, hnext, hrest⟩ := Option.bind_eq_some_iff.1 h
    obtain ⟨s, hs, hreach⟩ := exists_step_of_step? hnext
    obtain ⟨others, hothers, hw⟩ := exists_reaches_of_walk? hrest
    exact ⟨s :: others, .cons hs hothers, hreach.trans hw⟩

theorem walk?_of_reaches {v w : Json} {s : List Step} (h : Reaches v s w) :
    ∀ {pieces : List String}, Countable v → List.Forall₂ Step.Reads s pieces → walk? v pieces = some w := by
  induction h with
  | here v =>
    rintro _ - ⟨⟩
    rfl
  | @member members name next v rest hnext hrest ih =>
    rintro _ hv (_ | ⟨rfl, hothers⟩)
    rw [walk?, step?, hnext, Option.bind_some]
    exact ih (hv.of_reaches (.member hnext (.here next))) hothers
  | @element items i next v rest hnext hrest ih =>
    rintro _ hv (_ | ⟨hpiece, hothers⟩)
    rw [walk?, step?_of_index hv hpiece hnext, Option.bind_some]
    exact ih (hv.of_reaches (.element hnext (.here next))) hothers

/-- **A path leads to what its pieces reach**, each read as a step. -/
theorem lookup?_eq_some_iff {context v : Json} (hcontext : Countable context) (path : String) :
    lookup? path context = some v ↔ ∃ pieces s, pieces ≠ [] ∧ (∀ piece ∈ pieces, '.' ∉ piece.toList) ∧
      path = joined pieces ∧ List.Forall₂ Step.Reads s pieces ∧ Reaches context s v := by
  constructor
  · intro h
    obtain ⟨s, hs, hv⟩ := exists_reaches_of_walk? h
    exact ⟨steps path, s, steps_ne_nil path, fun _ => not_mem_of_mem_steps, (joined_steps path).symm, hs, hv⟩
  · rintro ⟨pieces, s, hne, hpieces, rfl, hs, hv⟩
    rw [lookup?, steps_joined hne hpieces]
    exact walk?_of_reaches hv hcontext hs

theorem lookup?_of_reaches {context v : Json} (hcontext : Countable context) {s : List Step} (hne : s ≠ [])
    (hkeys : ∀ name, .key name ∈ s → '.' ∉ name.toList) (h : Reaches context s v) :
    lookup? (joined (s.map Step.text)) context = some v := by
  refine (lookup?_eq_some_iff hcontext _).2 ⟨s.map Step.text, s, by simpa using hne, ?_, rfl, ?_, h⟩
  · intro piece hpiece
    obtain ⟨t, ht, rfl⟩ := List.mem_map.1 hpiece
    exact Step.not_mem_text fun name hname => hkeys name (hname ▸ ht)
  · rw [List.forall₂_map_right_iff]
    exact List.forall₂_same.2 fun t _ => t.reads_text

theorem resolve_eq_ok_iff {path : String} {context v : Json} :
    resolve path context = .ok v ↔ lookup? path context = some v ∧ v ≠ .null := by
  rw [resolve]
  cases lookup? path context with
  | none => simp
  | some w => cases w <;> simp <;> grind

/-- **Paths as navigation.**  A point in a path continues from where the part before it leads.  In a value whose lists
64 bits can count, a path leads exactly to what its pieces reach, a key without a point or an index in digits for each
step; and it resolves to that if it is not null. -/
theorem lookup?_eq_navigation (context : Json) :
    (∀ p q, lookup? (p ++ "." ++ q) context = (lookup? p context).bind (lookup? q)) ∧
    (Countable context → ∀ v,
      (∀ s, s ≠ [] → (∀ name, .key name ∈ s → '.' ∉ name.toList) → Reaches context s v →
        lookup? (joined (s.map Step.text)) context = some v) ∧
      ∀ path, lookup? path context = some v ↔ ∃ pieces s, pieces ≠ [] ∧ (∀ piece ∈ pieces, '.' ∉ piece.toList) ∧
        path = joined pieces ∧ List.Forall₂ Step.Reads s pieces ∧ Reaches context s v) ∧
    ∀ path, (∀ v, resolve path context = .ok v ↔ lookup? path context = some v ∧ v ≠ .null) ∧
      ((∀ v, lookup? path context = some v → v = .null) → resolve path context = .error (.unresolvedPath path)) := by
  refine ⟨fun p q => lookup?_append p q context, ?_, ?_⟩
  · intro hcontext v
    exact ⟨fun s hne hkeys => lookup?_of_reaches hcontext hne hkeys, fun path => lookup?_eq_some_iff hcontext path⟩
  · intro path
    refine ⟨fun v => resolve_eq_ok_iff, ?_⟩
    intro h
    cases hfound : lookup? path context with
    | none => exact resolve_of_lookup?_none hfound
    | some v =>
      obtain rfl := h v hfound
      rw [resolve, hfound]

/-- A position that is written with a sign and a zero too many, and behind it a member whose name is empty.  A path to
what is null leads there, but does not resolve. -/
theorem lookup?_eq_navigation_of_list :
    let context : Json := .object [("a", .array [.object [("", .bool true), ("n", .null)]])]
    Countable context ∧ lookup? "a.+00." context = some (.bool true) ∧
      resolve "a.0.n" context = .error (.unresolvedPath "a.0.n") := by
  intro context
  have hcontext : Countable context := by
    refine countable_object fun m hm => ?_
    obtain rfl := List.mem_singleton.1 hm
    refine countable_array (by decide) fun v hv => ?_
    obtain rfl := List.mem_singleton.1 hv
    refine countable_object fun m hm => ?_
    rcases List.mem_pair.1 hm with rfl | rfl <;> rintro s items (_ | _ | _)
  obtain ⟨-, hfound, hresolved⟩ := lookup?_eq_navigation context
  refine ⟨hcontext, ?_, ?_⟩
  · refine ((hfound hcontext _).2 _).2 ⟨["a", "+00", ""], [.key "a", .index 0, .key ""], ?_, ?_, ?_, ?_, ?_⟩
    · simp
    · simp
    · decide +kernel
    · exact .cons rfl (.cons ⟨['+'], 1, .inr rfl, rfl⟩ (.cons rfl .nil))
    · exact .member rfl (.element rfl (.member rfl (.here _)))
  · refine (hresolved _).2 fun v hv => ?_
    have hnull := ((hfound hcontext .null).1 [.key "a", .index 0, .key "n"] (by simp) (by simp)
      (.member rfl (.element rfl (.member rfl (.here _)))))
    have hpath : joined ([Step.key "a", .index 0, .key "n"].map Step.text) = "a.0.n" := by decide +kernel
    rw [hpath, hv] at hnull
    exact Option.some.inj hnull

end Eligibility.Json.Path
