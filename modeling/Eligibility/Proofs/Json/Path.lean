import Eligibility.Json.Path
/-!
# Paths with a point between them

A point between two texts puts their steps after one another (`steps_append`), so a path is looked up in what the
path before the point leads to (`lookup?_append`).  A text without a point is one step (`steps_of_not_mem`), and no
step holds a point (`not_mem_of_mem_steps`).
-/
namespace Eligibility.Json.Path

theorem split_eq_splitOn : ∀ text : List Char, split text = text.splitOn '.'
  | [] => rfl
  | c :: rest => by
    rw [split, List.splitOn_cons_eq_if_modifyHead, ← split_eq_splitOn rest]
    by_cases hc : c = '.'
    · simp [hc]
    · cases hrest : split rest with
      | nil => exact absurd hrest (split_ne_nil rest)
      | cons first others => simp [hc]

theorem split_append (xs ys : List Char) : split (xs ++ '.' :: ys) = split xs ++ split ys := by
  simp only [split_eq_splitOn, List.splitOn_append_cons_self]

theorem split_of_not_mem {text : List Char} (h : '.' ∉ text) : split text = [text] := by
  rw [split_eq_splitOn, List.splitOn_eq_singleton h]

theorem steps_ne_nil (path : String) : steps path ≠ [] :=
  fun h => split_ne_nil _ (List.map_eq_nil_iff.1 h)

theorem of_split_eq_singleton {text piece : List Char} (h : split text = [piece]) : text = piece :=
  calc text = ['.'].intercalate (text.splitOn '.') := (List.intercalate_splitOn '.').symm
    _ = piece := by rw [← split_eq_splitOn, h, List.intercalate_singleton]

theorem not_mem_of_mem_split : ∀ {text piece : List Char}, piece ∈ split text → '.' ∉ piece
  | [], piece, h => by
    rw [split, List.mem_singleton] at h
    rw [h]
    exact List.not_mem_nil
  | c :: rest, piece, h => by
    have ih : ∀ p ∈ split rest, '.' ∉ p := fun _ => not_mem_of_mem_split
    rw [split] at h
    split at h
    · rcases List.mem_cons.1 h with rfl | h
      · exact List.not_mem_nil
      · exact ih piece h
    · rename_i hc
      cases hrest : split rest with
      | nil => exact absurd hrest (split_ne_nil rest)
      | cons first others =>
        rw [hrest] at h ih
        rcases List.mem_cons.1 h with rfl | h
        · simpa [Ne.symm hc] using ih first List.mem_cons_self
        · exact ih piece (List.mem_cons_of_mem _ h)

/-- **A point puts the steps of two paths after one another.** -/
theorem steps_append (p q : String) : steps (p ++ "." ++ q) = steps p ++ steps q := by
  have htext : (p ++ "." ++ q).toList = p.toList ++ '.' :: q.toList := by
    rw [String.toList_append, String.toList_append, List.append_assoc]
    rfl
  rw [steps, htext, split_append, List.map_append]
  rfl

theorem steps_of_not_mem {p : String} (h : '.' ∉ p.toList) : steps p = [p] := by
  rw [steps, split_of_not_mem h, List.map_singleton, String.ofList_toList]

theorem eq_of_steps_eq_singleton {p name : String} (h : steps p = [name]) : p = name := by
  obtain ⟨piece, hpiece, rfl⟩ := List.map_eq_singleton_iff.1 h
  rw [← of_split_eq_singleton hpiece, String.ofList_toList]

theorem not_mem_of_mem_steps {p name : String} (h : name ∈ steps p) : '.' ∉ name.toList := by
  obtain ⟨piece, hpiece, rfl⟩ := List.mem_map.1 h
  rw [String.toList_ofList]
  exact not_mem_of_mem_split hpiece

/-- **A point makes two steps or more.** -/
theorem exists_steps_of_mem {p : String} (h : '.' ∈ p.toList) :
    ∃ first second rest, steps p = first :: second :: rest := by
  match hsteps : steps p with
  | [] => exact absurd hsteps (steps_ne_nil p)
  | [name] =>
    have hname : '.' ∉ name.toList := not_mem_of_mem_steps (hsteps ▸ List.mem_singleton_self name)
    rw [← eq_of_steps_eq_singleton hsteps] at hname
    exact absurd h hname
  | first :: second :: rest => exact ⟨first, second, rest, rfl⟩

theorem lookup?_append (p q : String) (context : Json) :
    lookup? (p ++ "." ++ q) context = (lookup? p context).bind (lookup? q) := by
  rw [lookup?, steps_append, walk?_append]
  rfl

theorem resolve_of_lookup?_none {path : String} {context : Json} (h : lookup? path context = none) :
    resolve path context = .error (.unresolvedPath path) := by rw [resolve, h]

theorem resolve_of_lookup? {path : String} {context v : Json} (h : lookup? path context = some v)
    (hv : v.isNull = false) : resolve path context = .ok v := by
  rw [resolve, h]
  cases v with
  | null => cases hv
  | bool _ | number _ | string _ | array _ | object _ => rfl

end Eligibility.Json.Path
