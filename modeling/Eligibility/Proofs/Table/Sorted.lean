import Eligibility.Table
import Mathlib.Data.List.Sort
/-!
# Sorted tables

`insert` keeps the keys of a table ascending (`sorted_insert`) and adds no key but its own (`mem_keys_insert`), so a
table built from entries holds each of their keys once (`nodup_keys_ofEntries`, `mem_keys_ofEntries`), and a sorted
table is built from its own (`ofEntries_of_sorted`).  Of two entries
for one key the later stays (`insert_insert_self`), and for two keys the order does not matter (`insert_comm`).
`tabulate` is the table of a function over keys; a sorted table is one (`eq_tabulate_getD`).
-/
namespace Eligibility
namespace Table

variable {α β : Type}

/-- The table of the values of a function at some keys. -/
def tabulate (keys : List String) (f : String → α) : Table α := keys.map fun k => (k, f k)

theorem keys_cons (k : String) (v : α) (rest : Table α) : keys ((k, v) :: rest) = k :: keys rest := rfl

theorem sorted_cons {k : String} {v : α} {rest : Table α} :
    Sorted ((k, v) :: rest) ↔ (∀ other ∈ keys rest, k < other) ∧ Sorted rest := by
  rw [Sorted, keys_cons, List.pairwise_cons, Sorted]

theorem mem_insert {key : String} {value : α} {e : String × α} : ∀ t : Table α,
    e ∈ insert key value t → e = (key, value) ∨ e ∈ t
  | [], h => by
    rw [insert, List.mem_singleton] at h
    exact .inl h
  | (k, v) :: rest, h => by
    rw [insert] at h
    split at h
    · rcases List.mem_cons.1 h with rfl | h
      · exact .inl rfl
      · exact .inr (List.mem_cons_of_mem _ h)
    · split at h
      · exact List.mem_cons.1 h
      · rcases List.mem_cons.1 h with rfl | h
        · exact .inr List.mem_cons_self
        · exact (mem_insert rest h).imp_right (List.mem_cons_of_mem _)

theorem mem_keys_insert (key other : String) (value : α) : ∀ t : Table α,
    other ∈ keys (insert key value t) ↔ other = key ∨ other ∈ keys t
  | [] => by rw [insert, keys_cons, List.mem_cons]
  | (k, v) :: rest => by
    rw [insert]
    split
    · rename_i hk
      rw [keys_cons, keys_cons, hk, List.mem_cons]
      exact ⟨.inr, fun h => h.elim .inl id⟩
    · split
      · rw [keys_cons, List.mem_cons]
      · rw [keys_cons, keys_cons, List.mem_cons, List.mem_cons, mem_keys_insert key other value rest]
        exact or_left_comm

/-- **The later of two entries for a key stays.** -/
theorem insert_insert_self (key : String) (value other : α) (t : Table α) :
    insert key value (insert key other t) = insert key value t := by
  induction t with
  | nil => simp [insert]
  | cons e rest ih => grind [insert]

/-- **Entries for different keys may be put in in either order**, into any list of entries. -/
theorem insert_comm {key other : String} (h : key ≠ other) (value value' : α) (t : Table α) :
    insert key value (insert other value' t) = insert other value' (insert key value t) := by
  induction t with
  | nil => grind [insert]
  | cons e rest ih => grind [insert]

/-- **`insert` keeps keys ascending.** -/
theorem sorted_insert (key : String) (value : α) : ∀ t : Table α, Sorted t → Sorted (insert key value t)
  | [], _ => List.pairwise_singleton _ _
  | (k, v) :: rest, h => by
    obtain ⟨hlt, hrest⟩ := sorted_cons.1 h
    rw [insert]
    split
    · rename_i hk
      rw [← hk]
      exact sorted_cons.2 ⟨hlt, hrest⟩
    · rename_i hne
      split
      · rename_i hbefore
        refine sorted_cons.2 ⟨?_, h⟩
        intro other hother
        rcases List.mem_cons.1 hother with rfl | hother
        · exact hbefore
        · exact String.lt_trans hbefore (hlt other hother)
      · rename_i hnot
        refine sorted_cons.2 ⟨?_, sorted_insert key value rest hrest⟩
        intro other hother
        rcases (mem_keys_insert key other value rest).1 hother with rfl | hother
        · exact ((Std.lt_trichotomy k other).resolve_right fun h => h.elim hne hnot)
        · exact hlt other hother

theorem sorted_foldl_insert : ∀ (entries : List (String × α)) (t : Table α), Sorted t →
    Sorted (entries.foldl (fun t e => insert e.1 e.2 t) t)
  | [], _, h => h
  | e :: rest, t, h => sorted_foldl_insert rest (insert e.1 e.2 t) (sorted_insert e.1 e.2 t h)

theorem mem_keys_foldl_insert (key : String) : ∀ (entries : List (String × α)) (t : Table α),
    key ∈ keys (entries.foldl (fun t e => insert e.1 e.2 t) t) ↔ key ∈ entries.map Prod.fst ∨ key ∈ keys t
  | [], t => by simp
  | e :: rest, t => by
    rw [List.foldl_cons, mem_keys_foldl_insert key rest, mem_keys_insert, List.map_cons, List.mem_cons, or_left_comm,
      or_assoc]

theorem mem_of_mem_foldl_insert {x : String × α} : ∀ (entries : List (String × α)) (t : Table α),
    x ∈ entries.foldl (fun t e => insert e.1 e.2 t) t → x ∈ entries ∨ x ∈ t
  | [], _, h => .inr h
  | e :: rest, t, h => by
    rcases mem_of_mem_foldl_insert rest (insert e.1 e.2 t) h with h | h
    · exact .inl (List.mem_cons_of_mem _ h)
    · rcases mem_insert t h with rfl | h
      · exact .inl List.mem_cons_self
      · exact .inr h

theorem insert_of_forall_lt {key : String} {value : α} : ∀ {t : Table α}, (∀ k ∈ keys t, k < key) →
    insert key value t = t ++ [(key, value)]
  | [], _ => rfl
  | (k, v) :: rest, h => by
    have hk : k < key := h k List.mem_cons_self
    rw [insert, if_neg (String.ne_of_lt hk), if_neg (String.lt_asymm hk),
      insert_of_forall_lt fun other hother => h other (List.mem_cons_of_mem _ hother)]
    rfl

theorem foldl_insert_of_sorted : ∀ (t before : Table α), Sorted (before ++ t) →
    t.foldl (fun t e => insert e.1 e.2 t) before = before ++ t
  | [], before, _ => (List.append_nil before).symm
  | (k, v) :: rest, before, h => by
    have hbefore : ∀ other ∈ keys before, other < k := by
      intro other hother
      rw [Sorted, keys, List.map_append, List.pairwise_append] at h
      exact h.2.2 other hother k List.mem_cons_self
    have hmoved : before ++ (k, v) :: rest = before ++ [(k, v)] ++ rest := by rw [List.append_assoc]; rfl
    rw [hmoved] at h ⊢
    rw [List.foldl_cons, insert_of_forall_lt hbefore, foldl_insert_of_sorted rest _ h]

/-- **The entries of a sorted table make that table.** -/
theorem ofEntries_of_sorted {t : Table α} (h : Sorted t) : ofEntries t = t := foldl_insert_of_sorted t [] h

/-- **A table built from entries holds each key once.** -/
theorem nodup_keys_ofEntries (entries : List (String × α)) : (keys (ofEntries entries)).Nodup := by
  have hsorted : Sorted (ofEntries entries) := sorted_foldl_insert entries [] List.Pairwise.nil
  exact hsorted.imp fun h => String.ne_of_lt h

theorem keys_eq_of_mem_iff {t : Table α} {u : Table β} (ht : Sorted t) (hu : Sorted u)
    (h : ∀ k, k ∈ keys t ↔ k ∈ keys u) : keys t = keys u :=
  List.Pairwise.eq_of_mem_iff ht hu h

theorem mem_keys_ofEntries (key : String) (entries : List (String × α)) :
    key ∈ keys (ofEntries entries) ↔ key ∈ entries.map Prod.fst := by
  rw [ofEntries, mem_keys_foldl_insert]
  exact or_iff_left List.not_mem_nil

theorem mem_of_mem_ofEntries {entries : List (String × α)} {x : String × α} (h : x ∈ ofEntries entries) :
    x ∈ entries :=
  (mem_of_mem_foldl_insert entries [] h).resolve_right List.not_mem_nil

theorem mem_of_get? {key : String} {v : α} : ∀ {t : Table α}, t.get? key = some v → (key, v) ∈ t
  | (k, w) :: rest, h => by
    rw [get?_cons] at h
    split at h
    · rename_i hk
      cases h
      rw [hk]
      exact List.mem_cons_self
    · exact List.mem_cons_of_mem _ (mem_of_get? h)

/-- A table with one value throughout. -/
theorem eq_tabulate_of_forall {t : Table α} {v : α} (h : ∀ e ∈ t, e.2 = v) : t = tabulate (keys t) fun _ => v := by
  rw [tabulate, keys, List.map_map]
  conv => lhs; rw [← List.map_id t]
  apply List.map_congr_left
  intro e he
  exact Prod.ext rfl (h e he)

theorem get?_tabulate (f : String → α) (key : String) : ∀ ks : List String,
    get? key (tabulate ks f) = if key ∈ ks then some (f key) else none
  | [] => rfl
  | k :: rest => by
    have ih := get?_tabulate f key rest
    rw [tabulate] at ih ⊢
    rw [List.map_cons, get?_cons, ih]
    by_cases hk : k = key
    · rw [if_pos hk, if_pos (by rw [hk]; exact List.mem_cons_self), hk]
    · rw [if_neg hk]
      simp only [List.mem_cons, Ne.symm hk, false_or]

theorem mapValues_tabulate (g : String → α → β) (ks : List String) (f : String → α) :
    mapValues g (tabulate ks f) = tabulate ks fun k => g k (f k) := by
  rw [mapValues, tabulate, tabulate, List.map_map]
  rfl

theorem tabulate_congr {ks : List String} {f g : String → α} (h : ∀ k ∈ ks, f k = g k) :
    tabulate ks f = tabulate ks g := by
  apply List.map_congr_left
  intro k hk
  rw [h k hk]

/-- A table that holds each key once is that of its values. -/
theorem eq_tabulate_getD (otherwise : α) : ∀ {t : Table α}, (keys t).Nodup →
    t = tabulate (keys t) fun k => (get? k t).getD otherwise
  | [], _ => rfl
  | (k, v) :: rest, h => by
    obtain ⟨hk, hrest⟩ := List.nodup_cons.1 h
    rw [keys_cons, tabulate, List.map_cons, get?_cons, if_pos rfl, Option.getD_some]
    congr 1
    conv => lhs; rw [eq_tabulate_getD otherwise hrest]
    apply tabulate_congr
    intro other hother
    have hne : k ≠ other := by
      rintro rfl
      exact hk hother
    rw [get?_cons, if_neg hne]

theorem keys_tabulate (ks : List String) (f : String → α) : keys (tabulate ks f) = ks := by
  rw [keys, tabulate, List.map_map]
  exact List.map_id ks

theorem values_tabulate (ks : List String) (f : String → α) : values (tabulate ks f) = ks.map f := by
  rw [values, tabulate, List.map_map]
  rfl

end Table
end Eligibility
