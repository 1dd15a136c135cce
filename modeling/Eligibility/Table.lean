/-!
# Tables keyed by text

A table is a list of entries.  `insert` replaces the entry of its key or puts the new one before the first greater
key, so a table built from the empty one holds its keys in ascending order of code points, each once.
`get?_insert_self` and `get?_insert_of_ne` hold for every list of entries.
-/

namespace Eligibility

abbrev Table (α : Type) := List (String × α)

namespace Table

variable {α β : Type}

/-- The value of the first entry with this key. -/
def get? (key : String) : Table α → Option α
  | [] => none
  | (k, v) :: rest => if k = key then some v else get? key rest

/-- Replaces the entry of `key`, or adds one before the first greater key. -/
def insert (key : String) (value : α) : Table α → Table α
  | [] => [(key, value)]
  | (k, v) :: rest =>
    if k = key then (key, value) :: rest
    else if key < k then (key, value) :: (k, v) :: rest
    else (k, v) :: insert key value rest

/-- The table of a list of entries; of two with one key the later stays. -/
def ofEntries (entries : List (String × α)) : Table α :=
  entries.foldl (fun t e => insert e.1 e.2 t) []

def keys (t : Table α) : List String := t.map Prod.fst

def values (t : Table α) : List α := t.map Prod.snd

def contains (key : String) (t : Table α) : Bool := (get? key t).isSome

def mapValues (f : String → α → β) (t : Table α) : Table β := t.map fun e => (e.1, f e.1 e.2)

/-- **Keys ascend strictly**, so that no key occurs twice. -/
def Sorted (t : Table α) : Prop := (keys t).Pairwise (· < ·)

@[simp] theorem get?_nil (key : String) : get? key ([] : Table α) = none := rfl

theorem get?_cons (key k : String) (v : α) (rest : Table α) :
    get? key ((k, v) :: rest) = if k = key then some v else get? key rest := rfl

@[simp] theorem get?_insert_self (key : String) (value : α) :
    ∀ t : Table α, get? key (insert key value t) = some value
  | [] => by simp [insert, get?]
  | (k, v) :: rest => by
    rw [insert]
    split
    · simp [get?]
    · rename_i hne
      split
      · simp [get?]
      · rw [get?_cons, if_neg hne, get?_insert_self key value rest]

theorem get?_insert_of_ne {key other : String} (h : other ≠ key) (value : α) :
    ∀ t : Table α, get? other (insert key value t) = get? other t
  | [] => by simp [insert, get?, h.symm]
  | (k, v) :: rest => by
    rw [insert]
    split
    · rename_i hk
      subst hk
      simp [get?_cons, h.symm]
    · split
      · rw [get?_cons, if_neg h.symm]
      · rw [get?_cons, get?_cons, get?_insert_of_ne h value rest]

theorem get?_insert (key other : String) (value : α) (t : Table α) :
    get? other (insert key value t) = if other = key then some value else get? other t := by
  split
  · rename_i h
    rw [h, get?_insert_self]
  · rename_i h
    rw [get?_insert_of_ne h]

theorem get?_mapValues (f : String → α → β) (key : String) : ∀ t : Table α,
    get? key (mapValues f t) = (get? key t).map (f key)
  | [] => rfl
  | (k, v) :: rest => by
    have ih := get?_mapValues f key rest
    simp only [mapValues, List.map_cons, get?_cons] at ih ⊢
    split
    · rename_i h
      rw [h]; rfl
    · exact ih

@[simp] theorem keys_mapValues (f : String → α → β) (t : Table α) : keys (mapValues f t) = keys t := by
  simp [keys, mapValues]

end Table
end Eligibility
