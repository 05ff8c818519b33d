/-!
# Key-ordered maps

A `Keyed α` is an association list whose keys ascend by code point, which is also the order of their
UTF-8 bytes. Tables, connections, environments and histories are all such maps, so every listing of
one comes out in key order. Look-up laws hold of any list; `Sorted` is needed only where two maps
are compared as lists.
-/

namespace LayeredConfig

/-- Association list in ascending key order. -/
abbrev Keyed (α : Type) := List (String × α)

namespace Keyed

variable {α β : Type}

/-- The value under a key. -/
def get? (k : String) : Keyed α → Option α
  | [] => none
  | (k', a) :: rest => if k' = k then some a else get? k rest

/-- Whether a key is present. -/
def contains (k : String) (m : Keyed α) : Bool := (m.get? k).isSome

/-- Put a value under a key at its place in the order, replacing what was there. -/
def insert (k : String) (a : α) : Keyed α → Keyed α
  | [] => [(k, a)]
  | (k', a') :: rest =>
    if k < k' then (k, a) :: (k', a') :: rest
    else if k' = k then (k, a) :: rest
    else (k', a') :: insert k a rest

/-- Remove a key. -/
def erase (k : String) : Keyed α → Keyed α
  | [] => []
  | (k', a) :: rest => if k' = k then erase k rest else (k', a) :: erase k rest

/-- The map of a list of entries; of two entries with one key the later stays. -/
def ofList (entries : List (String × α)) : Keyed α :=
  entries.foldl (fun m e ↦ m.insert e.1 e.2) []

/-- The keys, ascending. -/
def keys (m : Keyed α) : List String := m.map Prod.fst

/-- Put all entries of `new` into `m`, replacing those with the same key. -/
def overlay (m new : Keyed α) : Keyed α := new.foldl (fun m e ↦ m.insert e.1 e.2) m

/-- Apply a function to every value. -/
def mapValues (f : String → α → β) (m : Keyed α) : Keyed β := m.map fun e ↦ (e.1, f e.1 e.2)

/-- The keys ascend, so each occurs once. -/
def Sorted (m : Keyed α) : Prop := m.Pairwise fun x y ↦ x.1 < y.1

@[simp] theorem get?_nil (k : String) : get? k ([] : Keyed α) = none := rfl

@[simp] theorem get?_cons (k k' : String) (a : α) (m : Keyed α) :
    get? k ((k', a) :: m) = if k' = k then some a else get? k m := rfl

theorem get?_insert (k k' : String) (a : α) (m : Keyed α) :
    get? k' (insert k a m) = if k = k' then some a else get? k' m := by
  induction m with
  | nil => rfl
  | cons e rest ih =>
    obtain ⟨k₁, a₁⟩ := e
    simp only [insert]
    split
    · simp
    · split
      · next h => subst h; by_cases h' : k₁ = k' <;> simp [h']
      · next h =>
        simp only [get?_cons, ih]
        by_cases h' : k₁ = k'
        · subst h'
          simp [Ne.symm h]
        · simp [h']

@[simp] theorem get?_insert_self (k : String) (a : α) (m : Keyed α) :
    get? k (insert k a m) = some a := by
  simp [get?_insert]

theorem get?_erase (k k' : String) (m : Keyed α) :
    get? k' (erase k m) = if k = k' then none else get? k' m := by
  induction m with
  | nil => simp [erase]
  | cons e rest ih =>
    obtain ⟨k₁, a₁⟩ := e
    simp only [erase]
    split
    · next h =>
      subst h
      rw [ih]
      by_cases h' : k₁ = k' <;> simp [h']
    · next h =>
      by_cases h' : k₁ = k'
      · subst h'
        simp [Ne.symm h]
      · simp [h', ih]

end Keyed

end LayeredConfig
