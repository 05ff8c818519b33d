import LayeredConfig.Keyed
import Mathlib.Data.String.Basic

/-!
# Laws of key-ordered maps

Every operation on a map is known by what it does to look-ups, and a map with ascending keys is known
by its look-ups. Putting the entries of one map into another, whatever becomes of a value that was
there, is one fold: `merge`.
-/

namespace LayeredConfig.Keyed

variable {α β : Type}

/-! ### Entries and look-ups -/

/-- What a look-up finds is an entry. -/
theorem mem_of_get? {k : String} {a : α} {m : Keyed α} (h : get? k m = some a) : (k, a) ∈ m := by
  induction m with
  | nil => simp at h
  | cons e rest ih =>
    obtain ⟨k', a'⟩ := e
    rw [get?_cons] at h
    split at h
    · next hk =>
      subst hk
      rw [Option.some.inj h]
      exact List.mem_cons_self
    · exact List.mem_cons_of_mem _ (ih h)

/-- A key that no entry has is not found. -/
theorem get?_eq_none {k : String} {m : Keyed α} (h : ∀ e ∈ m, e.1 ≠ k) : get? k m = none := by
  induction m with
  | nil => rfl
  | cons e rest ih =>
    obtain ⟨k', a'⟩ := e
    have hk : k' ≠ k := h (k', a') List.mem_cons_self
    rw [get?_cons, if_neg hk]
    exact ih fun e he ↦ h e (List.mem_cons_of_mem _ he)

/-- A key that is not present is not found. -/
theorem contains_eq_false_iff {k : String} {m : Keyed α} :
    contains k m = false ↔ get? k m = none := by
  rw [contains, Option.isSome_eq_false_iff, Option.isNone_iff_eq_none]

/-- Every entry's key is found. -/
theorem isSome_get?_of_mem {e : String × α} {m : Keyed α} (h : e ∈ m) :
    (get? e.1 m).isSome = true := by
  induction m with
  | nil => simp at h
  | cons e' rest ih =>
    obtain ⟨k', a'⟩ := e'
    rw [get?_cons]
    split
    · rfl
    · next hk =>
      rcases List.mem_cons.mp h with he | he
      · exact absurd (congrArg Prod.fst he).symm hk
      · exact ih he

/-- A key is present where an entry has it. -/
theorem contains_iff {k : String} {m : Keyed α} : contains k m = true ↔ ∃ a, (k, a) ∈ m := by
  constructor
  · intro h
    obtain ⟨a, ha⟩ := Option.isSome_iff_exists.mp h
    exact ⟨a, mem_of_get? ha⟩
  · rintro ⟨a, ha⟩
    exact isSome_get?_of_mem ha

/-- A map without entries is one in which nothing is found. -/
theorem eq_nil_iff {m : Keyed α} : m = [] ↔ ∀ k, get? k m = none := by
  constructor
  · rintro rfl k
    rfl
  · intro h
    cases m with
    | nil => rfl
    | cons e rest =>
      have he := h e.1
      simp [get?] at he

/-- A function on values commutes with look-up. -/
theorem get?_map (k : String) (f : String → α → β) (m : Keyed α) :
    get? k (m.map fun e ↦ (e.1, f e.1 e.2)) = (get? k m).map (f k) := by
  induction m with
  | nil => rfl
  | cons e rest ih =>
    obtain ⟨k', a⟩ := e
    rw [List.map_cons, get?_cons, get?_cons, ih]
    split
    · next h => rw [h, Option.map_some]
    · rfl

/-- A function on values keeps the keys. -/
theorem contains_map (k : String) (f : String → α → β) (m : Keyed α) :
    contains k (m.map fun e ↦ (e.1, f e.1 e.2)) = contains k m := by
  rw [contains, get?_map, Option.isSome_map, contains]

/-- Insertion adds its key. -/
theorem contains_insert (k k' : String) (a : α) (m : Keyed α) :
    contains k' (insert k a m) = (k == k' || contains k' m) := by
  by_cases hk : k = k' <;> simp [contains, get?_insert, hk]

/-- A function on values commutes with insertion. -/
theorem mapValues_insert (f : String → α → β) (k : String) (a : α) (m : Keyed α) :
    mapValues f (insert k a m) = insert k (f k a) (mapValues f m) := by
  induction m with
  | nil => rfl
  | cons e rest ih =>
    simp only [insert, mapValues, List.map_cons] at ih ⊢
    split
    · rfl
    · split
      · rfl
      · rw [← ih]
        rfl

/-- So it does with an overlay. -/
theorem mapValues_overlay (f : String → α → β) (m new : Keyed α) :
    mapValues f (overlay m new) = overlay (mapValues f m) (mapValues f new) := by
  induction new generalizing m with
  | nil => rfl
  | cons e rest ih =>
    rw [overlay, List.foldl_cons, ← overlay, ih, mapValues_insert]
    rfl

/-! ### Ascending keys -/

instance decidableSorted (m : Keyed α) : Decidable (Sorted m) :=
  inferInstanceAs (Decidable (m.Pairwise fun x y ↦ x.1 < y.1))

/-- The empty map is sorted. -/
theorem sorted_nil : Sorted ([] : Keyed α) := List.Pairwise.nil

/-- Without its first entry a sorted map is sorted. -/
theorem Sorted.tail {e : String × α} {m : Keyed α} (h : Sorted (e :: m)) : Sorted m :=
  (List.pairwise_cons.mp h).2

/-- The first key of a sorted map stands nowhere else in it. -/
theorem Sorted.get?_tail {k : String} {a : α} {m : Keyed α} (h : Sorted ((k, a) :: m)) :
    get? k m = none := by
  apply get?_eq_none
  intro e he
  exact (String.ne_of_lt ((List.pairwise_cons.mp h).1 e he)).symm

/-- In a sorted map entries are what look-ups find. -/
theorem Sorted.mem_iff {k : String} {a : α} {m : Keyed α} (h : Sorted m) :
    (k, a) ∈ m ↔ get? k m = some a := by
  refine ⟨?_, mem_of_get?⟩
  intro hm
  induction m with
  | nil => simp at hm
  | cons e rest ih =>
    obtain ⟨k', a'⟩ := e
    rcases List.mem_cons.mp hm with he | hr
    · obtain ⟨rfl, rfl⟩ := Prod.mk.inj he
      simp
    · have hk : k' < k := (List.pairwise_cons.mp h).1 (k, a) hr
      rw [get?_cons, if_neg (String.ne_of_lt hk)]
      exact ih h.tail hr

/-- A selection of entries of a sorted map is sorted. -/
theorem Sorted.filter {m : Keyed α} (h : Sorted m) (p : String × α → Bool) :
    Sorted (m.filter p) :=
  List.Pairwise.filter p h

/-- A function on values keeps the keys in order. -/
theorem Sorted.map {m : Keyed α} (h : Sorted m) (f : String → α → β) :
    Sorted (m.map fun e ↦ (e.1, f e.1 e.2) : Keyed β) := by
  unfold Sorted
  rw [List.pairwise_map]
  exact h

/-- Look-up in a selection of entries. -/
theorem Sorted.get?_filter {m : Keyed α} (h : Sorted m) (p : String × α → Bool) (k : String) :
    get? k (m.filter p) = (get? k m).filter fun a ↦ p (k, a) := by
  induction m with
  | nil => rfl
  | cons e rest ih =>
    obtain ⟨k', a⟩ := e
    have ih := ih h.tail
    by_cases hk : k' = k
    · subst hk
      rw [get?_cons, if_pos rfl, Option.filter_some]
      cases hp : p (k', a) with
      | true => rw [List.filter_cons_of_pos hp, get?_cons, if_pos rfl, if_pos rfl]
      | false =>
        rw [List.filter_cons_of_neg (by rw [hp]; exact Bool.false_ne_true), ih, h.get?_tail]
        rfl
    · rw [get?_cons, if_neg hk, ← ih]
      cases hp : p (k', a) with
      | true => rw [List.filter_cons_of_pos hp, get?_cons, if_neg hk]
      | false => rw [List.filter_cons_of_neg (by rw [hp]; exact Bool.false_ne_true)]

private theorem lt_of_not_lt {k k' : String} (h : ¬ k < k') (hne : k' ≠ k) : k' < k := by
  rcases lt_trichotomy k' k with h' | h' | h'
  · exact h'
  · exact absurd h' hne
  · exact absurd h' h

private theorem mem_insert {k : String} {a : α} {e : String × α} {m : Keyed α}
    (h : e ∈ insert k a m) : e = (k, a) ∨ e ∈ m := by
  induction m with
  | nil => exact Or.inl (List.mem_singleton.mp h)
  | cons e' rest ih =>
    obtain ⟨k', a'⟩ := e'
    rw [insert] at h
    split at h
    · exact List.mem_cons.mp h
    · split at h
      · exact (List.mem_cons.mp h).imp id (List.mem_cons_of_mem _)
      · rcases List.mem_cons.mp h with he | he
        · exact Or.inr (he ▸ List.mem_cons_self)
        · exact (ih he).imp id (List.mem_cons_of_mem _)

/-- Insertion keeps a map sorted. -/
theorem Sorted.insert {m : Keyed α} (h : Sorted m) (k : String) (a : α) :
    Sorted (insert k a m) := by
  induction m with
  | nil => exact List.pairwise_singleton _ _
  | cons e rest ih =>
    obtain ⟨k', a'⟩ := e
    obtain ⟨hlt, hrest⟩ := List.pairwise_cons.mp h
    rw [Keyed.insert]
    split
    · next hk =>
      refine List.pairwise_cons.mpr ⟨?_, h⟩
      intro e he
      rcases List.mem_cons.mp he with rfl | he
      · exact hk
      · exact String.lt_trans hk (hlt e he)
    · next hk =>
      split
      · next heq =>
        subst heq
        exact List.pairwise_cons.mpr ⟨hlt, hrest⟩
      · next hne =>
        refine List.pairwise_cons.mpr ⟨?_, ih hrest⟩
        intro e he
        rcases mem_insert he with rfl | he
        · exact lt_of_not_lt hk hne
        · exact hlt e he

/-- Removal is a selection of entries. -/
theorem erase_eq_filter (k : String) (m : Keyed α) :
    erase k m = m.filter fun e ↦ decide (e.1 ≠ k) := by
  induction m with
  | nil => rfl
  | cons e rest ih =>
    obtain ⟨k', a⟩ := e
    rw [erase, ih]
    split
    · next h => rw [List.filter_cons_of_neg (by simp [h])]
    · next h => rw [List.filter_cons_of_pos (by simp [h])]

/-- Removal keeps a map sorted. -/
theorem Sorted.erase {m : Keyed α} (h : Sorted m) (k : String) : Sorted (erase k m) := by
  rw [erase_eq_filter]
  exact h.filter _

/-- Sorted maps are equal when their look-ups are. -/
theorem Sorted.ext {m m' : Keyed α} (h : Sorted m) (h' : Sorted m')
    (he : ∀ k, get? k m = get? k m') : m = m' := by
  have hmem : ∀ e : String × α, e ∈ m ↔ e ∈ m' := by
    rintro ⟨k, a⟩
    rw [h.mem_iff, h'.mem_iff, he]
  have nodup : ∀ {l : Keyed α}, Sorted l → l.Nodup := fun hl ↦
    hl.imp fun hlt heq ↦ String.ne_of_lt hlt (congrArg Prod.fst heq)
  exact List.Perm.eq_of_pairwise
    (fun a b _ _ hab hba ↦ absurd hba (String.lt_asymm hab)) h h'
    ((List.perm_ext_iff_of_nodup (nodup h) (nodup h')).mpr hmem)

/-! ### Merging -/

/-- Put every entry of `new` into `m`; `f` makes its value from the one that stood there. -/
def merge (f : Option α → β → α) (m : Keyed α) (new : Keyed β) : Keyed α :=
  new.foldl (fun m e ↦ m.insert e.1 (f (m.get? e.1) e.2)) m

/-- A merge changes exactly the keys of the new map. -/
theorem get?_merge (f : Option α → β → α) (m : Keyed α) {new : Keyed β} (h : Sorted new)
    (k : String) :
    get? k (merge f m new) =
      match get? k new with
      | some b => some (f (get? k m) b)
      | none => get? k m := by
  induction new generalizing m with
  | nil => rfl
  | cons e rest ih =>
    obtain ⟨k', b⟩ := e
    have hfold : merge f m ((k', b) :: rest) = merge f (m.insert k' (f (m.get? k') b)) rest := rfl
    rw [hfold, ih _ h.tail, get?_cons, get?_insert]
    by_cases hk : k' = k
    · subst hk
      rw [h.get?_tail]
      simp
    · simp only [if_neg hk]

/-- A merge has the keys of both maps. -/
theorem contains_merge (f : Option α → β → α) (m : Keyed α) (new : Keyed β) (k : String) :
    contains k (merge f m new) = (contains k m || contains k new) := by
  induction new generalizing m with
  | nil => exact (Bool.or_false _).symm
  | cons e rest ih =>
    obtain ⟨k', b⟩ := e
    have hcons : contains k ((k', b) :: rest) = (k' == k || contains k rest) := by
      by_cases hk : k' = k <;> simp [contains, hk]
    have hfold : merge f m ((k', b) :: rest) = merge f (m.insert k' (f (m.get? k') b)) rest := rfl
    rw [hfold, ih, contains_insert, hcons, Bool.or_comm (k' == k), Bool.or_assoc]

/-- A merge into a sorted map is sorted. -/
theorem Sorted.merge {m : Keyed α} (h : Sorted m) (f : Option α → β → α) (new : Keyed β) :
    Sorted (merge f m new) := by
  induction new generalizing m with
  | nil => exact h
  | cons e rest ih => exact ih (h.insert _ _)

/-- Replacing values is a merge. -/
theorem overlay_eq_merge (m new : Keyed α) : overlay m new = merge (fun _ a ↦ a) m new := rfl

/-- After an overlay the new map is asked first. -/
theorem get?_overlay (m : Keyed α) {new : Keyed α} (h : Sorted new) (k : String) :
    get? k (overlay m new) = (get? k new).or (get? k m) := by
  rw [overlay_eq_merge, get?_merge _ _ h]
  cases get? k new <;> rfl

/-- An overlay has the keys of both maps. -/
theorem contains_overlay (m new : Keyed α) (k : String) :
    contains k (overlay m new) = (contains k m || contains k new) := by
  rw [overlay_eq_merge, contains_merge]

/-- An overlay on a sorted map is sorted. -/
theorem Sorted.overlay {m : Keyed α} (h : Sorted m) (new : Keyed α) : Sorted (overlay m new) := by
  rw [overlay_eq_merge]
  exact h.merge _ new

/-- The map of a list of entries is sorted. -/
theorem sorted_ofList (entries : List (String × α)) : Sorted (ofList entries) :=
  sorted_nil.overlay entries

/-- After an overlay there are entries of the two maps only. -/
theorem mem_of_mem_overlay {e : String × α} {m new : Keyed α} (h : e ∈ overlay m new) :
    e ∈ m ∨ e ∈ new := by
  induction new generalizing m with
  | nil => exact Or.inl h
  | cons e' rest ih =>
    rcases ih h with hm | hr
    · rcases mem_insert hm with rfl | hm
      · exact Or.inr List.mem_cons_self
      · exact Or.inl hm
    · exact Or.inr (List.mem_cons_of_mem _ hr)

/-- The map of a list holds no other entries. -/
theorem mem_of_mem_ofList {e : String × α} {entries : List (String × α)}
    (h : e ∈ ofList entries) : e ∈ entries :=
  (mem_of_mem_overlay h).resolve_left List.not_mem_nil

end LayeredConfig.Keyed
