import LayeredConfig.Proofs.ByteOrder
import LayeredConfig.Proofs.TrackerRuns

/-!
# Looking up histories

A history is found under its own key. A bare key, which has no dot, falls back on qualified keys where
it has no history of its own: those that end in a dot and the bare key. There may be several. Of those
whose histories have a used entry the first in the order of bytes counts, and of all of them only if
there is no such history.
-/

namespace LayeredConfig

open Keyed (Sorted)

/-! ### The first entry with a property -/

namespace Keyed

variable {α : Type} {m : Keyed α} {P : String → α → Prop} {p : String × α → Bool}
  {k k' : String} {a a' : α}

/-- Of the entries with a property the one whose key is the first in the order of bytes. -/
structure FirstAt (m : Keyed α) (P : String → α → Prop) (k : String) (a : α) : Prop where
  found : get? k m = some a
  holds : P k a
  first : ∀ k' a', get? k' m = some a' → P k' a' → k' = k ∨ Text.bytes k < Text.bytes k'

private theorem FirstAt.unique (h : m.FirstAt P k a) (h' : m.FirstAt P k' a') :
    k = k' ∧ a = a' := by
  -- if the keys differed, each would come before the other
  have hk : k = k' := by
    rcases h'.first k a h.found h.holds with he | hlt'
    · exact he
    · rcases h.first k' a' h'.found h'.holds with he | hlt
      · exact he.symm
      · exact absurd hlt (List.lt_asymm hlt')
  subst hk
  exact ⟨rfl, Option.some.inj (h.found.symm.trans h'.found)⟩

/-- A search through a sorted map from its beginning comes to the first key. -/
theorem Sorted.firstAt_of_find? (hm : Sorted m) (hp : ∀ k a, p (k, a) = true ↔ P k a)
    (h : m.find? p = some (k, a)) : m.FirstAt P k a := by
  obtain ⟨hholds, before, after, rfl, hbefore⟩ := List.find?_eq_some_iff_append.mp h
  refine ⟨hm.mem_iff.mp (List.mem_append_right _ List.mem_cons_self), (hp k a).mp hholds, ?_⟩
  intro k' a' hget hP
  obtain ⟨-, hafter, -⟩ := List.pairwise_append.mp hm
  rcases List.mem_append.mp (mem_of_get? hget) with hb | hc
  · have hnot := hbefore (k', a') hb
    rw [(hp k' a').mpr hP] at hnot
    cases hnot
  · rcases List.mem_cons.mp hc with he | ha
    · exact Or.inl (congrArg Prod.fst he)
    · exact Or.inr (Text.bytes_lt_iff.mpr ((List.pairwise_cons.mp hafter).1 (k', a') ha))

/-- A search finds nothing if nothing has the property. -/
theorem Sorted.find?_eq_none_iff (hm : Sorted m) (hp : ∀ k a, p (k, a) = true ↔ P k a) :
    m.find? p = none ↔ ∀ k a, get? k m = some a → ¬ P k a := by
  rw [List.find?_eq_none]
  constructor
  · intro h k a hget hP
    exact h (k, a) (mem_of_get? hget) ((hp k a).mpr hP)
  · rintro h ⟨k, a⟩ hmem hholds
    exact h k a (hm.mem_iff.mp hmem) ((hp k a).mp hholds)

/-- What a search through a sorted map finds. -/
theorem Sorted.find?_eq_some_iff (hm : Sorted m) (hp : ∀ k a, p (k, a) = true ↔ P k a) :
    m.find? p = some (k, a) ↔ m.FirstAt P k a := by
  refine ⟨hm.firstAt_of_find? hp, fun h ↦ ?_⟩
  cases hf : m.find? p with
  | none => exact absurd h.holds ((hm.find?_eq_none_iff hp).mp hf k a h.found)
  | some e =>
    obtain ⟨hk, ha⟩ := h.unique (hm.firstAt_of_find? hp hf)
    rw [hk, ha]

end Keyed

/-! ### Bare and qualified keys -/

/-- A history with a used entry. -/
def History.IsUsed (h : History) : Prop := ∃ e ∈ h.entries, e.used = true

private theorem History.isSome_selected? (h : History) : h.selected?.isSome = true ↔ h.IsUsed :=
  List.find?_isSome

namespace Tracker

variable {t : Tracker} {bare key : String} {h : History} {found : Option History}

/-- A key that ends in a dot and a bare key. -/
def Qualifies (bare key : String) : Prop := ∃ qualifier, key = qualifier ++ "." ++ bare

/-- Its last characters are a dot and those of the bare key. -/
theorem qualifies_iff (bare key : String) :
    ('.' :: bare.toList).isSuffixOf key.toList = true ↔ Qualifies bare key := by
  rw [List.isSuffixOf_iff_suffix]
  constructor
  · rintro ⟨qualifier, hq⟩
    exact ⟨String.ofList qualifier, String.toList_inj.mp (by simp [← hq])⟩
  · rintro ⟨qualifier, rfl⟩
    exact ⟨qualifier.toList, by simp⟩

/-- What a bare key without a history of its own finds. -/
inductive FallsBack (t : Tracker) (bare : String) : Option History → Prop where
  /-- Of the used histories under qualified keys the first. -/
  | used {key : String} {h : History}
      (first : t.histories.FirstAt (fun k h ↦ Qualifies bare k ∧ h.IsUsed) key h) :
      FallsBack t bare (some h)
  /-- If there is none that is used, the first of all. -/
  | unused {key : String} {h : History}
      (none_used : ∀ k h, Keyed.get? k t.histories = some h → Qualifies bare k → ¬ h.IsUsed)
      (first : t.histories.FirstAt (fun k _ ↦ Qualifies bare k) key h) :
      FallsBack t bare (some h)
  /-- Nothing if no tracked key is qualified. -/
  | nothing (none_qualified : ∀ k h, Keyed.get? k t.histories = some h → ¬ Qualifies bare k) :
      FallsBack t bare none

/-- What a key finds. -/
inductive Finds (t : Tracker) (key : String) : Option History → Prop where
  /-- The history under the key itself. -/
  | own {h : History} (tracked : Keyed.get? key t.histories = some h) : Finds t key (some h)
  /-- Otherwise nothing under a key with a dot. -/
  | dotted (untracked : Keyed.get? key t.histories = none) (dot : '.' ∈ key.toList) :
      Finds t key none
  /-- A bare key falls back on qualified ones. -/
  | bare {found : Option History} (untracked : Keyed.get? key t.histories = none)
      (no_dot : '.' ∉ key.toList) (falls : t.FallsBack key found) : Finds t key found

/-! ### Searching the qualified keys -/

section

variable {p : History → Bool} {P : History → Prop}

/-- A search of the histories under qualified keys is one of all histories. -/
theorem find?_qualified (t : Tracker) (bare : String) (p : History → Bool) :
    (t.qualified bare).find? p =
      (t.histories.find? fun e ↦ ('.' :: bare.toList).isSuffixOf e.1.toList && p e.2).map
        Prod.snd := by
  rw [qualified, List.find?_map, List.find?_filter]
  simp only [Bool.decide_and, Bool.decide_eq_true, Function.comp]

private theorem asked_iff (hp : ∀ h, p h = true ↔ P h) (bare k : String) (h : History) :
    (('.' :: bare.toList).isSuffixOf k.toList && p h) = true ↔ Qualifies bare k ∧ P h := by
  rw [Bool.and_eq_true, qualifies_iff, hp]

/-- A search of the qualified histories finds the one under the first qualified key that has the
property. -/
theorem find?_qualified_eq_some_iff (ht : Sorted t.histories) (hp : ∀ h, p h = true ↔ P h) :
    (t.qualified bare).find? p = some h ↔
      ∃ key, t.histories.FirstAt (fun k h ↦ Qualifies bare k ∧ P h) key h := by
  rw [find?_qualified, Option.map_eq_some_iff]
  constructor
  · rintro ⟨⟨key, _⟩, hf, rfl⟩
    exact ⟨key, ht.firstAt_of_find? (asked_iff hp bare) hf⟩
  · rintro ⟨key, hf⟩
    exact ⟨(key, h), (ht.find?_eq_some_iff (asked_iff hp bare)).mpr hf, rfl⟩

/-- It finds nothing if none has the property. -/
theorem find?_qualified_eq_none_iff (ht : Sorted t.histories) (hp : ∀ h, p h = true ↔ P h) :
    (t.qualified bare).find? p = none ↔
      ∀ k h, Keyed.get? k t.histories = some h → Qualifies bare k → ¬ P h := by
  rw [find?_qualified, Option.map_eq_none_iff, ht.find?_eq_none_iff (asked_iff hp bare)]
  simp only [not_and]

/-- Taking the first of them is a search that asks for nothing more. -/
theorem head?_qualified (t : Tracker) (bare : String) :
    (t.qualified bare).head? = (t.qualified bare).find? fun _ ↦ true := by
  cases t.qualified bare <;> rfl

/-- It is the history under the first qualified key. -/
theorem head?_qualified_eq_some_iff (ht : Sorted t.histories) :
    (t.qualified bare).head? = some h ↔
      ∃ key, t.histories.FirstAt (fun k _ ↦ Qualifies bare k) key h := by
  rw [head?_qualified, find?_qualified_eq_some_iff ht fun _ ↦ iff_of_true rfl trivial]
  simp only [and_true]

/-- There is none if no tracked key is qualified. -/
theorem head?_qualified_eq_none_iff (ht : Sorted t.histories) :
    (t.qualified bare).head? = none ↔
      ∀ k h, Keyed.get? k t.histories = some h → ¬ Qualifies bare k := by
  rw [head?_qualified, find?_qualified_eq_none_iff ht fun _ ↦ iff_of_true rfl trivial]
  simp only [not_true_eq_false, imp_false]

end

/-- A bare key falls back on what a search for used histories finds, or else on the first of all. -/
theorem fallsBack_iff (ht : Sorted t.histories) :
    ((t.qualified bare).find? (fun h ↦ h.selected?.isSome) <|> (t.qualified bare).head?) = found ↔
      t.FallsBack bare found := by
  constructor
  · rintro rfl
    cases hu : (t.qualified bare).find? fun h ↦ h.selected?.isSome with
    | some h =>
      obtain ⟨key, first⟩ := (find?_qualified_eq_some_iff ht History.isSome_selected?).mp hu
      exact .used first
    | none =>
      have none_used := (find?_qualified_eq_none_iff ht History.isSome_selected?).mp hu
      cases hq : (t.qualified bare).head? with
      | some h =>
        obtain ⟨key, first⟩ := (head?_qualified_eq_some_iff ht).mp hq
        exact .unused none_used first
      | none => exact .nothing ((head?_qualified_eq_none_iff ht).mp hq)
  · intro hf
    cases hf with
    | used first =>
      rw [(find?_qualified_eq_some_iff ht History.isSome_selected?).mpr ⟨_, first⟩]
      rfl
    | unused none_used first =>
      rw [(find?_qualified_eq_none_iff ht History.isSome_selected?).mpr none_used,
        (head?_qualified_eq_some_iff ht).mpr ⟨_, first⟩]
      rfl
    | nothing none_qualified =>
      -- where no key is qualified there is no used history under one either
      rw [(find?_qualified_eq_none_iff ht History.isSome_selected?).mpr fun k h hk hq ↦
          absurd hq (none_qualified k h hk),
        (head?_qualified_eq_none_iff ht).mpr none_qualified]
      rfl

/-! ### What a key finds -/

/-- A key with a history of its own finds that. -/
theorem get?_of_tracked (hk : Keyed.get? key t.histories = some h) : t.get? key = some h := by
  rw [get?, hk]

/-- A key without one finds nothing if it has a dot, and else what the qualified keys have. -/
theorem get?_of_untracked (hk : Keyed.get? key t.histories = none) :
    t.get? key =
      if '.' ∈ key.toList then none
      else (t.qualified key).find? (fun h ↦ h.selected?.isSome) <|> (t.qualified key).head? := by
  rw [get?, hk]
  simp only [List.contains_iff_mem]

private theorem finds_get? (ht : Sorted t.histories) (key : String) : t.Finds key (t.get? key) := by
  cases hk : Keyed.get? key t.histories with
  | some h =>
    rw [get?_of_tracked hk]
    exact .own hk
  | none =>
    rw [get?_of_untracked hk]
    split
    · next hd => exact .dotted hk hd
    · next hd => exact .bare hk hd ((fallsBack_iff ht).mp rfl)

private theorem Finds.get?_eq (hf : t.Finds key found) (ht : Sorted t.histories) :
    t.get? key = found := by
  cases hf with
  | own tracked => exact get?_of_tracked tracked
  | dotted untracked dot => rw [get?_of_untracked untracked, if_pos dot]
  | bare untracked no_dot falls =>
    rw [get?_of_untracked untracked, if_neg no_dot]
    exact (fallsBack_iff ht).mpr falls

/-- In a tracker, whose histories are sorted whatever was done to it, a key finds its own history.
Without one it finds nothing if it has a dot, and falls back on qualified keys if it has none: on the
first in the order of bytes whose history has a used entry, or on the first of all if no history has
one. -/
theorem get?_lawful :
    (∀ actions : List Action, Sorted (after actions).histories) ∧
      ∀ t : Tracker, Sorted t.histories → ∀ (key : String) (found : Option History),
        t.get? key = found ↔ t.Finds key found := by
  refine ⟨fun actions ↦ (consistent_after actions).sorted, fun t ht key found ↦ ⟨?_, ?_⟩⟩
  · rintro rfl
    exact finds_get? ht key
  · intro hf
    exact hf.get?_eq ht

/-- The users and roles of connections, and a superuser, from one source. Two of the users and the
superuser are selected, and no role is. -/
def usersAndRoles : Tracker :=
  let note (key : String) : Action := .record key (.new key (.string "v") "base" .file)
  let select (key : String) : Action := .select key "base"
  after
    [note "connections.b.user", note "connections.a.user", note "connections.Z.user",
      note "connections.a.role", note "connections.Z.role", note "connections.Z.superuser",
      select "connections.b.user", select "connections.a.user", select "connections.Z.superuser"]

/-- Capitals come first in the order of bytes, but the first user is not used, and a superuser is not
one. No role is used, so the first is found. With a dot a key is not bare, whatever ends in it. -/
theorem get?_lawful_user :
    Sorted usersAndRoles.histories ∧
      (∃ h, usersAndRoles.Finds "user" (some h) ∧ h.key = "connections.a.user") ∧
      (∃ h, usersAndRoles.Finds "role" (some h) ∧ h.key = "connections.Z.role") ∧
      usersAndRoles.Finds "a.user" none := by
  obtain ⟨hsorted, hlookup⟩ := get?_lawful
  have hs : Sorted usersAndRoles.histories := hsorted _
  have hfinds : ∀ key k, (usersAndRoles.get? key).map History.key = some k →
      ∃ h, usersAndRoles.Finds key (some h) ∧ h.key = k := by
    intro key k hk
    obtain ⟨h, hget, hk⟩ := Option.map_eq_some_iff.mp hk
    exact ⟨h, (hlookup _ hs key _).mp hget, hk⟩
  have hnone : usersAndRoles.get? "a.user" = none :=
    Option.isNone_iff_eq_none.mp (by decide +kernel)
  exact ⟨hs, hfinds _ _ (by decide +kernel), hfinds _ _ (by decide +kernel),
    (hlookup _ hs _ _).mp hnone⟩

end Tracker

end LayeredConfig
