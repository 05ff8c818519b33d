import LayeredConfig.Settings.Placeholders
import Mathlib.Data.List.Basic

/-!
# Replacement of texts

A text that begins with a character that it has nowhere else does not overlap with itself, so the
places where it stands in another one are apart. Replacing it at all of them is then told from
replacing it at some: both give the same exactly if these are all of them, or nothing is replaced by
something else.
-/

namespace LayeredConfig.Placeholder

variable {old new s t : List Char} {k : Nat}

/-- Texts that begin with a character that they have nowhere else. -/
def Lone (s : List Char) : Prop := ∃ c tail, s = c :: tail ∧ c ∉ tail

/-- At how many places of a text another one stands. -/
def occurrences (old : List Char) : List Char → Nat
  | [] => 0
  | c :: rest => (if old.isPrefixOf (c :: rest) then 1 else 0) + occurrences old rest

/-- Whether the second text is the first one with `new` at `k` of the places where `old` stands. -/
inductive Replaced (old new : List Char) : Nat → List Char → List Char → Prop
  | nil : Replaced old new 0 [] []
  | keep {k : Nat} {s t : List Char} (c : Char) (h : Replaced old new k s t) :
    Replaced old new k (c :: s) (c :: t)
  | swap {k : Nat} {s t : List Char} (h : Replaced old new k s t) :
    Replaced old new (k + 1) (old ++ s) (new ++ t)

/-! ### Places -/

/-- Such texts are not empty. -/
theorem Lone.ne_nil (h : Lone old) : old ≠ [] := by
  obtain ⟨c, tail, rfl, -⟩ := h
  exact List.cons_ne_nil c tail

/-- Texts are gone through from place to place. -/
theorem place_induction (h : Lone old) {P : List Char → Prop} (nil : P [])
    (here : ∀ s, P s → P (old ++ s)) (there : ∀ c s, ¬ old <+: c :: s → P s → P (c :: s)) :
    ∀ s, P s
  | [] => nil
  | c :: s => by
    by_cases hp : old <+: c :: s
    -- A place is passed as a whole, so the recursion is on what is left of the text.
    · obtain ⟨rest, hrest⟩ := hp
      rw [← hrest]
      have hlen : rest.length ≤ s.length := by
        have hpos := List.length_pos_iff.mpr h.ne_nil
        have htotal := congrArg List.length hrest
        rw [List.length_append, List.length_cons] at htotal
        omega
      exact here rest (place_induction h nil here there rest)
    · exact there c s hp (place_induction h nil here there s)
termination_by s => s.length

/-- Where a text does not stand, none of its places is. -/
theorem occurrences_cons {c : Char} (h : ¬ old <+: c :: s) :
    occurrences old (c :: s) = occurrences old s := by
  rw [occurrences, if_neg fun hp ↦ h (List.isPrefixOf_iff_prefix.mp hp), Nat.zero_add]

/-- Nothing stands where its first character is not. -/
theorem occurrences_append {c : Char} {tail : List Char} (h : c ∉ s) (t : List Char) :
    occurrences (c :: tail) (s ++ t) = occurrences (c :: tail) t := by
  induction s with
  | nil => rfl
  | cons d s ih =>
    rw [List.mem_cons, not_or] at h
    rw [List.cons_append, occurrences_cons fun hp ↦ h.1 (List.cons_prefix_cons.mp hp).1, ih h.2]

/-- A place counts once. -/
theorem occurrences_self_append (h : Lone old) (s : List Char) :
    occurrences old (old ++ s) = occurrences old s + 1 := by
  obtain ⟨c, tail, rfl, hc⟩ := h
  have hp : (c :: tail).isPrefixOf (c :: (tail ++ s)) = true :=
    List.isPrefixOf_iff_prefix.mpr (List.prefix_append (c :: tail) s)
  rw [List.cons_append, occurrences, if_pos hp, occurrences_append hc, Nat.add_comm]

private theorem replaceFrom_append (old new s t : List Char) :
    replaceFrom old new s.length (s ++ t) = replaceAll old new t := by
  induction s with
  | nil => rfl
  | cons c s ih => exact ih

/-- At a place the new text comes. -/
theorem replaceAll_self_append (h : old ≠ []) (new s : List Char) :
    replaceAll old new (old ++ s) = new ++ replaceAll old new s := by
  obtain ⟨c, tail, rfl⟩ := List.exists_cons_of_ne_nil h
  have hp : (c :: tail).isPrefixOf (c :: (tail ++ s)) = true :=
    List.isPrefixOf_iff_prefix.mpr (List.prefix_append (c :: tail) s)
  rw [replaceAll, List.cons_append, replaceFrom, if_pos hp]
  congr 1
  exact replaceFrom_append _ _ tail s

/-- Elsewhere a character stays. -/
theorem replaceAll_cons {c : Char} (h : ¬ old <+: c :: s) (new : List Char) :
    replaceAll old new (c :: s) = c :: replaceAll old new s := by
  rw [replaceAll, replaceFrom, if_neg fun hp ↦ h (List.isPrefixOf_iff_prefix.mp hp)]
  rfl

/-! ### Some places and all -/

namespace Replaced

/-- Nothing need be replaced. -/
theorem refl (old new s : List Char) : Replaced old new 0 s s := by
  induction s with
  | nil => exact .nil
  | cons c s ih => exact .keep c ih

/-- What stands in front may be kept. -/
theorem append_left (h : Replaced old new k s t) (before : List Char) :
    Replaced old new k (before ++ s) (before ++ t) := by
  induction before with
  | nil => exact h
  | cons c before ih => exact .keep c ih

private theorem eq_of_same (h : Replaced old old k s t) : s = t := by
  induction h with
  | nil => rfl
  | keep c _ ih => rw [ih]
  | swap _ ih => rw [ih]

private theorem length (h : Replaced old new k s t) :
    t.length + k * old.length = s.length + k * new.length := by
  induction h with
  | nil => simp
  | keep c _ ih =>
    rw [List.length_cons, List.length_cons]
    omega
  | swap _ ih =>
    rw [List.length_append, List.length_append, Nat.succ_mul, Nat.succ_mul]
    omega

/-- Nothing is replaced in the empty text. -/
theorem of_nil (ho : old ≠ []) (h : Replaced old new k [] t) : k = 0 ∧ t = [] := by
  generalize hs : [] = s at h
  cases h with
  | nil => exact ⟨rfl, rfl⟩
  | keep c h => cases hs
  | swap h => exact absurd (List.append_eq_nil_iff.mp hs.symm).1 ho

/-- Where a text does not stand a character is kept. -/
theorem of_cons {c : Char} (hp : ¬ old <+: c :: s) (h : Replaced old new k (c :: s) t) :
    ∃ t', t = c :: t' ∧ Replaced old new k s t' := by
  generalize hs : c :: s = u at h
  cases h with
  | nil => cases hs
  | keep d h =>
    cases hs
    exact ⟨_, rfl, h⟩
  | swap h => exact absurd (hs ▸ List.prefix_append old _) hp

private theorem of_append {c : Char} {tail before : List Char} (hc : c ∉ before)
    (h : Replaced (c :: tail) new k (before ++ s) t) :
    ∃ t', t = before ++ t' ∧ Replaced (c :: tail) new k s t' := by
  induction before generalizing t with
  | nil => exact ⟨t, rfl, h⟩
  | cons d before ih =>
    rw [List.mem_cons, not_or] at hc
    obtain ⟨t', rfl, h'⟩ := of_cons (fun hp ↦ hc.1 (List.cons_prefix_cons.mp hp).1) h
    obtain ⟨t'', rfl, h''⟩ := ih hc.2 h'
    exact ⟨t'', rfl, h''⟩

/-- At a place the text is replaced or kept. -/
theorem of_self_append (hl : Lone old) (h : Replaced old new k (old ++ s) t) :
    (∃ k' t', k = k' + 1 ∧ t = new ++ t' ∧ Replaced old new k' s t') ∨
      ∃ t', t = old ++ t' ∧ Replaced old new k s t' := by
  generalize hs : old ++ s = u at h
  cases h with
  | nil => exact absurd (List.append_eq_nil_iff.mp hs).1 hl.ne_nil
  | keep d h =>
    obtain ⟨c, tail, rfl, hc⟩ := hl
    obtain ⟨rfl, rfl⟩ := List.cons.inj hs
    obtain ⟨t', rfl, h'⟩ := of_append hc h
    exact Or.inr ⟨t', rfl, h'⟩
  | swap h =>
    rw [List.append_cancel_left_eq] at hs
    subst hs
    exact Or.inl ⟨_, _, rfl, rfl, h⟩

/-- A text is replaced at no more places than there are. -/
theorem le_occurrences (hl : Lone old) (h : Replaced old new k s t) : k ≤ occurrences old s := by
  induction h with
  | nil => exact Nat.zero_le _
  | keep c _ ih => exact Nat.le_trans ih (Nat.le_add_left _ _)
  | swap _ ih =>
    rw [occurrences_self_append hl]
    exact Nat.succ_le_succ ih

/-- All of them may be replaced. -/
theorem all (hl : Lone old) (new s : List Char) :
    Replaced old new (occurrences old s) s (replaceAll old new s) := by
  induction s using place_induction hl with
  | nil => exact .nil
  | here s ih =>
    rw [occurrences_self_append hl, replaceAll_self_append hl.ne_nil]
    exact .swap ih
  | there c s hp ih =>
    rw [occurrences_cons hp, replaceAll_cons hp]
    exact .keep c ih

private theorem eq_replaceAll (hl : Lone old) (h : Replaced old new (occurrences old s) s t) :
    replaceAll old new s = t := by
  induction s using place_induction hl generalizing t with
  | nil => exact (h.of_nil hl.ne_nil).2.symm
  | here s ih =>
    rw [occurrences_self_append hl] at h
    rcases h.of_self_append hl with ⟨k', t', hk, rfl, h'⟩ | ⟨t', -, h'⟩
    · obtain rfl := Nat.succ.inj hk
      rw [replaceAll_self_append hl.ne_nil, ih h']
    · exact absurd (h'.le_occurrences hl) (Nat.not_succ_le_self _)
  | there c s hp ih =>
    rw [occurrences_cons hp] at h
    obtain ⟨t', rfl, h'⟩ := h.of_cons hp
    rw [replaceAll_cons hp, ih h']

private theorem length_eq (hl : Lone old) (h : Replaced old new k s t)
    (heq : new ++ replaceAll old new s = old ++ t) : new.length = old.length := by
  obtain ⟨j, hj⟩ := Nat.exists_eq_add_of_le (h.le_occurrences hl)
  have hall := (all hl new s).length
  have hsome := h.length
  have hlen := congrArg List.length heq
  rw [hj, Nat.add_mul, Nat.add_mul] at hall
  rw [List.length_append, List.length_append] at hlen
  have hmul : (j + 1) * new.length = (j + 1) * old.length := by
    rw [Nat.succ_mul, Nat.succ_mul]
    omega
  exact Nat.eq_of_mul_eq_mul_left (Nat.succ_pos j) hmul

/-- To replace a text at some places is to replace it everywhere exactly if it is at all of them, or
the new text is the old one. -/
theorem replaceAll_eq_iff (hl : Lone old) (h : Replaced old new k s t) :
    replaceAll old new s = t ↔ occurrences old s = k ∨ new = old := by
  constructor
  · intro heq
    induction s using place_induction hl generalizing k t with
    | nil => exact Or.inl (h.of_nil hl.ne_nil).1.symm
    | here s ih =>
      rw [replaceAll_self_append hl.ne_nil] at heq
      rw [occurrences_self_append hl]
      -- If the place is kept both results begin with texts of one length, so these are the same.
      rcases h.of_self_append hl with ⟨k', t', rfl, rfl, h'⟩ | ⟨t', rfl, h'⟩
      · exact (ih h' (List.append_cancel_left heq)).imp_left (congrArg Nat.succ)
      · exact Or.inr (List.append_inj_left heq (h'.length_eq hl heq))
    | there c s hp ih =>
      obtain ⟨t', rfl, h'⟩ := h.of_cons hp
      rw [replaceAll_cons hp] at heq
      rw [occurrences_cons hp]
      exact ih h' (List.cons.inj heq).2
  · rintro (rfl | rfl)
    · exact h.eq_replaceAll hl
    · rw [← h.eq_of_same, ← (all hl new s).eq_of_same]

end Replaced

end LayeredConfig.Placeholder
