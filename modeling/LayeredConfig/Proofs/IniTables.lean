import LayeredConfig.Ini.Sections
import LayeredConfig.Proofs.Nested
import LayeredConfig.Proofs.Scanning

/-!
# Tables of INI texts

The keys of a table that an INI text is read as ascend and are in lower case, and so are those of
the tables in it. Names of sections that are paths nest, so that no table stands under a path as its
key, as far as letters outside ASCII leave no doubt about what the path is.
-/

namespace LayeredConfig

/-! ### Lower case -/

namespace Text

private theorem toNat_ofNat {n : Nat} (h : n.isValidChar) : (Char.ofNat n).toNat = n := by
  rw [Char.ofNat, dif_pos h]
  rfl

private theorem lowercaseRuns_bounds : ∀ run ∈ lowercaseRuns,
    run = (0x212A, 0x212A, 1, -8383) ∨
      128 ≤ run.1 + run.2.2.2 ∧
        (run.2.1 + run.2.2.2 < 0xD800 ∨
          0xDFFF < run.1 + run.2.2.2 ∧ run.2.1 + run.2.2.2 < 0x110000) := by
  decide +kernel

/-- Characters behind the capitals of ASCII have none of its small letters. -/
theorem toLower_of_lt {c : Char} (h : 'Z'.toNat < c.toNat) : c.toLower = c :=
  dif_neg fun hupper ↦
    have hle : c.val.toNat ≤ 'Z'.val.toNat := UInt32.le_iff_toNat_le.mp hupper.2
    absurd h (Nat.not_lt.mpr hle)

/-- The small letter of a character of ASCII is the one that ASCII has for it; that of any other is
the small k or outside ASCII. -/
theorem lowerChar_cases (c : Char) :
    c.toNat < 128 ∧ lowerChar c = c.toLower ∨ lowerChar c = 'k' ∨ 128 ≤ (lowerChar c).toNat := by
  by_cases hc : c.toNat < 128
  · exact Or.inl ⟨hc, if_pos hc⟩
  right
  rw [lowerChar, if_neg hc]
  split
  · next first last step distance hrun =>
    have hpred := List.find?_some hrun
    simp only [Bool.and_eq_true, decide_eq_true_eq] at hpred
    rcases lowercaseRuns_bounds _ (List.mem_of_find?_eq_some hrun) with hkelvin | ⟨hlow, hvalid⟩
    · left
      cases hkelvin
      have hn : c.toNat = 0x212A := by omega
      rw [hn]
      rfl
    · right
      dsimp only at hlow hvalid
      have hn : (c.toNat + distance).toNat.isValidChar := by
        unfold Nat.isValidChar
        omega
      rw [toNat_ofNat hn]
      omega
  · exact Or.inr (Nat.not_lt.mp hc)

private theorem toLower_lowerChar (c : Char) : (lowerChar c).toLower = lowerChar c := by
  rcases lowerChar_cases c with ⟨hc, hl⟩ | hk | hn
  · rw [hl]
    exact Secret.ascii_forall (P := fun c ↦ c.toLower.toLower = c.toLower) (by decide) hc
  · rw [hk]
    rfl
  · exact toLower_of_lt (Nat.lt_of_lt_of_le (by decide) hn)

/-- A character becomes its small letter, or else something in which a character is outside ASCII.
-/
theorem lowerFrom_cons (before : List Char) (c : Char) (rest : List Char) :
    ∃ small, lowerFrom before (c :: rest) = small ++ lowerFrom (c :: before) rest ∧
      (small = [lowerChar c] ∨
        (∃ d ∈ small, 128 ≤ d.toNat) ∧ ∀ d ∈ small, d.toLower = d) := by
  rw [lowerFrom]
  refine ⟨_, rfl, ?_⟩
  split
  · exact Or.inr ⟨⟨Char.ofNat 0x307, by decide, by decide⟩,
      List.forall_mem_cons.mpr ⟨by decide, List.forall_mem_singleton.mpr (by decide)⟩⟩
  · split
    · split <;> exact Or.inr
        ⟨⟨_, List.mem_singleton_self _, by decide⟩, List.forall_mem_singleton.mpr (by decide)⟩
    · exact Or.inl rfl

private theorem toLower_of_mem_lowerFrom {before s : List Char} {d : Char}
    (h : d ∈ lowerFrom before s) : d.toLower = d := by
  induction s generalizing before with
  | nil => cases h
  | cons c rest ih =>
    obtain ⟨small, hsmall, hcases⟩ := lowerFrom_cons before c rest
    rw [hsmall, List.mem_append] at h
    rcases h with h | h
    · rcases hcases with rfl | ⟨-, hlow⟩
      · rw [List.mem_singleton.mp h]
        exact toLower_lowerChar c
      · exact hlow d h
    · exact ih h

/-- A text in lower case is its own in ASCII. -/
theorem lowerAscii_lower (s : String) : lowerAscii (lower s) = lower s := by
  rw [lowerAscii, lower, String.toList_ofList,
    List.map_congr_left fun _ h ↦ toLower_of_mem_lowerFrom h, List.map_id']

private theorem map_toLower_of_lowerFrom {before s cs : List Char} (h : lowerFrom before s = cs)
    (hcs : ∀ d ∈ cs, d.toNat < 128 ∧ d ≠ 'k') : s.map Char.toLower = cs := by
  induction s generalizing before cs with
  | nil => exact h
  | cons c rest ih =>
    obtain ⟨small, hsmall, hcases⟩ := lowerFrom_cons before c rest
    rw [hsmall] at h
    subst h
    rw [List.forall_mem_append] at hcs
    rcases hcases with rfl | ⟨⟨d, hd, hn⟩, -⟩
    · obtain ⟨hn, hk⟩ := hcs.1 (lowerChar c) (List.mem_singleton_self _)
      rcases lowerChar_cases c with ⟨-, hl⟩ | hk' | hn'
      · rw [List.map_cons, hl, ih rfl hcs.2]
        rfl
      · exact absurd hk' hk
      · exact absurd hn (Nat.not_lt.mpr hn')
    · exact absurd (hcs.1 d hd).1 (Nat.not_lt.mpr hn)

/-- Only a dot becomes a dot in lower case. -/
theorem toLower_eq_dot {c : Char} : c.toLower = '.' ↔ c = '.' := by
  by_cases hc : c.toNat < 128
  · exact Secret.ascii_forall (P := fun c ↦ c.toLower = '.' ↔ c = '.') (by decide) hc
  · rw [toLower_of_lt (Nat.lt_of_lt_of_le (by decide) (Nat.not_lt.mp hc))]

private theorem cut_map_toLower (s : List Char) :
    cut '.' (s.map Char.toLower) =
      ((cut '.' s).1.map Char.toLower, (cut '.' s).2.map (List.map Char.toLower)) := by
  induction s with
  | nil => rfl
  | cons c s ih =>
    rw [List.map_cons, cut, cut, ih]
    by_cases hc : c = '.'
    · simp [hc]
    · simp [hc, toLower_eq_dot]

end Text

/-! ### Names -/

namespace Ini

private theorem isIdentifier_toLower (c : Char) : isIdentifier c.toLower = isIdentifier c := by
  by_cases hc : c.toNat < 128
  · exact Secret.ascii_forall (P := fun c ↦ isIdentifier c.toLower = isIdentifier c) (by decide) hc
  · rw [Text.toLower_of_lt (Nat.lt_of_lt_of_le (by decide) (Nat.not_lt.mp hc))]

/-- Whether a name is a path of identifiers. -/
def IsPath (name : String) : Prop :=
  ∀ s ∈ (segments name).1 :: (segments name).2, s ≠ "" ∧ ∀ c ∈ s.toList, isIdentifier c = true

/-- A path is cut into segments in lower case, and any other name is one segment in lower case. -/
theorem pathOf_cases (name : String) :
    IsPath name ∧
        pathOf name = (Text.lower (segments name).1, (segments name).2.map Text.lower) ∨
      ¬ IsPath name ∧ pathOf name = (Text.lower name, []) := by
  have hiff : ((segments name).1 :: (segments name).2).all
      (fun s ↦ !s.isEmpty && s.toList.all isIdentifier) = true ↔ IsPath name := by
    simp [IsPath, List.all_eq_true]
  by_cases h : IsPath name
  · exact Or.inl ⟨h, if_pos (hiff.mpr h)⟩
  · exact Or.inr ⟨h, if_neg (h ∘ hiff.mp)⟩

/-- The segments of names are in lower case. -/
theorem lowerAscii_of_mem_pathOf {name s : String}
    (h : s ∈ (pathOf name).1 :: (pathOf name).2) : Text.lowerAscii s = s := by
  have hlower : ∃ s', s = Text.lower s' := by
    rcases pathOf_cases name with ⟨-, hp⟩ | ⟨-, hp⟩
    · rw [hp] at h
      rcases List.mem_cons.mp h with h | h
      · exact ⟨_, h⟩
      · obtain ⟨s', -, rfl⟩ := List.mem_map.mp h
        exact ⟨s', rfl⟩
    · rw [hp] at h
      exact ⟨name, List.mem_singleton.mp h⟩
  obtain ⟨s', rfl⟩ := hlower
  exact Text.lowerAscii_lower s'

private theorem isPath_of_map_toLower {name key : String}
    (h : name.toList.map Char.toLower = key.toList) (hkey : IsPath key) : IsPath name := by
  intro s hs
  have hpieces : (segments key).1 :: (segments key).2 =
      ((segments name).1 :: (segments name).2).map
        fun s ↦ String.ofList (s.toList.map Char.toLower) := by
    simp [segments, ← h, Text.cut_map_toLower, Function.comp_def]
  obtain ⟨hne, hall⟩ := hkey _ (hpieces ▸ List.mem_map_of_mem hs)
  rw [String.toList_ofList] at hall
  constructor
  · rintro rfl
    exact hne rfl
  · intro c hc
    rw [← isIdentifier_toLower]
    exact hall _ (List.mem_map_of_mem hc)

/-- No segment of a name is a path that goes through tables, if the path is of ASCII and has no k.
-/
theorem pathOf_ne_path {key : String} (hpath : IsPath key) (hdot : '.' ∈ key.toList)
    (hkey : ∀ d ∈ key.toList, d.toNat < 128 ∧ d ≠ 'k') (name : String) : (pathOf name).1 ≠ key := by
  have hlower : ∀ {s}, Text.lower s = key → s.toList.map Char.toLower = key.toList := fun h ↦
    Text.map_toLower_of_lowerFrom (by rw [← h, Text.lower, String.toList_ofList]) hkey
  intro h
  rcases pathOf_cases name with ⟨hp, he⟩ | ⟨hp, he⟩
  · rw [he] at h
    rw [← hlower h] at hdot
    obtain ⟨c, hc, hdot⟩ := List.mem_map.mp hdot
    have hident := (hp _ List.mem_cons_self).2 c hc
    rw [Text.toLower_eq_dot.mp hdot] at hident
    exact absurd hident (by decide)
  · rw [he] at h
    exact hp (isPath_of_map_toLower (hlower h) hpath)

/-! ### Tables -/

/-- All keys of a table are in lower case, those of tables inside apart. -/
def InLowerCase (t : Table) : Prop := ∀ e ∈ t, Text.lowerAscii e.1 = e.1

/-- What holds of the tables that texts are read as, and of parts of them. -/
structure Regular (t : Table) : Prop where
  ordered : (Value.table t).Ordered
  /-- Keys are the first segments of names. -/
  named : ∀ key v, Keyed.get? key t = some v → ∃ name, key = (pathOf name).1
  /-- The keys of the tables under them are in lower case. -/
  lower : ∀ key inner, Keyed.get? key t = some (.table inner) → InLowerCase inner

variable {t inner : Table} {v : Value}

private theorem inLowerCase_nil : InLowerCase [] := fun _ h ↦ absurd h List.not_mem_nil

/-- Entries in lower case may be written over others. -/
theorem InLowerCase.overlay (h : InLowerCase t) {new : Table} (hn : InLowerCase new) :
    InLowerCase (Keyed.overlay t new) := fun e he ↦
  (Keyed.mem_of_mem_overlay he).elim (h e) (hn e)

private theorem InLowerCase.insert (h : InLowerCase t) {key : String}
    (hk : Text.lowerAscii key = key) (v : Value) : InLowerCase (Keyed.insert key v t) :=
  have hnew : InLowerCase [(key, v)] := fun e he ↦ by rwa [List.mem_singleton.mp he]
  h.overlay hnew

private theorem InLowerCase.put (h : InLowerCase t) {first : String}
    (hf : Text.lowerAscii first = first)
    (rest : List String) (v : Value) : InLowerCase (t.put first rest v) := by
  cases rest with
  | nil => exact h.insert hf v
  | cons s rest =>
    rw [Table.put_cons]
    exact h.insert hf _

/-- The entries of a section are texts under keys in lower case. -/
theorem exists_of_mem_entriesOf {entries : Keyed String} {e : String × Value}
    (h : e ∈ entriesOf entries) : ∃ key text, e = (Text.lower key, .string text) := by
  obtain ⟨e', -, rfl⟩ := List.mem_map.mp (Keyed.mem_of_mem_ofList h)
  exact ⟨e'.1, e'.2, rfl⟩

private theorem inLowerCase_entriesOf (entries : Keyed String) :
    InLowerCase (entriesOf entries) := by
  intro e he
  obtain ⟨key, text, rfl⟩ := exists_of_mem_entriesOf he
  exact Text.lowerAscii_lower key

private theorem ordered_entriesOf (entries : Keyed String) :
    (Value.table (entriesOf entries)).Ordered := by
  apply Value.ordered_table (Keyed.sorted_ofList _)
  intro key v hv
  obtain ⟨key', text, he⟩ := exists_of_mem_entriesOf (Keyed.mem_of_get? hv)
  rw [(Prod.mk.inj he).2]
  exact trivial

private theorem ordered_overlay (h : (Value.table t).Ordered) {new : Table}
    (hn : (Value.table new).Ordered) : (Value.table (Keyed.overlay t new)).Ordered := by
  apply Value.ordered_table (h.sorted.overlay new)
  intro key v hv
  rcases Keyed.mem_of_mem_overlay (Keyed.mem_of_get? hv) with hm | hm
  · exact h.2.of_mem hm
  · exact hn.2.of_mem hm

/-- The key of every entry is the first segment of a name. -/
theorem Regular.exists_name (h : Regular t) {e : String × Value} (he : e ∈ t) :
    ∃ name, e.1 = (pathOf name).1 := by
  obtain ⟨v, hv⟩ := Option.isSome_iff_exists.mp (Keyed.isSome_get?_of_mem he)
  exact h.named _ _ hv

private theorem regular_nil : Regular [] where
  ordered := .nil
  named := fun _ _ h ↦ nomatch h
  lower := fun _ _ h ↦ nomatch h

private theorem Regular.below (h : Regular t) (key : String) : InLowerCase (t.below key) := by
  rw [Table.below]
  cases hw : Keyed.get? key t with
  | none => exact inLowerCase_nil
  | some w =>
    cases w with
    | table inner => exact h.lower key inner hw
    | _ => exact inLowerCase_nil

/-- An ordered value may be put at the end of the path of a name, a table under a key only in lower
case. -/
theorem Regular.put (h : Regular t) (name : String) (hv : v.Ordered)
    (hlower : (pathOf name).2 = [] → ∀ inner, v = .table inner → InLowerCase inner) :
    Regular (t.put (pathOf name).1 (pathOf name).2 v) where
  ordered := h.ordered.put _ _ hv
  named := by
    intro key w hw
    by_cases hk : (pathOf name).1 = key
    · exact ⟨name, hk.symm⟩
    · rw [Table.get?_put_of_ne hk] at hw
      exact h.named key w hw
  lower := by
    intro key inner hi
    by_cases hk : (pathOf name).1 = key
    · subst hk
      cases hr : (pathOf name).2 with
      | nil =>
        rw [hr, Table.put, Keyed.get?_insert_self] at hi
        exact hlower hr inner (Option.some.inj hi)
      | cons s rest =>
        rw [hr, Table.put_cons, Keyed.get?_insert_self] at hi
        have hmem : s ∈ (pathOf name).1 :: (pathOf name).2 := by simp [hr]
        have hs := lowerAscii_of_mem_pathOf hmem
        rw [← Value.table.inj (Option.some.inj hi)]
        exact (h.below _).put hs rest v
    · rw [Table.get?_put_of_ne hk] at hi
      exact h.lower key inner hi

private theorem Regular.putGeneral (h : Regular t) (e : String × String) :
    Regular (putGeneral t e) :=
  h.put e.1 trivial fun _ _ hi ↦ by cases hi

private theorem Regular.putSection (h : Regular t) (s : String × Keyed String) :
    Regular (putSection t s) := by
  have hnew : Regular (t.put (pathOf s.1).1 (pathOf s.1).2 (.table (entriesOf s.2))) := by
    refine h.put s.1 (ordered_entriesOf s.2) ?_
    rintro - inner ⟨⟩
    exact inLowerCase_entriesOf s.2
  rw [Ini.putSection]
  dsimp only
  split
  · next inner hat =>
    have hinner : (Value.table inner).Ordered := by
      rw [Table.at?_eq, ← Value.descend_table] at hat
      exact h.ordered.descend hat
    refine h.put s.1 (ordered_overlay hinner (ordered_entriesOf s.2)) ?_
    rintro hr inner' ⟨⟩
    rw [hr, Table.at?_nil] at hat
    exact (h.lower _ inner hat).overlay (inLowerCase_entriesOf s.2)
  · split
    · exact h
    · exact hnew
  · exact hnew

/-- A text is read as a regular table. -/
theorem regular_of_readTable {text : String} (h : readTable text = .ok t) : Regular t := by
  have hfold : ∀ {α : Type} {f : Table → α → Table}, (∀ t a, Regular t → Regular (f t a)) →
      ∀ (l : List α) t, Regular t → Regular (l.foldl f t) := by
    intro α f hf l
    induction l with
    | nil => exact fun _ ht ↦ ht
    | cons a l ih => exact fun t ht ↦ ih (f t a) (hf t a ht)
  rw [readTable] at h
  cases hd : read text with
  | error e =>
    rw [hd] at h
    cases h
  | ok d =>
    rw [hd] at h
    rw [← Except.ok.inj h]
    have hgeneral := hfold (fun _ e ht ↦ ht.putGeneral e) d.standing [] regular_nil
    exact hfold (fun _ s ht ↦ ht.putSection s) d.sections _ hgeneral

end Ini

end LayeredConfig
