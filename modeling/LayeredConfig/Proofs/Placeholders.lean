import LayeredConfig.Proofs.Replacement
import LayeredConfig.Proofs.Scanning
import Mathlib.Data.List.Induction

/-!
# Placeholders in settings

A line is read as placeholders with characters between them. Its placeholders are replaced one after
the other, each wherever it then stands. That is to replace all of them at once as long as none
stands in the line at a place where the line itself does not have it: in a value, or where a value
meets what is next to it.
-/

namespace LayeredConfig.Placeholder

/-! ### Pieces of a line -/

/-- The names that variables may have in a placeholder. -/
def IsName (name : List Char) : Prop :=
  ∃ c rest, name = c :: rest ∧ isNameStart c = true ∧ ∀ d ∈ rest, isNameChar d = true

/-- A placeholder in a line, or a character that belongs to none. -/
inductive Piece where
  | char (c : Char)
  | hole (name : List Char)
  deriving DecidableEq, Repr

/-- The pieces that a line is made of, from left to right. -/
inductive Reads : List Char → List Piece → Prop
  | nil : Reads [] []
  | hole {name rest : List Char} {ps : List Piece} (hn : IsName name) (h : Reads rest ps) :
    Reads (spell name ++ rest) (.hole name :: ps)
  | char {c : Char} {rest : List Char} {ps : List Piece}
    (hn : ∀ name, IsName name → ¬ spell name <+: c :: rest) (h : Reads rest ps) :
    Reads (c :: rest) (.char c :: ps)

/-- Read a line piece by piece. Its first `skip` characters belong to a placeholder that has been
read already. -/
def piecesFrom : Nat → List Char → List Piece
  | _, [] => []
  | skip + 1, _ :: rest => piecesFrom skip rest
  | 0, c :: rest =>
    match at? (c :: rest) with
    | some name => .hole name :: piecesFrom (name.length + 2) rest
    | none => .char c :: piecesFrom 0 rest

/-- The pieces of a line. -/
def pieces (line : List Char) : List Piece := piecesFrom 0 line

/-- The names of the placeholders among pieces. -/
def holes (ps : List Piece) : List (List Char) :=
  ps.filterMap fun
    | .hole name => some name
    | .char _ => none

/-- The text of pieces, in which those placeholders are replaced whose names have values. -/
def fill (value : List Char → Option (List Char)) (ps : List Piece) : List Char :=
  ps.flatMap fun
    | .char c => [c]
    | .hole name => (value name).getD (spell name)

variable {name line : List Char} {ps : List Piece} {value : List Char → Option (List Char)}
  {lookup : String → Option String}

/-- A placeholder is a dollar, braces, and the name between them. -/
theorem spell_eq (name : List Char) : spell name = '$' :: '\x7b' :: (name ++ ['\x7d']) := rfl

/-- A placeholder is replaced if its name has a value. -/
theorem fill_hole (value : List Char → Option (List Char)) (name : List Char) (ps : List Piece) :
    fill value (.hole name :: ps) = (value name).getD (spell name) ++ fill value ps := rfl

private theorem fill_char (value : List Char → Option (List Char)) (c : Char) (ps : List Piece) :
    fill value (.char c :: ps) = c :: fill value ps := rfl

private theorem IsName.forall_mem (h : IsName name) : ∀ c ∈ name, isNameChar c = true := by
  obtain ⟨c, rest, rfl, hc, hrest⟩ := h
  rintro d hd
  rcases List.mem_cons.mp hd with rfl | hd
  · rw [isNameChar, hc, Bool.true_or]
  · exact hrest d hd

/-- A placeholder has no dollar but the one that it begins with. -/
theorem IsName.dollar_not_mem (h : IsName name) : '$' ∉ '\x7b' :: (name ++ ['\x7d']) := by
  intro hd
  rcases List.mem_cons.mp hd with hd | hd
  · exact absurd hd (by decide)
  · rcases List.mem_append.mp hd with hd | hd
    · exact absurd (h.forall_mem _ hd) (by decide)
    · exact absurd (List.mem_singleton.mp hd) (by decide)

/-- So its places are apart. -/
theorem IsName.lone (h : IsName name) : Lone (spell name) :=
  ⟨'$', _, rfl, h.dollar_not_mem⟩

/-- At the head of a text a placeholder is found exactly if there is one. -/
theorem at?_eq_some_iff {s : List Char} : at? s = some name ↔ IsName name ∧ spell name <+: s := by
  constructor
  · intro h
    rw [at?.eq_def] at h
    split at h
    · next c rest =>
      split at h
      · next hcond =>
        obtain ⟨hc, hend⟩ := hcond
        obtain rfl := Option.some.inj h
        obtain ⟨tail, htail⟩ := List.head?_eq_some_iff.mp hend
        refine ⟨⟨c, _, rfl, hc, fun d hd ↦ List.mem_takeWhile_imp hd⟩, tail, ?_⟩
        have hrest : rest.takeWhile isNameChar ++ '\x7d' :: tail = rest := by
          rw [← htail, List.takeWhile_append_dropWhile]
        conv_rhs => rw [← hrest]
        simp [spell_eq]
      · cases h
    · cases h
  · rintro ⟨⟨c, rest, rfl, hc, hrest⟩, tail, rfl⟩
    have htext : spell (c :: rest) ++ tail = '$' :: '\x7b' :: c :: (rest ++ '\x7d' :: tail) := by
      simp [spell_eq]
    have hbrace : isNameChar '\x7d' = false := by decide
    rw [htext, at?, Text.takeWhile_append_end hrest hbrace, Text.dropWhile_append_end hrest hbrace,
      if_pos ⟨hc, rfl⟩]

/-- At the head of a placeholder's text nothing is found but this. -/
theorem at?_spell (h : IsName name) (rest : List Char) : at? (spell name ++ rest) = some name :=
  at?_eq_some_iff.mpr ⟨h, List.prefix_append _ _⟩

/-- Where nothing is found no placeholder begins. -/
theorem at?_eq_none_iff {s : List Char} :
    at? s = none ↔ ∀ name, IsName name → ¬ spell name <+: s := by
  rw [Option.eq_none_iff_forall_ne_some]
  exact forall_congr' fun name ↦ by rw [Ne, at?_eq_some_iff, not_and]

private theorem piecesFrom_append (s t : List Char) : piecesFrom s.length (s ++ t) = pieces t := by
  induction s with
  | nil => rfl
  | cons c s ih => exact ih

/-- Every line is read as its pieces. -/
theorem reads_pieces : ∀ line, Reads line (pieces line)
  | [] => .nil
  | c :: rest => by
    rw [pieces, piecesFrom]
    split
    · next name hat =>
      obtain ⟨hn, tail, htail⟩ := at?_eq_some_iff.mp hat
      have hlen : tail.length < (c :: rest).length := by
        have hspell := congrArg List.length (spell_eq name)
        rw [← htail, List.length_append, hspell, List.length_cons]
        omega
      obtain ⟨-, hrest⟩ := List.cons.inj htail
      have hskip : piecesFrom (name.length + 2) rest = pieces tail := by
        rw [← hrest, ← piecesFrom_append ('\x7b' :: (name ++ ['\x7d'])) tail]
        simp
      rw [hskip, ← htail]
      exact .hole hn (reads_pieces tail)
    · next hat => exact .char (at?_eq_none_iff.mp hat) (reads_pieces rest)
termination_by line => line.length

private theorem Reads.fill_none (h : Reads line ps) : fill (fun _ ↦ none) ps = line := by
  induction h with
  | nil => rfl
  | hole _ _ ih => exact congrArg (spell _ ++ ·) ih
  | char _ _ ih => exact congrArg (_ :: ·) ih

/-- Without dollars there are no names. -/
theorem names_append {s : List Char} (h : '$' ∉ s) (t : List Char) : names (s ++ t) = names t := by
  induction s with
  | nil => rfl
  | cons c s ih =>
    rw [List.mem_cons, not_or] at h
    have hat : at? (c :: (s ++ t)) = none :=
      at?_eq_none_iff.mpr fun name _ hp ↦ h.1 (List.cons_prefix_cons.mp hp).1
    rw [List.cons_append, names, hat]
    exact ih h.2

/-- The names in a line are those of its pieces. -/
theorem Reads.names_eq (h : Reads line ps) : names line = holes ps := by
  induction h with
  | nil => rfl
  | @hole name rest ps hn _ ih =>
    have hat := at?_spell hn rest
    rw [spell_eq, List.cons_append] at hat ⊢
    rw [names, hat]
    dsimp only
    rw [names_append hn.dollar_not_mem, ih]
    rfl
  | char hn _ ih =>
    rw [names, at?_eq_none_iff.mpr hn]
    exact ih

/-- What is read as a name is one. -/
theorem isName_of_mem_names (h : name ∈ names line) : IsName name := by
  have hreads := reads_pieces line
  rw [hreads.names_eq] at h
  generalize pieces line = ps at h hreads
  induction hreads with
  | nil => cases h
  | hole hn _ ih =>
    rcases List.mem_cons.mp h with rfl | h
    · exact hn
    · exact ih h
  | char _ _ ih => exact ih h

/-! ### One placeholder after the other -/

/-- The values of those names that have been replaced. -/
def known (lookup : String → Option String) (done : List (List Char)) (name : List Char) :
    Option (List Char) :=
  if name ∈ done then (lookup (String.ofList name)).map String.toList else none

/-- A line in which the first `k` of its placeholders are replaced, and nothing else. -/
def stage (lookup : String → Option String) (line : List Char) (k : Nat) : List Char :=
  fill (known lookup ((names line).take k)) (pieces line)

/-- A line in which all its placeholders are replaced at once. -/
def expand (lookup : String → Option String) (line : List Char) : List Char :=
  fill (fun name ↦ (lookup (String.ofList name)).map String.toList) (pieces line)

/-- At how many places a placeholder is still to be replaced. -/
def remaining (line : List Char) (k : Nat) (name : List Char) : Nat :=
  if name ∈ (names line).take k then 0 else (names line).count name

/-- Whether each placeholder, when its turn comes, stands only where the line has it, or is its own
value. -/
def Undisturbed (lookup : String → Option String) (line : List Char) : Prop :=
  ∀ k name, (names line)[k]? = some name →
    occurrences (spell name) (stage lookup line k) = remaining line k name ∨
      lookup (String.ofList name) = some (String.ofList (spell name))

/-- Only the values of names that occur count. -/
theorem fill_congr {value' : List Char → Option (List Char)}
    (h : ∀ name ∈ holes ps, value name = value' name) : fill value ps = fill value' ps := by
  induction ps with
  | nil => rfl
  | cons p ps ih =>
    cases p with
    | char c => exact congrArg (c :: ·) (ih h)
    | hole name =>
      obtain ⟨hname, hrest⟩ := List.forall_mem_cons.mp h
      rw [fill_hole, fill_hole, hname, ih hrest]

private theorem stage_zero (lookup : String → Option String) (line : List Char) :
    stage lookup line 0 = line := by
  rw [stage, List.take_zero]
  exact (fill_congr fun name _ ↦ if_neg List.not_mem_nil).trans (reads_pieces line).fill_none

private theorem stage_length (lookup : String → Option String) (line : List Char) :
    stage lookup line (names line).length = expand lookup line := by
  rw [stage, List.take_length, expand, (reads_pieces line).names_eq]
  exact fill_congr fun name hname ↦ if_pos hname

private theorem replaced_fill {done : List (List Char)} {v : String} (hname : name ∉ done)
    (hv : lookup (String.ofList name) = some v) (ps : List Piece) :
    Replaced (spell name) v.toList ((holes ps).count name) (fill (known lookup done) ps)
      (fill (known lookup (done ++ [name])) ps) := by
  induction ps with
  | nil => exact .nil
  | cons p ps ih =>
    cases p with
    | char c => exact .keep c ih
    | hole other =>
      by_cases ho : other = name
      · subst ho
        have hbefore : known lookup done other = none := if_neg hname
        have hafter : known lookup (done ++ [other]) other = some v.toList := by
          rw [known, if_pos (List.mem_append_right _ (List.mem_singleton_self _)), hv]
          rfl
        have hcount : (holes (.hole other :: ps)).count other = (holes ps).count other + 1 :=
          List.count_cons_self
        rw [hcount, fill_hole, fill_hole, hbefore, hafter]
        exact .swap ih
      · have hsame : known lookup (done ++ [name]) other = known lookup done other := by
          simp [known, ho]
        have hcount : (holes (.hole other :: ps)).count name = (holes ps).count name :=
          List.count_cons_of_ne ho
        rw [hcount, fill_hole, fill_hole, hsame]
        exact ih.append_left _

private theorem replaced_stage {v : String} (line : List Char) {k : Nat}
    (hk : (names line)[k]? = some name) (hv : lookup (String.ofList name) = some v) :
    Replaced (spell name) v.toList (remaining line k name) (stage lookup line k)
      (stage lookup line (k + 1)) := by
  have htake : (names line).take (k + 1) = (names line).take k ++ [name] := by
    rw [List.take_add_one, hk]
    rfl
  rw [stage, stage, htake, remaining]
  -- A name that has been replaced before has no place left that the line itself has.
  by_cases hd : name ∈ (names line).take k
  · have hsame : known lookup ((names line).take k ++ [name]) =
        known lookup ((names line).take k) := by
      funext other
      by_cases ho : other = name <;> simp [known, ho, hd]
    rw [if_pos hd, hsame]
    exact .refl _ _ _
  · rw [if_neg hd, (reads_pieces line).names_eq]
    rw [(reads_pieces line).names_eq] at hd
    exact replaced_fill hd hv _

/-- From one stage to the next a placeholder is replaced as it should be exactly if the line is not
disturbed there. -/
theorem replaceOne_eq_iff {v : String} (line : List Char) {k : Nat}
    (hk : (names line)[k]? = some name) (hv : lookup (String.ofList name) = some v) :
    replaceOne lookup (stage lookup line k) name = stage lookup line (k + 1) ↔
      occurrences (spell name) (stage lookup line k) = remaining line k name ∨
        lookup (String.ofList name) = some (String.ofList (spell name)) := by
  have hname := isName_of_mem_names (List.mem_of_getElem? hk)
  rw [replaceOne, hv]
  dsimp only
  rw [(replaced_stage line hk hv).replaceAll_eq_iff hname.lone, Option.some_inj,
    ← String.toList_inj, String.toList_ofList]

/-- Placeholders are replaced one after the other as they should be exactly if the line is not
disturbed. -/
theorem undisturbed_iff (hset : ∀ name ∈ names line, lookup (String.ofList name) ≠ none) :
    Undisturbed lookup line ↔ ∀ k ≤ (names line).length,
      ((names line).take k).foldl (replaceOne lookup) line = stage lookup line k := by
  have hstep : ∀ {k name}, (names line)[k]? = some name →
      ((names line).take (k + 1)).foldl (replaceOne lookup) line =
        replaceOne lookup (((names line).take k).foldl (replaceOne lookup) line) name := by
    intro k name hk
    rw [List.take_add_one, hk, List.foldl_append]
    rfl
  have hvalue : ∀ {k name}, (names line)[k]? = some name →
      ∃ v, lookup (String.ofList name) = some v := fun hk ↦
    Option.ne_none_iff_exists'.mp (hset _ (List.mem_of_getElem? hk))
  constructor
  · intro h k hle
    -- As long as the loop was at the right stage, the next replacement hits the line's own places.
    induction k with
    | zero => exact (stage_zero lookup line).symm
    | succ k ih =>
      have hk := List.getElem?_eq_getElem hle
      obtain ⟨v, hv⟩ := hvalue hk
      rw [hstep hk, ih (Nat.le_of_lt hle)]
      exact (replaceOne_eq_iff line hk hv).mpr (h k _ hk)
  · intro h k name hk
    obtain ⟨v, hv⟩ := hvalue hk
    obtain ⟨hlt, -⟩ := List.getElem?_eq_some_iff.mp hk
    rw [← replaceOne_eq_iff line hk hv, ← h k (Nat.le_of_lt hlt), ← h (k + 1) hlt, hstep hk]

/-! ### Names without a value -/

/-- The names of the placeholders of a text, in order. Those in comments do not count. -/
def mentioned (text : String) : List String :=
  ((Text.lines text.toList).filter fun line ↦ !isComment line).flatMap fun line ↦
    (holes (pieces line)).map String.ofList

/-- The names that are mentioned and have no value, each once and in the order in which they are
first mentioned. -/
structure Unset (lookup : String → Option String) (named missing : List String) : Prop where
  mem_iff : ∀ name, name ∈ missing ↔ name ∈ named ∧ lookup name = none
  ordered : missing.Pairwise fun a b ↦ named.idxOf a < named.idxOf b

private theorem allNames_lines (text : String) :
    allNames (Text.lines text.toList) = mentioned text := by
  simp only [allNames, mentioned, (reads_pieces _).names_eq]

private theorem Unset.eq {named missing missing' : List String} (h : Unset lookup named missing)
    (h' : Unset lookup named missing') : missing = missing' := by
  have hnodup : ∀ {l}, Unset lookup named l → l.Nodup := by
    intro l hl
    apply hl.ordered.imp
    rintro a b hlt rfl
    exact Nat.lt_irrefl _ hlt
  have hperm : missing.Perm missing' := (List.perm_ext_iff_of_nodup (hnodup h) (hnodup h')).mpr
    fun name ↦ (h.mem_iff name).trans (h'.mem_iff name).symm
  exact hperm.eq_of_pairwise (fun a b _ _ hab hba ↦ absurd hba (Nat.lt_asymm hab)) h.ordered
    h'.ordered

private theorem unset_foldl_addNew (lookup : String → Option String) (named : List String) :
    Unset lookup named ((named.filter fun name ↦ (lookup name).isNone).foldl addNew []) := by
  induction named using List.reverseRecOn with
  | nil => exact ⟨fun name ↦ by simp, List.Pairwise.nil⟩
  | append_singleton l name ih =>
    rw [List.filter_append, List.foldl_append]
    generalize (l.filter fun name ↦ (lookup name).isNone).foldl addNew [] = missing at ih
    -- Names that were mentioned keep their places, and a new one comes behind them.
    have hidx : ∀ a ∈ missing, (l ++ [name]).idxOf a = l.idxOf a := fun a ha ↦
      List.idxOf_append_of_mem ((ih.mem_iff a).mp ha).1
    have hordered : missing.Pairwise fun a b ↦
        (l ++ [name]).idxOf a < (l ++ [name]).idxOf b :=
      ih.ordered.imp_of_mem fun ha hb hlt ↦ by rwa [hidx _ ha, hidx _ hb]
    cases hv : lookup name with
    | some v =>
      have hnone : [name].filter (fun name ↦ (lookup name).isNone) = [] := by simp [hv]
      rw [hnone]
      refine ⟨fun other ↦ (ih.mem_iff other).trans ?_, hordered⟩
      have hne : lookup other = none → other ≠ name := by
        rintro hother rfl
        rw [hv] at hother
        cases hother
      simpa using fun hother hname ↦ absurd hname (hne hother)
    | none =>
      have hone : [name].filter (fun name ↦ (lookup name).isNone) = [name] := by simp [hv]
      rw [hone, List.foldl_cons, List.foldl_nil, addNew]
      split
      · next hc =>
        have hmem := List.contains_iff_mem.mp hc
        refine ⟨fun other ↦ (ih.mem_iff other).trans ?_, hordered⟩
        have hl := ((ih.mem_iff name).mp hmem).1
        simpa using fun hother hname ↦ hname ▸ hl
      · next hc =>
        have hnew : name ∉ l := fun hl ↦
          hc (List.contains_iff_mem.mpr ((ih.mem_iff name).mpr ⟨hl, hv⟩))
        constructor
        · intro other
          rw [List.mem_append, List.mem_append, List.mem_singleton, ih.mem_iff, or_and_right]
          exact or_congr_right ⟨fun h ↦ ⟨h, h ▸ hv⟩, And.left⟩
        · rw [List.pairwise_append]
          refine ⟨hordered, List.pairwise_singleton _ _, fun a ha b hb ↦ ?_⟩
          rw [List.mem_singleton.mp hb, hidx a ha, List.idxOf_append_of_notMem hnew]
          exact Nat.lt_of_lt_of_le (List.idxOf_lt_length_of_mem ((ih.mem_iff a).mp ha).1)
            (Nat.le_add_right _ _)

/-! ### Texts -/

private theorem occurrences_spell_of_ne {other : List Char} (ho : IsName other) (hn : IsName name)
    (hne : other ≠ name) (s : List Char) :
    occurrences (spell name) (spell other ++ s) = occurrences (spell name) s := by
  have hp : ¬ spell name <+: spell other ++ s := by
    intro hp
    have hat := at?_eq_some_iff.mpr ⟨hn, hp⟩
    rw [at?_spell ho] at hat
    exact hne (Option.some.inj hat)
  have hskip : occurrences (spell name) (spell other ++ s) =
      occurrences (spell name) ('\x7b' :: (other ++ ['\x7d']) ++ s) := occurrences_cons hp
  rw [hskip]
  exact occurrences_append ho.dollar_not_mem s

private theorem Reads.occurrences_fill (h : Reads line ps) (hn : IsName name)
    (hline : .char '$' ∉ ps)
    (hvalues : ∀ other ∈ holes ps, ∃ v, lookup (String.ofList other) = some v ∧ '$' ∉ v.toList)
    (done : List (List Char)) :
    occurrences (spell name) (fill (known lookup done) ps) =
      if name ∈ done then 0 else (holes ps).count name := by
  induction h with
  | nil => exact (ite_self 0).symm
  | @hole other rest ps ho _ ih =>
    obtain ⟨⟨v, hv, hd⟩, hvalues⟩ := List.forall_mem_cons.mp hvalues
    have ih := ih (fun hc ↦ hline (List.mem_cons_of_mem _ hc)) hvalues
    have hother : other ≠ name → (holes (.hole other :: ps)).count name = (holes ps).count name :=
      fun hne ↦ List.count_cons_of_ne hne
    rw [fill_hole, known]
    -- A value has no dollar, and in a placeholder that is left only this one itself stands.
    by_cases hdone : other ∈ done
    · rw [if_pos hdone, hv]
      refine ((occurrences_append hd _).trans ih).trans ?_
      by_cases hname : name ∈ done
      · rw [if_pos hname, if_pos hname]
      · rw [hother fun heq ↦ hname (heq ▸ hdone)]
    · rw [if_neg hdone, Option.getD_none]
      by_cases heq : other = name
      · subst heq
        rw [occurrences_self_append hn.lone, ih, if_neg hdone, if_neg hdone]
        exact List.count_cons_self.symm
      · rw [occurrences_spell_of_ne ho hn heq, ih, hother heq]
  | @char c rest ps _ _ ih =>
    have hc : '$' ∉ [c] := fun hc ↦ hline (List.mem_singleton.mp hc ▸ List.mem_cons_self)
    rw [fill_char]
    exact (occurrences_append hc _).trans (ih (fun hc ↦ hline (List.mem_cons_of_mem _ hc)) hvalues)

private theorem undisturbed_of_no_dollar (hline : .char '$' ∉ pieces line)
    (hvalues : ∀ name ∈ names line, ∃ v, lookup (String.ofList name) = some v ∧ '$' ∉ v.toList) :
    Undisturbed lookup line := by
  intro k name hk
  left
  have hname := isName_of_mem_names (List.mem_of_getElem? hk)
  have hreads := reads_pieces line
  rw [stage, remaining, hreads.names_eq]
  rw [hreads.names_eq] at hvalues
  exact hreads.occurrences_fill hname hline hvalues _

/-- A text is refused if names in it have no value: these are listed once each, in the order in
which they are first mentioned. Otherwise each line is answered by itself: a comment stays as it is,
and in any other line all placeholders are replaced at once if the line is undisturbed. It is so
exactly if at each stage those placeholders are replaced whose turn has come, and nothing else is.
-/
theorem substitute_lawful (lookup : String → Option String) (text : String) :
    (∀ missing, substitute lookup text = .error missing ↔
      missing ≠ [] ∧ Unset lookup (mentioned text) missing) ∧
    ((∀ name ∈ mentioned text, lookup name ≠ none) →
      ∃ answer : List Char → List Char,
        substitute lookup text =
          .ok (String.ofList ((Text.lines text.toList).flatMap fun line ↦ answer line ++ ['\n'])) ∧
        ∀ line ∈ Text.lines text.toList,
          (isComment line = true → answer line = line) ∧
          (isComment line = false →
            (Undisturbed lookup line → answer line = expand lookup line) ∧
            (Undisturbed lookup line ↔ ∀ k ≤ (names line).length,
              ((names line).take k).foldl (replaceOne lookup) line = stage lookup line k))) := by
  have hunset := unset_foldl_addNew lookup (mentioned text)
  have hall := allNames_lines text
  constructor
  · intro missing
    rw [substitute, hall]
    cases hf : (mentioned text).filter fun name ↦ (lookup name).isNone with
    | nil =>
      rw [hf] at hunset
      exact ⟨fun h ↦ (nomatch h), fun h ↦ absurd (h.2.eq hunset) h.1⟩
    | cons name rest =>
      rw [hf] at hunset
      constructor
      · intro h
        rw [← Except.error.inj h]
        refine ⟨fun hnil ↦ ?_, hunset⟩
        have hmem := List.mem_filter.mp (hf ▸ List.mem_cons_self : name ∈ (mentioned text).filter _)
        rw [hnil] at hunset
        exact List.not_mem_nil ((hunset.mem_iff name).mpr
          ⟨hmem.1, Option.isNone_iff_eq_none.mp hmem.2⟩)
      · rintro ⟨-, h⟩
        exact congrArg Except.error (hunset.eq h)
  · intro hset
    have hnone : (mentioned text).filter (fun name ↦ (lookup name).isNone) = [] := by
      rw [List.filter_eq_nil_iff]
      intro name hname hv
      exact hset name hname (Option.isNone_iff_eq_none.mp hv)
    refine ⟨replaceLine lookup, ?_, ?_⟩
    · rw [substitute, hall, hnone]
    · intro line hline
      refine ⟨fun hc ↦ if_pos hc, fun hc ↦ ?_⟩
      have hline : ∀ name ∈ names line, lookup (String.ofList name) ≠ none := by
        intro name hname
        rw [(reads_pieces line).names_eq] at hname
        refine hset _ (List.mem_flatMap.mpr ⟨line, ?_, List.mem_map_of_mem hname⟩)
        exact List.mem_filter.mpr ⟨hline, by rw [hc, Bool.not_false]⟩
      have hiff := undisturbed_iff hline
      refine ⟨fun h ↦ ?_, hiff⟩
      have hend := hiff.mp h _ (Nat.le_refl _)
      rw [List.take_length, stage_length] at hend
      rw [replaceLine, if_neg (Bool.eq_false_iff.mp hc), hend]

/-- Two variables on a line, one of them twice, and a comment that names a third. -/
theorem substitute_lawful_twice :
    let lookup := fun name ↦ Keyed.get? name [("A", "x"), ("B", "y")]
    let line := "$\x7bA\x7d$\x7bB\x7d$\x7bA\x7d".toList
    Text.lines "$\x7bA\x7d$\x7bB\x7d$\x7bA\x7d\n# $\x7bC\x7d".toList =
        [line, "# $\x7bC\x7d".toList] ∧
      Undisturbed lookup line ∧
      substitute lookup "$\x7bA\x7d$\x7bB\x7d$\x7bA\x7d\n# $\x7bC\x7d" =
        .ok "xyx\n# $\x7bC\x7d\n" := by
  intro lookup line
  have hlines : Text.lines "$\x7bA\x7d$\x7bB\x7d$\x7bA\x7d\n# $\x7bC\x7d".toList =
      [line, "# $\x7bC\x7d".toList] := by decide
  have hundisturbed : Undisturbed lookup line := by
    apply undisturbed_of_no_dollar (by decide)
    have hnames : names line = [['A'], ['B'], ['A']] := by decide
    rw [hnames, List.forall_mem_cons, List.forall_mem_cons, List.forall_mem_singleton]
    exact ⟨⟨"x", by decide⟩, ⟨"y", by decide⟩, ⟨"x", by decide⟩⟩
  obtain ⟨answer, hok, hanswer⟩ := (substitute_lawful lookup
    "$\x7bA\x7d$\x7bB\x7d$\x7bA\x7d\n# $\x7bC\x7d").2 (by decide)
  rw [hlines, List.forall_mem_cons, List.forall_mem_singleton] at hanswer
  obtain ⟨⟨-, hline⟩, hcomment, -⟩ := hanswer
  refine ⟨hlines, hundisturbed, ?_⟩
  rw [hok, hlines, List.flatMap_cons, List.flatMap_singleton, hcomment (by decide),
    (hline (by decide)).1 hundisturbed]
  decide

/-- What comes from a value is replaced again if its placeholder is still to come. -/
theorem substitute_again :
    let lookup := fun name ↦ Keyed.get? name [("A", "$\x7bB\x7d"), ("B", "x")]
    let line := "$\x7bA\x7d$\x7bB\x7d".toList
    (∀ name ∈ mentioned "$\x7bA\x7d$\x7bB\x7d", lookup name ≠ none) ∧
      Text.lines "$\x7bA\x7d$\x7bB\x7d".toList = [line] ∧
      isComment line = false ∧
      expand lookup line = "$\x7bB\x7dx".toList ∧
      substitute lookup "$\x7bA\x7d$\x7bB\x7d" = .ok "xx\n" := by
  decide

end LayeredConfig.Placeholder
