import LayeredConfig.Secret.Message
import Mathlib.Data.List.TakeWhile

/-!
# Passing over a message with a secret in it

The first pass over a message matches an assignment at its head, or else passes one character. Take a
message with a secret in it, some letters and digits, and put another secret in its place: until the
pass has come to the secret, or has run over it, it does the same for both. An assignment that begins
in front of the secret reaches over it, or ends in front of it, or is none, for both alike.
-/

namespace LayeredConfig

namespace Text

variable {p : Char → Bool}

/-- Where something in a list ends its first part, the other part is not empty. -/
theorem dropWhile_ne_nil_of_stop {s : List Char} (h : ∃ c ∈ s, p c = false) :
    s.dropWhile p ≠ [] := by
  rw [Ne, List.dropWhile_eq_nil_iff]
  intro hall
  obtain ⟨c, hc, hp⟩ := h
  exact absurd ((hall c hc).symm.trans hp) (by decide)

/-- The first part is then the same whatever is appended. -/
theorem takeWhile_append_of_stop {s : List Char} (h : ∃ c ∈ s, p c = false) (t : List Char) :
    (s ++ t).takeWhile p = s.takeWhile p := by
  rw [List.takeWhile_append, if_neg]
  intro hl
  have hwhole := (List.takeWhile_prefix p).eq_of_length hl
  apply dropWhile_ne_nil_of_stop h
  rw [List.dropWhile_eq_nil_iff, ← List.takeWhile_eq_self_iff, hwhole]

/-- The other part has all that is appended. -/
theorem dropWhile_append_of_stop {s : List Char} (h : ∃ c ∈ s, p c = false) (t : List Char) :
    (s ++ t).dropWhile p = s.dropWhile p ++ t := by
  rw [List.dropWhile_append, if_neg]
  rw [List.isEmpty_iff]
  exact dropWhile_ne_nil_of_stop h

/-- The first part is also the same if what is appended ends it at once. -/
theorem takeWhile_append_cons {c : Char} (hc : p c = false) (s t : List Char) :
    (s ++ c :: t).takeWhile p = s.takeWhile p := by
  induction s with
  | nil => simp [hc]
  | cons d s ih => by_cases hd : p d = true <;> simp [hd, ih]

/-- The other part then begins with it, or before. -/
theorem dropWhile_append_cons {c : Char} (hc : p c = false) (s t : List Char) :
    (s ++ c :: t).dropWhile p = s.dropWhile p ++ c :: t := by
  induction s with
  | nil => simp [hc]
  | cons d s ih => by_cases hd : p d = true <;> simp [hd, ih]

/-- If nothing in a list ends its first part, this goes up to what is appended and ends it. -/
theorem takeWhile_append_end {c : Char} {s : List Char} (hs : ∀ d ∈ s, p d = true)
    (hc : p c = false) (t : List Char) : (s ++ c :: t).takeWhile p = s := by
  rw [takeWhile_append_cons hc, List.takeWhile_eq_self_iff.mpr hs]

/-- The other part is then what is appended. -/
theorem dropWhile_append_end {c : Char} {s : List Char} (hs : ∀ d ∈ s, p d = true)
    (hc : p c = false) (t : List Char) : (s ++ c :: t).dropWhile p = c :: t := by
  rw [dropWhile_append_cons hc, List.dropWhile_eq_nil_iff.mpr hs, List.nil_append]

/-- Where the first part of a list ends there is something that ends it. -/
theorem not_of_dropWhile_eq_cons {c : Char} {s t : List Char} (h : s.dropWhile p = c :: t) :
    p c = false := by
  have hn := List.head?_dropWhile_not p s
  rw [h] at hn
  exact hn

end Text

namespace Secret

open Text (isBlank)

variable {c : Char} {a b post : List Char}

/-! ### Characters -/

/-- Letters and digits are characters of ASCII. -/
theorem toNat_of_isAlphanum (h : c.isAlphanum = true) : c.toNat < 128 := by
  have hcases : ((c.isUpper || c.isLower) || c.isDigit) = true := h
  have hlast : ∀ d : Char, d.toNat < 128 → c.val ≤ d.val → c.toNat < 128 := fun d hd hle ↦
    (UInt32.le_iff_toNat_le.mp hle).trans_lt hd
  rw [Bool.or_eq_true, Bool.or_eq_true] at hcases
  rcases hcases with (hupper | hlower) | hdigit
  · exact hlast 'Z' (by decide) (of_decide_eq_true hupper).2
  · exact hlast 'z' (by decide) (of_decide_eq_true (Bool.and_eq_true_iff.mp hlower).2)
  · exact hlast '9' (by decide) (of_decide_eq_true (Bool.and_eq_true_iff.mp hdigit).2)

/-- What holds of all characters of ASCII, one after the other, holds of one of them. -/
theorem ascii_forall {P : Char → Prop} (h : ∀ n < 128, P (Char.ofNat n)) (hc : c.toNat < 128) :
    P c := by
  rw [← Char.ofNat_toNat c]
  exact h c.toNat hc

private theorem toNat_of_isWordChar (h : isWordChar c = true) :
    c.toNat < 128 ∨ c.toNat = 0x17F ∨ c.toNat = 0x212A := by
  by_cases hs : c.toNat = 0x17F
  · exact Or.inr (Or.inl hs)
  by_cases hk : c.toNat = 0x212A
  · exact Or.inr (Or.inr hk)
  left
  by_contra hc
  have hlow : c.toLower = c := dif_neg fun hupper ↦
    hc ((UInt32.le_iff_toNat_le.mp hupper.2).trans_lt (by decide))
  rw [isWordChar, fold, if_neg hs, if_neg hk, hlow, Bool.or_eq_true] at h
  rcases h with h | h
  · exact hc (toNat_of_isAlphanum h)
  · rw [beq_iff_eq] at h
    subst h
    exact hc (by decide)

/-- Characters of words are characters of values without quotes. -/
theorem isBare_of_isWordChar (h : isWordChar c = true) : isBare c = true := by
  have hascii : ∀ n < 128, isWordChar (Char.ofNat n) = true → isBare (Char.ofNat n) = true := by
    decide
  rcases toNat_of_isWordChar h with hn | hn | hn
  · exact ascii_forall (P := fun c ↦ isWordChar c = true → isBare c = true) hascii hn h
  · rw [← Char.ofNat_toNat c, hn]
    decide
  · rw [← Char.ofNat_toNat c, hn]
    decide

/-- Values without quotes have no blanks in them. -/
theorem isBlank_of_isBare (h : isBare c = true) : isBlank c = false := by
  simp only [isBare, Bool.and_eq_true, Bool.not_eq_true'] at h
  exact h.1.1.1

/-- No blank is a character of words. -/
theorem isWordChar_of_isBlank (h : isBlank c = true) : isWordChar c = false := by
  by_contra hc
  have hbare := isBlank_of_isBare (isBare_of_isWordChar (Bool.not_eq_false _ ▸ hc))
  exact absurd (h.symm.trans hbare) (by decide)

/-- A character of words differs from all that are none. -/
theorem ne_of_isWordChar {d : Char} (hc : isWordChar c = true) (hd : isWordChar d = false) :
    c ≠ d := by
  rintro rfl
  exact absurd (hc.symm.trans hd) (by decide)

/-- Letters and digits of ASCII are characters of words. -/
theorem isWordChar_of_isAlphanum (h : c.isAlphanum = true) : isWordChar c = true := by
  have hascii : ∀ n < 128, (Char.ofNat n).isAlphanum = true → isWordChar (Char.ofNat n) = true := by
    decide
  exact ascii_forall (P := fun c ↦ c.isAlphanum = true → isWordChar c = true) hascii
    (toNat_of_isAlphanum h) h

/-- Letters and digits of ASCII, one at least: a secret that nothing in itself sets apart. -/
structure Simple (v : List Char) : Prop where
  ne_nil : v ≠ []
  alphanum : ∀ c ∈ v, c.isAlphanum = true

/-- A simple secret is part of a word. -/
theorem Simple.isWordChar {v : List Char} (h : Simple v) : ∀ c ∈ v, isWordChar c = true :=
  fun c hc ↦ isWordChar_of_isAlphanum (h.alphanum c hc)

/-- A simple secret begins with a character of words. -/
theorem Simple.exists_cons {v : List Char} (h : Simple v) :
    ∃ c rest, v = c :: rest ∧ Secret.isWordChar c = true := by
  obtain ⟨c, rest, rfl⟩ := List.exists_cons_of_ne_nil h.ne_nil
  exact ⟨c, rest, rfl, h.isWordChar c List.mem_cons_self⟩

/-! ### What is at the head of a message -/

private theorem namesSecret_cons {word : List Char} (h : namesSecret word = true) (c : Char) :
    namesSecret (c :: word) = true := by
  simp only [namesSecret, List.any_eq_true, List.isSuffixOf_iff_suffix] at h ⊢
  obtain ⟨w, hw, hs⟩ := h
  exact ⟨w, hw, hs.trans (List.suffix_cons (fold c) _)⟩

/-- What does not begin with a character of words is no assignment. -/
theorem assignment?_of_not_word (hc : isWordChar c = false) (s : List Char) :
    assignment? (c :: s) = none := by
  have hn : namesSecret [] = false := by decide
  simp [assignment?, hc, hn]

/-- Where a word begins no assignment, its parts begin none. -/
theorem assignment?_of_cons {s : List Char} (hc : isWordChar c = true)
    (h : assignment? (c :: s) = none) : assignment? s = none := by
  rw [assignment?] at h ⊢
  rw [List.takeWhile_cons_of_pos hc, List.dropWhile_cons_of_pos hc] at h
  by_cases hn : namesSecret (s.takeWhile isWordChar) = true
  · rw [if_pos (namesSecret_cons hn c)] at h
    rw [if_pos hn]
    dsimp only at h ⊢
    cases hs : separator? (closingQuote (s.dropWhile isWordChar)).2 with
    | none => rfl
    | some found =>
      rw [hs] at h
      simpa using h
  · exact if_neg hn

/-- A message without anything in it stays so. -/
theorem maskAssignments_nil : maskAssignments [] = [] := by
  rw [maskAssignments]
  rfl

/-- An assignment at the head is masked, and what follows is masked on its own. -/
theorem maskAssignments_of_some {s kept rest : List Char} (h : assignment? s = some (kept, rest)) :
    maskAssignments s = kept ++ mask.toList ++ maskAssignments rest := by
  rw [maskAssignments]
  split
  · next heq =>
    cases h.symm.trans heq
    rfl
  · next heq => cases h.symm.trans heq

/-- Where there is none, a character is passed. -/
theorem maskAssignments_cons {s : List Char} (h : assignment? (c :: s) = none) :
    maskAssignments (c :: s) = c :: maskAssignments s := by
  have hstep : ∀ {c : Char} {s : List Char}, assignment? (c :: s) = none →
      maskAssignments (c :: s) = if isWordChar c then
        c :: s.takeWhile isWordChar ++ maskAssignments (s.dropWhile isWordChar)
      else c :: maskAssignments s := by
    intro c s h
    rw [maskAssignments]
    split
    · next heq => cases h.symm.trans heq
    · rfl
  by_cases hc : isWordChar c = true
  · -- a word is passed as a whole, and so is what is left of it
    rw [hstep h, if_pos hc, List.cons_append]
    congr 1
    cases s with
    | nil => rfl
    | cons d s =>
      by_cases hd : isWordChar d = true
      · rw [hstep (assignment?_of_cons hc h), if_pos hd, List.takeWhile_cons_of_pos hd,
          List.dropWhile_cons_of_pos hd]
      · rw [List.takeWhile_cons_of_neg hd, List.dropWhile_cons_of_neg hd, List.nil_append]
  · rw [hstep h, if_neg hc]

/-! ### The way of the pass -/

/-- What the pass over a message has shown when it comes to a later part of it. -/
inductive Passes : List Char → List Char → List Char → Prop where
  | here (s : List Char) : Passes s [] s
  | assignment {s kept rest shown t : List Char} (h : assignment? s = some (kept, rest))
      (hp : Passes rest shown t) : Passes s (kept ++ mask.toList ++ shown) t
  | char {c : Char} {s shown t : List Char} (h : assignment? (c :: s) = none)
      (hp : Passes s shown t) : Passes (c :: s) (c :: shown) t

/-- The pass goes on from where it has come to. -/
theorem Passes.trans {s shown t more u : List Char} (h : Passes s shown t) (h' : Passes t more u) :
    Passes s (shown ++ more) u := by
  induction h with
  | here => exact h'
  | assignment ha _ ih =>
    rw [List.append_assoc]
    exact .assignment ha (ih h')
  | char hc _ ih => exact .char hc (ih h')

/-- It shows what it has shown, and what it shows of the rest. -/
theorem Passes.mask_eq {s shown t : List Char} (h : Passes s shown t) :
    maskAssignments s = shown ++ maskAssignments t := by
  induction h with
  | here => rfl
  | assignment ha _ ih => rw [maskAssignments_of_some ha, ih, ← List.append_assoc]
  | char hc _ ih => rw [maskAssignments_cons hc, ih, List.cons_append]

/-- What has no characters of words in it is passed and shown. -/
theorem passes_of_not_word {s : List Char} (h : ∀ c ∈ s, isWordChar c = false) (t : List Char) :
    Passes (s ++ t) s t := by
  induction s with
  | nil => exact .here t
  | cons c s ih =>
    rw [List.forall_mem_cons] at h
    exact .char (assignment?_of_not_word h.1 (s ++ t)) (ih h.2)

/-! ### How far a match reaches -/

/-- Where a value ends: behind a quote, or in front of a character that is no part of it. -/
inductive Ends : List Char → List Char → Prop where
  | quote (q r : List Char) {c : Char} (hc : c = '"' ∨ c = '\'') : Ends (q ++ [c]) r
  | bare (q r : List Char) {c : Char} (hc : isBare c = false) : Ends q (c :: r)

/-- It ends there wherever it begins. -/
theorem Ends.append {q r : List Char} (h : Ends q r) (before : List Char) :
    Ends (before ++ q) r := by
  cases h with
  | quote q r hc =>
    rw [← List.append_assoc]
    exact .quote (before ++ q) r hc
  | bare q r hc => exact .bare _ r hc

private theorem Ends.of_append {before q r : List Char} (h : Ends (before ++ q) r) (hq : q ≠ []) :
    Ends q r := by
  generalize hw : before ++ q = whole at h
  cases h with
  | quote front r hc =>
    obtain ⟨q, d, rfl⟩ : ∃ front d, q = front ++ [d] :=
      ⟨q.dropLast, q.getLast hq, (List.dropLast_concat_getLast hq).symm⟩
    rw [← List.append_assoc] at hw
    obtain rfl := List.singleton_inj.mp (List.append_inj_right' hw rfl)
    exact .quote q r hc
  | bare _ r hc => exact .bare q r hc

/-- How far a match reaches that may stand at the head of a message with a secret in it, and what it
comes to: there may be none, it may reach over the secret, or it may end in front of it, in the same way
for all secrets. -/
inductive Reach {α : Type} (f : List Char → Option α) (out : List Char → α) (a post : List Char) :
    Prop where
  | never (h : ∀ v, Simple v → f (a ++ (v ++ post)) = none)
  | across (rest : List Char) (h : ∀ v, Simple v → f (a ++ (v ++ post)) = some (out rest))
  | before (q r : List Char) (ha : a = q ++ r) (hq : q ≠ []) (he : Ends q r)
      (h : ∀ v, Simple v → f (a ++ (v ++ post)) = some (out (r ++ (v ++ post))))

/-- What is in front changes nothing about how far it reaches. -/
theorem Reach.append {α β : Type} {f : List Char → Option α} {f' : List Char → Option β}
    {out : List Char → α} (g : α → β) (before : List Char) (h : Reach f out a post)
    (hf : ∀ v, Simple v → f' (before ++ a ++ (v ++ post)) = (f (a ++ (v ++ post))).map g) :
    Reach f' (fun s ↦ g (out s)) (before ++ a) post := by
  cases h with
  | never h => exact .never fun v hv ↦ by rw [hf v hv, h v hv, Option.map_none]
  | across rest h => exact .across rest fun v hv ↦ by rw [hf v hv, h v hv, Option.map_some]
  | before q r ha hq he h =>
    refine .before (before ++ q) r ?_ ?_ (he.append before) ?_
    · rw [ha, List.append_assoc]
    · exact List.append_ne_nil_of_right_ne_nil before hq
    · exact fun v hv ↦ by rw [hf v hv, h v hv, Option.map_some]

/-- A simple secret is a value, with what follows it up to a character that ends values. -/
theorem afterBare?_simple {v : List Char} (hv : Simple v) (post : List Char) :
    afterBare? (v ++ post) = some (post.dropWhile isBare) := by
  have hbare := fun c hc ↦ isBare_of_isWordChar (hv.isWordChar c hc)
  obtain ⟨c, rest, rfl, -⟩ := hv.exists_cons
  rw [List.forall_mem_cons] at hbare
  rw [List.cons_append, afterBare?, if_pos hbare.1, List.dropWhile_append_of_pos hbare.2]

/-- It is not a quoted one. -/
theorem afterValue?_simple {v : List Char} (hv : Simple v) (post : List Char) :
    afterValue? (v ++ post) = some (post.dropWhile isBare) := by
  rw [← afterBare?_simple hv]
  obtain ⟨c, rest, rfl, hc⟩ := hv.exists_cons
  have hquote : ¬ (c = '"' ∨ c = '\'') := by
    rintro (rfl | rfl) <;> exact absurd hc (by decide)
  rw [List.cons_append, afterValue?, if_neg hquote]

private theorem reach_bare (a post : List Char) : Reach afterBare? id a post := by
  cases a with
  | nil => exact .across (post.dropWhile isBare) fun v hv ↦ afterBare?_simple hv post
  | cons c a =>
    by_cases hc : isBare c = true
    · by_cases hstop : ∃ d ∈ a, isBare d = false
      · obtain ⟨d, r, hr⟩ := List.exists_cons_of_ne_nil (Text.dropWhile_ne_nil_of_stop hstop)
        refine .before (c :: a.takeWhile isBare) (d :: r) ?_ (List.cons_ne_nil _ _) ?_ ?_
        · rw [List.cons_append, ← hr, List.takeWhile_append_dropWhile]
        · exact .bare _ r (Text.not_of_dropWhile_eq_cons hr)
        · intro v _
          rw [List.cons_append, afterBare?, if_pos hc, Text.dropWhile_append_of_stop hstop, hr, id]
      · refine .across (post.dropWhile isBare) fun v hv ↦ ?_
        have hall : ∀ d ∈ a ++ v, isBare d = true := by
          rw [List.forall_mem_append]
          refine ⟨fun d hd ↦ ?_, fun d hd ↦ isBare_of_isWordChar (hv.isWordChar d hd)⟩
          by_contra hn
          exact hstop ⟨d, hd, Bool.not_eq_true _ ▸ hn⟩
        rw [List.cons_append, afterBare?, if_pos hc, ← List.append_assoc,
          List.dropWhile_append_of_pos hall, id]
    · exact .never fun v _ ↦ by rw [List.cons_append, afterBare?, if_neg hc]

private theorem reach_quote {quote : Char} (hq : quote = '"' ∨ quote = '\'') (a post : List Char) :
    Reach (afterQuote? quote) id a post := by
  have hquote : isWordChar quote = false := by rcases hq with rfl | rfl <;> decide
  -- the first part of `t` goes up to the quote
  have hskip : ∀ {t : List Char}, (∀ c ∈ t, c ≠ quote) → ∀ u,
      afterQuote? quote (t ++ u) = afterQuote? quote u := by
    intro t ht u
    rw [afterQuote?, afterQuote?, List.dropWhile_append_of_pos]
    intro c hc
    exact bne_iff_ne.mpr (ht c hc)
  by_cases hmem : quote ∈ a
  · obtain ⟨q, r, ha, hnot⟩ := List.eq_append_cons_of_mem hmem
    have hpass : ∀ c ∈ q, c ≠ quote := fun c hc he ↦ hnot (he ▸ hc)
    refine .before (q ++ [quote]) r ?_ ?_ (.quote q r hq) ?_
    · rw [ha, List.append_assoc, List.singleton_append]
    · exact List.append_ne_nil_of_right_ne_nil q (List.cons_ne_nil _ _)
    · intro v _
      rw [ha, List.append_assoc, hskip hpass, List.cons_append, afterQuote?]
      simp
  · have hacross : ∀ v, Simple v → afterQuote? quote (a ++ (v ++ post)) = afterQuote? quote post := by
      intro v hv
      rw [← List.append_assoc, hskip]
      rw [List.forall_mem_append]
      exact ⟨fun c hc he ↦ hmem (he ▸ hc), fun c hc ↦ ne_of_isWordChar (hv.isWordChar c hc) hquote⟩
    cases hp : afterQuote? quote post with
    | none => exact .never fun v hv ↦ by rw [hacross v hv, hp]
    | some rest => exact .across rest fun v hv ↦ by rw [hacross v hv, hp, id]

private theorem reach_value (a post : List Char) : Reach afterValue? id a post := by
  cases a with
  | nil => exact .across (post.dropWhile isBare) fun v hv ↦ afterValue?_simple hv post
  | cons c a =>
    -- without quotes that are closed it is a value without quotes
    have hbare : (∀ v, Simple v →
        afterValue? (c :: a ++ (v ++ post)) = afterBare? (c :: a ++ (v ++ post))) →
          Reach afterValue? id (c :: a) post := by
      intro h
      refine (reach_bare (c :: a) post).append id [] fun v hv ↦ ?_
      rw [List.nil_append, h v hv, Option.map_id_fun, id]
    by_cases hc : c = '"' ∨ c = '\''
    · have hvalue : ∀ s, afterValue? (c :: s) = (afterQuote? c s <|> afterBare? (c :: s)) := by
        intro s
        rw [afterValue?, if_pos hc]
      cases reach_quote hc a post with
      | never h =>
        apply hbare
        intro v hv
        rw [List.cons_append, hvalue, h v hv]
        rfl
      | across rest h =>
        refine .across rest fun v hv ↦ ?_
        rw [List.cons_append, hvalue, h v hv]
        rfl
      | before q r ha hq he h =>
        refine .before (c :: q) r ?_ (List.cons_ne_nil c q) (he.append [c]) ?_
        · rw [ha, List.cons_append]
        · intro v hv
          rw [List.cons_append, hvalue, h v hv]
          rfl
    · apply hbare
      intro v _
      rw [List.cons_append, afterValue?, if_neg hc]

/-- The separator of an assignment, which is not empty, and what follows it make up the text. -/
theorem separator?_eq {s separator rest : List Char} (h : separator? s = some (separator, rest)) :
    s = separator ++ rest ∧ separator ≠ [] := by
  have hs : s.takeWhile isBlank ++ s.dropWhile isBlank = s := List.takeWhile_append_dropWhile
  rw [separator?] at h
  split at h
  · cases h
  · next c r hr =>
    split at h
    · cases h
      rw [hr] at hs
      refine ⟨?_, List.append_ne_nil_of_right_ne_nil _ (List.cons_ne_nil _ _)⟩
      rw [List.append_assoc, List.cons_append, List.takeWhile_append_dropWhile, hs]
    · cases h

/-- A separator ends in front of a word. -/
theorem separator?_append (hc : isWordChar c = true) (s t : List Char) :
    separator? (s ++ c :: t) = (separator? s).map fun e ↦ (e.1, e.2 ++ c :: t) := by
  have hblank := isBlank_of_isBare (isBare_of_isWordChar hc)
  rw [separator?, separator?, Text.takeWhile_append_cons hblank, Text.dropWhile_append_cons hblank]
  cases s.dropWhile isBlank with
  | nil =>
    have hsign : ¬ (c = '=' ∨ c = ':') := by
      rintro (rfl | rfl) <;> exact absurd hc (by decide)
    rw [List.nil_append]
    exact if_neg hsign
  | cons d r =>
    rw [List.cons_append]
    dsimp only
    by_cases hd : d = '=' ∨ d = ':'
    · rw [if_pos hd, if_pos hd, Text.takeWhile_append_cons hblank,
        Text.dropWhile_append_cons hblank]
      rfl
    · rw [if_neg hd, if_neg hd]
      rfl

/-- What does not begin with a quote has none to close a name. -/
theorem closingQuote_of_ne (hc : c ≠ '"') (s : List Char) :
    closingQuote (c :: s) = ([], c :: s) := by
  unfold closingQuote
  split
  · next heq => exact absurd (List.cons.inj heq).1 hc
  · rfl

private theorem closingQuote_append (hb : b ≠ []) (t : List Char) :
    closingQuote (b ++ t) = ((closingQuote b).1, (closingQuote b).2 ++ t) := by
  obtain ⟨c, b, rfl⟩ := List.exists_cons_of_ne_nil hb
  by_cases hc : c = '"'
  · subst hc
    rfl
  · rw [List.cons_append, closingQuote_of_ne hc, closingQuote_of_ne hc, List.cons_append]

/-- The quote and what follows it make up the text. -/
theorem closingQuote_eq (s : List Char) : (closingQuote s).1 ++ (closingQuote s).2 = s := by
  unfold closingQuote
  split <;> rfl

private theorem reach_assignment (ha : ∃ c ∈ a, isWordChar c = false) (post : List Char) :
    ∃ kept, Reach assignment? (fun rest ↦ (kept, rest)) a post := by
  have hdrop := Text.dropWhile_ne_nil_of_stop ha
  have hassign : ∀ v, Simple v → assignment? (a ++ (v ++ post)) =
      if namesSecret (a.takeWhile isWordChar) then
        (separator? (closingQuote (a.dropWhile isWordChar)).2).bind fun e ↦
          (afterValue? (e.2 ++ (v ++ post))).map fun rest ↦
            (a.takeWhile isWordChar ++ (closingQuote (a.dropWhile isWordChar)).1 ++ e.1, rest)
      else none := by
    intro v hv
    obtain ⟨c, rest, rfl, hc⟩ := hv.exists_cons
    rw [assignment?, Text.takeWhile_append_of_stop ha, Text.dropWhile_append_of_stop ha,
      closingQuote_append hdrop, List.cons_append]
    dsimp only
    rw [separator?_append hc]
    cases separator? (closingQuote (a.dropWhile isWordChar)).2 <;> rfl
  by_cases hn : namesSecret (a.takeWhile isWordChar) = true
  · simp only [if_pos hn] at hassign
    cases hs : separator? (closingQuote (a.dropWhile isWordChar)).2 with
    | none =>
      simp only [hs, Option.bind_none] at hassign
      exact ⟨[], .never hassign⟩
    | some found =>
      obtain ⟨separator, b⟩ := found
      simp only [hs, Option.bind_some] at hassign
      generalize hhead : a.takeWhile isWordChar ++ (closingQuote (a.dropWhile isWordChar)).1 ++
        separator = head at hassign
      have hwhole : head ++ b = a := by
        rw [← hhead, List.append_assoc, ← (separator?_eq hs).1, List.append_assoc, closingQuote_eq,
          List.takeWhile_append_dropWhile]
      have hreach : Reach assignment? (fun rest ↦ (head, rest)) (head ++ b) post := by
        refine (reach_value b post).append (head, ·) head fun v hv ↦ ?_
        rw [hwhole]
        exact hassign v hv
      exact ⟨head, hwhole ▸ hreach⟩
  · simp only [if_neg hn] at hassign
    exact ⟨[], .never hassign⟩

/-! ### Secrets that the pass comes to -/

/-- The pass over a message with a secret in it comes to a place in front of the secret, `after` being
what is between the place and the secret. What it has shown on the way is the same for all secrets. -/
def ComesTo (before after post : List Char) : Prop :=
  ∃ shown, ∀ v, Simple v → Passes (before ++ (v ++ post)) shown (after ++ (v ++ post))

/-- The pass over a message with a secret in it does not show the secret. -/
def Hidden (before post : List Char) : Prop :=
  ∃ out, ∀ v, Simple v → maskAssignments (before ++ (v ++ post)) = out

private theorem ComesTo.trans {before between after : List Char} (h : ComesTo before between post)
    (h' : ComesTo between after post) : ComesTo before after post := by
  obtain ⟨shown, hp⟩ := h
  obtain ⟨more, hp'⟩ := h'
  exact ⟨shown ++ more, fun v hv ↦ (hp v hv).trans (hp' v hv)⟩

/-- A secret that is not shown from some place on is not shown. -/
theorem ComesTo.hidden {before after : List Char} (h : ComesTo before after post)
    (h' : Hidden after post) : Hidden before post := by
  obtain ⟨shown, hp⟩ := h
  obtain ⟨out, ho⟩ := h'
  exact ⟨shown ++ out, fun v hv ↦ by rw [(hp v hv).mask_eq, ho v hv]⟩

private theorem comesTo_self (before post : List Char) : ComesTo before before post :=
  ⟨[], fun _ _ ↦ .here _⟩

/-- An assignment that reaches over a secret hides it. -/
theorem hidden_of_across {kept rest : List Char}
    (h : ∀ v, Simple v → assignment? (a ++ (v ++ post)) = some (kept, rest)) : Hidden a post :=
  ⟨_, fun v hv ↦ maskAssignments_of_some (h v hv)⟩

/-- Let something stand in front of a secret that is more than a word. Either the secret is not shown,
or the pass comes to what stands there, or a value ends within it and the pass comes to this place. -/
theorem hidden_or_comesTo {near : List Char} (hn : ∃ c ∈ near, isWordChar c = false)
    (before post : List Char) :
    Hidden (before ++ near) post ∨ ComesTo (before ++ near) near post ∨
      ∃ q r, near = q ++ r ∧ Ends q r ∧ ComesTo (before ++ near) r post := by
  induction hl : before.length using Nat.strongRecOn generalizing before with
  | ind n ih =>
    -- what is left of `before` after one step of the pass has the same three ways
    have hlater : ∀ later, later.length < n →
        ComesTo (before ++ near) (later ++ near) post →
        Hidden (before ++ near) post ∨ ComesTo (before ++ near) near post ∨
          ∃ q r, near = q ++ r ∧ Ends q r ∧ ComesTo (before ++ near) r post := by
      intro later hlt hstep
      rcases ih later.length hlt later rfl with h | h | ⟨q, r, hq, he, h⟩
      · exact Or.inl (hstep.hidden h)
      · exact Or.inr (Or.inl (hstep.trans h))
      · exact Or.inr (Or.inr ⟨q, r, hq, he, hstep.trans h⟩)
    cases before with
    | nil => exact Or.inr (Or.inl (comesTo_self near post))
    | cons c before =>
      obtain ⟨d, hd, hdw⟩ := hn
      obtain ⟨kept, hreach⟩ :=
        reach_assignment ⟨d, List.mem_append_right (c :: before) hd, hdw⟩ post
      cases hreach with
      | never h =>
        refine hlater before (by rw [← hl]; exact Nat.lt_succ_self _) ?_
        exact ⟨[c], fun v hv ↦ .char (h v hv) (.here _)⟩
      | across rest h => exact Or.inl (hidden_of_across h)
      | before q r ha hq he h =>
        have hcomes : ComesTo (c :: before ++ near) r post :=
          ⟨_, fun v hv ↦ .assignment (h v hv) (.here _)⟩
        rcases List.append_eq_append_iff.mp ha with ⟨x, hx, hnear⟩ | ⟨later, hb, rfl⟩
        · by_cases hempty : x = []
          · subst hempty
            rw [List.nil_append] at hnear
            exact Or.inr (Or.inl (hnear ▸ hcomes))
          · rw [hx] at he
            exact Or.inr (Or.inr ⟨x, r, hnear, he.of_append hempty, hcomes⟩)
        · refine hlater later ?_ hcomes
          rw [← hl, hb, List.length_append]
          have := List.length_pos_iff.mpr hq
          omega

end Secret

end LayeredConfig
