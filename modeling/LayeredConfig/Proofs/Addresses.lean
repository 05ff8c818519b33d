import LayeredConfig.Proofs.Scanning

/-!
# Passing over addresses

The second pass masks the passwords of addresses in what the first pass has shown. No address reaches
over a blank or into another address, so what is in front of one of these is masked on its own. Neither
pass changes a word that a text begins with.
-/

namespace LayeredConfig.Secret

open Text (isBlank)

variable {c : Char} {s t : List Char}

/-- Characters of words are characters of passwords. -/
theorem isPasswordChar_of_isWordChar (h : isWordChar c = true) : isPasswordChar c = true := by
  have hblank := isBlank_of_isBare (isBare_of_isWordChar h)
  have hslash : c ≠ '/' := ne_of_isWordChar h (by decide)
  have hat : c ≠ '@' := ne_of_isWordChar h (by decide)
  simp [isPasswordChar, hblank, hslash, hat]

/-- They are also characters of user names. -/
theorem isUserChar_of_isWordChar (h : isWordChar c = true) : isUserChar c = true := by
  have hblank := isBlank_of_isBare (isBare_of_isWordChar h)
  have hcolon : c ≠ ':' := ne_of_isWordChar h (by decide)
  have hslash : c ≠ '/' := ne_of_isWordChar h (by decide)
  have hat : c ≠ '@' := ne_of_isWordChar h (by decide)
  simp [isUserChar, hblank, hcolon, hslash, hat]

/-! ### One step of the pass -/

/-- Nothing is shown of nothing. -/
theorem maskAddresses_nil : maskAddresses [] = [] := by
  rw [maskAddresses]
  rfl

/-- The password of an address at the head is masked, and what follows is masked on its own. -/
theorem maskAddresses_of_some {kept rest : List Char} (h : userinfo? s = some (kept, rest)) :
    maskAddresses s = kept ++ mask.toList ++ maskAddresses rest := by
  rw [maskAddresses]
  split
  · next heq =>
    cases h.symm.trans heq
    rfl
  · next heq => cases h.symm.trans heq

/-- Where there is none, a character is passed. -/
theorem maskAddresses_cons (h : userinfo? (c :: s) = none) :
    maskAddresses (c :: s) = c :: maskAddresses s := by
  rw [maskAddresses]
  split
  · next heq => cases h.symm.trans heq
  · rfl

/-- An address begins with a colon and two slashes, and the colon is shown. -/
theorem exists_of_userinfo {kept rest : List Char} (h : userinfo? s = some (kept, rest)) :
    (∃ address, s = ':' :: '/' :: '/' :: address) ∧ ∃ more, kept = ':' :: more := by
  unfold userinfo? at h
  split at h
  · next address =>
    refine ⟨⟨address, rfl⟩, ?_⟩
    dsimp only at h
    split at h
    · split at h
      · split at h
        · cases h
        · cases h
          exact ⟨_, rfl⟩
      · cases h
    · cases h
  · cases h

/-- What does not begin so is no address. -/
theorem userinfo?_of_not (h : ¬ ∃ rest, s = ':' :: '/' :: '/' :: rest) : userinfo? s = none := by
  cases he : userinfo? s with
  | none => rfl
  | some e => exact absurd (exists_of_userinfo he).1 h

/-- A text without slashes holds no address, and no address begins in it if no slash follows. -/
theorem maskAddresses_append_of_no_slash (hs : '/' ∉ s) (ht : t.head? ≠ some '/') :
    maskAddresses (s ++ t) = s ++ maskAddresses t := by
  induction s with
  | nil => rfl
  | cons c s ih =>
    rw [List.mem_cons, not_or] at hs
    rw [List.cons_append, maskAddresses_cons, ih hs.2, List.cons_append]
    apply userinfo?_of_not
    rintro ⟨rest, heq⟩
    have htail := (List.cons.inj heq).2
    cases s with
    | nil =>
      rw [List.nil_append] at htail
      rw [htail] at ht
      exact ht rfl
    | cons d s =>
      rw [(List.cons.inj htail).1, List.mem_cons, not_or] at hs
      exact hs.2.1 rfl

/-! ### Where no address reaches -/

/-- What no address reaches into from in front of it: it begins with a blank, or like an address. -/
inductive Wall : List Char → Prop where
  | blank {b : Char} (hb : isBlank b = true) (rest : List Char) : Wall (b :: rest)
  | address (rest : List Char) : Wall (':' :: '/' :: '/' :: rest)

private theorem Wall.exists_cons (h : Wall t) :
    ∃ c rest, t = c :: rest ∧ isUserChar c = false ∧ c ≠ '/' := by
  cases h with
  | blank hb rest =>
    refine ⟨_, rest, rfl, ?_, ?_⟩
    · simp [isUserChar, hb]
    · rintro rfl
      exact absurd hb (by decide)
  | address rest => exact ⟨':', _, rfl, by decide, by decide⟩

private theorem Wall.head_dropWhile (h : Wall t) :
    (t.dropWhile isPasswordChar).head? ≠ some '@' := by
  cases h with
  | @blank b hb rest =>
    have hp : ¬ isPasswordChar b = true := by simp [isPasswordChar, hb]
    rw [List.dropWhile_cons_of_neg hp, List.head?_cons, Ne, Option.some.injEq]
    rintro rfl
    exact absurd hb (by decide)
  | address rest =>
    have hc : isPasswordChar ':' = true := by decide
    have hs : ¬ isPasswordChar '/' = true := by decide
    rw [List.dropWhile_cons_of_pos hc, List.dropWhile_cons_of_neg hs, List.head?_cons]
    decide

/-- The rest of an address behind its user name: what of it may be shown, and what follows. -/
def afterUser? (user : List Char) : List Char → Option (List Char × List Char)
  | ':' :: rest =>
    match rest.dropWhile isPasswordChar with
    | '@' :: after =>
      if user.isEmpty || (rest.takeWhile isPasswordChar).isEmpty then none
      else some (':' :: '/' :: '/' :: user ++ [':'], '@' :: after)
    | _ => none
  | _ => none

/-- An address is a user name and what is behind it. -/
theorem userinfo?_eq (s : List Char) : userinfo? (':' :: '/' :: '/' :: s) =
    afterUser? (s.takeWhile isUserChar) (s.dropWhile isUserChar) := rfl

private theorem afterUser?_of_ne (hc : c ≠ ':') (user s : List Char) :
    afterUser? user (c :: s) = none := by
  unfold afterUser?
  split
  · next heq => exact absurd (List.cons.inj heq).1 hc
  · rfl

/-- Behind a colon there has to be a password that ends in front of an at sign. -/
theorem afterUser?_colon (user s : List Char) :
    afterUser? user (':' :: s) =
      if (s.dropWhile isPasswordChar).head? = some '@' ∧ user ≠ [] ∧
          s.takeWhile isPasswordChar ≠ [] then
        some (':' :: '/' :: '/' :: user ++ [':'], s.dropWhile isPasswordChar)
      else none := by
  rw [afterUser?]
  split
  · next after heq =>
    rw [heq]
    cases user <;> cases s.takeWhile isPasswordChar <;> simp
  · next hne =>
    rw [if_neg]
    rintro ⟨hat, -⟩
    obtain ⟨after, heq⟩ := List.head?_eq_some_iff.mp hat
    exact hne after heq

private theorem afterUser?_append (h : Wall t) (user s : List Char) :
    afterUser? user (s ++ t) = (afterUser? user s).map fun e ↦ (e.1, e.2 ++ t) := by
  cases s with
  | nil =>
    cases h with
    | blank hb rest =>
      apply afterUser?_of_ne
      rintro rfl
      exact absurd hb (by decide)
    | address rest => rfl
  | cons c s =>
    rw [List.cons_append]
    by_cases hc : c = ':'
    · subst hc
      rw [afterUser?_colon, afterUser?_colon]
      by_cases hstop : ∃ d ∈ s, isPasswordChar d = false
      · obtain ⟨d, r, hr⟩ := List.exists_cons_of_ne_nil (Text.dropWhile_ne_nil_of_stop hstop)
        rw [Text.takeWhile_append_of_stop hstop, Text.dropWhile_append_of_stop hstop, hr]
        have hhead : (d :: r ++ t).head? = (d :: r).head? := rfl
        rw [hhead]
        split <;> rfl
      · have hall : ∀ d ∈ s, isPasswordChar d = true := by simpa using hstop
        have hnil : s.dropWhile isPasswordChar = [] := List.dropWhile_eq_nil_iff.mpr hall
        rw [List.dropWhile_append_of_pos hall, hnil, if_neg fun hat ↦ h.head_dropWhile hat.1]
        simp
    · rw [afterUser?_of_ne hc, afterUser?_of_ne hc]
      rfl

private theorem userinfo?_append (h : Wall t) (hs : s ≠ []) :
    userinfo? (s ++ t) = (userinfo? s).map fun e ↦ (e.1, e.2 ++ t) := by
  obtain ⟨c, rest, ht, hc, hslash⟩ := h.exists_cons
  by_cases hstart : ∃ rest, s = ':' :: '/' :: '/' :: rest
  · obtain ⟨s, rfl⟩ := hstart
    rw [List.cons_append, List.cons_append, List.cons_append, userinfo?_eq, userinfo?_eq,
      ← afterUser?_append h, ht, Text.takeWhile_append_cons hc, Text.dropWhile_append_cons hc]
  · rw [userinfo?_of_not hstart, userinfo?_of_not]
    · rfl
    · rintro ⟨rest', heq⟩
      match s with
      | [] => exact hs rfl
      | [d] =>
        rw [ht] at heq
        exact hslash (List.cons.inj (List.cons.inj heq).2).1
      | [d, e] =>
        rw [ht] at heq
        exact hslash (List.cons.inj (List.cons.inj (List.cons.inj heq).2).2).1
      | d :: e :: f :: s =>
        apply hstart
        simp only [List.cons_append, List.cons.injEq] at heq
        obtain ⟨rfl, rfl, rfl, -⟩ := heq
        exact ⟨s, rfl⟩

/-- What is in front of a wall is masked on its own. -/
theorem maskAddresses_append (h : Wall t) (s : List Char) :
    maskAddresses (s ++ t) = maskAddresses s ++ maskAddresses t := by
  induction hl : s.length using Nat.strongRecOn generalizing s with
  | ind n ih =>
    cases s with
    | nil => rw [maskAddresses_nil, List.nil_append, List.nil_append]
    | cons c s =>
      have happend := userinfo?_append h (List.cons_ne_nil c s)
      cases hu : userinfo? (c :: s) with
      | none =>
        rw [hu, Option.map_none] at happend
        rw [List.cons_append] at happend ⊢
        rw [maskAddresses_cons happend, maskAddresses_cons hu,
          ih s.length (by rw [← hl]; exact Nat.lt_succ_self _) s rfl, List.cons_append]
      | some e =>
        obtain ⟨kept, rest⟩ := e
        rw [hu, Option.map_some] at happend
        have hlt := length_userinfo hu
        rw [maskAddresses_of_some happend, maskAddresses_of_some hu,
          ih rest.length (hl ▸ hlt) rest rfl, ← List.append_assoc]

/-! ### Words at the head -/

private theorem exists_word {kept rest : List Char} (h : assignment? s = some (kept, rest)) :
    ∃ c separator, kept = s.takeWhile isWordChar ++ c :: separator ∧ isWordChar c = false := by
  rw [assignment?] at h
  split at h
  · dsimp only at h
    split at h
    · cases h
    · next separator after hs =>
      obtain ⟨_, -, h⟩ := Option.map_eq_some_iff.mp h
      obtain ⟨heq, hne⟩ := separator?_eq hs
      have hshown := closingQuote_eq (s.dropWhile isWordChar)
      rw [heq, ← List.append_assoc] at hshown
      obtain ⟨c, more, hc⟩ := List.exists_cons_of_ne_nil
        (List.append_ne_nil_of_right_ne_nil (closingQuote (s.dropWhile isWordChar)).1 hne)
      rw [hc] at hshown
      refine ⟨c, more, ?_, Text.not_of_dropWhile_eq_cons hshown.symm⟩
      rw [← hc, ← (Prod.mk.inj h).1, List.append_assoc]
  · cases h

/-- The first pass keeps the word at the head. -/
theorem takeWhile_maskAssignments (s : List Char) :
    (maskAssignments s).takeWhile isWordChar = s.takeWhile isWordChar := by
  induction s with
  | nil => rw [maskAssignments_nil]
  | cons c s ih =>
    cases h : assignment? (c :: s) with
    | none => rw [maskAssignments_cons h, List.takeWhile_cons, List.takeWhile_cons, ih]
    | some e =>
      obtain ⟨kept, rest⟩ := e
      obtain ⟨d, separator, rfl, hd⟩ := exists_word h
      rw [maskAssignments_of_some h, List.append_assoc, List.append_assoc, List.cons_append,
        Text.takeWhile_append_cons hd, List.takeWhile_idem]

/-- So does the second. -/
theorem takeWhile_maskAddresses (s : List Char) :
    (maskAddresses s).takeWhile isWordChar = s.takeWhile isWordChar := by
  have hcolon : ¬ isWordChar ':' = true := by decide
  induction s with
  | nil => rw [maskAddresses_nil]
  | cons c s ih =>
    cases h : userinfo? (c :: s) with
    | none => rw [maskAddresses_cons h, List.takeWhile_cons, List.takeWhile_cons, ih]
    | some e =>
      obtain ⟨kept, rest⟩ := e
      obtain ⟨⟨address, hs⟩, more, rfl⟩ := exists_of_userinfo h
      rw [maskAddresses_of_some h, hs, List.takeWhile_cons_of_neg hcolon]
      exact List.takeWhile_cons_of_neg hcolon

end LayeredConfig.Secret
