import LayeredConfig.Proofs.Addresses

/-!
# Secrets in messages

Two messages that differ in one secret only are the same once they are sanitized, unless the secret is
shown. The value of an assignment is shown if and only if the value of an earlier assignment takes in
the name of the secret and ends at a blank of the separator. The password of an address is shown if
and only if there is no user name in front of it, and no assignment takes in the address.
-/

namespace LayeredConfig.Secret

open Text (isBlank)

variable {c : Char} {word sep v w before after post : List Char}

/-- Messages are sanitized alike if what is shown of them is the same. -/
theorem sanitize_eq_iff (s t : String) :
    sanitize s = sanitize t ↔
      maskAddresses (maskAssignments s.toList) = maskAddresses (maskAssignments t.toList) :=
  String.ofList_inj

private theorem head?_ne_slash (hv : Simple v) (post : List Char) :
    (maskAssignments (v ++ post)).head? ≠ some '/' := by
  intro h
  obtain ⟨t, ht⟩ := List.head?_eq_some_iff.mp h
  have hword := takeWhile_maskAssignments (v ++ post)
  rw [ht, List.takeWhile_append_of_pos hv.isWordChar, List.takeWhile_cons_of_neg (by decide)] at hword
  exact hv.ne_nil (List.append_eq_nil_iff.mp hword.symm).1

private theorem eq_of_shown (hv : Simple v) (hw : Simple w)
    (h : maskAddresses (maskAssignments (v ++ post)) = maskAddresses (maskAssignments (w ++ post))) :
    v = w := by
  have hword := congrArg (List.takeWhile isWordChar) h
  rw [takeWhile_maskAddresses, takeWhile_maskAssignments, takeWhile_maskAddresses,
    takeWhile_maskAssignments, List.takeWhile_append_of_pos hv.isWordChar,
    List.takeWhile_append_of_pos hw.isWordChar] at hword
  exact List.append_cancel_right hword

/-- A secret can be told from the message if all that is in front of it is shown as it is by both
passes. -/
theorem eq_of_comesTo {near : List Char} (hword : ∀ c ∈ near, isWordChar c = false)
    (h : ComesTo before near post)
    (hnear : ∀ t, t.head? ≠ some '/' →
      Wall (near ++ t) ∧ maskAddresses (near ++ t) = near ++ maskAddresses t)
    (hv : Simple v) (hw : Simple w)
    (heq : maskAddresses (maskAssignments (before ++ (v ++ post))) =
      maskAddresses (maskAssignments (before ++ (w ++ post)))) : v = w := by
  obtain ⟨shown, hp⟩ := h
  have hmask : ∀ v, Simple v → maskAddresses (maskAssignments (before ++ (v ++ post))) =
      maskAddresses shown ++ (near ++ maskAddresses (maskAssignments (v ++ post))) := by
    intro v hv
    obtain ⟨hwall, hshown⟩ := hnear _ (head?_ne_slash hv post)
    rw [(hp v hv).mask_eq, (passes_of_not_word hword (v ++ post)).mask_eq,
      maskAddresses_append hwall, hshown]
  rw [hmask v hv, hmask w hw] at heq
  exact eq_of_shown hv hw (List.append_cancel_left (List.append_cancel_left heq))

/-! ### Assigned secrets -/

/-- A word by which the name of a secret is recognised, in upper or lower case. -/
def SecretWord (word : List Char) : Prop :=
  ∃ w ∈ Parameter.secretWords, word.map fold = w.toList

/-- The separator of an assignment: blanks, `=` or `:`, blanks. -/
def Separator (sep : List Char) : Prop :=
  ∃ blanks sign more, sep = blanks ++ sign :: more ∧ (∀ c ∈ blanks, isBlank c = true) ∧
    (sign = '=' ∨ sign = ':') ∧ ∀ c ∈ more, isBlank c = true

/-- Such a word has letters only. -/
theorem SecretWord.isWordChar (h : SecretWord word) : ∀ c ∈ word, isWordChar c = true := by
  have hletters : ∀ w ∈ Parameter.secretWords, w.toList.all Char.isAlpha = true := by decide
  obtain ⟨w, hw, hword⟩ := h
  intro c hc
  have hmem : fold c ∈ w.toList := hword ▸ List.mem_map_of_mem hc
  have hletter := List.all_eq_true.mp (hletters w hw) _ hmem
  simp [Secret.isWordChar, hletter]

private theorem SecretWord.namesSecret (h : SecretWord word) : namesSecret word = true := by
  obtain ⟨w, hw, hword⟩ := h
  simp only [Secret.namesSecret, List.any_eq_true, List.isSuffixOf_iff_suffix]
  exact ⟨w, hw, hword ▸ List.suffix_rfl⟩

/-- A separator is made of blanks and its sign. -/
theorem Separator.cases (h : Separator sep) :
    ∀ c ∈ sep, isBlank c = true ∨ c = '=' ∨ c = ':' := by
  obtain ⟨blanks, sign, more, rfl, hblanks, hsign, hmore⟩ := h
  intro c hc
  rcases List.mem_append.mp hc with hc | hc
  · exact Or.inl (hblanks c hc)
  · rcases List.mem_cons.mp hc with rfl | hc
    · exact Or.inr hsign
    · exact Or.inl (hmore c hc)

private theorem Separator.not_word (h : Separator sep) : ∀ c ∈ sep, isWordChar c = false := by
  intro c hc
  rcases h.cases c hc with hb | rfl | rfl
  · exact isWordChar_of_isBlank hb
  · decide
  · decide

/-- A separator begins with something that is neither a quote nor part of a word. -/
theorem Separator.exists_cons (h : Separator sep) :
    ∃ c rest, sep = c :: rest ∧ Secret.isWordChar c = false ∧ c ≠ '"' := by
  obtain ⟨c, rest, rfl⟩ : ∃ c rest, sep = c :: rest := by
    obtain ⟨blanks, sign, more, rfl, -⟩ := h
    exact List.exists_cons_of_ne_nil (List.append_ne_nil_of_right_ne_nil _ (List.cons_ne_nil _ _))
  refine ⟨c, rest, rfl, h.not_word c List.mem_cons_self, ?_⟩
  rintro rfl
  exact absurd (h.cases _ List.mem_cons_self) (by decide)

private theorem Separator.separator?_eq (h : Separator sep) (hc : Secret.isWordChar c = true)
    (t : List Char) : separator? (sep ++ c :: t) = some (sep, c :: t) := by
  rw [separator?_append hc]
  obtain ⟨blanks, sign, more, rfl, hblanks, hsign, hmore⟩ := h
  have hstop : ¬ isBlank sign = true := by rcases hsign with rfl | rfl <;> decide
  have hall : more.takeWhile isBlank = more := List.takeWhile_eq_self_iff.mpr hmore
  have hnil : more.dropWhile isBlank = [] := List.dropWhile_eq_nil_iff.mpr hmore
  rw [separator?, List.takeWhile_append_of_pos hblanks, List.dropWhile_append_of_pos hblanks,
    List.takeWhile_cons_of_neg hstop, List.dropWhile_cons_of_neg hstop]
  simp [hsign, hall, hnil]

/-- The value of an assignment that the first pass comes to is hidden. -/
theorem hidden_of_assignment (hword : ∀ c ∈ word, isWordChar c = true)
    (hn : namesSecret word = true) (hsep : Separator sep) (post : List Char) :
    Hidden (word ++ sep) post := by
  have hassign : ∀ v, Simple v →
      assignment? (word ++ sep ++ (v ++ post)) = some (word ++ sep, post.dropWhile isBare) := by
    intro v hv
    have hvalue := afterValue?_simple hv post
    obtain ⟨d, more, hd, hdw, hdq⟩ := hsep.exists_cons
    obtain ⟨c, rest, rfl, hc⟩ := hv.exists_cons
    have htake : (word ++ sep ++ (c :: rest ++ post)).takeWhile isWordChar = word := by
      rw [hd, List.append_assoc]
      exact Text.takeWhile_append_end hword hdw _
    have hdrop : (word ++ sep ++ (c :: rest ++ post)).dropWhile isWordChar =
        sep ++ (c :: rest ++ post) := by
      rw [hd, List.append_assoc]
      exact Text.dropWhile_append_end hword hdw _
    have hclosing : closingQuote (sep ++ (c :: rest ++ post)) = ([], sep ++ (c :: rest ++ post)) := by
      rw [hd, List.cons_append, closingQuote_of_ne hdq]
    rw [assignment?, htake, hdrop, if_pos hn, hclosing]
    dsimp only
    rw [List.cons_append, hsep.separator?_eq hc]
    rw [List.cons_append] at hvalue
    dsimp only
    rw [hvalue, List.append_nil]
    rfl
  exact hidden_of_across hassign

private theorem exists_blank_of_ends (hword : SecretWord word) (hsep : Separator sep)
    {q r : List Char} (hnear : word ++ sep = q ++ r) (h : Ends q r) :
    ∃ q b rest, r = b :: rest ∧ sep = q ++ b :: rest ∧ isBlank b = true := by
  cases h with
  | @quote q r c hc =>
    -- there are no quotes in names and separators
    have hmem : c ∈ word ++ sep := by
      rw [hnear]
      exact List.mem_append_left r List.mem_concat_self
    rcases List.mem_append.mp hmem with hmem | hmem
    · have hw := hword.isWordChar c hmem
      rcases hc with rfl | rfl <;> exact absurd hw (by decide)
    · have hs := hsep.cases c hmem
      rcases hc with rfl | rfl <;> exact absurd hs (by decide)
  | @bare q r c hc =>
    have hname : c ∉ word := by
      intro hmem
      exact absurd ((isBare_of_isWordChar (hword.isWordChar c hmem)).symm.trans hc) (by decide)
    obtain ⟨q, hq⟩ : ∃ q, sep = q ++ c :: r := by
      rcases List.append_eq_append_iff.mp hnear with ⟨q, -, hq⟩ | ⟨q, hq, hr⟩
      · exact ⟨q, hq⟩
      · cases q with
        | nil => exact ⟨[], hr.symm⟩
        | cons d q =>
          rw [hq, ← (List.cons.inj hr).1] at hname
          exact absurd (List.mem_append_right _ List.mem_cons_self) hname
    refine ⟨q, c, r, rfl, hq, ?_⟩
    rcases hsep.cases c (hq ▸ List.mem_append_right q List.mem_cons_self) with hb | rfl | rfl
    · exact hb
    · exact absurd hc (by decide)
    · exact absurd hc (by decide)

private theorem hidden_or_separated (hword : SecretWord word) (hsep : Separator sep)
    (before post : List Char) :
    Hidden (before ++ (word ++ sep)) post ∨
      ∃ q b rest, sep = q ++ b :: rest ∧ isBlank b = true ∧
        ComesTo (before ++ (word ++ sep)) (b :: rest) post := by
  have hassigned := hidden_of_assignment hword.isWordChar hword.namesSecret hsep post
  have hstop : ∃ c ∈ word ++ sep, isWordChar c = false := by
    obtain ⟨c, rest, rfl, hc, -⟩ := hsep.exists_cons
    exact ⟨c, List.mem_append_right word List.mem_cons_self, hc⟩
  rcases hidden_or_comesTo hstop before post with h | h | ⟨q, r, hnear, hends, h⟩
  · exact Or.inl h
  · exact Or.inl (h.hidden hassigned)
  · obtain ⟨q, b, rest, rfl, hsep, hb⟩ := exists_blank_of_ends hword hsep hnear hends
    exact Or.inr ⟨q, b, rest, hsep, hb, h⟩

private theorem eq_of_separated {b : Char} {rest : List Char} (hb : isBlank b = true)
    (hrest : ∀ c ∈ b :: rest, isBlank c = true ∨ c = '=' ∨ c = ':')
    (h : ComesTo before (b :: rest) post) (hv : Simple v) (hw : Simple w)
    (heq : maskAddresses (maskAssignments (before ++ (v ++ post))) =
      maskAddresses (maskAssignments (before ++ (w ++ post)))) : v = w := by
  have hslash : '/' ∉ b :: rest := fun hmem ↦ absurd (hrest '/' hmem) (by decide)
  have hword : ∀ c ∈ b :: rest, isWordChar c = false := by
    intro c hc
    rcases hrest c hc with hc | rfl | rfl
    · exact isWordChar_of_isBlank hc
    · decide
    · decide
  refine eq_of_comesTo hword h (fun t ht ↦ ⟨.blank hb _, ?_⟩) hv hw heq
  exact maskAddresses_append_of_no_slash hslash ht

/-- Two messages that differ in the value of an assignment to a secret are the same once they are
sanitized, unless the value of an earlier assignment takes in the name and ends at a blank of the
separator. Then both values are shown. -/
theorem sanitize_assigned (pre word sep v w post : String) (hword : SecretWord word.toList)
    (hsep : Separator sep.toList) (hv : Simple v.toList) (hw : Simple w.toList) :
    sanitize (pre ++ word ++ sep ++ v ++ post) = sanitize (pre ++ word ++ sep ++ w ++ post) ↔
      v = w ∨ ¬ ∃ q b rest, sep.toList = q ++ b :: rest ∧ isBlank b = true ∧
        ComesTo (pre ++ word ++ sep).toList (b :: rest) post.toList := by
  have htext : ∀ s : String, (pre ++ word ++ sep ++ s ++ post).toList =
      pre.toList ++ (word.toList ++ sep.toList) ++ (s.toList ++ post.toList) := by
    intro s
    simp only [String.toList_append, List.append_assoc]
  have hbefore : (pre ++ word ++ sep).toList =
      pre.toList ++ (word.toList ++ sep.toList) := by
    simp only [String.toList_append, List.append_assoc]
  rw [sanitize_eq_iff, htext, htext, hbefore]
  constructor
  · intro heq
    by_contra hne
    rw [not_or, not_not] at hne
    obtain ⟨hvw, q, b, rest, hs, hb, hcomes⟩ := hne
    have hrest : ∀ c ∈ b :: rest, isBlank c = true ∨ c = '=' ∨ c = ':' := fun c hc ↦
      hsep.cases c (hs ▸ List.mem_append_right q hc)
    exact hvw (String.toList_inj.mp (eq_of_separated hb hrest hcomes hv hw heq))
  · rintro (rfl | hnone)
    · rfl
    · rcases hidden_or_separated hword hsep pre.toList post.toList with ⟨out, h⟩ | h
      · rw [h v.toList hv, h w.toList hw]
      · exact absurd h hnone

/-- An assigned token is hidden whatever it is: there are no blanks in the separator. -/
theorem sanitize_assigned_token : sanitize "token=a, next" = sanitize "token=b, next" := by
  have ha : Simple "a".toList := ⟨by decide, List.all_eq_true.mp (by decide)⟩
  have hb : Simple "b".toList := ⟨by decide, List.all_eq_true.mp (by decide)⟩
  have hword : SecretWord "token".toList := ⟨"token", by decide, by decide⟩
  have hsep : Separator "=".toList := ⟨[], '=', [], rfl, by simp, by simp, by simp⟩
  refine (sanitize_assigned "" "token" "=" "a" "b" ", next" hword hsep ha hb).mpr (Or.inr ?_)
  rintro ⟨q, b, rest, hs, hblank, -⟩
  have hmem : b ∈ "=".toList := hs ▸ List.mem_append_right q List.mem_cons_self
  obtain rfl := List.mem_singleton.mp hmem
  exact absurd hblank (by decide)

/-- The value of a token that takes in the name of the password ends at the blank behind it, and the
password is shown. -/
theorem sanitize_assigned_shown :
    sanitize "token=password = a" = "token=**** = a" ∧
      sanitize "token=password = a" ≠ sanitize "token=password = b" := by
  decide +kernel

/-! ### Passwords in addresses -/

variable {user : List Char}

/-- What stands in front of the password of an address. -/
def addressStart (user : List Char) : List Char := [':', '/', '/'] ++ (user ++ [':'])

/-- A colon and the slashes are part of no word. -/
theorem isWordChar_of_slashes : ∀ c ∈ [':', '/', '/'], isWordChar c = false := by
  rw [List.forall_mem_cons, List.forall_mem_cons, List.forall_mem_singleton]
  decide

/-- The password of an address is hidden, or the first pass comes to the address. -/
theorem hidden_or_address (hu : ∀ c ∈ user, isWordChar c = true) (before post : List Char) :
    Hidden (before ++ addressStart user) post ∨
      ComesTo (before ++ addressStart user) (addressStart user) post := by
  have hchars : ∀ c ∈ addressStart user, isBare c = true ∧ c ≠ '"' ∧ c ≠ '\'' := by
    rw [addressStart, List.forall_mem_append, List.forall_mem_append, List.forall_mem_singleton]
    refine ⟨?_, fun c hc ↦ ?_, by decide⟩
    · rw [List.forall_mem_cons, List.forall_mem_cons, List.forall_mem_singleton]
      decide
    · have hw := hu c hc
      have hdouble := ne_of_isWordChar hw (show isWordChar '"' = false by decide)
      exact ⟨isBare_of_isWordChar hw, hdouble, ne_of_isWordChar hw (by decide)⟩
  have hstop : ∃ c ∈ addressStart user, isWordChar c = false :=
    ⟨':', List.mem_cons_self, by decide⟩
  rcases hidden_or_comesTo hstop before post with h | h | ⟨q, r, hnear, hends, -⟩
  · exact Or.inl h
  · exact Or.inr h
  · -- no value ends within the address
    rw [hnear] at hchars
    cases hends with
    | @quote q r c hc =>
      obtain ⟨-, hd, hs⟩ := hchars c (List.mem_append_left r List.mem_concat_self)
      rcases hc with hc | hc
      · exact absurd hc hd
      · exact absurd hc hs
    | @bare q r c hc =>
      obtain ⟨hb, -⟩ := hchars c (List.mem_append_right q List.mem_cons_self)
      exact absurd (hb.symm.trans hc) (by decide)

/-- A word that begins no assignment is passed and shown. -/
theorem passes_of_word (hword : ∀ c ∈ word, isWordChar c = true) {t : List Char}
    (h : assignment? (word ++ t) = none) : Passes (word ++ t) word t := by
  induction word with
  | nil => exact .here t
  | cons c word ih =>
    rw [List.forall_mem_cons] at hword
    exact .char h (ih hword.2 (assignment?_of_cons hword.1 h))

private theorem hidden_or_passes (hu : ∀ c ∈ user, isWordChar c = true) (post : List Char) :
    Hidden (addressStart user) post ∨
      ∀ t, Passes (addressStart user ++ t) (addressStart user) t := by
  have hcolon : ∀ c ∈ [':'], isWordChar c = false := List.forall_mem_singleton.mpr (by decide)
  by_cases hn : namesSecret user = true
  · left
    have hsep : Separator [':'] := ⟨[], ':', [], rfl, by simp, by simp, by simp⟩
    have hcomes : ComesTo (addressStart user) (user ++ [':']) post := by
      refine ⟨[':', '/', '/'], fun v _ ↦ ?_⟩
      rw [addressStart, List.append_assoc]
      exact passes_of_not_word isWordChar_of_slashes _
    exact hcomes.hidden (hidden_of_assignment hu hn hsep post)
  · right
    intro t
    have hnone : assignment? (user ++ ':' :: t) = none := by
      rw [assignment?, Text.takeWhile_append_end hu (by decide)]
      exact if_neg hn
    rw [addressStart, List.append_assoc, List.append_assoc]
    exact (passes_of_not_word isWordChar_of_slashes _).trans
      ((passes_of_word hu hnone).trans (passes_of_not_word hcolon t))

private theorem passes_of_password (hv : Simple v) (post : List Char) :
    Passes (v ++ '@' :: post) (v ++ ['@']) post := by
  have hnone : assignment? (v ++ '@' :: post) = none := by
    rw [assignment?, Text.takeWhile_append_end hv.isWordChar (by decide),
      Text.dropWhile_append_end hv.isWordChar (by decide), closingQuote_of_ne (by decide)]
    split <;> rfl
  exact (passes_of_word hv.isWordChar hnone).trans
    (.char (assignment?_of_not_word (by decide) post) (.here post))

private theorem userinfo?_addressStart (hu : ∀ c ∈ user, isWordChar c = true) (hv : Simple v)
    (hne : user ≠ []) (t : List Char) :
    userinfo? (addressStart user ++ (v ++ '@' :: t)) = some (addressStart user, '@' :: t) := by
  have huser := fun c hc ↦ isUserChar_of_isWordChar (hu c hc)
  have hpassword := fun c hc ↦ isPasswordChar_of_isWordChar (hv.isWordChar c hc)
  have hafter : userinfo? (addressStart user ++ (v ++ '@' :: t)) =
      afterUser? user (':' :: (v ++ '@' :: t)) := by
    rw [addressStart, List.append_assoc, List.append_assoc]
    change userinfo? (':' :: '/' :: '/' :: (user ++ ':' :: (v ++ '@' :: t))) = _
    rw [userinfo?_eq, Text.takeWhile_append_end huser (by decide),
      Text.dropWhile_append_end huser (by decide)]
  rw [hafter, afterUser?_colon, Text.takeWhile_append_end hpassword (by decide),
    Text.dropWhile_append_end hpassword (by decide), if_pos ⟨rfl, hne, hv.ne_nil⟩]
  rfl

private theorem masked_of_user (hu : ∀ c ∈ user, isWordChar c = true) (hne : user ≠ [])
    (before post : List Char) :
    ∃ out, ∀ v, Simple v →
      maskAddresses (maskAssignments (before ++ addressStart user ++ (v ++ '@' :: post))) = out := by
  have hhidden : Hidden (before ++ addressStart user) ('@' :: post) → ∃ out, ∀ v, Simple v →
      maskAddresses (maskAssignments (before ++ addressStart user ++ (v ++ '@' :: post))) = out :=
    fun ⟨out, h⟩ ↦ ⟨maskAddresses out, fun v hv ↦ congrArg maskAddresses (h v hv)⟩
  rcases hidden_or_address hu before ('@' :: post) with h | h
  · exact hhidden h
  · rcases hidden_or_passes hu ('@' :: post) with h' | h'
    · exact hhidden (h.hidden h')
    · obtain ⟨shown, hp⟩ := h
      refine ⟨maskAddresses shown ++ (addressStart user ++ mask.toList ++
        maskAddresses ('@' :: maskAssignments post)), fun v hv ↦ ?_⟩
      have hwall : Wall (addressStart user ++ (v ++ '@' :: maskAssignments post)) := .address _
      rw [(hp v hv).mask_eq, (h' _).mask_eq, (passes_of_password hv post).mask_eq,
        List.append_assoc v, List.singleton_append, maskAddresses_append hwall,
        maskAddresses_of_some (userinfo?_addressStart hu hv hne _)]

private theorem maskAddresses_addressStart {t : List Char} (ht : t.head? ≠ some '/') :
    maskAddresses (addressStart [] ++ t) = addressStart [] ++ maskAddresses t := by
  have hnone : userinfo? (':' :: '/' :: '/' :: ':' :: t) = none := by
    rw [userinfo?_eq, List.takeWhile_cons_of_neg (by decide), List.dropWhile_cons_of_neg (by decide),
      afterUser?_colon, if_neg fun h ↦ h.2.1 rfl]
  have hslash : ∀ s, userinfo? ('/' :: s) = none := fun s ↦
    userinfo?_of_not fun ⟨_, h⟩ ↦ absurd (List.cons.inj h).1 (by decide)
  have hcolon : maskAddresses ([':'] ++ t) = [':'] ++ maskAddresses t :=
    maskAddresses_append_of_no_slash (by decide) ht
  calc maskAddresses (':' :: '/' :: '/' :: ':' :: t)
      = ':' :: '/' :: '/' :: maskAddresses ([':'] ++ t) := by
        rw [maskAddresses_cons hnone, maskAddresses_cons (hslash _), maskAddresses_cons (hslash _)]
        rfl
    _ = ':' :: '/' :: '/' :: ':' :: maskAddresses t := by
        rw [hcolon]
        rfl

/-- Two messages that differ in the password of an address are the same once they are sanitized, unless
there is no user name and the first pass comes to the address. Then both passwords are shown. -/
theorem sanitize_address (pre user v w post : String)
    (hu : ∀ c ∈ user.toList, c.isAlphanum = true) (hv : Simple v.toList) (hw : Simple w.toList) :
    sanitize (pre ++ "://" ++ user ++ ":" ++ v ++ "@" ++ post) =
        sanitize (pre ++ "://" ++ user ++ ":" ++ w ++ "@" ++ post) ↔
      v = w ∨ user ≠ "" ∨
        ¬ ComesTo (pre ++ "://:").toList "://:".toList ("@" ++ post).toList := by
  have htext : ∀ s : String, (pre ++ "://" ++ user ++ ":" ++ s ++ "@" ++ post).toList =
      pre.toList ++ addressStart user.toList ++ (s.toList ++ '@' :: post.toList) := by
    intro s
    simp only [String.toList_append, addressStart, List.append_assoc]
    rfl
  have hstart : "://:".toList = addressStart [] := rfl
  have hat : ("@" ++ post).toList = '@' :: post.toList := String.toList_append
  have hword : ∀ c ∈ user.toList, isWordChar c = true := fun c hc ↦
    isWordChar_of_isAlphanum (hu c hc)
  rw [sanitize_eq_iff, htext, htext, String.toList_append, hstart, hat]
  constructor
  · intro heq
    by_contra hne
    simp only [not_or, not_not] at hne
    obtain ⟨hvw, rfl, hcomes⟩ := hne
    have hnear : ∀ c ∈ addressStart [], isWordChar c = false :=
      List.forall_mem_append.mpr ⟨isWordChar_of_slashes, List.forall_mem_singleton.mpr (by decide)⟩
    have heq := eq_of_comesTo hnear hcomes
      (fun t ht ↦ ⟨.address _, maskAddresses_addressStart ht⟩) hv hw heq
    exact hvw (String.toList_inj.mp heq)
  · intro h
    by_cases hne : user = ""
    · subst hne
      rcases h with rfl | hne | hnone
      · rfl
      · exact absurd rfl hne
      · obtain ⟨out, hout⟩ := (hidden_or_address hword pre.toList _).resolve_right hnone
        rw [hout v.toList hv, hout w.toList hw]
    · obtain ⟨out, hout⟩ := masked_of_user hword (by simpa using hne) pre.toList post.toList
      rw [hout v.toList hv, hout w.toList hw]

/-- The password of a user is hidden whatever it is. -/
theorem sanitize_address_user : sanitize "https://u:a@host" = sanitize "https://u:b@host" := by
  have ha : Simple "a".toList := ⟨by decide, List.all_eq_true.mp (by decide)⟩
  have hb : Simple "b".toList := ⟨by decide, List.all_eq_true.mp (by decide)⟩
  exact (sanitize_address "https" "u" "a" "b" "host" (List.all_eq_true.mp (by decide)) ha hb).mpr
    (Or.inr (Or.inl (by decide)))

/-- A password without a user name in front of it is shown. -/
theorem sanitize_address_shown :
    sanitize "redis://:a@host" = "redis://:a@host" ∧
      sanitize "redis://:a@host" ≠ sanitize "redis://:b@host" := by
  decide +kernel

end LayeredConfig.Secret
