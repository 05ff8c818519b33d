import LayeredConfig.Parameter
import LayeredConfig.Secret.Mask

/-!
# Messages without secrets

A failing source may quote the line or the variable that it could not read. Two passes mask what such
a message gives away: first the value of every assignment to the name of a secret, then the password
of every address that holds one. A pass goes from left to right; what it has matched it does not
look at again.
-/

namespace LayeredConfig.Secret

/-- Lower case as names of secrets are recognised: the long s and the Kelvin sign count as letters
of ASCII. -/
def fold (c : Char) : Char :=
  if c.toNat = 0x17F then 's' else if c.toNat = 0x212A then 'k' else c.toLower

/-- Letters, digits and the underscore of ASCII, as `fold` sees them. -/
def isWordChar (c : Char) : Bool :=
  let c := fold c
  c.isAlpha || c.isDigit || c == '_'

/-- Whether a word ends in the name of a secret. -/
def namesSecret (word : List Char) : Bool :=
  let word := word.map fold
  Parameter.secretWords.any fun w ↦ w.toList.isSuffixOf word

/-- Characters of a value without quotes. -/
def isBare (c : Char) : Bool := !Text.isBlank c && c != ',' && c != ';' && c != '&'

/-- What follows the quote that closes a quoted value. -/
def afterQuote? (quote : Char) (s : List Char) : Option (List Char) :=
  match s.dropWhile fun c ↦ c != quote with
  | [] => none
  | _ :: rest => some rest

/-- What follows a value without quotes, which has at least one character. -/
def afterBare? : List Char → Option (List Char)
  | [] => none
  | c :: rest => if isBare c then some (rest.dropWhile isBare) else none

/-- What follows a value; a quote that is never closed begins a value without quotes. -/
def afterValue? : List Char → Option (List Char)
  | [] => none
  | c :: rest =>
    if c = '"' ∨ c = '\'' then afterQuote? c rest <|> afterBare? (c :: rest)
    else afterBare? (c :: rest)

/-- The separator of an assignment at the head, and what follows it: blanks, `=` or `:`, blanks. -/
def separator? (s : List Char) : Option (List Char × List Char) :=
  let blanks := s.takeWhile Text.isBlank
  match s.dropWhile Text.isBlank with
  | [] => none
  | c :: rest =>
    if c = '=' ∨ c = ':' then
      some (blanks ++ c :: rest.takeWhile Text.isBlank, rest.dropWhile Text.isBlank)
    else none

/-- A quote that may close the name of a secret, and what follows. -/
def closingQuote : List Char → List Char × List Char
  | '"' :: rest => (['"'], rest)
  | s => ([], s)

/-- An assignment to the name of a secret at the head: what of it may be shown, and what follows. -/
def assignment? (s : List Char) : Option (List Char × List Char) :=
  let word := s.takeWhile isWordChar
  if namesSecret word then
    let (quote, rest) := closingQuote (s.dropWhile isWordChar)
    match separator? rest with
    | none => none
    | some (separator, rest) =>
      (afterValue? rest).map fun rest ↦ (word ++ quote ++ separator, rest)
  else none

/-- Characters of a user name in an address. -/
def isUserChar (c : Char) : Bool := c != ':' && c != '/' && c != '@' && !Text.isBlank c

/-- Characters of a password in an address. -/
def isPasswordChar (c : Char) : Bool := c != '/' && c != '@' && !Text.isBlank c

/-- A user name and password of an address at the head: what of it may be shown, and what follows. -/
def userinfo? : List Char → Option (List Char × List Char)
  | ':' :: '/' :: '/' :: s =>
    let user := s.takeWhile isUserChar
    match s.dropWhile isUserChar with
    | ':' :: rest =>
      match rest.dropWhile isPasswordChar with
      | '@' :: after =>
        if user.isEmpty || (rest.takeWhile isPasswordChar).isEmpty then none
        else some (':' :: '/' :: '/' :: user ++ [':'], '@' :: after)
      | _ => none
    | _ => none
  | _ => none

private theorem length_dropWhile_le (p : Char → Bool) (s : List Char) :
    (s.dropWhile p).length ≤ s.length :=
  (List.dropWhile_suffix p).length_le

private theorem length_afterBare {s rest : List Char} (h : afterBare? s = some rest) :
    rest.length < s.length := by
  cases s with
  | nil => simp [afterBare?] at h
  | cons c s =>
    simp only [afterBare?] at h
    split at h
    · cases h
      have := length_dropWhile_le isBare s
      simp only [List.length_cons]
      omega
    · cases h

private theorem length_afterQuote {q : Char} {s rest : List Char}
    (h : afterQuote? q s = some rest) : rest.length ≤ s.length := by
  unfold afterQuote? at h
  have := length_dropWhile_le (fun c ↦ c != q) s
  split at h
  · cases h
  · next heq =>
    cases h
    rw [heq, List.length_cons] at this
    omega

private theorem length_afterValue {s rest : List Char} (h : afterValue? s = some rest) :
    rest.length < s.length := by
  cases s with
  | nil => simp [afterValue?] at h
  | cons c s =>
    simp only [afterValue?] at h
    split at h
    · cases hq : afterQuote? c s with
      | none =>
        rw [hq] at h
        exact length_afterBare h
      | some r =>
        rw [hq] at h
        cases h
        have := length_afterQuote hq
        simp only [List.length_cons]
        omega
    · exact length_afterBare h

private theorem length_separator {s sep rest : List Char} (h : separator? s = some (sep, rest)) :
    rest.length ≤ s.length := by
  unfold separator? at h
  have h₁ := length_dropWhile_le Text.isBlank s
  split at h
  · cases h
  · next c r heq =>
    split at h
    · cases h
      rw [heq, List.length_cons] at h₁
      have := length_dropWhile_le Text.isBlank r
      omega
    · cases h

private theorem length_closingQuote (s : List Char) : (closingQuote s).2.length ≤ s.length := by
  unfold closingQuote
  split <;> simp

private theorem length_assignment {s kept rest : List Char}
    (h : assignment? s = some (kept, rest)) : rest.length < s.length := by
  unfold assignment? at h
  have h₁ := length_dropWhile_le isWordChar s
  have h₂ := length_closingQuote (s.dropWhile isWordChar)
  simp only at h
  split at h
  · split at h
    · cases h
    · next sep r heq =>
      have h₃ := length_separator heq
      cases hv : afterValue? r with
      | none => simp [hv] at h
      | some r' =>
        simp only [hv, Option.map_some, Option.some.injEq, Prod.mk.injEq] at h
        have := length_afterValue hv
        rw [← h.2]
        omega
  · cases h

/-- User name and password take up at least one character. -/
theorem length_userinfo {s kept rest : List Char} (h : userinfo? s = some (kept, rest)) :
    rest.length < s.length := by
  unfold userinfo? at h
  split at h
  · next s =>
    have h₁ := length_dropWhile_le isUserChar s
    simp only at h
    split at h
    · next r heq =>
      have h₂ := length_dropWhile_le isPasswordChar r
      split at h
      · next after heq' =>
        split at h
        · cases h
        · cases h
          rw [heq, List.length_cons] at h₁
          rw [heq', List.length_cons] at h₂
          simp only [List.length_cons]
          omega
      · cases h
    · cases h
  · cases h

/-- Mask the values of assignments to secrets. A word that is no part of one is passed as a whole:
no part of it would begin one either. See `SPEC_FULL.md:224–225`. -/
def maskAssignments (s : List Char) : List Char :=
  match _h : assignment? s with
  | some (kept, rest) => kept ++ mask.toList ++ maskAssignments rest
  | none =>
    match s with
    | [] => []
    | c :: rest =>
      if isWordChar c then
        c :: rest.takeWhile isWordChar ++ maskAssignments (rest.dropWhile isWordChar)
      else c :: maskAssignments rest
termination_by s.length
decreasing_by
  · exact length_assignment ‹_›
  · have := length_dropWhile_le isWordChar rest
    simp only [List.length_cons]
    omega
  · simp

/-- Mask the passwords in addresses. See `SPEC_FULL.md:225`. -/
def maskAddresses (s : List Char) : List Char :=
  match _h : userinfo? s with
  | some (kept, rest) => kept ++ mask.toList ++ maskAddresses rest
  | none =>
    match s with
    | [] => []
    | c :: rest => c :: maskAddresses rest
termination_by s.length
decreasing_by
  · exact length_userinfo ‹_›
  · simp

/-- A message with its secrets masked. See `SPEC_FULL.md:224–225`, `sanitize_message`. -/
def sanitize (message : String) : String :=
  String.ofList (maskAddresses (maskAssignments message.toList))

end LayeredConfig.Secret
