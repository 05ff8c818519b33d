import LayeredConfig.Proofs.Placeholders
import LayeredConfig.Settings.Load

/-!
# Settings texts that say nothing

A text of empty lines and comments names no variables, and as a document it has no entries. Settings
are read from it as if there were no text.
-/

namespace LayeredConfig

/-- A scan that goes on where another one has stopped. -/
theorem Scan.bind_of_ok {α β : Type} {scan : Scan α} {next : α → Scan β} {s rest : List Char}
    {a : α} (h : scan s = .ok (a, rest)) : (scan >>= next) s = next a rest := by
  change (scan s >>= fun r ↦ next r.1 r.2) = next a rest
  rw [h]
  rfl

namespace Toml

/-- Whether a line says nothing: there are spaces on it, and perhaps a comment. -/
def isSilent (line : List Char) : Bool :=
  match line.dropWhile isSpace with
  | [] => true
  | c :: text => c == '#' && text.all isPlain

variable {line more : List Char} {lines : List (List Char)}

/-- A silent line has spaces only, or a comment after its spaces. -/
theorem isSilent_iff :
    isSilent line = true ↔ (∀ c ∈ line, isSpace c = true) ∨
      ∃ text, line.dropWhile isSpace = '#' :: text ∧ ∀ c ∈ text, isPlain c = true := by
  rw [isSilent, ← List.dropWhile_eq_nil_iff]
  cases line.dropWhile isSpace with
  | nil => simp
  | cons c text =>
    rw [Bool.and_eq_true, beq_iff_eq, List.all_eq_true]
    simp

/-- The text of some lines, each with its break. -/
def broken (lines : List (List Char)) : List Char := lines.flatMap fun line ↦ line ++ ['\n']

private theorem endLine_comment {text : List Char} (h : ∀ c ∈ text, isPlain c = true)
    (more : List Char) : endLine ('#' :: (text ++ '\n' :: more)) = .ok ((), more) := by
  have hskip : Scan.skipWhile isPlain (text ++ '\n' :: more) = .ok ((), '\n' :: more) := by
    rw [Scan.skipWhile, Text.dropWhile_append_end h rfl]
  have hspaces : spaces ('#' :: (text ++ '\n' :: more)) = .ok ((), '#' :: (text ++ '\n' :: more)) :=
    rfl
  have haccept : Scan.accept ['#'] ('#' :: (text ++ '\n' :: more)) =
      .ok (true, text ++ '\n' :: more) := rfl
  rw [endLine, Scan.bind_of_ok hspaces, Scan.bind_of_ok haccept, if_pos rfl, Scan.bind_of_ok hskip]
  rfl

private theorem document_silent (d : Document) (h : isSilent line = true) (fuel : Nat)
    (more : List Char) : document d (fuel + 1) (line ++ '\n' :: more) = document d fuel more := by
  have hspaces : spaces (line ++ '\n' :: more) =
      .ok ((), line.dropWhile isSpace ++ '\n' :: more) := by
    rw [spaces, Scan.skipWhile, Text.dropWhile_append_cons rfl]
  rw [document, Scan.bind_of_ok hspaces]
  rcases isSilent_iff.mp h with hblank | ⟨text, htext, hplain⟩
  · rw [List.dropWhile_eq_nil_iff.mpr hblank, List.nil_append]
    rfl
  · have hpeek : Scan.peek ('#' :: (text ++ '\n' :: more)) =
        .ok (some '#', '#' :: (text ++ '\n' :: more)) := rfl
    rw [htext, List.cons_append, Scan.bind_of_ok hpeek]
    simp only [true_or, if_true]
    rw [Scan.bind_of_ok (endLine_comment hplain more)]

private theorem document_broken (d : Document) {lines : List (List Char)}
    (h : ∀ line ∈ lines, isSilent line = true) {fuel : Nat} (hf : lines.length ≤ fuel) :
    document d fuel (broken lines) = .ok (d, []) := by
  induction lines generalizing fuel with
  | nil => cases fuel <;> rfl
  | cons line lines ih =>
    obtain ⟨hl, hs⟩ := List.forall_mem_cons.mp h
    cases fuel with
    | zero => exact absurd hf (Nat.not_succ_le_zero _)
    | succ fuel =>
      rw [broken, List.flatMap_cons, List.append_assoc, List.singleton_append,
        document_silent d hl, ← broken, ih hs (Nat.le_of_succ_le_succ hf)]

private theorem length_le_broken (lines : List (List Char)) :
    lines.length ≤ (broken lines).length := by
  induction lines with
  | nil => exact Nat.zero_le _
  | cons line lines ih =>
    rw [broken, List.flatMap_cons, ← broken, List.length_append, List.length_append,
      List.length_cons, List.length_singleton]
    omega

private theorem broken_ne_mark (h : ∀ line ∈ lines, isSilent line = true) (rest : List Char) :
    broken lines ≠ '\ufeff' :: rest := by
  intro he
  cases lines with
  | nil => cases he
  | cons line lines =>
    have hl := h line List.mem_cons_self
    cases line with
    | nil => cases he
    | cons c line =>
      cases he
      exact Bool.eq_false_iff.mp rfl hl

private theorem readPlain_broken (h : ∀ line ∈ lines, isSilent line = true) :
    readPlain (String.ofList (broken lines)) = .ok [] := by
  have hd := document_broken {} h (length_le_broken lines)
  have htree : readTree (String.ofList (broken lines)) = .ok [] := by
    rw [readTree, String.toList_ofList]
    split
    · next cs hcs => exact absurd hcs (broken_ne_mark h cs)
    · rw [Scan.readAll, hd]
      rfl
  rw [readPlain, htree]
  rfl

end Toml

namespace Placeholder

open Toml (isSilent broken)

variable {line : List Char} {lines : List (List Char)}

private theorem isBlank_of_isSpace {c : Char} (h : Toml.isSpace c = true) :
    Text.isBlank c = true := by
  rw [Toml.isSpace, Bool.or_eq_true, beq_iff_eq, beq_iff_eq] at h
  rcases h with rfl | rfl <;> rfl

/-- A silent line is a comment, or names no variables. -/
theorem isComment_or_names_eq_nil (h : isSilent line = true) :
    isComment line = true ∨ names line = [] := by
  rcases Toml.isSilent_iff.mp h with hblank | ⟨text, htext, -⟩
  · right
    have hdollar : '$' ∉ line := by
      intro hd
      exact absurd (hblank _ hd) (by decide)
    have hnames := names_append hdollar []
    rw [List.append_nil] at hnames
    exact hnames
  · left
    have hline : line = line.takeWhile Toml.isSpace ++ '#' :: text := by
      rw [← htext, List.takeWhile_append_dropWhile]
    have hblank : ∀ c ∈ line.takeWhile Toml.isSpace, Text.isBlank c = true := fun c hc ↦
      isBlank_of_isSpace (List.mem_takeWhile_imp hc)
    rw [isComment, hline, Text.trimStart, Text.dropWhile_append_end hblank rfl]
    rfl

private theorem replaceLine_of_isSilent (lookup : String → Option String)
    (h : isSilent line = true) : replaceLine lookup line = line := by
  rw [replaceLine]
  rcases isComment_or_names_eq_nil h with hc | hn
  · rw [if_pos hc]
  · rw [hn, List.foldl_nil, ite_self]

private theorem allNames_of_isSilent (h : ∀ line ∈ lines, isSilent line = true) :
    allNames lines = [] := by
  rw [allNames, List.flatMap_eq_nil_iff]
  intro line hl
  obtain ⟨hl, hc⟩ := List.mem_filter.mp hl
  rcases isComment_or_names_eq_nil (h line hl) with hc' | hn
  · rw [hc'] at hc
    cases hc
  · rw [hn, List.map_nil]

/-- A text of silent lines stays as it is but for its line breaks. -/
theorem substitute_of_isSilent (lookup : String → Option String) {text : String}
    (h : ∀ line ∈ Text.lines text.toList, isSilent line = true) :
    substitute lookup text = .ok (String.ofList (broken (Text.lines text.toList))) := by
  have hlines : (Text.lines text.toList).flatMap (fun line ↦ replaceLine lookup line ++ ['\n']) =
      broken (Text.lines text.toList) :=
    List.flatMap_congr fun line hl ↦ by rw [replaceLine_of_isSilent lookup (h line hl)]
  rw [substitute]
  simp only [allNames_of_isSilent h, List.filter_nil, hlines]

end Placeholder

/-- Settings in a text of silent lines are the defaults. -/
theorem Settings.parse_of_isSilent (w : World) {text : String}
    (h : ∀ line ∈ Text.lines text.toList, Toml.isSilent line = true) :
    Settings.parse w text = .ok {} := by
  rw [parse, Placeholder.substitute_of_isSilent _ h]
  simp only [ofText, Toml.readPlain_broken h]
  rfl

end LayeredConfig
