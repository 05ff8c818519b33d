import LayeredConfig.Source.File

/-!
# The calls of a file source

Between two calls anything may happen to the file of a source. What the source answers is told from
the outside, by the states in which it was asked about the file: the first of them in which the file
is read, or skipped for its permissions, decides all later answers, and until then each answer is
about the file as it is. The source speaks up about permissions in the states up to that one.
-/

namespace LayeredConfig.FileSource

/-! ### What stands at the path -/

/-- What a source finds at its path when it remembers nothing. -/
inductive Finding where
  | missing
  | skipped
  | unreadable (cause : FileError)
  | illegible (fault : Fault)
  | legible (t : Table)

/-- The table that is remembered of a finding. -/
def Finding.kept? : Finding → Option Table
  | .skipped => some []
  | .legible t => some t
  | .missing | .unreadable _ | .illegible _ => none

/-- What a source answers to a finding at a path. -/
def Finding.answer (path : String) : Finding → Except Error Table
  | .missing | .skipped => .ok []
  | .unreadable cause => .error (.configuration (.unreadable path cause))
  | .illegible fault => .error (.configuration fault)
  | .legible t => .ok t

/-- What a source finds in a state of its surroundings. -/
def finding (s : FileSource) (w : World) : Finding :=
  match w.files.find s.path with
  | .error _ => .missing
  | .ok n =>
    if s.policy = .skip ∧ n.isOpen = true then .skipped
    else
      match n.text with
      | .error cause => .unreadable cause
      | .ok text =>
        match s.layout.read text with
        | .error fault => .illegible fault
        | .ok t => .legible t

/-- What a source that looks at its file has to report: that group or others have a permission,
unless its policy ignores permissions. -/
def notices (s : FileSource) (w : World) : List Diagnostic :=
  match w.files.find s.path with
  | .error _ => []
  | .ok n => if s.policy ≠ .ignore ∧ n.isOpen = true then [s.openNotice] else []

/-- The table that is remembered after a source was asked in some states, the first that it kept. -/
def kept? (s : FileSource) (asked : List World) : Option Table :=
  asked.findSome? fun w ↦ (s.finding w).kept?

/-- The states in which a source looks at its file: those in which it is asked, up to and including
the first of which it keeps a table. -/
def looks (s : FileSource) (asked : List World) : List World :=
  asked.take (asked.findIdx (fun w ↦ (s.finding w).kept?.isSome) + 1)

variable {s : FileSource} {w : World} {t : Table}

/-- A source that remembers a table answers it and stays as it is. -/
theorem load_of_parsed (h : s.parsed = some t) (found : Except FileError Node) :
    s.load found = (.ok t, s) := by
  simp only [load, h]

private theorem load_ok (h : s.parsed = none) (n : Node) :
    s.load (.ok n) =
      if s.policy ≠ .ignore ∧ n.isOpen = true then
        let s := { s with pending := s.pending ++ [s.openNotice] }
        if s.policy = .skip then (.ok [], { s with parsed := some [] }) else s.parse n
      else s.parse n := by
  obtain ⟨name, path, layout, policy, parsed, pending⟩ := s
  obtain rfl : parsed = none := h
  rfl

private theorem parse_eq (h : s.parsed = none) {n : Node} (hf : w.files.find s.path = .ok n)
    (hs : ¬ (s.policy = .skip ∧ n.isOpen = true)) :
    s.parse n = ((s.finding w).answer s.path, { s with parsed := (s.finding w).kept? }) := by
  have hsame : s = { s with parsed := none } := by rw [← h]
  rw [parse, finding, hf]
  dsimp only
  rw [if_neg hs]
  cases n.text with
  | error cause => exact Prod.ext rfl hsame
  | ok text =>
    dsimp only
    cases s.layout.read text with
    | error fault => exact Prod.ext rfl hsame
    | ok t => rfl

/-- A source that remembers nothing answers what it finds, keeps what is to be remembered of it and
reports what there is to report. -/
theorem load_of_none (h : s.parsed = none) :
    s.load (w.files.find s.path) = ((s.finding w).answer s.path,
      { s with parsed := (s.finding w).kept?, pending := s.pending ++ s.notices w }) := by
  cases hf : w.files.find s.path with
  | error e =>
    have hsame : s = { s with parsed := none, pending := s.pending ++ [] } := by
      rw [← h, List.append_nil]
    simp only [load, finding, notices, hf, h]
    exact Prod.ext rfl hsame
  | ok n =>
    rw [load_ok h, notices, hf]
    dsimp only
    by_cases hopen : s.policy ≠ .ignore ∧ n.isOpen = true
    · rw [if_pos hopen, if_pos hopen]
      by_cases hskip : s.policy = .skip
      · have hfound : s.finding w = .skipped := by
          rw [finding, hf]
          exact if_pos ⟨hskip, hopen.2⟩
        rw [if_pos hskip, hfound]
        rfl
      · rw [if_neg hskip]
        exact parse_eq (s := { s with pending := s.pending ++ [s.openNotice] }) h hf
          fun hs ↦ hskip hs.1
    · have hskip : ¬ (s.policy = .skip ∧ n.isOpen = true) := by
        rintro ⟨hp, hn⟩
        exact hopen ⟨by rw [hp]; exact Policy.noConfusion, hn⟩
      rw [if_neg hopen, if_neg hopen, List.append_nil]
      exact parse_eq h hf hskip

/-! ### Calls, and what happens between them -/

/-- A call of a source, or a change of its surroundings, of which nothing is known. -/
inductive Happening where
  | change (w : World)
  | discover (key : Option String)
  | drain

/-- A source in its surroundings. -/
structure Scene where
  world : World
  source : FileSource

/-- The scene after one happening. -/
def Scene.step (c : Scene) : Happening → Scene
  | .change w => { c with world := w }
  | .discover key => { c with source := (c.source.discover c.world key).2 }
  | .drain => { c with source := c.source.drain.2 }

/-- The scene after many happenings. -/
def Scene.after (c : Scene) (happenings : List Happening) : Scene := happenings.foldl step c

/-- The states of the surroundings in which a source is asked, in order. -/
def asked (w : World) : List Happening → List World
  | [] => []
  | .change w' :: rest => asked w' rest
  | .discover _ :: rest => w :: asked w rest
  | .drain :: rest => asked w rest

/-- The reports that a source makes when it is asked in some states: none if it remembers a table.
-/
def reports (s : FileSource) (asked : List World) : List Diagnostic :=
  match s.parsed with
  | some _ => []
  | none => (s.looks asked).flatMap s.notices

/-- It answers what it remembers, or else what it found. -/
theorem discover_answer (s : FileSource) (w : World) (key : Option String) :
    (s.discover w key).1 =
      match s.parsed with
      | some t => .ok (Table.select t key)
      | none => ((s.finding w).answer s.path).map fun t ↦ Table.select t key := by
  rw [discover]
  cases h : s.parsed with
  | some t =>
    rw [load_of_parsed h]
    rfl
  | none => rw [load_of_none h]

end LayeredConfig.FileSource
