import LayeredConfig.Proofs.Found

/-!
# Between root and connections

Where the result of a pass has another value than the answers are merged to: general parameters
reach fields that a connection lacks, or everything moves to a made-up connection, and a bare key is
then looked for in the default connection. What moves to a field may be what had been hidden there.
-/

namespace LayeredConfig

open Keyed (Sorted get?)

namespace Supply

variable {s : Supply}

/-- A connection gets a field, which it does not have itself, from the root. -/
def Reaches (s : Supply) (name key : String) : Prop :=
  s.names name = true ∧ get? key (s.record name) = none ∧
    ((s.offer? name key).or (s.general? key)).isSome = true

/-- A root key moves to the made-up connection. -/
def Moves (s : Supply) (key : String) : Prop :=
  s.connected = false ∧ ∃ v, get? key s.root = some v ∧ Config.movesToDefault (key, v) = true

/-- A connection of the result has a field from the root. -/
def Gains (s : Supply) (name key : String) : Prop :=
  s.Reaches name key ∨ (name = Parameter.defaultConnection ∧ s.Moves key)

/-- A general parameter leaves the root. -/
def Withdrawn (s : Supply) (key : String) (v : Value) : Prop :=
  s.connected = true ∧ isGeneral (key, v) = true ∧ ¬ s.Shown key

/-- Under a bare key something else is found than stands at the root: a field of the default
connection where nothing does, or where what does leaves the root and is not found again. -/
def Strays (s : Supply) (key : String) : Prop :=
  (get? key s.root = none ∧
    (get? key (s.record Parameter.defaultConnection)).isSome = true) ∨
  ∃ v, get? key s.root = some v ∧ s.Withdrawn key v ∧
    (s.names Parameter.defaultConnection = true →
      (get? key (s.record Parameter.defaultConnection)).getD v ≠ v)

/-- The result has another value at a place than the answers are merged to there. -/
def Touched (s : Supply) : Place → Prop
  | .connections => ∃ name key, s.Gains name key
  | .connection name => ∃ key, s.Gains name key
  | .field name key rest => rest = [] ∧ s.Gains name key
  | .root key rest =>
    rest = [] ∧
      if key = "" then s.connected = true ∧ ∃ v, get? key s.root = some v ∧ v.isTable = false
      else s.Strays key

/-- A field that a connection has lost comes back from the root, with the value that was lost. -/
def Restored (s : Supply) : Place → Prop
  | .field name key [] => s.Reaches name key ∧
    s.held (.field name key []) = (s.offer? name key).or (s.general? key)
  | _ => False

/-! ### With connections -/

/-- With a connection there is nothing to make up. -/
theorem gains_iff_of_connected (hc : s.connected = true) (name key : String) :
    s.Gains name key ↔ s.Reaches name key := by
  constructor
  · rintro (h | ⟨-, hm, -⟩)
    · exact h
    · rw [hc] at hm
      cases hm
  · exact Or.inl

/-- What reaches a connection is no table. -/
theorem not_table_of_reaching {name key : String} {v : Value}
    (h : (s.offer? name key).or (s.general? key) = some v) : v.isTable = false := by
  rcases Option.or_eq_some_iff.mp h with ho | ⟨-, hg⟩
  · exact (isGeneral_iff.mp (offer?_eq_some ho).1).2
  · exact ((general?_eq_some_iff s key v).mp hg).2.2

/-- A field is the connection's own unless one reaches it from the root. -/
theorem field?_eq_own_iff {name : String} (hn : s.names name = true) (key : String) :
    s.field? name key = get? key (s.record name) ↔ ¬ s.Reaches name key := by
  rw [field?, Reaches]
  cases get? key (s.record name) with
  | some v => simp
  | none =>
    cases (s.offer? name key).or (s.general? key) with
    | none => simp
    | some v => simp [hn]

/-- A connection of the result is as the answers have it unless a field reaches it from the root. -/
theorem connection_eq_iff (h : s.Ordered) (hc : s.connected = true) (name : String) :
    get? name s.result.connections = get? name s.records ↔ ¬ ∃ key, s.Reaches name key := by
  have hn := isSome_result_connections h hc name
  rw [get?_records h]
  cases hr : get? name s.result.connections with
  | none =>
    rw [hr] at hn
    have hnames : s.names name = false := hn.symm
    rw [hnames, if_neg Bool.false_ne_true]
    constructor
    · rintro - ⟨key, hk, -⟩
      rw [hnames] at hk
      cases hk
    · intro _
      rfl
  | some record =>
    rw [hr] at hn
    have hnames : s.names name = true := hn.symm
    rw [hnames, if_pos rfl, Option.some.injEq, not_exists]
    constructor
    · intro he key
      rw [← field?_eq_own_iff hnames, ← get?_result_field h hc hr, he]
    · intro hk
      apply (sorted_result_record h hc hr).ext (sorted_record h name)
      intro key
      rw [get?_result_field h hc hr]
      exact (field?_eq_own_iff hnames key).mpr (hk key)

/-- What the result has under a key of a connection. -/
theorem result_field (h : s.Ordered) (hc : s.connected = true) (name key : String) :
    (get? name s.result.connections).bind (get? key) =
      if s.names name then s.field? name key else none := by
  rw [← isSome_result_connections h hc name]
  cases hr : get? name s.result.connections with
  | none => rfl
  | some record => exact get?_result_field h hc hr key

/-- What the result has in a connection is as the answers have it unless the field comes from the
root. -/
theorem below_connection_eq_iff (h : s.Ordered) (hc : s.connected = true) (name key : String)
    (rest : List String) :
    ((get? name s.result.connections).bind (get? key)).bind (·.descend rest) =
        (get? key (s.record name)).bind (·.descend rest) ↔
      ¬ (rest = [] ∧ s.Reaches name key) := by
  rw [result_field h hc]
  cases hn : s.names name with
  | false =>
    rw [record_of_not_names hn, if_neg Bool.false_ne_true]
    simp [Reaches, hn]
  | true =>
    rw [if_pos rfl, field?, Reaches]
    cases get? key (s.record name) with
    | some v => simp
    | none =>
      cases hx : (s.offer? name key).or (s.general? key) with
      | none => simp
      | some v =>
        cases rest with
        | nil => simp [hn, Value.descend_nil]
        | cons p rest => simp [Value.descend_of_not_table (not_table_of_reaching hx)]

/-! ### Without connections -/

private theorem records_of_not_connected (h : s.Ordered) (hc : s.connected = false) :
    s.records = [] := by
  rw [Keyed.eq_nil_iff]
  intro name
  rw [get?_records h, (connected_eq_false_iff s).mp hc name]
  rfl

/-- The root keys that may move to a made-up connection. -/
def movable (s : Supply) : Table := s.root.filter Config.movesToDefault

/-- What may move is at the merged root. -/
theorem get?_movable_iff (s : Supply) (key : String) (v : Value) :
    get? key s.movable = some v ↔
      get? key s.root = some v ∧ Config.movesToDefault (key, v) = true := by
  rw [movable, s.sorted_root.get?_filter, Option.filter_eq_some_iff]

private theorem isSome_movable (hc : s.connected = false) (key : String) :
    (get? key s.movable).isSome = true ↔ s.Moves key := by
  rw [Option.isSome_iff_exists, Moves]
  simp only [get?_movable_iff, hc, true_and]

/-- Without a connection, the made-up one has the fields that move to it. -/
theorem gains_iff_of_not_connected (hc : s.connected = false) (name key : String) :
    s.Gains name key ↔
      name = Parameter.defaultConnection ∧ (get? key s.movable).isSome = true := by
  rw [isSome_movable hc]
  constructor
  · rintro (⟨hn, -⟩ | h)
    · rw [(connected_eq_false_iff s).mp hc name] at hn
      cases hn
    · exact h
  · exact Or.inr

private theorem isEmpty_made_up (h : s.Ordered) (hc : s.connected = false) :
    s.result.connections.isEmpty = true ↔ ¬ ∃ name key, s.Gains name key := by
  rw [result_of_not_connected h hc, ← movable]
  cases hm : s.movable with
  | nil =>
    simp only [gains_iff_of_not_connected hc, hm, List.isEmpty_nil]
    simp
  | cons e rest =>
    have hg : s.Gains Parameter.defaultConnection e.1 := by
      rw [gains_iff_of_not_connected hc, hm]
      exact ⟨rfl, Keyed.isSome_get?_of_mem List.mem_cons_self⟩
    constructor
    · intro he
      cases he
    · intro hn
      exact absurd ⟨_, _, hg⟩ hn

/-- Without a connection, what the result has under a key of one has moved there. -/
theorem made_up_field (h : s.Ordered) (hc : s.connected = false) (name key : String) :
    (get? name s.result.connections).bind (get? key) =
      if name = Parameter.defaultConnection then get? key s.movable else none := by
  rw [result_of_not_connected h hc, ← movable]
  cases hm : s.movable with
  | nil =>
    rw [List.isEmpty_nil, if_pos rfl]
    simp
  | cons e rest =>
    rw [List.isEmpty_cons, if_neg Bool.false_ne_true, Keyed.get?_cons, Keyed.get?_nil]
    by_cases hn : name = Parameter.defaultConnection
    · rw [if_pos hn.symm, if_pos hn, Option.bind_some]
    · rw [if_neg (Ne.symm hn), if_neg hn, Option.bind_none]

/-- Without a connection, there is one of a name in the result exactly if something moves to it. -/
theorem made_up_eq_none_iff (h : s.Ordered) (hc : s.connected = false) (name : String) :
    get? name s.result.connections = none ↔ ¬ ∃ key, s.Gains name key := by
  simp only [gains_iff_of_not_connected hc]
  rw [result_of_not_connected h hc, ← movable]
  cases hm : s.movable with
  | nil =>
    rw [List.isEmpty_nil, if_pos rfl]
    simp
  | cons e rest =>
    have he : (get? e.1 (e :: rest)).isSome = true :=
      Keyed.isSome_get?_of_mem List.mem_cons_self
    rw [List.isEmpty_cons, if_neg Bool.false_ne_true, Keyed.get?_cons, Keyed.get?_nil]
    by_cases hn : name = Parameter.defaultConnection
    · rw [if_pos hn.symm]
      constructor
      · intro hs
        cases hs
      · intro hs
        exact absurd ⟨e.1, hn, he⟩ hs
    · rw [if_neg (Ne.symm hn)]
      constructor
      · rintro - ⟨key, hk, -⟩
        exact hn hk
      · intro _
        rfl

/-! ### The root -/

/-- What is withdrawn is not at the root of the result. -/
theorem get?_result_root_of_withdrawn (h : s.Ordered) {key : String} {v : Value}
    (hv : get? key s.root = some v) (hw : s.Withdrawn key v) :
    get? key s.result.root = none := by
  obtain ⟨hc, hg, hs⟩ := hw
  rw [Option.eq_none_iff_forall_ne_some]
  intro w hr
  obtain ⟨hr, hi⟩ := (get?_result_root h hc key w).mp hr
  rw [hv] at hr
  obtain rfl := Option.some.inj hr
  exact hs (hi hg)

/-- Nothing leaves the root but what is no table. -/
theorem get?_result_root_or (h : s.Ordered) (key : String) :
    get? key s.result.root = get? key s.root ∨
      (get? key s.result.root = none ∧ ∃ v, get? key s.root = some v ∧ v.isTable = false) := by
  cases hc : s.connected with
  | false =>
    rw [result_of_not_connected h hc]
    dsimp only
    rw [s.sorted_root.get?_filter]
    cases get? key s.root with
    | none => exact Or.inl rfl
    | some v =>
      rw [Option.filter_some]
      cases hm : Config.movesToDefault (key, v) with
      | false => exact Or.inl rfl
      | true =>
        rw [Config.movesToDefault, Bool.and_eq_true, Bool.not_eq_true'] at hm
        exact Or.inr ⟨rfl, v, rfl, hm.2⟩
  | true =>
    cases hv : get? key s.root with
    | none =>
      refine Or.inl (Option.eq_none_iff_forall_ne_some.mpr ?_)
      intro v hr
      rw [get?_result_root h hc, hv] at hr
      cases hr.1
    | some v =>
      by_cases hs : isGeneral (key, v) = true → s.Shown key
      · exact Or.inl ((get?_result_root h hc key v).mpr ⟨hv, hs⟩)
      · obtain ⟨hg, hs⟩ := Classical.not_imp.mp hs
        refine Or.inr ⟨get?_result_root_of_withdrawn h hv ⟨hc, hg, hs⟩, v, rfl, ?_⟩
        exact (isGeneral_iff.mp hg).2

private theorem result_root_below (h : s.Ordered) (key p : String) (rest : List String) :
    (get? key s.result.root).bind (·.descend (p :: rest)) =
      (get? key s.root).bind (·.descend (p :: rest)) := by
  rcases get?_result_root_or h key with he | ⟨hn, v, hv, ht⟩
  · rw [he]
  · rw [hn, hv, Option.bind_none, Option.bind_some, Value.descend_of_not_table ht]

/-- The branch of connections is no root key. -/
theorem get?_root_connections (h : s.Ordered) : get? connectionsKey s.root = none := by
  rw [get?_root h, stack_eq_none_iff, last?_eq_none_iff]
  intro a _
  rw [Answer.root?_eq, if_pos rfl]

/-! ### Looking up -/

private theorem lookup_connections_iff (h : s.Ordered) {key : String}
    (hk : Place.of key = .connections) :
    s.result.lookup key = s.own? .connections ↔ ¬ s.Touched .connections := by
  have hr : get? connectionsKey s.result.root = none := by
    rcases get?_result_root_or h connectionsKey with he | ⟨hn, -⟩
    · rw [he, get?_root_connections h]
    · exact hn
  have hown : s.own? .connections = s.held .connections := rfl
  rw [Config.lookup_connections hk hr, hown, held, Touched]
  cases hc : s.connected with
  | false =>
    rw [← isEmpty_made_up h hc, if_neg Bool.false_ne_true]
    cases s.result.connections.isEmpty <;> simp
  | true =>
    have he : s.result.connections.isEmpty = false := by
      rw [isEmpty_eq (isSome_result_connections h hc), hc]
      rfl
    simp only [gains_iff_of_connected hc]
    rw [he, if_neg Bool.false_ne_true, if_pos trivial, Option.some.injEq, Value.table.injEq]
    constructor
    · rintro ht ⟨name, hg⟩
      refine (connection_eq_iff h hc name).mp ?_ hg
      have hn := congrArg (get? name) ht
      rw [Table.get?_ofRecords, Table.get?_ofRecords] at hn
      exact Option.map_injective (fun _ _ ↦ Value.table.inj) hn
    · intro hn
      congr 1
      apply (sorted_result_connections h hc).ext s.sorted_records
      intro name
      exact (connection_eq_iff h hc name).mpr fun hg ↦ hn ⟨name, hg⟩

private theorem lookup_connection_iff (h : s.Ordered) {key name : String}
    (hk : Place.of key = .connection name) :
    s.result.lookup key = s.own? (.connection name) ↔ ¬ s.Touched (.connection name) := by
  have hown : s.own? (.connection name) = s.held (.connection name) := rfl
  rw [Config.lookup_connection hk, hown, held_connection h, Touched]
  cases hc : s.connected with
  | false =>
    rw [records_of_not_connected h hc, ← made_up_eq_none_iff h hc, Keyed.get?_nil, Option.map_none,
      Option.map_eq_none_iff]
  | true =>
    simp only [gains_iff_of_connected hc]
    rw [← connection_eq_iff h hc]
    exact (Option.map_injective fun _ _ ↦ Value.table.inj).eq_iff

private theorem lookup_field_iff (h : s.Ordered) {key name param : String} {rest : List String}
    (hk : Place.of key = .field name param rest) :
    s.result.lookup key = s.own? (.field name param rest) ↔
      ¬ s.Touched (.field name param rest) := by
  have hl : s.result.lookup key =
      ((get? name s.result.connections).bind (get? param)).bind (·.descend rest) := by
    rw [Config.lookup_field hk]
    simp only [Table.at?_eq]
    rw [Option.bind_assoc]
  rw [hl, own?, Touched]
  cases hc : s.connected with
  | true =>
    rw [gains_iff_of_connected hc]
    exact below_connection_eq_iff h hc name param rest
  | false =>
    rw [made_up_field h hc, record_of_not_names ((connected_eq_false_iff s).mp hc name),
      gains_iff_of_not_connected hc]
    by_cases hn : name = Parameter.defaultConnection
    · rw [if_pos hn, movable, s.sorted_root.get?_filter]
      cases get? param s.root with
      | none => simp
      | some v =>
        rw [Option.filter_some]
        cases hm : Config.movesToDefault (param, v) with
        | false => simp
        | true =>
          rw [Config.movesToDefault, Bool.and_eq_true, Bool.not_eq_true'] at hm
          cases rest with
          | nil => simp [hn, Value.descend_nil]
          | cons p rest => simp [Value.descend_of_not_table hm.2]
    · rw [if_neg hn]
      simp [hn]

private theorem lookup_empty_iff (h : s.Ordered) :
    get? "" s.result.root = (get? "" s.root).filter Value.isTable ↔
      ¬ (s.connected = true ∧ ∃ v, get? "" s.root = some v ∧ v.isTable = false) := by
  cases hc : s.connected with
  | false =>
    rw [result_of_not_connected h hc]
    dsimp only
    rw [s.sorted_root.get?_filter]
    have he : Parameter.isEligible "" = true := by decide
    cases get? "" s.root with
    | none => simp
    | some v => simp [Config.movesToDefault, he, Option.filter_some]
  | true =>
    have hr : get? "" s.result.root = get? "" s.root := by
      rcases get?_result_root_or h "" with he | ⟨hn, v, hv, -⟩
      · exact he
      · have hs := (get?_result_root h hc "" v).mpr ⟨hv, fun hg ↦ absurd hg Bool.false_ne_true⟩
        rw [hn] at hs
        cases hs
    rw [hr]
    cases get? "" s.root with
    | none => simp
    | some v => cases hv : v.isTable <;> simp [Option.filter_some, hv]

private theorem lookup_bare_of_not_connected (h : s.Ordered) (hc : s.connected = false)
    (key : String) :
    (get? key s.result.root).or
        ((get? Parameter.defaultConnection s.result.connections).bind (get? key)) =
      get? key s.root ↔ ¬ s.Strays key := by
  rw [Strays]
  have hn := (connected_eq_false_iff s).mp hc Parameter.defaultConnection
  rw [made_up_field h hc, if_pos rfl, record_of_not_names hn, result_of_not_connected h hc, movable]
  dsimp only
  rw [s.sorted_root.get?_filter, s.sorted_root.get?_filter]
  cases get? key s.root with
  | none => simp
  | some v => cases hm : Config.movesToDefault (key, v) <;> simp [Withdrawn, hc, hm]

private theorem lookup_bare_of_connected (h : s.Ordered) (hc : s.connected = true)
    (key : String) :
    (get? key s.result.root).or
        ((get? Parameter.defaultConnection s.result.connections).bind (get? key)) =
      get? key s.root ↔ ¬ s.Strays key := by
  rw [Strays, result_field h hc]
  cases hv : get? key s.root with
  | none =>
    have hr : get? key s.result.root = none := by
      rcases get?_result_root_or h key with he | ⟨hn, -⟩
      · rw [he, hv]
      · exact hn
    have hl : s.last? (·.root? key) = none := by
      rw [← stack_eq_none_iff, ← get?_root h, hv]
    rw [hr, field?, reaching_eq_none h _ (Or.inr hl), Option.or_none, Option.none_or]
    cases hn : s.names Parameter.defaultConnection with
    | false => simp [record_of_not_names hn]
    | true => simp
  | some v =>
    by_cases hs : isGeneral (key, v) = true → s.Shown key
    · rw [(get?_result_root h hc key v).mpr ⟨hv, hs⟩, Option.some_or]
      simp only [Withdrawn, true_iff]
      rintro (⟨hn, -⟩ | ⟨w, hw, ⟨-, hg, hn⟩, -⟩)
      · cases hn
      · obtain rfl := Option.some.inj hw
        exact hn (hs hg)
    · obtain ⟨hg, hs⟩ := Classical.not_imp.mp hs
      have hw : s.Withdrawn key v := ⟨hc, hg, hs⟩
      have hr := get?_result_root_of_withdrawn h hv hw
      have hf : s.field? Parameter.defaultConnection key =
          some ((get? key (s.record Parameter.defaultConnection)).getD v) := by
        have hg := isGeneral_iff.mp hg
        have hl := (get?_root_eq_some_iff h hg.2).mp hv
        cases ho : get? key (s.record Parameter.defaultConnection) with
        | some u => exact field?_of_own ho
        | none => exact field?_of_last h ho hg.1 hg.2 hl
      rw [hr, Option.none_or, hf]
      cases s.names Parameter.defaultConnection with
      | false => simp [hw]
      | true => simp [hw]

private theorem lookup_bare_iff (h : s.Ordered) (key : String) :
    (get? key s.result.root).or
        ((get? Parameter.defaultConnection s.result.connections).bind (get? key)) =
      get? key s.root ↔ ¬ s.Strays key := by
  cases hc : s.connected with
  | false => exact lookup_bare_of_not_connected h hc key
  | true => exact lookup_bare_of_connected h hc key

private theorem lookup_root_iff (h : s.Ordered) {key first : String} {rest : List String}
    (hk : Place.of key = .root first rest) :
    s.result.lookup key = s.own? (.root first rest) ↔ ¬ s.Touched (.root first rest) := by
  rw [Config.lookup_root hk, own?, Touched, Table.at?_eq]
  cases rest with
  | cons p rest =>
    rw [result_root_below h]
    cases (get? first s.root).bind (·.descend (p :: rest)) <;> simp [Option.filter_some]
  | nil =>
    have hd : ∀ o : Option Value, o.bind (·.descend []) = o := fun o ↦ by
      cases o with
      | none => rfl
      | some v => exact Value.descend_nil v
    rw [hd, hd]
    by_cases hf : first = ""
    · subst hf
      have hall : (fun v : Value ↦ !("".isEmpty && ([] : List String).isEmpty) || v.isTable) =
          Value.isTable := rfl
      rw [hall, if_neg fun hn ↦ hn.2 rfl, Option.or_none, if_pos rfl, lookup_empty_iff h]
      simp only [true_and]
    · have he : first.isEmpty = false := by
        rw [Bool.eq_false_iff]
        intro he
        exact hf (String.isEmpty_iff.mp he)
      have hall : ∀ o : Option Value, (o.filter fun v ↦
          !(first.isEmpty && ([] : List String).isEmpty) || v.isTable) = o := fun o ↦ by
        rw [he]
        cases o <;> rfl
      rw [hall, if_pos ⟨rfl, hf⟩, if_neg hf, lookup_bare_iff h]
      simp only [true_and]

/-- What is found at a place is what the answers are merged to there, exactly if the place is not
touched from elsewhere. -/
theorem lookup_eq_own_iff (h : s.Ordered) (key : String) :
    s.result.lookup key = s.own? (Place.of key) ↔ ¬ s.Touched (Place.of key) := by
  cases hk : Place.of key with
  | connections => exact lookup_connections_iff h hk
  | connection name => exact lookup_connection_iff h hk
  | field name param rest => exact lookup_field_iff h hk
  | root first rest => exact lookup_root_iff h hk

private theorem Reaches.lookup_eq (h : s.Ordered) {key name param : String}
    (hk : Place.of key = .field name param []) (hr : s.Reaches name param) :
    s.result.lookup key = (s.offer? name param).or (s.general? param) := by
  obtain ⟨hn, hown, -⟩ := hr
  rw [Config.lookup_field hk]
  simp only [Table.at?_nil]
  rw [result_field h (connected_of_names hn), if_pos hn, field?, hown, Option.none_or]

private theorem Hidden.names {name param : String} {rest : List String}
    (h : s.Hidden (.field name param rest)) : s.names name = true := by
  obtain ⟨a, ha, v, hv, -⟩ := h.exists_answer
  obtain ⟨record, hr, -⟩ := Option.map_eq_some_iff.mp hv
  exact names_iff.mpr ⟨a, ha, record, hr⟩

private theorem Touched.restored (h : s.Ordered) {key : String} (ht : s.Touched (Place.of key))
    (hh : s.Hidden (Place.of key)) :
    s.Restored (Place.of key) ↔ s.result.lookup key = s.held (Place.of key) := by
  cases hk : Place.of key with
  | connections => rw [hk] at hh; exact hh.elim
  | connection name => rw [hk] at hh; exact hh.elim
  | field name param rest =>
    rw [hk] at ht hh
    obtain ⟨rfl, hg⟩ := ht
    have hr := (gains_iff_of_connected (connected_of_names hh.names) name param).mp hg
    rw [Restored, hr.lookup_eq h hk, eq_comm (a := s.held _)]
    exact and_iff_right hr
  | root first rest =>
    rw [hk] at ht hh
    obtain ⟨rfl, -⟩ := ht
    exact absurd hh (s.not_hides_nil _)

private theorem Restored.touched_and_hidden (h : s.Ordered) {p : Place} (hr : s.Restored p) :
    s.Touched p ∧ s.Hidden p := by
  cases p with
  | connections => exact hr.elim
  | connection name => exact hr.elim
  | root key rest => exact hr.elim
  | field name key rest =>
    cases rest with
    | cons p rest => exact hr.elim
    | nil =>
      obtain ⟨hreach, hheld⟩ := hr
      refine ⟨⟨rfl, Or.inl hreach⟩, ?_⟩
      -- the connection has lost the field, which its answers still hold
      obtain ⟨-, hown, hx⟩ := hreach
      by_contra hh
      rw [← hheld, ← (own?_eq_held_iff h).mpr hh, own?, hown] at hx
      cases hx

/-- What is found at a place is what the answers hold there exactly if nothing of it is hidden and
the place is not touched from elsewhere, or if what is hidden there is restored. -/
theorem lookup_eq_held_iff (h : s.Ordered) (key : String) :
    s.result.lookup key = s.held (Place.of key) ↔
      (¬ s.Hidden (Place.of key) ∧ ¬ s.Touched (Place.of key)) ∨ s.Restored (Place.of key) := by
  have hown := lookup_eq_own_iff h key
  have hheld := own?_eq_held_iff h (p := Place.of key)
  by_cases hh : s.Hidden (Place.of key)
  · rw [or_iff_right fun hn ↦ hn.1 hh]
    by_cases ht : s.Touched (Place.of key)
    · exact (ht.restored h hh).symm
    · rw [hown.mpr ht, hheld]
      exact iff_of_false (not_not_intro hh) fun hr ↦ ht (hr.touched_and_hidden h).1
  · have hr : ¬ s.Restored (Place.of key) := fun hr ↦ hh (hr.touched_and_hidden h).2
    rw [← hheld.mpr hh, hown, or_iff_left hr, and_iff_right hh]

end Supply

end LayeredConfig
