import LayeredConfig.Proofs.Leaves
import LayeredConfig.Proofs.Touched

/-!
# Where the leaves of a result come from

Every leaf of a result is one of four: a leaf of the merged root, a leaf of a connection's own record,
a general parameter that reaches a connection, or one that moved to a made-up connection. Leaves of
the first two kinds are leaves of some answer.
-/

namespace LayeredConfig

open Keyed (Sorted get?)

namespace Supply

variable {s : Supply}

/-- A leaf of a stack is a leaf of some answer. -/
theorem exists_leaf_of_stack {u : Answer → Option Value}
    (hu : ∀ a ∈ s.answers, ∀ v, u a = some v → v.Ordered) {path : List String} {x : Value}
    (hx : (s.stack u).bind (·.descend path) = some x) (hl : x.isLeaf = true) :
    ∃ a ∈ s.answers, (u a).bind (·.descend path) = some x := by
  induction s using induction with
  | empty => cases hx
  | file s a hs ih =>
    rw [answers_addFile hs] at hu ⊢
    rw [stack_addFile hs] at hx
    cases hua : u a with
    | none =>
      rw [hua, Option.none_or] at hx
      obtain ⟨b, hb, hbx⟩ := ih (fun b hb ↦ hu b (List.mem_append_left _ hb)) hx
      exact ⟨b, List.mem_append_left _ hb, hbx⟩
    | some v =>
      rw [hua, Option.some_or] at hx
      refine ⟨a, List.mem_concat_self, ?_⟩
      rw [hua]
      exact hx
  | overlay s a ih =>
    rw [answers_addOverlay] at hu ⊢
    rw [stack_addOverlay] at hx
    have ih := fun hx ↦ ih (fun b hb ↦ hu b (List.mem_append_left _ hb)) hx
    cases hua : u a with
    | none =>
      rw [hua] at hx
      obtain ⟨b, hb, hbx⟩ := ih hx
      exact ⟨b, List.mem_append_left _ hb, hbx⟩
    | some v =>
      rw [hua, Option.bind_some] at hx
      have hv := hu a List.mem_concat_self v hua
      rcases Table.leaf_of_merged hv hx hl with hx | hx
      · refine ⟨a, List.mem_concat_self, ?_⟩
        rw [hua]
        exact hx
      · obtain ⟨b, hb, hbx⟩ := ih hx
        exact ⟨b, List.mem_append_left _ hb, hbx⟩

/-- What the merged root holds is ordered. -/
theorem ordered_of_root (h : s.Ordered) {key : String} {v : Value}
    (hv : get? key s.root = some v) : v.Ordered := by
  rw [get?_root h] at hv
  exact ordered_stack (fun a ha w hw ↦ (h a ha).root? hw) hv

private theorem ordered_record (h : s.Ordered) (name : String) :
    (Value.table (s.record name)).Ordered := by
  have hs := stack_record h name
  cases hn : s.names name with
  | false =>
    rw [record_of_not_names hn]
    exact ⟨Keyed.sorted_nil, trivial⟩
  | true =>
    rw [hn, if_pos rfl] at hs
    exact ordered_stack (ordered_recordValue h name) hs

/-- A leaf of the merged root is a leaf of some answer. -/
theorem exists_root_leaf (h : s.Ordered) {key : String} {rest : List String} {x : Value}
    (hx : (get? key s.root).bind (·.descend rest) = some x) (hl : x.isLeaf = true) :
    ∃ a ∈ s.answers, a.data.at? key rest = some x := by
  rw [get?_root h] at hx
  obtain ⟨a, ha, hax⟩ := exists_leaf_of_stack (fun a ha w hw ↦ (h a ha).root? hw) hx hl
  refine ⟨a, ha, ?_⟩
  rw [Answer.root?_eq] at hax
  split at hax
  · cases hax
  · rw [Table.at?_eq, hax]

/-- A leaf of an own record is a leaf of some answer. -/
theorem exists_record_leaf (h : s.Ordered) {name key : String} {rest : List String} {x : Value}
    (hx : (get? key (s.record name)).bind (·.descend rest) = some x) (hl : x.isLeaf = true) :
    ∃ a ∈ s.answers, a.data.at? connectionsKey (name :: key :: rest) = some x := by
  have hs : (s.stack (·.recordValue? name)).bind (·.descend (key :: rest)) = some x := by
    rw [stack_record h]
    cases hn : s.names name with
    | false =>
      rw [record_of_not_names hn] at hx
      cases hx
    | true =>
      rw [if_pos rfl, Option.bind_some, Value.descend_table]
      exact hx
  obtain ⟨a, ha, hax⟩ := exists_leaf_of_stack (ordered_recordValue h name) hs hl
  refine ⟨a, ha, ?_⟩
  rw [Answer.recordValue?_eq] at hax
  rw [Table.at?_cons, hax]

/-- What stands at the root of a result stands in the merged root. -/
theorem get?_root_of_result (h : s.Ordered) {key : String} {v : Value}
    (hv : get? key s.result.root = some v) : get? key s.root = some v := by
  rcases get?_result_root_or h key with he | ⟨hn, -⟩
  · rw [← he]
    exact hv
  · rw [hn] at hv
    cases hv

private theorem ordered_of_reaching (h : s.Ordered) {name key : String} {v : Value}
    (hv : (s.offer? name key).or (s.general? key) = some v) : v.Ordered := by
  rcases Option.or_eq_some_iff.mp hv with ho | ⟨-, hg⟩
  · obtain ⟨a, ha, hg⟩ := exists_of_offer? ho
    have ha : a ∈ s.answers := List.mem_append_right _ ha
    exact (h a ha).root? (Answer.general?_eq_some_iff.mp hg).1
  · exact ordered_of_root h ((general?_eq_some_iff s key v).mp hg).1

/-! ### Kinds of leaves -/

/-- How a leaf at a path came into the result. -/
inductive Origin (s : Supply) (path : List String) (x : Value) : Prop where
  | root (key : String) (rest : List String) (hp : path = key :: rest)
      (hx : (get? key s.root).bind (·.descend rest) = some x)
  | own (name key : String) (rest : List String) (hp : path = connectionsKey :: name :: key :: rest)
      (hx : (get? key (s.record name)).bind (·.descend rest) = some x)
  | reaching (name key : String) (hp : path = [connectionsKey, name, key])
      (hn : s.names name = true) (ho : get? key (s.record name) = none)
      (hx : (s.offer? name key).or (s.general? key) = some x)
  | moved (key : String) (hp : path = [connectionsKey, Parameter.defaultConnection, key])
      (hc : s.connected = false) (hx : get? key s.movable = some x)

/-- The connections of a result are in order. -/
theorem sorted_connections (h : s.Ordered) : Sorted s.result.connections := by
  cases hc : s.connected with
  | true => exact sorted_result_connections h hc
  | false =>
    rw [result_of_not_connected h hc]
    dsimp only
    split
    · exact Keyed.sorted_nil
    · exact List.pairwise_singleton _ _

/-- What a connection of a result holds is ordered. -/
theorem ordered_of_connection (h : s.Ordered) {name : String} {record : Table}
    (hr : get? name s.result.connections = some record) : (Value.table record).Ordered := by
  cases hc : s.connected with
  | true =>
    apply Value.ordered_table (sorted_result_record h hc hr)
    intro key v hv
    rw [get?_result_field h hc hr, field?] at hv
    rcases Option.or_eq_some_iff.mp hv with hv | ⟨-, hv⟩
    · exact (ordered_record h name).get? hv
    · exact ordered_of_reaching h hv
  | false =>
    rw [result_of_not_connected h hc] at hr
    dsimp only at hr
    split at hr
    · cases hr
    · rw [Keyed.get?_cons] at hr
      split at hr
      · obtain rfl := Option.some.inj hr
        apply Value.ordered_table (s.sorted_root.filter _)
        intro key v hv
        exact ordered_of_root h ((get?_movable_iff s key v).mp hv).1
      · cases hr

/-- What moves is no table. -/
theorem not_table_of_movable {key : String} {v : Value} (hv : get? key s.movable = some v) :
    v.isTable = false := by
  rw [get?_movable_iff, Config.movesToDefault, Bool.and_eq_true, Bool.not_eq_true'] at hv
  exact hv.2.2

private theorem descend_eq_of_not_table {v x : Value} (hv : v.isTable = false)
    {rest : List String} (hx : v.descend rest = some x) : rest = [] ∧ v = x := by
  cases rest with
  | nil => exact ⟨rfl, Option.some.inj ((Value.descend_nil v).symm.trans hx)⟩
  | cons s rest =>
    rw [Value.descend_of_not_table hv] at hx
    cases hx

/-- What is found at the root of a result has an origin. -/
theorem origin_of_root (h : s.Ordered) {first : String} {rest : List String} {x : Value}
    (hx : s.result.root.at? first rest = some x) : s.Origin (first :: rest) x := by
  rw [Table.at?_eq] at hx
  obtain ⟨u, hu, hx⟩ := Option.bind_eq_some_iff.mp hx
  apply Origin.root first rest rfl
  rw [get?_root_of_result h hu]
  exact hx

/-- So has what is found in one of its connections. -/
theorem origin_of_connection (h : s.Ordered) {name first : String} {rest : List String}
    {record : Table} {x : Value} (hr : get? name s.result.connections = some record)
    (hx : record.at? first rest = some x) :
    s.Origin (connectionsKey :: name :: first :: rest) x := by
  rw [Table.at?_eq] at hx
  obtain ⟨u, hu, hx⟩ := Option.bind_eq_some_iff.mp hx
  cases hc : s.connected with
  | true =>
    rw [get?_result_field h hc hr, field?] at hu
    rcases Option.or_eq_some_iff.mp hu with hu | ⟨hn, hu⟩
    · apply Origin.own name first rest rfl
      rw [hu]
      exact hx
    · obtain ⟨rfl, rfl⟩ := descend_eq_of_not_table (not_table_of_reaching hu) hx
      have hnames : s.names name = true := by
        rw [← isSome_result_connections h hc, hr, Option.isSome_some]
      exact .reaching name first rfl hnames hn hu
  | false =>
    have hf := made_up_field h hc name first
    rw [hr, Option.bind_some, hu] at hf
    split at hf
    · next hname =>
      subst hname
      obtain ⟨rfl, rfl⟩ := descend_eq_of_not_table (not_table_of_movable hf.symm) hx
      exact .moved first rfl hc hf.symm
    · cases hf

/-- Every leaf of a result has an origin. -/
theorem exists_origin (h : s.Ordered) {key : String} {x : Value}
    (hx : get? key s.result.flatten = some x) :
    ∃ path, key = dotted path ∧ x.isLeaf = true ∧ s.Origin path x := by
  have hm : (key, x) ∈ s.result.leaves := Keyed.mem_of_mem_ofList (Keyed.mem_of_get? hx)
  rw [Config.leaves, List.mem_append, List.mem_flatMap] at hm
  rcases hm with hm | ⟨⟨name, record⟩, he, hm⟩
  · have ho : (Value.table s.result.root).Ordered := by
      apply Value.ordered_table (sorted_result_root h)
      intro key v hv
      exact ordered_of_root h (get?_root_of_result h hv)
    obtain ⟨first, rest, hx, hl, hk⟩ := (Table.mem_leaves "" _ ho.1 ho.2).mp hm
    exact ⟨first :: rest, hk, hl, origin_of_root h hx⟩
  · have hr := (sorted_connections h).mem_iff.mp he
    have ho := ordered_of_connection h hr
    obtain ⟨first, rest, hx, hl, hk⟩ := (Table.mem_leaves _ _ ho.1 ho.2).mp hm
    have hd : key = dotted (connectionsKey :: name :: first :: rest) := by
      rw [hk, connectionKey_empty]
      rfl
    exact ⟨_, hd, hl, origin_of_connection h hr hx⟩

end Supply

end LayeredConfig
