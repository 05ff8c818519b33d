import LayeredConfig.Pass
import LayeredConfig.Proofs.Held

/-!
# What the layers settle into

Once all answers are in, the general parameters that still stand at the root are exactly the root
values that are parameters and no tables, whatever the layers had noted on the way. They fill what is
missing in the connections, and those that no overlay showed leave the root. Where there is no
connection, all that may move makes up one.
-/

namespace LayeredConfig

open Keyed (Sorted get?)

mutual

/-- Every value is the same as itself. -/
theorem Value.same_self : ∀ v : Value, v.same v = true
  | .null => rfl
  | .bool b => beq_self_eq_true b
  | .int n => beq_self_eq_true n
  | .float bits => by rw [same, Decimal.Bits.same, beq_self_eq_true, Bool.true_or]
  | .string s => beq_self_eq_true s
  | .array items => Value.sameItems_self items
  | .table entries => Value.sameEntries_self entries

/-- Every list is the same as itself. -/
theorem Value.sameItems_self : ∀ items : List Value, Value.sameItems items items = true
  | [] => rfl
  | v :: rest => by rw [sameItems, same_self v, sameItems_self rest, Bool.and_self]

/-- Every table is the same as itself. -/
theorem Value.sameEntries_self :
    ∀ entries : List (String × Value), Value.sameEntries entries entries = true
  | [] => rfl
  | (k, v) :: rest => by
    rw [sameEntries, beq_self_eq_true, same_self v, sameEntries_self rest, Bool.and_self,
      Bool.and_self]

end

/-- A table is not the same as what is no table. -/
theorem Value.same_of_table {v w : Value} (hv : v.isTable = true) (hw : w.isTable = false) :
    v.same w = false := by
  obtain ⟨t, rfl⟩ := isTable_iff.mp hv
  cases w with
  | table t' => cases hw
  | _ => rfl

private theorem Table.get?_fillMissing (t : Table) {defaults : Table} (h : Sorted defaults)
    (key : String) :
    get? key (fillMissing t defaults).2 = (get? key t).or (get? key defaults) := by
  rw [fillMissing, Keyed.get?_overlay _ (h.filter _), h.get?_filter]
  dsimp only [Keyed.contains]
  cases get? key t with
  | none => cases get? key defaults <;> rfl
  | some v => cases get? key defaults <;> rfl

/-- The keys that come from the defaults are those that are missing. -/
theorem Table.mem_fillMissing (t : Table) {defaults : Table} {key : String} :
    key ∈ (fillMissing t defaults).1 ↔
      get? key t = none ∧ (get? key defaults).isSome = true := by
  have hm : (fillMissing t defaults).1 =
      (defaults.filter fun e ↦ !Keyed.contains e.1 t).map Prod.fst := rfl
  rw [hm, List.mem_map]
  constructor
  · rintro ⟨e, he, rfl⟩
    obtain ⟨he, hc⟩ := List.mem_filter.mp he
    rw [Bool.not_eq_true', Keyed.contains_eq_false_iff] at hc
    exact ⟨hc, Keyed.isSome_get?_of_mem he⟩
  · rintro ⟨hn, hd⟩
    obtain ⟨v, hv⟩ := Option.isSome_iff_exists.mp hd
    refine ⟨(key, v), List.mem_filter.mpr ⟨Keyed.mem_of_get? hv, ?_⟩, rfl⟩
    rw [Keyed.contains, hn]
    rfl

namespace Supply

variable {s : Supply}

/-- The latest general parameter is what some answer has. -/
theorem exists_of_latest? {key : String} {c : Candidate} (h : s.latest? key = some c) :
    ∃ a ∈ s.answers, ∃ v, a.general? key = some v ∧ c = a.report.candidate key v := by
  obtain ⟨a, ha, hc⟩ := List.exists_of_findSome?_eq_some h
  obtain ⟨v, hv, rfl⟩ := Option.map_eq_some_iff.mp hc
  exact ⟨a, List.mem_reverse.mp ha, v, hv, rfl⟩

/-- The general parameter of an answer is the latest one if no later root has its key. -/
theorem latest?_of_split {before after : List Answer} {a : Answer}
    (hsplit : s.answers = before ++ a :: after) {key : String} {v : Value}
    (ha : a.root? key = some v) (hg : isGeneral (key, v) = true)
    (hafter : ∀ b ∈ after, b.root? key = none) :
    s.latest? key = some (a.report.candidate key v) := by
  apply last?_eq_some_iff.mpr
  refine ⟨before, a, after, hsplit, ?_, ?_⟩
  · rw [Answer.general?_eq_some_iff.mpr ⟨ha, hg⟩, Option.map_some]
  · intro b hb
    rw [Answer.general?_eq_none (hafter b hb), Option.map_none]

/-- The last root value under a key is the latest general parameter, if it is one. -/
theorem latest?_of_last {key : String} {v : Value} (h : s.last? (·.root? key) = some v)
    (hg : isGeneral (key, v) = true) :
    ∃ a : Answer, s.latest? key = some (a.report.candidate key v) := by
  obtain ⟨before, a, after, hsplit, ha, hafter⟩ := last?_eq_some_iff.mp h
  exact ⟨a, latest?_of_split hsplit ha hg hafter⟩

/-- The last root value under a key, unless it is a table, is the merged one. -/
theorem get?_root_eq_some_iff (h : s.Ordered) {key : String} {v : Value}
    (hv : v.isTable = false) :
    get? key s.root = some v ↔ s.last? (·.root? key) = some v := by
  rw [get?_root h, stack_eq_some_iff s _ hv]

private theorem standing_eq_general (h : s.Ordered) (key : String) :
    ((s.latest? key).filter fun c ↦ Layers.stands s.root (key, c)).map (·.value) =
      s.general? key := by
  rw [general?]
  dsimp only [Layers.stands]
  cases hr : get? key s.root with
  | none =>
    dsimp only
    cases s.latest? key <;> rfl
  | some v =>
    dsimp only
    rw [Option.filter_some]
    cases hg : isGeneral (key, v) with
    | true =>
      have hv : v.isTable = false := (isGeneral_iff.mp hg).2
      obtain ⟨a, hl⟩ := latest?_of_last ((get?_root_eq_some_iff h hv).mp hr) hg
      have hs : v.same (a.report.candidate key v).value = true := v.same_self
      rw [hl, Option.filter_some, hs]
      rfl
    | false =>
      cases hl : s.latest? key with
      | none => rfl
      | some c =>
        obtain ⟨a, -, w, hw, rfl⟩ := exists_of_latest? hl
        have hgw := isGeneral_iff.mp (Answer.general?_eq_some_iff.mp hw).2
        rw [isGeneral, hgw.1, Bool.true_and, Bool.not_eq_false'] at hg
        have hs : v.same (a.report.candidate key w).value = false := Value.same_of_table hg hgw.2
        rw [Option.filter_some, hs]
        rfl

/-- The field of a connection in the result: its own, else the latest one on offer, else the general
parameter at the root. -/
def field? (s : Supply) (name key : String) : Option Value :=
  (get? key (s.record name)).or ((s.offer? name key).or (s.general? key))

/-- A field of the own record is the field of the result. -/
theorem field?_of_own {name key : String} {v : Value}
    (h : get? key (s.record name) = some v) : s.field? name key = some v := by
  rw [field?, h, Option.some_or]

/-- Where the own record has no field, the last root value is it, if it is a general parameter. -/
theorem field?_of_last (ho : s.Ordered) {name key : String} {v : Value}
    (hn : get? key (s.record name) = none) (hp : Parameter.isParameter key = true)
    (hv : v.isTable = false) (hl : s.last? (·.root? key) = some v) :
    s.field? name key = some v := by
  rw [field?, hn, Option.none_or]
  cases hf : s.offer? name key with
  | some w => rw [offer?_eq_last hf hl hv, Option.some_or]
  | none =>
    rw [Option.none_or, general?_eq_some_iff, get?_root_eq_some_iff ho hv]
    exact ⟨hl, hp, hv⟩

/-- Nothing reaches a connection under a key that is no parameter or that no root has. -/
theorem reaching_eq_none (ho : s.Ordered) (name : String) {key : String}
    (hl : Parameter.isParameter key = false ∨ s.last? (·.root? key) = none) :
    (s.offer? name key).or (s.general? key) = none := by
  rw [Option.or_eq_none_iff, Option.eq_none_iff_forall_ne_some, Option.eq_none_iff_forall_ne_some]
  rcases hl with hp | hl
  · constructor
    · intro v hv
      have hg := (isGeneral_iff.mp (offer?_eq_some hv).1).1
      rw [hp] at hg
      cases hg
    · intro v hv
      have hg := ((general?_eq_some_iff s key v).mp hv).2.1
      rw [hp] at hg
      cases hg
  · constructor
    · intro v hv
      obtain ⟨a, ha, hg⟩ := exists_of_offer? hv
      have hr := last?_eq_none_iff.mp hl a (List.mem_append_right _ ha)
      rw [Answer.general?_eq_none hr] at hg
      cases hg
    · intro v hv
      have hg := ((general?_eq_some_iff s key v).mp hv).1
      rw [get?_root ho, (stack_eq_none_iff s _).mpr hl] at hg
      cases hg

/-- Where the own record has no field and nothing at the root can be it, there is no field. -/
theorem field?_eq_none (ho : s.Ordered) {name key : String} (hn : get? key (s.record name) = none)
    (hl : Parameter.isParameter key = false ∨ s.last? (·.root? key) = none) :
    s.field? name key = none := by
  rw [field?, hn, Option.none_or, reaching_eq_none ho name hl]

/-- The configuration that a merge of the answers results in. -/
def result (s : Supply) : Config := (Pass.synthesize s.layers.settle.1).1

/-- The general parameters that still stand once all answers are in. -/
def standing (s : Supply) : Keyed Candidate :=
  s.layers.general.filter (Layers.stands s.layers.config.root)

/-- The candidate that stands under a key is the latest one. -/
theorem get?_standing (h : s.Ordered) (key : String) :
    get? key s.standing = (s.latest? key).filter fun c ↦ Layers.stands s.root (key, c) := by
  have hl := holds_layers h
  rw [standing, hl.sortedGeneral.get?_filter, hl.general, hl.root]

private theorem sorted_standing (h : s.Ordered) : Sorted s.standing :=
  (holds_layers h).sortedGeneral.filter _

/-- The values of the general parameters that still stand, with which connections are filled up. -/
def defaults (s : Supply) : Table := Keyed.mapValues (fun _ c ↦ c.value) s.standing

private theorem sorted_defaults (h : s.Ordered) : Sorted s.defaults :=
  (sorted_standing h).map fun _ c ↦ c.value

/-- Connections are filled up with the values of what stands. -/
theorem get?_defaults_eq (s : Supply) (key : String) :
    get? key s.defaults = (get? key s.standing).map (·.value) :=
  Keyed.get?_map key (fun _ (c : Candidate) ↦ c.value) s.standing

/-- Connections are filled up with the general parameters at the root. -/
theorem get?_defaults (h : s.Ordered) (key : String) :
    get? key s.defaults = s.general? key := by
  rw [get?_defaults_eq, get?_standing h, standing_eq_general h]

/-- The layers settle without any change where there is no connection. -/
theorem settle_of_not_connected (h : s.Ordered) (hc : s.connected = false) :
    s.layers.settle = (⟨s.root, []⟩, []) := by
  have hl := holds_layers h
  have he := isEmpty_eq hl.named
  rw [hc, Bool.not_false, List.isEmpty_iff] at he
  have hconfig : s.layers.config = ⟨s.root, []⟩ := by
    rw [← hl.root, ← he]
  rw [Layers.settle, he, List.isEmpty_nil, if_pos rfl, hconfig]

/-- What the layers settle into where there is a connection. -/
theorem settle_of_connected (h : s.Ordered) (hc : s.connected = true) :
    s.layers.settle =
      ({ root := s.root.filter fun e ↦
           !Keyed.contains e.1 s.standing || s.layers.flatView.contains e.1
         connections := s.layers.config.connections.map fun e ↦
           (e.1, (Table.fillMissing e.2 s.defaults).2) },
        s.layers.config.connections.flatMap fun e ↦
          (Table.fillMissing e.2 s.defaults).1.filterMap
            fun key ↦ (get? key s.standing).map (Layers.broadcastEvent e.1)) := by
  have hl := holds_layers h
  have he := isEmpty_eq hl.named
  rw [hc, Bool.not_true] at he
  rw [Layers.settle, he, if_neg Bool.false_ne_true]
  simp only [List.map_map, List.flatMap_map, hl.root]
  rw [defaults, standing, hl.root]
  rfl

/-! ### Results with connections -/

/-- Where there is a connection none is made up. -/
theorem result_of_connected (h : s.Ordered) (hc : s.connected = true) :
    s.result = s.layers.settle.1 := by
  have he := isEmpty_eq (holds_layers h).named
  rw [hc, Bool.not_true] at he
  rw [result, settle_of_connected h hc, Pass.synthesize, Config.synthesize, List.isEmpty_map, he]
  rfl

/-- A connection of the result is a connection of the layers, filled up. -/
theorem get?_result_connections (h : s.Ordered) (hc : s.connected = true) (name : String) :
    get? name s.result.connections =
      (get? name s.layers.config.connections).map fun record ↦
        (Table.fillMissing record s.defaults).2 := by
  rw [result_of_connected h hc, settle_of_connected h hc]
  exact Keyed.get?_map name (fun _ record ↦
    (Table.fillMissing record s.defaults).2) _

/-- The connections of the result are those that some answer names. -/
theorem isSome_result_connections (h : s.Ordered) (hc : s.connected = true) (name : String) :
    (get? name s.result.connections).isSome = s.names name := by
  rw [get?_result_connections h hc, Option.isSome_map, ← (holds_layers h).named, Keyed.contains]

/-- The connections of the result are in order. -/
theorem sorted_result_connections (h : s.Ordered) (hc : s.connected = true) :
    Sorted s.result.connections := by
  rw [result_of_connected h hc, settle_of_connected h hc]
  exact (holds_layers h).sorted.map fun _ record ↦ (Table.fillMissing record s.defaults).2

/-- The fields of a connection of the result. -/
theorem get?_result_field (h : s.Ordered) (hc : s.connected = true) {name : String}
    {record : Table} (hr : get? name s.result.connections = some record) (key : String) :
    get? key record = s.field? name key := by
  rw [get?_result_connections h hc, Option.map_eq_some_iff] at hr
  obtain ⟨held, hr, rfl⟩ := hr
  have hf := (holds_layers h).field name key
  rw [hr, Option.getD_some] at hf
  rw [Table.get?_fillMissing held (sorted_defaults h), get?_defaults h, hf, field?,
    Option.or_assoc]

/-- The fields of a connection of the result are in order. -/
theorem sorted_result_record (h : s.Ordered) (hc : s.connected = true) {name : String}
    {record : Table} (hr : get? name s.result.connections = some record) : Sorted record := by
  rw [get?_result_connections h hc, Option.map_eq_some_iff] at hr
  obtain ⟨held, hr, rfl⟩ := hr
  exact ((holds_layers h).sortedRecord hr).overlay _

/-- The root of the result: without the general parameters that no overlay showed. -/
theorem get?_result_root (h : s.Ordered) (hc : s.connected = true) (key : String) (v : Value) :
    get? key s.result.root = some v ↔
      get? key s.root = some v ∧ (isGeneral (key, v) = true → s.Shown key) := by
  have hl := holds_layers h
  have hs : (get? key s.standing).isSome = (s.general? key).isSome := by
    rw [← get?_defaults h, get?_defaults_eq, Option.isSome_map]
  rw [result_of_connected h hc, settle_of_connected h hc, s.sorted_root.get?_filter,
    Option.filter_eq_some_iff]
  apply and_congr_right
  intro hv
  dsimp only
  rw [Keyed.contains, hs, general?, hv, Option.filter_some, Bool.or_eq_true, List.contains_iff_mem,
    hl.flatView]
  cases isGeneral (key, v) with
  | true => simp
  | false => simp

/-! ### Results without connections -/

/-- Where there is no connection, everything that may move to the default connection does. -/
theorem result_of_not_connected (h : s.Ordered) (hc : s.connected = false) :
    s.result =
      { root := s.root.filter fun e ↦ !Config.movesToDefault e
        connections :=
          if (s.root.filter Config.movesToDefault).isEmpty then []
          else [(Parameter.defaultConnection, s.root.filter Config.movesToDefault)] } := by
  rw [result, settle_of_not_connected h hc, Pass.synthesize, Config.synthesize]
  cases he : (s.root.filter Config.movesToDefault).isEmpty with
  | false => rfl
  | true =>
    have hall : (s.root.filter fun e ↦ !Config.movesToDefault e) = s.root := by
      rw [List.filter_eq_self]
      intro e he'
      rw [List.isEmpty_iff, List.filter_eq_nil_iff] at he
      rw [Bool.not_eq_true', Bool.eq_false_iff]
      exact he e he'
    rw [hall]
    rfl

/-- The root of the result is in order. -/
theorem sorted_result_root (h : s.Ordered) : Sorted s.result.root := by
  cases hc : s.connected with
  | false =>
    rw [result_of_not_connected h hc]
    exact s.sorted_root.filter _
  | true =>
    rw [result_of_connected h hc, settle_of_connected h hc]
    exact s.sorted_root.filter _

end Supply

end LayeredConfig
