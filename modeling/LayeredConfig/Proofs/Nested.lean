import LayeredConfig.Proofs.Narrow
import LayeredConfig.Proofs.Placement

/-!
# The nested form

A configuration and its nested form tell the same. Splitting the nested form yields the configuration
again, and what a table is split into has the table as its nested form, but for a branch of
connections without any. This holds of configurations whose keys ascend and whose root has no key for
connections, and nothing that is done to a configuration makes it another.
-/

namespace LayeredConfig

open Keyed (Sorted)

/-! ### Ordered tables -/

namespace Value.Ordered

variable {t : Table} {v : Value}

/-- The empty table is ordered. -/
theorem nil : (Value.table []).Ordered := ⟨Keyed.sorted_nil, trivial⟩

/-- An ordered value may be inserted. -/
theorem insert (h : (Value.table t).Ordered) (key : String) (hv : v.Ordered) :
    (Value.table (Keyed.insert key v t)).Ordered := by
  apply ordered_table (h.sorted.insert key v)
  intro k w hw
  rw [Keyed.get?_insert] at hw
  split at hw
  · exact Option.some.inj hw ▸ hv
  · exact h.get? hw

/-- Entries may be left out. -/
theorem filter (h : (Value.table t).Ordered) (p : String × Value → Bool) :
    (Value.table (t.filter p)).Ordered := by
  apply ordered_table (h.sorted.filter p)
  intro k w hw
  exact h.2.of_mem (List.mem_filter.mp (Keyed.mem_of_get? hw)).1

/-- The table under a key is ordered. -/
theorem below (h : (Value.table t).Ordered) (key : String) :
    (Value.table (t.below key)).Ordered := by
  rw [Table.below]
  cases hw : Keyed.get? key t with
  | none => exact nil
  | some w =>
    have hw : w.Ordered := h.get? hw
    cases w with
    | table inner => exact hw
    | _ => exact nil

/-- An ordered value may be put at the end of a path. -/
theorem put (h : (Value.table t).Ordered) (first : String) (rest : List String) (hv : v.Ordered) :
    (Value.table (t.put first rest v)).Ordered := by
  induction rest generalizing t first with
  | nil => exact h.insert first hv
  | cons s rest ih =>
    rw [Table.put_cons]
    exact h.insert first (ih (h.below first) s)

private theorem overlay {records new : Keyed Table}
    (h : (Value.table (Table.ofRecords records)).Ordered)
    (hn : OrderedEntries (Table.ofRecords new)) :
    (Value.table (Table.ofRecords (Keyed.overlay records new))).Ordered := by
  induction new generalizing records with
  | nil => exact h
  | cons e rest ih =>
    have hinsert := h.insert e.1 hn.1
    rw [← Table.ofRecords_insert] at hinsert
    exact ih hinsert hn.2

end Value.Ordered

/-- A table without a branch of connections that holds none. -/
def Table.withoutEmptyBranch (t : Table) : Table :=
  match Keyed.get? connectionsKey t with
  | some (.table []) => Keyed.erase connectionsKey t
  | _ => t

namespace Config

/-! ### Well-formed configurations -/

/-- All keys ascend, and the root has none for the connections. -/
structure WellFormed (c : Config) : Prop where
  root : (Value.table c.root).Ordered
  branch : Keyed.get? connectionsKey c.root = none
  records : (Value.table (Table.ofRecords c.connections)).Ordered

variable {c c' : Config} {t : Table} {key : String} {v : Value}

/-- The nested form of a well-formed configuration is ordered. -/
theorem WellFormed.ordered_toNested (h : c.WellFormed) : (Value.table c.toNested).Ordered := by
  rw [toNested]
  split
  · exact h.root
  · exact h.root.insert connectionsKey h.records

/-- Splitting the nested form of a well-formed configuration yields the configuration. -/
theorem WellFormed.ofNested_toNested (h : c.WellFormed) : ofNested c.toNested = .ok c := by
  have hroot : Keyed.erase connectionsKey c.toNested = c.root := by
    apply (h.ordered_toNested.sorted.erase _).ext h.root.sorted
    intro key
    rw [Keyed.get?_erase, get?_toNested h.branch]
    split
    · next hk => rw [← hk, h.branch]
    · next hk => rw [if_neg (Ne.symm hk)]
  rw [ofNested, get?_toNested h.branch, if_pos rfl, hroot]
  cases hc : c.connections with
  | nil =>
    rw [List.isEmpty_nil, if_pos rfl, ← hc]
  | cons e rest =>
    rw [List.isEmpty_cons, if_neg Bool.false_ne_true]
    dsimp only
    rw [Table.records_ofRecords, ← hc]

/-- An ordered table is split into a well-formed configuration. -/
theorem wellFormed_of_ofNested (ht : (Value.table t).Ordered) (h : ofNested t = .ok c) :
    c.WellFormed := by
  obtain ⟨hroot, hbranch⟩ := ofNested_ok h
  constructor
  · rw [hroot, Keyed.erase_eq_filter]
    exact ht.filter _
  · rw [hroot, Keyed.get?_erase, if_pos rfl]
  · rcases hbranch with ⟨-, hc⟩ | hb
    · rw [hc]
      exact Value.Ordered.nil
    · exact ht.get? hb

private theorem toNested_of_ofNested (ht : (Value.table t).Ordered) (h : ofNested t = .ok c) :
    c.toNested = t.withoutEmptyBranch := by
  have hc := wellFormed_of_ofNested ht h
  obtain ⟨hroot, hbranch⟩ := ofNested_ok h
  -- where the branch of the nested form is that of the table, all keys of the two agree
  have same : (if c.connections.isEmpty then none
      else some (.table (Table.ofRecords c.connections))) = Keyed.get? connectionsKey t →
        c.toNested = t := by
    intro hb
    apply hc.ordered_toNested.sorted.ext ht.sorted
    intro key
    rw [get?_toNested hc.branch]
    split
    · next hk => rw [hk, hb]
    · next hk => rw [hroot, Keyed.get?_erase, if_neg (Ne.symm hk)]
  rw [Table.withoutEmptyBranch]
  rcases hbranch with ⟨hb, hnone⟩ | hb
  · rw [hb]
    apply same
    rw [hnone, hb]
    rfl
  · rw [hb]
    cases hl : c.connections with
    | nil =>
      rw [toNested, hl]
      exact hroot
    | cons e rest =>
      apply same
      rw [hb, hl]
      rfl

/-! ### What is done to configurations -/

/-- Something that is done to a configuration, or makes one. -/
inductive Operation where
  | new
  | ofNested (t : Table)
  | set (key : String) (v : Value)
  | synthesize

namespace Operation

/-- The keys of what an operation is given ascend. -/
def Ordered : Operation → Prop
  | .ofNested t => (Value.table t).Ordered
  | .set _ v => v.Ordered
  | .new | .synthesize => True

instance : (o : Operation) → Decidable o.Ordered
  | .ofNested t => inferInstanceAs (Decidable (Value.table t).Ordered)
  | .set _ v => inferInstanceAs (Decidable v.Ordered)
  | .new | .synthesize => .isTrue trivial

/-- The configuration that an operation leaves; one that fails leaves what it found. -/
def apply (c : Config) : Operation → Config
  | .new => .empty
  | .ofNested t =>
    match Config.ofNested t with
    | .ok c' => c'
    | .error _ => c
  | .set key v =>
    match c.set key v with
    | .ok c' => c'
    | .error _ => c
  | .synthesize => c.synthesize.2

end Operation

/-- The configuration after some operations, the first on an empty one. -/
def after (operations : List Operation) : Config := operations.foldl Operation.apply empty

/-- The empty configuration is well formed. -/
theorem wellFormed_empty : empty.WellFormed := ⟨.nil, rfl, .nil⟩

/-- A configuration in which an ordered value was placed is well formed. -/
theorem WellFormed.set (h : c.WellFormed) (hv : v.Ordered) (hset : c.set key v = .ok c') :
    c'.WellFormed := by
  have hbranch := get?_root_set h.branch hset
  cases writes_set hset with
  | branch records _ hr => exact ⟨h.root, hbranch, h.records.overlay (hr ▸ hv).2⟩
  | connection name record _ hr =>
    refine ⟨h.root, hbranch, ?_⟩
    rw [Table.ofRecords_insert]
    exact h.records.insert name (hr ▸ hv)
  | field name param rest =>
    refine ⟨h.root, hbranch, ?_⟩
    rw [Table.ofRecords_insert, ← Table.below_ofRecords]
    exact h.records.insert name ((h.records.below name).put param rest hv)
  | root first rest => exact ⟨h.root.put first rest hv, hbranch, h.records⟩

private theorem WellFormed.synthesize (h : c.WellFormed) : c.synthesize.2.WellFormed := by
  rw [Config.synthesize]
  split
  · exact h
  · have hmoved := h.root.filter movesToDefault
    refine ⟨h.root.filter _, ?_, Value.Ordered.nil.insert Parameter.defaultConnection hmoved⟩
    rw [h.root.sorted.get?_filter, h.branch]
    rfl

private theorem WellFormed.apply (h : c.WellFormed) {o : Operation} (ho : o.Ordered) :
    (o.apply c).WellFormed := by
  cases o with
  | new => exact wellFormed_empty
  | ofNested t =>
    rw [Operation.apply]
    cases hs : Config.ofNested t with
    | ok c' => exact wellFormed_of_ofNested ho hs
    | error cause => exact h
  | set key v =>
    rw [Operation.apply]
    cases hs : c.set key v with
    | ok c' => exact h.set ho hs
    | error cause => exact h
  | synthesize => exact h.synthesize

/-- Whatever operations are applied, the configuration stays well formed. -/
theorem wellFormed_after {operations : List Operation} (h : ∀ o ∈ operations, o.Ordered) :
    (after operations).WellFormed := by
  have all : ∀ c : Config, c.WellFormed → (operations.foldl Operation.apply c).WellFormed := by
    induction operations with
    | nil => exact fun _ hc ↦ hc
    | cons o operations ih =>
      rw [List.forall_mem_cons] at h
      exact fun c hc ↦ ih h.2 _ (hc.apply h.1)
  exact all empty wellFormed_empty

/-- Whatever was done to a configuration, splitting its nested form yields the configuration, and
under every key it has what the path leads to in the nested form. What a table is split into has the
table as its nested form, without an empty branch, and a table cannot be split exactly if its branch
of connections is something else than tables. -/
theorem nested_lawful :
    (∀ operations : List Operation, (∀ o ∈ operations, o.Ordered) →
      ofNested (after operations).toNested = .ok (after operations) ∧
        ∀ key, (after operations).valueAt? key =
          (after operations).toNested.at? (segments key).1 (segments key).2) ∧
      ∀ t : Table, (Value.table t).Ordered →
        (∀ c, ofNested t = .ok c → c.toNested = t.withoutEmptyBranch) ∧
          ((∃ cause, ofNested t = .error cause) ↔
            ∃ v, Keyed.get? connectionsKey t = some v ∧ ¬ v.TableOfTables) := by
  constructor
  · intro operations ho
    have h := wellFormed_after ho
    exact ⟨h.ofNested_toNested, valueAt?_eq h.branch⟩
  · intro t ht
    refine ⟨fun c hc ↦ toNested_of_ofNested ht hc, ?_⟩
    rcases ofNested_cases t with ⟨c, hs, hall⟩ | ⟨cause, hs, hnot⟩
    · rw [hs]
      refine iff_of_false (fun ⟨_, he⟩ ↦ by cases he) ?_
      rintro ⟨v, hv, hn⟩
      exact hn (hall v hv)
    · exact iff_of_true ⟨cause, hs⟩ hnot

/-- A host is placed in a table, a scalar in the place of a connection is refused, and the account
moves to the default connection. The account is found under its path, and an empty branch of
connections is left out of the nested form. -/
theorem nested_lawful_default :
    let operations : List Operation :=
      [.ofNested [("account", .string "a"), ("connections", .table [])],
        .set "proxy.host" (.string "h"), .set "connections.dev" .null, .synthesize]
    let c : Config :=
      { root := [("proxy", .table [("host", .string "h")])]
        connections := [("default", [("account", .string "a")])] }
    (∀ o ∈ operations, o.Ordered) ∧ after operations = c ∧ ofNested c.toNested = .ok c ∧
      c.valueAt? "connections.default.account" = some (.string "a") ∧
      ∃ c', ofNested [("connections", .table []), ("theme", .string "dark")] = .ok c' ∧
        c'.toNested = [("theme", .string "dark")] := by
  intro operations c
  have ho : ∀ o ∈ operations, o.Ordered := by decide
  have hc : after operations = c := rfl
  obtain ⟨hnested, hvalue⟩ := nested_lawful.1 operations ho
  rw [hc] at hnested hvalue
  obtain ⟨hsplit, -⟩ := nested_lawful.2 [("connections", .table []), ("theme", .string "dark")]
    (by decide)
  exact ⟨ho, hc, hnested, hvalue "connections.default.account", _, rfl, hsplit _ rfl⟩

end Config

end LayeredConfig
