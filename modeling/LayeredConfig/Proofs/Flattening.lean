import LayeredConfig.Proofs.Leaves
import LayeredConfig.Proofs.Nested

/-!
# Flattening

Where all keys are plain, the leaves of a configuration are what is found under their dotted keys. The
paths of two leaves part from one another, so a leaf that is placed takes nothing away from the others:
a configuration without empty connections is made again from its leaves, in whatever order they are
placed.
-/

namespace LayeredConfig

open Keyed (Sorted get?)

/-- Neither of two paths leads on from the other. -/
structure Apart (path path' : List String) : Prop where
  not_begins : ¬ path <+: path'
  not_ends : ¬ path' <+: path

private theorem Apart.symm {path path' : List String} (h : Apart path path') : Apart path' path :=
  ⟨h.not_ends, h.not_begins⟩

/-! ### Leaves of tables -/

namespace Value

private theorem eq_of_prefix {v x y : Value} {path path' : List String}
    (h : v.descend path = some x)
    (hl : x.isLeaf = true) (hp : path <+: path') (hy : v.descend path' = some y) : path = path' := by
  obtain ⟨rest, rfl⟩ := hp
  cases rest with
  | nil => exact (List.append_nil path).symm
  | cons s rest =>
    rw [descend_append, h, Option.bind_some, descend_of_isLeaf hl] at hy
    cases hy

/-- A value that is no leaf is a table with something in it. -/
theorem exists_of_not_isLeaf {v : Value} (h : v.isLeaf = false) :
    ∃ t k w, v = .table t ∧ get? k t = some w := by
  cases v with
  | table t =>
    cases t with
    | nil => cases h
    | cons e rest => exact ⟨e :: rest, e.1, e.2, rfl, by rw [Keyed.get?_cons, if_pos rfl]⟩
  | _ => cases h

private theorem exists_leaf (v : Value) : ∃ path x, v.descend path = some x ∧ x.isLeaf = true := by
  cases hl : v.isLeaf with
  | true => exact ⟨[], v, descend_nil v, hl⟩
  | false =>
    obtain ⟨t, k, w, rfl, hw⟩ := exists_of_not_isLeaf hl
    obtain ⟨path, x, hx, hleaf⟩ := exists_leaf w
    refine ⟨k :: path, x, ?_, hleaf⟩
    rw [descend_table, hw]
    exact hx
termination_by sizeOf v
decreasing_by
  subst_vars
  exact Table.sizeOf_lt_of_get? hw

end Value

namespace Table

/-- A leaf stands at the end of a path into a table. -/
structure LeafAt (t : Table) (path : List String) (x : Value) : Prop where
  ne_nil : path ≠ []
  found : (Value.table t).descend path = some x
  isLeaf : x.isLeaf = true

variable {s t inner : Table} {key : String} {path path' : List String} {v x y : Value}

/-- The paths of two leaves are the same or part from one another. -/
theorem LeafAt.apart (h : t.LeafAt path x) (h' : t.LeafAt path' y) (hn : path ≠ path') :
    Apart path path' where
  not_begins hp := hn (Value.eq_of_prefix h.found h.isLeaf hp h'.found)
  not_ends hp := hn (Value.eq_of_prefix h'.found h'.isLeaf hp h.found).symm

/-- The leaves below a key are those of the table under it. -/
theorem leafAt_cons (h : get? key t = some (.table inner)) (hn : path ≠ []) :
    t.LeafAt (key :: path) x ↔ inner.LeafAt path x := by
  have hd : (Value.table t).descend (key :: path) = (Value.table inner).descend path := by
    rw [Value.descend_table, h, Option.bind_some]
  constructor
  · exact fun hx ↦ ⟨hn, hd ▸ hx.found, hx.isLeaf⟩
  · exact fun hx ↦ ⟨List.cons_ne_nil _ _, hd ▸ hx.found, hx.isLeaf⟩

private theorem exists_leafAt (h : get? key t = some v) : ∃ path x, t.LeafAt (key :: path) x := by
  obtain ⟨path, x, hx, hl⟩ := v.exists_leaf
  refine ⟨path, x, List.cons_ne_nil _ _, ?_, hl⟩
  rw [Value.descend_table, h, Option.bind_some]
  exact hx

/-- A leaf under a key is what stands at it. -/
theorem leafAt_single : t.LeafAt [key] x ↔ get? key t = some x ∧ x.isLeaf = true := by
  have hd : (Value.table t).descend [key] = get? key t := by
    rw [Value.descend_table, ← at?_eq, at?_nil]
  constructor
  · exact fun h ↦ ⟨hd ▸ h.found, h.isLeaf⟩
  · exact fun h ↦ ⟨List.cons_ne_nil _ _, hd ▸ h.1, h.2⟩

private theorem LeafAt.isSome_get? (h : t.LeafAt (key :: path) x) : (get? key t).isSome = true := by
  have hx := h.found
  rw [Value.descend_table] at hx
  obtain ⟨w, hw, -⟩ := Option.bind_eq_some_iff.mp hx
  rw [hw]
  rfl

/-- Ordered tables with the same leaves are the same. -/
theorem eq_of_leafAt {s t : Table} (hs : (Value.table s).Ordered) (ht : (Value.table t).Ordered)
    (h : ∀ path x, s.LeafAt path x ↔ t.LeafAt path x) : s = t := by
  apply hs.sorted.ext ht.sorted
  intro key
  cases ha : get? key s with
  | none =>
    cases hb : get? key t with
    | none => rfl
    | some b =>
      obtain ⟨path, x, hx⟩ := exists_leafAt hb
      have hsome := ((h _ _).mpr hx).isSome_get?
      rw [ha] at hsome
      cases hsome
  | some a =>
    cases hal : a.isLeaf with
    | true => exact (leafAt_single.mp ((h _ _).mp (leafAt_single.mpr ⟨ha, hal⟩))).1.symm
    | false =>
      obtain ⟨path, x, hx⟩ := exists_leafAt ha
      obtain ⟨b, hb⟩ := Option.isSome_iff_exists.mp ((h _ _).mp hx).isSome_get?
      have hbl : b.isLeaf = false := by
        rw [Bool.eq_false_iff]
        intro hbl
        have hsame := (leafAt_single.mp ((h _ _).mpr (leafAt_single.mpr ⟨hb, hbl⟩))).1
        rw [ha, Option.some.injEq] at hsame
        rw [hsame, hbl] at hal
        cases hal
      -- two tables: their leaves are those of the outer ones, with the key in front
      obtain ⟨s', -, -, rfl, -⟩ := Value.exists_of_not_isLeaf hal
      obtain ⟨t', -, -, rfl, -⟩ := Value.exists_of_not_isLeaf hbl
      have hinner : s' = t' := by
        apply eq_of_leafAt (hs.get? ha) (ht.get? hb)
        intro path x
        by_cases hn : path = []
        · exact iff_of_false (fun hx ↦ hx.ne_nil hn) (fun hx ↦ hx.ne_nil hn)
        · rw [← leafAt_cons ha hn, ← leafAt_cons hb hn]
          exact h _ _
      rw [hb, hinner]
termination_by sizeOf (Value.table s)
decreasing_by
  subst_vars
  exact sizeOf_lt_of_get? ha

/-- A leaf that is put at the end of a path takes the place of the one there, and comes to the others
if their paths part from it. -/
theorem leafAt_put_over {first : String} {rest : List String} (hl : v.isLeaf = true)
    (hapart : ∀ path x, t.LeafAt path x → path = first :: rest ∨ Apart path (first :: rest)) :
    (t.put first rest v).LeafAt path x ↔
      (path = first :: rest ∧ x = v) ∨ path ≠ first :: rest ∧ t.LeafAt path x := by
  have hself : (Value.table (t.put first rest v)).descend (first :: rest) = some v := by
    rw [Value.descend_table, ← at?_eq, at?_put_self]
  have hother : ∀ path, path ≠ [] → Apart path (first :: rest) →
      (Value.table (t.put first rest v)).descend path = (Value.table t).descend path := by
    intro path hn hpath
    obtain ⟨key, path, rfl⟩ := List.exists_cons_of_ne_nil hn
    rw [Value.descend_table, Value.descend_table, ← at?_eq, ← at?_eq,
      at?_put_of_apart hpath.not_ends hpath.not_begins]
  constructor
  · intro hx
    by_cases hpath : path = first :: rest
    · subst hpath
      have hfound := hx.found
      rw [hself] at hfound
      exact Or.inl ⟨rfl, (Option.some.inj hfound).symm⟩
    · have hnew : (t.put first rest v).LeafAt (first :: rest) v :=
        ⟨List.cons_ne_nil _ _, hself, hl⟩
      exact Or.inr ⟨hpath, hx.ne_nil,
        hother path hx.ne_nil (hx.apart hnew hpath) ▸ hx.found, hx.isLeaf⟩
  · rintro (⟨rfl, rfl⟩ | ⟨hpath, hx⟩)
    · exact ⟨List.cons_ne_nil _ _, hself, hl⟩
    · have hpath := (hapart path x hx).resolve_left hpath
      exact ⟨hx.ne_nil, hother path hx.ne_nil hpath ▸ hx.found, hx.isLeaf⟩

private theorem leafAt_put {first : String} {rest : List String} (hl : v.isLeaf = true)
    (hapart : ∀ path x, t.LeafAt path x → Apart path (first :: rest)) :
    (t.put first rest v).LeafAt path x ↔ (path = first :: rest ∧ x = v) ∨ t.LeafAt path x := by
  rw [leafAt_put_over hl fun path x hx ↦ Or.inr (hapart path x hx)]
  refine or_congr_right (and_iff_right_of_imp ?_)
  rintro hx rfl
  exact (hapart _ x hx).not_begins (List.prefix_refl _)

end Table

namespace Config

/-- All keys of a configuration and the names of its connections are plain. -/
structure Plain (c : Config) : Prop where
  root : (Value.table c.root).Plain
  records : (Value.table (Table.ofRecords c.connections)).Plain

/-- A path that begins at another key than that of the connections, or leads on into one of them. -/
def Inner (path : List String) : Prop :=
  path.head? ≠ some connectionsKey ∨
    ∃ name param rest, path = connectionsKey :: name :: param :: rest

variable {c c' : Config} {key : String} {path' : List String} {v x : Value}
  {entries : List (String × Value)}

/-! ### Paths and dotted keys -/

/-- A key is told by its path. -/
theorem path_inj {key key' : String} (h : path key = path key') : key = key' := by
  obtain ⟨hf, hr⟩ := List.cons.inj h
  exact segments_inj (Prod.ext hf hr)

/-- The path of the dotted key of plain keys is made of these keys. -/
theorem path_dotted (hn : path' ≠ []) (hp : ∀ s ∈ path', PlainKey s) :
    path (dotted path') = path' := by
  obtain ⟨first, rest, rfl⟩ := List.exists_cons_of_ne_nil hn
  rw [path, segments_dotted hp]

/-- Only the dotted key of plain keys has the path that is made of them. -/
theorem eq_dotted_iff (hn : path' ≠ []) (hp : ∀ s ∈ path', PlainKey s) :
    key = dotted path' ↔ path key = path' := by
  have hpath := path_dotted hn hp
  constructor
  · rintro rfl
    exact hpath
  · intro h
    exact path_inj (h.trans hpath.symm)

/-- The path of a leaf of a plain configuration is made of plain keys. -/
theorem Plain.of_leafAt (hp : c.Plain) (h : c.WellFormed) (hx : c.toNested.LeafAt path' x) :
    ∀ s ∈ path', PlainKey s := by
  obtain ⟨first, rest, rfl⟩ := List.exists_cons_of_ne_nil hx.ne_nil
  have hd := hx.found
  rw [Value.descend_table, get?_toNested h.branch] at hd
  by_cases hf : first = connectionsKey
  · subst hf
    rw [if_pos rfl] at hd
    have hbranch : PlainKey connectionsKey := by decide
    split at hd
    · cases hd
    · exact List.forall_mem_cons.mpr ⟨hbranch, hp.records.descend hd⟩
  · rw [if_neg hf, ← Value.descend_table] at hd
    exact hp.root.descend hd

/-! ### What is found -/

/-- A value is found under a key if its path leads to it, and on into connections. -/
theorem get?_eq_some_iff (hc : Keyed.get? connectionsKey c.root = none) :
    c.get? key = some x ↔
      Inner (path key) ∧ (Value.table c.toNested).descend (path key) = some x := by
  rw [descend_path hc]
  obtain ⟨first, rest, hs⟩ : ∃ first rest, segments key = (first, rest) := ⟨_, _, rfl⟩
  have hpath : path key = first :: rest := by rw [path, hs]
  rw [hpath, Inner]
  by_cases hf : first = connectionsKey
  · subst hf
    cases rest with
    | nil =>
      have hnone : c.get? key = none := by
        rw [get?, hs]
        exact (Table.at?_nil c.root connectionsKey).trans hc
      simp [hnone]
    | cons name rest =>
      cases rest with
      | nil =>
        have hnone : c.get? key = none := by
          rw [get?, hs]
          rfl
        simp [hnone]
      | cons param rest =>
        have hv : c.valueAt? key = c.get? key := by
          rw [valueAt?, hs]
          rfl
        simp [hv]
  · rw [get?_of_root hf hs, valueAt?_of_root hf hs]
    simp [hf]

/-! ### What a configuration flattens to -/

private theorem mem_leaves_root (h : c.WellFormed) (hp : c.Plain) :
    (key, x) ∈ Table.leaves "" c.root ↔
      (path key).head? ≠ some connectionsKey ∧ c.toNested.LeafAt (path key) x := by
  have hroot : ∀ first rest, first ≠ connectionsKey →
      (Value.table c.toNested).descend (first :: rest) = c.root.at? first rest := by
    intro first rest hf
    rw [Value.descend_table, Table.at?_eq, get?_toNested h.branch, if_neg hf]
  rw [Table.mem_leaves "" c.root h.root.1 h.root.2]
  constructor
  · rintro ⟨first, rest, hx, hl, hk⟩
    have hf : first ≠ connectionsKey := by
      rintro rfl
      rw [Table.at?_eq, h.branch] at hx
      cases hx
    have hx : c.toNested.LeafAt (first :: rest) x :=
      ⟨List.cons_ne_nil _ _, (hroot first rest hf).trans hx, hl⟩
    rw [(eq_dotted_iff hx.ne_nil (hp.of_leafAt h hx)).mp hk]
    exact ⟨fun he ↦ hf (Option.some.inj he), hx⟩
  · rintro ⟨hf, hx⟩
    have hf : (segments key).1 ≠ connectionsKey := fun he ↦ hf (congrArg some he)
    refine ⟨_, _, (hroot _ _ hf).symm.trans hx.found, hx.isLeaf, ?_⟩
    exact (eq_dotted_iff hx.ne_nil (hp.of_leafAt h hx)).mpr rfl

/-- Below the branch of connections stand the records under their names. -/
theorem descend_connection (h : c.WellFormed) (name : String) :
    (Value.table c.toNested).descend [connectionsKey, name] =
      (Keyed.get? name c.connections).map .table := by
  rw [Value.descend_table, ← Table.at?_eq, Table.at?_below, below_toNested h.branch, Table.at?_nil,
    Table.get?_ofRecords]

private theorem descend_record (h : c.WellFormed) (name param : String) (rest : List String) :
    (Value.table c.toNested).descend (connectionsKey :: name :: param :: rest) =
      (Keyed.get? name c.connections).bind fun record ↦ record.at? param rest := by
  have hpath := Value.descend_append (.table c.toNested) [connectionsKey, name] (param :: rest)
  rw [descend_connection h] at hpath
  refine hpath.trans ?_
  cases Keyed.get? name c.connections with
  | none => rfl
  | some record =>
    rw [Option.map_some, Option.bind_some, Option.bind_some, Value.descend_table, Table.at?_eq]

private theorem mem_leaves_connections (h : c.WellFormed) (hp : c.Plain) :
    (∃ e ∈ c.connections, (key, x) ∈ Table.leaves (connectionKey e.1 "") e.2) ↔
      (∃ name param rest, path key = connectionsKey :: name :: param :: rest) ∧
        c.toNested.LeafAt (path key) x := by
  have hsorted := Table.sorted_of_ofRecords h.records.sorted
  have hrecord : ∀ {name record}, Keyed.get? name c.connections = some record →
      (Value.table record).Ordered := by
    intro name record hr
    apply h.records.get?
    rw [Table.get?_ofRecords, hr]
    rfl
  constructor
  · rintro ⟨⟨name, record⟩, he, hm⟩
    have hr := hsorted.mem_iff.mp he
    have ho := hrecord hr
    obtain ⟨param, rest, hx, hl, hk⟩ := (Table.mem_leaves _ record ho.1 ho.2).mp hm
    rw [connectionKey_empty] at hk
    have hx : c.toNested.LeafAt (connectionsKey :: name :: param :: rest) x := by
      refine ⟨List.cons_ne_nil _ _, ?_, hl⟩
      rw [descend_record h, hr, Option.bind_some, hx]
    rw [(eq_dotted_iff hx.ne_nil (hp.of_leafAt h hx)).mp hk]
    exact ⟨⟨name, param, rest, rfl⟩, hx⟩
  · rintro ⟨⟨name, param, rest, hpath⟩, hx⟩
    have hk := (eq_dotted_iff hx.ne_nil (hp.of_leafAt h hx)).mpr rfl
    have hd := hx.found
    rw [hpath] at hk
    rw [hpath, descend_record h] at hd
    obtain ⟨record, hr, hd⟩ := Option.bind_eq_some_iff.mp hd
    have ho := hrecord hr
    refine ⟨(name, record), hsorted.mem_iff.mpr hr, ?_⟩
    rw [Table.mem_leaves _ record ho.1 ho.2, connectionKey_empty]
    exact ⟨param, rest, hd, hx.isLeaf, hk⟩

/-- A configuration flattens to the leaves on inner paths. -/
theorem mem_flatten (h : c.WellFormed) (hp : c.Plain) :
    (key, x) ∈ c.flatten ↔ Inner (path key) ∧ c.toNested.LeafAt (path key) x := by
  have hleaves : ∀ k a, (k, a) ∈ c.leaves ↔ Inner (path k) ∧ c.toNested.LeafAt (path k) a := by
    intro k a
    rw [leaves, List.mem_append, List.mem_flatMap, mem_leaves_root h hp,
      mem_leaves_connections h hp, ← or_and_right, Inner]
  rw [flatten, Keyed.mem_ofList, hleaves]
  intro k a b ha hb
  have ha := ((hleaves k a).mp ha).2.found
  rw [((hleaves k b).mp hb).2.found] at ha
  exact (Option.some.inj ha).symm

private theorem inner_of_leafAt (h : c.WellFormed) (hc : ∀ e ∈ c.connections, e.2 ≠ [])
    (hx : c.toNested.LeafAt path' x) : Inner path' := by
  obtain ⟨first, rest, rfl⟩ := List.exists_cons_of_ne_nil hx.ne_nil
  by_cases hf : first = connectionsKey
  · subst hf
    match rest with
    | [] =>
      obtain ⟨hw, hl⟩ := Table.leafAt_single.mp hx
      rw [get?_toNested h.branch, if_pos rfl] at hw
      split at hw
      · cases hw
      · next hne =>
        cases hw
        rw [Value.isLeaf_table, Table.ofRecords, Keyed.mapValues, List.map_eq_nil_iff] at hl
        exact absurd (List.isEmpty_iff.mpr hl) hne
    | [name] =>
      have hd := hx.found
      rw [descend_connection h, Option.map_eq_some_iff] at hd
      obtain ⟨record, hr, rfl⟩ := hd
      exact absurd (Value.isLeaf_table.mp hx.isLeaf) (hc _ (Keyed.mem_of_get? hr))
    | name :: param :: rest => exact Or.inr ⟨name, param, rest, rfl⟩
  · exact Or.inl fun he ↦ hf (Option.some.inj he)

/-! ### What is made of leaves -/

private theorem WellFormed.eq_of_toNested (h : c.WellFormed) (h' : c'.WellFormed)
    (he : c.toNested = c'.toNested) : c = c' := by
  have hc := h.ofNested_toNested
  rw [he, h'.ofNested_toNested, Except.ok.injEq] at hc
  exact hc.symm

/-- The configuration that is made of entries, placed one after the other. -/
def assemble (entries : List (String × Value)) : Except Misplaced Config :=
  entries.foldlM (fun c e ↦ c.set e.1 e.2) empty

private theorem exists_set (hi : Inner (path key)) (c : Config) (v : Value) :
    ∃ c', c.set key v = .ok c' := by
  rcases c.set_cases key v with ⟨c', hs, -⟩ | ⟨cause, -, hu⟩
  · exact ⟨c', hs⟩
  · rw [unplaceable_iff] at hu
    rcases hu with ⟨hs, -⟩ | ⟨name, hs, -⟩
    all_goals
      rw [path, hs] at hi
      simp [Inner] at hi

private theorem toNested_set (h : c.WellFormed) (hv : v.Ordered) (hi : Inner (path key))
    (hs : c.set key v = .ok c') :
    c'.toNested = c.toNested.put (segments key).1 (segments key).2 v := by
  have hk : key ≠ connectionsKey := by
    rintro rfl
    have hp : path connectionsKey = [connectionsKey] := by
      rw [path, segments_of_no_dot (by decide)]
    rw [hp] at hi
    simp [Inner] at hi
  apply (h.set hv hs).ordered_toNested.sorted.ext (h.ordered_toNested.put _ _ hv).sorted
  exact get?_toNested_set h.branch hk hs

private theorem leafAt_set (h : c.WellFormed) (hv : v.Ordered) (hl : v.isLeaf = true)
    (hi : Inner (path key)) (hapart : ∀ q x, c.toNested.LeafAt q x → Apart q (path key))
    (hs : c.set key v = .ok c') :
    c'.toNested.LeafAt path' x ↔ (path' = path key ∧ x = v) ∨ c.toNested.LeafAt path' x := by
  rw [toNested_set h hv hi hs]
  exact Table.leafAt_put hl hapart

/-- Leaves that may be placed in any order: their paths are inner ones and part from one another. -/
structure Scattered (entries : List (String × Value)) : Prop where
  leaf : ∀ e ∈ entries, e.2.Ordered ∧ e.2.isLeaf = true ∧ Inner (path e.1)
  apart : entries.Pairwise fun e e' ↦ Apart (path e.1) (path e'.1)

private theorem scattered_of_perm (h : c.WellFormed) (hp : c.Plain)
    (hperm : entries.Perm c.flatten) : Scattered entries where
  leaf := by
    intro e he
    obtain ⟨hi, hx⟩ := (mem_flatten h hp).mp (hperm.mem_iff.mp he)
    exact ⟨h.ordered_toNested.descend hx.found, hx.isLeaf, hi⟩
  apart := by
    rw [hperm.pairwise_iff fun h ↦ h.symm]
    apply (Keyed.sorted_ofList c.leaves).imp_of_mem
    intro e e' he he' hlt
    have hx := ((mem_flatten h hp).mp he).2
    have hx' := ((mem_flatten h hp).mp he').2
    exact hx.apart hx' fun hk ↦ String.ne_of_lt hlt (path_inj hk)

private theorem Scattered.place (hs : Scattered entries) (h : c.WellFormed)
    (hapart : ∀ q x, c.toNested.LeafAt q x → ∀ e ∈ entries, Apart q (path e.1)) :
    ∃ c', entries.foldlM (fun c e ↦ c.set e.1 e.2) c = .ok c' ∧ c'.WellFormed ∧
      ∀ q x, c'.toNested.LeafAt q x ↔
        (∃ e ∈ entries, q = path e.1 ∧ x = e.2) ∨ c.toNested.LeafAt q x := by
  induction entries generalizing c with
  | nil => exact ⟨c, rfl, h, by simp⟩
  | cons e entries ih =>
    obtain ⟨⟨hv, hl, hi⟩, hleaf⟩ := List.forall_mem_cons.mp hs.leaf
    obtain ⟨hfirst, hpairs⟩ := List.pairwise_cons.mp hs.apart
    obtain ⟨c₁, hset⟩ := exists_set hi c e.2
    have hleaves : ∀ q x, c₁.toNested.LeafAt q x ↔
        (q = path e.1 ∧ x = e.2) ∨ c.toNested.LeafAt q x := fun q x ↦
      leafAt_set h hv hl hi (fun q x hx ↦ hapart q x hx e List.mem_cons_self) hset
    obtain ⟨c', hrun, hc', hall⟩ := ih ⟨hleaf, hpairs⟩ (h.set hv hset) (by
      intro q x hx e' he'
      rcases (hleaves q x).mp hx with ⟨rfl, -⟩ | hx
      · exact hfirst e' he'
      · exact hapart q x hx e' (List.mem_cons_of_mem _ he'))
    refine ⟨c', ?_, hc', ?_⟩
    · rw [List.foldlM_cons, hset]
      exact hrun
    · intro q x
      rw [hall, hleaves]
      simp only [List.mem_cons, exists_eq_or_imp]
      rw [or_left_comm, or_assoc]

/-- A configuration flattens to what is found under dotted keys and is a leaf. Without empty
connections it is made again from what it flattens to, in whatever order. -/
theorem flatten_invertible (h : c.WellFormed) (hp : c.Plain) :
    (∀ key x, (key, x) ∈ c.flatten ↔ c.get? key = some x ∧ x.isLeaf = true) ∧
      ((∀ e ∈ c.connections, e.2 ≠ []) → ∀ entries : List (String × Value),
        entries.Perm c.flatten → assemble entries = .ok c) := by
  constructor
  · intro key x
    rw [mem_flatten h hp, get?_eq_some_iff h.branch, and_assoc]
    apply and_congr_right
    intro _
    exact ⟨fun hx ↦ ⟨hx.found, hx.isLeaf⟩, fun hx ↦ ⟨List.cons_ne_nil _ _, hx.1, hx.2⟩⟩
  · intro hc entries hperm
    have hnone : ∀ q x, ¬ empty.toNested.LeafAt q x := by
      intro q x hx
      obtain ⟨s, rest, rfl⟩ := List.exists_cons_of_ne_nil hx.ne_nil
      cases hx.found
    obtain ⟨c', hrun, hc', hall⟩ := (scattered_of_perm h hp hperm).place wellFormed_empty
      fun q x hx ↦ absurd hx (hnone q x)
    -- both have the leaves that were placed
    have hnested : c'.toNested = c.toNested := by
      apply Table.eq_of_leafAt hc'.ordered_toNested h.ordered_toNested
      intro q x
      rw [hall, or_iff_left (hnone q x)]
      constructor
      · rintro ⟨e, he, rfl, rfl⟩
        exact ((mem_flatten h hp).mp (hperm.mem_iff.mp he)).2
      · intro hx
        have hk := path_dotted hx.ne_nil (hp.of_leafAt h hx)
        have he : (dotted q, x) ∈ c.flatten := by
          rw [mem_flatten h hp, hk]
          exact ⟨inner_of_leafAt h hc hx, hx⟩
        exact ⟨(dotted q, x), hperm.mem_iff.mpr he, hk.symm, rfl⟩
    rw [assemble, hrun, hc'.eq_of_toNested h hnested]

/-- The leaves of a table, an empty table and an account are placed in the other order. -/
theorem flatten_invertible_proxy :
    let c : Config :=
      { root := [("extra", .table []), ("proxy", .table [("host", .string "h"), ("port", .int 1)])]
        connections := [("dev", [("account", .string "a")])] }
    c.WellFormed ∧ c.Plain ∧ c.get? "connections.dev.account" = some (.string "a") ∧
      assemble [("proxy.port", .int 1), ("proxy.host", .string "h"), ("extra", .table []),
        ("connections.dev.account", .string "a")] = .ok c := by
  intro c
  have h : c.WellFormed := ⟨by decide, rfl, by decide⟩
  have hp : c.Plain := ⟨by decide, by decide⟩
  obtain ⟨hflat, hmake⟩ := flatten_invertible h hp
  have hkeys : c.flatten = [("connections.dev.account", .string "a"), ("extra", .table []),
      ("proxy.host", .string "h"), ("proxy.port", .int 1)] := rfl
  refine ⟨h, hp, ((hflat _ _).mp ?_).1, hmake ?_ _ ?_⟩
  · rw [hkeys]
    exact List.mem_cons_self
  · intro e he
    cases List.mem_singleton.mp he
    exact List.cons_ne_nil _ _
  · exact List.reverse_perm c.flatten

end Config

end LayeredConfig
