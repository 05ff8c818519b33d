import LayeredConfig.Proofs.Narrow
import LayeredConfig.Proofs.Placement

/-!
# The part under a key

Selecting a key leaves of a table the way to what stands under it, and nothing else: each table on the
way keeps one entry. What has been selected can be selected again, or further down, with the same
outcome as from the whole table.
-/

namespace LayeredConfig

open Keyed (get?)

namespace Table

private theorem narrow_congr {t t' : Table} {first : String} (h : get? first t = get? first t')
    (rest : List String) : t.narrow first rest = t'.narrow first rest := by
  cases rest <;> rw [narrow, narrow, h]

/-- A table can be narrowed step by step: first to a part of the path and then to the whole. -/
theorem narrow_append (t : Table) (first : String) (rest more : List String) :
    (t.narrow first rest).narrow first (rest ++ more) = t.narrow first (rest ++ more) := by
  induction rest generalizing t first with
  | nil =>
    apply narrow_congr
    cases h : get? first t with
    | none => rw [narrow_of_none h, Keyed.get?_nil]
    | some v => rw [narrow_nil h, Keyed.get?_cons, if_pos rfl]
  | cons s rest ih =>
    cases h : get? first t with
    | none => simp only [narrow_of_none h, narrow_of_none (Keyed.get?_nil first)]
    | some v =>
      cases hv : v.isTable with
      | false =>
        simp only [List.cons_append, narrow_of_not_table h hv,
          narrow_of_none (Keyed.get?_nil first)]
      | true =>
        obtain ⟨inner, rfl⟩ := Value.isTable_iff.mp hv
        have ih := ih inner s
        rw [narrow_cons h, List.cons_append, narrow_cons h, ← ih]
        split
        · next hn => simp only [hn, narrow_of_none (Keyed.get?_nil _), if_true]
        · have hkept (v : Value) : get? first [(first, v)] = some v := by
            rw [Keyed.get?_cons, if_pos rfl]
          rw [narrow_cons (hkept _)]

private theorem descend_narrow_of_prefix {t : Table} {first : String} {rest : List String}
    (hn : t.narrow first rest ≠ []) {before after : List String} {s : String}
    (hs : first :: rest = before ++ s :: after) :
    ∃ v, (Value.table (t.narrow first rest)).descend before = some (.table [(s, v)]) := by
  induction before generalizing t first rest with
  | nil =>
    obtain ⟨rfl, -⟩ := List.cons.inj hs
    obtain ⟨v, hv⟩ := (narrow_shape t first rest).resolve_left hn
    exact ⟨v, by rw [hv, Value.descend_nil]⟩
  | cons first' before ih =>
    obtain ⟨rfl, hrest⟩ := List.cons.inj hs
    obtain ⟨next, rest, rfl⟩ : ∃ next rest', rest = next :: rest' := by
      cases rest with
      | nil => simp at hrest
      | cons next rest => exact ⟨next, rest, rfl⟩
    cases h : get? first t with
    | none => exact absurd (narrow_of_none h _) hn
    | some v =>
      cases hv : v.isTable with
      | false => exact absurd (narrow_of_not_table h hv next rest) hn
      | true =>
        obtain ⟨inner, rfl⟩ := Value.isTable_iff.mp hv
        rw [narrow_cons h] at hn ⊢
        have hi : Table.narrow inner next rest ≠ [] := fun hi ↦ hn (if_pos hi)
        obtain ⟨v, hd⟩ := ih hi hrest
        refine ⟨v, ?_⟩
        rw [if_neg hi, Value.descend_table, Keyed.get?_cons, if_pos rfl, Option.bind_some, hd]

/-- A part of a table is the way to the end of a path, and nothing but that. -/
structure IsWay (t : Table) (path : List String) (part : Table) : Prop where
  eq_nil_iff : part = [] ↔ (Value.table t).descend path = none
  keeps : part ≠ [] → (Value.table part).descend path = (Value.table t).descend path
  single : part ≠ [] → ∀ before s after, path = before ++ s :: after →
    ∃ v, (Value.table part).descend before = some (.table [(s, v)])

/-- What a table is narrowed to is the way. -/
theorem isWay_narrow (t : Table) (first : String) (rest : List String) :
    t.IsWay (first :: rest) (t.narrow first rest) where
  eq_nil_iff := by rw [narrow_eq_nil_iff, at?_eq, Value.descend_table]
  keeps := by
    intro _
    rw [Value.descend_table, Value.descend_table, ← at?_eq, ← at?_eq, at?_narrow]
  single := fun hn _ _ _ hs ↦ descend_narrow_of_prefix hn hs

/-- Selecting a key further down from what was selected is selecting it from the whole table. -/
theorem select_select (t : Table) {key key' : String} (h : Config.path key <+: Config.path key') :
    (t.select (some key)).select (some key') = t.select (some key') := by
  obtain ⟨more, hmore⟩ := h
  obtain ⟨hfirst, hrest⟩ := List.cons.inj hmore
  have hs : segments key' = ((segments key).1, (segments key).2 ++ more) := by
    rw [hfirst]
    exact Prod.ext rfl hrest.symm
  simp only [select, hs]
  exact narrow_append t _ _ more

/-- Selecting a key leaves the way to what stands under it: nothing exactly if nothing stands there,
and else the same value at the end of tables with one entry each. Selecting the key again changes
nothing, and a key further down can be selected from what is left as from the whole table. -/
theorem select_lawful (t : Table) (key : String) :
    t.IsWay (Config.path key) (t.select (some key)) ∧
      (t.select (some key)).select (some key) = t.select (some key) ∧
      ∀ key', Config.path key <+: Config.path key' →
        (t.select (some key)).select (some key') = t.select (some key') :=
  ⟨isWay_narrow t _ _, select_select t (List.prefix_refl _), fun _ h ↦ select_select t h⟩

/-- From the way to a connection on to its user, as from the whole table; behind a dot that ends a key
the empty segment is asked for, and nothing is there. -/
theorem select_lawful_user :
    let t : Table := [("account", .string "flat"), ("connections", .table
      [("a", .table [("account", .string "acct1"), ("user", .string "u")])])]
    (t.select (some "connections.a")).select (some "connections.a.user") =
        [("connections", .table [("a", .table [("user", .string "u")])])] ∧
      t.select (some "connections.a.") = [] := by
  intro t
  obtain ⟨-, -, hfurther⟩ := select_lawful t "connections.a"
  obtain ⟨hway, -, -⟩ := select_lawful t "connections.a."
  refine ⟨?_, hway.eq_nil_iff.mpr ?_⟩
  · rw [hfurther "connections.a.user" (by decide)]
    rfl
  · rfl

end Table

end LayeredConfig
