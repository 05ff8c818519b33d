import LayeredConfig.Proofs.ByteOrder
import LayeredConfig.Proofs.DefaultSections
import LayeredConfig.Proofs.Flattening
import LayeredConfig.Proofs.Refusal
import LayeredConfig.Source

/-!
# What variables set

A scheme names a place for some variables, and several of them may have one place. The variables are
put into a table in the order of their bytes, so under each place the last of them is found. All
places of one scheme are equally deep: no value stands in the way of another.
-/

namespace LayeredConfig

open Keyed (Sorted get?)

namespace Text

/-- A lead is followed by the rest. -/
theorem after?_eq_some_iff {lead s rest : String} :
    after? lead s = some rest ↔ s = lead ++ rest := by
  constructor
  · exact eq_of_after?
  · rintro rfl
    have hsome : (after? lead (lead ++ rest)).isSome = true := by
      rw [after?, Option.isSome_map, List.isSome_isPrefixOf?_eq_isPrefixOf,
        List.isPrefixOf_iff_prefix, String.toList_append]
      exact List.prefix_append _ _
    obtain ⟨rest', hrest⟩ := Option.isSome_iff_exists.mp hsome
    rw [hrest, (String.append_right_inj lead).mp (eq_of_after? hrest)]

/-- A text does not start with a lead if nothing makes it of the lead. -/
theorem after?_eq_none_iff {lead s : String} : after? lead s = none ↔ ∀ rest, s ≠ lead ++ rest := by
  rw [Option.eq_none_iff_forall_ne_some]
  exact forall_congr' fun rest ↦ not_congr after?_eq_some_iff

/-- A tail is preceded by the rest. -/
theorem before?_eq_some_iff {tail s rest : List Char} :
    before? tail s = some rest ↔ s = rest ++ tail := by
  rw [before?, Option.map_eq_some_iff]
  constructor
  · rintro ⟨reversed, h, rfl⟩
    rw [← List.reverse_inj, List.reverse_append, List.reverse_reverse,
      List.append_eq_of_isPrefixOf?_eq_some h]
  · rintro rfl
    refine ⟨rest.reverse, ?_, List.reverse_reverse rest⟩
    rw [List.reverse_append, List.isPrefixOf?_eq_some_iff_append_eq]

end Text

private theorem Apart.or_eq_of_length {path path' : List String} (h : path.length = path'.length) :
    path = path' ∨ Apart path path' := by
  by_cases he : path = path'
  · exact Or.inl he
  · exact Or.inr ⟨fun hp ↦ he (hp.eq_of_length h), fun hp ↦ he (hp.eq_of_length h.symm).symm⟩

namespace Scheme

variable {s : Scheme} {name connection parameter : String} {path path' : List String}
  {t : Table} {x : Value} {bindings : List (String × String)}

/-! ### Places -/

/-- The place of a variable's value, as one path. -/
def place? (s : Scheme) (name : String) : Option (List String) :=
  (s.path? name).map fun (first, rest) ↦ first :: rest

/-- What follows the lead is the name of a connection, an underscore and a parameter, letters in
lower case. -/
structure Splits (rest connection parameter : String) : Prop where
  isParameter : Parameter.isParameter parameter = true
  ne_empty : connection ≠ ""
  eq_append : Text.lowerAscii rest = connection ++ "_" ++ parameter

/-- The places that the schemes name. -/
inductive Names : Scheme → String → List String → Prop
  | snowsql {rest : String} (h : Parameter.isParameter (Parameter.current rest) = true) :
    Names .snowsql ("SNOWSQL_" ++ rest) [Parameter.current rest]
  | connection {rest connection parameter : String} (h : Splits rest connection parameter)
    (longest : ∀ connection' parameter', Splits rest connection' parameter' →
      parameter'.length ≤ parameter.length) :
    Names .connectionScoped ("SNOWFLAKE_CONNECTIONS_" ++ rest)
      [connectionsKey, connection, parameter]
  | default :
    Names .cli "SNOWFLAKE_DEFAULT_CONNECTION_NAME" ["default_connection_name"]
  | cli {rest : String} (h : Parameter.isParameter (Text.lowerAscii rest) = true)
    (other : ∀ rest', "SNOWFLAKE_" ++ rest ≠ "SNOWFLAKE_CONNECTIONS_" ++ rest') :
    Names .cli ("SNOWFLAKE_" ++ rest) [Text.lowerAscii rest]

/-- A parameter leaves what stands before its underscore, if that is something. -/
theorem connectionBefore?_eq_some_iff {lower found : List Char} :
    connectionBefore? lower parameter = some found ↔
      found ≠ [] ∧ lower = found ++ '_' :: parameter.toList := by
  rw [← Text.before?_eq_some_iff, connectionBefore?]
  cases hb : Text.before? ('_' :: parameter.toList) lower with
  | none => simp
  | some before =>
    cases before with
    | nil => simp +contextual [eq_comm]
    | cons c before => simp +contextual [eq_comm]

/-- The ways in which a rest splits. -/
theorem mem_splits {rest : String} :
    (connection, parameter) ∈ (Parameter.all.filterMap fun p ↦
        (connectionBefore? (Text.lowerAscii rest).toList p).map fun n ↦ (String.ofList n, p)) ↔
      Splits rest connection parameter := by
  simp only [List.mem_filterMap, Option.map_eq_some_iff, Prod.mk.injEq,
    connectionBefore?_eq_some_iff]
  constructor
  · rintro ⟨p, hp, found, ⟨hne, hl⟩, rfl, rfl⟩
    refine ⟨List.contains_iff_mem.mpr hp, ?_, ?_⟩
    · rwa [Ne, String.ofList_eq_empty_iff]
    · rw [← String.toList_inj, hl]
      simp
  · rintro ⟨hp, hne, hl⟩
    refine ⟨parameter, List.contains_iff_mem.mp hp, connection.toList, ⟨?_, ?_⟩,
      String.ofList_toList, rfl⟩
    · rwa [Ne, String.toList_eq_nil_iff]
    · rw [hl]
      simp

/-- Of two splits one is kept, and the other one has no longer parameter. -/
theorem exists_longer (best : Option (String × String)) (first : String × String) :
    ∃ kept, splitConnection?.longer best first = some kept ∧ (kept = first ∨ best = some kept) ∧
      ∀ e, e = first ∨ best = some e → e.2.length ≤ kept.2.length := by
  cases best with
  | none =>
    refine ⟨first, rfl, Or.inl rfl, ?_⟩
    rintro e (rfl | he)
    · exact Nat.le_refl _
    · cases he
  | some b =>
    rw [splitConnection?.longer]
    split
    · next hle =>
      refine ⟨first, rfl, Or.inl rfl, ?_⟩
      rintro e (rfl | he)
      · exact Nat.le_refl _
      · rwa [← Option.some.inj he]
    · next hle =>
      refine ⟨b, rfl, Or.inr rfl, ?_⟩
      rintro e (rfl | he)
      · exact Nat.le_of_not_le hle
      · rw [Option.some.inj he]

private theorem foldl_longer {found : List (String × String)} {best : Option (String × String)}
    {e : String × String} (h : found.foldl splitConnection?.longer best = some e) :
    (e ∈ found ∨ best = some e) ∧
      ∀ e', e' ∈ found ∨ best = some e' → e'.2.length ≤ e.2.length := by
  induction found generalizing best with
  | nil =>
    obtain rfl : best = some e := h
    refine ⟨Or.inr rfl, ?_⟩
    rintro e' (he' | he')
    · exact absurd he' List.not_mem_nil
    · rw [Option.some.inj he']
  | cons first found ih =>
    obtain ⟨kept, hk, hfrom, hkept⟩ := exists_longer best first
    obtain ⟨hmem, hmax⟩ := ih h
    have hle := hmax kept (Or.inr hk)
    simp only [List.mem_cons, or_assoc]
    constructor
    · rcases hmem with hmem | hmem
      · exact Or.inr (Or.inl hmem)
      · rw [hk, Option.some.injEq] at hmem
        subst hmem
        exact hfrom.imp_right Or.inr
    · rintro e' (he' | he' | he')
      · exact (hkept e' (Or.inl he')).trans hle
      · exact hmax e' (Or.inl he')
      · exact (hkept e' (Or.inr he')).trans hle

/-- Some split is kept if there is one. -/
theorem isSome_foldl_longer {found : List (String × String)} {best : Option (String × String)}
    (h : found ≠ [] ∨ best.isSome = true) :
    (found.foldl splitConnection?.longer best).isSome = true := by
  induction found generalizing best with
  | nil => exact h.resolve_left fun hn ↦ hn rfl
  | cons first found ih =>
    obtain ⟨kept, hk, -, -⟩ := exists_longer best first
    exact ih (Or.inr (Option.isSome_of_eq_some hk))

private theorem Splits.eq_of_length {rest connection' parameter' : String}
    (h : Splits rest connection parameter) (h' : Splits rest connection' parameter')
    (hl : parameter.length = parameter'.length) :
    connection = connection' ∧ parameter = parameter' := by
  have heq := h.eq_append.symm.trans h'.eq_append
  simp only [← String.toList_inj, String.toList_append] at heq ⊢
  obtain ⟨hc, hp⟩ := List.append_inj' heq hl
  exact ⟨List.append_cancel_right hc, hp⟩

/-- A rest splits at the longest parameter that leaves a name. -/
theorem splitConnection?_eq_some_iff {rest : String} :
    splitConnection? rest = some (connection, parameter) ↔
      Splits rest connection parameter ∧ ∀ connection' parameter',
        Splits rest connection' parameter' → parameter'.length ≤ parameter.length := by
  have hlongest : ∀ e, splitConnection? rest = some e →
      Splits rest e.1 e.2 ∧ ∀ connection' parameter',
        Splits rest connection' parameter' → parameter'.length ≤ e.2.length := by
    intro e he
    obtain ⟨hmem, hmax⟩ := foldl_longer he
    refine ⟨mem_splits.mp (hmem.resolve_right nofun), ?_⟩
    intro connection' parameter' h'
    exact hmax (connection', parameter') (Or.inl (mem_splits.mpr h'))
  constructor
  · exact hlongest (connection, parameter)
  · rintro ⟨h, hmax⟩
    have hsome : (splitConnection? rest).isSome = true :=
      isSome_foldl_longer (Or.inl (List.ne_nil_of_mem (mem_splits.mpr h)))
    obtain ⟨e, he⟩ := Option.isSome_iff_exists.mp hsome
    obtain ⟨h', hmax'⟩ := hlongest e he
    obtain ⟨hc, hp⟩ := h.eq_of_length h' (Nat.le_antisymm (hmax' _ _ h) (hmax _ _ h'))
    rw [he, hc, hp]

private theorem defaultConnectionVariable_eq :
    defaultConnectionVariable = "SNOWFLAKE_" ++ "DEFAULT_CONNECTION_NAME" := by
  decide

/-- Behind a lead a scheme takes the parameters that it reads there. -/
theorem map_parameterPath?_eq_some_iff {lead : String} {read : String → String} :
    (((Text.after? lead name).bind fun rest ↦ parameterPath? (read rest)).map
        fun (first, rest) ↦ first :: rest) = some path ↔
      ∃ rest, name = lead ++ rest ∧ Parameter.isParameter (read rest) = true ∧
        path = [read rest] := by
  simp only [Option.map_eq_some_iff, Option.bind_eq_some_iff, Text.after?_eq_some_iff,
    parameterPath?]
  constructor
  · rintro ⟨_, ⟨rest, hn, h⟩, rfl⟩
    split at h
    · next hp =>
      cases h
      exact ⟨rest, hn, hp, rfl⟩
    · cases h
  · rintro ⟨rest, hn, hp, rfl⟩
    exact ⟨_, ⟨rest, hn, if_pos hp⟩, rfl⟩

/-- The variables of the oldest scheme and their places. -/
theorem names_snowsql_iff :
    Names .snowsql name path ↔
      ∃ rest, name = "SNOWSQL_" ++ rest ∧ Parameter.isParameter (Parameter.current rest) = true ∧
        path = [Parameter.current rest] := by
  constructor
  · rintro (⟨h⟩)
    exact ⟨_, rfl, h, rfl⟩
  · rintro ⟨rest, rfl, h, rfl⟩
    exact .snowsql h

/-- The general variables and their places. -/
theorem names_cli_iff :
    Names .cli name path ↔
      (name = defaultConnectionVariable ∧ path = ["default_connection_name"]) ∨
        ((∀ rest, name ≠ connectionsLead ++ rest) ∧ ∃ rest, name = "SNOWFLAKE_" ++ rest ∧
          Parameter.isParameter (Text.lowerAscii rest) = true ∧ path = [Text.lowerAscii rest]) := by
  constructor
  · rintro (_ | _ | _ | ⟨h, other⟩)
    · exact Or.inl ⟨rfl, rfl⟩
    · exact Or.inr ⟨other, _, rfl, h, rfl⟩
  · rintro (⟨rfl, rfl⟩ | ⟨other, rest, rfl, h, rfl⟩)
    · exact .default
    · exact .cli h other

private theorem place?_connectionScoped :
    connectionScoped.place? name = some path ↔ Names .connectionScoped name path := by
  simp only [place?, path?, Option.map_eq_some_iff, Option.bind_eq_some_iff,
    Text.after?_eq_some_iff, Prod.exists, splitConnection?_eq_some_iff, Prod.mk.injEq]
  constructor
  · rintro ⟨_, _, ⟨rest, rfl, connection, parameter, ⟨h, hmax⟩, rfl, rfl⟩, rfl⟩
    exact .connection h hmax
  · rintro (_ | ⟨h, hmax⟩)
    exact ⟨_, _, ⟨_, rfl, _, _, ⟨h, hmax⟩, rfl, rfl⟩, rfl⟩

private theorem place?_cli : cli.place? name = some path ↔ Names .cli name path := by
  rw [names_cli_iff, place?, path?]
  by_cases hd : name = defaultConnectionVariable
  · subst hd
    rw [if_pos rfl, Option.map_some, Option.some.injEq, eq_comm]
    refine ⟨fun h ↦ Or.inl ⟨rfl, h⟩, ?_⟩
    rintro (⟨-, h⟩ | ⟨-, rest, hn, hp, -⟩)
    · exact h
    · rw [defaultConnectionVariable_eq, String.append_right_inj] at hn
      subst hn
      exact absurd hp (by decide)
  · rw [if_neg hd, or_iff_right (fun h ↦ hd h.1)]
    cases ho : Text.after? connectionsLead name with
    | some rest => exact iff_of_false nofun fun h ↦ h.1 rest (Text.eq_of_after? ho)
    | none =>
      rw [and_iff_right (Text.after?_eq_none_iff.mp ho)]
      exact map_parameterPath?_eq_some_iff

/-- The place of a variable is the one that its scheme names. -/
theorem place?_eq_some_iff : s.place? name = some path ↔ s.Names name path := by
  cases s with
  | snowsql =>
    rw [names_snowsql_iff]
    exact map_parameterPath?_eq_some_iff
  | connectionScoped => exact place?_connectionScoped
  | cli => exact place?_cli

private theorem snowsql_ne_snowflake (rest rest' : String) :
    "SNOWSQL_" ++ rest ≠ "SNOWFLAKE_" ++ rest' := by
  intro h
  rw [← String.toList_inj, String.toList_append, String.toList_append] at h
  simp at h

private theorem connections_append (rest : String) :
    "SNOWFLAKE_CONNECTIONS_" ++ rest = "SNOWFLAKE_" ++ ("CONNECTIONS_" ++ rest) := by
  rw [← String.append_assoc]
  rfl

private theorem Names.lead (h : s.Names name path) :
    (s = .snowsql ↔ ∃ rest, name = "SNOWSQL_" ++ rest) ∧
      (s = .connectionScoped ↔ ∃ rest, name = "SNOWFLAKE_CONNECTIONS_" ++ rest) := by
  cases h with
  | snowsql h =>
    refine ⟨iff_of_true rfl ⟨_, rfl⟩, iff_of_false nofun ?_⟩
    rintro ⟨rest', hn⟩
    rw [connections_append] at hn
    exact snowsql_ne_snowflake _ _ hn
  | connection h longest =>
    refine ⟨iff_of_false nofun ?_, iff_of_true rfl ⟨_, rfl⟩⟩
    rintro ⟨rest', hn⟩
    rw [connections_append] at hn
    exact snowsql_ne_snowflake _ _ hn.symm
  | default =>
    refine ⟨iff_of_false nofun ?_, iff_of_false nofun ?_⟩
    · exact not_exists.mpr (Text.after?_eq_none_iff.mp rfl)
    · exact not_exists.mpr (Text.after?_eq_none_iff.mp rfl)
  | cli h other =>
    refine ⟨iff_of_false nofun ?_, iff_of_false nofun (not_exists.mpr other)⟩
    rintro ⟨rest', hn⟩
    exact snowsql_ne_snowflake _ _ hn.symm

private theorem Names.unique {s' : Scheme} (h : s.Names name path) (h' : s'.Names name path') :
    s = s' ∧ path = path' := by
  have hs : s = s' := by
    have hsnowsql := h.lead.1.trans h'.lead.1.symm
    have hconnections := h.lead.2.trans h'.lead.2.symm
    cases s <;> cases s' <;> simp at hsnowsql hconnections <;> rfl
  subst hs
  exact ⟨rfl, Option.some.inj ((place?_eq_some_iff.mpr h).symm.trans (place?_eq_some_iff.mpr h'))⟩

/-! ### Taking variables in order -/

/-- How deep the places of a scheme are. -/
def depth : Scheme → Nat
  | .connectionScoped => 3
  | .snowsql | .cli => 1

/-- All places of a scheme are equally deep. -/
theorem Names.length_eq (h : s.Names name path) : path.length = s.depth := by
  cases h <;> rfl

/-- Order of bytes: by name, then by value. -/
def Before (a b : String × String) : Prop :=
  Text.bytes a.1 < Text.bytes b.1 ∨ a.1 = b.1 ∧ Text.bytes a.2 < Text.bytes b.2

/-- Variables are taken in the order of their bytes. -/
theorem precedes_iff {a b : String × String} : precedes a b = true ↔ a = b ∨ Before a b := by
  rw [precedes, Before, Text.bytes_lt_iff, Text.bytes_lt_iff, Prod.ext_iff]
  simp only [Bool.or_eq_true, Bool.and_eq_true, decide_eq_true_eq, beq_iff_eq, le_iff_lt_or_eq]
  tauto

private theorem Before.asymm {a b : String × String} (h : Before a b) : ¬ Before b a := by
  rw [Before, Text.bytes_lt_iff, Text.bytes_lt_iff] at h ⊢
  rcases h with h | ⟨hn, h⟩
  · rintro (h' | ⟨hn, -⟩)
    · exact lt_asymm h h'
    · exact h.ne hn.symm
  · rintro (h' | ⟨-, h'⟩)
    · exact h'.ne hn.symm
    · exact lt_asymm h h'

private theorem Before.trans {a b c : String × String} (hab : Before a b) (hbc : Before b c) :
    Before a c := by
  rw [Before, Text.bytes_lt_iff, Text.bytes_lt_iff] at *
  rcases hab with hab | ⟨hn, hab⟩
  · rcases hbc with hbc | ⟨hn', -⟩
    · exact Or.inl (hab.trans hbc)
    · exact Or.inl (hn' ▸ hab)
  · rcases hbc with hbc | ⟨hn', hbc⟩
    · exact Or.inl (hn ▸ hbc)
    · exact Or.inr ⟨hn.trans hn', hab.trans hbc⟩

private theorem before_or_eq_or_before (a b : String × String) :
    Before a b ∨ a = b ∨ Before b a := by
  rw [Before, Before, Prod.ext_iff]
  simp only [Text.bytes_lt_iff]
  rcases lt_trichotomy a.1 b.1 with hn | hn | hn
  · exact Or.inl (Or.inl hn)
  · rcases lt_trichotomy a.2 b.2 with hv | hv | hv
    · exact Or.inl (Or.inr ⟨hn, hv⟩)
    · exact Or.inr (Or.inl ⟨hn, hv⟩)
    · exact Or.inr (Or.inr (Or.inr ⟨hn.symm, hv⟩))
  · exact Or.inr (Or.inr (Or.inl hn))

/-- Of the variables with one place the last in the order of bytes. -/
structure LastAt (s : Scheme) (bindings : List (String × String)) (path : List String)
    (b : String × String) : Prop where
  mem : b ∈ bindings
  names : s.Names b.1 path
  last : ∀ b' ∈ bindings, s.Names b'.1 path → b' = b ∨ Before b' b

private theorem LastAt.unique {b b' : String × String} (h : s.LastAt bindings path b)
    (h' : s.LastAt bindings path b') : b = b' := by
  rcases h.last b' h'.mem h'.names with rfl | hlt
  · rfl
  · rcases h'.last b h.mem h.names with rfl | hlt'
    · rfl
    · exact absurd hlt' hlt.asymm

/-- A value that is put takes the place of what is there, and leaves all other leaves. -/
theorem leafAt_take {b : String × String} (h : ∀ path x, t.LeafAt path x → path.length = s.depth) :
    (s.take t b).LeafAt path x ↔
      s.Names b.1 path ∧ x = .string b.2 ∨ ¬ s.Names b.1 path ∧ t.LeafAt path x := by
  rw [← place?_eq_some_iff, take, place?]
  cases hp : s.path? b.1 with
  | none => simp
  | some place =>
    obtain ⟨first, rest⟩ := place
    have hnames : s.Names b.1 (first :: rest) := by
      rw [← place?_eq_some_iff, place?, hp]
      rfl
    have hapart : ∀ path x, t.LeafAt path x →
        path = first :: rest ∨ Apart path (first :: rest) := fun path x hx ↦
      Apart.or_eq_of_length ((h path x hx).trans hnames.length_eq.symm)
    have hleaf : (Value.string b.2).isLeaf = true := rfl
    simp only [Option.map_some, Option.some.injEq]
    rw [eq_comm, Table.leafAt_put_over hleaf hapart]

private theorem length_of_leafAt_foldl_take (h : (bindings.foldl s.take []).LeafAt path x) :
    path.length = s.depth := by
  induction bindings using List.reverseRecOn generalizing path x with
  | nil =>
    obtain ⟨key, rest, rfl⟩ := List.exists_cons_of_ne_nil h.ne_nil
    cases h.found
  | append_singleton bindings b ih =>
    rw [List.foldl_append, List.foldl_cons, List.foldl_nil, leafAt_take fun path x ↦ ih] at h
    rcases h with ⟨hn, -⟩ | ⟨-, hx⟩
    · exact hn.length_eq
    · exact ih hx

private theorem exists_lastAt_append {b : String × String}
    (hlast : ∀ b' ∈ bindings, precedes b' b) :
    (∃ b', s.LastAt (bindings ++ [b]) path b' ∧ x = .string b'.2) ↔
      s.Names b.1 path ∧ x = .string b.2 ∨
        ¬ s.Names b.1 path ∧ ∃ b', s.LastAt bindings path b' ∧ x = .string b'.2 := by
  by_cases hn : s.Names b.1 path
  · have hb : s.LastAt (bindings ++ [b]) path b := by
      refine ⟨List.mem_append_right _ List.mem_cons_self, hn, ?_⟩
      intro b' hb' _
      rcases List.mem_append.mp hb' with hb' | hb'
      · exact precedes_iff.mp (hlast b' hb')
      · exact Or.inl (List.mem_singleton.mp hb')
    simp only [hn, true_and, not_true_eq_false, false_and, or_false]
    constructor
    · rintro ⟨b', hb', rfl⟩
      rw [hb.unique hb']
    · rintro rfl
      exact ⟨b, hb, rfl⟩
  · simp only [hn, false_and, not_false_eq_true, true_and, false_or]
    have hmem : ∀ b', s.Names b'.1 path → (b' ∈ bindings ++ [b] ↔ b' ∈ bindings) := by
      intro b' hn'
      rw [List.mem_append, or_iff_left]
      rw [List.mem_singleton]
      rintro rfl
      exact hn hn'
    refine exists_congr fun b' ↦ and_congr_left fun _ ↦ ⟨fun h ↦ ?_, fun h ↦ ?_⟩
    · exact ⟨(hmem b' h.names).mp h.mem, h.names, fun a ha hna ↦ h.last a ((hmem a hna).mpr ha) hna⟩
    · exact ⟨(hmem b' h.names).mpr h.mem, h.names, fun a ha hna ↦ h.last a ((hmem a hna).mp ha) hna⟩

private theorem leafAt_foldl_take (hs : bindings.Pairwise fun a b ↦ precedes a b) :
    (bindings.foldl s.take []).LeafAt path x ↔
      ∃ b, s.LastAt bindings path b ∧ x = .string b.2 := by
  induction bindings using List.reverseRecOn with
  | nil =>
    refine iff_of_false ?_ ?_
    · intro h
      obtain ⟨key, rest, rfl⟩ := List.exists_cons_of_ne_nil h.ne_nil
      cases h.found
    · rintro ⟨b, hb, -⟩
      exact List.not_mem_nil hb.mem
  | append_singleton bindings b ih =>
    obtain ⟨hs, -, hlast⟩ := List.pairwise_append.mp hs
    rw [List.foldl_append, List.foldl_cons, List.foldl_nil,
      leafAt_take fun path x ↦ length_of_leafAt_foldl_take, ih hs,
      exists_lastAt_append fun b' hb' ↦ hlast b' hb' b List.mem_cons_self]

/-! ### Tables of variables -/

private theorem pairwise_mergeSort_precedes (bindings : List (String × String)) :
    (bindings.mergeSort precedes).Pairwise fun a b ↦ precedes a b := by
  apply List.pairwise_mergeSort
  · intro a b c hab hbc
    rw [precedes_iff] at hab hbc ⊢
    rcases hab with rfl | hab
    · exact hbc
    · rcases hbc with rfl | hbc
      · exact Or.inr hab
      · exact Or.inr (hab.trans hbc)
  · intro a b
    rw [Bool.or_eq_true, precedes_iff, precedes_iff]
    rcases before_or_eq_or_before a b with hlt | rfl | hlt
    · exact Or.inl (Or.inr hlt)
    · exact Or.inl (Or.inl rfl)
    · exact Or.inr (Or.inr hlt)

/-- Which variable is the last does not depend on how they are listed. -/
theorem LastAt.congr {b : String × String} {bindings' : List (String × String)}
    (h : s.LastAt bindings path b) (hm : ∀ b, b ∈ bindings ↔ b ∈ bindings') :
    s.LastAt bindings' path b :=
  ⟨(hm b).mp h.mem, h.names, fun b' hb' ↦ h.last b' ((hm b').mpr hb')⟩

/-- The table of variables holds the last of those for each place, and nothing else. -/
theorem leafAt_tableOf :
    (s.tableOf bindings).LeafAt path x ↔ ∃ b, s.LastAt bindings path b ∧ x = .string b.2 := by
  rw [tableOf, leafAt_foldl_take (pairwise_mergeSort_precedes bindings)]
  have hm : ∀ b, b ∈ bindings.mergeSort precedes ↔ b ∈ bindings := fun b ↦ List.mem_mergeSort
  refine exists_congr fun b ↦ and_congr_left fun _ ↦ ⟨fun h ↦ h.congr hm, fun h ↦ h.congr ?_⟩
  exact fun b ↦ (hm b).symm

private theorem ordered_take (ht : (Value.table t).Ordered) (b : String × String) :
    (Value.table (s.take t b)).Ordered := by
  rw [take]
  split
  · exact ht.put _ _ trivial
  · exact ht

/-- The table of variables is ordered. -/
theorem ordered_tableOf (s : Scheme) (bindings : List (String × String)) :
    (Value.table (s.tableOf bindings)).Ordered := by
  rw [tableOf]
  induction bindings.mergeSort precedes using List.reverseRecOn with
  | nil => exact .nil
  | append_singleton bindings b ih =>
    rw [List.foldl_append]
    exact ordered_take ih b

private theorem tableOf_congr (s : Scheme) {bindings bindings' : List (String × String)}
    (h : ∀ b, b ∈ bindings ↔ b ∈ bindings') : s.tableOf bindings = s.tableOf bindings' := by
  apply Table.eq_of_leafAt (ordered_tableOf s bindings) (ordered_tableOf s bindings')
  intro path x
  rw [leafAt_tableOf, leafAt_tableOf]
  refine exists_congr fun b ↦ and_congr_left fun _ ↦ ⟨fun hb ↦ hb.congr h, fun hb ↦ hb.congr ?_⟩
  exact fun b ↦ (h b).symm

/-- The places of parameters, of parameters of connections and of the name of the default
connection. -/
def Known (path : List String) : Prop :=
  (∃ parameter, Parameter.isParameter parameter = true ∧ path = [parameter]) ∨
    (∃ connection parameter, connection ≠ "" ∧ Parameter.isParameter parameter = true ∧
      path = [connectionsKey, connection, parameter]) ∨
    path = ["default_connection_name"]

private theorem not_known_connections : ¬ Known [connectionsKey] := by
  rintro (⟨parameter, hp, h⟩ | ⟨_, _, -, -, h⟩ | h)
  · rw [List.singleton_inj] at h
    subst h
    revert hp
    decide
  · cases h
  · revert h
    decide

private theorem not_known_connection : ¬ Known [connectionsKey, name] := by
  rintro (⟨_, -, h⟩ | ⟨_, _, -, -, h⟩ | h)
  all_goals simp at h

/-- Schemes name such places only. -/
theorem Names.known (h : s.Names name path) : Known path := by
  cases h with
  | snowsql h => exact Or.inl ⟨_, h, rfl⟩
  | connection h _ => exact Or.inr (Or.inl ⟨_, _, h.ne_empty, h.isParameter, rfl⟩)
  | default => exact Or.inr (Or.inr rfl)
  | cli h _ => exact Or.inl ⟨_, h, rfl⟩

private theorem exists_ofNested_tableOf (s : Scheme) (bindings : List (String × String)) :
    ∃ c, Config.ofNested (s.tableOf bindings) = .ok c := by
  have hknown : ∀ path x, (s.tableOf bindings).LeafAt path x → Known path := by
    intro path x hx
    obtain ⟨b, hb, -⟩ := leafAt_tableOf.mp hx
    exact hb.names.known
  rcases Config.ofNested_cases (s.tableOf bindings) with ⟨c, hc, -⟩ | ⟨_, -, v, hv, hnot⟩
  · exact ⟨c, hc⟩
  refine absurd ?_ hnot
  have hvl : v.isLeaf = false := by
    rw [Bool.eq_false_iff]
    exact fun hl ↦ not_known_connections (hknown _ _ (Table.leafAt_single.mpr ⟨hv, hl⟩))
  obtain ⟨entries, _, _, rfl, -⟩ := Value.exists_of_not_isLeaf hvl
  rw [Value.tableOfTables_table]
  intro e he
  have hs := ((ordered_tableOf s bindings).get? hv).sorted
  have hel : e.2.isLeaf = false := by
    rw [Bool.eq_false_iff]
    intro hl
    have hleaf := Table.leafAt_single.mpr ⟨hs.mem_iff.mp he, hl⟩
    rw [← Table.leafAt_cons hv (List.cons_ne_nil _ _)] at hleaf
    exact not_known_connection (hknown _ _ hleaf)
  obtain ⟨_, _, _, ht, -⟩ := Value.exists_of_not_isLeaf hel
  rw [ht]
  rfl

end Scheme

/-- Variables are found in whatever order they are listed: under each place that the scheme names
the value of the last in the order of bytes, and nothing else. What is found can always be split,
and no variable is taken by another scheme. -/
theorem EnvironmentSource.discover_lawful (w : World) (source : EnvironmentSource) :
    ∃ t, (Source.environment source).discover w none = (.ok t, .environment source) ∧
      (∀ bindings, bindings.Perm (source.bindings.getD w.environment) →
        ((Source.environment { source with bindings := some bindings }).discover w none).1 =
          .ok t) ∧
      (Value.table t).Ordered ∧
      (∀ path x, t.LeafAt path x ↔
        ∃ b, source.scheme.LastAt (source.bindings.getD w.environment) path b ∧
          x = .string b.2) ∧
      (∀ path x, t.LeafAt path x → Scheme.Known path) ∧
      (∃ c, Config.ofNested t = .ok c) ∧
      ∀ name path path' s, source.scheme.Names name path → Scheme.Names s name path' →
        s = source.scheme ∧ path' = path := by
  have hleaf : ∀ path x,
      (source.scheme.tableOf (source.bindings.getD w.environment)).LeafAt path x ↔
        ∃ b, source.scheme.LastAt (source.bindings.getD w.environment) path b ∧ x = .string b.2 :=
    fun path x ↦ Scheme.leafAt_tableOf
  refine ⟨_, rfl, ?_, Scheme.ordered_tableOf _ _, hleaf, ?_, Scheme.exists_ofNested_tableOf _ _, ?_⟩
  · intro bindings hperm
    exact congrArg Except.ok (Scheme.tableOf_congr source.scheme fun b ↦ hperm.mem_iff)
  · intro path x hx
    obtain ⟨b, hb, -⟩ := (hleaf path x).mp hx
    exact hb.names.known
  · intro name path path' s h h'
    exact h'.unique h

/-- Of two spellings of one variable the one in lower case is the last, whichever is listed first,
and the scheme of free-standing parameters does not take it. -/
theorem EnvironmentSource.discover_lawful_role :
    let listed := [("SNOWFLAKE_CONNECTIONS_dev_role", "a"), ("SNOWFLAKE_CONNECTIONS_DEV_ROLE", "b")]
    let source : EnvironmentSource := { scheme := .connectionScoped, bindings := some listed }
    ∃ t, (Source.environment source).discover {} none = (.ok t, .environment source) ∧
      ((Source.environment { source with bindings := some listed.reverse }).discover {} none).1 =
        .ok t ∧
      t.LeafAt ["connections", "dev", "role"] (.string "a") ∧
      ∀ path, ¬ Scheme.Names .cli "SNOWFLAKE_CONNECTIONS_dev_role" path := by
  intro listed source
  obtain ⟨t, ht, hperm, -, hleaf, -, -, hother⟩ := discover_lawful {} source
  have hlower :
      source.scheme.Names "SNOWFLAKE_CONNECTIONS_dev_role" ["connections", "dev", "role"] :=
    Scheme.place?_eq_some_iff.mp rfl
  refine ⟨t, ht, hperm _ (List.reverse_perm listed), ?_, ?_⟩
  · refine (hleaf _ _).mpr ⟨_, ⟨List.mem_cons_self, hlower, ?_⟩, rfl⟩
    intro b hb _
    rcases List.mem_cons.mp hb with rfl | hb
    · exact Or.inl rfl
    · obtain rfl := List.mem_singleton.mp hb
      exact Or.inr (Or.inl (Text.bytes_lt_iff.mpr (by decide)))
  · intro path h
    cases (hother _ _ _ _ hlower h).1

end LayeredConfig
