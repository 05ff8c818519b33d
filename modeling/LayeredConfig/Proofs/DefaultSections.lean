import LayeredConfig.Proofs.ConnectionFiles
import LayeredConfig.Proofs.IniTables
import Mathlib

/-!
# Default connections of legacy files

The section of all connections and that of the default one both set parameters of the default
connection. The second is an entry of the first, and entries are taken in the order of their keys.
So each of the two counts over the other for some parameters: it is told by the name of a parameter.
-/

namespace LayeredConfig

open Keyed (Sorted get?)

/-- A sorted map falls apart at a key that is in it. -/
theorem Keyed.Sorted.split {α : Type} {k : String} {a : α} {m : Keyed α} (h : Sorted m)
    (ha : get? k m = some a) :
    ∃ before after, m = before ++ (k, a) :: after ∧ (∀ e ∈ before, e.1 < k) ∧
      ∀ e ∈ after, k < e.1 := by
  obtain ⟨before, after, rfl⟩ := List.append_of_mem (mem_of_get? ha)
  obtain ⟨-, hafter, hbefore⟩ := List.pairwise_append.mp h
  exact ⟨before, after, rfl, fun e he ↦ hbefore e he _ List.mem_cons_self,
    (List.pairwise_cons.mp hafter).1⟩

/-- What follows a lead is the rest of the text. -/
theorem Text.eq_of_after? {lead s rest : String} (h : Text.after? lead s = some rest) :
    s = lead ++ rest := by
  obtain ⟨tail, htail, rfl⟩ := Option.map_eq_some_iff.mp h
  rw [← String.toList_inj, String.toList_append, String.toList_ofList,
    List.append_eq_of_isPrefixOf?_eq_some htail]

namespace Parameter

/-- A parameter has its name in lower case or in the place of an older one. -/
theorem current_cases (key : String) :
    current key = Text.lowerAscii key ∨ (Text.lowerAscii key, current key) ∈ legacyNames := by
  rw [current]
  dsimp only
  split
  · next old name hfind =>
    have hold : old = Text.lowerAscii key := by simpa using List.find?_some hfind
    rw [← hold]
    exact Or.inr (List.mem_of_find?_eq_some hfind)
  · exact Or.inl rfl

private theorem legacyNames_side : ∀ e ∈ legacyNames,
    (e.1 < defaultConnection ↔ e.2 < defaultConnection) ∧
      (defaultConnection < e.1 ↔ defaultConnection < e.2) := by
  decide

private theorem current_side {key : String} (h : Text.lowerAscii key = key) :
    (key < defaultConnection ↔ current key < defaultConnection) ∧
      (defaultConnection < key ↔ defaultConnection < current key) := by
  rcases current_cases key with hc | hc
  · rw [hc, h]
    exact ⟨Iff.rfl, Iff.rfl⟩
  · rw [h] at hc
    exact legacyNames_side _ hc

end Parameter

namespace Layout

open Parameter (current defaultConnection)

variable {t entries own : Table} {text : String}

/-- What entries set a parameter to, under the name in use now. Of several the last one counts. -/
def given? (param : String) (entries : Table) : Option Value :=
  (entries.reverse.find? fun e ↦ current e.1 == param).map Prod.snd

/-- Later entries count over earlier ones. -/
theorem given?_append (param : String) (before after : Table) :
    given? param (before ++ after) = (given? param after).or (given? param before) := by
  rw [given?, List.reverse_append, List.find?_append, Option.map_or]
  rfl

private theorem given?_eq_none {param : String} (h : ∀ e ∈ entries, current e.1 ≠ param) :
    given? param entries = none := by
  rw [given?, Option.map_eq_none_iff, List.find?_eq_none]
  intro e he
  rw [beq_iff_eq]
  exact h e (List.mem_reverse.mp he)

private theorem given?_plain_eq_none {param : String} (h : ∀ e ∈ entries, current e.1 ≠ param) :
    given? param entries.plain = none :=
  given?_eq_none fun e he ↦ h e (List.mem_filter.mp he).1

private theorem get?_foldl_putParameter (param : String) (entries record : Table) :
    get? param (entries.foldl putParameter record) =
      (given? param entries).or (get? param record) := by
  induction entries generalizing record with
  | nil => rfl
  | cons e rest ih =>
    have hone : get? param (putParameter record e) = (given? param [e]).or (get? param record) := by
      rw [putParameter, Keyed.get?_insert]
      by_cases hc : current e.1 = param <;> simp [given?, hc]
    rw [List.foldl_cons, ih, hone, ← Option.or_assoc, ← given?_append]
    rfl

/-- A parameter of a connection. -/
def field? (name param : String) (records : Keyed Table) : Option Value :=
  (get? name records).bind (get? param)

/-- Parameters that are added to a connection are found there and nowhere else. -/
theorem field?_addParameters (name param name' : String) (parameters : Table)
    (records : Keyed Table) :
    field? name param (addParameters name' parameters records) =
      if name' = name then (given? param parameters).or (field? name param records)
      else field? name param records := by
  rw [field?, addParameters, changeRecord, Keyed.get?_insert]
  by_cases hn : name' = name
  · subst hn
    rw [if_pos rfl, if_pos rfl, Option.bind_some, get?_foldl_putParameter, field?]
    cases get? name' records <;> rfl
  · rw [if_neg hn, if_neg hn, field?]

private theorem addEntry_of_not_table {e : String × Value} (h : e.2.isTable = false)
    (records : Keyed Table) :
    addEntry records e = addParameters defaultConnection [e] records := by
  obtain ⟨key, v⟩ := e
  cases v with
  | table parameters => cases h
  | _ => rfl

private theorem field?_foldl_addEntry (param : String) (h : ∀ e ∈ entries, e.1 ≠ defaultConnection)
    (records : Keyed Table) :
    field? defaultConnection param (entries.foldl addEntry records) =
      (given? param entries.plain).or (field? defaultConnection param records) := by
  induction entries generalizing records with
  | nil => rfl
  | cons e rest ih =>
    obtain ⟨hne, hrest⟩ := List.forall_mem_cons.mp h
    rw [List.foldl_cons, ih hrest]
    cases hv : e.2.isTable with
    | true =>
      obtain ⟨parameters, hp⟩ := Value.isTable_iff.mp hv
      have hplain : Table.plain (e :: rest) = Table.plain rest :=
        List.filter_cons_of_neg (by simp [hv])
      rw [hplain, addEntry, hp]
      dsimp only
      rw [field?_addParameters, if_neg hne]
    | false =>
      have hplain : Table.plain (e :: rest) = [e] ++ Table.plain rest :=
        List.filter_cons_of_pos (by simp [hv])
      rw [hplain, given?_append, addEntry_of_not_table hv, field?_addParameters, if_pos rfl,
        Option.or_assoc]

private theorem field?_add_of_ne (param : String) {e : String × Value}
    (hlower : Text.lowerAscii e.1 = e.1)
    (hne : e.1 ≠ connectionsKey) (hdotted : e.1 ≠ "connections.default") (l : Legacy) :
    field? defaultConnection param (l.add e).connections =
      field? defaultConnection param l.connections := by
  obtain ⟨key, v⟩ := e
  cases v with
  | table entries =>
    rw [Legacy.add]
    dsimp only at hlower hne hdotted ⊢
    rw [hlower, if_neg hne]
    split
    · rfl
    · split
      · next name hname =>
        rw [field?_addParameters, if_neg]
        rintro rfl
        exact hdotted (Text.eq_of_after? hname)
      · rfl
  | _ => rfl

private theorem field?_foldl_add (param : String) (h : ∀ e ∈ t, Text.lowerAscii e.1 = e.1 ∧
      e.1 ≠ connectionsKey ∧ e.1 ≠ "connections.default") (l : Legacy) :
    field? defaultConnection param (t.foldl Legacy.add l).connections =
      field? defaultConnection param l.connections := by
  induction t generalizing l with
  | nil => rfl
  | cons e rest ih =>
    obtain ⟨⟨hlower, hne, hdotted⟩, hrest⟩ := List.forall_mem_cons.mp h
    rw [List.foldl_cons, ih hrest, field?_add_of_ne param hlower hne hdotted]

private theorem at?_ofLegacy (sections : Table) (name param : String) :
    (ofLegacy sections).at? connectionsKey [name, param] =
      field? name param (sections.foldl Legacy.add {}).connections := by
  rw [ofLegacy]
  generalize sections.foldl Legacy.add {} = l
  obtain ⟨connections, shared⟩ := l
  dsimp only
  cases connections with
  | nil => cases shared <;> rfl
  | cons e rest =>
    rw [List.isEmpty_cons, if_neg Bool.false_ne_true, Table.at?_eq, Keyed.get?_insert_self,
      Option.bind_some, Value.descend_table, Table.get?_ofRecords, field?]
    cases get? name (e :: rest) with
    | none => rfl
    | some record =>
      simp only [Option.map_some, Option.bind_some, Value.descend_table]
      cases get? param record <;> simp [Value.descend_nil]

/-! ### Precedence -/

private theorem field?_sections (param : String) (ho : Sorted entries)
    (hlower : Ini.InLowerCase entries) (hd : get? defaultConnection entries = some (.table own))
    {records : Keyed Table} (hnew : field? defaultConnection param records = none) :
    field? defaultConnection param (entries.foldl addEntry records) =
      if defaultConnection < param then (given? param entries.plain).or (given? param own)
      else (given? param own).or (given? param entries.plain) := by
  obtain ⟨before, after, rfl, hbefore, hafter⟩ := ho.split hd
  have hfold : field? defaultConnection param
      ((before ++ (defaultConnection, .table own) :: after).foldl addEntry records) =
        (given? param (Table.plain after)).or
          ((given? param own).or (given? param (Table.plain before))) := by
    rw [List.foldl_append, List.foldl_cons,
      field?_foldl_addEntry param fun e he ↦ (String.ne_of_lt (hafter e he)).symm, addEntry,
      field?_addParameters, if_pos rfl,
      field?_foldl_addEntry param fun e he ↦ String.ne_of_lt (hbefore e he), hnew, Option.or_none]
  have hplain : Table.plain (before ++ (defaultConnection, .table own) :: after) =
      Table.plain before ++ Table.plain after := by
    rw [Table.plain, List.filter_append]
    rfl
  rw [hfold, hplain, given?_append]
  -- Keys stay on their side when they are renamed, so only one part of the section has the
  -- parameter.
  split
  · next hp =>
    have hnone : given? param (Table.plain before) = none := by
      apply given?_plain_eq_none
      rintro e he rfl
      have hside := Parameter.current_side (hlower e (List.mem_append_left _ he))
      exact String.lt_asymm hp (hside.1.mp (hbefore e he))
    rw [hnone, Option.or_none, Option.or_none]
  · next hp =>
    have hnone : given? param (Table.plain after) = none := by
      apply given?_plain_eq_none
      rintro e he rfl
      have hside := Parameter.current_side
        (hlower e (List.mem_append_right _ (List.mem_cons_of_mem _ he)))
      exact hp (hside.2.mp (hafter e he))
    rw [hnone, Option.none_or, Option.none_or]

/-- Whether every parameter of the default connection that two sections set has its value from the
first of them. -/
def Prevails (m one other : Table) : Prop :=
  ∀ param v, given? param one = some v → (given? param other).isSome →
    m.at? connectionsKey [defaultConnection, param] = some v

private theorem pathOf_ne_dotted (name : String) : (Ini.pathOf name).1 ≠ "connections.default" := by
  refine Ini.pathOf_ne_path ?_ ?_ ?_ name
  · intro s hs
    have hsegments : segments "connections.default" = ("connections", ["default"]) := by cbv
    rw [hsegments] at hs
    rcases List.mem_cons.mp hs with rfl | hs
    · exact ⟨by decide, List.all_eq_true.mp (by decide)⟩
    · rw [List.mem_singleton.mp hs]
      exact ⟨by decide, List.all_eq_true.mp (by decide)⟩
  · decide
  · have hall : "connections.default".toList.all
        (fun d ↦ decide (d.toNat < 128 ∧ d ≠ 'k')) = true := by decide
    intro d hd
    exact of_decide_eq_true (List.all_eq_true.mp hall d hd)

private theorem exists_field?_sections (param : String) (h : Ini.Regular t)
    (hc : get? connectionsKey t = some (.table entries)) :
    ∃ records, field? defaultConnection param records = none ∧
      (ofLegacy t).at? connectionsKey [defaultConnection, param] =
        field? defaultConnection param (entries.foldl addEntry records) := by
  obtain ⟨before, after, rfl, hbefore, hafter⟩ := h.ordered.sorted.split hc
  have hother : ∀ e ∈ before ++ after, Text.lowerAscii e.1 = e.1 ∧
      e.1 ≠ connectionsKey ∧ e.1 ≠ "connections.default" := by
    intro e he
    have hmem : e ∈ before ++ (connectionsKey, .table entries) :: after :=
      (List.mem_append.mp he).elim (List.mem_append_left _)
        fun he ↦ List.mem_append_right _ (List.mem_cons_of_mem _ he)
    obtain ⟨name, hname⟩ := h.exists_name hmem
    have hlower : Text.lowerAscii e.1 = e.1 :=
      hname ▸ Ini.lowerAscii_of_mem_pathOf List.mem_cons_self
    refine ⟨hlower, ?_, hname ▸ pathOf_ne_dotted name⟩
    rcases List.mem_append.mp he with he | he
    · exact String.ne_of_lt (hbefore e he)
    · exact (String.ne_of_lt (hafter e he)).symm
  -- The sections in front of that of all connections and behind it leave the default one alone.
  obtain ⟨hearlier, hlater⟩ := List.forall_mem_append.mp hother
  have hkey : Text.lowerAscii connectionsKey = connectionsKey := by decide
  refine ⟨(before.foldl Legacy.add {}).connections, field?_foldl_add param hearlier {}, ?_⟩
  rw [at?_ofLegacy, List.foldl_append, List.foldl_cons, field?_foldl_add param hlater, Legacy.add]
  dsimp only
  rw [hkey, if_pos rfl]

/-- Where a legacy file has both sections, each parameter of the default connection has one of the
two values, and which one is told by its name. So one of the sections prevails exactly if they
differ on parameters on one side of the name of the connection only. -/
theorem read_default (htext : Ini.readTable text = .ok t)
    (hc : get? connectionsKey t = some (.table entries))
    (hd : get? defaultConnection entries = some (.table own)) :
    ∃ m, legacy.read text = .ok m ∧
      (∀ param, m.at? connectionsKey [defaultConnection, param] =
        if defaultConnection < param then (given? param entries.plain).or (given? param own)
        else (given? param own).or (given? param entries.plain)) ∧
      (Prevails m entries.plain own ↔ ∀ param v w, given? param entries.plain = some v →
        given? param own = some w → v ≠ w → defaultConnection < param) ∧
      (Prevails m own entries.plain ↔ ∀ param v w, given? param entries.plain = some v →
        given? param own = some w → v ≠ w → ¬ defaultConnection < param) := by
  have hregular := Ini.regular_of_readTable htext
  have hread : legacy.read text = .ok (ofLegacy t) := by
    rw [read, htext]
    rfl
  have hlaw : ∀ param, (ofLegacy t).at? connectionsKey [defaultConnection, param] =
      if defaultConnection < param then (given? param entries.plain).or (given? param own)
      else (given? param own).or (given? param entries.plain) := by
    intro param
    obtain ⟨records, hnew, hat⟩ := exists_field?_sections param hregular hc
    rw [hat]
    exact field?_sections param (hregular.ordered.get? hc).sorted (hregular.lower _ _ hc) hd hnew
  have hboth : ∀ {param v w}, given? param entries.plain = some v → given? param own = some w →
      (ofLegacy t).at? connectionsKey [defaultConnection, param] =
        if defaultConnection < param then some v else some w := by
    intro param v w hv hw
    rw [hlaw, hv, hw]
    rfl
  refine ⟨ofLegacy t, hread, hlaw, ⟨?_, ?_⟩, ?_, ?_⟩
  · intro h param v w hv hw hne
    have hat := h param v hv (hw ▸ rfl)
    rw [hboth hv hw] at hat
    by_contra hp
    rw [if_neg hp] at hat
    exact hne (Option.some.inj hat).symm
  · intro h param v hv hset
    obtain ⟨w, hw⟩ := Option.isSome_iff_exists.mp hset
    rw [hboth hv hw]
    split
    · rfl
    · next hp => rw [not_imp_comm.mp (h param v w hv hw) hp]
  · intro h param v w hv hw hne hp
    have hat := h param w hw (hv ▸ rfl)
    rw [hboth hv hw, if_pos hp] at hat
    exact hne (Option.some.inj hat)
  · intro h param w hw hset
    obtain ⟨v, hv⟩ := Option.isSome_iff_exists.mp hset
    rw [hboth hv hw]
    split
    · next hp => rw [not_imp_comm.mp (h param v w hv hw) (not_not_intro hp)]
    · rfl

/-- The account is that of the section of the default connection, and the role that of all
connections. -/
theorem read_default_role :
    ∃ m, legacy.read
        "[connections]\naccountname = a\nrole = r\n[connections.default]\naccount = b\nrole = s" =
        .ok m ∧
      m.at? "connections" ["default", "account"] = some (.string "b") ∧
      m.at? "connections" ["default", "role"] = some (.string "r") := by
  have htext : Ini.readTable
      "[connections]\naccountname = a\nrole = r\n[connections.default]\naccount = b\nrole = s" =
        .ok [("connections", .table [("accountname", .string "a"),
          ("default", .table [("account", .string "b"), ("role", .string "s")]),
          ("role", .string "r")])] := by cbv
  obtain ⟨m, hm, hlaw, -⟩ := read_default htext rfl rfl
  exact ⟨m, hm, hlaw "account", hlaw "role"⟩

/-- None of two sections prevails if they differ on the account and on the user. -/
theorem read_default_mixed :
    ∃ t m shared own,
      Ini.readTable
        "[connections]\naccount = a\nuser = a\n\n[connections.default]\naccount = b\nuser = b\n" =
        .ok t ∧
      t = [("connections", .table [("account", .string "a"), ("default", .table own),
        ("user", .string "a")])] ∧
      shared = [("account", .string "a"), ("user", .string "a")] ∧
      own = [("account", .string "b"), ("user", .string "b")] ∧
      legacy.read
        "[connections]\naccount = a\nuser = a\n\n[connections.default]\naccount = b\nuser = b\n" =
        .ok m ∧
      ¬ Prevails m shared own ∧ ¬ Prevails m own shared := by
  have htext : Ini.readTable
      "[connections]\naccount = a\nuser = a\n\n[connections.default]\naccount = b\nuser = b\n" =
        .ok [("connections", .table [("account", .string "a"),
          ("default", .table [("account", .string "b"), ("user", .string "b")]),
          ("user", .string "a")])] := by cbv
  refine ⟨_, _, _, _, htext, rfl, rfl, rfl, by rw [read, htext]; rfl, ?_, ?_⟩
  · intro h
    have hat : some (Value.string "b") = some (.string "a") := h "account" _ rfl rfl
    exact absurd (Value.string.inj (Option.some.inj hat)) (by decide)
  · intro h
    have hat : some (Value.string "a") = some (.string "b") := h "user" _ rfl rfl
    exact absurd (Value.string.inj (Option.some.inj hat)) (by decide)

end Layout

end LayeredConfig
