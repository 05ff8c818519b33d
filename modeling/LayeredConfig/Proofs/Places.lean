import LayeredConfig.Proofs.DeepMerge
import LayeredConfig.Config

/-!
# Places

A dotted key names a path of segments, and so one of four kinds of places: the branch of connections,
a connection, something in a connection, or something at the root. What a caller finds under the key
is told by its place.
-/

namespace LayeredConfig

open Keyed (Sorted)

namespace Text

variable {sep : Char}

private theorem cut_of_not_mem {cs : List Char} (h : sep ∉ cs) : cut sep cs = (cs, []) := by
  induction cs with
  | nil => rfl
  | cons c cs ih =>
    have hc : c ≠ sep := fun hc ↦ h (hc ▸ List.mem_cons_self)
    have hcs : sep ∉ cs := fun hcs ↦ h (List.mem_cons_of_mem _ hcs)
    rw [cut, ih hcs]
    exact if_neg hc

private theorem cut_append {cs : List Char} (h : sep ∉ cs) (rest : List Char) :
    cut sep (cs ++ sep :: rest) = (cs, (cut sep rest).1 :: (cut sep rest).2) := by
  induction cs with
  | nil =>
    rw [List.nil_append, cut]
    exact if_pos rfl
  | cons c cs ih =>
    have hc : c ≠ sep := fun hc ↦ h (hc ▸ List.mem_cons_self)
    have hcs : sep ∉ cs := fun hcs ↦ h (List.mem_cons_of_mem _ hcs)
    rw [List.cons_append, cut, ih hcs]
    exact if_neg hc

/-- Text that is one piece has no separator. -/
theorem cut_of_single {cs first : List Char} (h : cut sep cs = (first, [])) :
    first = cs ∧ sep ∉ cs := by
  induction cs generalizing first with
  | nil =>
    rw [cut] at h
    exact ⟨(Prod.mk.inj h).1.symm, List.not_mem_nil⟩
  | cons c cs ih =>
    rw [cut] at h
    by_cases hc : c = sep
    · have hs := (Prod.mk.inj ((if_pos hc).symm.trans h)).2
      cases hs
    · obtain ⟨hf, hs⟩ := Prod.mk.inj ((if_neg hc).symm.trans h)
      obtain ⟨hcs, hn⟩ := ih (Prod.ext rfl hs)
      refine ⟨hf.symm.trans (congrArg (c :: ·) hcs), ?_⟩
      rw [List.mem_cons, not_or]
      exact ⟨Ne.symm hc, hn⟩

/-- Text of several pieces is the first one, a separator, and text of the others. -/
theorem cut_of_cons {cs first next : List Char} {others : List (List Char)}
    (h : cut sep cs = (first, next :: others)) :
    sep ∉ first ∧ ∃ rest, cs = first ++ sep :: rest ∧ cut sep rest = (next, others) := by
  induction cs generalizing first with
  | nil => cases h
  | cons c cs ih =>
    rw [cut] at h
    by_cases hc : c = sep
    · obtain ⟨rfl, hs⟩ := Prod.mk.inj ((if_pos hc).symm.trans h)
      obtain ⟨hn, ho⟩ := List.cons.inj hs
      exact ⟨List.not_mem_nil, cs, congrArg (· :: cs) hc, Prod.ext hn ho⟩
    · obtain ⟨rfl, hs⟩ := Prod.mk.inj ((if_neg hc).symm.trans h)
      obtain ⟨hn, rest, hcs, hr⟩ := ih (Prod.ext rfl hs)
      refine ⟨?_, rest, congrArg (c :: ·) hcs, hr⟩
      rw [List.mem_cons, not_or]
      exact ⟨Ne.symm hc, hn⟩

private theorem cut_inj {cs cs' : List Char} (h : cut sep cs = cut sep cs') : cs = cs' := by
  obtain ⟨first, others, hc⟩ : ∃ first others, cut sep cs = (first, others) := ⟨_, _, rfl⟩
  rw [hc] at h
  induction others generalizing cs cs' first with
  | nil => rw [← (cut_of_single hc).1, ← (cut_of_single h.symm).1]
  | cons next others ih =>
    obtain ⟨-, rest, rfl, hrest⟩ := cut_of_cons hc
    obtain ⟨-, rest', rfl, hrest'⟩ := cut_of_cons h.symm
    rw [ih next hrest'.symm hrest]

end Text

/-- A key without a dot is its only segment. -/
theorem segments_of_no_dot {key : String} (h : '.' ∉ key.toList) : segments key = (key, []) := by
  rw [segments, Text.cut_of_not_mem h]
  exact Prod.ext String.ofList_toList rfl

/-- What precedes the first dot is the first segment. -/
theorem segments_append {first : String} (h : '.' ∉ first.toList) (rest : String) :
    segments (first ++ "." ++ rest) = (first, (segments rest).1 :: (segments rest).2) := by
  have ht : (first ++ "." ++ rest).toList = first.toList ++ '.' :: rest.toList := by
    rw [String.toList_append, String.toList_append, List.append_assoc]
    rfl
  rw [segments, ht, Text.cut_append h]
  exact Prod.ext String.ofList_toList rfl

/-- A key of one segment has no dot. -/
theorem eq_of_segments {key first : String} (h : segments key = (first, [])) :
    first = key ∧ '.' ∉ key.toList := by
  obtain ⟨hf, ho⟩ := Prod.mk.inj h
  obtain ⟨hc, hn⟩ := Text.cut_of_single (Prod.ext rfl (List.map_eq_nil_iff.mp ho))
  exact ⟨hf.symm.trans ((congrArg String.ofList hc).trans String.ofList_toList), hn⟩

/-- A key is told by its segments. -/
theorem segments_inj {key key' : String} (h : segments key = segments key') : key = key' := by
  obtain ⟨hf, ho⟩ := Prod.mk.inj h
  have hinj : Function.Injective String.ofList := fun _ _ ↦ String.ofList_inj.mp
  rw [← String.toList_inj]
  exact Text.cut_inj (Prod.ext (hinj hf) (List.map_injective_iff.mpr hinj ho))

/-- A key of two segments is those with a dot between them. -/
theorem segments_eq_pair {key first second : String} :
    segments key = (first, [second]) ↔
      '.' ∉ first.toList ∧ '.' ∉ second.toList ∧ key = first ++ "." ++ second := by
  constructor
  · intro h
    obtain ⟨rfl, ho⟩ := Prod.mk.inj h
    obtain ⟨next, others, hcut, rfl, hnone⟩ := List.map_eq_cons_iff.mp ho
    obtain ⟨hfirst, rest, hkey, hrest⟩ := Text.cut_of_cons (Prod.ext rfl hcut)
    obtain ⟨rfl, hsecond⟩ := Text.cut_of_single (hrest.trans (Prod.ext rfl
      (List.map_eq_nil_iff.mp hnone)))
    refine ⟨?_, ?_, ?_⟩
    · rwa [String.toList_ofList]
    · rwa [String.toList_ofList]
    · rw [← String.toList_inj]
      simp only [String.toList_append, String.toList_ofList, List.append_assoc]
      exact hkey
  · rintro ⟨hf, hs, rfl⟩
    rw [segments_append hf, segments_of_no_dot hs]

/-- What a dotted key names. -/
inductive Place where
  | connections
  | connection (name : String)
  | field (name key : String) (rest : List String)
  | root (key : String) (rest : List String)
  deriving DecidableEq

namespace Place

/-- The place under a dotted key. -/
def of (key : String) : Place :=
  match segments key with
  | ("connections", []) => .connections
  | ("connections", [name]) => .connection name
  | ("connections", name :: key :: rest) => .field name key rest
  | (key, rest) => .root key rest

/-- The path to a place in nested form. -/
def path : Place → String × List String
  | .connections => (connectionsKey, [])
  | .connection name => (connectionsKey, [name])
  | .field name key rest => (connectionsKey, name :: key :: rest)
  | .root key rest => (key, rest)

/-- The branch of connections is no place at the root. -/
def Proper : Place → Prop
  | .root key _ => key ≠ connectionsKey
  | _ => True

/-- The path to the place under a key is the key's. -/
theorem path_of (key : String) : (of key).path = segments key := by
  rw [of]
  split
  · next h => rw [h]; rfl
  · next h => rw [h]; rfl
  · next h => rw [h]; rfl
  · next h => rw [h]; rfl

/-- The place under a key is a proper one. -/
theorem proper_of (key : String) : (of key).Proper := by
  rw [of]
  split
  · exact trivial
  · exact trivial
  · exact trivial
  · next first rest hc hn hf h =>
    rintro rfl
    cases rest with
    | nil => exact hc rfl rfl
    | cons name rest =>
      cases rest with
      | nil => exact hn name rfl rfl
      | cons key rest => exact hf name key rest rfl rfl

end Place

namespace Config

variable {c : Config} {key : String}

/-- What stands as a value at a path at the root. -/
theorem get?_of_root {first : String} {rest : List String} (hf : first ≠ connectionsKey)
    (h : segments key = (first, rest)) : c.get? key = c.root.at? first rest := by
  rw [get?, h]
  split
  · next hs => exact absurd (Prod.mk.inj hs).1 hf
  · next hs => exact absurd (Prod.mk.inj hs).1 hf
  · next hs =>
    obtain ⟨rfl, rfl⟩ := Prod.mk.inj hs
    rfl

/-- What stands at a path at the root. -/
theorem valueAt?_of_root {first : String} {rest : List String}
    (hf : first ≠ connectionsKey) (h : segments key = (first, rest)) :
    c.valueAt? key = c.root.at? first rest := by
  rw [valueAt?, h]
  split
  · next hs => exact absurd (Prod.mk.inj hs).1 hf
  · next hs => exact absurd (Prod.mk.inj hs).1 hf
  · exact get?_of_root hf h

/-- What stands at a path in a connection. -/
theorem get?_of_field {name param : String} {rest : List String}
    (h : segments key = (connectionsKey, name :: param :: rest)) :
    c.get? key = (Keyed.get? name c.connections).bind fun record ↦ record.at? param rest := by
  simp only [get?, h, connectionsKey]
  cases Keyed.get? name c.connections <;> rfl

private theorem get?_default (h : '.' ∉ key.toList) :
    c.get? (connectionKey Parameter.defaultConnection key) =
      if key = "" then none
      else (Keyed.get? Parameter.defaultConnection c.connections).bind (Keyed.get? key) := by
  have hd : '.' ∉ connectionsKey.toList := by decide
  have hd' : '.' ∉ Parameter.defaultConnection.toList := by decide
  by_cases hk : key = ""
  · subst hk
    rfl
  · have he : key.isEmpty = false := by
      rw [Bool.eq_false_iff]
      intro he
      exact hk (String.isEmpty_iff.mp he)
    have hs : segments (connectionKey Parameter.defaultConnection key) =
        (connectionsKey, [Parameter.defaultConnection, key]) := by
      have ha : connectionKey Parameter.defaultConnection key =
          connectionsKey ++ "." ++ (Parameter.defaultConnection ++ "." ++ key) := by
        rw [connectionKey, he, if_neg Bool.false_ne_true]
        simp only [String.append_assoc]
      rw [ha, segments_append hd, segments_append hd', segments_of_no_dot h]
    rw [get?_of_field hs, if_neg hk]
    simp only [Table.at?_nil]

/-- Under the key of the connections their branch is found, if there is one. -/
theorem lookup_connections (h : Place.of key = .connections)
    (hr : Keyed.get? connectionsKey c.root = none) :
    c.lookup key =
      if c.connections.isEmpty then none else some (.table (Table.ofRecords c.connections)) := by
  have hs : segments key = (connectionsKey, []) := by rw [← Place.path_of, h]; rfl
  have hv : c.valueAt? key = Keyed.get? connectionsKey c.toNested := by
    rw [valueAt?, hs]
    rfl
  rw [lookup, hv, hs, toNested]
  cases hc : c.connections.isEmpty with
  | false =>
    rw [if_neg Bool.false_ne_true, if_neg Bool.false_ne_true, Keyed.get?_insert_self]
  | true =>
    rw [if_pos rfl, if_pos rfl, hr]
    dsimp only
    obtain ⟨rfl, hd⟩ := eq_of_segments hs
    rw [get?_default hd, List.isEmpty_iff.mp hc]
    rfl

/-- Under the key of a connection its record is found. -/
theorem lookup_connection {name : String} (h : Place.of key = .connection name) :
    c.lookup key = (Keyed.get? name c.connections).map .table := by
  have hs : segments key = (connectionsKey, [name]) := by rw [← Place.path_of, h]; rfl
  have hv : c.valueAt? key = (Keyed.get? name c.connections).map .table := by
    rw [valueAt?, hs]
    rfl
  rw [lookup, hv, hs]
  cases Keyed.get? name c.connections <;> rfl

/-- Under the key of a field what stands there in the connection is found. -/
theorem lookup_field {name param : String} {rest : List String}
    (h : Place.of key = .field name param rest) :
    c.lookup key = (Keyed.get? name c.connections).bind fun record ↦ record.at? param rest := by
  have hs : segments key = (connectionsKey, name :: param :: rest) := by
    rw [← Place.path_of, h]
    rfl
  have hv : c.valueAt? key = c.get? key := by
    rw [valueAt?, hs]
    rfl
  rw [lookup, hv, get?_of_field hs, hs]
  cases (Keyed.get? name c.connections).bind fun record ↦ record.at? param rest <;> rfl

/-- Under any other key what stands at the root is found, or under a bare key what the default
connection has. -/
theorem lookup_root {first : String} {rest : List String} (h : Place.of key = .root first rest) :
    c.lookup key = (c.root.at? first rest).or
      (if rest = [] ∧ first ≠ "" then
        (Keyed.get? Parameter.defaultConnection c.connections).bind (Keyed.get? first)
      else none) := by
  have hs : segments key = (first, rest) := by rw [← Place.path_of, h]; rfl
  have hf : first ≠ connectionsKey := by
    have hp := Place.proper_of key
    rw [h] at hp
    exact hp
  rw [lookup, valueAt?_of_root hf hs, hs]
  cases c.root.at? first rest with
  | some v => rfl
  | none =>
    cases rest with
    | nil =>
      obtain ⟨rfl, hd⟩ := eq_of_segments hs
      dsimp only
      rw [get?_default hd, Option.none_or]
      by_cases hk : first = ""
      · rw [if_pos hk, if_neg (fun hn ↦ hn.2 hk)]
      · rw [if_neg hk, if_pos ⟨rfl, hk⟩]
    | cons s rest => rfl

end Config

end LayeredConfig
