import LayeredConfig.Proofs.Keyed
import LayeredConfig.Source
import Mathlib

/-!
# Flags as they are written

A line of flags is made of items, with stray tokens in between. Reading it gives the assignments of
the items in their order, whichever way each of them is written, so the last item of a name counts.
-/

namespace LayeredConfig

open Keyed (Sorted get?)

private theorem Keyed.get?_ofList {α : Type} (k : String) (entries : List (String × α)) :
    get? k (ofList entries) = (entries.reverse.find? fun e ↦ e.1 == k).map Prod.snd := by
  induction entries using List.reverseRecOn with
  | nil => rfl
  | append_singleton entries e ih =>
    have hinsert : ofList (entries ++ [e]) = Keyed.insert e.1 e.2 (ofList entries) := by
      rw [ofList, List.foldl_append]
      rfl
    rw [hinsert, get?_insert, ih, List.reverse_append, List.reverse_singleton,
      List.singleton_append]
    by_cases hk : e.1 = k
    · rw [if_pos hk, List.find?_cons_of_pos (by simpa using hk), Option.map_some]
    · rw [if_neg hk, List.find?_cons_of_neg (by simpa using hk)]

/-- What stands under a key is the value of an entry that no other one with this key follows. -/
theorem Keyed.get?_ofList_eq_some_iff {α : Type} {k : String} {a : α}
    {entries : List (String × α)} :
    get? k (ofList entries) = some a ↔
      ∃ before after, entries = before ++ (k, a) :: after ∧ ∀ e ∈ after, e.1 ≠ k := by
  rw [get?_ofList, Option.map_eq_some_iff]
  constructor
  · rintro ⟨⟨k', a⟩, hfind, rfl⟩
    obtain ⟨hk, before, after, heq, hnot⟩ := List.find?_eq_some_iff_append.mp hfind
    obtain rfl : k' = k := beq_iff_eq.mp hk
    refine ⟨after.reverse, before.reverse, ?_, ?_⟩
    · rw [← List.reverse_inj, heq]
      simp
    · intro e he
      simpa using hnot e (List.mem_reverse.mp he)
  · rintro ⟨before, after, rfl, hnot⟩
    refine ⟨(k, a), List.find?_eq_some_iff_append.mpr ⟨beq_self_eq_true k, after.reverse,
      before.reverse, ?_, ?_⟩, rfl⟩
    · simp
    · intro e he
      simpa using hnot e (List.mem_reverse.mp he)

namespace Flags

/-! ### Lines -/

/-- An item of a line, in one of three spellings. -/
inductive Item where
  /-- Name and value in one token. -/
  | joined (name value : String)
  /-- The value is the next token. -/
  | separate (name value : String)
  /-- The name alone. -/
  | bare (name : String)

namespace Item

/-- The name of an item. -/
def name : Item → String
  | joined name _ | separate name _ | bare name => name

/-- What an item sets; alone it means true. -/
def value : Item → Value
  | joined _ text | separate _ text => .string text
  | bare _ => .bool true

/-- The tokens of an item. -/
def tokens : Item → List String
  | joined name text => ["--" ++ name ++ "=" ++ text]
  | separate name text => ["--" ++ name, text]
  | bare name => ["--" ++ name]

end Item

/-- A token that starts no item. -/
def Stray (token : String) : Prop := ¬ "--".toList <+: token.toList

/-- Whether a token is stray shows at its start. -/
instance (token : String) : Decidable (Stray token) :=
  inferInstanceAs (Decidable (¬ "--".toList <+: token.toList))

/-- An item and the stray tokens after it. -/
structure Entry where
  item : Item
  strays : List String := []

namespace Entry

/-- The tokens of an item, and what follows before the next one. -/
def tokens (e : Entry) : List String := e.item.tokens ++ e.strays

/-- What an item sets under which name. -/
def assigned (e : Entry) : String × Value := (e.item.name, e.item.value)

/-- No name has an equals sign in it, no value that is a token starts an item, and stray tokens
follow only where a value stands before them. -/
structure WellFormed (e : Entry) : Prop where
  name : '=' ∉ e.item.name.toList
  value : ∀ name text, e.item = .separate name text → Stray text
  strays : ∀ token ∈ e.strays, Stray token
  bare : ∀ name, e.item = .bare name → e.strays = []

end Entry

/-- The tokens of a line: stray ones first, then items. -/
def line (strays : List String) (entries : List Entry) : List String :=
  strays ++ entries.flatMap Entry.tokens

/-! ### Reading -/

/-- What a token that starts an item says after the dashes. -/
theorem name?_eq_some_iff {token : String} {flag : List Char} :
    name? token = some flag ↔ token = "--" ++ String.ofList flag := by
  rw [name?, List.isPrefixOf?_eq_some_iff_append_eq, ← String.toList_inj, String.toList_append,
    String.toList_ofList (l := flag), eq_comm]
  rfl

/-- The dashes are followed by the name. -/
theorem name?_append (flag : String) : name? ("--" ++ flag) = some flag.toList := by
  rw [name?_eq_some_iff, String.ofList_toList]

/-- A stray token says nothing. -/
theorem Stray.name?_eq_none {token : String} (h : Stray token) : name? token = none := by
  rw [Option.eq_none_iff_forall_ne_some]
  intro flag hf
  rw [name?_eq_some_iff] at hf
  rw [Stray, hf, String.toList_append] at h
  exact h (List.prefix_append _ _)

private theorem cutOnce_eq_none {sep : Char} {s : List Char} (h : sep ∉ s) :
    Text.cutOnce sep s = none := by
  induction s with
  | nil => rfl
  | cons c s ih =>
    rw [List.mem_cons, not_or] at h
    rw [Text.cutOnce, if_neg (Ne.symm h.1), ih h.2]
    rfl

private theorem cutOnce_append {sep : Char} {s : List Char} (h : sep ∉ s) (rest : List Char) :
    Text.cutOnce sep (s ++ sep :: rest) = some (s, rest) := by
  induction s with
  | nil => rw [List.nil_append, Text.cutOnce, if_pos rfl]
  | cons c s ih =>
    rw [List.mem_cons, not_or] at h
    rw [List.cons_append, Text.cutOnce, if_neg (Ne.symm h.1), ih h.2]
    rfl

private theorem assignments_strays {strays : List String} (h : ∀ token ∈ strays, Stray token)
    (rest : List String) : assignments (strays ++ rest) = assignments rest := by
  induction strays with
  | nil => rfl
  | cons token strays ih =>
    obtain ⟨ht, hs⟩ := List.forall_mem_cons.mp h
    rw [List.cons_append, assignments, ht.name?_eq_none]
    exact ih hs

/-- What follows an item that stands alone: another item, or nothing. -/
def StartsItem (tokens : List String) : Prop :=
  ∀ token ∈ tokens.head?, ∃ flag, name? token = some flag

private theorem startsItem_flatMap (entries : List Entry) :
    StartsItem (entries.flatMap Entry.tokens) := by
  intro token ht
  cases entries with
  | nil => cases ht
  | cons e entries =>
    rw [List.flatMap_cons, Entry.tokens] at ht
    cases hi : e.item with
    | joined name text =>
      rw [hi, Item.tokens, String.append_assoc, String.append_assoc] at ht
      cases ht
      exact ⟨_, name?_append _⟩
    | separate name text =>
      rw [hi] at ht
      cases ht
      exact ⟨_, name?_append _⟩
    | bare name =>
      rw [hi] at ht
      cases ht
      exact ⟨_, name?_append _⟩

private theorem assignments_item {item : Item} (hn : '=' ∉ item.name.toList)
    (hv : ∀ name text, item = .separate name text → Stray text) {rest : List String}
    (hb : ∀ name, item = .bare name → StartsItem rest) :
    assignments (item.tokens ++ rest) =
      (keyOf item.name.toList, item.value) :: assignments rest := by
  cases item with
  | joined name text =>
    change '=' ∉ name.toList at hn
    have hflag : (name ++ ("=" ++ text)).toList = name.toList ++ '=' :: text.toList := by
      rw [String.toList_append, String.toList_append]
      rfl
    rw [Item.tokens, String.append_assoc, String.append_assoc, List.singleton_append, assignments,
      name?_append, hflag]
    simp only
    rw [cutOnce_append hn]
    simp only [String.ofList_toList]
    rfl
  | separate name text =>
    change '=' ∉ name.toList at hn
    rw [Item.tokens, List.cons_append, List.singleton_append, assignments, name?_append]
    simp only
    rw [cutOnce_eq_none hn]
    simp only
    rw [(hv name text rfl).name?_eq_none]
    rfl
  | bare name =>
    change '=' ∉ name.toList at hn
    rw [Item.tokens, List.singleton_append, assignments, name?_append]
    simp only
    rw [cutOnce_eq_none hn]
    cases rest with
    | nil => rfl
    | cons next rest =>
      obtain ⟨flag, hflag⟩ := hb name rfl next rfl
      simp only
      rw [hflag]
      rfl

private theorem assignments_line {strays : List String} {entries : List Entry}
    (hs : ∀ token ∈ strays, Stray token) (he : ∀ e ∈ entries, e.WellFormed) :
    assignments (line strays entries) =
      entries.map fun e ↦ (keyOf e.item.name.toList, e.item.value) := by
  rw [line, assignments_strays hs]
  clear hs
  induction entries with
  | nil => rfl
  | cons e entries ih =>
    obtain ⟨hw, he⟩ := List.forall_mem_cons.mp he
    rw [List.flatMap_cons, Entry.tokens, List.append_assoc, assignments_item hw.name hw.value,
      assignments_strays hw.strays, ih he, List.map_cons]
    intro name hname
    rw [hw.bare name hname]
    exact startsItem_flatMap entries

/-- Reading a line gives each name what its last item sets, under the key with underscores for
dashes, and nothing else. How the items are spelled and what is strewn between them makes no
difference. -/
theorem parse_line {strays : List String} {entries : List Entry}
    (hs : ∀ token ∈ strays, Stray token) (he : ∀ e ∈ entries, e.WellFormed) (w : World) :
    ∃ flags, parse (line strays entries) = flags ∧
      (∀ key v, get? key flags.values = some v ↔
        ∃ before e after, entries = before ++ e :: after ∧ keyOf e.item.name.toList = key ∧
          e.item.value = v ∧ ∀ e' ∈ after, keyOf e'.item.name.toList ≠ key) ∧
      Sorted flags.values ∧ flags.raw = [] ∧
      (Source.flags flags).discover w none = (.ok flags.values, .flags flags) ∧
      ∀ strays' entries', (∀ token ∈ strays', Stray token) → (∀ e ∈ entries', e.WellFormed) →
        entries'.map Entry.assigned = entries.map Entry.assigned →
          parse (line strays' entries') = flags := by
  refine ⟨_, rfl, ?_, Keyed.sorted_ofList _, rfl, rfl, ?_⟩
  · intro key v
    rw [parse, Keyed.get?_ofList_eq_some_iff, assignments_line hs he]
    constructor
    · rintro ⟨before, after, heq, hafter⟩
      obtain ⟨before, rest, rfl, rfl, hrest⟩ := List.map_eq_append_iff.mp heq
      obtain ⟨e, after, rfl, he, rfl⟩ := List.map_eq_cons_iff.mp hrest
      obtain ⟨hk, hv⟩ := Prod.mk.inj he
      exact ⟨before, e, after, rfl, hk, hv, fun e' he' ↦ hafter _ (List.mem_map_of_mem he')⟩
    · rintro ⟨before, e, after, rfl, rfl, rfl, hafter⟩
      exact ⟨_, _, List.map_append, List.forall_mem_map.mpr hafter⟩
  · intro strays' entries' hs' he' hsame
    have hmap : ∀ entries : List Entry,
        (entries.map fun e ↦ (keyOf e.item.name.toList, e.item.value)) =
          (entries.map Entry.assigned).map fun (name, v) ↦ (keyOf name.toList, v) := by
      intro entries
      rw [List.map_map]
      rfl
    rw [parse, parse, assignments_line hs he, assignments_line hs' he', hmap, hmap, hsame]

/-- Flags in one spelling with stray tokens, and in the other one without: a value may have an
equals sign in it, or start with one dash. -/
theorem parse_line_role :
    let strays := ["stray"]
    let entries : List Entry :=
      [⟨.separate "role" "-r", ["extra"]⟩, ⟨.bare "verbose", []⟩, ⟨.joined "key-file" "a=b", []⟩]
    let respelled : List Entry :=
      [⟨.joined "role" "-r", []⟩, ⟨.bare "verbose", []⟩, ⟨.separate "key-file" "a=b", []⟩]
    (∀ token ∈ strays, Stray token) ∧ (∀ e ∈ entries, e.WellFormed) ∧
      (∀ e ∈ respelled, e.WellFormed) ∧
      get? "key_file" (parse (line strays entries)).values = some (.string "a=b") ∧
      parse (line [] respelled) = parse (line strays entries) := by
  intro strays entries respelled
  have hs : ∀ token ∈ strays, Stray token := by decide
  have he : ∀ e ∈ entries, e.WellFormed := by
    simp only [entries, List.forall_mem_cons]
    refine ⟨⟨by decide, ?_, by decide, nofun⟩, ⟨by decide, nofun, by decide, fun _ _ ↦ rfl⟩,
      ⟨by decide, nofun, by decide, nofun⟩, nofun⟩
    rintro _ _ ⟨⟩
    decide
  have he' : ∀ e ∈ respelled, e.WellFormed := by
    simp only [respelled, List.forall_mem_cons]
    refine ⟨⟨by decide, nofun, by decide, nofun⟩, ⟨by decide, nofun, by decide, fun _ _ ↦ rfl⟩,
      ⟨by decide, ?_, by decide, nofun⟩, nofun⟩
    rintro _ _ ⟨⟩
    decide
  obtain ⟨flags, hflags, hvalue, -, -, -, hspelling⟩ := parse_line hs he {}
  refine ⟨hs, he, he', ?_, ?_⟩
  · rw [hflags, hvalue]
    exact ⟨entries.take 2, _, [], rfl, by decide, rfl, nofun⟩
  · rw [hflags]
    exact hspelling [] respelled nofun he' rfl

end Flags

end LayeredConfig
