import LayeredConfig.Proofs.Exposure
import LayeredConfig.Proofs.Noted

/-!
# Masked and redacted leaves

A table is masked by the key under which a leaf stands, and redaction hides a history by its whole
dotted key. The two agree, because only the last segment of a dotted key tells of a secret: it makes
no difference whether a table is masked before it is flattened or after. So after a pass a leaf of
the result is masked exactly if its history is redacted. A leaf of the caller's default may have no
history of its own, and then the key of the default decides.
-/

namespace LayeredConfig

open Keyed (Sorted get?)

/-! ### The last segment -/

private theorem Text.exists_cut_append (sep : Char) (cs rest : List Char) :
    ∃ before, (cut sep (cs ++ sep :: rest)).2 =
      before ++ (cut sep rest).1 :: (cut sep rest).2 := by
  induction cs with
  | nil =>
    refine ⟨[], ?_⟩
    rw [List.nil_append, cut]
    exact congrArg Prod.snd (if_pos rfl)
  | cons c cs ih =>
    obtain ⟨before, hb⟩ := ih
    rw [List.cons_append]
    by_cases hc : c = sep
    · have hcut : cut sep (c :: (cs ++ sep :: rest)) =
          ([], (cut sep (cs ++ sep :: rest)).1 :: (cut sep (cs ++ sep :: rest)).2) := by
        rw [cut]
        exact if_pos hc
      exact ⟨_ :: before, by rw [hcut, hb]; rfl⟩
    · have hcut : cut sep (c :: (cs ++ sep :: rest)) =
          (c :: (cut sep (cs ++ sep :: rest)).1, (cut sep (cs ++ sep :: rest)).2) := by
        rw [cut]
        exact if_neg hc
      exact ⟨before, by rw [hcut, hb]⟩

namespace Parameter

private theorem lastSegment_append (path key : String) :
    lastSegment (path ++ "." ++ key) = lastSegment key := by
  have ht : (path ++ "." ++ key).toList = path.toList ++ '.' :: key.toList := by
    rw [String.toList_append, String.toList_append, List.append_assoc]
    rfl
  obtain ⟨before, hb⟩ := Text.exists_cut_append '.' path.toList key.toList
  have hlast : ∀ key, lastSegment key =
      (Text.cut '.' key.toList).2.getLastD (Text.cut '.' key.toList).1 := fun _ ↦ rfl
  rw [hlast, hlast, ht, hb, List.getLastD_eq_getLast?, List.getLastD_eq_getLast?,
    List.getLast?_append, List.getLast?_cons]
  rfl

private theorem isSensitive_joinKey (path key : String) :
    isSensitive (Table.joinKey path key) = isSensitive key := by
  by_cases hp : path = ""
  · rw [hp]
    rfl
  · rw [isSensitive, Table.joinKey_of_ne hp, lastSegment_append, isSensitive]

end Parameter

/-! ### Masked leaves -/

namespace Secret

/-- What is shown of a leaf under its dotted key. -/
def shownLeaf (key : String) : Value → Value
  | .null => .null
  | .table entries => .table entries
  | v => if Parameter.isSensitive key then .string mask else v

private theorem shownLeaf_eq (key : String) {v : Value} (hn : v ≠ .null) (ht : v.isTable = false) :
    shownLeaf key v = if Parameter.isSensitive key then .string mask else v := by
  cases v with
  | null => exact absurd rfl hn
  | table entries => cases ht
  | _ => rfl

private theorem shown_eq_shownLeaf {path key : String}
    (hk : Parameter.isSensitive path = Parameter.isSensitive key) {v : Value}
    (ht : v.isTable = false) : shown key v = shownLeaf path v := by
  cases v with
  | null => rfl
  | table entries => cases ht
  | _ => simp [shown, shownLeaf, hk]

private theorem isTable_shownLeaf (key : String) (v : Value) :
    (shownLeaf key v).isTable = v.isTable := by
  cases v with
  | null | table => rfl
  | _ => cases hk : Parameter.isSensitive key <;> simp [shownLeaf, hk, Value.isTable]

end Secret

private theorem Table.valueLeaves_of_not_table (path : String) {v : Value}
    (ht : v.isTable = false) :
    valueLeaves path v = [(path, v)] := by
  cases v with
  | table entries => cases ht
  | _ => rfl

namespace Secret

private theorem valueLeaves_shown_of_not_table {path key : String}
    (hk : Parameter.isSensitive path = Parameter.isSensitive key) {v : Value}
    (ht : v.isTable = false) :
    Table.valueLeaves path (shown key v) =
      Keyed.mapValues shownLeaf (Table.valueLeaves path v) := by
  rw [shown_eq_shownLeaf hk ht, Table.valueLeaves_of_not_table path ht,
    Table.valueLeaves_of_not_table path ((isTable_shownLeaf path v).trans ht)]
  rfl

mutual

private theorem valueLeaves_shown (path key : String)
    (hk : Parameter.isSensitive path = Parameter.isSensitive key) : (v : Value) →
      Table.valueLeaves path (shown key v) = Keyed.mapValues shownLeaf (Table.valueLeaves path v)
  | .table [] => rfl
  | .table (e :: rest) => leaves_masked path (e :: rest)
  | .null | .bool _ | .int _ | .float _ | .string _ | .array _ =>
    valueLeaves_shown_of_not_table hk rfl

/-- The leaves of a masked table are those of the table, each shown as its key demands. -/
theorem leaves_masked (path : String) : (entries : List (String × Value)) →
    Table.leaves path (masked entries) = Keyed.mapValues shownLeaf (Table.leaves path entries)
  | [] => rfl
  | (k, v) :: rest => by
    have hk := Parameter.isSensitive_joinKey path k
    rw [masked, Table.leaves, Table.leaves, valueLeaves_shown _ k hk v, leaves_masked path rest]
    exact List.map_append.symm

end

private theorem flatten_masked (t : Table) :
    Table.flatten (masked t) = Keyed.mapValues shownLeaf t.flatten := by
  have hleaves := leaves_masked "" t
  rw [Table.flatten, hleaves, Table.flatten]
  exact (Keyed.mapValues_overlay shownLeaf [] (Table.leaves "" t)).symm

end Secret

/-! ### Redacted leaves -/

/-- The final value that a document shows for a key. -/
def Value.ShowsFinal (document : Value) (key : String) (x : Value) : Prop :=
  ∃ histories history, document.Has "histories" histories ∧ histories.Has key history ∧
    history.Has "final_value" x

/-- A document shows one final value for a key that has a history with one. -/
theorem Tracker.showsFinal_iff {t : Tracker} (hs : Sorted t.histories) {key : String} {h : History}
    (hh : Keyed.get? key t.histories = some h) {x : Value} (hx : h.final = some x) (redact : Bool)
    (y : Value) :
    (t.document redact).ShowsFinal key y ↔ y = History.exported redact h.key x := by
  have hfinal : (h.document redact).Has "final_value" y ↔
      y = History.exported redact h.key x := by
    rw [History.has_final, hx]
    rfl
  rw [← hfinal]
  constructor
  · rintro ⟨histories, history, hd, hk, hy⟩
    obtain ⟨h', hm, rfl⟩ := Tracker.has_histories.mp ⟨histories, hd, hk⟩
    obtain rfl := Option.some.inj (hh.symm.trans (hs.mem_iff.mp hm))
    exact hy
  · intro hy
    obtain ⟨histories, hd, hk⟩ := Tracker.has_histories.mpr ⟨h, hs.mem_iff.mpr hh, rfl⟩
    exact ⟨histories, _, hd, hk, hy⟩

namespace Resolver

variable {r : Resolver} {w : World} {key : Option String} {default : Option Value} {c : Config}
  {t : Tracker}

private theorem showsFinal_of_leaf (h : r.WellFormed w key) (hd : ∀ d, default = some d → d.Ordered)
    (hok : (r.resolve w key default).1 = .ok c)
    (ht : (r.resolve w key default).2.observers.history = some t) {k : String} {v : Value}
    (hm : (k, v) ∈ Table.leaves "" c.toNested) (hv : v.isTable = false) {history : History}
    (hh : get? k t.histories = some history) :
    ∃ x, (∀ y, get? k c.flatten = some y → x.same y = true) ∧
      ∀ redact y, (t.document redact).ShowsFinal k y ↔ y = History.exported redact k x := by
  obtain ⟨hsorted, hclosed⟩ := closed_of_ok h hok ht
  have hc := hclosed k history hh
  -- the history is closed by some leaf under this key, if not by this one
  have hleaf := Keyed.isSome_get?_ofList (Config.mem_leaves_of_toNested (h.result hd hok) hm hv)
  have hfinal := hc.isSome_final.trans hleaf
  obtain ⟨x, hx⟩ := Option.isSome_iff_exists.mp hfinal
  refine ⟨x, ?_, ?_⟩
  · intro y hy
    have hsame := hc.final
    rw [hx, hy] at hsame
    cases hsame with
    | some hs => exact hs
  · intro redact y
    rw [Tracker.showsFinal_iff hsorted hh hx, hc.key_eq]

/-- It makes no difference whether a table is masked before it is flattened or after. After a
resolution every leaf of the result other than null and tables is masked by its dotted key alone,
and a document is redacted by the same key. Only a leaf without a history is not in the document:
one that moved to a made-up connection with the empty key, which names no secret, or a leaf of the
caller's default, which was used and is noted under a key of its own. -/
theorem masked_iff_redacted (data : Table)
    (ho : ∀ a ∈ r.askAll w key, ∀ t, a.report.outcome = .ok t → (Value.table t).Ordered)
    (hd : ∀ d, default = some d → d.Ordered)
    (hok : (r.resolve w key default).1 = .ok c)
    (ht : (r.resolve w key default).2.observers.history = some t) :
    Table.flatten (Secret.masked data) = Keyed.mapValues Secret.shownLeaf data.flatten ∧
      ∀ k v, (k, v) ∈ Table.leaves "" c.toNested → v ≠ .null → v.isTable = false →
        (k, if Parameter.isSensitive k then .string Secret.mask else v) ∈
            Table.leaves "" (Secret.masked c.toNested) ∧
          ((∃ x, (∀ y, get? k c.flatten = some y → x.same y = true) ∧
              ∀ redact y, (t.document redact).ShowsFinal k y ↔
                y = if redact && Parameter.isSensitive k then .string (Secret.fingerprint x)
                  else x) ∨
            (get? k t.histories = none ∧
              (k = "connections.default." ∨
                ∃ p d rest, key = some p ∧ default = some d ∧ t.usesDefault p = true ∧
                  k = dotted (Config.path p ++ rest) ∧ d.descend rest = some v))) := by
  have hw := wellFormed_of_ok ho hok
  refine ⟨Secret.flatten_masked data, fun k v hm hn hv ↦ ⟨?_, ?_⟩⟩
  · rw [Secret.leaves_masked]
    exact List.mem_map.mpr ⟨(k, v), hm, by rw [Secret.shownLeaf_eq k hn hv]⟩
  · cases hh : get? k t.histories with
    | some history => exact Or.inl (showsFinal_of_leaf hw hd hok ht hm hv hh)
    | none =>
      refine Or.inr ⟨rfl, ?_⟩
      -- what has no history is told by the path at whose end the leaf stands
      have hordered := (hw.result hd hok).ordered_toNested
      obtain ⟨first, rest, hx, -, rfl⟩ := (Table.mem_leaves "" _ hordered.1 hordered.2).mp hm
      rw [Table.at?_eq, ← Value.descend_table] at hx
      rcases notes_or_default hw hd hok ht hx hv with
        (hnotes | hp) | ⟨p, d, rest', hk, hdef, hused, hp, hx⟩
      · exact absurd hh hnotes.ne_none
      · exact Or.inl (congrArg dotted hp)
      · exact Or.inr ⟨p, d, rest', hk, hdef, hused, congrArg dotted hp, hx⟩

/-- A file with a connection that has a password and a user. -/
def passwordOnly : Resolver :=
  (ofTables [("base", .file, [("connections", .table [("dev", .table
    [("password", .string "x"), ("user", .string "u")])])])]).attach .history

/-- The password is masked and redacted, the user neither. -/
theorem masked_iff_redacted_password :
    ∃ c t, (passwordOnly.resolve {} none none).1 = .ok c ∧
      (passwordOnly.resolve {} none none).2.observers.history = some t ∧
      ("connections.dev.password", .string Secret.mask) ∈
        Table.leaves "" (Secret.masked c.toNested) ∧
      (t.document true).ShowsFinal "connections.dev.password"
        (.string (Secret.fingerprint (.string "x"))) ∧
      ("connections.dev.user", .string "u") ∈ Table.leaves "" (Secret.masked c.toNested) ∧
      (t.document true).ShowsFinal "connections.dev.user" (.string "u") := by
  obtain ⟨c, t, hok, ht, hleaves, hpassword, huser, hp, hu⟩ : ∃ c t,
      (passwordOnly.resolve {} none none).1 = .ok c ∧
      (passwordOnly.resolve {} none none).2.observers.history = some t ∧
      Table.leaves "" c.toNested =
        [("connections.dev.password", .string "x"), ("connections.dev.user", .string "u")] ∧
      get? "connections.dev.password" c.flatten = some (.string "x") ∧
      get? "connections.dev.user" c.flatten = some (.string "u") ∧
      get? "connections.dev.password" t.histories ≠ none ∧
      get? "connections.dev.user" t.histories ≠ none :=
    ⟨_, _, rfl, rfl, rfl, rfl, rfl, Option.some_ne_none _, Option.some_ne_none _⟩
  have hw : passwordOnly.WellFormed {} none := by decide
  have hall := (masked_iff_redacted [] (fun a ha data hdata ↦ (hw a ha data hdata).1)
    (fun _ hd ↦ by cases hd) hok ht).2
  have hstring : ∀ {x : Value} {text : String}, x.same (.string text) = true →
      x = .string text := by
    intro x text hs
    cases x with
    | string a => rw [beq_iff_eq.mp hs]
    | _ => cases hs
  refine ⟨c, t, hok, ht, ?_⟩
  rw [hleaves] at hall
  obtain ⟨hmask, ⟨x, hx, hshows⟩ | ⟨hnone, -⟩⟩ :=
    hall _ _ List.mem_cons_self (fun hn ↦ by cases hn) rfl
  · obtain ⟨hmask', ⟨x', hx', hshows'⟩ | ⟨hnone, -⟩⟩ :=
      hall _ _ (List.mem_cons_of_mem _ List.mem_cons_self) (fun hn ↦ by cases hn) rfl
    · obtain rfl := hstring (hx _ hpassword)
      obtain rfl := hstring (hx' _ huser)
      exact ⟨hmask, (hshows true _).mpr rfl, hmask', (hshows' true _).mpr rfl⟩
    · exact absurd hnone hu
  · exact absurd hnone hp

/-- The password of a proxy that a caller gave as default is a leaf of the result, and masked, but
it has no history, and a redacted document shows the proxy in clear. -/
theorem masked_not_redacted_default :
    ∃ c t, (((ofTables []).attach .history).resolve {} (some "proxy") (some proxy)).1 = .ok c ∧
      (((ofTables []).attach .history).resolve {} (some "proxy")
        (some proxy)).2.observers.history = some t ∧
      get? "proxy.password" c.flatten = some (.string "x") ∧
      get? "proxy.password" (Table.flatten (Secret.masked c.toNested)) =
        some (.string Secret.mask) ∧
      (∀ y, ¬ (t.document true).ShowsFinal "proxy.password" y) ∧
      (t.document true).Shows "proxy" proxy := by
  obtain ⟨c, t, history, hok, ht, hleaf, hmasked, hkeys, hh, hkey, hv⟩ : ∃ c t history,
      (((ofTables []).attach .history).resolve {} (some "proxy") (some proxy)).1 = .ok c ∧
      (((ofTables []).attach .history).resolve {} (some "proxy")
        (some proxy)).2.observers.history = some t ∧
      get? "proxy.password" c.flatten = some (.string "x") ∧
      get? "proxy.password" (Table.flatten (Secret.masked c.toNested)) =
        some (.string Secret.mask) ∧
      Keyed.keys t.histories = ["proxy"] ∧
      get? "proxy" t.histories = some history ∧ history.key = "proxy" ∧ history.values = [proxy] :=
    ⟨_, _, _, rfl, rfl, rfl, rfl, rfl, rfl, rfl, rfl⟩
  refine ⟨c, t, hok, ht, hleaf, hmasked, ?_, ?_⟩
  · rintro y ⟨histories, shown, hd, hs, -⟩
    obtain ⟨h, hm, -⟩ := Tracker.has_histories.mp ⟨histories, hd, hs⟩
    have hk : "proxy.password" ∈ Keyed.keys t.histories := List.mem_map_of_mem hm
    rw [hkeys] at hk
    exact absurd hk (by decide)
  · refine Tracker.shows_document_iff.mpr ⟨history, Keyed.mem_of_get? hh,
      Or.inr ⟨proxy, Or.inr (hv ▸ List.mem_cons_self), ?_⟩⟩
    rw [hkey, History.exported_of_not_sensitive (by decide)]

end Resolver

end LayeredConfig
