import LayeredConfig.Proofs.Stream

/-!
# Connections stay

A connection that general parameters went into is in the result of the pass: nothing that comes after,
be it another source, the settling of general parameters or a default, takes a connection away.
-/

namespace LayeredConfig

private theorem Config.contains_set {c c' : Config} {key name : String} {v : Value}
    (h : c.set key v = .ok c') (hn : Keyed.contains name c.connections = true) :
    Keyed.contains name c'.connections = true := by
  unfold set at h
  split at h
  · cases v with
    | table entries =>
      dsimp only at h
      split at h
      · cases h
        rw [Keyed.contains_overlay, hn, Bool.true_or]
      · cases h
    | _ => cases h
  · cases v with
    | table record =>
      cases h
      rw [Keyed.contains_insert, hn, Bool.or_true]
    | _ => cases h
  · cases h
    rw [Keyed.contains_insert, hn, Bool.or_true]
  · cases h
    exact hn

namespace Layers

variable {l : Layers} {r : Report} {config : Config} {name : String}

private theorem contains_add (hn : Keyed.contains name l.config.connections = true) :
    Keyed.contains name (l.add r config).1.config.connections = true := by
  rw [add]
  split
  · rw [addFile, Keyed.contains_overlay, hn, Bool.true_or]
  · have hjoined : l.joined config = Keyed.merge
        (fun old fields ↦ Table.deepMerge (old.getD []) fields) l.config.connections
        config.connections := rfl
    rw [addOverlay_eq]
    dsimp only
    rw [Keyed.contains_map name fun name record ↦ fill record (l.taken r config (name, record)),
      hjoined, Keyed.contains_merge, hn, Bool.true_or]

private theorem contains_of_broadcast_add {c : Candidate}
    (h : .broadcast name c ∈ (l.add r config).2) :
    Keyed.contains name (l.add r config).1.config.connections = true := by
  rw [add] at h ⊢
  split at h
  · cases h
  · rw [addOverlay_eq] at h ⊢
    obtain ⟨⟨connection, record⟩, he, h⟩ := List.mem_flatMap.mp h
    obtain ⟨_, -, h⟩ := List.mem_map.mp h
    cases h
    exact Keyed.contains_iff.mpr ⟨_, List.mem_map_of_mem he⟩

private theorem contains_settle (hn : Keyed.contains name l.config.connections = true) :
    Keyed.contains name l.settle.1.connections = true := by
  rw [settle]
  split
  · exact hn
  · dsimp only
    rw [List.map_map, ← hn]
    exact Keyed.contains_map name (fun _ record ↦ (Table.fillMissing record _).2) _

private theorem contains_of_broadcast_settle {c : Candidate} (h : .broadcast name c ∈ l.settle.2) :
    Keyed.contains name l.config.connections = true := by
  rw [settle] at h
  split at h
  · cases h
  · obtain ⟨_, hm, h⟩ := List.mem_flatMap.mp h
    obtain ⟨e, he, rfl⟩ := List.mem_map.mp hm
    obtain ⟨_, -, h⟩ := List.mem_filterMap.mp h
    obtain ⟨_, -, h⟩ := Option.map_eq_some_iff.mp h
    cases h
    exact Keyed.contains_iff.mpr ⟨_, he⟩

end Layers

namespace Pass

variable {l l' : Layers} {reports : List Report} {name : String}

private theorem contains_merge (h : (merge l reports).layers = .ok l')
    (hn : Keyed.contains name l.config.connections = true) :
    Keyed.contains name l'.config.connections = true := by
  induction reports generalizing l with
  | nil =>
    cases h
    exact hn
  | cons r rest ih =>
    cases r.step with
    | failed e ho =>
      rw [merge_failed ho] at h
      exact ih h hn
    | malformed t cause ho hs =>
      rw [merge_malformed ho hs] at h
      cases h
    | answered t c ho hs =>
      rw [merge_answered ho hs] at h
      exact ih h (Layers.contains_add hn)

private theorem contains_of_broadcast_merge {c : Candidate} (h : (merge l reports).layers = .ok l')
    (he : .broadcast name c ∈ (merge l reports).events) :
    Keyed.contains name l'.config.connections = true := by
  induction reports generalizing l with
  | nil => cases he
  | cons r rest ih =>
    cases r.step with
    | failed e ho =>
      rw [merge_failed ho] at h he
      rcases List.mem_cons.mp he with he | he
      · cases he
      · exact ih h he
    | malformed t cause ho hs =>
      rw [merge_malformed ho hs] at h
      cases h
    | answered t config ho hs =>
      rw [merge_answered ho hs] at h he
      rcases List.mem_append.mp he with he | he
      · rcases List.mem_append.mp he with he | he
        · rcases List.mem_cons.mp he with he | he
          · cases he
          · obtain ⟨_, -, he⟩ := List.mem_map.mp he
            cases he
        · exact contains_merge h (Layers.contains_of_broadcast_add he)
      · exact ih h he

private theorem contains_synthesize {c : Config} (hn : Keyed.contains name c.connections = true) :
    Keyed.contains name (synthesize c).1.connections = true := by
  have hc : (!c.connections.isEmpty) = true := by
    obtain ⟨_, he⟩ := Keyed.contains_iff.mp hn
    rw [Bool.not_eq_true', List.isEmpty_eq_false_iff]
    exact List.ne_nil_of_mem he
  rw [synthesize, Config.synthesize, hc]
  exact hn

private theorem contains_place {c config : Config} {key : Option String} {default : Option Value}
    {placed : List Event} (h : place c key default = .ok (config, placed))
    (hn : Keyed.contains name c.connections = true) :
    Keyed.contains name config.connections = true := by
  unfold place at h
  split at h
  · split at h
    · cases h
      exact hn
    · split at h
      · next hset =>
        cases h
        exact Config.contains_set hset hn
      · cases h
  · cases h
    exact hn

/-- Connections that general parameters went into are in the result. -/
theorem contains_of_broadcast {key : Option String} {default : Option Value} {config : Config}
    (h : (run reports key default).result = .ok config) {c : Candidate}
    (he : .broadcast name c ∈ (run reports key default).events) :
    Keyed.contains name config.connections = true := by
  cases hl : (merge {} reports).layers with
  | error e =>
    rw [run_of_error hl] at h
    cases h
  | ok l =>
    rw [run_of_ok hl, conclude] at h he
    cases hp : place (synthesize l.settle.1).1 key default with
    | error e =>
      rw [hp] at h
      cases h
    | ok result =>
      obtain ⟨config', placed⟩ := result
      rw [hp] at h he
      obtain rfl : config' = config := Except.ok.inj h
      -- no later step takes a connection away, so those that are merged are all that matters
      apply contains_place hp
      apply contains_synthesize
      apply Layers.contains_settle
      simp only [List.mem_cons, List.mem_append, List.not_mem_nil, reduceCtorEq, or_false,
        false_or] at he
      rcases he with he | (he | he) | he
      · exact contains_of_broadcast_merge hl he
      · exact Layers.contains_of_broadcast_settle he
      · rw [synthesize] at he
        dsimp only at he
        split at he <;> simp at he
      · cases placed_place hp <;> simp at he

end Pass

end LayeredConfig
