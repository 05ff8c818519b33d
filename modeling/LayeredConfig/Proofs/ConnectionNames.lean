import LayeredConfig.Proofs.Variables

/-!
# Names in variables

The variable of a connection's parameter is spelled with the name of the connection, an underscore and
the parameter, in letters of either case. It is read back at the longest parameter it ends in, so a
name and a parameter come back unless the end of the name and the parameter are a parameter too.
-/

namespace LayeredConfig

namespace Text

private theorem toLower_toUpper (c : Char) : c.toUpper.toLower = c.toLower := by
  by_cases hc : c.toNat < 128
  · exact Secret.ascii_forall (P := fun c ↦ c.toUpper.toLower = c.toLower) (by decide) hc
  · have hupper : c.toUpper = c := by
      rw [Char.toUpper, dif_neg]
      rintro ⟨-, hle⟩
      have hz : c.toNat ≤ 122 := UInt32.le_iff_toNat_le.mp hle
      omega
    rw [hupper]

private theorem lowerAscii_toUpper (s : String) : lowerAscii s.toUpper = lowerAscii s := by
  rw [lowerAscii, lowerAscii, String.toUpper, String.toList_map, List.map_map]
  congr 2
  funext c
  exact toLower_toUpper c

private theorem lowerAscii_append (s t : String) :
    lowerAscii (s ++ t) = lowerAscii s ++ lowerAscii t := by
  rw [lowerAscii, String.toList_append, List.map_append, String.ofList_append, lowerAscii, lowerAscii]

end Text

private theorem Parameter.lowerAscii_of_isParameter {parameter : String}
    (h : isParameter parameter = true) : Text.lowerAscii parameter = parameter := by
  have hall : ∀ parameter ∈ all, Text.lowerAscii parameter = parameter := by decide
  exact hall parameter (List.contains_iff_mem.mp h)

namespace Scheme

variable {rest connection parameter connection' longer : String}

/-- What follows the lead splits, and at no longer parameter. -/
structure SplitsLast (rest connection parameter : String) : Prop
    extends Splits rest connection parameter where
  longest : ∀ connection' longer, parameter.length < longer.length →
    ¬ Splits rest connection' longer

/-- What follows the lead in the variable of a connection's parameter. -/
def spelled (connection parameter : String) : String := (connection ++ "_" ++ parameter).toUpper

private theorem lowerAscii_spelled (hc : Text.lowerAscii connection = connection)
    (hp : Parameter.isParameter parameter = true) :
    Text.lowerAscii (spelled connection parameter) = connection ++ "_" ++ parameter := by
  have hunderscore : Text.lowerAscii "_" = "_" := by decide
  rw [spelled, Text.lowerAscii_toUpper, Text.lowerAscii_append, Text.lowerAscii_append, hc,
    hunderscore, Parameter.lowerAscii_of_isParameter hp]

/-- A rest is split at the longest parameter. -/
theorem splitConnection?_eq_some_iff_last :
    splitConnection? rest = some (connection, parameter) ↔ SplitsLast rest connection parameter := by
  rw [splitConnection?_eq_some_iff]
  constructor
  · rintro ⟨h, hmax⟩
    refine ⟨h, fun connection' longer hlt h' ↦ ?_⟩
    have hle := hmax connection' longer h'
    omega
  · rintro ⟨h, hlongest⟩
    refine ⟨h, fun connection' longer h' ↦ ?_⟩
    by_contra hlt
    exact hlongest connection' longer (by omega) h'

/-- A rest is not split only if it cannot be. -/
theorem splitConnection?_eq_none_iff :
    splitConnection? rest = none ↔ ∀ connection parameter, ¬ Splits rest connection parameter := by
  constructor
  · intro hn connection parameter h
    have hfound : (splitConnection? rest).isSome = true :=
      isSome_foldl_longer (Or.inl (List.ne_nil_of_mem (mem_splits.mpr h)))
    rw [hn] at hfound
    cases hfound
  · intro h
    rw [Option.eq_none_iff_forall_ne_some]
    rintro ⟨connection, parameter⟩ hs
    exact h connection parameter (splitConnection?_eq_some_iff.mp hs).1

private theorem Splits.isSuffix (h : Splits rest connection parameter)
    (h' : Splits rest connection' longer) (hl : parameter.length < longer.length) :
    parameter.toList <:+ longer.toList := by
  have hends (c p : String) (hs : Splits rest c p) :
      p.toList <:+ (Text.lowerAscii rest).toList := by
    rw [hs.eq_append, String.toList_append]
    exact List.suffix_append _ _
  apply List.suffix_of_suffix_length_le (hends _ _ h) (hends _ _ h')
  rw [String.length_toList, String.length_toList]
  omega

/-- A rest that splits at a parameter is split there, unless it splits at a longer one that ends in
it. -/
theorem Splits.splitConnection?_eq_iff (h : Splits rest connection parameter) :
    splitConnection? rest = some (connection, parameter) ↔
      ¬ ∃ connection' longer, parameter.toList <:+ longer.toList ∧
        parameter.length < longer.length ∧ Splits rest connection' longer := by
  rw [splitConnection?_eq_some_iff_last]
  constructor
  · rintro hlast ⟨connection', longer, -, hl, h'⟩
    exact hlast.longest connection' longer hl h'
  · intro hn
    exact ⟨h, fun connection' longer hl h' ↦ hn ⟨connection', longer, h.isSuffix h' hl, hl, h'⟩⟩

/-- What follows the lead in a variable is split at the longest parameter that leaves a name, and not
at all exactly if none does. So a name in small letters and a parameter come back from the variable
that is spelled with them, in letters of whatever case, unless it splits at a longer parameter, which
then ends in this one. -/
theorem splitConnection?_lawful :
    (∀ rest connection parameter, splitConnection? rest = some (connection, parameter) ↔
        SplitsLast rest connection parameter) ∧
      (∀ rest, splitConnection? rest = none ↔
        ∀ connection parameter, ¬ Splits rest connection parameter) ∧
      ∀ connection parameter, connection ≠ "" → Text.lowerAscii connection = connection →
        Parameter.isParameter parameter = true →
          Text.lowerAscii (spelled connection parameter) = connection ++ "_" ++ parameter ∧
          ∀ rest, Text.lowerAscii rest = connection ++ "_" ++ parameter →
            (splitConnection? rest = some (connection, parameter) ↔
              ¬ ∃ connection' longer, parameter.toList <:+ longer.toList ∧
                parameter.length < longer.length ∧ Splits rest connection' longer) := by
  refine ⟨fun _ _ _ ↦ splitConnection?_eq_some_iff_last, fun _ ↦ splitConnection?_eq_none_iff, ?_⟩
  intro connection parameter hne hlower hp
  refine ⟨lowerAscii_spelled hlower hp, fun rest hrest ↦ ?_⟩
  have h : Splits rest connection parameter := ⟨hp, hne, hrest⟩
  exact h.splitConnection?_eq_iff

/-- The token of the connection `session` comes back, because no name is left in front of the longer
parameter; that of `prod_session` is read as the session token of `prod`. -/
theorem splitConnection?_lawful_token :
    SplitsLast (spelled "session" "token") "session" "token" ∧
      splitConnection? (spelled "prod_session" "token") = some ("prod", "session_token") ∧
      splitConnection? (spelled "prod_session" "token") ≠ some ("prod_session", "token") := by
  obtain ⟨hlast, -, hreads⟩ := splitConnection?_lawful
  refine ⟨(hlast _ _ _).mp (by cbv), by cbv, ?_⟩
  obtain ⟨hlower, hread⟩ := hreads "prod_session" "token" (by decide) (by decide) (by decide)
  rw [Ne, hread _ hlower, not_not]
  exact ⟨"prod", "session_token", by decide, by decide, by decide, by decide, hlower⟩

end Scheme

end LayeredConfig
