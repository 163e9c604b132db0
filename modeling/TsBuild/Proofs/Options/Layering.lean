import TsBuild.Proofs.Options.Entries

/-!
# Layers of option sets

Layering is associative, with the empty set as its identity, and a set over itself is that set. The value
of an option is that of the uppermost set that has one, so the values agree however the layers are
bracketed. The kept entries have an order besides: those of the lowest set stay where they are and each set
above adds its new names behind them, so their order agrees as well.
-/

namespace TsBuild.OptionSet

variable {upper middle lower options : OptionSet}

def keptNames (options : OptionSet) : List String := options.passthrough.map Prod.fst

theorem keptNames_layeredOver (h : upper.IsDistinct) (lower : OptionSet) :
    (upper.layeredOver lower).keptNames = lower.keptNames ++ upper.keptNames.filter (· ∉ lower.keptNames) :=
  Json.keys_layer h lower.passthrough

/-- Sets are equal if their options have the same values and the same entries are kept in the same order. -/
theorem eq_of_values {other : OptionSet} (h : options.IsDistinct)
    (hvalue : ∀ name, options.value? name = other.value? name) (hnames : options.keptNames = other.keptNames)
    (hkept : ∀ name, options.kept? name = other.kept? name) : options = other := by
  have hpassthrough : options.passthrough = other.passthrough := Json.eq_of_lookup h hnames hkept
  cases options
  cases other
  cases funext hvalue
  cases hpassthrough
  rfl

-- ---------------------------------------------------------------------------
-- The laws
-- ---------------------------------------------------------------------------

theorem layeredOver_assoc (hupper : upper.IsDistinct) (hmiddle : middle.IsDistinct) (hlower : lower.IsDistinct) :
    (upper.layeredOver middle).layeredOver lower = upper.layeredOver (middle.layeredOver lower) := by
  have hboth : (upper.layeredOver middle).IsDistinct := isDistinct_layeredOver upper hmiddle
  refine eq_of_values (isDistinct_layeredOver _ hlower) (fun name => ?_) ?_ fun name => ?_
  · simp only [value_layeredOver, Option.orElse_eq_orElse, Option.orElse_eq_or, Option.or_assoc]
  · -- a name is new to both sets below it, or it has its place there already
    rw [keptNames_layeredOver hboth, keptNames_layeredOver hupper, keptNames_layeredOver hupper,
      keptNames_layeredOver hmiddle, List.filter_append, List.append_assoc]
    congr 2
    rw [List.filter_filter]
    refine List.filter_congr fun name _ => ?_
    by_cases hlower : name ∈ lower.keptNames <;> simp [hlower]
  · simp only [kept_layeredOver hboth, kept_layeredOver hupper, kept_layeredOver hmiddle,
      Option.orElse_eq_orElse, Option.orElse_eq_or, Option.or_assoc]

theorem empty_layeredOver (options : OptionSet) : empty.layeredOver options = options := rfl

theorem layeredOver_empty (h : options.IsDistinct) : options.layeredOver empty = options := by
  refine eq_of_values (isDistinct_layeredOver _ isDistinct_empty) (fun name => ?_) ?_ fun name => ?_
  · rw [value_layeredOver, Option.orElse_eq_orElse, Option.orElse_eq_or]
    exact Option.or_none
  · rw [keptNames_layeredOver h]
    simp [keptNames, empty]
  · rw [kept_layeredOver h, Option.orElse_eq_orElse, Option.orElse_eq_or]
    exact Option.or_none

theorem layeredOver_self (h : options.IsDistinct) : options.layeredOver options = options := by
  refine eq_of_values (isDistinct_layeredOver _ h) (fun name => ?_) ?_ fun name => ?_
  · rw [value_layeredOver, Option.orElse_eq_orElse, Option.orElse_eq_or, Option.or_self]
  · rw [keptNames_layeredOver h]
    simp
  · rw [kept_layeredOver h, Option.orElse_eq_orElse, Option.orElse_eq_or, Option.or_self]

/-- Layering is an idempotent monoid: associative, the order of kept entries included, with the empty set
as identity on both sides, a set over itself being that set. Under each name the upper value wins. -/
theorem layering_monoid (hupper : upper.IsDistinct) (hmiddle : middle.IsDistinct) (hlower : lower.IsDistinct) :
    (upper.layeredOver middle).IsDistinct ∧
      (upper.layeredOver middle).layeredOver lower = upper.layeredOver (middle.layeredOver lower) ∧
      empty.layeredOver upper = upper ∧ upper.layeredOver empty = upper ∧ upper.layeredOver upper = upper ∧
      (∀ name, (upper.layeredOver middle).value? name = (upper.value? name <|> middle.value? name)) ∧
      ∀ name, (upper.layeredOver middle).kept? name = (upper.kept? name <|> middle.kept? name) :=
  ⟨isDistinct_layeredOver upper hmiddle, layeredOver_assoc hupper hmiddle hlower, empty_layeredOver upper,
    layeredOver_empty hupper, layeredOver_self hupper, value_layeredOver upper middle,
    kept_layeredOver hupper middle⟩

def projectLayer : OptionSet :=
  (ofJson (.object [("strict", .bool true), ("moduleDetection", .string "force"), ("declarationMap", .bool false)])).1

def sharedLayer : OptionSet :=
  (ofJson (.object [("noImplicitReturns", .bool true), ("declarationMap", .bool true), ("strict", .bool false)])).1

theorem layering_monoid_project :
    projectLayer.IsDistinct ∧ sharedLayer.IsDistinct ∧ baseline.IsDistinct ∧
      (projectLayer.layeredOver sharedLayer).layeredOver baseline =
        projectLayer.layeredOver (sharedLayer.layeredOver baseline) ∧
      (projectLayer.layeredOver sharedLayer).kept? "declarationMap" =
        (projectLayer.kept? "declarationMap" <|> sharedLayer.kept? "declarationMap") ∧
      (projectLayer.layeredOver sharedLayer).keptNames =
        ["noImplicitReturns", "declarationMap", "moduleDetection"] := by
  have hproject : projectLayer.IsDistinct := isDistinct_ofJson _
  have hshared : sharedLayer.IsDistinct := isDistinct_ofJson _
  have hbaseline : baseline.IsDistinct := isDistinct_empty
  obtain ⟨-, hassoc, -, -, -, -, hkept⟩ := layering_monoid hproject hshared hbaseline
  exact ⟨hproject, hshared, hbaseline, hassoc, hkept "declarationMap", by decide +kernel⟩

end TsBuild.OptionSet
