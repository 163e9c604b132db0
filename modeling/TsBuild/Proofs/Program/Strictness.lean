import TsBuild.Proofs.Program.Pending

/-!
# Stricter options

What the options say about checking has no influence on what is loaded, and the stricter they are, the more
is reported. The main statement is `reports_more_of_stricter`: of two option sets with the same `types`, the
stricter one has all that the other finds wrong in a file, in the same order, and more.
-/

namespace TsBuild.Program

variable {fs : FileSystem} {checks stricter : Checks} {ambient : List String} {file : LoadedFile}

-- ---------------------------------------------------------------------------
-- Checks
-- ---------------------------------------------------------------------------

structure Checks.AtMost (checks others : Checks) : Prop where
  nulls : checks.strictNullChecks = true → others.strictNullChecks = true
  declarations : others.skipDeclarations = true → checks.skipDeclarations = true
  sideEffects : checks.sideEffectImports = true → others.sideEffectImports = true
  packages : checks.bareImports = true → others.bareImports = true

theorem fits_of_strict {literal : LiteralType} {keyword : Script.Keyword} {strict other : Bool}
    (hstrict : strict = true → other = true) (h : literal.fits other keyword = true) :
    literal.fits strict keyword = true := by
  unfold LiteralType.fits at h ⊢
  split at h
  · exact h
  · exact h
  · exact h
  · rw [Bool.or_eq_true] at h ⊢
    refine h.imp_left fun hnullish => ?_
    cases strict with
    | false => simpa using (Bool.and_eq_true _ _ ▸ hnullish).2
    | true => rwa [hstrict rfl] at hnullish

theorem accepted_of_strict {annotated : AnnotatedLiteral} {strict other : Bool}
    (hstrict : strict = true → other = true) (h : annotated.accepted other = true) :
    annotated.accepted strict = true := by
  obtain ⟨keyword, hmem, hfits⟩ := List.any_eq_true.mp h
  exact List.any_eq_true.mpr ⟨keyword, hmem, fits_of_strict hstrict hfits⟩

theorem Checks.AtMost.literals (h : checks.AtMost stricter) :
    (literalDiagnostics checks file).Sublist (literalDiagnostics stricter file) := by
  unfold literalDiagnostics
  split
  · exact List.nil_sublist _
  · rename_i hchecked
    -- What is not skipped here is not skipped there.
    rw [if_neg]
    · refine (List.monotone_filter_right _ fun annotated hrejected => ?_).map _
      rw [Bool.not_eq_true'] at hrejected ⊢
      rw [Bool.eq_false_iff] at hrejected ⊢
      exact fun haccepted => hrejected (accepted_of_strict h.nulls haccepted)
    · simp only [Bool.and_eq_true, not_and] at hchecked ⊢
      exact fun hdeclaration hskip => hchecked hdeclaration (h.declarations hskip)

theorem Checks.AtMost.standsForNothing (h : checks.AtMost stricter) {pending : PendingImport}
    (hnothing : Program.standsForNothing fs checks ambient pending = true) :
    Program.standsForNothing fs stricter ambient pending = true := by
  simp only [Program.standsForNothing, Bool.and_eq_true, Bool.or_eq_true] at hnothing ⊢
  exact hnothing.imp_right (Or.imp_right (And.imp_left h.packages))

theorem Checks.AtMost.isUnresolved (h : checks.AtMost stricter)
    (hunresolved : Program.isUnresolved fs checks ambient importer import_ = true) :
    Program.isUnresolved fs stricter ambient importer import_ = true := by
  simp only [Program.isUnresolved, Bool.and_eq_true, Bool.or_eq_true] at hunresolved ⊢
  obtain ⟨⟨hnone, hcounts⟩, hnothing⟩ := hunresolved
  exact ⟨⟨hnone, hcounts.imp_left h.sideEffects⟩, h.standsForNothing hnothing⟩

/-- The stricter way of checking finds all that the other finds in the body of a file, in the same order. -/
theorem Checks.AtMost.produced (h : checks.AtMost stricter) :
    (Program.produced fs checks ambient file).Sublist (Program.produced fs stricter ambient file) :=
  h.literals.append ((List.monotone_filter_right _ fun _ => h.isUnresolved).map _)

-- ---------------------------------------------------------------------------
-- Options
-- ---------------------------------------------------------------------------

/-- Option sets of which the second is at least as strict as the first. -/
structure IsStricter (options others : OptionSet) : Prop where
  nulls : options.strictNullChecks = true → others.strictNullChecks = true
  sideEffects : options.isOn .noUncheckedSideEffectImports = true →
    others.isOn .noUncheckedSideEffectImports = true
  declarations : others.isOn .skipLibCheck = true → options.isOn .skipLibCheck = true
  lookups : (others.value? .baseUrl).isSome ∨ (others.value? .paths).isSome →
    (options.value? .baseUrl).isSome ∨ (options.value? .paths).isSome

theorem IsStricter.atMost (h : IsStricter options others) :
    (Checks.ofOptions options).AtMost (Checks.ofOptions others) where
  nulls := h.nulls
  declarations := h.declarations
  sideEffects := h.sideEffects
  packages hnone := by
    simp only [Checks.ofOptions, Bool.and_eq_true, Option.isNone_iff_eq_none, ← Option.not_isSome_iff_eq_none,
      ← not_or] at hnone ⊢
    exact fun hsome => hnone (h.lookups hsome)

variable {options others : OptionSet}

theorem startRequests_congr (fs : FileSystem) (roots : List String)
    (htypes : options.value? .types = others.value? .types) :
    startRequests fs roots options = startRequests fs roots others := by
  rw [startRequests, startRequests, htypes]

/-- Two option sets with the same `types` load the same files in the same order, with the same syntax errors
and the same diagnostics of the program. If the second is at least as strict, then what is wrong in the body
of a file under the first is wrong under the second, in the same order. -/
theorem reports_more_of_stricter (fs : FileSystem) (roots : List String)
    (htypes : options.value? .types = others.value? .types) :
    let program := build fs roots options
    let stricter := build fs roots others
    program.files.map (·.source) = stricter.files.map (·.source) ∧
    program.files.map (·.syntactic) = stricter.files.map (·.syntactic) ∧
    program.globals = stricter.globals ∧
    (IsStricter options others →
      List.Forall₂ (fun file other => file.semantic.Sublist other.semantic) program.files stricter.files) := by
  intro program stricter
  have hrequests := startRequests_congr fs roots htypes
  have hfiles := files_buildWith fs Facts.of roots options
  have hstricter := files_buildWith fs Facts.of roots others
  rw [← hrequests] at hstricter
  have hglobals : stricter.globals = program.globals :=
    congrArg (fun requests => (load fs Facts.of _ requests).missing.map missingRoot) hrequests.symm
  change program.files = _ at hfiles
  change stricter.files = _ at hstricter
  rw [hfiles, hstricter]
  refine ⟨by simp, by simp, hglobals.symm, fun h => ?_⟩
  rw [List.forall₂_map_left_iff, List.forall₂_map_right_iff, List.forall₂_same]
  exact fun file _ => inTextOrder_sublist h.atMost.produced

def strictlyWrong : FileSystem where
  root := .dir [("w", .dir [
    ("a.ts", .file (some "import './b';\nlet a: string = 1;\n")),
    ("b.ts", .file (some "import './c';\nlet b: number = null;\n")),
    ("c.ts", .file (some "import 'x';\n"))])]
  cwd := "/"

def strictOptions : OptionSet :=
  (OptionSet.baseline.set .strict true).set .noUncheckedSideEffectImports true

set_option maxRecDepth 100000 in
theorem reports_more_of_stricter_wrong :
    OptionSet.baseline.value? .types = strictOptions.value? .types ∧ IsStricter .baseline strictOptions ∧
      (build strictlyWrong ["/w/a.ts"] .baseline).files.map (·.semantic.length) = [1, 0, 0] ∧
      (build strictlyWrong ["/w/a.ts"] strictOptions).files.map (·.semantic.length) = [1, 1, 1] ∧
      List.Forall₂ (fun file other => file.semantic.Sublist other.semantic)
        (build strictlyWrong ["/w/a.ts"] .baseline).files
        (build strictlyWrong ["/w/a.ts"] strictOptions).files := by
  have htypes : OptionSet.baseline.value? .types = strictOptions.value? .types := rfl
  have hstricter : IsStricter .baseline strictOptions :=
    ⟨by decide, by decide, by decide, fun h => by revert h; decide⟩
  obtain ⟨-, -, -, hsublist⟩ := reports_more_of_stricter strictlyWrong ["/w/a.ts"] htypes
  exact ⟨htypes, hstricter, by decide +kernel, by decide +kernel, hsublist hstricter⟩

end TsBuild.Program
