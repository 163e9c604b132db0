import Mathlib.Data.List.Perm.Subperm
import TsBuild.Proofs.Config.Calls
import TsBuild.Proofs.Program.Loads

/-!
# Circular configurations

The main statement is `calls_end_circularity_iff`. At every point of an expansion the stack is the list of
the files whose calls have not returned (`Run.Sound`), each there once under its one normal name, and a base
is reported as circular exactly if it is one of them. A file that is merely met again on another way is
expanded again.
-/

namespace TsBuild.Config

variable {fs : FileSystem} {basePath : String} {run next : Run} {file : SourceFile} {root : String}

-- ---------------------------------------------------------------------------
-- The stack
-- ---------------------------------------------------------------------------

/-- The stack holds the files under expansion: distinct absolute paths in normal form, of which all but that
of the root are files of the tree. -/
structure Run.Sound (fs : FileSystem) (basePath root : String) (run : Run) : Prop where
  stack_eq : run.stack = run.inProgress
  nodup : run.stack.Nodup
  normal : ∀ path ∈ run.stack, Path.isAbsolute path = true ∧ Path.normalize path = path
  known : ∀ path ∈ run.stack, path = root ∨ path ∈ fs.fileNames
  directories : ∀ file ∈ run.calls.map Call.file, Path.isAbsolute (directory basePath file) = true

theorem Run.Sound.start (fs : FileSystem) (hfile : Path.isAbsolute file.name = true)
    (hdir : Path.isAbsolute (directory basePath file) = true) (config : Json) :
    Run.Sound fs basePath (Path.normalize file.name) (.start config file) where
  stack_eq := rfl
  nodup := List.pairwise_singleton _ _
  normal := by
    intro path hmem
    rw [List.mem_singleton.mp hmem]
    exact ⟨by rw [Path.isAbsolute_normalize, hfile], Path.normalize_normalize _⟩
  known := fun path hmem => .inl (List.mem_singleton.mp hmem)
  directories := by
    intro other hmem
    rw [List.mem_singleton.mp hmem]
    exact hdir

theorem Run.Sound.step (hsound : run.Sound fs basePath root) (h : Step fs basePath run next) :
    next.Sound fs basePath root := by
  obtain ⟨hstack, hnodup, hnormal, hknown, hdirectories⟩ := hsound
  cases h with
  | notObject => exact ⟨hstack, hnodup, hnormal, hknown, hdirectories⟩
  | object => exact ⟨hstack, hnodup, hnormal, hknown, hdirectories⟩
  | skip => exact ⟨hstack, hnodup, hnormal, hknown, hdirectories⟩
  | own => exact ⟨hstack, hnodup, hnormal, hknown, hdirectories⟩
  | enter hfound =>
    have hdir := hdirectories _ List.mem_cons_self
    obtain ⟨hmem, hnew, hname, -⟩ := findBase_ok hdir hfound
    have hpath := resolveBase_normal hdir (findBase_read hfound).1
    refine ⟨?_, ?_, ?_, ?_, ?_⟩
    · simp only [Run.inProgress] at hstack ⊢
      simp [hstack, hname, hpath.2]
    · simpa [List.nodup_append] using ⟨hnodup, fun path hold heq => hnew (heq ▸ hold)⟩
    · exact List.forall_mem_append.mpr ⟨hnormal, List.forall_mem_singleton.mpr hpath⟩
    · exact List.forall_mem_append.mpr ⟨hknown, List.forall_mem_singleton.mpr (.inr hmem)⟩
    · exact List.forall_mem_cons.mpr ⟨isAbsolute_directory_of_findBase hdir hfound, hdirectories⟩
  | leave =>
    refine ⟨?_, ?_, ?_, ?_, ?_⟩
    · simp only [Run.inProgress] at hstack ⊢
      simp [hstack]
    · exact hnodup.sublist (List.dropLast_sublist _)
    · exact fun path hmem => hnormal path ((List.dropLast_sublist _).subset hmem)
    · exact fun path hmem => hknown path ((List.dropLast_sublist _).subset hmem)
    · exact (List.forall_mem_cons.mp hdirectories).2

theorem Run.Sound.reaches (hsound : run.Sound fs basePath root) (h : Reaches fs basePath run next) :
    next.Sound fs basePath root := by
  induction h with
  | refl => exact hsound
  | tail _ hstep ih => exact ih.step hstep

theorem Run.Sound.length_stack_le (hsound : run.Sound fs basePath root) :
    run.stack.length ≤ fs.fileCount + 1 := by
  have hsubset : run.stack ⊆ root :: fs.fileNames := fun path hmem => List.mem_cons.mpr (hsound.known path hmem)
  have hlength := (List.subperm_of_subset hsound.nodup hsubset).length_le
  rwa [List.length_cons, FileSystem.length_fileNames] at hlength

-- ---------------------------------------------------------------------------
-- The errors of a step
-- ---------------------------------------------------------------------------

def circularityCode : Nat := 18000

theorem code_atKey (diagnostic : Diagnostic) (path : List String) (file : SourceFile) :
    (atKey diagnostic path file).code = diagnostic.code := by
  unfold atKey
  split <;> rfl

theorem code_of_parse (h : parse name text = .error diagnostic) : diagnostic.code = 1005 := by
  unfold parse at h
  split at h
  · cases h
  · cases h
    rfl

theorem code_ne_of_mem_own (raw? : Option Json) (file : SourceFile) :
    ∀ diagnostic ∈ (ownExpansion raw? file).errors, diagnostic.code ≠ circularityCode := by
  intro diagnostic hmem
  cases raw? with
  | none => cases hmem
  | some raw =>
    obtain ⟨⟨name, error⟩, -, rfl⟩ := List.mem_map.mp hmem
    change (atKey _ _ file).code ≠ _
    rw [code_atKey]
    cases error <;> simp [Diagnostic.error, OptionError.code, circularityCode]

theorem code_ne_of_mem_malformed (h : NamesBases file value? specs malformed) :
    ∀ diagnostic ∈ malformed, diagnostic.code ≠ circularityCode := by
  have hcode : (extendsError file).code ≠ circularityCode := by
    rw [extendsError, code_atKey]
    simp [Diagnostic.error, circularityCode]
  cases h with
  | absent | text | texts => exact fun _ hmem => absurd hmem List.not_mem_nil
  | mixed | other => exact List.forall_mem_singleton.mpr hcode

/-- What a base contributes is a circularity exactly if the base is on the stack. -/
theorem findBase_error_code (h : findBase fs dir file stack spec = .error error) :
    error.code = circularityCode ↔ ∃ path ∈ stack, resolveBase? fs dir spec = some path := by
  unfold findBase at h
  cases hresolve : resolveBase? fs dir spec with
  | none =>
    rw [hresolve] at h
    cases h
    simp [code_atKey, Diagnostic.error, circularityCode]
  | some path =>
    rw [hresolve] at h
    simp only at h
    split at h
    · rename_i hstack
      cases h
      simpa [code_atKey, Diagnostic.error, circularityCode] using hstack
    · rename_i hstack
      simp only [Option.some.injEq, exists_eq_right', hstack, iff_false]
      split at h
      · cases h
        simp [Diagnostic.error, circularityCode]
      · cases hparse : parse path _ with
        | error diagnostic =>
          rw [hparse] at h
          cases h
          rw [code_of_parse hparse]
          decide
        | ok => rw [hparse] at h; cases h

/-- A step adds errors to those before it. One of them is a circularity exactly if the step turns to a base
that is on the stack. -/
theorem Step.errors (h : Step fs basePath run next) :
    ∃ added, next.errors = run.errors ++ added ∧
      ((∃ error ∈ added, error.code = circularityCode) ↔
        ∃ file spec, run.AtBase file spec ∧
          ∃ path ∈ run.stack, resolveBase? fs (directory basePath file) spec = some path) := by
  -- But for the steps of a call that turns to a base, neither side holds.
  have hnone : ∀ {added : List Diagnostic}, (∀ error ∈ added, error.code ≠ circularityCode) →
      (∀ file spec, ¬ run.AtBase file spec) →
      ((∃ error ∈ added, error.code = circularityCode) ↔
        ∃ file spec, run.AtBase file spec ∧
          ∃ path ∈ run.stack, resolveBase? fs (directory basePath file) spec = some path) := by
    intro added hcodes hbase
    constructor
    · rintro ⟨error, hmem, hcode⟩
      exact absurd hcode (hcodes error hmem)
    · rintro ⟨file, spec, hat, -⟩
      exact absurd hat (hbase file spec)
  cases h with
  | notObject hroot =>
    refine ⟨_, rfl, hnone ?_ ?_⟩
    · simp [rootError, Diagnostic.within, Diagnostic.error, circularityCode]
    · rintro _ _ ⟨_, _, _, _, ⟨⟩⟩
  | object _ hspecs =>
    refine ⟨_, rfl, hnone (code_ne_of_mem_malformed hspecs) ?_⟩
    rintro _ _ ⟨_, _, _, _, ⟨⟩⟩
  | own hown =>
    refine ⟨_, rfl, hnone (hown ▸ code_ne_of_mem_own _ _) ?_⟩
    rintro _ _ ⟨_, _, _, _, ⟨⟩⟩
  | leave =>
    refine ⟨[], (List.append_nil _).symm, hnone (by simp) ?_⟩
    rintro _ _ ⟨_, _, _, _, ⟨⟩⟩
  | skip herror =>
    refine ⟨_, rfl, ?_⟩
    simp only [List.mem_singleton, exists_eq_left, findBase_error_code herror]
    constructor
    · intro hpath
      exact ⟨_, _, ⟨_, _, _, _, rfl⟩, hpath⟩
    · rintro ⟨_, _, ⟨_, _, _, _, ⟨⟩⟩, hpath⟩
      exact hpath
  | enter hfound =>
    refine ⟨[], (List.append_nil _).symm, ?_⟩
    obtain ⟨hresolve, hnew, -⟩ := findBase_read hfound
    constructor
    · rintro ⟨_, ⟨⟩, _⟩
    · rintro ⟨_, _, ⟨_, _, _, _, ⟨⟩⟩, path, hmem, hpath⟩
      rw [hresolve, Option.some.injEq] at hpath
      exact absurd (hpath ▸ hmem) hnew

-- ---------------------------------------------------------------------------
-- Expansions
-- ---------------------------------------------------------------------------

/-- The calls for a configuration whose name and directory are absolute come to an end, in the expansion of
the configuration. At every point before, the stack holds distinct absolute paths in normal form, those of
the files whose calls have not returned, and they are at most one more than the files of the tree. A call
that is entered returns with the stack as it was. What a step adds to the errors has a circularity exactly
if the step turns to a base whose file is under expansion. -/
theorem calls_end_circularity_iff (fs : FileSystem) (basePath : String) (config : Json) (file : SourceFile)
    (hfile : Path.isAbsolute file.name = true)
    (hbase : Path.parent? file.name = none → Path.isAbsolute basePath = true) :
    Acc (fun next run => Step fs basePath run next) (.start config file) ∧
    (∃ last, Reaches fs basePath (.start config file) last ∧ (∀ next, ¬ Step fs basePath last next) ∧
      last = ⟨[⟨file, .expanded (expand fs config file basePath).options⟩], [Path.normalize file.name],
        (expand fs config file basePath).errors, (expand fs config file basePath).files⟩ ∧
      ∀ run, Reaches fs basePath (.start config file) run → Reaches fs basePath run last) ∧
    ∀ run, Reaches fs basePath (.start config file) run →
      (run.stack.Nodup ∧ (∀ path ∈ run.stack, Path.isAbsolute path = true ∧ Path.normalize path = path) ∧
        run.stack = run.inProgress ∧ run.stack.length ≤ fs.fileCount + 1) ∧
      (∀ inner given below, run.calls = ⟨inner, .entered given⟩ :: below →
        ∃ returned, Reaches fs basePath run returned ∧ returned.stack = run.stack ∧
          ∃ options, returned.calls = ⟨inner, .expanded options⟩ :: below) ∧
      ∀ next, Step fs basePath run next →
        ∃ added, next.errors = run.errors ++ added ∧
          ((∃ error ∈ added, error.code = circularityCode) ↔
            ∃ inner spec, run.AtBase inner spec ∧
              ∃ path ∈ run.inProgress, resolveBase? fs (directory basePath inner) spec = some path) := by
  have hdir : Path.isAbsolute (directory basePath file) = true := by
    unfold directory
    cases hparent : Path.parent? file.name with
    | none => exact hbase hparent
    | some dir => exact Path.isAbsolute_parent hfile hparent
  have hend := reaches_expand fs hdir config
  have hunique : Relator.RightUnique (Step fs basePath) := fun _ _ _ => Step.unique
  refine ⟨acc_of_reaches hunique hend fun _ => not_step_expanded rfl,
    ⟨_, hend, fun _ => not_step_expanded rfl, rfl,
      fun _ => reaches_last hunique hend fun _ => not_step_expanded rfl⟩, fun run hrun => ?_⟩
  have hsound := (Run.Sound.start fs hfile hdir config).reaches hrun
  refine ⟨⟨hsound.nodup, hsound.normal, hsound.stack_eq, hsound.length_stack_le⟩, ?_, ?_⟩
  · intro inner given below hcalls
    have hinner : Path.isAbsolute (directory basePath inner) = true :=
      hsound.directories inner (by rw [hcalls]; exact List.mem_cons_self)
    have hreturn := reaches_expandTo { run with calls := below } hinner
      (length_remaining_lt_bound fs _) given
    have hrun : { run with calls := below }.calling ⟨inner, .entered given⟩ = run := by
      rw [Run.calling, ← hcalls]
    rw [hrun] at hreturn
    exact ⟨_, hreturn, rfl, _, rfl⟩
  · intro next hstep
    rw [← hsound.stack_eq]
    exact hstep.errors

def extendingOne (spec : String) : Json := .object [("extends", .string spec)]

def crossed : FileSystem where
  root := .dir [("w", .dir [
    ("a.json", .file (some (extendingOne "./b").compact)),
    ("b.json", .file (some (extendingOne "./a").compact))])]
  cwd := "/"

/-- The second of two that extend each other finds the first under expansion. -/
theorem calls_end_circularity_iff_crossed :
    Path.isAbsolute "/w/a.json" = true ∧
      (Path.parent? "/w/a.json" = none → Path.isAbsolute "/w" = true) ∧
      ∃ last, Reaches crossed "/w" (.start (extendingOne "./b") ⟨"/w/a.json", ""⟩) last ∧
        last.files = ["/w/a.json", "/w/b.json"] ∧ last.errors.map (·.code) = [circularityCode] := by
  have habsolute : Path.isAbsolute "/w/a.json" = true := by decide
  have hbase : Path.parent? "/w/a.json" = none → Path.isAbsolute "/w" = true := fun _ => by decide
  obtain ⟨-, ⟨last, hreaches, -, rfl, -⟩, -⟩ :=
    calls_end_circularity_iff crossed "/w" (extendingOne "./b") ⟨"/w/a.json", ""⟩ habsolute hbase
  exact ⟨habsolute, hbase, _, hreaches, by decide +kernel, by decide +kernel⟩

def shared : FileSystem where
  root := .dir [("w", .dir [
    ("a.json", .file (some (extendingOne "./c").compact)),
    ("b.json", .file (some (extendingOne "./c").compact)),
    ("c.json", .file (some (Json.object []).compact))])]
  cwd := "/"

-- Met on two ways, the third is expanded twice.
example :
    let both := Json.object [("extends", .array [.string "./a", .string "./b"])]
    let expansion := expand shared both ⟨"/w/both.json", ""⟩ "/w"
    expansion.errors.length = 0 ∧
      expansion.files = ["/w/both.json", "/w/a.json", "/w/c.json", "/w/b.json", "/w/c.json"] := by
  decide +kernel

/-- Named as the root directory, a configuration is read in the base path, which may be relative, and so may
be the paths on the stack. -/
theorem calls_stack_relative :
    ¬ ∀ (fs : FileSystem) (basePath : String) (config : Json) (file : SourceFile) (run : Run),
      Path.isAbsolute file.name = true → Reaches fs basePath (.start config file) run →
      ∀ path ∈ run.stack, Path.isAbsolute path = true ∧ Path.normalize path = path := by
  intro habsolute
  have hsome : (findBase crossed (directory "w" ⟨"/", ""⟩) ⟨"/", ""⟩ ["/"] "./a").toOption.isSome = true := by
    decide +kernel
  have hpath : resolveBase? crossed (directory "w" ⟨"/", ""⟩) "./a" = some "w/a.json" := by decide +kernel
  have hstart : Path.normalize "/" = "/" := by decide +kernel
  cases hfound : findBase crossed (directory "w" ⟨"/", ""⟩) ⟨"/", ""⟩ ["/"] "./a" with
  | error =>
    rw [hfound] at hsome
    cases hsome
  | ok base =>
    have hbase : base.path = "w/a.json" := by
      have hresolve := (findBase_read hfound).1
      rw [hpath, Option.some.injEq] at hresolve
      exact hresolve.symm
    have hobject : Step crossed "w" (.start (extendingOne "./a") ⟨"/", ""⟩)
        ⟨[⟨⟨"/", ""⟩, .inheriting [("extends", .string "./a")] ["./a"] .empty⟩], ["/"], [], ["/"]⟩ := by
      rw [Run.start, hstart]
      exact .object rfl .text
    have hrelative := habsolute crossed "w" (extendingOne "./a") ⟨"/", ""⟩ _ (by decide)
      (.tail (.single hobject) (.enter hfound)) base.path (by simp)
    rw [hbase] at hrelative
    exact absurd hrelative.1 (by decide)

end TsBuild.Config
