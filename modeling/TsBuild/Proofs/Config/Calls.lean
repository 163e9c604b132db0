import Mathlib.Logic.Relation
import TsBuild.Proofs.Config.Expands

/-!
# Expansion call by call

An expansion with its calls in the open: one for each file under expansion, and one stack of paths that all
of them share. A path is pushed when a base is entered and popped when its call has returned (`Step`). Steps
are determined (`Step.unique`). A call comes to what `expandTo` makes of its configuration and leaves the
stack as it found it (`reaches_expandTo`).
-/

namespace TsBuild.Config

-- ---------------------------------------------------------------------------
-- Runs
-- ---------------------------------------------------------------------------

inductive Progress
  | entered (config : Json)
  /-- The bases that remain, and the options inherited from those before them. -/
  | inheriting (members : List (String × Json)) (rest : List String) (inherited : OptionSet)
  | expanded (options : OptionSet)

structure Call where
  file : SourceFile
  progress : Progress

/-- The calls that have not returned, innermost first, and what they share: the stack of paths, innermost
last, and the errors and the files met so far. -/
structure Run where
  calls : List Call
  stack : List String
  errors : List Diagnostic
  files : List String

namespace Run

def start (config : Json) (file : SourceFile) : Run :=
  ⟨[⟨file, .entered config⟩], [Path.normalize file.name], [], [Path.normalize file.name]⟩

def calling (run : Run) (call : Call) : Run := { run with calls := call :: run.calls }

def reporting (run : Run) (expansion : Expansion) : Run :=
  { run with errors := run.errors ++ expansion.errors, files := run.files ++ expansion.files }

def inProgress (run : Run) : List String :=
  (run.calls.map fun call => Path.normalize call.file.name).reverse

def AtBase (run : Run) (file : SourceFile) (spec : String) : Prop :=
  ∃ members rest inherited below, run.calls = ⟨file, .inheriting members (spec :: rest) inherited⟩ :: below

end Run

/-- A step of the innermost call. -/
inductive Step (fs : FileSystem) (basePath : String) : Run → Run → Prop
  | notObject (h : config.asObject? = none) :
      Step fs basePath ⟨⟨file, .entered config⟩ :: below, stack, errors, files⟩
        ⟨⟨file, .expanded .empty⟩ :: below, stack, errors ++ [rootError file], files⟩
  | object (h : config.asObject? = some members)
      (hspecs : NamesBases file (members.lookup "extends") specs malformed) :
      Step fs basePath ⟨⟨file, .entered config⟩ :: below, stack, errors, files⟩
        ⟨⟨file, .inheriting members specs .empty⟩ :: below, stack, errors ++ malformed, files⟩
  | skip (h : findBase fs (directory basePath file) file stack spec = .error error) :
      Step fs basePath
        ⟨⟨file, .inheriting members (spec :: rest) inherited⟩ :: below, stack, errors, files⟩
        ⟨⟨file, .inheriting members rest inherited⟩ :: below, stack, errors ++ [error], files⟩
  | enter (h : findBase fs (directory basePath file) file stack spec = .ok base) :
      Step fs basePath
        ⟨⟨file, .inheriting members (spec :: rest) inherited⟩ :: below, stack, errors, files⟩
        ⟨⟨base.file, .entered base.config⟩ :: ⟨file, .inheriting members rest inherited⟩ :: below,
          stack ++ [base.path], errors, files ++ [base.path]⟩
  | leave :
      Step fs basePath
        ⟨⟨base, .expanded options⟩ :: ⟨file, .inheriting members rest inherited⟩ :: below, stack, errors,
          files⟩
        ⟨⟨file, .inheriting members rest (options.layeredOver inherited)⟩ :: below, stack.dropLast, errors,
          files⟩
  | own (h : ownExpansion (members.lookup OptionSet.sectionName) file = own) :
      Step fs basePath ⟨⟨file, .inheriting members [] inherited⟩ :: below, stack, errors, files⟩
        ⟨⟨file, .expanded (own.options.layeredOver inherited)⟩ :: below, stack, errors ++ own.errors, files⟩

abbrev Reaches (fs : FileSystem) (basePath : String) : Run → Run → Prop :=
  Relation.ReflTransGen (Step fs basePath)

variable {fs : FileSystem} {basePath : String} {run next other last : Run} {config : Json}
  {file : SourceFile} {stack specs : List String} {members : List (String × Json)}

theorem Step.unique (h : Step fs basePath run next) (h' : Step fs basePath run other) : next = other := by
  cases h with
  | object hroot hspecs =>
    cases h' with
    | notObject hroot' =>
      rw [hroot] at hroot'
      cases hroot'
    | object hroot' hspecs' =>
      rw [hroot, Option.some.injEq] at hroot'
      subst hroot'
      obtain ⟨rfl, rfl⟩ := hspecs.unique hspecs'
      rfl
  | notObject | skip | enter | leave | own => cases h' <;> simp_all

theorem not_step_expanded (h : run.calls = [⟨file, .expanded options⟩]) : ¬ Step fs basePath run next := by
  intro hstep
  cases hstep <;> simp_all

-- ---------------------------------------------------------------------------
-- What a call comes to
-- ---------------------------------------------------------------------------

theorem layeredOver_empty (options : OptionSet) : OptionSet.empty.layeredOver options = options := rfl

section
variable {expand : Json → SourceFile → List String → Expansion}

/-- The calls for the bases of a file return what `expand` makes of them, with the stack as it was. -/
def Returns (fs : FileSystem) (basePath : String) (expand : Json → SourceFile → List String → Expansion)
    (file : SourceFile) (stack : List String) : Prop :=
  ∀ spec base, findBase fs (directory basePath file) file stack spec = .ok base →
    ∀ inner : Run, inner.stack = stack ++ [base.path] →
      let expansion := expand base.config base.file inner.stack
      Reaches fs basePath (inner.calling ⟨base.file, .entered base.config⟩)
        ((inner.reporting expansion).calling ⟨base.file, .expanded expansion.options⟩)

theorem reaches_base (context : Run) (hreturns : Returns fs basePath expand file context.stack)
    (members : List (String × Json)) (spec : String) (rest : List String) (inherited : Expansion) :
    let further :=
      inherited.then' (expandBase fs expand (directory basePath file) file context.stack spec)
    Reaches fs basePath
      ((context.reporting inherited).calling ⟨file, .inheriting members (spec :: rest) inherited.options⟩)
      ((context.reporting further).calling ⟨file, .inheriting members rest further.options⟩) := by
  rw [expandBase_eq]
  cases hfound : findBase fs (directory basePath file) file context.stack spec with
  | error error =>
    have hskip : Step fs basePath
        ((context.reporting inherited).calling ⟨file, .inheriting members (spec :: rest) inherited.options⟩)
        _ := .skip hfound
    refine .single ?_
    simpa [Run.calling, Run.reporting, Expansion.then', Expansion.failed, Expansion.empty,
      layeredOver_empty] using hskip
  | ok base =>
    let waiting : Call := ⟨file, .inheriting members rest inherited.options⟩
    let inner : Run := ⟨waiting :: context.calls, context.stack ++ [base.path],
      context.errors ++ inherited.errors, context.files ++ inherited.files ++ [base.path]⟩
    have henter : Step fs basePath
        ((context.reporting inherited).calling ⟨file, .inheriting members (spec :: rest) inherited.options⟩)
        (inner.calling ⟨base.file, .entered base.config⟩) := .enter hfound
    have hinner := hreturns spec base hfound inner rfl
    have hleave : Step fs basePath
        ((inner.reporting (expand base.config base.file inner.stack)).calling
          ⟨base.file, .expanded (expand base.config base.file inner.stack).options⟩) _ := .leave
    refine .trans (.head henter hinner) (.single ?_)
    simpa [Run.calling, Run.reporting, Expansion.then', inner] using hleave

theorem reaches_inherited (context : Run) (hreturns : Returns fs basePath expand file context.stack)
    (members : List (String × Json)) (specs : List String) (inherited : Expansion) :
    let result := specs.foldl (fun (inherited : Expansion) spec =>
      inherited.then' (expandBase fs expand (directory basePath file) file context.stack spec)) inherited
    Reaches fs basePath
      ((context.reporting inherited).calling ⟨file, .inheriting members specs inherited.options⟩)
      ((context.reporting result).calling ⟨file, .inheriting members [] result.options⟩) := by
  induction specs generalizing inherited with
  | nil => exact .refl
  | cons spec rest ih => exact .trans (reaches_base context hreturns members spec rest inherited) (ih _)

/-- A call comes to the expansion of its configuration if the calls for its bases return. -/
theorem reaches_expandWith (context : Run) (hreturns : Returns fs basePath expand file context.stack)
    (config : Json) :
    let expansion := expandWith fs expand basePath config file context.stack
    Reaches fs basePath (context.calling ⟨file, .entered config⟩)
      ((context.reporting expansion).calling ⟨file, .expanded expansion.options⟩) := by
  cases hroot : config.asObject? with
  | none =>
    have hexpand : expandWith fs expand basePath config file context.stack = .failed (rootError file) := by
      unfold expandWith
      rw [hroot]
      rfl
    rw [hexpand]
    have hstep : Step fs basePath (context.calling ⟨file, .entered config⟩) _ := .notObject hroot
    refine .single ?_
    simpa [Run.calling, Run.reporting, Expansion.failed, Expansion.empty] using hstep
  | some members =>
    obtain ⟨specs, malformed, hspecs⟩ := exists_namesBases file (members.lookup "extends")
    have hobject : Step fs basePath (context.calling ⟨file, .entered config⟩)
        ((context.reporting { Expansion.empty with errors := malformed }).calling
          ⟨file, .inheriting members specs .empty⟩) := by
      have hstep : Step fs basePath (context.calling ⟨file, .entered config⟩) _ := .object hroot hspecs
      simpa [Run.calling, Run.reporting, Expansion.empty] using hstep
    have hinherited := reaches_inherited context hreturns members specs { Expansion.empty with errors := malformed }
    refine .trans (.head hobject hinherited) (.single ?_)
    rw [expandWith_object hroot hspecs]
    have hfiles : (ownExpansion (members.lookup OptionSet.sectionName) file).files = [] := by
      cases members.lookup OptionSet.sectionName <;> rfl
    have hown : ∀ inherited : Expansion, Step fs basePath
        ((context.reporting inherited).calling ⟨file, .inheriting members [] inherited.options⟩) _ :=
      fun _ => .own rfl
    simpa [Run.calling, Run.reporting, Expansion.then', hfiles] using hown _

end

theorem isAbsolute_directory_of_findBase (hdir : Path.isAbsolute dir = true)
    (h : findBase fs dir file stack spec = .ok base) :
    Path.isAbsolute (directory basePath base.file) = true := by
  obtain ⟨hresolve, -, text, hread, hparse⟩ := findBase_read h
  obtain ⟨habsolute, hnormal⟩ := resolveBase_normal hdir hresolve
  obtain ⟨hempty, hroot⟩ := FileSystem.ne_root_of_readText hread
  obtain ⟨parent, hparent⟩ := Option.isSome_iff_exists.mp (Path.parent_isSome hnormal hempty hroot)
  rw [directory, name_of_parse hparse, hparent]
  exact Path.isAbsolute_parent habsolute hparent

/-- A call with more levels allowed than there are files left returns what `expandTo` makes of its
configuration, with the stack as it was. -/
theorem reaches_expandTo (context : Run) (hdir : Path.isAbsolute (directory basePath file) = true)
    (hdepth : (remaining fs context.stack).length < depth) (config : Json) :
    let expansion := expandTo fs basePath depth config file context.stack
    Reaches fs basePath (context.calling ⟨file, .entered config⟩)
      ((context.reporting expansion).calling ⟨file, .expanded expansion.options⟩) := by
  induction depth generalizing config file context with
  | zero => cases hdepth
  | succ depth ih =>
    refine reaches_expandWith context (fun spec base hfound inner hstack => ?_) config
    obtain ⟨hmem, hnew, -, -⟩ := findBase_ok hdir hfound
    have hless := length_remaining_lt hmem hnew
    refine ih inner (isAbsolute_directory_of_findBase hdir hfound) ?_ base.config
    rw [hstack]
    omega

theorem reaches_expand (fs : FileSystem) (hdir : Path.isAbsolute (directory basePath file) = true)
    (config : Json) :
    let expansion := expand fs config file basePath
    Reaches fs basePath (.start config file)
      ⟨[⟨file, .expanded expansion.options⟩], [Path.normalize file.name], expansion.errors,
        expansion.files⟩ := by
  have hreaches := reaches_expandTo ⟨[], [Path.normalize file.name], [], [Path.normalize file.name]⟩ hdir
    (length_remaining_lt_bound fs _) config
  simpa [Run.calling, Run.reporting, Run.start, expand] using hreaches

end TsBuild.Config
