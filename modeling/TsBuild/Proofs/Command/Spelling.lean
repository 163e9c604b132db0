import Mathlib.Data.List.Basic
import TsBuild.Proofs.Command.Findings
import TsBuild.Proofs.Path.Spelling
import TsBuild.Proofs.Program.Roots

/-!
# A directory named two ways

The directory of a check may be named from the root or from the working directory, and the verdict of the
check may depend on it. One cause is that an input is read inside the directory twice before it is looked up
in the program (`lookupName_eq_iff`): a check in `sub` looks for `sub/sub/a.ts`, finds nothing and is content
(`check_spelling_differs`). The other is that the directories above a file with a relative name end at the
working directory, so that packages installed above it are not found (`verdict_climbing`). Neither concerns
inputs that are named from the root (`verdict_eq_of_isAbsolute`).
-/

namespace TsBuild.Command

open TsBuild.Bundle

variable {context : Context} {inputs : List String} {settings : Settings}

-- ---------------------------------------------------------------------------
-- Verdicts
-- ---------------------------------------------------------------------------

/-- The exit status of a check, how many errors and how many warnings there are; none if it gets stuck. -/
def verdict? (context : Context) (inputs : List String) (settings : Settings) : Option (Nat × Nat × Nat) :=
  (checked? context inputs settings).map fun (log, _) =>
    ((check context inputs settings).status, log.errors.length, log.warnings.length)

theorem status_checkResult (log : Log) (isGood : Bool) :
    (checkResult context inputs log isGood).status = if isGood then 0 else 1 := by
  rw [checkResult]
  split <;> rfl

theorem verdict_eq (context : Context) (inputs : List String) (settings : Settings) :
    verdict? context inputs settings =
      some (if (findings context inputs settings).errors.isEmpty then 0 else 1,
        (findings context inputs settings).errors.length,
        (findings context inputs settings).warnings.length) := by
  rw [verdict?, checked_eq, check_eq, Option.map_some]
  simp only [status_checkResult]

-- ---------------------------------------------------------------------------
-- Inputs that are looked up as the roots that they are
-- ---------------------------------------------------------------------------

/-- An input is looked up by the name that it is read by exactly if it or the directory is named from the
root, or the name of the directory has as many `..` as names. -/
theorem lookupName_eq_iff (context : Context) (input : String) :
    lookupName context input = entryName context input ↔
      Path.isAbsolute input = true ∨ Path.isAbsolute context.cwd = true ∨ Path.IsBalanced context.cwd :=
  Path.absolutize_absolutize_iff input context.cwd

/-- A readable script that is looked up as the root that it is has its diagnostics reported. -/
theorem diagnostics_infix (hmem : input ∈ inputs)
    (hread : context.files.readText (entryName context input) = .ok code)
    (hscript : Path.isScript (entryName context input) = true)
    (hname : lookupName context input = entryName context input) :
    ((checkProgram context inputs settings).file? (entryName context input)).isSome ∧
      Diagnostic.logEntries ((checkProgram context inputs settings).diagnosticsOf (entryName context input))
        <:+: findings context inputs settings := by
  have hnormal : Path.normalize (entryName context input) = entryName context input := by
    rw [entryName, Path.absolutize_eq, Path.normalize_normalize]
  have hfile : ((checkProgram context inputs settings).file? (entryName context input)).isSome := by
    refine Program.file_of_root (List.mem_append_right _ (List.mem_map_of_mem hmem)) _ ?_
    rw [hnormal, Program.readSource?, hread]
    rfl
  refine ⟨hfile, ?_⟩
  have hpre : preEmitFindings context inputs settings (lookupName context input) =
      Diagnostic.logEntries
        ((checkProgram context inputs settings).diagnosticsOf (entryName context input)) := by
    rw [hname, preEmitFindings, if_pos hfile, fileFindings, if_pos hfile]
  have hinput : Diagnostic.logEntries
      ((checkProgram context inputs settings).diagnosticsOf (entryName context input)) <+:
        inputFindings context inputs settings input := by
    simp only [inputFindings, hread, hscript, ↓reduceIte, scriptFindings, hpre, List.append_assoc]
    exact List.prefix_append _ _
  have hfindings : inputFindings context inputs settings input <:+: findings context inputs settings :=
    List.infix_of_mem_flatten (List.mem_map_of_mem hmem)
  exact hinput.isInfix.trans hfindings

set_option maxRecDepth 100000 in
/-- A directory named two ways may come to two verdicts: a wrong literal in `sub/a.ts` is found if `sub`
is named from the root, and only then. -/
theorem check_spelling_differs :
    ¬ ∀ (tree : FileTree) (home d : String) (inputs : List String) (settings : Settings),
      Path.isAbsolute home = true → Path.isAbsolute d = false →
      FileSystem.isDir ⟨tree, home⟩ (Path.join home d) = true →
      verdict? ⟨⟨tree, home⟩, d, false⟩ inputs settings =
        verdict? ⟨⟨tree, home⟩, Path.join home d, false⟩ inputs settings := by
  intro hsame
  have hverdicts := hsame
    (.dir [("w", .dir [("sub", .dir [("a.ts", .file (some "let x: number = 'a';\n"))])])]) "/w" "sub"
    ["a.ts"] .standard (by decide) (by decide) (by decide +kernel)
  revert hverdicts
  decide +kernel

def nested : FileTree :=
  .dir [("node_modules", .dir [("pkg", .dir [])]),
    ("w", .dir [("a.ts", .file (some "import { n } from 'pkg';\n"))]),
    ("wrong.ts", .file (some "let x: number = 'a';\n"))]

set_option maxRecDepth 100000 in
/-- Named from the root a check finds the package, named from the working directory it does not. -/
theorem verdict_climbing :
    Path.IsBalanced "." ∧ verdict? ⟨⟨nested, "/w"⟩, ".", false⟩ ["a.ts"] .standard = some (1, 1, 0) ∧
      verdict? ⟨⟨nested, "/w"⟩, Path.join "/w" ".", false⟩ ["a.ts"] .standard = some (0, 0, 0) := by
  decide +kernel

-- ---------------------------------------------------------------------------
-- Inputs named from the root
-- ---------------------------------------------------------------------------

theorem entryName_of_isAbsolute (h : Path.isAbsolute input = true) (context : Context) :
    entryName context input = Path.normalize input := by
  rw [entryName, Path.absolutize_eq, Path.join_of_isAbsolute h]

theorem lookupName_of_isAbsolute (h : Path.isAbsolute input = true) (context : Context) :
    lookupName context input = Path.normalize input :=
  ((lookupName_eq_iff context input).mpr (.inl h)).trans (entryName_of_isAbsolute h context)

section
variable {near far : Context} (hfiles : near.files = far.files)
  (hinputs : ∀ input ∈ inputs, Path.isAbsolute input = true)
  (hdeclarations : ∀ context ∈ [near, far], Program.declarationFiles context.files context.cwd = [])
  (hoptions : checkOptions near settings = checkOptions far settings)
include hfiles hinputs hdeclarations hoptions

theorem checkProgram_eq_of_isAbsolute :
    checkProgram near inputs settings = checkProgram far inputs settings := by
  have hroots (context : Context) : inputs.map (entryName context) = inputs.map Path.normalize :=
    List.map_congr_left fun input hmem => entryName_of_isAbsolute (hinputs input hmem) context
  rw [checkProgram, checkProgram, hdeclarations near (by simp), hdeclarations far (by simp), hroots near,
    hroots far, hfiles, hoptions]

theorem inputFindings_eq_of_isAbsolute (hmem : input ∈ inputs) :
    inputFindings near inputs settings input = inputFindings far inputs settings input := by
  have habsolute := hinputs input hmem
  have hprogram := checkProgram_eq_of_isAbsolute hfiles hinputs hdeclarations hoptions
  simp only [inputFindings, scriptFindings, preEmitFindings, entryName_of_isAbsolute habsolute,
    lookupName_of_isAbsolute habsolute, hprogram, hfiles, hoptions]

/-- If all inputs are named from the root, and no declaration files are found that are not, then two names of
the directory that give the same options give the same verdict. -/
theorem verdict_eq_of_isAbsolute : verdict? near inputs settings = verdict? far inputs settings := by
  have hfindings : findings near inputs settings = findings far inputs settings :=
    List.flatMap_congr fun input hmem =>
      inputFindings_eq_of_isAbsolute hfiles hinputs hdeclarations hoptions hmem
  rw [verdict_eq, verdict_eq, hfindings]

end

set_option maxRecDepth 100000 in
theorem verdict_eq_of_isAbsolute_nested :
    verdict? ⟨⟨nested, "/w"⟩, ".", false⟩ ["/w/a.ts", "/wrong.ts"] .standard =
        verdict? ⟨⟨nested, "/w"⟩, Path.join "/w" ".", false⟩ ["/w/a.ts", "/wrong.ts"] .standard ∧
      verdict? ⟨⟨nested, "/w"⟩, ".", false⟩ ["/w/a.ts", "/wrong.ts"] .standard = some (1, 1, 0) :=
  ⟨verdict_eq_of_isAbsolute rfl (by decide) (by decide +kernel) rfl, by decide +kernel⟩

end TsBuild.Command
