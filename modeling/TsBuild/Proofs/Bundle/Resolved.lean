import TsBuild.Proofs.Bundle.Emission
import TsBuild.Proofs.Bundle.Resolvers

/-!
# What is resolved can be transformed

An import is resolved to a file whose name is a last piece with the extension of a script
(`exists_candidate`). So the file is a script, its transform does not leave it alone and its own imports are
resolved next to it, unless the piece is empty: `.ts` and `.tsx` are names without extension
(`resolved_isTreated`, `resolved_notTreated`).
-/

namespace TsBuild.Path

variable {path extension : String} {piece : List Char}

theorem isScript_of_fileName (hmem : extension ∈ scriptExtensions)
    (h : fileName? path = some (piece ++ extension.toList)) : isScript path = true ↔ piece ≠ [] := by
  simp only [scriptExtensions, List.mem_cons, List.not_mem_nil, or_false] at hmem
  cases piece with
  | nil => rcases hmem with rfl | rfl <;> simp [isScript, extensionOf?, h, guard, failure]
  | cons c cs => rcases hmem with rfl | rfl <;> simp [isScript, extensionOf?, h, guard, scriptExtensions]

theorem isScript_of_bare (hmem : extension ∈ scriptExtensions) (h : fileName? path = some extension.toList) :
    isScript path = false := by
  have hpiece : isScript path = true ↔ ([] : List Char) ≠ [] := isScript_of_fileName hmem h
  simpa using hpiece

end TsBuild.Path

namespace TsBuild.Bundle

open TsBuild.Path (scriptExtensions fileName? isScript)

variable {fs : FileSystem} {cwd specifier path dir base : String} {importer : Option String}

-- ---------------------------------------------------------------------------
-- Candidates
-- ---------------------------------------------------------------------------

theorem probe_eq_some (h : probe? fs dir base = some path) :
    fs.isFile path = true ∧ ∃ extension ∈ scriptExtensions, path = Path.absolutize (base ++ extension) dir := by
  have hmem := List.mem_of_find?_eq_some h
  simp only [List.mem_map] at hmem
  obtain ⟨extension, hextension, rfl⟩ := hmem
  exact ⟨List.find?_some h, extension, hextension, rfl⟩

theorem exists_candidate (hcwd : Path.isAbsolute cwd = true)
    (h : resolveImport? fs cwd specifier importer = some path) :
    fs.isFile path = true ∧ ∃ dir, Path.isAbsolute dir = true ∧ ∃ base ∈ [specifier, indexOf specifier],
      ∃ extension ∈ scriptExtensions, path = Path.absolutize (base ++ extension) dir := by
  simp only [resolveImport?, Option.bind_eq_bind, Option.bind_eq_some_iff] at h
  obtain ⟨importer, -, -, -, h⟩ := h
  have hdir : Path.isAbsolute ((Path.parent? (Path.absolutize importer cwd)).getD cwd) = true := by
    cases hparent : Path.parent? (Path.absolutize importer cwd) with
    | none => exact hcwd
    | some dir => exact Path.isAbsolute_parent_absolutize hcwd hparent
  rw [Option.orElse_eq_orElse, Option.orElse_eq_or, Option.or_eq_some_iff] at h
  obtain hnext | ⟨-, hindexed⟩ := h
  · obtain ⟨hfile, extension, hextension, hpath⟩ := probe_eq_some hnext
    exact ⟨hfile, _, hdir, specifier, by simp, extension, hextension, hpath⟩
  · obtain ⟨hfile, extension, hextension, hpath⟩ := probe_eq_some hindexed
    exact ⟨hfile, _, hdir, indexOf specifier, by simp, extension, hextension, hpath⟩

theorem fileName_candidate {extension : String} (hmem : extension ∈ scriptExtensions) (base dir : String) :
    fileName? (Path.absolutize (base ++ extension) dir) =
      some (Text.lastPiece '/' base.toList ++ extension.toList) := by
  have hending := isEnding_of_mem_script extension hmem
  obtain ⟨-, -, -, hslash⟩ := Text.exists_lastPiece '/' base.toList
  have hpiece : Text.lastPiece '/' (base ++ extension).toList =
      Text.lastPiece '/' base.toList ++ extension.toList := by
    rw [String.toList_append, Text.lastPiece_append hending.1]
  rw [Path.fileName_absolutize, hpiece]
  rw [hpiece]
  exact hending.isName hslash

theorem lastPiece_indexOf (dir : String) : Text.lastPiece '/' (indexOf dir).toList ≠ [] := by
  have hindex (before : List Char) : Text.lastPiece '/' (before ++ "index".toList) ≠ [] := by
    rw [Text.lastPiece_append (by decide)]
    exact fun hnil => absurd (List.append_eq_nil_iff.mp hnil).2 (by decide)
  rw [indexOf, Path.toList_join dir (by decide)]
  split
  · exact hindex _
  · rw [← List.singleton_append, ← List.append_assoc]
    exact hindex _

-- ---------------------------------------------------------------------------
-- Scripts
-- ---------------------------------------------------------------------------

/-- A file is treated as a script: a transform of it, whatever its text is, comes to something, and an import
in it without extension is looked for next to it. -/
structure IsTreated (path : String) : Prop where
  script : isScript path = true
  transformed {W : Type} (plugin : ScriptPlugin W) (haccess : plugin.access.Lawful) (build : Build W)
    (hrests : plugin.Rests build.world) (code : String) :
    ∃ after outcome, (plugin.transform code path).run build = some (after, outcome) ∧ outcome ≠ .ok none
  resolves : ∃ dir, Path.parent? path = some dir ∧ ∀ fs cwd specifier, Path.extensionOf? specifier = none →
    resolveImport? fs cwd specifier (some path) =
      (probe? fs dir specifier <|> probe? fs dir (indexOf specifier))

/-- A file is left alone: a transform of it comes to nothing, and so does an import in it. -/
structure IsLeft (path : String) : Prop where
  noScript : isScript path = false
  passed {W : Type} (plugin : ScriptPlugin W) (code : String) : plugin.transform code path = .done (.ok none)
  unresolved (fs : FileSystem) (cwd specifier : String) : resolveImport? fs cwd specifier (some path) = none

theorem emitOutcome_ne_none (result : Except TranspileError Transpile.Output) :
    Command.emitOutcome result ≠ .ok none := by
  cases result with
  | error => nofun
  | ok output => cases h : ScriptPlugin.transformed output <;> simp [Command.emitOutcome, h, Except.map]

theorem isTreated_of_isScript (habsolute : Path.isAbsolute path = true) (hnormal : Path.normalize path = path)
    (h : isScript path = true) : IsTreated path where
  script := h
  transformed plugin haccess build hrests code := by
    obtain ⟨after, hrun⟩ := ScriptPlugin.run_transform haccess hrests code path
    refine ⟨after, _, hrun, ?_⟩
    simp [ScriptPlugin.emission, h, emitOutcome_ne_none]
  resolves := by
    obtain ⟨name, hname⟩ := Path.fileName_of_isScript h
    obtain ⟨dir, hdir⟩ := Option.isSome_iff_exists.mp (Path.parent_isSome_of_fileName hname)
    rw [hnormal] at hdir
    refine ⟨dir, hdir, fun fs cwd specifier hextension => ?_⟩
    simp [resolveImport?, hextension, h, Path.absolutize, habsolute, hnormal, hdir, indexOf, guard]

theorem isLeft_of_not_isScript (h : isScript path = false) : IsLeft path where
  noScript := h
  passed plugin code := by
    simp [ScriptPlugin.transform, h]
    rfl
  unresolved fs cwd specifier := by simp [resolveImport?, h, guard, failure]

/-- What is resolved is the normal form of an absolute path of a file. If the last piece of the specifier is not
empty, it is treated as a script. In general it is, exactly if its name is more than an extension; if not, it is
left alone. -/
theorem resolved_isTreated (hcwd : Path.isAbsolute cwd = true)
    (h : resolveImport? fs cwd specifier importer = some path) :
    Path.isAbsolute path = true ∧ Path.normalize path = path ∧ fs.isFile path = true ∧
      (Text.lastPiece '/' specifier.toList ≠ [] → IsTreated path) ∧
      (IsTreated path ↔ ∀ extension ∈ scriptExtensions, fileName? path ≠ some extension.toList) ∧
      ((∃ extension ∈ scriptExtensions, fileName? path = some extension.toList) → IsLeft path) := by
  obtain ⟨hfile, dir, hdir, base, hbase, extension, hextension, rfl⟩ := exists_candidate hcwd h
  have hname := fileName_candidate hextension base dir
  have hscript := Path.isScript_of_fileName hextension hname
  have hnormal : Path.normalize (Path.absolutize (base ++ extension) dir) =
      Path.absolutize (base ++ extension) dir := by
    rw [Path.absolutize_eq, Path.normalize_normalize]
  have habsolute : Path.isAbsolute (Path.absolutize (base ++ extension) dir) = true := by
    rw [Path.absolutize_eq, Path.isAbsolute_normalize]
    exact Path.isAbsolute_join_of_base hdir _
  have htreated : isScript (Path.absolutize (base ++ extension) dir) = true →
      IsTreated (Path.absolutize (base ++ extension) dir) := isTreated_of_isScript habsolute hnormal
  refine ⟨habsolute, hnormal, hfile, fun hpiece => htreated (hscript.mpr ?_), ⟨?_, ?_⟩, ?_⟩
  · simp only [List.mem_cons, List.not_mem_nil, or_false] at hbase
    obtain rfl | rfl := hbase
    · exact hpiece
    · exact lastPiece_indexOf specifier
  · intro hist bare hbare heq
    simpa [hist.script] using Path.isScript_of_bare hbare heq
  · intro hne
    refine htreated (hscript.mpr fun hpiece => hne extension hextension ?_)
    rw [hname, hpiece, List.nil_append]
  · rintro ⟨bare, hbare, heq⟩
    exact isLeft_of_not_isScript (Path.isScript_of_bare hbare heq)

def hidden : FileSystem where
  root := .dir [("w", .dir [("a", .dir [(".ts", .file (some ""))]), ("b", .dir [("index.ts", .file (some ""))])])]
  cwd := "/"

/-- The script in a directory is treated as one. -/
theorem resolved_isTreated_index :
    Path.isAbsolute "/w" = true ∧ resolveImport? hidden "/w" "./b/" (some "main.ts") = some "/w/b/index.ts" ∧
      IsTreated "/w/b/index.ts" := by
  have h : resolveImport? hidden "/w" "./b/" (some "main.ts") = some "/w/b/index.ts" := by decide +kernel
  obtain ⟨-, -, -, -, htreated, -⟩ := resolved_isTreated (by decide) h
  exact ⟨by decide, h, htreated.mpr (by decide +kernel)⟩

/-- A specifier with a slash at its end may mean a file that is left alone. -/
theorem resolved_notTreated :
    ¬ ∀ (fs : FileSystem) (cwd specifier path : String) (importer : Option String),
      Path.isAbsolute cwd = true → resolveImport? fs cwd specifier importer = some path →
      isScript path = true := by
  intro hall
  have hscript := hall hidden "/w" "./a/" "/w/a/.ts" (some "/w/main.ts") (by decide) (by decide +kernel)
  exact absurd hscript (by decide +kernel)

end TsBuild.Bundle
