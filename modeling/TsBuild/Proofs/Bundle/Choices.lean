import TsBuild.Proofs.Bundle.Resolvers
import TsBuild.Proofs.FileTree.Places

/-!
# The choices of an import

An import without extension leaves four paths to choose from, spelled by putting the specifier, with an ending
behind it, into the directory of the importer (`choices`). Adding extensions to a specifier or to the `index` inside it and
normalizing comes to the normal forms of these four (`resolveImport_eq_find`). So the first that is a file is
taken, and nothing else in the tree matters (`resolveImport_firstChoice`).
-/

namespace TsBuild.Bundle

variable {fs : FileSystem} {cwd dir specifier script extension : String} {importer : Option String}

-- ---------------------------------------------------------------------------
-- Spellings
-- ---------------------------------------------------------------------------

/-- A specifier inside a directory, for which an absolute one stands itself. -/
def inside (dir specifier : String) : String :=
  if Path.isAbsolute specifier then specifier else dir ++ "/" ++ specifier

/-- The paths that an import may mean, in the order in which they are tried. -/
def choices (dir specifier : String) : List String :=
  [".ts", ".tsx", "/index.ts", "/index.tsx"].map (inside dir specifier ++ ·)

theorem isAbsolute_inside (hdir : Path.isAbsolute dir = true) (specifier : String) :
    Path.isAbsolute (inside dir specifier) = true := by
  unfold inside
  split
  · assumption
  · exact Path.isAbsolute_append (Path.isAbsolute_append hdir _) _

theorem isAbsolute_of_mem_choices (hdir : Path.isAbsolute dir = true) (h : path ∈ choices dir specifier) :
    Path.isAbsolute path = true := by
  obtain ⟨ending, -, rfl⟩ := List.mem_map.mp h
  exact Path.isAbsolute_append (isAbsolute_inside hdir specifier) ending

theorem absolutize_extension (hdir : Path.isAbsolute dir = true) (hmem : extension ∈ Path.scriptExtensions) :
    Path.absolutize (specifier ++ extension) dir = Path.normalize (inside dir specifier ++ extension) := by
  have hinside := Path.isAbsolute_append (isAbsolute_inside hdir specifier) extension
  rw [Path.absolutize_eq]
  refine Path.normalize_congr ((Path.isAbsolute_join_of_base hdir _).trans hinside.symm) ?_
  cases habsolute : Path.isAbsolute specifier with
  | true =>
    rw [Path.join_of_isAbsolute (Path.isAbsolute_append habsolute extension), inside, if_pos habsolute]
  | false =>
    have hrelative := Path.isAbsolute_append_of_isEnding habsolute (isEnding_of_mem_script extension hmem)
    rw [Path.segments_join dir hrelative, inside, if_neg (by simp [habsolute]), String.append_assoc,
      Path.segments_slash]

theorem absolutize_index (hdir : Path.isAbsolute dir = true) (hmem : extension ∈ Path.scriptExtensions) :
    Path.absolutize (indexOf specifier ++ extension) dir =
      Path.normalize (inside dir specifier ++ "/" ++ ("index" ++ extension)) := by
  have hinside : Path.isAbsolute (inside dir specifier ++ "/" ++ ("index" ++ extension)) = true :=
    Path.isAbsolute_append (Path.isAbsolute_append (isAbsolute_inside hdir specifier) _) _
  obtain ⟨hindex, hname⟩ := indexOf_append (isEnding_of_mem_script extension hmem) specifier
  have hfile := Path.isAbsolute_of_isName hname
  rw [Path.absolutize_eq, hindex]
  refine Path.normalize_congr ((Path.isAbsolute_join_of_base hdir _).trans hinside.symm) ?_
  rw [Path.segments_slash]
  cases habsolute : Path.isAbsolute specifier with
  | true =>
    rw [Path.join_of_isAbsolute ((Path.isAbsolute_join specifier hfile).trans habsolute),
      Path.segments_join specifier hfile, inside, if_pos habsolute]
  | false =>
    rw [Path.segments_join dir ((Path.isAbsolute_join specifier hfile).trans habsolute),
      Path.segments_join specifier hfile, inside, if_neg (by simp [habsolute]), Path.segments_slash,
      List.append_assoc]

-- ---------------------------------------------------------------------------
-- The first file
-- ---------------------------------------------------------------------------

theorem map_normalize_choices (hdir : Path.isAbsolute dir = true) (specifier : String) :
    (choices dir specifier).map Path.normalize =
      Path.scriptExtensions.map (fun extension => Path.absolutize (specifier ++ extension) dir) ++
        Path.scriptExtensions.map (fun extension => Path.absolutize (indexOf specifier ++ extension) dir) := by
  have hindex (extension : String) (hmem : extension ∈ Path.scriptExtensions) :
      Path.absolutize (indexOf specifier ++ extension) dir =
        Path.normalize (inside dir specifier ++ ("/" ++ ("index" ++ extension))) := by
    rw [absolutize_index hdir hmem, String.append_assoc]
  rw [List.map_congr_left fun extension hmem => absolutize_extension hdir hmem, List.map_congr_left hindex]
  rfl

theorem resolveImport_eq_find (hdir : Path.isAbsolute dir = true) (hscript : Path.isScript script = true)
    (hextension : Path.extensionOf? specifier = none)
    (hparent : Path.parent? (Path.absolutize script cwd) = some dir) (fs : FileSystem) :
    resolveImport? fs cwd specifier (some script) =
      ((choices dir specifier).map Path.normalize).find? fs.isFile := by
  rw [map_normalize_choices hdir, List.find?_append]
  simp [resolveImport?, hextension, hscript, hparent, guard, probe?, indexOf]

theorem resolveImport_eq_none (h : ∀ script, importer = some script → Path.isScript script = true →
    Path.extensionOf? specifier ≠ none) (fs : FileSystem) (cwd : String) :
    resolveImport? fs cwd specifier importer = none := by
  cases importer with
  | none => rfl
  | some script =>
    by_cases hscript : Path.isScript script = true
    · obtain ⟨extension, hextension⟩ := Option.ne_none_iff_exists'.mp (h script rfl hscript)
      simp [resolveImport?, hextension, guard, failure]
    · simp [resolveImport?, hscript, guard, failure]

theorem isDir_of_isFile (h : fs.isFile path = true) : fs.isDir path = false := by
  unfold FileSystem.isFile at h
  unfold FileSystem.isDir
  split at h
  · simp [*]
  · cases h

/-- A path that leads somewhere leads to a file exactly if its normal form does. -/
theorem isFile_normalize (habsolute : Path.isAbsolute path = true) (h : fs.exists? path = true) :
    fs.isFile (Path.normalize path) = fs.isFile path := by
  unfold FileSystem.exists? at h
  split at h
  · rename_i node hnode
    rw [FileSystem.isFile, FileSystem.isFile, FileSystem.resolve_normalize habsolute hnode, hnode]
  · cases h

/-- An import without extension in a script means the first of the four places that is a file, and nothing exactly
if none is one, whatever else the tree holds. The places are the normal forms of the choices; a choice that leads
anywhere as it is written leads to its place. Any other import is left alone. -/
theorem resolveImport_firstChoice (hcwd : Path.isAbsolute cwd = true) (specifier : String)
    (importer : Option String) :
    (∀ script, importer = some script → Path.isScript script = true → Path.extensionOf? specifier = none →
      ∃ dir, Path.parent? (Path.absolutize script cwd) = some dir ∧ ∀ fs : FileSystem,
        let places := (choices dir specifier).map Path.normalize
        let found := resolveImport? fs cwd specifier importer
        found = places.find? fs.isFile ∧
        (∀ path, found = some path → fs.isFile path = true ∧ fs.isDir path = false) ∧
        (found = none ↔ ∀ path ∈ places, fs.isFile path = false) ∧
        (∀ other : FileSystem, (∀ path ∈ places, other.isFile path = fs.isFile path) →
          resolveImport? other cwd specifier importer = found) ∧
        ∀ path ∈ choices dir specifier, fs.exists? path = true →
          fs.isFile (Path.normalize path) = fs.isFile path) ∧
    ((∀ script, importer = some script → Path.isScript script = true → Path.extensionOf? specifier ≠ none) →
      ∀ fs, resolveImport? fs cwd specifier importer = none) := by
  refine ⟨?_, fun h fs => resolveImport_eq_none h fs cwd⟩
  rintro script rfl hscript hextension
  obtain ⟨name, hname⟩ := Path.fileName_of_isScript hscript
  obtain ⟨dir, hparent⟩ := Path.exists_parent_of_fileName hname cwd
  have hdir := Path.isAbsolute_parent_absolutize hcwd hparent
  refine ⟨dir, hparent, ?_⟩
  intro fs places found
  have hfound : ∀ fs : FileSystem, resolveImport? fs cwd specifier (some script) = places.find? fs.isFile :=
    resolveImport_eq_find hdir hscript hextension hparent
  refine ⟨hfound fs, ?_, ?_, ?_, ?_⟩
  · intro path hpath
    have hfile : fs.isFile path = true := List.find?_some ((hfound fs).symm.trans hpath)
    exact ⟨hfile, isDir_of_isFile hfile⟩
  · simp only [found, hfound, List.find?_eq_none, Bool.not_eq_true]
  · intro other hagree
    simp only [found, hfound]
    rw [← List.head?_filter, ← List.head?_filter, List.filter_congr hagree]
  · intro path hmem hexists
    exact isFile_normalize (isAbsolute_of_mem_choices hdir hmem) hexists

def inTheWay : FileSystem where
  root := .dir [("w", .dir [("src", .dir [("main.ts", .file (some ""))]), ("b.ts", .dir []),
    ("b.tsx", .file (some "")), ("b", .dir [("index.ts", .file (some ""))])])]
  cwd := "/"

/-- The directory is passed over. -/
theorem resolveImport_firstChoice_inTheWay :
    Path.isAbsolute "/w" = true ∧ Path.isScript "src/main.ts" = true ∧ Path.extensionOf? ".././/b" = none ∧
      resolveImport? inTheWay "/w" ".././/b" (some "src/main.ts") = some "/w/b.tsx" ∧
      resolveImport? inTheWay "/w" ".././/b" (some "src/main.js") = none := by
  have hcwd : Path.isAbsolute "/w" = true := by decide
  have hscript : Path.isScript "src/main.ts" = true := by decide +kernel
  have hextension : Path.extensionOf? ".././/b" = none := by decide +kernel
  obtain ⟨hscripts, -⟩ := resolveImport_firstChoice hcwd ".././/b" (some "src/main.ts")
  obtain ⟨dir, hparent, hchoice⟩ := hscripts _ rfl hscript hextension
  have hdir : Path.parent? (Path.absolutize "src/main.ts" "/w") = some "/w/src" := by decide +kernel
  obtain rfl : "/w/src" = dir := Option.some.inj (hdir.symm.trans hparent)
  obtain ⟨hfound, -⟩ := hchoice inTheWay
  obtain ⟨-, hothers⟩ := resolveImport_firstChoice hcwd ".././/b" (some "src/main.js")
  have hother : ∀ script, some "src/main.js" = some script → Path.isScript script = true →
      Path.extensionOf? ".././/b" ≠ none := by
    intro script hsome hscript
    obtain rfl := Option.some.inj hsome
    exact absurd hscript (by decide +kernel)
  exact ⟨hcwd, hscript, hextension, hfound.trans (by decide +kernel), hothers hother inTheWay⟩

end TsBuild.Bundle
