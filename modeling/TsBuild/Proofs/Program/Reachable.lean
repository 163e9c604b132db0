import Mathlib.Data.List.Perm.Subperm
import TsBuild.Proofs.FileTree.Files
import TsBuild.Proofs.Program.Directives
import TsBuild.Proofs.Program.Names
import TsBuild.Proofs.Program.Roots

/-!
# The files of a program

Loading from absolute roots comes to an end with no request left (`reaches_load_nil`), since it loads no
file twice. A program then holds the readable files that are reachable from its roots and the entries of
declaration packages, and no others (`files_iff_reachable`).
-/

namespace TsBuild.Program

-- ---------------------------------------------------------------------------
-- Reachable files
-- ---------------------------------------------------------------------------

/-- A file leads to the files it imports and to those it references. A reference to types leads to the
entry of the first type root that has one. -/
inductive LeadsTo (fs : FileSystem) (analyse : SourceFile → Facts) (typeRoots : List String)
    (source : SourceFile) : String → Prop
  | import_ (hmem : import_ ∈ (analyse source).imports) (hrelative : isRelative import_.specifier = true)
      (h : resolveRelative? fs (importerDir source.name) import_.specifier = some (.source target)) :
      LeadsTo fs analyse typeRoots source target
  | path (hrefers : Reference.Refers source.text (.path path))
      (htarget : target = Path.normalize (Path.join (importerDir source.name) path))
      (h : fs.isFile target = true) : LeadsTo fs analyse typeRoots source target
  | types (hrefers : Reference.Refers source.text (.types package)) (hroots : typeRoots = before ++ root :: after)
      (hbefore : ∀ other ∈ before, entryFile? fs (Path.join other package) = none)
      (h : entryFile? fs (Path.join root package) = some target) :
      LeadsTo fs analyse typeRoots source target

/-- Files are reached from those to begin with by way of files that can be read. -/
inductive Reachable (fs : FileSystem) (analyse : SourceFile → Facts) (typeRoots starts : List String) :
    String → Prop
  | start (hmem : name ∈ starts) : Reachable fs analyse typeRoots starts name
  | step (h : Reachable fs analyse typeRoots starts source.name)
      (hread : readSource? fs source.name = some source) (hleads : LeadsTo fs analyse typeRoots source target) :
      Reachable fs analyse typeRoots starts target

variable {fs : FileSystem} {analyse : SourceFile → Facts} {typeRoots : List String} {source : SourceFile}
  {target : String}

theorem leadsTo_iff :
    LeadsTo fs analyse typeRoots source target ↔ target ∈ targets fs typeRoots ⟨source, analyse source⟩ := by
  rw [targets, List.mem_append, List.mem_filterMap, List.mem_filterMap]
  constructor
  · rintro (⟨hmem, hrelative, h⟩ | ⟨hrefers, htarget, h⟩ | ⟨hrefers, hroots, hbefore, h⟩)
    · refine .inr ⟨_, hmem, ?_⟩
      rw [importTarget?, resolveImport?, if_pos hrelative, h]
    · refine .inl ⟨_, Reference.mem_ofText_iff.mpr hrefers, ?_⟩
      rw [referenceTarget?, if_pos (htarget ▸ h), htarget]
    · refine .inl ⟨_, Reference.mem_ofText_iff.mpr hrefers, ?_⟩
      exact List.findSome?_eq_some_iff.mpr ⟨_, _, _, hroots, h, hbefore⟩
  · rintro (⟨path | package, hmem, h⟩ | ⟨import_, hmem, h⟩)
    · simp only [referenceTarget?, Option.ite_none_right_eq_some, Option.some.injEq] at h
      obtain ⟨hfile, rfl⟩ := h
      exact .path (Reference.mem_ofText_iff.mp hmem) rfl hfile
    · obtain ⟨before, root, after, hroots, h, hbefore⟩ := List.findSome?_eq_some_iff.mp h
      exact .types (Reference.mem_ofText_iff.mp hmem) hroots hbefore h
    · unfold importTarget? resolveImport? at h
      split at h
      · rename_i hresolve
        cases h
        split at hresolve
        · rename_i hrelative
          exact .import_ hmem hrelative hresolve
        · cases hresolve
      · cases h

-- ---------------------------------------------------------------------------
-- The end of loading
-- ---------------------------------------------------------------------------

def IsPlace (name : String) : Prop := Path.isAbsolute name = true ∧ Path.normalize name = name

theorem spreads_isPlace (htypes : ∀ root ∈ typeRoots, Path.isAbsolute root = true) :
    Spreads fs analyse typeRoots IsPlace := by
  intro source _ hsource target htarget
  obtain ⟨hnormal, habsolute⟩ := normal_of_mem_targets htarget
  exact ⟨habsolute hsource.1 htypes, hnormal⟩

theorem length_le_fileCount {names : List String} (hnodup : names.Nodup)
    (h : ∀ name ∈ names, IsPlace name ∧ readable fs name = true) : names.length ≤ fs.fileCount := by
  rw [← FileSystem.length_fileNames]
  refine (List.subperm_of_subset hnodup fun name hmem => ?_).length_le
  obtain ⟨⟨habsolute, hnormal⟩, hread⟩ := h name hmem
  obtain ⟨source, hsource⟩ := readable_iff.mp hread
  obtain ⟨text, htext⟩ := readText_of_readSource hsource
  exact FileSystem.mem_fileNames habsolute hnormal (FileSystem.resolve_of_readText htext)

/-- Loading has room for all files that are reached from absolute paths. -/
theorem reaches_load_nil (analyse : SourceFile → Facts) {requests : List Request}
    (hrequests : ∀ request ∈ requests, IsPlace request.name)
    (htypes : ∀ root ∈ typeRoots, Path.isAbsolute root = true) :
    ∃ last, Reaches fs analyse typeRoots (.start requests) ⟨[], last⟩ ∧
      load fs analyse typeRoots requests = ⟨last.files.reverse, last.missing.reverse⟩ := by
  obtain ⟨rest, last, hreaches, hload, hend⟩ := reaches_load fs analyse typeRoots requests
  have hsound := sound_of_reaches hreaches
  obtain ⟨hrest, hnames⟩ := all_of_reaches hreaches hrequests (spreads_isPlace htypes)
  rcases hend with rfl | ⟨hfull, request, hmem, hnew, hread⟩
  · exact ⟨last, hreaches, hload⟩
  · -- The request that is left is a file more than the tree has.
    exfalso
    have hnotMem : request.name ∉ last.names := fun hloaded => by
      rw [has_iff.mpr hloaded] at hnew
      cases hnew
    have hcount : (request.name :: last.names).length ≤ fs.fileCount := by
      refine length_le_fileCount (List.nodup_cons.mpr ⟨hnotMem, hsound.nodup⟩) ?_
      exact List.forall_mem_cons.mpr ⟨⟨hrest request hmem, hread⟩,
        fun name hname => ⟨hnames name hname, hsound.readable hname⟩⟩
    have hbound : fs.fileCount ≤ loadBound fs requests :=
      Nat.le_trans (Nat.le_mul_of_pos_right _ (by decide)) (Nat.le_add_left _ _)
    rw [List.length_cons, hfull] at hcount
    omega

theorem isPlace_of_mem_startRequests {roots : List String} (hroots : ∀ root ∈ roots, Path.isAbsolute root = true)
    (hmem : request ∈ startRequests fs roots options) : IsPlace request.name := by
  have hnormal := isAbsolute_of_mem_rootNames hroots
  rcases List.mem_append.mp hmem with hmem | hmem
  · obtain ⟨root, hroot, rfl⟩ := List.mem_map.mp hmem
    obtain ⟨name, -, rfl⟩ := List.mem_map.mp hroot
    exact ⟨hnormal _ hroot, Path.normalize_normalize name⟩
  · obtain ⟨entry, hentry, rfl⟩ := List.mem_map.mp hmem
    obtain ⟨hnormalized, habsolute⟩ := normal_of_mem_typeEntries hentry
    exact ⟨habsolute fun root hroot => isAbsolute_of_mem_typeRoots hnormal hroot, hnormalized⟩

-- ---------------------------------------------------------------------------
-- Programs
-- ---------------------------------------------------------------------------

theorem map_name_startRequests (fs : FileSystem) (roots : List String) (options : OptionSet) :
    (startRequests fs roots options).map (·.name) =
      roots.map Path.normalize ++
        typeEntries fs (Program.typeRoots fs (roots.map Path.normalize)) (options.value? .types) := by
  simp [startRequests, Function.comp_def]

theorem unreadableRoots_startRequests (fs : FileSystem) (roots : List String) (options : OptionSet) :
    (Worklist.start (startRequests fs roots options)).unreadableRoots fs =
      (roots.map Path.normalize).filter (!readable fs ·) := by
  simp [Worklist.start, Worklist.unreadableRoots, startRequests, Loading.empty, List.filter_map,
    Function.comp_def]

theorem missing_eq {requests : List Request}
    (hreaches : Reaches fs analyse typeRoots (.start requests) ⟨[], last⟩) :
    last.missing.reverse = (Worklist.start requests).unreadableRoots fs := by
  rw [← unreadableRoots_reaches .empty hreaches]
  simp [Worklist.unreadableRoots]

theorem mem_names_iff {requests : List Request}
    (hreaches : Reaches fs analyse typeRoots (.start requests) ⟨[], last⟩) :
    name ∈ last.names ↔
      readable fs name = true ∧ Reachable fs analyse typeRoots (requests.map (·.name)) name := by
  have hsound : last.Sound fs analyse := sound_of_reaches hreaches
  constructor
  · intro hmem
    have hspreads : Spreads fs analyse typeRoots
        (Reachable fs analyse typeRoots (requests.map (·.name))) :=
      fun source hread h target htarget => .step h hread (leadsTo_iff.mpr htarget)
    have hall := all_of_reaches hreaches (fun _ hmem => .start (List.mem_map_of_mem hmem)) hspreads
    exact ⟨hsound.readable hmem, hall.names name hmem⟩
  · rintro ⟨hread, h⟩
    have hcomplete := complete_of_reaches hreaches
    have horder : last.names = Worklist.order fs ⟨[], last⟩ := (order_of_nil hsound).symm
    rw [horder]
    induction h with
    | start hmem =>
      refine (prefix_order_of_reaches hreaches).subset (List.mem_eraseDups.mpr ?_)
      exact List.mem_filter.mpr ⟨hmem, hread⟩
    | @step source target _ hsource hleads ih =>
      have hloaded := ih (readable_iff.mpr ⟨source, hsource⟩)
      obtain ⟨file, hfile, hname⟩ := mem_names.mp (horder ▸ hloaded)
      have hsame : file = ⟨source, analyse source⟩ := by
        have hfileRead := hsound.read file hfile
        rw [hname, hsource, Option.some.injEq] at hfileRead
        rw [hfileRead, ← hsound.facts file hfile]
      exact hcomplete file hfile target (hsame ▸ leadsTo_iff.mp hleads) hread

/-- The program of absolute roots. Loading comes to an end. The files of the program have distinct places as
names, and the texts that are read there; they are the readable files that are reached from the roots and
the entries of declaration packages. The roots that can be read come first, each where it occurs first; for
each occurrence of one that cannot be read there is a diagnostic of the program, and for no other file. -/
theorem files_iff_reachable (fs : FileSystem) (analyse : SourceFile → Facts) (roots : List String)
    (options : OptionSet) (hroots : ∀ root ∈ roots, Path.isAbsolute root = true) :
    let program := buildWith fs analyse roots options
    let rootNames := roots.map Path.normalize
    let typeRoots := Program.typeRoots fs rootNames
    let entries := typeEntries fs typeRoots (options.value? .types)
    let start := Worklist.start (startRequests fs roots options)
    (Acc (fun next work => Step fs analyse typeRoots work next) start ∧
      ∃ last, Reaches fs analyse typeRoots start ⟨[], last⟩ ∧
        program.files.map (·.source) = last.files.reverse.map (·.source) ∧
        program.globals = last.missing.reverse.map missingRoot ∧
        ∀ work, Reaches fs analyse typeRoots start work → Reaches fs analyse typeRoots work ⟨[], last⟩) ∧
    program.fileNames.Nodup ∧
    (∀ file ∈ program.files, IsPlace file.source.name ∧ readSource? fs file.source.name = some file.source) ∧
    (∀ name, name ∈ program.fileNames ↔
      readable fs name = true ∧ Reachable fs analyse typeRoots (rootNames ++ entries) name) ∧
    (rootNames.filter (readable fs)).eraseDups <+: program.fileNames ∧
    program.globals = (rootNames.filter (!readable fs ·)).map missingRoot := by
  intro program rootNames typeRoots entries start
  have hrootNames : ∀ root ∈ rootNames, Path.isAbsolute root = true := by
    simpa [rootNames, Path.isAbsolute_normalize] using hroots
  have htypes : ∀ root ∈ typeRoots, Path.isAbsolute root = true :=
    fun root => isAbsolute_of_mem_typeRoots hrootNames
  have hrequests : ∀ request ∈ startRequests fs roots options, IsPlace request.name :=
    fun request => isPlace_of_mem_startRequests hroots
  obtain ⟨last, hreaches, hload⟩ := reaches_load_nil analyse hrequests htypes
  have hsound : last.Sound fs analyse := sound_of_reaches hreaches
  have hplaces := all_of_reaches hreaches hrequests (spreads_isPlace htypes)
  have hsources : program.files.map (·.source) = last.files.reverse.map (·.source) := by
    rw [map_source_buildWith, hload]
  have hnames : program.fileNames = last.names := by
    rw [fileNames_eq, hsources, List.map_map]
    rfl
  have hglobals : program.globals = last.missing.reverse.map missingRoot :=
    congrArg (·.missing.map missingRoot) hload
  have hunique : Relator.RightUnique (Step fs analyse typeRoots) := fun _ _ _ => Step.unique
  refine ⟨⟨acc_of_reaches hunique hreaches fun _ => not_step_nil, last, hreaches, hsources, hglobals,
    fun _ => reaches_last hunique hreaches fun _ => not_step_nil⟩, hnames ▸ hsound.nodup, ?_, fun name => ?_,
    prefix_fileNames fs analyse roots options, ?_⟩
  · intro file hfile
    have hmem : file.source ∈ last.files.reverse.map (·.source) := hsources ▸ List.mem_map_of_mem hfile
    obtain ⟨loaded, hloaded, hsame⟩ := List.mem_map.mp hmem
    rw [List.mem_reverse] at hloaded
    rw [← hsame]
    exact ⟨hplaces.names _ (mem_names.mpr ⟨loaded, hloaded, rfl⟩), hsound.read loaded hloaded⟩
  · rw [hnames, mem_names_iff hreaches, map_name_startRequests]
  · rw [hglobals, missing_eq hreaches, unreadableRoots_startRequests]

def circle : FileSystem where
  root := .dir [("w", .dir [
    ("a.ts", .file (some "import './b';\n")),
    ("b.ts", .file (some "// b\r\n  /// <reference types=\"x\" path='c.ts' />\r\n")),
    ("c.ts", .file (some "/// <reference path=\"a.ts\" />\n/// <reference types='t' />")),
    ("d.ts", .file (some "")),
    ("node_modules", .dir [("@types", .dir [
      ("t", .dir [("index.d.ts", .file (some "// <reference path=\"/w/d.ts\" />\n"))]),
      ("x", .dir [("index.d.ts", .file (some ""))])])])])]
  cwd := "/"

set_option maxRecDepth 100000 in
/-- One file is loaded for an import and two for directives; what stands in a comment of two slashes is none, and
types beside a path are not referred to. -/
theorem files_iff_reachable_circle :
    let roots := ["/w/a.ts", "/w/z.ts"]
    let options := OptionSet.baseline.set .types []
    let program := buildWith circle Facts.of roots options
    let typeRoots := ["/w/node_modules/@types"]
    (∀ root ∈ roots, Path.isAbsolute root = true) ∧
      program.fileNames = ["/w/a.ts", "/w/b.ts", "/w/c.ts", "/w/node_modules/@types/t/index.d.ts"] ∧
      (program.files.flatMap fun file => (Facts.of file.source).imports.map (·.specifier)) = ["./b"] ∧
      program.globals = [missingRoot "/w/z.ts"] ∧
      Reachable circle Facts.of typeRoots roots "/w/c.ts" ∧
      Reachable circle Facts.of typeRoots roots "/w/node_modules/@types/t/index.d.ts" ∧
      ¬ Reachable circle Facts.of typeRoots roots "/w/node_modules/@types/x/index.d.ts" ∧
      ¬ Reachable circle Facts.of typeRoots roots "/w/d.ts" := by
  intro roots options program typeRoots
  have hroots : ∀ root ∈ roots, Path.isAbsolute root = true := by decide
  have hnames : (buildWith circle Facts.of roots options).fileNames =
      ["/w/a.ts", "/w/b.ts", "/w/c.ts", "/w/node_modules/@types/t/index.d.ts"] := by decide +kernel
  obtain ⟨-, -, -, hreachable, -, hglobals⟩ := files_iff_reachable circle Facts.of roots options hroots
  have htypes : Program.typeRoots circle (roots.map Path.normalize) = typeRoots := by decide +kernel
  have hentries : typeEntries circle typeRoots (options.value? .types) = [] := by decide +kernel
  have hstarts : roots.map Path.normalize = roots := by decide +kernel
  have hunreadable : roots.filter (!readable circle ·) = ["/w/z.ts"] := by decide +kernel
  rw [htypes, hstarts, hentries, List.append_nil, hnames] at hreachable
  rw [hstarts, hunreadable] at hglobals
  refine ⟨hroots, hnames, by decide +kernel, hglobals, ((hreachable _).mp (by decide)).2,
    ((hreachable _).mp (by decide)).2, fun h => ?_, fun h => ?_⟩
  all_goals exact absurd ((hreachable _).mpr ⟨by decide +kernel, h⟩) (by decide)

end TsBuild.Program
