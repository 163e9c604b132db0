import TsBuild.Proofs.Program.Reachable
import TsBuild.Proofs.Program.TypeRoots
import TsBuild.Proofs.Program.Unresolved

/-!
# The order of the roots

Roots in another order load the same files in another order, and what is wrong in a file stays the same
(`files_perm_of_roots_perm`). The type roots and the entries come in another order as well, so this takes that
no name has an entry in two type roots, for the names a program looks for (`packagesSought`).
-/

namespace TsBuild.Program

variable {fs : FileSystem} {analyse : SourceFile → Facts} {options : OptionSet} {roots others : List String}

-- ---------------------------------------------------------------------------
-- What does not depend on order
-- ---------------------------------------------------------------------------

/-- Of an element that is the only one with a result, each list that has it finds the same. -/
theorem findSome_congr {f : α → Option β} {as bs : List α} (hmem : ∀ a, a ∈ as ↔ a ∈ bs)
    (honly : ∀ a ∈ as, ∀ b ∈ as, (f a).isSome → (f b).isSome → a = b) :
    as.findSome? f = bs.findSome? f := by
  cases hfound : as.findSome? f with
  | none =>
    rw [List.findSome?_eq_none_iff] at hfound
    exact (List.findSome?_eq_none_iff.mpr fun b hb => hfound b ((hmem b).mpr hb)).symm
  | some result =>
    obtain ⟨a, ha, hresult⟩ := List.exists_of_findSome?_eq_some hfound
    cases hother : bs.findSome? f with
    | none =>
      rw [List.findSome?_eq_none_iff.mp hother a ((hmem a).mp ha)] at hresult
      cases hresult
    | some other =>
      obtain ⟨b, hb, hother⟩ := List.exists_of_findSome?_eq_some hother
      have hsame := honly a ha b ((hmem b).mpr hb) (by simp [hresult]) (by simp [hother])
      rw [← hresult, hsame, hother]

theorem isUnresolved_congr {ambient declared : List String} (h : ∀ name, name ∈ ambient ↔ name ∈ declared)
    (checks : Checks) (importer : String) :
    isUnresolved fs checks ambient importer = isUnresolved fs checks declared importer := by
  funext import_
  have hany : (ambient.any fun name => declares name import_.specifier) =
      declared.any fun name => declares name import_.specifier := by
    rw [Bool.eq_iff_iff, List.any_eq_true, List.any_eq_true]
    simp only [h]
  rw [isUnresolved, isUnresolved, standsForNothing, standsForNothing, hany]

theorem mem_typeRoots_perm (h : roots.Perm others) (root : String) :
    root ∈ typeRoots fs (roots.map Path.normalize) ↔ root ∈ typeRoots fs (others.map Path.normalize) := by
  rw [mem_typeRoots, mem_typeRoots]
  simp only [(h.map Path.normalize).mem_iff]

-- ---------------------------------------------------------------------------
-- Packages
-- ---------------------------------------------------------------------------

def Reference.package? : Reference → Option String
  | .path _ => none
  | .types package => some package

def listedPackages? (options : OptionSet) : Option (List String) := options.value? .types

/-- The names under which the program of some roots looks for declaration packages: those in `types`, or else
those of all installed packages, and those its files refer to. -/
def packagesSought (fs : FileSystem) (analyse : SourceFile → Facts) (roots : List String)
    (options : OptionSet) : List String :=
  let typeRoots := typeRoots fs (roots.map Path.normalize)
  (listedPackages? options).getD (typeRoots.flatMap (packageNames fs)) ++
    (buildWith fs analyse roots options).files.flatMap fun file =>
      (Reference.ofText file.source.text).filterMap Reference.package?

/-- No package that the program looks for has an entry in two type roots. -/
def PackagesUnambiguous (fs : FileSystem) (analyse : SourceFile → Facts) (roots : List String)
    (options : OptionSet) : Prop :=
  ∀ name ∈ packagesSought fs analyse roots options,
    IsUnambiguous fs (typeRoots fs (roots.map Path.normalize)) name

instance : Decidable (PackagesUnambiguous fs analyse roots options) :=
  inferInstanceAs (Decidable (∀ name ∈ packagesSought fs analyse roots options, _))

theorem mem_packagesSought_of_root (hroot : root ∈ typeRoots fs (roots.map Path.normalize))
    (hname : name ∈ (listedPackages? options).getD (packageNames fs root)) :
    name ∈ packagesSought fs analyse roots options := by
  refine List.mem_append_left _ ?_
  cases htypes : listedPackages? options with
  | none =>
    rw [htypes] at hname
    exact List.mem_flatMap.mpr ⟨root, hroot, hname⟩
  | some names => rwa [htypes] at hname

section
variable (hperm : roots.Perm others) (hpackages : PackagesUnambiguous fs analyse roots options)
include hperm hpackages

theorem mem_typeEntries_perm (entry : String) :
    entry ∈ typeEntries fs (typeRoots fs (roots.map Path.normalize)) (listedPackages? options) ↔
      entry ∈ typeEntries fs (typeRoots fs (others.map Path.normalize)) (listedPackages? options) := by
  have hfirst : ∀ root ∈ typeRoots fs (roots.map Path.normalize),
      ∀ name ∈ (listedPackages? options).getD (packageNames fs root),
        IsUnambiguous fs (typeRoots fs (roots.map Path.normalize)) name :=
    fun root hroot name hname => hpackages name (mem_packagesSought_of_root hroot hname)
  have hmem : ∀ root, root ∈ typeRoots fs (roots.map Path.normalize) ↔
      root ∈ typeRoots fs (others.map Path.normalize) := mem_typeRoots_perm hperm
  have hsecond : ∀ root ∈ typeRoots fs (others.map Path.normalize),
      ∀ name ∈ (listedPackages? options).getD (packageNames fs root),
        IsUnambiguous fs (typeRoots fs (others.map Path.normalize)) name := by
    simpa only [IsUnambiguous, hmem] using hfirst
  rw [mem_typeEntries hfirst, mem_typeEntries hsecond]
  simp only [hmem]

theorem targets_perm (hfile : file ∈ (buildWith fs analyse roots options).files) :
    targets fs (typeRoots fs (roots.map Path.normalize)) ⟨file.source, analyse file.source⟩ =
      targets fs (typeRoots fs (others.map Path.normalize)) ⟨file.source, analyse file.source⟩ := by
  unfold targets
  congr 1
  refine List.filterMap_congr fun reference hreference => ?_
  cases reference with
  | path path => rfl
  | types package =>
    refine findSome_congr (mem_typeRoots_perm hperm) (hpackages package ?_)
    exact List.mem_append_right _ (List.mem_flatMap.mpr
      ⟨file, hfile, List.mem_filterMap.mpr ⟨_, hreference, rfl⟩⟩)

end

-- ---------------------------------------------------------------------------
-- Files
-- ---------------------------------------------------------------------------

def startNames (fs : FileSystem) (roots : List String) (options : OptionSet) : List String :=
  roots.map Path.normalize ++
    typeEntries fs (typeRoots fs (roots.map Path.normalize)) (listedPackages? options)

abbrev ReachableFrom (fs : FileSystem) (analyse : SourceFile → Facts) (roots : List String)
    (options : OptionSet) (name : String) : Prop :=
  Reachable fs analyse (typeRoots fs (roots.map Path.normalize)) (startNames fs roots options) name

theorem exists_loaded (fs : FileSystem) (analyse : SourceFile → Facts) (options : OptionSet)
    (hroots : ∀ root ∈ roots, Path.isAbsolute root = true) :
    let typeRoots := typeRoots fs (roots.map Path.normalize)
    ∃ last, Reaches fs analyse typeRoots (.start (startRequests fs roots options)) ⟨[], last⟩ ∧
      load fs analyse typeRoots (startRequests fs roots options) =
        ⟨last.files.reverse, last.missing.reverse⟩ := by
  exact reaches_load_nil analyse (fun _ => isPlace_of_mem_startRequests hroots)
    (fun _ => isAbsolute_of_mem_typeRoots (isAbsolute_of_mem_rootNames hroots))

theorem mem_fileNames_iff (hroots : ∀ root ∈ roots, Path.isAbsolute root = true) :
    name ∈ (buildWith fs analyse roots options).fileNames ↔
      readable fs name = true ∧ ReachableFrom fs analyse roots options name := by
  obtain ⟨last, hreaches, hload⟩ := exists_loaded fs analyse options hroots
  have hnames : (buildWith fs analyse roots options).fileNames = last.names := by
    rw [fileNames_eq, map_source_buildWith, hload, List.map_map]
    rfl
  rw [hnames, mem_names_iff hreaches, map_name_startRequests]
  rfl

theorem globals_eq (hroots : ∀ root ∈ roots, Path.isAbsolute root = true) :
    (buildWith fs analyse roots options).globals =
      ((roots.map Path.normalize).filter (!readable fs ·)).map missingRoot := by
  obtain ⟨last, hreaches, hload⟩ := exists_loaded fs analyse options hroots
  have hglobals : (buildWith fs analyse roots options).globals = last.missing.reverse.map missingRoot :=
    congrArg (·.missing.map missingRoot) hload
  rw [hglobals, missing_eq hreaches, unreadableRoots_startRequests]

theorem map_source_eq (fs : FileSystem) (analyse : SourceFile → Facts) (roots : List String)
    (options : OptionSet) :
    (buildWith fs analyse roots options).files.map (·.source) =
      (buildWith fs analyse roots options).fileNames.filterMap (readSource? fs) := by
  have hread := (sound_load fs analyse (typeRoots fs (roots.map Path.normalize))
    (startRequests fs roots options)).2
  rw [fileNames_eq, map_source_buildWith, List.map_map, List.filterMap_map, ← List.filterMap_eq_map]
  exact List.filterMap_congr fun file hfile => (hread file hfile).1.symm

def checkSource (fs : FileSystem) (analyse : SourceFile → Facts) (checks : Checks) (ambient : List String)
    (source : SourceFile) : CheckedFile :=
  ⟨source, (analyse source).syntaxErrors, inTextOrder (produced fs checks ambient ⟨source, analyse source⟩)⟩

theorem files_eq_checkSource (fs : FileSystem) (analyse : SourceFile → Facts) (roots : List String)
    (options : OptionSet) :
    let sources := (buildWith fs analyse roots options).files.map (·.source)
    (buildWith fs analyse roots options).files =
      sources.map (checkSource fs analyse (Checks.ofOptions options)
        (sources.flatMap fun source => (analyse source).ambientModules)) := by
  have hfacts := (sound_load fs analyse (typeRoots fs (roots.map Path.normalize))
    (startRequests fs roots options)).2
  have hfiles := files_buildWith fs analyse roots options
  rw [map_source_buildWith]
  generalize (load fs analyse (typeRoots fs (roots.map Path.normalize))
    (startRequests fs roots options)).files = loaded at hfacts hfiles
  have hambient : loaded.flatMap (·.facts.ambientModules) =
      (loaded.map (·.source)).flatMap fun source => (analyse source).ambientModules := by
    rw [List.flatMap_map]
    exact List.flatMap_congr fun file hfile => by rw [(hfacts file hfile).2]
  intro sources
  rw [hfiles, List.map_map, hambient]
  refine List.map_congr_left fun file hfile => ?_
  rw [Function.comp_apply, checkSource, ← (hfacts file hfile).2]

section
variable (hroots : ∀ root ∈ roots, Path.isAbsolute root = true) (hperm : roots.Perm others)
  (hpackages : PackagesUnambiguous fs analyse roots options)
include hperm hpackages

theorem mem_startNames_perm : name ∈ startNames fs roots options ↔ name ∈ startNames fs others options := by
  rw [startNames, startNames, List.mem_append, List.mem_append, (hperm.map Path.normalize).mem_iff,
    mem_typeEntries_perm hperm hpackages]

include hroots

/-- What is reached leads to the same files whatever the order of the roots. -/
theorem leadsTo_perm (hread : readSource? fs source.name = some source)
    (h : ReachableFrom fs analyse roots options source.name) :
    LeadsTo fs analyse (typeRoots fs (roots.map Path.normalize)) source target ↔
      LeadsTo fs analyse (typeRoots fs (others.map Path.normalize)) source target := by
  have hmem : source ∈ (buildWith fs analyse roots options).files.map (·.source) := by
    rw [map_source_eq, List.mem_filterMap]
    exact ⟨source.name, (mem_fileNames_iff hroots).mpr ⟨readable_iff.mpr ⟨source, hread⟩, h⟩, hread⟩
  obtain ⟨file, hfile, rfl⟩ := List.mem_map.mp hmem
  rw [leadsTo_iff, leadsTo_iff, targets_perm hperm hpackages hfile]

theorem reachable_perm :
    ReachableFrom fs analyse roots options name ↔ ReachableFrom fs analyse others options name := by
  constructor
  · intro h
    induction h with
    | start hmem => exact .start ((mem_startNames_perm hperm hpackages).mp hmem)
    | step h hread hleads ih =>
      exact .step ih hread ((leadsTo_perm hroots hperm hpackages hread h).mp hleads)
  · intro h
    induction h with
    | start hmem => exact .start ((mem_startNames_perm hperm hpackages).mpr hmem)
    | step h hread hleads ih =>
      exact .step ih hread ((leadsTo_perm hroots hperm hpackages hread ih).mpr hleads)

theorem fileNames_perm :
    (buildWith fs analyse roots options).fileNames.Perm (buildWith fs analyse others options).fileNames := by
  rw [List.perm_ext_iff_of_nodup (nodup_fileNames fs analyse roots options)
    (nodup_fileNames fs analyse others options)]
  intro name
  rw [mem_fileNames_iff hroots, mem_fileNames_iff fun root hmem => hroots root (hperm.mem_iff.mpr hmem),
    reachable_perm hroots hperm hpackages]

theorem files_perm :
    (buildWith fs analyse roots options).files.Perm (buildWith fs analyse others options).files := by
  have hsources : ((buildWith fs analyse roots options).files.map (·.source)).Perm
      ((buildWith fs analyse others options).files.map (·.source)) := by
    rw [map_source_eq, map_source_eq]
    exact (fileNames_perm hroots hperm hpackages).filterMap _
  rw [files_eq_checkSource fs analyse roots, files_eq_checkSource fs analyse others]
  refine (hsources.map _).trans (.of_eq (List.map_congr_left fun source _ => ?_))
  rw [checkSource, checkSource, produced, produced, isUnresolved_congr fun name => ?_]
  exact (hsources.flatMap_right _).mem_iff

end

/-- Absolute roots in another order give the same files with the same syntax errors and the same mistakes in
their bodies, and the same diagnostics of the program in another order, if no package that the program looks
for has an entry in two type roots. -/
theorem files_perm_of_roots_perm (fs : FileSystem) (options : OptionSet)
    (hroots : ∀ root ∈ roots, Path.isAbsolute root = true) (hperm : roots.Perm others)
    (hpackages : PackagesUnambiguous fs Facts.of roots options) :
    let program := build fs roots options
    let other := build fs others options
    program.files.Perm other.files ∧ program.globals.Perm other.globals ∧
    ∀ file ∈ program.files,
      program.diagnosticsOf file.source.name = file.syntactic ++ program.globals ++ file.semantic ∧
        other.diagnosticsOf file.source.name = file.syntactic ++ other.globals ++ file.semantic := by
  intro program other
  have hfiles : program.files.Perm other.files := files_perm hroots hperm hpackages
  have hglobals : program.globals.Perm other.globals := by
    change (buildWith fs Facts.of roots options).globals.Perm (buildWith fs Facts.of others options).globals
    rw [globals_eq hroots, globals_eq fun root hmem => hroots root (hperm.mem_iff.mpr hmem)]
    exact ((hperm.map _).filter _).map _
  exact ⟨hfiles, hglobals, fun file hfile => ⟨diagnosticsOf_eq hfile, diagnosticsOf_eq (hfiles.mem_iff.mp hfile)⟩⟩

def twoTypeRoots : FileSystem where
  root := .dir [("w", .dir [
    ("a.ts", .file (some "import 'm'")),
    ("node_modules", .dir [("@types", .dir [("x", .dir [("index.d.ts", .file (some ""))])])]),
    ("lib", .dir [
      ("b.ts", .file (some "")),
      ("node_modules", .dir [("@types", .dir [
        ("y", .dir [("index.d.ts", .file (some "declare module 'm'"))])])])])])]
  cwd := "/"

set_option maxRecDepth 100000 in
/-- The files come in another order. -/
theorem files_perm_of_roots_perm_twice :
    let roots := ["/w/a.ts", "/w/lib/b.ts", "/w/c.ts"]
    let others := ["/w/lib/b.ts", "/w/c.ts", "/w/a.ts"]
    (∀ root ∈ roots, Path.isAbsolute root = true) ∧ roots.Perm others ∧
      PackagesUnambiguous twoTypeRoots Facts.of roots .baseline ∧
      (build twoTypeRoots roots .baseline).fileNames =
        ["/w/a.ts", "/w/lib/b.ts", "/w/node_modules/@types/x/index.d.ts",
          "/w/lib/node_modules/@types/y/index.d.ts"] ∧
      (build twoTypeRoots others .baseline).fileNames =
        ["/w/lib/b.ts", "/w/a.ts", "/w/lib/node_modules/@types/y/index.d.ts",
          "/w/node_modules/@types/x/index.d.ts"] ∧
      (build twoTypeRoots roots .baseline).files.Perm (build twoTypeRoots others .baseline).files := by
  intro roots others
  have hroots : ∀ root ∈ roots, Path.isAbsolute root = true := by decide
  have hperm : roots.Perm others := by decide
  have hpackages : PackagesUnambiguous twoTypeRoots Facts.of roots .baseline := by decide +kernel
  obtain ⟨hfiles, -⟩ := files_perm_of_roots_perm twoTypeRoots .baseline hroots hperm hpackages
  exact ⟨hroots, hperm, hpackages, by decide +kernel, by decide +kernel, hfiles⟩

end TsBuild.Program
