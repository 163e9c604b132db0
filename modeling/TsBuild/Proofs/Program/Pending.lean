import Mathlib.Data.List.Nodup
import TsBuild.Proofs.FileTree.Files
import TsBuild.Proofs.Program.Names
import TsBuild.Proofs.Program.Roots
import TsBuild.Proofs.Program.TextOrder

/-!
# Judging imports put off

The packages looked up are what looking them up again would find (`Faithful`), since whether a package is
installed depends on the directory of the importer alone. So judging the imports put off comes to judging
each by itself (`judgeAll_eq`), and a checked file is known from its loaded file and the ambient modules
(`files_eq`).
-/

namespace TsBuild.Program

variable {fs : FileSystem} {checks : Checks} {ambient : List String} {lookups : PackageLookups}

-- ---------------------------------------------------------------------------
-- Packages looked up
-- ---------------------------------------------------------------------------

theorem packageExists_congr (specifier : String) (h : Path.parent? importer = some dir)
    (hother : Path.parent? other = some dir) :
    packageExists fs specifier importer = packageExists fs specifier other := by
  rw [packageExists, packageExists, Path.drop_ancestors h, Path.drop_ancestors hother]

/-- What was found for a directory is what there is for each importer in it. -/
def Faithful (fs : FileSystem) (lookups : PackageLookups) : Prop :=
  ∀ specifier dir found, lookups.lookup (specifier, dir) = some found →
    ∀ importer, Path.parent? importer = some dir → found = packageExists fs specifier importer

theorem Faithful.nil : Faithful fs [] := by
  rintro _ _ _ ⟨⟩

theorem lookUpPackage_eq (h : Faithful fs lookups) {pending : PendingImport}
    (hparent : (Path.parent? pending.importer).isSome) :
    (lookUpPackage fs lookups pending).1 = packageExists fs pending.import_.specifier pending.importer ∧
      Faithful fs (lookUpPackage fs lookups pending).2 := by
  obtain ⟨dir, hdir⟩ := Option.isSome_iff_exists.mp hparent
  unfold lookUpPackage
  rw [hdir, Option.getD_some]
  simp only
  split
  · rename_i found hfound
    exact ⟨h _ _ _ hfound _ hdir, h⟩
  · refine ⟨rfl, fun specifier other found hfound importer himporter => ?_⟩
    rw [List.lookup_cons] at hfound
    split at hfound
    · rename_i hkey
      obtain ⟨rfl, rfl⟩ := Prod.mk.inj (eq_of_beq hkey)
      cases hfound
      exact packageExists_congr _ hdir himporter
    · exact h specifier other found hfound importer himporter

-- ---------------------------------------------------------------------------
-- Judging
-- ---------------------------------------------------------------------------

def standsForNothing (fs : FileSystem) (checks : Checks) (ambient : List String) (pending : PendingImport) :
    Bool :=
  !(ambient.any fun declared => declares declared pending.import_.specifier) &&
    (isRelative pending.import_.specifier ||
      checks.bareImports && !packageExists fs pending.import_.specifier pending.importer)

theorem judge_eq (checks : Checks) (ambient : List String) (h : Faithful fs lookups)
    {pending : PendingImport} (hparent : (Path.parent? pending.importer).isSome) :
    (judge fs checks ambient lookups pending).1 = standsForNothing fs checks ambient pending ∧
      Faithful fs (judge fs checks ambient lookups pending).2 := by
  obtain ⟨hfound, hfaithful⟩ := lookUpPackage_eq h hparent
  unfold judge standsForNothing
  split
  · rename_i hambient
    exact ⟨by simp [hambient], h⟩
  · rename_i hambient
    split
    · rename_i hrelative
      exact ⟨by simp [hambient, hrelative], h⟩
    · rename_i hrelative
      split
      · rename_i hlenient
        exact ⟨by simp_all, h⟩
      · rename_i hstrict
        refine ⟨?_, hfaithful⟩
        simp_all

def unresolvedIn (fs : FileSystem) (checks : Checks) (ambient : List String) (name : String)
    (pending : List PendingImport) : List Import :=
  (pending.filter fun import_ =>
    import_.importer = name && standsForNothing fs checks ambient import_).map (·.import_)

/-- Judging in order reports in each file those of its imports that stand for nothing. -/
theorem judgeAll_eq (h : Faithful fs lookups) {pending : List PendingImport}
    (hparents : ∀ import_ ∈ pending, (Path.parent? import_.importer).isSome) (files : List CheckedFile) :
    judgeAll fs checks ambient lookups pending files =
      files.map fun file =>
        (unresolvedIn fs checks ambient file.source.name pending).foldl CheckedFile.report file := by
  induction pending generalizing lookups files with
  | nil => simp [judgeAll, unresolvedIn]
  | cons first rest ih =>
    obtain ⟨hfirst, hrest⟩ := List.forall_mem_cons.mp hparents
    obtain ⟨hjudge, hfaithful⟩ := judge_eq checks ambient h hfirst
    rw [judgeAll]
    simp only
    rw [hjudge, ih hfaithful hrest]
    cases hnothing : standsForNothing fs checks ambient first with
    | false => simp [unresolvedIn, hnothing]
    | true =>
      simp only [↓reduceIte, List.map_map]
      refine List.map_congr_left fun file _ => ?_
      rw [Function.comp_apply]
      by_cases hname : file.source.name = first.importer
      · simp [unresolvedIn, hnothing, hname, CheckedFile.report]
      · simp [unresolvedIn, hname, Ne.symm hname]

-- ---------------------------------------------------------------------------
-- Reporting
-- ---------------------------------------------------------------------------

/-- Reporting one after the other comes to putting all in text order. -/
theorem foldl_report (imports : List Import) (source : SourceFile) (syntactic produced : List Diagnostic) :
    imports.foldl CheckedFile.report ⟨source, syntactic, inTextOrder produced⟩ =
      ⟨source, syntactic, inTextOrder (produced ++ imports.map (unresolvedDiagnostic source))⟩ := by
  induction imports generalizing produced with
  | nil => simp
  | cons import_ rest ih =>
    rw [List.foldl_cons, CheckedFile.report]
    simp only
    rw [inTextOrder_append, ih, List.map_cons, List.append_assoc, List.singleton_append]

def isUnresolved (fs : FileSystem) (checks : Checks) (ambient : List String) (importer : String)
    (import_ : Import) : Bool :=
  (resolveImport? fs importer import_).isNone && (checks.sideEffectImports || !import_.sideEffectOnly) &&
    standsForNothing fs checks ambient ⟨importer, import_⟩

theorem unresolvedIn_append (name : String) (first second : List PendingImport) :
    unresolvedIn fs checks ambient name (first ++ second) =
      unresolvedIn fs checks ambient name first ++ unresolvedIn fs checks ambient name second := by
  rw [unresolvedIn, List.filter_append, List.map_append]
  rfl

theorem unresolvedIn_self (fs : FileSystem) (checks : Checks) (ambient : List String) (file : LoadedFile) :
    unresolvedIn fs checks ambient file.source.name (pendingImports fs checks file) =
      file.facts.imports.filter (isUnresolved fs checks ambient file.source.name) := by
  rw [unresolvedIn, pendingImports, List.filter_map, List.map_map, List.filter_filter]
  simp only [Function.comp_def, decide_true, Bool.true_and, List.map_id']
  refine List.filter_congr fun import_ _ => ?_
  rw [isUnresolved, Bool.and_comm]

theorem unresolvedIn_other {file : LoadedFile} (h : file.source.name ≠ name) :
    unresolvedIn fs checks ambient name (pendingImports fs checks file) = [] := by
  rw [unresolvedIn, pendingImports, List.filter_map]
  simp [Function.comp_def, h]

theorem unresolvedIn_flatMap {files : List LoadedFile} (hnodup : (files.map (·.source.name)).Nodup)
    (hmem : file ∈ files) :
    unresolvedIn fs checks ambient file.source.name (files.flatMap (pendingImports fs checks)) =
      file.facts.imports.filter (isUnresolved fs checks ambient file.source.name) := by
  have hothers : ∀ {others : List LoadedFile}, file.source.name ∉ others.map (·.source.name) →
      unresolvedIn fs checks ambient file.source.name (others.flatMap (pendingImports fs checks)) = [] := by
    intro others hnotMem
    induction others with
    | nil => rfl
    | cons other rest ih =>
      rw [List.map_cons, List.mem_cons, not_or] at hnotMem
      rw [List.flatMap_cons, unresolvedIn_append, unresolvedIn_other (Ne.symm hnotMem.1), ih hnotMem.2,
        List.append_nil]
  induction files with
  | nil => cases hmem
  | cons first rest ih =>
    obtain ⟨hnew, hrest⟩ := List.nodup_cons.mp hnodup
    rw [List.flatMap_cons, unresolvedIn_append]
    rcases List.mem_cons.mp hmem with rfl | hmem
    · rw [unresolvedIn_self, hothers hnew, List.append_nil]
    · have hother : first.source.name ≠ file.source.name := fun heq =>
        hnew (List.mem_map.mpr ⟨file, hmem, heq.symm⟩)
      rw [unresolvedIn_other hother, ih hrest hmem, List.nil_append]

-- ---------------------------------------------------------------------------
-- Checked files
-- ---------------------------------------------------------------------------

/-- What is wrong in the body of a file, in the order in which it is found: the literals, then the
imports. -/
def produced (fs : FileSystem) (checks : Checks) (ambient : List String) (file : LoadedFile) :
    List Diagnostic :=
  literalDiagnostics checks file ++
    (file.facts.imports.filter (isUnresolved fs checks ambient file.source.name)).map
      (unresolvedDiagnostic file.source)

theorem normal_of_mem_load (fs : FileSystem) (analyse : SourceFile → Facts) (roots : List String)
    (options : OptionSet) :
    ∀ file ∈ (load fs analyse (Program.typeRoots fs (roots.map Path.normalize))
      (startRequests fs roots options)).files, Path.normalize file.source.name = file.source.name := by
  have hrequests : ∀ request ∈ startRequests fs roots options, Path.normalize request.name = request.name := by
    intro request hmem
    rcases List.mem_append.mp hmem with hmem | hmem
    · obtain ⟨root, hroot, rfl⟩ := List.mem_map.mp hmem
      obtain ⟨name, -, rfl⟩ := List.mem_map.mp hroot
      exact Path.normalize_normalize name
    · obtain ⟨entry, hentry, rfl⟩ := List.mem_map.mp hmem
      exact (normal_of_mem_typeEntries hentry).1
  intro file hfile
  refine all_load (P := fun name => Path.normalize name = name) hrequests ?_ file hfile
  exact fun _ _ _ _ htarget => (normal_of_mem_targets htarget).1

theorem parent_of_mem_load (fs : FileSystem) (analyse : SourceFile → Facts) (roots : List String)
    (options : OptionSet) :
    ∀ file ∈ (load fs analyse (Program.typeRoots fs (roots.map Path.normalize))
      (startRequests fs roots options)).files, (Path.parent? file.source.name).isSome := by
  intro file hfile
  have hread := ((sound_load fs analyse _ (startRequests fs roots options)).2 file hfile).1
  obtain ⟨text, htext⟩ := readText_of_readSource hread
  obtain ⟨hempty, hroot⟩ := FileSystem.ne_root_of_readText htext
  exact Path.parent_isSome (normal_of_mem_load fs analyse roots options file hfile) hempty hroot

/-- The files of a program are those that are loaded, each with its syntax errors and with what is wrong in
its body. -/
theorem files_buildWith (fs : FileSystem) (analyse : SourceFile → Facts) (roots : List String)
    (options : OptionSet) :
    let loaded := (load fs analyse (Program.typeRoots fs (roots.map Path.normalize))
      (startRequests fs roots options)).files
    let ambient := loaded.flatMap (·.facts.ambientModules)
    (buildWith fs analyse roots options).files = loaded.map fun file =>
      ⟨file.source, file.facts.syntaxErrors,
        inTextOrder (produced fs (Checks.ofOptions options) ambient file)⟩ := by
  intro loaded ambient
  have hparents : ∀ import_ ∈ loaded.flatMap (pendingImports fs (Checks.ofOptions options)),
      (Path.parent? import_.importer).isSome := by
    intro import_ hmem
    obtain ⟨file, hfile, hpending⟩ := List.mem_flatMap.mp hmem
    obtain ⟨_, -, rfl⟩ := List.mem_map.mp hpending
    exact parent_of_mem_load fs analyse roots options file hfile
  have hfiles : (buildWith fs analyse roots options).files =
      judgeAll fs (Checks.ofOptions options) ambient []
        (loaded.flatMap (pendingImports fs (Checks.ofOptions options)))
        (loaded.map (checkFile (Checks.ofOptions options))) := rfl
  rw [hfiles, judgeAll_eq .nil hparents, List.map_map]
  refine List.map_congr_left fun file hfile => ?_
  rw [Function.comp_apply, checkFile, foldl_report, unresolvedIn_flatMap (sound_load fs analyse _ _).1 hfile]
  rfl

theorem parts_of_mem_files {roots : List String} {options : OptionSet}
    (hfile : file ∈ (buildWith fs analyse roots options).files) :
    Path.normalize file.source.name = file.source.name ∧
      file.syntactic = (analyse file.source).syntaxErrors ∧
      ∃ ambient, (∀ declared, declared ∈ ambient ↔
          ∃ other ∈ (buildWith fs analyse roots options).files,
            declared ∈ (analyse other.source).ambientModules) ∧
        file.semantic = inTextOrder (produced fs (Checks.ofOptions options) ambient
          ⟨file.source, analyse file.source⟩) := by
  have hsound := (sound_load fs analyse (Program.typeRoots fs (roots.map Path.normalize))
    (startRequests fs roots options)).2
  have hnormal := normal_of_mem_load fs analyse roots options
  have hfiles := files_buildWith fs analyse roots options
  generalize (load fs analyse (Program.typeRoots fs (roots.map Path.normalize))
    (startRequests fs roots options)).files = all at hsound hnormal hfiles
  rw [hfiles] at hfile ⊢
  obtain ⟨loaded, hloaded, rfl⟩ := List.mem_map.mp hfile
  have hfacts := (hsound loaded hloaded).2
  refine ⟨hnormal loaded hloaded, congrArg Facts.syntaxErrors hfacts, all.flatMap (·.facts.ambientModules),
    fun declared => ?_, ?_⟩
  · simp only [List.mem_flatMap, List.mem_map, exists_exists_and_eq_and]
    refine exists_congr fun other => and_congr_right fun hother => ?_
    rw [(hsound other hother).2]
  · rw [← hfacts]

theorem file_eq {roots : List String} {options : OptionSet}
    (hfile : file ∈ (buildWith fs analyse roots options).files) :
    (buildWith fs analyse roots options).file? file.source.name = some file := by
  have hnodup := nodup_fileNames fs analyse roots options
  rw [file?, (parts_of_mem_files hfile).1]
  cases hfind : (buildWith fs analyse roots options).files.find? fun other =>
      other.source.name = file.source.name with
  | none => exact absurd (List.find?_eq_none.mp hfind file hfile) (by simp)
  | some other =>
    have hname : other.source.name = file.source.name := by simpa using List.find?_some hfind
    rw [List.inj_on_of_nodup_map hnodup (List.mem_of_find?_eq_some hfind) hfile hname]

end TsBuild.Program
