import TsBuild.Proofs.FileTree.Places
import TsBuild.Proofs.Program.Pending
import TsBuild.Proofs.Program.Reachable

/-!
# The spellings of a file

In a tree without links two absolute paths lead to one place exactly if they have one normal form, and this leads
there as well (`normalize_samePlace`). So a program that keeps its files by their normal names has no file under
two names, and finds it under every spelling.
-/

namespace TsBuild.Program

variable {fs : FileSystem} {analyse : SourceFile → Facts} {roots : List String} {options : OptionSet}
  {file : CheckedFile}

theorem mem_load_of_mem_files (hfile : file ∈ (buildWith fs analyse roots options).files) :
    ∃ loaded ∈ (load fs analyse (typeRoots fs (roots.map Path.normalize)) (startRequests fs roots options)).files,
      loaded.source = file.source :=
  List.mem_map.mp (map_source_buildWith fs analyse roots options ▸ List.mem_map_of_mem hfile)

theorem exists_place (hroots : ∀ root ∈ roots, Path.isAbsolute root = true)
    (hfile : file ∈ (buildWith fs analyse roots options).files) :
    ∃ place, fs.Leads file.source.name place := by
  obtain ⟨loaded, hloaded, hsource⟩ := mem_load_of_mem_files hfile
  have hplace := all_load (fun _ => isPlace_of_mem_startRequests hroots)
    (spreads_isPlace fun _ => isAbsolute_of_mem_typeRoots (isAbsolute_of_mem_rootNames hroots)) loaded hloaded
  have hread := ((sound_load fs analyse _ (startRequests fs roots options)).2 loaded hloaded).1
  obtain ⟨text, htext⟩ := readText_of_readSource hread
  obtain ⟨-, place, hleads, -⟩ := (FileSystem.resolve_iff hplace.1).mp (FileSystem.resolve_of_readText htext)
  exact ⟨place, hsource ▸ hleads⟩

theorem mem_files_of_file? {program : Program} (h : program.file? name = some file) :
    file ∈ program.files ∧ file.source.name = Path.normalize name := by
  rw [file?] at h
  exact ⟨List.mem_of_find?_eq_some h, by simpa using List.find?_some h⟩

/-- A file is found by every path that leads to its place. -/
theorem file_eq_of_leads (hfile : file ∈ (buildWith fs analyse roots options).files)
    (hname : fs.Leads file.source.name place) (hpath : fs.Leads path place) :
    (buildWith fs analyse roots options).file? path = some file := by
  have hnormal : Path.normalize path = Path.normalize file.source.name :=
    (FileSystem.place_eq_iff hpath hname).mp rfl
  rw [file?, hnormal]
  exact file_eq hfile

theorem pairwise_places (fs : FileSystem) (analyse : SourceFile → Facts) (roots : List String)
    (options : OptionSet) : (buildWith fs analyse roots options).files.Pairwise fun file other =>
      ∀ place, fs.Leads file.source.name place → ¬ fs.Leads other.source.name place := by
  refine (List.pairwise_map.mp (nodup_fileNames fs analyse roots options)).imp_of_mem ?_
  intro file other hfile hother hne place hplace hplace'
  have hnormal := (FileSystem.place_eq_iff hplace hplace').mp rfl
  rw [(parts_of_mem_files hfile).1, (parts_of_mem_files hother).1] at hnormal
  exact hne hnormal

/-- An absolute path that is resolved leads to the place of a node, step by step, and its normal form leads there
too and is resolved to the same node; two paths lead to one place exactly if they have one normal form. So the
files of a program with absolute roots have places, no two the same, and every path to the place of a file finds
the file. -/
theorem normalize_samePlace (fs : FileSystem) :
    (∀ path node, Path.isAbsolute path = true → (fs.resolve path = .ok node ↔
      FileSystem.Fits path ∧ ∃ place, fs.Leads path place ∧ fs.root.at? place = some node)) ∧
    (∀ path place, fs.Leads path place → fs.Leads (Path.normalize path) place ∧
      ∀ node, fs.resolve path = .ok node → fs.resolve (Path.normalize path) = .ok node) ∧
    (∀ path other place otherPlace, fs.Leads path place → fs.Leads other otherPlace →
      (place = otherPlace ↔ Path.normalize path = Path.normalize other)) ∧
    ∀ analyse roots options, (∀ root ∈ roots, Path.isAbsolute root = true) →
      let program := buildWith fs analyse roots options
      (∀ file ∈ program.files, ∃ place, fs.Leads file.source.name place ∧
        ∀ path, fs.Leads path place → program.file? path = some file) ∧
      program.files.Pairwise fun file other =>
        ∀ place, fs.Leads file.source.name place → ¬ fs.Leads other.source.name place := by
  refine ⟨fun path node => FileSystem.resolve_iff, fun path place h => ⟨FileSystem.leads_normalize h, ?_⟩,
    fun path other place otherPlace => FileSystem.place_eq_iff, ?_⟩
  · intro node hnode
    obtain ⟨hfits, place', hplace', hat⟩ := (FileSystem.resolve_iff h.1).mp hnode
    have hnormal := FileSystem.leads_normalize hplace'
    exact (FileSystem.resolve_iff hnormal.1).mpr ⟨hfits.normalize h.1, place', hnormal, hat⟩
  · intro analyse roots options hroots program
    refine ⟨fun file hfile => ?_, pairwise_places fs analyse roots options⟩
    obtain ⟨place, hplace⟩ := exists_place hroots hfile
    exact ⟨place, hplace, fun path hpath => file_eq_of_leads hfile hplace hpath⟩

def sameNames : FileSystem where
  root := .dir [("w", .dir [("a", .dir [("m.ts", .file (some "export {};\n"))]), ("m.ts", .file (some ""))])]
  cwd := "/"

/-- A spelling that goes back beyond the root, and one that goes through the directory of the other module. -/
theorem normalize_samePlace_sameNames :
    ∃ place otherPlace, sameNames.Leads "/../w//a/./m.ts" place ∧ sameNames.Leads "/w/a/../m.ts" otherPlace ∧
      place ≠ otherPlace ∧ sameNames.Leads (Path.normalize "/../w//a/./m.ts") place ∧
      sameNames.resolve (Path.normalize "/../w//a/./m.ts") = .ok (.file (some "export {};\n")) ∧
      (∀ root ∈ ["/w/./m.ts"], Path.isAbsolute root = true) ∧
      ∃ file, (build sameNames ["/w/./m.ts"] .baseline).file? "/w/./m.ts" = some file ∧
        (build sameNames ["/w/./m.ts"] .baseline).file? "/w/a/../m.ts" = some file := by
  obtain ⟨hresolve, hnormal, hplaces, hprograms⟩ := normalize_samePlace sameNames
  have hmodule := FileSystem.resolve_of_readText
    (show sameNames.readText "/../w//a/./m.ts" = .ok "export {};\n" by decide +kernel)
  have hother := FileSystem.resolve_of_readText (show sameNames.readText "/w/a/../m.ts" = .ok "" by decide +kernel)
  have hroots : ∀ root ∈ ["/w/./m.ts"], Path.isAbsolute root = true := by decide
  obtain ⟨-, place, hplace, -⟩ := (hresolve _ _ (by decide)).mp hmodule
  obtain ⟨-, otherPlace, hotherPlace, -⟩ := (hresolve _ _ (by decide)).mp hother
  obtain ⟨hleads, hsame⟩ := hnormal _ _ hplace
  obtain ⟨hfiles, -⟩ := hprograms Facts.of ["/w/./m.ts"] .baseline hroots
  have hread : (readSource? sameNames (Path.normalize "/w/./m.ts")).isSome := by decide +kernel
  obtain ⟨file, hfound⟩ := Option.isSome_iff_exists.mp
    (file_of_root (List.mem_singleton_self "/w/./m.ts") .baseline hread)
  obtain ⟨hfile, hname⟩ := mem_files_of_file? hfound
  obtain ⟨rootPlace, hrootPlace, hevery⟩ := hfiles file hfile
  have hsamePlace : otherPlace = rootPlace := by
    refine (hplaces _ _ _ _ hotherPlace hrootPlace).mpr ?_
    rw [hname]
    decide +kernel
  refine ⟨place, otherPlace, hplace, hotherPlace, ?_, hleads, hsame _ hmodule, hroots, file, hfound, ?_⟩
  · rw [ne_eq, hplaces _ _ _ _ hplace hotherPlace]
    decide +kernel
  · exact hevery _ (hsamePlace ▸ hotherPlace)

end TsBuild.Program
