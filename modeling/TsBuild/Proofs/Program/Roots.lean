import TsBuild.Program.Check
import TsBuild.Proofs.Program.Loads

/-!
# The roots of a program

The roots that can be read are the first files of a program (`prefix_fileNames`), each of them one
(`file_of_root`): they are the first requests, and a program has room for as many files as there are
requests.
-/

namespace TsBuild.Program

variable {fs : FileSystem} {analyse : SourceFile → Facts} {typeRoots : List String}

def startRequests (fs : FileSystem) (roots : List String) (options : OptionSet) : List Request :=
  (roots.map Path.normalize).map (⟨·, true⟩) ++
    (typeEntries fs (Program.typeRoots fs (roots.map Path.normalize)) (options.value? .types)).map (⟨·, false⟩)

/-- Loading is a run from the requests. If a request is left, all room is taken. -/
theorem reaches_load (fs : FileSystem) (analyse : SourceFile → Facts) (typeRoots : List String)
    (requests : List Request) :
    ∃ rest last, Reaches fs analyse typeRoots (.start requests) ⟨rest, last⟩ ∧
      load fs analyse typeRoots requests = ⟨last.files.reverse, last.missing.reverse⟩ ∧
      (rest = [] ∨ last.names.length = loadBound fs requests ∧
        ∃ request ∈ rest, last.has request.name = false ∧ readable fs request.name = true) := by
  obtain ⟨rest, hreaches, hend⟩ := reaches_loadAll fs analyse typeRoots (loadBound fs requests) requests .empty
  refine ⟨rest, _, hreaches, rfl, hend.imp_right ?_⟩
  rintro ⟨hlength, hrequest⟩
  refine ⟨?_, hrequest⟩
  simpa [Loading.names, Loading.empty] using hlength

theorem prefix_load (fs : FileSystem) (analyse : SourceFile → Facts) (typeRoots : List String)
    (requests : List Request) :
    ((requests.map (·.name)).filter (readable fs)).eraseDups <+:
      (load fs analyse typeRoots requests).files.map (·.source.name) := by
  obtain ⟨rest, last, hreaches, hload, hend⟩ := reaches_load fs analyse typeRoots requests
  have hsound := sound_of_reaches hreaches
  have horder := prefix_order_of_reaches hreaches
  rw [hload]
  change _ <+: last.names
  rcases hend with rfl | ⟨hfull, -⟩
  · rwa [order_of_nil hsound] at horder
  · -- There is room for as many files as there are requests.
    refine List.prefix_of_prefix_length_le horder (names_prefix_order hsound) ?_
    calc ((requests.map (·.name)).filter (readable fs)).eraseDups.length
      _ ≤ ((requests.map (·.name)).filter (readable fs)).length := (eraseDups_sublist _).length_le
      _ ≤ requests.length := by simpa using List.length_filter_le (readable fs) (requests.map (·.name))
      _ ≤ last.names.length := by rw [hfull, loadBound]; exact Nat.le_add_right _ _

theorem sound_load (fs : FileSystem) (analyse : SourceFile → Facts) (typeRoots : List String)
    (requests : List Request) :
    let files := (load fs analyse typeRoots requests).files
    (files.map (·.source.name)).Nodup ∧
      ∀ file ∈ files, readSource? fs file.source.name = some file.source ∧ file.facts = analyse file.source := by
  obtain ⟨rest, last, hreaches, hload, -⟩ := reaches_load fs analyse typeRoots requests
  have hsound := sound_of_reaches hreaches
  rw [hload]
  refine ⟨hsound.nodup, fun file hfile => ?_⟩
  have hmem := List.mem_reverse.mp hfile
  exact ⟨hsound.read file hmem, hsound.facts file hmem⟩

theorem all_load {P : String → Prop} {requests : List Request}
    (hrequests : ∀ request ∈ requests, P request.name) (hspreads : Spreads fs analyse typeRoots P) :
    ∀ file ∈ (load fs analyse typeRoots requests).files, P file.source.name := by
  obtain ⟨rest, last, hreaches, hload, -⟩ := reaches_load fs analyse typeRoots requests
  intro file hfile
  rw [hload] at hfile
  exact (all_of_reaches hreaches hrequests hspreads).names _ (mem_names.mpr ⟨file, List.mem_reverse.mp hfile, rfl⟩)

theorem map_source_judgeAll (fs : FileSystem) (checks : Checks) (ambient : List String)
    (lookups : PackageLookups) (pending : List PendingImport) (files : List CheckedFile) :
    (judgeAll fs checks ambient lookups pending files).map (·.source) = files.map (·.source) := by
  induction pending generalizing lookups files with
  | nil => rfl
  | cons import_ rest ih =>
    rw [judgeAll]
    simp only
    rw [ih]
    split
    · rw [List.map_map]
      refine List.map_congr_left fun file _ => ?_
      rw [Function.comp_apply]
      split <;> rfl
    · rfl

theorem map_source_buildWith (fs : FileSystem) (analyse : SourceFile → Facts) (roots : List String)
    (options : OptionSet) :
    (buildWith fs analyse roots options).files.map (·.source) =
      (load fs analyse (Program.typeRoots fs (roots.map Path.normalize))
        (startRequests fs roots options)).files.map (·.source) := by
  rw [buildWith]
  simp only
  rw [map_source_judgeAll, List.map_map]
  rfl

def fileNames (program : Program) : List String := program.files.map (·.source.name)

theorem fileNames_eq (program : Program) :
    program.fileNames = (program.files.map (·.source)).map (·.name) := by
  rw [fileNames, List.map_map]
  rfl

theorem nodup_fileNames (fs : FileSystem) (analyse : SourceFile → Facts) (roots : List String)
    (options : OptionSet) : (buildWith fs analyse roots options).fileNames.Nodup := by
  rw [fileNames_eq, map_source_buildWith, List.map_map]
  exact (sound_load fs analyse _ _).1

/-- The roots that can be read come first, each once. -/
theorem prefix_fileNames (fs : FileSystem) (analyse : SourceFile → Facts) (roots : List String)
    (options : OptionSet) :
    ((roots.map Path.normalize).filter (readable fs)).eraseDups <+:
      (buildWith fs analyse roots options).fileNames := by
  have hload := prefix_load fs analyse (Program.typeRoots fs (roots.map Path.normalize))
    (startRequests fs roots options)
  rw [fileNames_eq, map_source_buildWith, List.map_map]
  refine List.IsPrefix.trans ?_ hload
  have hroots : ((roots.map Path.normalize).map (⟨·, true⟩)).map Request.name = roots.map Path.normalize := by
    rw [List.map_map, List.map_map]
    rfl
  rw [startRequests, List.map_append, hroots, List.filter_append]
  exact eraseDups_prefix_append _ _

theorem file_of_root {roots : List String} (hmem : root ∈ roots) (options : OptionSet)
    (hread : (readSource? fs (Path.normalize root)).isSome) :
    ((build fs roots options).file? root).isSome := by
  have hroot : Path.normalize root ∈ ((roots.map Path.normalize).filter (readable fs)).eraseDups :=
    List.mem_eraseDups.mpr (List.mem_filter.mpr ⟨List.mem_map_of_mem hmem, hread⟩)
  obtain ⟨file, hfile, hname⟩ :=
    List.mem_map.mp ((prefix_fileNames fs Facts.of roots options).subset hroot)
  rw [file?, List.find?_isSome]
  exact ⟨file, hfile, decide_eq_true hname⟩

end TsBuild.Program
