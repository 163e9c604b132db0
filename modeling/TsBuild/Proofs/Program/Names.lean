import TsBuild.Program.Check
import TsBuild.Proofs.Path.Ending
import TsBuild.Proofs.Program.TypeRoots

/-!
# The names of the files of a program

Whatever names a file, its name is in normal form, and absolute if the names it comes from are: the
candidates of a relative import (`normal_of_mem_candidates`), the files that a file leads to
(`normal_of_mem_targets`) and the entries of declaration packages (`normal_of_mem_typeEntries`).
-/

namespace TsBuild.Program

open TsBuild.Path (NormalStack IsName IsEnding lead spell)

variable {fs : FileSystem} {stack : List Path.Component} {base path dir target : String}

-- ---------------------------------------------------------------------------
-- Candidates
-- ---------------------------------------------------------------------------

theorem isEnding_of_mem_compiled : ∀ extension ∈ compiledExtensions, IsEnding extension.toList := by
  decide

theorem isEnding_of_mem_source : ∀ extension ∈ sourceExtensions, IsEnding extension.toList := by
  decide

/-- A path is its stem, or its stem and the extension of a compiled script. -/
theorem withoutCompiledExtension_cases (path : String) :
    withoutCompiledExtension path = path ∧
        (∀ extension ∈ compiledExtensions, ¬ extension.toList <:+ path.toList) ∨
      ∃ extension ∈ compiledExtensions,
        path.toList = (withoutCompiledExtension path).toList ++ extension.toList := by
  unfold withoutCompiledExtension
  split
  · rename_i stem hstem
    obtain ⟨extension, hmem, hdrop⟩ := List.exists_of_findSome?_eq_some hstem
    refine .inr ⟨extension, hmem, ?_⟩
    rw [String.toList_ofList]
    exact Text.dropSuffix_eq_some.mp hdrop
  · rename_i hnone
    refine .inl ⟨rfl, fun extension hmem => ?_⟩
    exact Text.dropSuffix_eq_none.mp (List.findSome?_eq_none_iff.mp hnone extension hmem)

theorem stem_eq (h : NormalStack stack) :
    ∃ segment below, NormalStack below ∧ '/' ∉ segment ∧ (.root ∈ stack ↔ .root ∈ below) ∧
      (withoutCompiledExtension (spell stack)).toList = lead below ++ segment := by
  obtain ⟨hstem, -⟩ | ⟨extension, hmem, htext⟩ := withoutCompiledExtension_cases (spell stack)
  · obtain ⟨segment, below, hbelow, hslash, hroot, htext⟩ := Path.spell_append h ""
    refine ⟨segment, below, hbelow, hslash, hroot, ?_⟩
    simpa [hstem] using htext
  · obtain ⟨segment, below, rfl, hbelow, hslash, hstem⟩ :=
      Path.exists_name_of_ending h (isEnding_of_mem_compiled extension hmem) htext
    exact ⟨segment, below, hbelow, hslash, by simp, hstem⟩

theorem index_eq (h : NormalStack stack) :
    (String.ofList (Text.trimEnd (· = '/') (spell stack).toList) ++ "/index").toList =
      lead (if stack = [] then [.root] else stack) ++ "index".toList := by
  rw [String.toList_append, String.toList_ofList]
  obtain rfl | rfl | ⟨component, below, rfl, hstep, hbelow⟩ := h.eq_cons
  · rfl
  · rfl
  · obtain ⟨c, rest, htext, hslash, -⟩ := Path.reverse_text_eq hstep
    have htrim : Text.trimEnd (· = '/') (spell (component :: below)).toList =
        (spell (component :: below)).toList := by
      rw [Path.toList_spell_cons hbelow hstep, Text.trimEnd, List.reverse_append, htext, List.cons_append,
        List.dropWhile_cons_of_neg (by simpa using hslash), ← List.cons_append, ← htext,
        ← List.reverse_append, List.reverse_reverse]
    rw [htrim, if_neg (List.cons_ne_nil _ _), Path.lead_cons hstep, List.append_assoc]
    rfl

theorem normal_of_toList_eq {below : List Path.Component} {segment : List Char} (hbelow : NormalStack below)
    (hname : IsName segment) (h : path.toList = lead below ++ segment) :
    Path.normalize path = path ∧ (.root ∈ below → Path.isAbsolute path = true) := by
  have hpath : path = spell (.name segment :: below) := by
    rw [Path.spell_name hbelow hname, ← h, String.ofList_toList]
  have hnormal : NormalStack (.name segment :: below) := .name hname hbelow
  rw [hpath, Path.isAbsolute_spell hnormal]
  exact ⟨Path.normalize_spell hnormal, List.mem_cons_of_mem _⟩

theorem normal_of_mem_candidates (h : Path.normalize base = base) (hmem : path ∈ candidates base) :
    Path.normalize path = path ∧ (Path.isAbsolute base = true → Path.isAbsolute path = true) := by
  obtain ⟨stack, hstack, rfl⟩ := Path.exists_spell h
  rw [Path.isAbsolute_spell hstack]
  obtain ⟨stem, hstem, hmem⟩ := List.mem_flatMap.mp hmem
  obtain ⟨extension, hextension, rfl⟩ := List.mem_map.mp hmem
  have hending := isEnding_of_mem_source extension hextension
  rcases List.mem_cons.mp hstem with rfl | hstem
  · obtain ⟨segment, below, hbelow, hslash, hroot, htext⟩ := stem_eq hstack
    rw [hroot]
    refine normal_of_toList_eq hbelow (hending.isName hslash) ?_
    rw [String.toList_append, htext, List.append_assoc]
  · rw [List.mem_singleton.mp hstem]
    have hbelow : NormalStack (if stack = [] then [.root] else stack) := by
      split
      · exact .root
      · exact hstack
    have htext : (String.ofList (Text.trimEnd (· = '/') (spell stack).toList) ++ "/index" ++
        extension).toList = lead (if stack = [] then [.root] else stack) ++
          ("index".toList ++ extension.toList) := by
      rw [String.toList_append, index_eq hstack, List.append_assoc]
    obtain ⟨hnormal, habsolute⟩ := normal_of_toList_eq hbelow (hending.isName (by decide)) htext
    refine ⟨hnormal, fun hroot => habsolute ?_⟩
    split
    · exact List.mem_singleton_self _
    · exact hroot

-- ---------------------------------------------------------------------------
-- What a file leads to
-- ---------------------------------------------------------------------------

theorem normal_of_resolveRelative (h : resolveRelative? fs dir specifier = some (.source path)) :
    Path.normalize path = path ∧ (Path.isAbsolute dir = true → Path.isAbsolute path = true) := by
  have hbase : Path.isAbsolute dir = true →
      Path.isAbsolute (Path.normalize (Path.join dir specifier)) = true := by
    intro hdir
    rw [Path.isAbsolute_normalize]
    exact Path.isAbsolute_join_of_base hdir specifier
  unfold resolveRelative? at h
  simp only at h
  split at h
  · cases h
    exact ⟨Path.normalize_normalize _, hbase⟩
  · split at h
    · cases h
    · obtain ⟨found, hfound, heq⟩ := Option.map_eq_some_iff.mp h
      cases heq
      obtain ⟨hnormal, habsolute⟩ :=
        normal_of_mem_candidates (Path.normalize_normalize _) (List.mem_of_find?_eq_some hfound)
      exact ⟨hnormal, habsolute ∘ hbase⟩

theorem normal_of_entryFile (h : entryFile? fs dir = some target) :
    Path.normalize target = target ∧ (Path.isAbsolute dir = true → Path.isAbsolute target = true) := by
  -- Whatever the manifest declares, the entry is normalized in the directory of the package.
  unfold entryFile? at h
  simp only [Option.ite_none_right_eq_some, Option.some.injEq] at h
  obtain ⟨-, rfl⟩ := h
  refine ⟨Path.normalize_normalize _, fun hdir => ?_⟩
  rw [Path.isAbsolute_normalize]
  exact Path.isAbsolute_join_of_base hdir _

theorem isAbsolute_importerDir (h : Path.isAbsolute name = true) :
    Path.isAbsolute (importerDir name) = true := by
  unfold importerDir
  cases hparent : Path.parent? name with
  | none => rfl
  | some dir => exact Path.isAbsolute_parent h hparent

theorem normal_of_mem_targets {typeRoots : List String} {file : LoadedFile}
    (hmem : target ∈ targets fs typeRoots file) :
    Path.normalize target = target ∧ (Path.isAbsolute file.source.name = true →
      (∀ root ∈ typeRoots, Path.isAbsolute root = true) → Path.isAbsolute target = true) := by
  rcases List.mem_append.mp hmem with hmem | hmem
  · obtain ⟨reference, -, htarget⟩ := List.mem_filterMap.mp hmem
    cases reference with
    | path path =>
      simp only [referenceTarget?] at htarget
      split at htarget
      · cases htarget
        refine ⟨Path.normalize_normalize _, fun hname _ => ?_⟩
        rw [Path.isAbsolute_normalize]
        exact Path.isAbsolute_join_of_base (isAbsolute_importerDir hname) path
      · cases htarget
    | types package =>
      obtain ⟨root, hroot, hentry⟩ := List.exists_of_findSome?_eq_some htarget
      obtain ⟨hnormal, habsolute⟩ := normal_of_entryFile hentry
      exact ⟨hnormal, fun _ hroots => habsolute (Path.isAbsolute_join_of_base (hroots root hroot) package)⟩
  · obtain ⟨import_, -, htarget⟩ := List.mem_filterMap.mp hmem
    unfold importTarget? at htarget
    split at htarget
    · rename_i hresolve
      cases htarget
      unfold resolveImport? at hresolve
      split at hresolve
      · obtain ⟨hnormal, habsolute⟩ := normal_of_resolveRelative hresolve
        exact ⟨hnormal, fun hname _ => habsolute (isAbsolute_importerDir hname)⟩
      · cases hresolve
    · cases htarget

-- ---------------------------------------------------------------------------
-- Declaration packages
-- ---------------------------------------------------------------------------

theorem isAbsolute_of_mem_rootNames {roots : List String} (h : ∀ root ∈ roots, Path.isAbsolute root = true) :
    ∀ root ∈ roots.map Path.normalize, Path.isAbsolute root = true := by
  simpa [Path.isAbsolute_normalize] using h

theorem isAbsolute_of_mem_typeRoots {files : List String}
    (h : ∀ file ∈ files, Path.isAbsolute file = true) (hmem : root ∈ typeRoots fs files) :
    Path.isAbsolute root = true := by
  obtain ⟨⟨file, hfile, dir, hdir, rfl⟩, -⟩ := mem_typeRoots.mp hmem
  have habsolute := Path.isAbsolute_of_mem_ancestors (h file hfile) (List.mem_of_mem_drop hdir)
  exact Path.isAbsolute_join_of_base (Path.isAbsolute_join_of_base habsolute _) _

theorem normal_of_mem_typeEntries {roots : List String} (hmem : target ∈ typeEntries fs roots types) :
    Path.normalize target = target ∧
      ((∀ root ∈ roots, Path.isAbsolute root = true) → Path.isAbsolute target = true) := by
  obtain ⟨entry, hentry, rfl⟩ := List.mem_map.mp hmem
  obtain ⟨-, before, root, after, rfl, -, hpackage, -⟩ := mem_entriesAcross.mp hentry
  obtain ⟨hnormal, habsolute⟩ := normal_of_entryFile hpackage
  exact ⟨hnormal, fun hroots => habsolute (Path.isAbsolute_join_of_base (hroots root (by simp)) _)⟩

end TsBuild.Program
