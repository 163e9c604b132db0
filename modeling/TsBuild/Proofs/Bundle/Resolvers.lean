import TsBuild.Bundle.ScriptPlugin
import TsBuild.Proofs.Path.LastPiece
import TsBuild.Proofs.Program.Names

/-!
# Two ways to resolve an import

A relative import of a script is resolved once for the bundle and once for the program. Both try scripts next
to a location and then its `index` scripts. For the bundle an extension is added to the specifier as it is
written, for the program to its normal form (`resolveImport_eq`, `resolveRelative_eq`). So they agree on a
specifier whose last piece is a plain name (`resolveRelative_of_plain`), but a specifier that ends in a slash,
in `.` or in `..` means the directory alone in the bundle, and a script next to it first in the program.
-/

namespace TsBuild.Bundle

open TsBuild.Path (NormalStack IsName IsEnding lead spell)
open TsBuild.Program (sourceExtensions compiledExtensions withoutCompiledExtension)

variable {fs : FileSystem} {cwd importer specifier path stem index base : String}

def location (importer specifier : String) : String :=
  Path.normalize (Path.join (Program.importerDir (Path.normalize importer)) specifier)

def scripts (stem : String) : List String := Path.scriptExtensions.map (stem ++ ·)

def sources (stem : String) : List String := sourceExtensions.map (stem ++ ·)

theorem sources_eq (stem : String) : sources stem = scripts stem ++ [stem ++ ".d.ts"] := rfl

-- ---------------------------------------------------------------------------
-- Specifiers
-- ---------------------------------------------------------------------------

def barePieces : List String :=
  ["", ".", ".."] ++ [".ts", ".tsx", ".json", ".js", ".jsx", ".mjs", ".cjs"]

/-- A specifier is plain if its last piece names a file without extension. -/
def IsPlain (specifier : String) : Prop :=
  Text.lastPiece '/' specifier.toList ∉ barePieces.map String.toList

instance (specifier : String) : Decidable (IsPlain specifier) :=
  inferInstanceAs (Decidable (_ ∉ _))

theorem IsPlain.isName (h : IsPlain specifier) : IsName (Text.lastPiece '/' specifier.toList) := by
  obtain ⟨before, -, -, hslash⟩ := Text.exists_lastPiece '/' specifier.toList
  refine ⟨fun heq => h ?_, fun heq => h ?_, fun heq => h ?_, hslash⟩ <;> rw [heq] <;> decide

theorem isAbsolute_of_isRelative (h : Program.isRelative specifier = true) :
    Path.isAbsolute specifier = false := by
  have hdot : specifier.toList.head? = some '.' := by
    simp only [Program.isRelative, Path.hasStart, Bool.or_eq_true, Text.startsWith_iff, beq_iff_eq] at h
    obtain ((⟨rest, hrest⟩ | ⟨rest, hrest⟩) | rfl) | rfl := h
    · rw [← hrest]
      rfl
    · rw [← hrest]
      rfl
    · rfl
    · rfl
  rw [Path.isAbsolute, hdot]
  rfl

theorem dir_eq (habsolute : Path.isAbsolute importer = true) (hscript : Path.isScript importer = true)
    (cwd : String) :
    (Path.parent? (Path.absolutize importer cwd)).getD cwd =
      Program.importerDir (Path.normalize importer) := by
  obtain ⟨name, hname⟩ := Path.fileName_of_isScript hscript
  obtain ⟨dir, hdir⟩ := Option.isSome_iff_exists.mp (Path.parent_isSome_of_fileName hname)
  rw [Path.absolutize, if_pos habsolute, Program.importerDir, hdir]
  rfl

-- ---------------------------------------------------------------------------
-- Candidates
-- ---------------------------------------------------------------------------

/-- What an extension is added to for the bundle: the specifier as it is written. -/
def written (holder : List Path.Component) (specifier : String) : String :=
  String.ofList (lead holder ++ Text.lastPiece '/' specifier.toList)

def indexOf (dir : String) : String := Path.join dir "index"

theorem isEnding_of_mem_script : ∀ extension ∈ Path.scriptExtensions, IsEnding extension.toList := by decide

theorem join_append {name ending : String} (hname : Path.isAbsolute name = false)
    (hending : Path.isAbsolute (name ++ ending) = false) (base : String) :
    Path.join base name ++ ending = Path.join base (name ++ ending) := by
  rw [← String.toList_inj, String.toList_append, Path.toList_join _ hname, Path.toList_join _ hending]
  split <;> simp [String.toList_append]

theorem indexOf_append {extension : String} (h : IsEnding extension.toList) (dir : String) :
    indexOf dir ++ extension = Path.join dir ("index" ++ extension) ∧
      IsName ("index" ++ extension).toList := by
  have hname : IsName ("index" ++ extension).toList := by
    rw [String.toList_append]
    exact h.isName (by decide)
  exact ⟨join_append (by decide) (Path.isAbsolute_of_isName hname) dir, hname⟩

theorem conditions_of_resolveImport (h : resolveImport? fs cwd specifier (some importer) = some path) :
    Path.extensionOf? specifier = none ∧ Path.isScript importer = true := by
  rw [resolveImport?, Option.bind_eq_bind, Option.bind_some, Option.bind_eq_bind, Option.bind_eq_some_iff] at h
  obtain ⟨_, hguard, -⟩ := h
  simpa using (Option.guard_eq_some' _).mp hguard

/-- For the bundle, the scripts of the specifier as it is written are tried, then the `index` scripts of the
directory. -/
theorem resolveImport_eq (habsolute : Path.isAbsolute importer = true)
    (hscript : Path.isScript importer = true) (hrelative : Path.isAbsolute specifier = false)
    (hextension : Path.extensionOf? specifier = none)
    (hholder : Path.IsHolder (Program.importerDir (Path.normalize importer)) specifier holder) :
    resolveImport? fs cwd specifier (some importer) =
      (scripts (written holder specifier) ++ scripts (indexOf (location importer specifier))).find? fs.isFile := by
  have hwritten : probe? fs (Program.importerDir (Path.normalize importer)) specifier =
      (scripts (written holder specifier)).find? fs.isFile := by
    refine congrArg (List.find? fs.isFile) (List.map_congr_left fun extension hmem => ?_)
    rw [Path.absolutize_eq]
    exact hholder.normalize_eq extension (isEnding_of_mem_script extension hmem)
  have hindex : probe? fs (Program.importerDir (Path.normalize importer)) (indexOf specifier) =
      (scripts (indexOf (location importer specifier))).find? fs.isFile := by
    refine congrArg (List.find? fs.isFile) (List.map_congr_left fun extension hmem => ?_)
    have hending := isEnding_of_mem_script extension hmem
    obtain ⟨hspecifier, hname⟩ := indexOf_append hending specifier
    rw [Path.absolutize_eq, hspecifier, Path.normalize_join_join _ hrelative hname,
      (indexOf_append hending _).1]
    rfl
  have hcondition : ((Path.extensionOf? specifier).isNone && Path.isScript importer) = true := by
    rw [hextension, hscript]
    rfl
  rw [resolveImport?, Option.bind_eq_bind, Option.bind_some, Option.bind_eq_bind,
    (Option.guard_eq_some' ()).mpr hcondition, Option.bind_some, dir_eq habsolute hscript, List.find?_append,
    ← hwritten, ← hindex]
  exact Option.orElse_eq_or

theorem toList_indexOf (habsolute : Path.isAbsolute base = true) (hnormal : Path.normalize base = base) :
    (indexOf base).toList = (String.ofList (Text.trimEnd (· = '/') base.toList) ++ "/index").toList := by
  obtain ⟨stack, hstack, rfl⟩ := Path.exists_spell hnormal
  have hne : stack ≠ [] := List.ne_nil_of_mem ((Path.isAbsolute_spell hstack).mp habsolute)
  rw [indexOf, Path.toList_join_spell hstack (by decide), Program.index_eq hstack, if_neg hne]

/-- For the program, the sources of the location are tried without the extension of a compiled script, then
the `index` sources of the directory. -/
theorem candidates_eq (habsolute : Path.isAbsolute base = true) (hnormal : Path.normalize base = base) :
    Program.candidates base = sources (withoutCompiledExtension base) ++ sources (indexOf base) := by
  rw [Program.candidates, ← String.toList_inj.mp (toList_indexOf habsolute hnormal)]
  simp [sources]

def IsTaken (fs : FileSystem) (base : String) : Prop :=
  fs.isFile base = true ∧ ∃ ending ∈ sourceExtensions ++ [".json"], Path.hasEnding ending base = true

theorem not_isTaken_iff : ¬ IsTaken fs base ↔
    (sourceExtensions.any (Path.hasEnding · base) && fs.isFile base) = false ∧
      (Path.hasEnding ".json" base && fs.isFile base) = false := by
  unfold IsTaken
  cases hfile : fs.isFile base with
  | false => simp
  | true => simp

theorem resolveRelative_eq_some_iff (fs : FileSystem) (habsolute : Path.isAbsolute importer = true)
    (hpath : path ≠ location importer specifier) :
    Program.resolveRelative? fs (Program.importerDir (Path.normalize importer)) specifier =
        some (.source path) ↔
      ¬ IsTaken fs (location importer specifier) ∧
        (sources (withoutCompiledExtension (location importer specifier)) ++
          sources (indexOf (location importer specifier))).find? fs.isFile = some path := by
  have hlocation : Path.isAbsolute (location importer specifier) = true := by
    rw [location, Path.isAbsolute_normalize]
    refine Path.isAbsolute_join_of_base (Program.isAbsolute_importerDir ?_) specifier
    exact (Path.isAbsolute_normalize importer).trans habsolute
  have hresolve : Program.resolveRelative? fs (Program.importerDir (Path.normalize importer)) specifier =
      if sourceExtensions.any (Path.hasEnding · (location importer specifier)) &&
          fs.isFile (location importer specifier) then some (.source (location importer specifier))
      else if Path.hasEnding ".json" (location importer specifier) &&
          fs.isFile (location importer specifier) then some .asset
      else ((Program.candidates (location importer specifier)).find? fs.isFile).map .source := rfl
  rw [not_isTaken_iff, hresolve, candidates_eq hlocation (Path.normalize_normalize _)]
  split
  · rename_i htaken
    simp [htaken, Ne.symm hpath]
  · rename_i hsource
    split
    · rename_i htaken
      simp [htaken]
    · rename_i hasset
      simp [hsource, hasset]

-- ---------------------------------------------------------------------------
-- Candidates compared
-- ---------------------------------------------------------------------------

theorem mem_scripts : path ∈ scripts stem ↔ path = stem ++ ".ts" ∨ path = stem ++ ".tsx" := by
  simp [scripts, Path.scriptExtensions]

theorem append_ts_ne_append_tsx (stem other : String) : stem ++ ".ts" ≠ other ++ ".tsx" := by
  intro h
  have hlast := congrArg (fun text : String => text.toList.getLast?) h
  simp [String.toList_append, List.getLast?_append] at hlast

theorem eq_of_mem_scripts (h : path ∈ scripts stem) (hother : path ∈ scripts other) : stem = other := by
  rw [mem_scripts] at h hother
  obtain rfl | rfl := h <;> obtain heq | heq := hother
  · exact (String.append_left_inj _).mp heq
  · exact absurd heq (append_ts_ne_append_tsx _ _)
  · exact absurd heq.symm (append_ts_ne_append_tsx _ _)
  · exact (String.append_left_inj _).mp heq

theorem eq_append_of_mem_scripts (h : path ∈ scripts stem) (hdeclaration : path = other ++ ".d.ts") :
    stem = other ++ ".d" := by
  have hstem : path = (other ++ ".d") ++ ".ts" := by rw [hdeclaration, String.append_assoc]; rfl
  exact eq_of_mem_scripts h (mem_scripts.mpr (.inl hstem))

/-- Without declaration files, the sources of two stems are searched as their scripts are. -/
theorem find_sources (hstem : fs.isFile (stem ++ ".d.ts") = false)
    (hindex : fs.isFile (index ++ ".d.ts") = false) :
    (sources stem ++ sources index).find? fs.isFile = (scripts stem ++ scripts index).find? fs.isFile := by
  simp [sources_eq, List.find?_append, hstem, hindex]

def located (importer specifier : String) : List Path.Component :=
  Path.folded (Path.join (Program.importerDir (Path.normalize importer)) specifier)

theorem location_eq (importer specifier : String) :
    location importer specifier = spell (located importer specifier) := rfl

theorem toList_indexOf_location (importer specifier : String) :
    (indexOf (location importer specifier)).toList = lead (located importer specifier) ++ "index".toList := by
  rw [indexOf, location_eq, located]
  exact Path.toList_join_spell (Path.normalStack_folded _) (by decide)

section
variable {holder : List Path.Component}
  (hholder : Path.IsHolder (Program.importerDir (Path.normalize importer)) specifier holder)
include hholder

theorem ne_of_mem_scripts (hstem : stem = written holder specifier ∨
      stem = indexOf (location importer specifier))
    (hpath : path ∈ scripts stem) : path ≠ location importer specifier := by
  have hshort : (location importer specifier).toList.length ≤ stem.toList.length := by
    obtain rfl | rfl := hstem
    · obtain ⟨-, -, -, hslash⟩ := Text.exists_lastPiece '/' specifier.toList
      rw [written, String.toList_ofList, location_eq, located, hholder.folded_eq]
      exact Path.length_spell_push_le hholder.normal hslash
    · rw [toList_indexOf_location, location_eq, List.length_append]
      exact Nat.le_trans (Path.length_spell_le_lead _) (Nat.le_add_right _ _)
  intro heq
  rw [← heq] at hshort
  obtain rfl | rfl := mem_scripts.mp hpath
  all_goals
    rw [String.toList_append, List.length_append] at hshort
    exact absurd hshort (Nat.not_le.mpr (Nat.lt_add_of_pos_right (by decide)))

theorem written_eq (hname : IsName (Text.lastPiece '/' specifier.toList)) :
    written holder specifier = location importer specifier := by
  rw [location_eq, located, hholder.folded_eq, Path.ofSegment_name hname, Option.toList_some,
    List.foldl_cons, List.foldl_nil, Path.push, Path.spell_name hholder.normal hname, written]

theorem ne_append_declaration (hstem : stem = written holder specifier ∨
      stem = indexOf (location importer specifier)) :
    stem ≠ withoutCompiledExtension (location importer specifier) ++ ".d" := by
  intro heq
  have htext := congrArg String.toList heq
  rw [String.toList_append] at htext
  obtain rfl | rfl := hstem
  · -- A piece that ends in `.d` is a name, so the location ends in `.d`, and is its own stem.
    have hpiece := htext
    rw [written, String.toList_ofList] at hpiece
    obtain ⟨shorter, hshorter, -⟩ :=
      Text.exists_append_of_piece (Path.isLead_lead holder) (by decide) hpiece
    obtain ⟨-, -, -, hslash⟩ := Text.exists_lastPiece '/' specifier.toList
    have hname : IsName (Text.lastPiece '/' specifier.toList) := by
      have hlast := congrArg List.getLast? hshorter
      refine ⟨?_, ?_, ?_, hslash⟩ <;>
      · intro hpiece
        rw [hpiece, List.getLast?_append] at hlast
        simp at hlast
    rw [written_eq hholder hname] at htext
    obtain ⟨hstem, -⟩ | ⟨extension, hextension, hstem⟩ :=
      Program.withoutCompiledExtension_cases (location importer specifier)
    · rw [hstem] at htext
      simpa using congrArg List.length htext
    · rw [hstem, List.append_cancel_left_eq] at htext
      rw [String.toList_inj.mp htext] at hextension
      exact absurd hextension (by decide)
  · rw [toList_indexOf_location] at htext
    have hlast := congrArg List.getLast? htext
    simp [List.getLast?_append] at hlast

/-- A plain specifier without extension ends in no extension that resolution knows. -/
theorem not_suffix_of_plain (hplain : IsPlain specifier) (hextension : Path.extensionOf? specifier = none)
    (ending : String) (hmem : ending ∈ sourceExtensions ++ [".json"] ++ compiledExtensions) :
    ¬ ending.toList <:+ (location importer specifier).toList := by
  obtain ⟨hslash, hdot, hbare⟩ : '/' ∉ ending.toList ∧ '.' ∈ ending.toList ∧
      (ending.toList ∈ barePieces.map String.toList ∨ '.' ∈ ending.toList.drop 1) := by
    revert ending
    decide
  have hnodot := Path.dot_notMem_of_extensionOf hextension (Path.fileName_of_isName hplain.isName)
  rintro ⟨rest, hrest⟩
  rw [← written_eq hholder hplain.isName, written, String.toList_ofList] at hrest
  obtain ⟨shorter, hpiece, -⟩ := Text.exists_append_of_piece (Path.isLead_lead holder) hslash hrest.symm
  rw [IsPlain, hpiece] at hplain
  rw [hpiece] at hnodot
  cases shorter with
  | nil => exact hbare.elim hplain hnodot
  | cons c cs => exact hnodot (List.mem_append_right _ hdot)

theorem stem_of_plain (fs : FileSystem) (hplain : IsPlain specifier) (hextension : Path.extensionOf? specifier = none) :
    withoutCompiledExtension (location importer specifier) =
        location importer specifier ∧
      ¬ IsTaken fs (location importer specifier) := by
  have hsuffix := not_suffix_of_plain hholder hplain hextension
  constructor
  · obtain ⟨hstem, -⟩ | ⟨extension, hmem, hstem⟩ :=
      Program.withoutCompiledExtension_cases (location importer specifier)
    · exact hstem
    · exact absurd ⟨_, hstem.symm⟩ (hsuffix extension (List.mem_append_right _ hmem))
  · rintro ⟨-, ending, hmem, hending⟩
    exact hsuffix ending (List.mem_append_left _ hmem) (Text.endsWith_iff.mp hending)

end

-- ---------------------------------------------------------------------------
-- Agreement
-- ---------------------------------------------------------------------------

/-- What the program finds for a specifier, where the bundle finds a script: the script, if it is one of the
scripts next to the location, or one of its `index` scripts and no source stands next to the location. -/
theorem find_sources_iff (hfound : (scripts tried).find? fs.isFile = some path)
    (hdeclaration : tried ≠ stem ++ ".d") (hindex : fs.isFile (index ++ ".d.ts") = false) :
    (sources stem ++ sources index).find? fs.isFile = some path ↔
      path ∈ scripts stem ∨ path ∈ scripts index ∧ ∀ source ∈ sources stem, fs.isFile source = false := by
  have hpath : path ∈ scripts tried := List.mem_of_find?_eq_some hfound
  have hfile : fs.isFile path = true := List.find?_some hfound
  rw [List.find?_append, Option.or_eq_some_iff]
  constructor
  · rintro (hnext | ⟨hnone, hindexed⟩)
    · have hmem := List.mem_of_find?_eq_some hnext
      rw [sources_eq, List.mem_append, List.mem_singleton] at hmem
      rcases hmem with hmem | rfl
      · exact .inl hmem
      · exact absurd (eq_append_of_mem_scripts hpath rfl) hdeclaration
    · have hmem := List.mem_of_find?_eq_some hindexed
      rw [sources_eq, List.mem_append, List.mem_singleton] at hmem
      rcases hmem with hmem | rfl
      · exact .inr ⟨hmem, by simpa using hnone⟩
      · rw [hindex] at hfile
        cases hfile
  · have hfirst : ∀ {other}, path ∈ scripts other → (sources other).find? fs.isFile = some path := by
      intro other hmem
      rw [sources_eq, List.find?_append, eq_of_mem_scripts hmem hpath, hfound]
      rfl
    rintro (hmem | ⟨hmem, hnone⟩)
    · exact .inl (hfirst hmem)
    · exact .inr ⟨by simpa using hnone, hfirst hmem⟩

/-- An import of a script that the bundle resolves. If its last piece is a plain name, the program resolves it to
the same script. In general the program does so exactly if no file is taken at the location itself, and the
script is next to the location, or it is an `index` script and no source is next to the location. -/
theorem resolvers_agree_iff (fs : FileSystem) (cwd : String) (habsolute : Path.isAbsolute importer = true)
    (hrelative : Program.isRelative specifier = true)
    (hdeclaration : fs.isFile (location importer specifier ++ ".d.ts") = false)
    (hindex : fs.isFile (indexOf (location importer specifier) ++ ".d.ts") = false)
    (hfound : resolveImport? fs cwd specifier (some importer) = some path) :
    let base := location importer specifier
    let stem := withoutCompiledExtension base
    let found := Program.resolveRelative? fs (Program.importerDir (Path.normalize importer)) specifier
    (IsPlain specifier → found = some (.source path)) ∧
    (found = some (.source path) ↔
      ¬ IsTaken fs base ∧ (path ∈ scripts stem ∨
        path ∈ scripts (indexOf base) ∧ ∀ source ∈ sources stem, fs.isFile source = false)) := by
  intro base stem found
  obtain ⟨hextension, hscript⟩ := conditions_of_resolveImport hfound
  obtain ⟨holder, hholder⟩ := Path.exists_holder (Program.importerDir (Path.normalize importer))
    (isAbsolute_of_isRelative hrelative)
  rw [resolveImport_eq habsolute hscript (isAbsolute_of_isRelative hrelative) hextension hholder] at hfound
  obtain ⟨tried, htried, hscripts⟩ : ∃ tried, (tried = written holder specifier ∨ tried = indexOf base) ∧
      (scripts tried).find? fs.isFile = some path := by
    rw [List.find?_append, Option.or_eq_some_iff] at hfound
    rcases hfound with hwritten | ⟨-, hindexed⟩
    · exact ⟨_, .inl rfl, hwritten⟩
    · exact ⟨_, .inr rfl, hindexed⟩
  have hne := ne_of_mem_scripts hholder htried (List.mem_of_find?_eq_some hscripts)
  have hsome := resolveRelative_eq_some_iff fs habsolute hne
  constructor
  · intro hplain
    obtain ⟨hstem, htaken⟩ := stem_of_plain hholder fs hplain hextension
    refine hsome.mpr ⟨htaken, ?_⟩
    rw [written_eq hholder hplain.isName] at hfound
    rw [hstem, find_sources hdeclaration hindex]
    exact hfound
  · exact hsome.trans (and_congr_right fun _ =>
      find_sources_iff hscripts (ne_append_declaration hholder htried) hindex)

def besides : FileSystem where
  root := .dir [("w", .dir [("a.ts", .file (some "")), ("a", .dir [("index.ts", .file (some ""))])])]
  cwd := "/"

/-- The name of the script alone means the script in both. -/
theorem resolvers_agree_iff_besides :
    resolveImport? besides "/w" "./a" (some "/w/main.ts") = some "/w/a.ts" ∧
      Program.resolveRelative? besides (Program.importerDir (Path.normalize "/w/main.ts")) "./a" =
        some (.source "/w/a.ts") := by
  have hfound : resolveImport? besides "/w" "./a" (some "/w/main.ts") = some "/w/a.ts" := by decide +kernel
  have hagree := resolvers_agree_iff besides "/w" (by decide) (by decide) (by decide +kernel)
    (by decide +kernel) hfound
  exact ⟨hfound, hagree.1 (by decide)⟩

/-- With a slash behind it the name means the directory in the bundle, and still the script in the program. -/
theorem resolvers_differ :
    ¬ ∀ (fs : FileSystem) (cwd importer specifier path : String), Path.isAbsolute importer = true →
      Program.isRelative specifier = true →
      fs.isFile (location importer specifier ++ ".d.ts") = false →
      fs.isFile (indexOf (location importer specifier) ++ ".d.ts") = false →
      resolveImport? fs cwd specifier (some importer) = some path →
      Program.resolveRelative? fs (Program.importerDir (Path.normalize importer)) specifier =
        some (.source path) := by
  intro hagree
  have hsame := hagree besides "/w" "/w/main.ts" "./a/" "/w/a/index.ts" (by decide) (by decide)
    (by decide +kernel) (by decide +kernel) (by decide +kernel)
  exact absurd hsame (by decide +kernel)

end TsBuild.Bundle
