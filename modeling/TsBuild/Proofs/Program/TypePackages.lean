import Mathlib.Data.List.Basic
import TsBuild.Proofs.FileTree.Places
import TsBuild.Proofs.Path.LastPiece
import TsBuild.Proofs.Program.Names
import TsBuild.Proofs.Program.TypeRoots

/-!
# The nearest declaration packages

The type roots of a program are the directories of declaration packages above its roots, nearest first, each where it
is met first (`typeRoots_eq_eraseDups`), and no two of them are one place (`pairwise_typeRoots`). A package that has an
entry in a type root is a directory of it (`exists_dir_of_entryFile`), so the entries can be told by name alone:
under each name that is looked for there is the entry of the first type root that has one (`typeEntries_nearest`).
-/

namespace TsBuild.Program

open TsBuild.Path (IsName)

variable {fs : FileSystem} {types : Option (List String)} {entries : List (String × FileTree)}
  {roots files : List String} {root dir other name file entry : String}

-- ---------------------------------------------------------------------------
-- First occurrences
-- ---------------------------------------------------------------------------

theorem nodup_eraseDups : (names : List String) → names.eraseDups.Nodup
  | [] => .nil
  | name :: rest => by
    have hlength := List.length_filter_le (fun other => !other == name) rest
    rw [List.eraseDups_cons, List.nodup_cons]
    exact ⟨fun hmem => by simp at hmem, nodup_eraseDups _⟩
termination_by names => names.length
decreasing_by exact Nat.lt_succ_of_le hlength

/-- Where nothing falls together, duplicates may as well go before. -/
theorem eraseDups_filter_map {f : String → String} (p : String → Bool) :
    (names : List String) → (∀ a ∈ names, ∀ b ∈ names, f a = f b → a = b) →
      ((names.map f).filter p).eraseDups = (names.eraseDups.map f).filter p
  | [], _ => rfl
  | name :: rest, hinj => by
    have hlength := List.length_filter_le (fun other => !other == name) rest
    have hrest : ∀ other ∈ rest.filter (fun other => !other == name), other ∈ name :: rest := fun other hmem =>
      List.mem_cons_of_mem _ (List.mem_filter.mp hmem).1
    have ih := eraseDups_filter_map p (rest.filter fun other => !other == name) fun a ha b hb =>
      hinj a (hrest a ha) b (hrest b hb)
    have hothers : (rest.filter fun other => !other == name).map f =
        (rest.map f).filter fun other => !other == f name := by
      rw [List.filter_map]
      refine congrArg _ (List.filter_congr fun other hother => ?_)
      have hiff : f other = f name ↔ other = name :=
        ⟨hinj other (List.mem_cons_of_mem _ hother) name List.mem_cons_self, congrArg f⟩
      simp [hiff]
    rw [hothers] at ih
    rw [List.map_cons, List.eraseDups_cons, List.map_cons]
    by_cases hp : p (f name) = true
    · rw [List.filter_cons_of_pos hp, List.filter_cons_of_pos hp, List.eraseDups_cons, ← ih, List.filter_filter,
        List.filter_filter]
      simp only [Bool.and_comm]
    · -- what falls together with the first name is passed over with it
      have hkept : ((rest.map f).filter fun other => !other == f name).filter p = (rest.map f).filter p := by
        rw [List.filter_filter]
        refine List.filter_congr fun other _ => ?_
        by_cases hother : other = f name
        · simp [hother, hp]
        · simp [hother]
      rw [List.filter_cons_of_neg hp, List.filter_cons_of_neg hp, ← ih, hkept]
termination_by names => names.length
decreasing_by exact Nat.lt_succ_of_le hlength

-- ---------------------------------------------------------------------------
-- Type roots
-- ---------------------------------------------------------------------------

theorem folded_typeRootOf (dir : String) : Path.folded (typeRootOf dir) =
    .name typesDir.toList :: .name Path.dependencyDir.toList :: Path.folded dir := by
  have htypes : IsName typesDir.toList := by simp [IsName, typesDir]
  have hmodules : IsName Path.dependencyDir.toList := by simp [IsName, Path.dependencyDir]
  rw [typeRootOf, Path.folded_join_name htypes, Path.folded_join_name hmodules]

theorem typeRootOf_inj (hdir : Path.normalize dir = dir) (hother : Path.normalize other = other)
    (h : Path.normalize (typeRootOf dir) = Path.normalize (typeRootOf other)) : dir = other := by
  rw [Path.normalize_eq_iff, folded_typeRootOf, folded_typeRootOf] at h
  have hfolded := (List.cons.inj (List.cons.inj h).2).2
  rw [← hdir, ← hother, Path.normalize_eq_iff, hfolded]

section
variable (h : ∀ file ∈ files, Path.normalize file = file)
include h

theorem normal_of_mem_above (hmem : dir ∈ files.flatMap above) : Path.normalize dir = dir := by
  obtain ⟨file, hfile, habove⟩ := List.mem_flatMap.mp hmem
  exact Path.normal_of_mem_ancestors (h file hfile) (List.mem_of_mem_drop habove)

theorem typeRoots_eq_eraseDups (fs : FileSystem) :
    typeRoots fs files = (((files.flatMap above).map typeRootOf).filter fs.isDir).eraseDups := by
  rw [typeRoots_eq, eraseDups_filter_map]
  intro dir hdir other hother heq
  exact typeRootOf_inj (normal_of_mem_above h hdir) (normal_of_mem_above h hother) (congrArg _ heq)

theorem pairwise_typeRoots (fs : FileSystem) : (typeRoots fs files).Pairwise fun root other =>
    ∀ place, fs.Leads root place → ¬ fs.Leads other place := by
  have hdirs : (files.flatMap above).eraseDups.Pairwise (· ≠ ·) := nodup_eraseDups _
  rw [typeRoots_eq]
  refine (List.pairwise_map.mpr (hdirs.imp_of_mem ?_)).filter _
  intro dir other hdir hother hne place hplace hplace'
  rw [List.mem_eraseDups] at hdir hother
  exact hne (typeRootOf_inj (normal_of_mem_above h hdir) (normal_of_mem_above h hother)
    ((FileSystem.place_eq_iff hplace hplace').mp rfl))

end

theorem isDir_of_mem_typeRoots (hmem : root ∈ typeRoots fs files) : fs.isDir root = true := (List.mem_filter.mp hmem).2

-- ---------------------------------------------------------------------------
-- Packages
-- ---------------------------------------------------------------------------

theorem mem_packageNames : name ∈ packageNames fs root ↔
    ∃ entries below, fs.resolve root = .ok (.dir entries) ∧ (name, .dir below) ∈ entries := by
  unfold packageNames
  split
  · rename_i entries hroot
    rw [List.mem_mergeSort, List.mem_map]
    constructor
    · rintro ⟨⟨other, node⟩, hmem, rfl⟩
      obtain ⟨hmem, hdir⟩ := List.mem_filter.mp hmem
      cases node with
      | file => cases hdir
      | dir below => exact ⟨entries, below, hroot, hmem⟩
    · rintro ⟨others, below, hothers, hmem⟩
      cases hroot.symm.trans hothers
      exact ⟨(name, .dir below), List.mem_filter.mpr ⟨hmem, rfl⟩, rfl⟩
  · rename_i hroot
    simp only [List.not_mem_nil, false_iff, not_exists, not_and]
    exact fun entries _ hdir => absurd hdir (hroot entries)

theorem exists_dir_of_below (habsolute : Path.isAbsolute root = true) (hroot : fs.resolve root = .ok (.dir entries))
    (hname : IsName name.toList) (hfile : IsName file.toList)
    (h : fs.resolve (Path.normalize (Path.join (Path.join root name) file)) = .ok node) :
    ∃ below, entries.lookup name = some (.dir below) := by
  have hpath : Path.isAbsolute (Path.normalize (Path.join (Path.join root name) file)) = true := by
    rw [Path.isAbsolute_normalize]
    exact Path.isAbsolute_join_of_base (Path.isAbsolute_join_of_base habsolute name) file
  obtain ⟨-, place, hplace, hdir⟩ := (FileSystem.resolve_iff habsolute).mp hroot
  obtain ⟨-, last, hlast, hnode⟩ := (FileSystem.resolve_iff hpath).mp h
  have hstack : FileTree.stackOf last = FileTree.stackOf (place ++ [name] ++ [file]) := by
    rw [← FileSystem.folded_of_leads hlast, Path.folded_normalize, Path.folded_join_name hfile,
      Path.folded_join_name hname, FileSystem.folded_of_leads hplace]
    simp [FileTree.stackOf]
  rw [FileTree.stackOf_inj.mp hstack] at hnode
  obtain ⟨below, -, hbelow, -⟩ := FileTree.exists_entry hnode
  obtain ⟨others, next, hothers, hentry⟩ := FileTree.exists_entry hbelow
  cases hdir.symm.trans hothers
  rw [FileTree.at_entry hdir hentry, Option.some.injEq] at hbelow
  exact ⟨below, hbelow ▸ hentry⟩

/-- A package that has an entry in a type root is a directory of it. -/
theorem exists_dir_of_entryFile (habsolute : Path.isAbsolute root = true)
    (hroot : fs.resolve root = .ok (.dir entries)) (hname : IsName name.toList)
    (h : entryFile? fs (Path.join root name) = some entry) : ∃ below, entries.lookup name = some (.dir below) := by
  have hmanifest : Path.isAbsolute (Path.join (Path.join root name) "package.json") = true :=
    Path.isAbsolute_join_of_base (Path.isAbsolute_join_of_base habsolute name) _
  cases hread : fs.readText (Path.join (Path.join root name) "package.json") with
  | ok text =>
    -- The manifest may lead anywhere, but it is in the package itself.
    have hresolve := FileSystem.resolve_normalize hmanifest (FileSystem.resolve_of_readText hread)
    exact exists_dir_of_below habsolute hroot hname (by simp [IsName]) hresolve
  | error error =>
    have hindex : fs.isFile (Path.normalize (Path.join (Path.join root name) "index.d.ts")) = true := by
      simp only [entryFile?, hread, Option.ite_none_right_eq_some] at h
      exact h.1
    unfold FileSystem.isFile at hindex
    split at hindex
    · rename_i hresolve
      exact exists_dir_of_below habsolute hroot hname (by simp [IsName]) hresolve
    · cases hindex

-- ---------------------------------------------------------------------------
-- The order of entries
-- ---------------------------------------------------------------------------

def hasEntry (fs : FileSystem) (root name : String) : Bool := (entryFile? fs (Path.join root name)).isSome

def namesMet (fs : FileSystem) (roots : List String) (types : Option (List String)) : List String :=
  roots.flatMap fun root => (types.getD (packageNames fs root)).filter (hasEntry fs root)

theorem notMem_keys_iff {found : List (String × String)} : name ∉ found.map Prod.fst ↔ found.lookup name = none := by
  rw [List.lookup_eq_none_iff, List.mem_map, not_exists]
  refine forall_congr' fun entry => ?_
  rw [not_and, bne_iff_ne, ne_comm]

theorem map_fst_entriesIn (fs : FileSystem) (root : String) (found : List (String × String)) (names : List String) :
    (entriesIn fs root found names).map Prod.fst =
      ((names.filter (hasEntry fs root)).filter fun name => name ∉ found.map Prod.fst).eraseDups := by
  induction names generalizing found with
  | nil => rfl
  | cons name rest ih =>
    rw [entriesIn]
    split
    · rename_i hnone
      rw [ih]
      by_cases hhas : hasEntry fs root name = true
      · have hold : name ∈ found.map Prod.fst := by
          by_contra hnew
          rw [notMem_keys_iff.mp hnew, if_neg (by simp)] at hnone
          simp [hasEntry, hnone] at hhas
        rw [List.filter_cons_of_pos hhas, List.filter_cons_of_neg (by simpa using hold)]
      · rw [List.filter_cons_of_neg hhas]
    · rename_i entry hentry
      obtain ⟨hnew, hentry⟩ := Option.ite_none_left_eq_some.mp hentry
      have hhas : hasEntry fs root name = true := by simp [hasEntry, hentry]
      have hfresh : name ∉ found.map Prod.fst := notMem_keys_iff.mpr (Option.not_isSome_iff_eq_none.mp hnew)
      have hothers : (rest.filter (hasEntry fs root)).filter (fun other => other ∉ name :: found.map Prod.fst) =
          ((rest.filter (hasEntry fs root)).filter fun other => other ∉ found.map Prod.fst).filter
            fun other => !other == name := by
        rw [List.filter_filter (p := fun other => !other == name)]
        refine List.filter_congr fun other _ => ?_
        rw [Bool.eq_iff_iff]
        simp [not_or]
      rw [List.filter_cons_of_pos hhas, List.filter_cons_of_pos (by simpa using hfresh), List.eraseDups_cons,
        List.map_cons, ih, List.map_cons, hothers]

theorem map_fst_entriesAcross (found : List (String × String)) (roots : List String) :
    (entriesAcross fs types found roots).map Prod.fst =
      ((namesMet fs roots types).filter fun name => name ∉ found.map Prod.fst).eraseDups := by
  induction roots generalizing found with
  | nil => rfl
  | cons root rest ih =>
    have hkeys := map_fst_entriesIn fs root found (types.getD (packageNames fs root))
    have hmet : namesMet fs (root :: rest) types =
        (types.getD (packageNames fs root)).filter (hasEntry fs root) ++ namesMet fs rest types := List.flatMap_cons
    rw [entriesAcross, List.map_append, ih, List.map_append, hkeys, hmet, List.filter_append, List.eraseDups_append,
      List.removeAll]
    generalize ((types.getD (packageNames fs root)).filter (hasEntry fs root)).filter _ = new
    -- Later on a name is new if it was before and is not new here.
    rw [List.filter_filter]
    congr 2
    refine List.filter_congr fun name _ => ?_
    rw [Bool.eq_iff_iff]
    simp [not_or]

theorem map_fst_entriesAcross_nil (fs : FileSystem) (roots : List String) (types : Option (List String)) :
    (entriesAcross fs types [] roots).map Prod.fst = (namesMet fs roots types).eraseDups := by
  rw [map_fst_entriesAcross, List.filter_eq_self.mpr (by simp)]

-- ---------------------------------------------------------------------------
-- Entries by name
-- ---------------------------------------------------------------------------

/-- The packages that are looked for: those in `types`, or else those that are directories of a type root. -/
def IsSought (fs : FileSystem) (roots : List String) (types : Option (List String)) (name : String) : Prop :=
  match types with
  | some names => name ∈ names
  | none => ∃ root ∈ roots, ∃ entries below, fs.resolve root = .ok (.dir entries) ∧ (name, .dir below) ∈ entries

def firstEntry (fs : FileSystem) (roots : List String) (name : String) : Option String :=
  roots.findSome? fun root => entryFile? fs (Path.join root name)

theorem isSought_of_mem (hroot : root ∈ roots) (hname : name ∈ types.getD (packageNames fs root)) :
    IsSought fs roots types name := by
  cases types with
  | none => exact ⟨root, hroot, mem_packageNames.mp hname⟩
  | some names => exact hname

section
variable (hproper : fs.root.IsProper) (hroots : ∀ root ∈ roots, Path.isAbsolute root = true ∧ fs.isDir root = true)
include hproper hroots

theorem IsSought.mem_of_entryFile (h : IsSought fs roots types name) (hroot : root ∈ roots)
    (hentry : entryFile? fs (Path.join root name) = some entry) : name ∈ types.getD (packageNames fs root) := by
  cases types with
  | some names => exact h
  | none =>
    obtain ⟨other, -, others, below, hother, hmem⟩ := h
    have hname : IsName name.toList :=
      ((FileTree.isProper_dir.mp (FileSystem.isProper_of_resolve hproper hother)).2 _ hmem).1
    obtain ⟨habsolute, hdir⟩ := hroots root hroot
    unfold FileSystem.isDir at hdir
    split at hdir
    · rename_i entries hresolve
      obtain ⟨below, hbelow⟩ := exists_dir_of_entryFile habsolute hresolve hname hentry
      have hdistinct := (FileTree.isProper_dir.mp (FileSystem.isProper_of_resolve hproper hresolve)).1
      exact mem_packageNames.mpr ⟨entries, below, hresolve, (Json.lookup_eq_some_iff hdistinct).mp hbelow⟩
    · cases hdir

theorem mem_entriesAcross_iff : (name, entry) ∈ entriesAcross fs types [] roots ↔
    IsSought fs roots types name ∧ firstEntry fs roots name = some entry := by
  rw [mem_entriesAcross, firstEntry, List.findSome?_eq_some_iff]
  constructor
  · rintro ⟨-, before, root, after, hsplit, hname, hentry, hbefore⟩
    have hsought : IsSought fs roots types name := isSought_of_mem (hsplit ▸ by simp) hname
    refine ⟨hsought, before, root, after, hsplit, hentry, fun other hother => ?_⟩
    cases hfound : entryFile? fs (Path.join other name) with
    | none => rfl
    | some found =>
      have hmem := hsought.mem_of_entryFile hproper hroots (hsplit ▸ by simp [hother]) hfound
      exact hfound.symm.trans (hbefore other hother hmem)
  · rintro ⟨hsought, before, root, after, hsplit, hentry, hbefore⟩
    have hname := hsought.mem_of_entryFile hproper hroots (hsplit ▸ by simp) hentry
    exact ⟨rfl, before, root, after, hsplit, hname, hentry, fun other hother _ => hbefore other hother⟩

theorem typeEntries_eq_filterMap :
    typeEntries fs roots types = (namesMet fs roots types).eraseDups.filterMap (firstEntry fs roots) := by
  rw [typeEntries, ← map_fst_entriesAcross_nil, List.filterMap_map, ← List.filterMap_eq_map]
  refine List.filterMap_congr fun named hnamed => ?_
  exact ((mem_entriesAcross_iff hproper hroots).mp hnamed).2.symm

theorem mem_namesMet_iff : name ∈ (namesMet fs roots types).eraseDups ↔
    IsSought fs roots types name ∧ (firstEntry fs roots name).isSome := by
  rw [← map_fst_entriesAcross_nil, List.mem_map, Option.isSome_iff_exists]
  constructor
  · rintro ⟨⟨name, entry⟩, hmem, rfl⟩
    obtain ⟨hsought, hentry⟩ := (mem_entriesAcross_iff hproper hroots).mp hmem
    exact ⟨hsought, entry, hentry⟩
  · rintro ⟨hsought, entry, hentry⟩
    exact ⟨(name, entry), (mem_entriesAcross_iff hproper hroots).mpr ⟨hsought, hentry⟩, rfl⟩

end

-- ---------------------------------------------------------------------------
-- Programs
-- ---------------------------------------------------------------------------

/-- The type roots of a program are what a walk through all directories above its roots comes by, nearest first: each
directory of declaration packages that there is, where it is met first, and no two of them are one place. The entries
are those of the packages that are looked for and have one in a type root, of each once, in the order in which they are
met: that of the first type root that has one. -/
theorem typeEntries_nearest (fs : FileSystem) (types : Option (List String)) (hproper : fs.root.IsProper)
    (hroots : ∀ root ∈ roots, Path.isAbsolute root = true) :
    let rootNames := roots.map Path.normalize
    let dirs := typeRoots fs rootNames
    let names := (namesMet fs dirs types).eraseDups
    dirs = (((rootNames.flatMap above).map typeRootOf).filter fs.isDir).eraseDups ∧
    dirs.Pairwise (fun dir other => ∀ place, fs.Leads dir place → ¬ fs.Leads other place) ∧
    typeEntries fs dirs types = names.filterMap (firstEntry fs dirs) ∧ names.Nodup ∧
    ∀ name, name ∈ names ↔ IsSought fs dirs types name ∧ (firstEntry fs dirs name).isSome := by
  intro rootNames dirs names
  have hnormal : ∀ file ∈ rootNames, Path.normalize file = file := by
    intro file hfile
    obtain ⟨root, -, rfl⟩ := List.mem_map.mp hfile
    exact Path.normalize_normalize root
  have hdirs : ∀ dir ∈ dirs, Path.isAbsolute dir = true ∧ fs.isDir dir = true := fun dir hdir =>
    ⟨isAbsolute_of_mem_typeRoots (isAbsolute_of_mem_rootNames hroots) hdir, isDir_of_mem_typeRoots hdir⟩
  exact ⟨typeRoots_eq_eraseDups hnormal fs, pairwise_typeRoots hnormal fs, typeEntries_eq_filterMap hproper hdirs,
    nodup_eraseDups _, fun name => mem_namesMet_iff hproper hdirs⟩

/-- Two packages that are there twice. The manifest of a nearest copy leads nowhere. -/
def twoCopies : FileSystem where
  root := .dir [("w", .dir [
    ("a.ts", .file (some "")),
    ("node_modules", .dir [("@types", .dir [
      ("x", .dir [("index.d.ts", .file (some ""))]),
      ("y", .dir [("main.d.ts", .file (some "")), ("package.json", .file (some "\x7b\"types\":\"main.d.ts\"\x7d"))])])]),
    ("lib", .dir [
      ("b.ts", .file (some "")),
      ("node_modules", .dir [("@types", .dir [
        ("x", .dir [("index.d.ts", .file (some ""))]),
        ("y", .dir [("index.d.ts", .file (some "")),
          ("package.json", .file (some "\x7b\"types\":\"gone.d.ts\"\x7d"))])])])])])]
  cwd := "/"

theorem isProper_twoCopies : twoCopies.root.IsProper := by
  simp only [twoCopies, FileTree.isProper_dir, FileTree.isProper_file, List.forall_mem_cons, List.not_mem_nil,
    Json.Distinct, IsName]
  simp

set_option maxRecDepth 100000 in
/-- The nearest copy of one package wins, and that of the other is passed over. -/
theorem typeEntries_nearest_passedOver :
    let roots := ["/w/./lib/b.ts", "/w//a.ts", "/w/lib/c.ts"]
    let dirs := ["/w/lib/node_modules/@types", "/w/node_modules/@types"]
    twoCopies.root.IsProper ∧ (∀ root ∈ roots, Path.isAbsolute root = true) ∧
      typeRoots twoCopies (roots.map Path.normalize) = dirs ∧
      (((roots.map Path.normalize).flatMap above).map typeRootOf).filter twoCopies.isDir =
        dirs ++ ["/w/node_modules/@types"] ++ dirs ∧
      "/w/lib/node_modules/@types/x/index.d.ts" ∈ typeEntries twoCopies dirs none ∧
      "/w/node_modules/@types/y/main.d.ts" ∈ typeEntries twoCopies dirs none ∧
      "/w/node_modules/@types/x/index.d.ts" ∉ typeEntries twoCopies dirs none := by
  intro roots dirs
  have hroots : ∀ root ∈ roots, Path.isAbsolute root = true := by decide
  have hdirs : typeRoots twoCopies (roots.map Path.normalize) = dirs := by decide +kernel
  obtain ⟨-, -, hentries, -, hnames⟩ := typeEntries_nearest twoCopies none isProper_twoCopies hroots
  rw [hdirs] at hentries hnames
  have hx : firstEntry twoCopies dirs "x" = some "/w/lib/node_modules/@types/x/index.d.ts" := by decide +kernel
  have hy : firstEntry twoCopies dirs "y" = some "/w/node_modules/@types/y/main.d.ts" := by decide +kernel
  have hpackages : ∀ dir ∈ dirs, ∃ entries, twoCopies.resolve dir = .ok (.dir entries) ∧
      (∃ below, ("x", .dir below) ∈ entries) ∧ (∃ below, ("y", .dir below) ∈ entries) ∧
      ∀ entry ∈ entries, entry.1 = "x" ∨ entry.1 = "y" := by
    simp only [dirs, List.forall_mem_cons, List.not_mem_nil, false_implies, implies_true, and_true]
    exact ⟨⟨_, rfl, by simp⟩, ⟨_, rfl, by simp⟩⟩
  have hsought : ∀ name, IsSought twoCopies dirs none name ↔ name = "x" ∨ name = "y" := by
    intro name
    constructor
    · rintro ⟨dir, hdir, entries, below, hresolve, hmem⟩
      obtain ⟨others, hothers, -, -, hall⟩ := hpackages dir hdir
      cases hresolve.symm.trans hothers
      exact hall _ hmem
    · obtain ⟨entries, hresolve, ⟨x, hxmem⟩, ⟨y, hymem⟩, -⟩ := hpackages _ List.mem_cons_self
      rintro (rfl | rfl)
      · exact ⟨_, List.mem_cons_self, entries, x, hresolve, hxmem⟩
      · exact ⟨_, List.mem_cons_self, entries, y, hresolve, hymem⟩
  refine ⟨isProper_twoCopies, hroots, hdirs, by decide +kernel, ?_, ?_, ?_⟩
  all_goals rw [hentries, List.mem_filterMap]
  · exact ⟨"x", (hnames "x").mpr ⟨(hsought _).mpr (.inl rfl), by rw [hx]; rfl⟩, hx⟩
  · exact ⟨"y", (hnames "y").mpr ⟨(hsought _).mpr (.inr rfl), by rw [hy]; rfl⟩, hy⟩
  · rintro ⟨name, hname, hentry⟩
    rcases (hsought name).mp ((hnames name).mp hname).1 with rfl | rfl
    · simp [hx] at hentry
    · simp [hy] at hentry

end TsBuild.Program
