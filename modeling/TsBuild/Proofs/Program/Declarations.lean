import TsBuild.Program.Declarations
import TsBuild.Proofs.FileTree.Files
import TsBuild.Proofs.Path.Ending
import TsBuild.Proofs.Path.LastPiece
import TsBuild.Proofs.Text.Encoding

/-!
# The declaration files below a directory

A way is the names that lead from a directory to a file below it. The declaration files are the ways of files
with the right ending on which no packages are entered, spelled from the directory on (`mem_waysIn`), in
the order of the ways, name by name and byte by byte (`pairwise_sorted`). A directory with too long a path is not
opened, so the files below it are not found (`declarationFiles_passesOver`).
-/

namespace TsBuild.Program

open TsBuild.Path (IsName)

-- ---------------------------------------------------------------------------
-- Ways and their spellings
-- ---------------------------------------------------------------------------

def wayText (way : List String) : String := String.ofList (Text.joinWith ['/'] (way.map String.toList))

def spelled (dir : String) (way : List String) : String := Path.join dir (wayText way)

def IsWay (way : List String) : Prop := ∀ name ∈ way, IsName name.toList

theorem wayText_singleton (name : String) : wayText [name] = name := String.ofList_toList

theorem toList_wayText_cons (name : String) {way : List String} (h : way ≠ []) :
    (wayText (name :: way)).toList = name.toList ++ '/' :: (wayText way).toList := by
  obtain ⟨next, rest, rfl⟩ := List.exists_cons_of_ne_nil h
  simp [wayText, Text.joinWith]

theorem isAbsolute_wayText {way : List String} (h : IsWay way) : Path.isAbsolute (wayText way) = false := by
  cases way with
  | nil => rfl
  | cons name rest =>
    have hname := h name List.mem_cons_self
    by_cases hrest : rest = []
    · rw [hrest, wayText_singleton]
      exact Path.isAbsolute_of_isName hname
    · have hhead := Path.isAbsolute_of_isName hname
      obtain ⟨c, cs, hchars⟩ := List.exists_cons_of_ne_nil hname.1
      rw [Path.isAbsolute] at hhead ⊢
      rw [toList_wayText_cons name hrest, hchars]
      rwa [hchars] at hhead

theorem splitOn_wayText {way : List String} (hway : IsWay way) (hne : way ≠ []) :
    Text.splitOn '/' (wayText way).toList = way.map String.toList := by
  rw [wayText, String.toList_ofList, Text.splitOn_joinWith (by simpa using hne)]
  intro piece hmem
  obtain ⟨name, hname, rfl⟩ := List.mem_map.mp hmem
  exact (hway name hname).2.2.2

theorem exists_lead (dir : String) :
    ∃ lead, ∀ path, Path.isAbsolute path = false → (Path.join dir path).toList = lead ++ path.toList := by
  by_cases h : dir.toList = [] ∨ dir.toList.getLast? = some '/'
  · exact ⟨dir.toList, fun path hpath => by rw [Path.toList_join dir hpath, if_pos h]⟩
  · exact ⟨dir.toList ++ ['/'], fun path hpath => by rw [Path.toList_join dir hpath, if_neg h]; simp⟩

theorem spelled_singleton (dir name : String) : spelled dir [name] = Path.join dir name := by
  rw [spelled, wayText_singleton]

theorem spelled_cons {name : String} {way : List String} (hway : IsWay (name :: way)) (hne : way ≠ [])
    (dir : String) : spelled dir (name :: way) = spelled (Path.join dir name) way := by
  have hname : IsName name.toList := hway name List.mem_cons_self
  have hbelow : Path.isAbsolute (wayText way) = false :=
    isAbsolute_wayText fun other hmem => hway other (List.mem_cons_of_mem _ hmem)
  obtain ⟨lead, hlead⟩ := exists_lead dir
  have hentry := hlead name (Path.isAbsolute_of_isName hname)
  have hopen : ¬((Path.join dir name).toList = [] ∨ (Path.join dir name).toList.getLast? = some '/') := by
    rw [hentry, List.append_eq_nil_iff, List.getLast?_append, List.getLast?_eq_some_getLast hname.1, Option.some_or,
      Option.some.injEq]
    rintro (hempty | hslash)
    · exact hname.1 hempty.2
    · exact hname.2.2.2 (hslash ▸ List.getLast_mem hname.1)
  rw [← String.toList_inj, spelled, spelled, hlead _ (isAbsolute_wayText hway), Path.toList_join _ hbelow,
    if_neg hopen, hentry, toList_wayText_cons name hne, List.append_assoc]

theorem spelled_inj {way other : List String} (hway : IsWay way) (hother : IsWay other) (hne : way ≠ [])
    (hneOther : other ≠ []) (h : spelled dir way = spelled dir other) : way = other := by
  obtain ⟨lead, hlead⟩ := exists_lead dir
  have htext : (wayText way).toList = (wayText other).toList := by
    have hlists := congrArg String.toList h
    rw [spelled, spelled, hlead _ (isAbsolute_wayText hway), hlead _ (isAbsolute_wayText hother)] at hlists
    exact List.append_cancel_left hlists
  have hmaps : way.map String.toList = other.map String.toList := by
    rw [← splitOn_wayText hway hne, ← splitOn_wayText hother hneOther, htext]
  exact (List.map_inj_right fun _ _ => String.toList_inj.mp).mp hmaps

/-- The ways that are kept: those of declaration files on which all directories are opened, and none of them is
that of packages. -/
structure IsKept (dir : String) (way : List String) : Prop where
  ending : ∃ stem, way.getLast? = some (stem ++ ".d.ts")
  own : Path.dependencyDir ∉ way
  opened : ∀ above, above ≠ [] → above <+: way → above ≠ way →
    (spelled dir above).utf8ByteSize < FileSystem.pathLimit

theorem isDeclarationName_iff {name : String} : isDeclarationName name = true ↔ ∃ stem, name = stem ++ ".d.ts" := by
  rw [isDeclarationName, Path.hasEnding, Text.endsWith_iff]
  constructor
  · rintro ⟨front, hfront⟩
    exact ⟨String.ofList front, by rw [← String.toList_inj, String.toList_append, String.toList_ofList, hfront]⟩
  · rintro ⟨stem, rfl⟩
    exact ⟨stem.toList, (String.toList_append ..).symm⟩

theorem isKept_singleton {dir name : String} : IsKept dir [name] ↔ isDeclarationName name = true := by
  rw [isDeclarationName_iff]
  constructor
  · rintro ⟨⟨stem, hstem⟩, -, -⟩
    exact ⟨stem, Option.some.inj hstem⟩
  · rintro ⟨stem, hstem⟩
    refine ⟨⟨stem, congrArg some hstem⟩, ?_, fun above hne hbegins hproper => ?_⟩
    · intro hmem
      have hname : isDeclarationName Path.dependencyDir = true :=
        isDeclarationName_iff.mpr ⟨stem, (List.mem_singleton.mp hmem).trans hstem⟩
      exact absurd hname (by decide)
    · exact absurd (hbegins.eq_of_length_le (List.length_pos_iff.mpr hne)) hproper

/-- A way is kept if the directory it begins with is opened and not that of packages, and it is kept from there
on. -/
theorem isKept_cons {name : String} {way : List String} (hway : IsWay (name :: way)) (hne : way ≠ []) :
    IsKept dir (name :: way) ↔ name ≠ Path.dependencyDir ∧
      (Path.join dir name).utf8ByteSize < FileSystem.pathLimit ∧ IsKept (Path.join dir name) way := by
  have hspelled {above : List String} (hbegins : above <+: way) (hnonempty : above ≠ []) :
      spelled dir (name :: above) = spelled (Path.join dir name) above :=
    spelled_cons (fun other hmem => hway other ((List.cons_prefix_cons.mpr ⟨rfl, hbegins⟩).subset hmem))
      hnonempty dir
  constructor
  · rintro ⟨hending, hown, hopened⟩
    rw [List.mem_cons, not_or] at hown
    refine ⟨Ne.symm hown.1, ?_, ?_, hown.2, fun above hnonempty hbegins hproper => ?_⟩
    · rw [← spelled_singleton]
      exact hopened [name] (List.cons_ne_nil _ _) (List.cons_prefix_cons.mpr ⟨rfl, List.nil_prefix⟩)
        fun heq => hne (List.cons.inj heq).2.symm
    · rwa [List.getLast?_cons_of_ne_nil hne] at hending
    · rw [← hspelled hbegins hnonempty]
      exact hopened (name :: above) (List.cons_ne_nil _ _) (List.cons_prefix_cons.mpr ⟨rfl, hbegins⟩)
        fun heq => hproper (List.cons.inj heq).2
  · rintro ⟨hname, hsize, hending, hown, hopened⟩
    refine ⟨?_, ?_, fun above hnonempty hbegins hproper => ?_⟩
    · rwa [List.getLast?_cons_of_ne_nil hne]
    · rw [List.mem_cons, not_or]
      exact ⟨Ne.symm hname, hown⟩
    · obtain ⟨first, above, rfl⟩ := List.exists_cons_of_ne_nil hnonempty
      obtain ⟨rfl, hbelow⟩ := List.cons_prefix_cons.mp hbegins
      by_cases habove : above = []
      · rwa [habove, spelled_singleton]
      · rw [hspelled hbelow habove]
        exact hopened above habove hbelow fun heq => hproper (by rw [heq])

-- ---------------------------------------------------------------------------
-- The ways of a tree
-- ---------------------------------------------------------------------------

def inNameOrder (found : List (String × List β)) : List β :=
  (found.mergeSort fun a b => a.1 ≤ b.1).flatMap Prod.snd

mutual
def waysOf (dir name : String) : FileTree → List (List String)
  | .file _ => if isDeclarationName name then [[name]] else []
  | .dir entries =>
    if name = Path.dependencyDir || (Path.join dir name).utf8ByteSize ≥ FileSystem.pathLimit then []
    else (inNameOrder (waysIn (Path.join dir name) entries)).map (name :: ·)
def waysIn (dir : String) : List (String × FileTree) → List (String × List (List String))
  | [] => []
  | (name, node) :: rest => (name, waysOf dir name node) :: waysIn dir rest
end

theorem waysIn_eq_map (dir : String) (entries : List (String × FileTree)) :
    waysIn dir entries = entries.map fun entry => (entry.1, waysOf dir entry.1 entry.2) := by
  induction entries with
  | nil => rfl
  | cons entry rest ih => rw [waysIn, ih, List.map_cons]

theorem declarationsIn_eq_map (dir : String) (entries : List (String × FileTree)) :
    declarationsIn dir entries = entries.map fun entry => (entry.1, declarationsOf dir entry.1 entry.2) := by
  induction entries with
  | nil => rfl
  | cons entry rest ih => rw [declarationsIn, ih, List.map_cons]

theorem mem_inNameOrder {found : List (String × List β)} :
    b ∈ inNameOrder found ↔ ∃ entry ∈ found, b ∈ entry.2 := by
  simp [inNameOrder, List.mem_flatMap]

theorem inNameOrder_map (f : β → γ) (found : List (String × List β)) :
    inNameOrder (found.map fun entry => (entry.1, entry.2.map f)) = (inNameOrder found).map f := by
  have hsorted := List.map_mergeSort (r := fun a b : String × List β => a.1 ≤ b.1)
    (s := fun a b : String × List γ => a.1 ≤ b.1) (f := fun entry => (entry.1, entry.2.map f)) (l := found)
    fun _ _ _ _ => rfl
  rw [inNameOrder, ← hsorted, List.flatMap_map, inNameOrder, List.map_flatMap]

-- ---------------------------------------------------------------------------
-- Which ways there are
-- ---------------------------------------------------------------------------

theorem isWay_of_mem_filePaths {tree : FileTree} (h : tree.IsProper) {way : List String}
    (hway : way ∈ tree.filePaths) : IsWay way := by
  induction h generalizing way with
  | file =>
    rw [List.mem_singleton.mp hway]
    exact fun _ hmem => absurd hmem List.not_mem_nil
  | dir _ named _ ih =>
    obtain ⟨entry, hentry, rest, hrest, rfl⟩ := FileTree.mem_filePathsAll_iff.mp hway
    exact List.forall_mem_cons.mpr ⟨named entry hentry, ih entry hentry hrest⟩

/-- The ways to an entry of a directory are those of the files below it that are kept. -/
def FindsEntry (dir name : String) (node : FileTree) : Prop :=
  ∀ way, way ∈ waysOf dir name node ↔ ∃ rest ∈ node.filePaths, way = name :: rest ∧ IsKept dir way

theorem mem_waysIn {entries : List (String × FileTree)} (h : ∀ entry ∈ entries, FindsEntry dir entry.1 entry.2)
    (way : List String) :
    way ∈ inNameOrder (waysIn dir entries) ↔ way ∈ (FileTree.dir entries).filePaths ∧ IsKept dir way := by
  rw [mem_inNameOrder, waysIn_eq_map, FileTree.filePaths, FileTree.mem_filePathsAll_iff]
  constructor
  · rintro ⟨_, hmem, hway⟩
    obtain ⟨entry, hentry, rfl⟩ := List.mem_map.mp hmem
    obtain ⟨rest, hrest, heq, hkept⟩ := (h entry hentry way).mp hway
    exact ⟨⟨entry, hentry, rest, hrest, heq⟩, hkept⟩
  · rintro ⟨⟨entry, hentry, rest, hrest, heq⟩, hkept⟩
    exact ⟨_, List.mem_map_of_mem hentry, (h entry hentry way).mpr ⟨rest, hrest, heq, hkept⟩⟩

theorem findsEntry {node : FileTree} (h : node.IsProper) (dir : String) {name : String}
    (hname : IsName name.toList) : FindsEntry dir name node := by
  induction h generalizing dir name with
  | file =>
    intro way
    rw [waysOf, FileTree.filePaths]
    simp only [List.mem_singleton, exists_eq_left]
    split
    · rename_i hdeclaration
      rw [List.mem_singleton]
      exact ⟨fun heq => ⟨heq, heq ▸ isKept_singleton.mpr hdeclaration⟩, And.left⟩
    · rename_i hother
      refine ⟨fun hmem => absurd hmem List.not_mem_nil, ?_⟩
      rintro ⟨rfl, hkept⟩
      exact absurd (isKept_singleton.mp hkept) hother
  | @dir entries distinct named proper ih =>
    intro way
    have hbelow := mem_waysIn fun entry hentry => ih entry hentry (Path.join dir name) (named entry hentry)
    -- A way into a directory goes on below it, so what is kept there decides.
    have hkept {rest : List String} (hrest : rest ∈ (FileTree.dir entries).filePaths) :
        IsKept dir (name :: rest) ↔ name ≠ Path.dependencyDir ∧
          (Path.join dir name).utf8ByteSize < FileSystem.pathLimit ∧ IsKept (Path.join dir name) rest := by
      have hway : IsWay rest := isWay_of_mem_filePaths (.dir distinct named proper) hrest
      exact isKept_cons (List.forall_mem_cons.mpr ⟨hname, hway⟩) (FileTree.ne_nil_of_mem_filePaths hrest)
    rw [waysOf]
    split
    · rename_i hclosed
      refine ⟨fun hmem => absurd hmem List.not_mem_nil, ?_⟩
      rintro ⟨rest, hrest, rfl, h⟩
      obtain ⟨hown, hsize, -⟩ := (hkept hrest).mp h
      simp only [Bool.or_eq_true, decide_eq_true_eq] at hclosed
      rcases hclosed with hpackages | hlong
      · exact absurd hpackages hown
      · exact absurd hsize (Nat.not_lt.mpr hlong)
    · rename_i hopen
      simp only [Bool.or_eq_true, decide_eq_true_eq, not_or, ge_iff_le, Nat.not_le] at hopen
      rw [List.mem_map]
      constructor
      · rintro ⟨rest, hrest, rfl⟩
        obtain ⟨hfile, hrest⟩ := (hbelow rest).mp hrest
        exact ⟨rest, hfile, rfl, (hkept hfile).mpr ⟨hopen.1, hopen.2, hrest⟩⟩
      · rintro ⟨rest, hfile, rfl, h⟩
        exact ⟨rest, (hbelow rest).mpr ⟨hfile, ((hkept hfile).mp h).2.2⟩, rfl⟩

-- ---------------------------------------------------------------------------
-- How they are spelled
-- ---------------------------------------------------------------------------

theorem declarationsIn_of_entries {entries : List (String × FileTree)}
    (h : ∀ entry ∈ entries, declarationsOf dir entry.1 entry.2 = (waysOf dir entry.1 entry.2).map (spelled dir)) :
    inNameOrder (declarationsIn dir entries) = (inNameOrder (waysIn dir entries)).map (spelled dir) := by
  rw [← inNameOrder_map, declarationsIn_eq_map, waysIn_eq_map, List.map_map]
  refine congrArg inNameOrder (List.map_congr_left fun entry hentry => ?_)
  rw [h entry hentry]
  rfl

theorem declarationsOf_eq_spelled {node : FileTree} (h : node.IsProper) (dir : String) {name : String}
    (hname : IsName name.toList) : declarationsOf dir name node = (waysOf dir name node).map (spelled dir) := by
  induction h generalizing dir name with
  | file =>
    rw [declarationsOf, waysOf]
    split
    · rw [List.map_singleton, spelled_singleton]
    · rfl
  | @dir entries distinct named proper ih =>
    have hbelow := declarationsIn_of_entries fun entry hentry =>
      ih entry hentry (Path.join dir name) (named entry hentry)
    rw [declarationsOf, waysOf]
    split
    · rfl
    · change inNameOrder (declarationsIn (Path.join dir name) entries) = _
      rw [hbelow, List.map_map]
      refine List.map_congr_left fun rest hrest => ?_
      have hfinds : ∀ entry ∈ entries, FindsEntry (Path.join dir name) entry.1 entry.2 := fun entry hentry =>
        findsEntry (proper entry hentry) _ (named entry hentry)
      have hfile := ((mem_waysIn hfinds rest).mp hrest).1
      have hway : IsWay rest := isWay_of_mem_filePaths (.dir distinct named proper) hfile
      have hne := FileTree.ne_nil_of_mem_filePaths hfile
      exact (spelled_cons (List.forall_mem_cons.mpr ⟨hname, hway⟩) hne dir).symm

-- ---------------------------------------------------------------------------
-- Their order
-- ---------------------------------------------------------------------------

/-- Ways are compared name by name, and names byte by byte. -/
def Precedes (way other : List String) : Prop := way.map Text.bytes < other.map Text.bytes

theorem pairwise_inNameOrder {found : List (String × List (List String))} (hdistinct : Json.Distinct found)
    (hfound : ∀ entry ∈ found, entry.2.Pairwise Precedes ∧ ∀ way ∈ entry.2, ∃ rest, way = entry.1 :: rest) :
    (inNameOrder found).Pairwise Precedes := by
  have hperm := List.mergeSort_perm found fun a b => decide (a.1 ≤ b.1)
  have hsorted : (found.mergeSort fun a b => a.1 ≤ b.1).Pairwise fun a b => a.1 ≤ b.1 := by
    refine (List.pairwise_mergeSort (fun a b c hab hbc => ?_) (fun a b => ?_) found).imp of_decide_eq_true
    · exact decide_eq_true (String.le_trans (of_decide_eq_true hab) (of_decide_eq_true hbc))
    · simpa using String.le_total a.1 b.1
  have hnames : (found.mergeSort fun a b => a.1 ≤ b.1).Pairwise fun a b => a.1 ≠ b.1 :=
    List.pairwise_map.mp ((hperm.map Prod.fst).nodup_iff.mpr hdistinct)
  rw [inNameOrder, List.pairwise_flatMap]
  refine ⟨fun entry hmem => (hfound entry (hperm.mem_iff.mp hmem)).1, ?_⟩
  refine (hsorted.and hnames).imp_of_mem fun {first second} hfirst hsecond hle way hway other hother => ?_
  obtain ⟨rest, rfl⟩ := (hfound first (hperm.mem_iff.mp hfirst)).2 way hway
  obtain ⟨rest', rfl⟩ := (hfound second (hperm.mem_iff.mp hsecond)).2 other hother
  have hlt : first.1 < second.1 := String.not_le.mp fun hge => hle.2 (String.le_antisymm hle.1 hge)
  exact List.cons_lt_cons_iff.mpr (.inl (Text.bytes_lt hlt))

theorem pairwise_waysIn {entries : List (String × FileTree)} (hdistinct : Json.Distinct entries)
    (hfinds : ∀ entry ∈ entries, FindsEntry dir entry.1 entry.2)
    (h : ∀ entry ∈ entries, (waysOf dir entry.1 entry.2).Pairwise Precedes) :
    (inNameOrder (waysIn dir entries)).Pairwise Precedes := by
  rw [waysIn_eq_map]
  refine pairwise_inNameOrder ?_ fun found hfound => ?_
  · rw [Json.Distinct, List.map_map]
    exact hdistinct
  · obtain ⟨entry, hentry, rfl⟩ := List.mem_map.mp hfound
    refine ⟨h entry hentry, fun way hway => ?_⟩
    obtain ⟨rest, -, heq, -⟩ := (hfinds entry hentry way).mp hway
    exact ⟨rest, heq⟩

theorem pairwise_waysOf {node : FileTree} (h : node.IsProper) (dir : String) {name : String}
    (hname : IsName name.toList) : (waysOf dir name node).Pairwise Precedes := by
  induction h generalizing dir name with
  | file =>
    rw [waysOf]
    split
    · exact List.pairwise_singleton _ _
    · exact .nil
  | @dir entries distinct named proper ih =>
    rw [waysOf]
    split
    · exact .nil
    · have hbelow := pairwise_waysIn distinct
        (fun entry hentry => findsEntry (proper entry hentry) (Path.join dir name) (named entry hentry))
        fun entry hentry => ih entry hentry (Path.join dir name) (named entry hentry)
      exact hbelow.map (name :: ·) fun way other hlt => List.cons_lt_cons_iff.mpr (.inr ⟨rfl, hlt⟩)

theorem nodup_of_precedes {ways : List (List String)} (h : ways.Pairwise Precedes) : ways.Nodup := by
  refine h.imp fun hlt heq => ?_
  subst heq
  exact List.lt_irrefl _ hlt

/-- The declaration files below a directory, each once, spelled from the directory on, in the order of their
ways. They are the files whose names have the ending, that are not within installed packages, and whose
directories have paths that can be opened. Where the directory itself lies makes no difference. -/
theorem declarationFiles_complete {fs : FileSystem} {root : String} {entries : List (String × FileTree)}
    (hproper : fs.root.IsProper) (hroot : fs.resolve root = .ok (.dir entries)) :
    (declarationFiles fs root).Nodup ∧
      ∃ ways : List (List String), declarationFiles fs root = ways.map (spelled root) ∧ ways.Pairwise Precedes ∧
        ∀ way, way ∈ ways ↔ way ∈ (FileTree.dir entries).filePaths ∧
          (∃ stem, way.getLast? = some (stem ++ ".d.ts")) ∧ Path.dependencyDir ∉ way ∧
          ∀ above, above ≠ [] → above <+: way → above ≠ way →
            (spelled root above).utf8ByteSize < FileSystem.pathLimit := by
  have htree : (FileTree.dir entries).IsProper := FileSystem.isProper_of_resolve hproper hroot
  cases htree with
  | dir distinct named proper =>
    have htree : (FileTree.dir entries).IsProper := .dir distinct named proper
    have hfinds : ∀ entry ∈ entries, FindsEntry root entry.1 entry.2 := fun entry hentry =>
      findsEntry (proper entry hentry) root (named entry hentry)
    have hfiles : declarationFiles fs root = (inNameOrder (waysIn root entries)).map (spelled root) := by
      rw [declarationFiles, hroot]
      exact declarationsIn_of_entries fun entry hentry =>
        declarationsOf_eq_spelled (proper entry hentry) root (named entry hentry)
    have horder : (inNameOrder (waysIn root entries)).Pairwise Precedes :=
      pairwise_waysIn distinct hfinds fun entry hentry =>
        pairwise_waysOf (proper entry hentry) root (named entry hentry)
    refine ⟨?_, inNameOrder (waysIn root entries), hfiles, horder, fun way => ?_⟩
    · rw [hfiles, List.Nodup, List.pairwise_map]
      refine (nodup_of_precedes horder).imp_of_mem fun {way other} hway hother hne heq => hne ?_
      have hway := ((mem_waysIn hfinds way).mp hway).1
      have hother := ((mem_waysIn hfinds other).mp hother).1
      exact spelled_inj (isWay_of_mem_filePaths htree hway) (isWay_of_mem_filePaths htree hother)
        (FileTree.ne_nil_of_mem_filePaths hway) (FileTree.ne_nil_of_mem_filePaths hother) heq
    · rw [mem_waysIn hfinds way]
      refine and_congr_right fun _ => ⟨fun h => ⟨h.ending, h.own, h.opened⟩, ?_⟩
      rintro ⟨hending, hown, hopened⟩
      exact ⟨hending, hown, hopened⟩

def declaringTree : FileSystem where
  root := .dir [("node_modules", .dir [
    ("a-b.d.ts", .file (some "")),
    ("node_modules", .dir [("p.d.ts", .file (some ""))]),
    ("a", .dir [("b.d.ts", .file none), ("c.ts", .file (some ""))])])]
  cwd := "/"

theorem isProper_declaringTree : declaringTree.root.IsProper := by
  simp only [declaringTree, FileTree.isProper_dir, FileTree.isProper_file, List.forall_mem_cons, List.not_mem_nil,
    Json.Distinct, IsName]
  simp

theorem declarationFiles_complete_declaringTree :
    declaringTree.root.IsProper ∧ ∃ entries, declaringTree.resolve "/node_modules" = .ok (.dir entries) ∧
      ∃ ways : List (List String), declarationFiles declaringTree "/node_modules" =
          ways.map (spelled "/node_modules") ∧ ways.Pairwise Precedes ∧
        ["a", "b.d.ts"] ∈ ways ∧ ["node_modules", "p.d.ts"] ∉ ways := by
  obtain ⟨entries, hroot, hfile⟩ : ∃ entries, declaringTree.resolve "/node_modules" = .ok (.dir entries) ∧
      ["a", "b.d.ts"] ∈ (FileTree.dir entries).filePaths := ⟨_, rfl, by decide⟩
  obtain ⟨-, ways, hfiles, horder, hways⟩ := declarationFiles_complete isProper_declaringTree hroot
  refine ⟨isProper_declaringTree, entries, hroot, ways, hfiles, horder, ?_, ?_⟩
  · refine (hways ["a", "b.d.ts"]).mpr ⟨hfile, ⟨"b", rfl⟩, by decide, fun above hne hbegins hproper => ?_⟩
    have habove : above = ["a"] := by
      simp only [List.prefix_cons_iff, List.prefix_nil] at hbegins
      rcases hbegins with rfl | ⟨_, rfl, rfl | ⟨_, rfl, rfl⟩⟩
      · exact absurd rfl hne
      · rfl
      · exact absurd rfl hproper
    rw [habove]
    decide +kernel
  · exact fun hmem => ((hways _).mp hmem).2.2.1 List.mem_cons_self

-- ---------------------------------------------------------------------------
-- Directories that are not opened
-- ---------------------------------------------------------------------------

def dots (n : Nat) : String := String.ofList (Text.joinWith ['/'] (List.replicate (n + 1) ['.']))

theorem toList_dots_succ (n : Nat) : (dots (n + 1)).toList = '.' :: '/' :: (dots n).toList := by
  rw [dots, dots, String.toList_ofList, String.toList_ofList, List.replicate_succ, Text.joinWith]
  · rfl
  · exact List.cons_ne_nil _ _

theorem utf8ByteSize_dots (n : Nat) : (dots n).utf8ByteSize = 2 * n + 1 := by
  rw [Text.utf8ByteSize_eq]
  induction n with
  | zero => rfl
  | succ n ih =>
    rw [toList_dots_succ, Text.byteLength, Text.byteLength, ih]
    change 1 + (1 + (2 * n + 1)) = _
    omega

theorem mem_dots (h : c ∈ (dots n).toList) : c = '.' ∨ c = '/' := by
  induction n with
  | zero => exact .inl (List.mem_singleton.mp h)
  | succ n ih =>
    rw [toList_dots_succ] at h
    simp only [List.mem_cons] at h
    rcases h with rfl | rfl | h
    · exact .inl rfl
    · exact .inr rfl
    · exact ih h

theorem walk_dots (entries : List (String × FileTree)) (below : List FileTree) (n : Nat) :
    FileTree.walk (.dir entries) below (List.replicate n ['.']) = .ok (.dir entries) := by
  induction n with
  | zero => simp [FileTree.walk]
  | succ n ih =>
    rw [List.replicate_succ]
    simpa [FileTree.walk] using ih

def nestedDeclaration : FileSystem where
  root := .dir [("nested", .dir [("a.d.ts", .file (some ""))])]
  cwd := "/"

theorem splitOn_dots (n : Nat) : Text.splitOn '/' (dots n).toList = List.replicate (n + 1) ['.'] := by
  rw [dots, String.toList_ofList]
  refine Text.splitOn_joinWith (by simp) fun piece hmem => ?_
  rw [(List.mem_replicate.mp hmem).2]
  decide

theorem isAbsolute_dots (n : Nat) : Path.isAbsolute (dots n) = false := by
  cases n with
  | zero => rfl
  | succ n =>
    rw [Path.isAbsolute, toList_dots_succ]
    rfl

theorem dots_ne_empty (n : Nat) : dots n ≠ "" := by
  intro hempty
  have hsize := utf8ByteSize_dots n
  rw [hempty, String.utf8ByteSize_empty] at hsize
  omega

theorem resolve_dots (h : 2 * n + 1 < FileSystem.pathLimit) :
    nestedDeclaration.resolve (dots n) = .ok nestedDeclaration.root := by
  have hzero : (dots n).toList.contains '\x00' = false := by
    rw [← Bool.not_eq_true, List.contains_iff_mem]
    intro hmem
    rcases mem_dots hmem with heq | heq
    · exact absurd heq (by decide)
    · exact absurd heq (by decide)
  have hwalk : nestedDeclaration.root.walk []
      (Text.splitOn '/' nestedDeclaration.cwd.toList ++ Text.splitOn '/' (dots n).toList) =
        .ok nestedDeclaration.root := by
    rw [splitOn_dots]
    exact walk_dots _ _ (n + 1)
  rw [FileSystem.resolve, if_neg (dots_ne_empty n), hzero, if_neg Bool.false_ne_true, utf8ByteSize_dots,
    if_neg (Nat.not_le.mpr h), isAbsolute_dots, if_neg Bool.false_ne_true, hwalk]

theorem getLast?_dots (n : Nat) : (dots n).toList.getLast? = some '.' := by
  induction n with
  | zero => rfl
  | succ n ih => rw [toList_dots_succ, List.getLast?_cons_cons, List.getLast?_cons, ih, Option.getD_some]

theorem utf8ByteSize_join_dots (n : Nat) (h : Path.isAbsolute path = false) :
    (Path.join (dots n) path).utf8ByteSize = 2 * n + 2 + path.utf8ByteSize := by
  have hopen : ((dots n).isEmpty || decide ((dots n).toList.getLast? = some '/')) = false := by
    rw [getLast?_dots, Bool.or_eq_false_iff, Bool.eq_false_iff, ne_eq, String.isEmpty_iff]
    exact ⟨dots_ne_empty n, rfl⟩
  rw [Path.join, h, if_neg Bool.false_ne_true, hopen, if_neg Bool.false_ne_true, String.utf8ByteSize_append,
    String.utf8ByteSize_append, utf8ByteSize_dots]
  rfl

theorem declarationFiles_dots (h : 2 * n + 1 < FileSystem.pathLimit) (hlong : FileSystem.pathLimit ≤ 2 * n + 8) :
    declarationFiles nestedDeclaration (dots n) = [] := by
  have hsize : (Path.join (dots n) "nested").utf8ByteSize = 2 * n + 8 := utf8ByteSize_join_dots n rfl
  have hclosed : declarationsOf (dots n) "nested" (.dir [("a.d.ts", .file (some ""))]) = [] := by
    rw [declarationsOf, hsize, decide_eq_true hlong, Bool.or_true, if_pos rfl]
  rw [declarationFiles, resolve_dots h]
  simp only [nestedDeclaration, declarationsIn, hclosed, List.mergeSort_singleton]
  rfl

/-- Behind a long name of the current directory, the path of a directory in it is too long to be opened. -/
theorem declarationFiles_passesOver :
    ¬∀ (fs : FileSystem) (root : String) (entries : List (String × FileTree)), fs.root.IsProper →
      fs.resolve root = .ok (.dir entries) → ∀ way ∈ (FileTree.dir entries).filePaths,
        (∃ stem, way.getLast? = some (stem ++ ".d.ts")) → Path.dependencyDir ∉ way →
          spelled root way ∈ declarationFiles fs root := by
  intro hcomplete
  have hproper : nestedDeclaration.root.IsProper := by
    simp only [nestedDeclaration, FileTree.isProper_dir, FileTree.isProper_file, List.forall_mem_cons,
      List.not_mem_nil, Json.Distinct, IsName]
    simp
  have hfound := hcomplete nestedDeclaration (dots 2045) _ hproper (resolve_dots (by decide)) ["nested", "a.d.ts"]
    (by decide) ⟨"a", rfl⟩ (by decide)
  rw [declarationFiles_dots (by decide) (by decide)] at hfound
  exact absurd hfound List.not_mem_nil

end TsBuild.Program
