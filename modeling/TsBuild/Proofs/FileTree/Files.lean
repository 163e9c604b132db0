import TsBuild.FileTree
import TsBuild.Proofs.Json.Members
import TsBuild.Proofs.Path.Normal

/-!
# The files of a tree

A tree has as many paths of regular files as it has files (`length_fileNames`), and an absolute path in
normal form that a text is read from is one of them (`mem_fileNames`). So distinct such paths are not
more than the files of the tree. In a proper tree the entries of a directory have names, and no two the same
(`IsProper`); what a path leads to in it is a proper tree (`isProper_of_resolve`).
-/

namespace TsBuild

open TsBuild.Path (IsName)

namespace FileTree

mutual
def filePaths : FileTree → List (List String)
  | file _ => [[]]
  | dir entries => filePathsAll entries
def filePathsAll : List (String × FileTree) → List (List String)
  | [] => []
  | (name, node) :: rest => node.filePaths.map (name :: ·) ++ filePathsAll rest
end

mutual
theorem length_filePaths : (tree : FileTree) → tree.filePaths.length = tree.fileCount
  | file _ => rfl
  | dir entries => length_filePathsAll entries
theorem length_filePathsAll :
    (entries : List (String × FileTree)) → (filePathsAll entries).length = fileCountAll entries
  | [] => rfl
  | (name, node) :: rest => by
    rw [filePathsAll, List.length_append, List.length_map, length_filePaths node,
      length_filePathsAll rest, fileCountAll]
end

theorem mem_filePathsAll_iff {entries : List (String × FileTree)} :
    path ∈ filePathsAll entries ↔ ∃ entry ∈ entries, ∃ rest ∈ entry.2.filePaths, path = entry.1 :: rest := by
  induction entries with
  | nil => simp [filePathsAll]
  | cons entry rest ih =>
    rw [filePathsAll, List.mem_append, ih, List.mem_map]
    simp [eq_comm]

theorem ne_nil_of_mem_filePaths {entries : List (String × FileTree)} (h : path ∈ (dir entries).filePaths) :
    path ≠ [] := by
  obtain ⟨entry, -, rest, -, rfl⟩ := mem_filePathsAll_iff.mp h
  exact List.cons_ne_nil _ _

theorem mem_filePathsAll {entries : List (String × FileTree)} (h : entries.lookup name = some node)
    (hpath : path ∈ node.filePaths) : name :: path ∈ filePathsAll entries := by
  obtain ⟨front, back, rfl, -⟩ := List.lookup_eq_some_iff.mp h
  exact mem_filePathsAll_iff.mpr ⟨(name, node), by simp, path, hpath, rfl⟩

/-- The entries of a directory have names, and no two the same. -/
inductive IsProper : FileTree → Prop
  | file : IsProper (file text)
  | dir {entries : List (String × FileTree)} (distinct : Json.Distinct entries)
      (named : ∀ entry ∈ entries, IsName entry.1.toList) (below : ∀ entry ∈ entries, IsProper entry.2) :
      IsProper (dir entries)

@[simp] theorem isProper_file : (file text).IsProper := .file

@[simp] theorem isProper_dir {entries : List (String × FileTree)} : (dir entries).IsProper ↔
    Json.Distinct entries ∧ ∀ entry ∈ entries, IsName entry.1.toList ∧ entry.2.IsProper := by
  constructor
  · intro h
    cases h with
    | dir distinct named below => exact ⟨distinct, fun entry hmem => ⟨named entry hmem, below entry hmem⟩⟩
  · rintro ⟨distinct, h⟩
    exact .dir distinct (fun entry hmem => (h entry hmem).1) fun entry hmem => (h entry hmem).2

theorem IsProper.of_walk {below : List FileTree} (h : walk top below segments = .ok node) (htop : top.IsProper)
    (hbelow : ∀ other ∈ below, other.IsProper) : node.IsProper := by
  induction segments generalizing top below with
  | nil =>
    cases h
    exact htop
  | cons segment rest ih =>
    cases htop with
    | file => cases h
    | dir distinct named proper =>
      rename_i entries
      have htop : (FileTree.dir entries).IsProper := .dir distinct named proper
      simp only [walk] at h
      split at h
      · exact ih h htop hbelow
      · split at h
        · cases below with
          | nil => exact ih h htop hbelow
          | cons up others =>
            exact ih h (hbelow up List.mem_cons_self) fun other hmem => hbelow other (List.mem_cons_of_mem _ hmem)
        · split at h
          · cases h
          · split at h
            · cases h
            · rename_i entry hlookup
              have hmem : (String.ofList segment, entry) ∈ entries := (Json.lookup_eq_some_iff distinct).mp hlookup
              exact ih h (proper _ hmem) (List.forall_mem_cons.mpr ⟨htop, hbelow⟩)

theorem mem_filePaths_of_walk {names : List (List Char)} (hnames : ∀ name ∈ names, IsName name)
    (h : walk top below names = .ok (.file text)) : names.map String.ofList ∈ top.filePaths := by
  induction names generalizing top below with
  | nil =>
    cases h
    exact List.mem_singleton_self _
  | cons name rest ih =>
    obtain ⟨hempty, hdot, hdots, -⟩ := hnames name List.mem_cons_self
    cases top with
    | file => cases h
    | dir entries =>
      simp only [walk, hempty, hdot, hdots, decide_false, Bool.or_self, Bool.false_eq_true,
        ↓reduceIte] at h
      split at h
      · cases h
      · split at h
        · cases h
        · rename_i node hlookup
          exact mem_filePathsAll hlookup (ih (fun other hmem => hnames other (List.mem_cons_of_mem _ hmem)) h)

end FileTree

namespace FileSystem

def fileNames (fs : FileSystem) : List String :=
  fs.root.filePaths.map fun names =>
    String.ofList (Path.render (.root :: names.map fun name => .name name.toList))

theorem length_fileNames (fs : FileSystem) : fs.fileNames.length = fs.fileCount := by
  rw [fileNames, List.length_map, FileTree.length_filePaths]
  rfl

theorem resolve_of_readText {fs : FileSystem} (h : fs.readText path = .ok text) :
    fs.resolve path = .ok (.file (some text)) := by
  unfold readText at h
  cases hresolve : fs.resolve path with
  | error => rw [hresolve] at h; cases h
  | ok node =>
    rw [hresolve] at h
    rcases node with (_ | other) | entries
    · cases h
    · cases h
      rfl
    · cases h

theorem ne_root_of_readText {fs : FileSystem} (h : fs.readText path = .ok text) :
    path ≠ "" ∧ path ≠ "/" := by
  have hresolve := resolve_of_readText h
  constructor
  · rintro rfl
    cases hresolve
  · rintro rfl
    have hwalk : fs.root.walk [] [[], []] = .ok (.file (some text)) := hresolve
    cases hroot : fs.root <;> rw [hroot] at hwalk <;> cases hwalk

theorem resolve_absolute {fs : FileSystem} (habsolute : Path.isAbsolute path = true)
    (h : fs.resolve path = .ok node) : fs.root.walk [] (Text.splitOn '/' path.toList) = .ok node := by
  unfold resolve at h
  rw [habsolute] at h
  simp only [↓reduceIte] at h
  split at h
  · cases h
  · split at h
    · cases h
    · split at h
      · cases h
      · exact h

theorem isProper_of_resolve {fs : FileSystem} (hproper : fs.root.IsProper) (h : fs.resolve path = .ok node) :
    node.IsProper := by
  unfold resolve at h
  split at h
  · cases h
  · split at h
    · cases h
    · split at h
      · cases h
      · simp only at h
        split at h
        · exact .of_walk h hproper fun _ hmem => absurd hmem List.not_mem_nil
        · exact .of_walk h hproper fun _ hmem => absurd hmem List.not_mem_nil

/-- A normal absolute path that leads to a regular file is the name of one. -/
theorem mem_fileNames {fs : FileSystem} (habsolute : Path.isAbsolute path = true)
    (hnormal : Path.normalize path = path) (h : fs.resolve path = .ok (.file text)) :
    path ∈ fs.fileNames := by
  obtain ⟨names, hnames, hpath⟩ := Path.names_of_absolute habsolute hnormal
  have hwalk := resolve_absolute habsolute h
  rw [hpath, String.toList_ofList, Path.render, Path.map_text_name, Text.splitOn_cons_self] at hwalk
  cases hroot : fs.root with
  | file => rw [hroot] at hwalk; cases hwalk
  | dir entries =>
    rw [hroot, FileTree.walk] at hwalk
    simp only [decide_true, Bool.true_or, ↓reduceIte] at hwalk
    cases names with
    | nil => cases hwalk
    | cons first rest =>
      have hslash : ∀ name ∈ first :: rest, '/' ∉ name := fun name hmem => (hnames name hmem).2.2.2
      rw [Text.splitOn_joinWith (List.cons_ne_nil _ _) hslash] at hwalk
      refine List.mem_map.mpr ⟨_, hroot ▸ FileTree.mem_filePaths_of_walk hnames hwalk, ?_⟩
      rw [hpath, List.map_map]
      congr 4
      funext name
      simp

end FileSystem

end TsBuild
