import TsBuild.Proofs.FileTree.Files
import TsBuild.Proofs.Path.Canonical
import TsBuild.Proofs.Text.Encoding

/-!
# Places in a tree

Without links a node is known by its place, the names that lead to it from the root. A path is read step by step
(`FileTree.Leads`), which is how it is resolved (`resolve_iff`). The stack of components that a path is normalized
with holds the names of the place that the steps have come to (`folded_of_leads`), so two paths lead to one place
exactly if they have one normal form, and this leads there too (`leads_normalize`).
-/

namespace TsBuild

open TsBuild.Path (IsName Component)

namespace FileTree

def at? : FileTree → List String → Option FileTree
  | node, [] => some node
  | file _, _ :: _ => none
  | dir entries, name :: rest => (entries.lookup name).bind fun node => node.at? rest

/-- Segments lead from a place to another. Each is read in a directory: an empty one and `.` stay there, `..` goes
to the directory that holds it, which for the root is the root itself, and a name goes to its entry. -/
inductive Leads (root : FileTree) : List String → List (List Char) → List String → Prop
  | here : Leads root place [] place
  | stay {segment : List Char} {entries : List (String × FileTree)} (hdir : root.at? place = some (dir entries))
      (hstay : segment = [] ∨ segment = ['.']) (h : Leads root place steps last) :
      Leads root place (segment :: steps) last
  | up {entries : List (String × FileTree)} (hdir : root.at? place = some (dir entries))
      (h : Leads root place.dropLast steps last) : Leads root place (['.', '.'] :: steps) last
  | entry {segment : List Char} {entries : List (String × FileTree)} (hdir : root.at? place = some (dir entries))
      (hname : IsName segment) (hentry : entries.lookup (String.ofList segment) = some node)
      (h : Leads root (place ++ [String.ofList segment]) steps last) : Leads root place (segment :: steps) last

/-- The node at a place, with those that it is in, innermost first. -/
inductive Trail (root : FileTree) : List String → FileTree → List FileTree → Prop
  | root : Trail root [] root []
  | entry {entries : List (String × FileTree)} (h : Trail root place (dir entries) below)
      (hentry : entries.lookup name = some node) : Trail root (place ++ [name]) node (dir entries :: below)

variable {root node top : FileTree} {text : Option String} {below : List FileTree} {entries : List (String × FileTree)}
  {place last names : List String} {segments steps : List (List Char)} {segment : List Char}

theorem at_append (root : FileTree) (place rest : List String) :
    root.at? (place ++ rest) = (root.at? place).bind (·.at? rest) := by
  induction place generalizing root with
  | nil => rfl
  | cons name place ih =>
    cases root with
    | file => rfl
    | dir entries =>
      rw [List.cons_append, at?, at?]
      cases entries.lookup name with
      | none => rfl
      | some node => exact ih node

theorem exists_entry (h : root.at? (place ++ name :: rest) = some node) :
    ∃ (entries : List (String × FileTree)) (next : FileTree), root.at? place = some (dir entries) ∧ entries.lookup name = some next := by
  rw [at_append] at h
  obtain ⟨holder, hholder, hentry⟩ := Option.bind_eq_some_iff.mp h
  cases holder with
  | file => cases hentry
  | dir entries =>
    obtain ⟨next, hnext, -⟩ := Option.bind_eq_some_iff.mp hentry
    exact ⟨entries, next, hholder, hnext⟩

theorem at_entry (hdir : root.at? place = some (dir entries)) (hentry : entries.lookup name = some node) :
    root.at? (place ++ [name]) = some node := by
  simp [at_append, hdir, at?, hentry]

theorem leads_of_at (hnames : ∀ name ∈ names, IsName name.toList) (h : root.at? (place ++ names) = some node) :
    root.Leads place (names.map String.toList) (place ++ names) := by
  induction names generalizing place with
  | nil =>
    rw [List.append_nil]
    exact .here
  | cons name rest ih =>
    obtain ⟨entries, next, hdir, hentry⟩ := exists_entry h
    rw [List.append_cons] at h ⊢
    have hstep : entries.lookup (String.ofList name.toList) = some next := by rwa [String.ofList_toList]
    refine .entry hdir (hnames name List.mem_cons_self) hstep ?_
    rw [String.ofList_toList]
    exact ih (fun other hmem => hnames other (List.mem_cons_of_mem _ hmem)) h

theorem Leads.exists_node (h : root.Leads place segments last) (hplace : root.at? place = some node) :
    ∃ node, root.at? last = some node := by
  induction h generalizing node with
  | here => exact ⟨node, hplace⟩
  | stay _ _ _ ih => exact ih hplace
  | @up place _ _ _ hdir _ ih =>
    rcases List.eq_nil_or_concat place with rfl | ⟨init, name, rfl⟩
    · exact ih hdir
    · rw [List.concat_eq_append] at hdir ih
      rw [List.dropLast_concat] at ih
      obtain ⟨_, _, hholder, -⟩ := exists_entry hdir
      exact ih hholder
  | entry hdir _ hentry _ ih => exact ih (at_entry hdir hentry)

theorem Leads.mem (h : root.Leads place segments last) (hmem : name ∈ last) :
    name ∈ place ∨ IsName name.toList ∧ name.toList ∈ segments := by
  induction h with
  | here => exact .inl hmem
  | stay _ _ _ ih => exact (ih hmem).imp_right fun h => ⟨h.1, List.mem_cons_of_mem _ h.2⟩
  | up _ _ ih =>
    exact (ih hmem).imp (fun h => List.dropLast_subset _ h) fun h => ⟨h.1, List.mem_cons_of_mem _ h.2⟩
  | entry _ hname _ _ ih =>
    rcases ih hmem with hplace | h
    · rcases List.mem_append.mp hplace with hplace | hlast
      · exact .inl hplace
      · rw [List.mem_singleton.mp hlast, String.toList_ofList]
        exact .inr ⟨hname, List.mem_cons_self⟩
    · exact .inr ⟨h.1, List.mem_cons_of_mem _ h.2⟩

-- ---------------------------------------------------------------------------
-- The stack of a place
-- ---------------------------------------------------------------------------

def stackOf (place : List String) : List Component :=
  (place.map fun name => .name name.toList).reverse ++ [.root]

theorem stackOf_inj : stackOf place = stackOf last ↔ place = last := by
  have hname : Function.Injective fun name : String => Component.name name.toList := fun a b h =>
    String.toList_inj.mp (Component.name.inj h)
  rw [stackOf, stackOf, List.append_cancel_right_eq, List.reverse_inj, List.map_inj_right hname]

theorem push_stackOf_parent (place : List String) : Path.push (stackOf place) .parent = stackOf place.dropLast := by
  rcases List.eq_nil_or_concat place with rfl | ⟨init, name, rfl⟩
  · rfl
  · rw [List.concat_eq_append, List.dropLast_concat, stackOf, List.map_append, List.reverse_append]
    rfl

theorem push_stackOf_name (place : List String) (segment : List Char) :
    Path.push (stackOf place) (.name segment) = stackOf (place ++ [String.ofList segment]) := by
  simp [stackOf, Path.push]

theorem Leads.foldl_push (h : root.Leads place segments last) :
    (segments.filterMap Component.ofSegment?).foldl Path.push (stackOf place) = stackOf last := by
  induction h with
  | here => rfl
  | stay _ hstay _ ih =>
    rwa [List.filterMap_cons_none (by rcases hstay with rfl | rfl <;> rfl)]
  | up _ _ ih =>
    have hparent : Component.ofSegment? ['.', '.'] = some .parent := rfl
    rwa [List.filterMap_cons_some hparent, List.foldl_cons, push_stackOf_parent]
  | entry _ hname _ _ ih =>
    rwa [List.filterMap_cons_some (Path.ofSegment_name hname), List.foldl_cons, push_stackOf_name]

-- ---------------------------------------------------------------------------
-- Walks
-- ---------------------------------------------------------------------------

theorem not_leads_file (hfile : root.at? place = some (file text)) : ¬ root.Leads place (segment :: steps) last := by
  intro h
  cases h with
  | stay hdir => cases hfile.symm.trans hdir
  | up hdir => cases hfile.symm.trans hdir
  | entry hdir => cases hfile.symm.trans hdir

theorem leads_stay_iff (hdir : root.at? place = some (dir entries)) (hstay : segment = [] ∨ segment = ['.']) :
    root.Leads place (segment :: steps) last ↔ root.Leads place steps last := by
  refine ⟨fun h => ?_, .stay hdir hstay⟩
  cases h with
  | stay _ _ h => exact h
  | up => rcases hstay with h | h <;> cases h
  | entry _ hname =>
    rcases hstay with h | h
    · exact absurd h hname.1
    · exact absurd h hname.2.1

theorem leads_up_iff (hdir : root.at? place = some (dir entries)) :
    root.Leads place (['.', '.'] :: steps) last ↔ root.Leads place.dropLast steps last := by
  refine ⟨fun h => ?_, .up hdir⟩
  cases h with
  | stay _ hstay => rcases hstay with h | h <;> cases h
  | up _ h => exact h
  | entry _ hname => exact absurd rfl hname.2.2.1

theorem leads_entry_iff (hdir : root.at? place = some (dir entries)) (hname : IsName segment) :
    root.Leads place (segment :: steps) last ↔ ∃ node, entries.lookup (String.ofList segment) = some node ∧
      root.Leads (place ++ [String.ofList segment]) steps last := by
  constructor
  · intro h
    cases h with
    | stay _ hstay =>
      rcases hstay with h | h
      · exact absurd h hname.1
      · exact absurd h hname.2.1
    | up => exact absurd rfl hname.2.2.1
    | entry hother _ hentry h =>
      cases hdir.symm.trans hother
      exact ⟨_, hentry, h⟩
  · rintro ⟨node, hentry, h⟩
    exact .entry hdir hname hentry h

theorem Trail.at_eq (h : root.Trail place top below) : root.at? place = some top := by
  induction h with
  | root => rfl
  | entry _ hentry ih => exact at_entry ih hentry

theorem Trail.up (h : root.Trail place (dir entries) below) (steps : List (List Char)) :
    ∃ up above, root.Trail place.dropLast up above ∧
      walk (dir entries) below (['.', '.'] :: steps) = walk up above steps := by
  cases h with
  | root => exact ⟨_, _, .root, rfl⟩
  | entry h hentry =>
    rw [List.dropLast_concat]
    exact ⟨_, _, h, rfl⟩

/-- A walk does what the segments say, if no name is too long. -/
theorem walk_iff (htrail : root.Trail place top below) (hslash : ∀ segment ∈ segments, '/' ∉ segment) :
    walk top below segments = .ok node ↔
      (∀ segment ∈ segments, Text.byteLength segment ≤ nameLimit) ∧
        ∃ last, root.Leads place segments last ∧ root.at? last = some node := by
  induction segments generalizing place top below with
  | nil =>
    rw [walk, Except.ok.injEq]
    constructor
    · rintro rfl
      exact ⟨fun _ hmem => absurd hmem List.not_mem_nil, place, .here, htrail.at_eq⟩
    · rintro ⟨-, last, hleads, hlast⟩
      cases hleads
      exact Option.some.inj (htrail.at_eq.symm.trans hlast)
  | cons segment rest ih =>
    obtain ⟨hsegment, hrest⟩ := List.forall_mem_cons.mp hslash
    rw [List.forall_mem_cons]
    cases top with
    | file text =>
      simp only [walk, not_leads_file htrail.at_eq, false_and, exists_false, and_false, reduceCtorEq]
    | dir entries =>
      by_cases hstay : segment = [] ∨ segment = ['.']
      · have hshort : Text.byteLength segment ≤ nameLimit := by
          rcases hstay with rfl | rfl <;> decide
        have hwalk : walk (dir entries) below (segment :: rest) = walk (dir entries) below rest := by
          rcases hstay with rfl | rfl <;> simp [walk]
        simp only [hwalk, ih htrail hrest, leads_stay_iff htrail.at_eq hstay, hshort, true_and]
      · by_cases hup : segment = ['.', '.']
        · subst hup
          obtain ⟨up, above, hup, hwalk⟩ := htrail.up rest
          have hshort : Text.byteLength ['.', '.'] ≤ nameLimit := by decide
          simp only [hwalk, ih hup hrest, leads_up_iff htrail.at_eq, hshort, true_and]
        · rw [not_or] at hstay
          have hname : IsName segment := ⟨hstay.1, hstay.2, hup, hsegment⟩
          simp only [walk, hstay, hup, decide_false, Bool.or_self, Bool.false_eq_true, ↓reduceIte,
            leads_entry_iff htrail.at_eq hname]
          by_cases hlong : Text.byteLength segment > nameLimit
          · simp [hlong, Nat.not_le.mpr hlong]
          · rw [if_neg hlong]
            cases hentry : entries.lookup (String.ofList segment) with
            | none => simp
            | some next =>
              simp [ih (htrail.entry hentry) hrest, Nat.not_lt.mp hlong]

end FileTree

namespace FileSystem

variable {fs : FileSystem} {path other : String} {place otherPlace : List String} {node : FileTree}

def Leads (fs : FileSystem) (path : String) (place : List String) : Prop :=
  Path.isAbsolute path = true ∧ fs.root.Leads [] (Text.splitOn '/' path.toList) place

/-- A path that the system takes: it and the names in it are not too long, and it has no zero byte. -/
structure Fits (path : String) : Prop where
  noZero : '\x00' ∉ path.toList
  size : path.utf8ByteSize < pathLimit
  names : ∀ segment ∈ Text.splitOn '/' path.toList, Text.byteLength segment ≤ FileTree.nameLimit

theorem resolve_iff (habsolute : Path.isAbsolute path = true) :
    fs.resolve path = .ok node ↔ Fits path ∧ ∃ place, fs.Leads path place ∧ fs.root.at? place = some node := by
  have hempty : path ≠ "" := by
    rintro rfl
    cases habsolute
  have hslash : ∀ segment ∈ Text.splitOn '/' path.toList, '/' ∉ segment :=
    fun segment hmem => Text.notMem_of_mem_splitOn hmem
  have htrail : FileTree.Trail fs.root [] fs.root [] := .root
  rw [resolve, if_neg hempty]
  simp only [habsolute, ↓reduceIte, Leads, true_and]
  by_cases hzero : '\x00' ∈ path.toList
  · have hfits : ¬ Fits path := fun h => h.noZero hzero
    simp [hzero, hfits]
  · by_cases hsize : path.utf8ByteSize < pathLimit
    · have hfits : Fits path ↔
          ∀ segment ∈ Text.splitOn '/' path.toList, Text.byteLength segment ≤ FileTree.nameLimit :=
        ⟨Fits.names, fun h => ⟨hzero, hsize, h⟩⟩
      simp only [List.contains_iff_mem, hzero, Nat.not_le.mpr hsize, ↓reduceIte, FileTree.walk_iff htrail hslash, hfits]
    · have hfits : ¬ Fits path := fun h => hsize h.size
      simp [hzero, Nat.not_lt.mp hsize, hfits]

theorem Fits.normalize (habsolute : Path.isAbsolute path = true) (h : Fits path) : Fits (Path.normalize path) := by
  have hsegments : ∀ segment ∈ Text.splitOn '/' (Path.normalize path).toList,
      segment ∈ Text.splitOn '/' path.toList := fun segment => Path.mem_splitOn_normalize habsolute
  have hzero : ('\x00' : Char) ≠ '/' := by decide
  refine ⟨fun hmem => h.noZero ?_, ?_, fun segment hmem => h.names segment (hsegments segment hmem)⟩
  · obtain ⟨segment, hsegment, hmem⟩ := (Text.exists_mem_splitOn_iff hzero).mpr hmem
    exact (Text.exists_mem_splitOn_iff hzero).mp ⟨segment, hsegments segment hsegment, hmem⟩
  · have hle := Path.byteLength_normalize_le habsolute
    rw [← Text.utf8ByteSize_eq, ← Text.utf8ByteSize_eq] at hle
    exact Nat.lt_of_le_of_lt hle h.size

theorem folded_of_leads (h : fs.Leads path place) : Path.folded path = FileTree.stackOf place := by
  rw [Path.folded_eq, if_pos h.1]
  exact h.2.foldl_push

/-- Paths lead to one place exactly if they have one normal form. -/
theorem place_eq_iff (h : fs.Leads path place) (hother : fs.Leads other otherPlace) :
    place = otherPlace ↔ Path.normalize path = Path.normalize other := by
  rw [Path.normalize_eq_iff, folded_of_leads h, folded_of_leads hother, FileTree.stackOf_inj]

theorem root_of_leads (h : fs.Leads path place) : ∃ entries, fs.root = .dir entries := by
  obtain ⟨habsolute, hleads⟩ := h
  obtain ⟨cs, hcs⟩ := (Path.isAbsolute_iff path).mp habsolute
  rw [hcs, Text.splitOn_cons_self] at hleads
  cases hroot : fs.root with
  | file text =>
    have hfile : fs.root.at? [] = some (.file text) := congrArg some hroot
    exact absurd hleads (FileTree.not_leads_file hfile)
  | dir entries => exact ⟨entries, rfl⟩

/-- The normal form of a path leads where the path leads. -/
theorem leads_normalize (h : fs.Leads path place) : fs.Leads (Path.normalize path) place := by
  refine ⟨(Path.isAbsolute_normalize path).trans h.1, ?_⟩
  obtain ⟨entries, hroot⟩ := root_of_leads h
  have hdir : fs.root.at? [] = some (.dir entries) := congrArg some hroot
  obtain ⟨node, hnode⟩ := h.2.exists_node hdir
  have hnames : ∀ name ∈ place, IsName name.toList := fun name hmem =>
    (h.2.mem hmem).elim (fun hnil => absurd hnil List.not_mem_nil) And.left
  have hfolded : Path.folded path = ((place.map String.toList).map .name).reverse ++ [.root] := by
    rw [folded_of_leads h, FileTree.stackOf, List.map_map]
    rfl
  rw [Path.normalize_absolute hfolded, Text.splitOn_cons_self, FileTree.leads_stay_iff hdir (.inl rfl)]
  by_cases hplace : place = []
  · rw [hplace]
    exact .stay hdir (.inl rfl) .here
  · have hslash : ∀ segment ∈ place.map String.toList, '/' ∉ segment := by
      intro segment hmem
      obtain ⟨name, hname, rfl⟩ := List.mem_map.mp hmem
      exact (hnames name hname).2.2.2
    rw [Text.splitOn_joinWith (by simpa using hplace) hslash]
    exact FileTree.leads_of_at hnames (show fs.root.at? ([] ++ place) = some node from hnode)

/-- A path that is resolved is resolved in its normal form, to the same node. -/
theorem resolve_normalize (habsolute : Path.isAbsolute path = true) (h : fs.resolve path = .ok node) :
    fs.resolve (Path.normalize path) = .ok node := by
  obtain ⟨hfits, place, hleads, hat⟩ := (resolve_iff habsolute).mp h
  have hnormal := leads_normalize hleads
  exact (resolve_iff hnormal.1).mpr ⟨hfits.normalize habsolute, place, hnormal, hat⟩

end FileSystem

end TsBuild
