import TsBuild.Proofs.Path.Directory
import TsBuild.Proofs.Program.Loads

/-!
# Where declaration packages are found

The climb from each file stops at the first directory seen before. Nothing is lost by that, since all
directories above one that was seen were seen too: the type roots are those of all directories above the
files, each where it is met first (`typeRoots_eq`). The entry of a package is that of the first type root
that has one for its name (`mem_entriesAcross`), so where no name has an entry in two of them their order
does not matter (`mem_typeEntries`).
-/

namespace TsBuild.Program

variable {fs : FileSystem} {seen files roots : List String} {file root : String}

-- ---------------------------------------------------------------------------
-- Directories above files
-- ---------------------------------------------------------------------------

def above (file : String) : List String := (Path.ancestors file).drop 1

/-- With a directory there are all that are above it. -/
def IsClimbed (dirs : List String) : Prop := ∀ dir ∈ dirs, ∀ other ∈ Path.ancestors dir, other ∈ dirs

theorem ancestors_subset_above (hdir : dir ∈ above file) (hother : other ∈ Path.ancestors dir) :
    other ∈ above file := by
  obtain ⟨before, rest, hsplit⟩ := List.append_of_mem hdir
  have hsuffix : dir :: rest <:+ above file := ⟨before, hsplit.symm⟩
  rw [Path.ancestors_of_suffix (hsuffix.trans (List.drop_suffix 1 _))] at hother
  exact hsuffix.subset hother

theorem newDirs_eq (hseen : IsClimbed seen) (file : String) :
    newDirs seen file = (above file).filter fun dir => !seen.contains dir := by
  have hsuffix : ∀ dirs, dirs <:+ Path.ancestors file →
      dirs.takeWhile (fun dir => !seen.contains dir) = dirs.filter fun dir => !seen.contains dir := by
    intro dirs hdirs
    induction dirs with
    | nil => rfl
    | cons dir rest ih =>
      have hrest : rest <:+ Path.ancestors file := (List.suffix_cons dir rest).trans hdirs
      by_cases hmem : dir ∈ seen
      · have hall : ∀ other ∈ rest, other ∈ seen := by
          intro other hother
          refine hseen dir hmem other ?_
          rw [Path.ancestors_of_suffix hdirs]
          exact List.mem_cons_of_mem _ hother
        rw [List.takeWhile_cons_of_neg (by simpa using hmem), List.filter_cons_of_neg (by simpa using hmem)]
        exact (List.filter_eq_nil_iff.mpr fun other hother => by simpa using hall other hother).symm
      · rw [List.takeWhile_cons_of_pos (by simpa using hmem), List.filter_cons_of_pos (by simpa using hmem),
          ih hrest]
  exact hsuffix _ (List.drop_suffix 1 _)

theorem IsClimbed.newDirs (hseen : IsClimbed seen) (file : String) :
    IsClimbed (newDirs seen file ++ seen) := by
  intro dir hdir other hother
  rw [newDirs_eq hseen] at hdir ⊢
  by_cases hold : other ∈ seen
  · exact List.mem_append_right _ hold
  · rcases List.mem_append.mp hdir with hnew | hdir
    · have habove := ancestors_subset_above (List.mem_filter.mp hnew).1 hother
      exact List.mem_append_left _ (List.mem_filter.mpr ⟨habove, by simpa using hold⟩)
    · exact absurd (hseen dir hdir other hother) hold

/-- The directories met are all those above the files, each where it is met first. -/
theorem dirsAbove_eq (hseen : IsClimbed seen) (files : List String) :
    dirsAbove seen files = ((files.flatMap above).filter fun dir => !seen.contains dir).eraseDups := by
  induction files generalizing seen with
  | nil => rfl
  | cons file rest ih =>
    have hnodup : (newDirs seen file).Nodup :=
      ((Path.nodup_ancestors file).sublist (List.drop_sublist 1 _)).sublist (List.takeWhile_sublist _)
    rw [dirsAbove, ih (hseen.newDirs file), List.flatMap_cons, List.filter_append, ← newDirs_eq hseen,
      List.eraseDups_append, eraseDups_eq_self hnodup, List.removeAll, List.filter_filter]
    congr 3
    funext dir
    simp [Bool.and_comm]

theorem typeRoots_eq (fs : FileSystem) (files : List String) :
    typeRoots fs files = ((files.flatMap above).eraseDups.map typeRootOf).filter fs.isDir := by
  have hall : (files.flatMap above).filter (fun dir => !([] : List String).contains dir) =
      files.flatMap above := List.filter_eq_self.mpr fun _ _ => rfl
  rw [typeRoots, dirsAbove_eq (by rintro _ ⟨⟩), hall]

theorem mem_typeRoots :
    root ∈ typeRoots fs files ↔ (∃ file ∈ files, ∃ dir ∈ above file, typeRootOf dir = root) ∧ fs.isDir root := by
  rw [typeRoots_eq, List.mem_filter, List.mem_map]
  refine and_congr_left fun _ => ?_
  constructor
  · rintro ⟨dir, hdir, rfl⟩
    obtain ⟨file, hfile, habove⟩ := List.mem_flatMap.mp (List.mem_eraseDups.mp hdir)
    exact ⟨file, hfile, dir, habove, rfl⟩
  · rintro ⟨file, hfile, dir, habove, rfl⟩
    exact ⟨dir, List.mem_eraseDups.mpr (List.mem_flatMap.mpr ⟨file, hfile, habove⟩), rfl⟩

-- ---------------------------------------------------------------------------
-- Entries
-- ---------------------------------------------------------------------------

variable {types : Option (List String)} {found : List (String × String)} {name entry : String}

theorem mem_entriesIn {names : List String} :
    (name, entry) ∈ entriesIn fs root found names ↔
      name ∈ names ∧ found.lookup name = none ∧ entryFile? fs (Path.join root name) = some entry := by
  induction names generalizing found with
  | nil => simp [entriesIn]
  | cons first rest ih =>
    rw [entriesIn]
    split
    · rename_i hnone
      rw [ih, List.mem_cons]
      refine ⟨fun h => ⟨.inr h.1, h.2⟩, fun ⟨hmem, hnew, hentry⟩ => ⟨hmem.resolve_left ?_, hnew, hentry⟩⟩
      rintro rfl
      simp [hnew, hentry] at hnone
    · rename_i target htarget
      obtain ⟨hold, htarget⟩ := Option.ite_none_left_eq_some.mp htarget
      have hnew : found.lookup first = none := Option.not_isSome_iff_eq_none.mp hold
      rw [List.mem_cons, ih, List.mem_cons, Prod.mk.injEq, List.lookup_cons]
      by_cases hname : name = first
      · subst hname
        simp [hnew, htarget, eq_comm]
      · rw [beq_eq_false_iff_ne.mpr hname]
        simp [hname]

theorem lookup_append_eq_none {later : List (String × String)} :
    (later ++ found).lookup name = none ↔ later.lookup name = none ∧ found.lookup name = none := by
  rw [List.lookup_append, Option.or_eq_none_iff]

theorem lookup_entriesIn_eq_none (hnew : found.lookup name = none) {names : List String} :
    (entriesIn fs root found names).lookup name = none ↔
      (name ∈ names → entryFile? fs (Path.join root name) = none) := by
  rw [List.lookup_eq_none_iff]
  constructor
  · intro h hmem
    cases hentry : entryFile? fs (Path.join root name) with
    | none => rfl
    | some entry => exact absurd (h _ (mem_entriesIn.mpr ⟨hmem, hnew, hentry⟩)) (by simp)
  · rintro h ⟨other, entry⟩ hmem
    obtain ⟨hother, -, hentry⟩ := mem_entriesIn.mp hmem
    rw [bne_iff_ne]
    rintro rfl
    rw [h hother] at hentry
    cases hentry

/-- Under each name that is considered, the entry of the first type root that has one. -/
theorem mem_entriesAcross :
    (name, entry) ∈ entriesAcross fs types found roots ↔
      found.lookup name = none ∧ ∃ before root after, roots = before ++ root :: after ∧
        name ∈ types.getD (packageNames fs root) ∧ entryFile? fs (Path.join root name) = some entry ∧
        ∀ other ∈ before, name ∈ types.getD (packageNames fs other) →
          entryFile? fs (Path.join other name) = none := by
  induction roots generalizing found with
  | nil => simp [entriesAcross]
  | cons first rest ih =>
    rw [entriesAcross, List.mem_append, mem_entriesIn, ih, lookup_append_eq_none]
    constructor
    · rintro (⟨hmem, hnew, hentry⟩ | ⟨⟨hfirst, hnew⟩, before, root, after, rfl, hmem, hentry, hbefore⟩)
      · exact ⟨hnew, [], first, rest, rfl, hmem, hentry, by rintro _ ⟨⟩⟩
      · exact ⟨hnew, first :: before, root, after, rfl, hmem, hentry,
          List.forall_mem_cons.mpr ⟨(lookup_entriesIn_eq_none hnew).mp hfirst, hbefore⟩⟩
    · rintro ⟨hnew, before, root, after, hsplit, hmem, hentry, hbefore⟩
      cases before with
      | nil =>
        obtain ⟨rfl, rfl⟩ := List.cons.inj hsplit
        exact .inl ⟨hmem, hnew, hentry⟩
      | cons other before =>
        obtain ⟨rfl, rfl⟩ := List.cons.inj hsplit
        obtain ⟨hother, hbefore⟩ := List.forall_mem_cons.mp hbefore
        exact .inr ⟨⟨(lookup_entriesIn_eq_none hnew).mpr hother, hnew⟩, before, root, after, rfl, hmem,
          hentry, hbefore⟩

def IsUnambiguous (fs : FileSystem) (roots : List String) (name : String) : Prop :=
  ∀ root ∈ roots, ∀ other ∈ roots, (entryFile? fs (Path.join root name)).isSome →
    (entryFile? fs (Path.join other name)).isSome → root = other

instance (fs : FileSystem) (roots : List String) (name : String) : Decidable (IsUnambiguous fs roots name) :=
  inferInstanceAs (Decidable (∀ root ∈ roots, ∀ other ∈ roots, _ → _ → _))

theorem mem_typeEntries
    (h : ∀ root ∈ roots, ∀ name ∈ types.getD (packageNames fs root), IsUnambiguous fs roots name) :
    entry ∈ typeEntries fs roots types ↔ ∃ root ∈ roots, ∃ name ∈ types.getD (packageNames fs root),
      entryFile? fs (Path.join root name) = some entry := by
  rw [typeEntries, List.mem_map]
  constructor
  · rintro ⟨⟨name, _⟩, hmem, rfl⟩
    obtain ⟨-, before, root, after, rfl, hname, hentry, -⟩ := mem_entriesAcross.mp hmem
    exact ⟨root, by simp, name, hname, hentry⟩
  · rintro ⟨root, hroot, name, hname, hentry⟩
    obtain ⟨before, after, hsplit, hbefore⟩ := List.eq_append_cons_of_mem hroot
    refine ⟨(name, entry), mem_entriesAcross.mpr
      ⟨rfl, before, root, after, hsplit, hname, hentry, fun other hother _ => ?_⟩, rfl⟩
    have hmem : other ∈ roots := hsplit ▸ List.mem_append_left _ hother
    cases hsome : entryFile? fs (Path.join other name) with
    | none => rfl
    | some _ =>
      have hsame := h root hroot name hname root hroot other hmem (by simp [hentry]) (by simp [hsome])
      exact absurd (hsame ▸ hother) hbefore

end TsBuild.Program
