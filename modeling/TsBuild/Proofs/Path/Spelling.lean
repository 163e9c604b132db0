import TsBuild.Proofs.Path.Normal

/-!
# Reading a path inside a directory twice

A path that has been read inside a directory is meant to be read there again without change. That is so
exactly if the path or the directory is absolute, or the directory read inside itself is itself, as `.`
and `../x` are: its normal form has as many `..` as names (`absolutize_absolutize_iff`).
-/

namespace TsBuild.Path

def IsBalanced (path : String) : Prop := (folded path).length = 2 * (folded path).count .parent

instance (path : String) : Decidable (IsBalanced path) :=
  inferInstanceAs (Decidable ((folded path).length = 2 * (folded path).count .parent))

theorem foldl_push_parents (n : Nat) (names : List (List Char)) (parents : Nat) :
    (List.replicate n Component.parent).foldl push
        (names.map Component.name ++ List.replicate parents Component.parent) =
      (names.drop n).map Component.name ++
        List.replicate (parents + (n - names.length)) Component.parent := by
  induction n generalizing names parents with
  | zero => simp
  | succ n ih =>
    rw [List.replicate_succ, List.foldl_cons]
    cases names with
    | nil =>
      have hpush : push ([].map Component.name ++ List.replicate parents .parent) .parent =
          [].map Component.name ++ List.replicate (parents + 1) .parent := by
        cases parents <;> rfl
      rw [hpush, ih]
      simp only [List.drop_nil, List.length_nil, Nat.sub_zero]
      rw [Nat.add_assoc, Nat.add_comm 1 n]
    | cons name rest =>
      change (List.replicate n Component.parent).foldl push
        (rest.map Component.name ++ List.replicate parents Component.parent) = _
      rw [ih, List.drop_succ_cons, List.length_cons, Nat.add_sub_add_right]

theorem foldl_push_names (names : List (List Char)) (stack : List Component) :
    (names.map Component.name).foldl push stack = (names.map Component.name).reverse ++ stack := by
  induction names generalizing stack with
  | nil => rfl
  | cons name rest ih =>
    rw [List.map_cons, List.foldl_cons, ih, List.reverse_cons, List.append_assoc]
    rfl

/-- No `..` is ever lost. -/
theorem count_parent_foldl {parts : List Component} (h : ∀ component ∈ parts, component.IsStep)
    (stack : List Component) : stack.count .parent ≤ (parts.foldl push stack).count .parent := by
  induction parts generalizing stack with
  | nil => exact Nat.le_refl _
  | cons component rest ih =>
    refine Nat.le_trans ?_ (ih (fun other hmem => h other (List.mem_cons_of_mem _ hmem)) _)
    obtain rfl | ⟨segment, -, rfl⟩ := h component List.mem_cons_self
    · rcases stack with _ | ⟨_ | _ | _ | segment, below⟩ <;> simp [push]
    · simp [push]

/-- A relative normal form: names above some `..`, last component first. -/
theorem folded_relative (h : isAbsolute path = false) :
    ∃ (names : List (List Char)) (n : Nat), (∀ name ∈ names, IsName name) ∧
      folded path = names.map Component.name ++ List.replicate n Component.parent := by
  obtain ⟨names, hnames, hshape | ⟨n, hshape⟩⟩ := (normalStack_folded path).shape
  · have hroot : .root ∈ (folded path).reverse := hshape ▸ List.mem_cons_self
    rw [List.mem_reverse, root_mem_folded, h] at hroot
    cases hroot
  · refine ⟨names.reverse, n, fun name hmem => hnames name (List.mem_reverse.mp hmem), ?_⟩
    rw [← List.reverse_inj, hshape]
    simp

theorem segments_normalize (h : isAbsolute path = false) :
    segments (normalize path).toList = (folded path).reverse := by
  obtain ⟨names, n, -, hfolded⟩ := folded_relative h
  have hcomponents := components_normalize path
  simp only [components, isAbsolute_normalize, h, Bool.false_eq_true, ↓reduceIte] at hcomponents
  split at hcomponents
  · -- A normal form has no `.` to begin with.
    have hcurrent : Component.current ∈ (folded path).reverse := hcomponents ▸ List.mem_cons_self
    rw [List.mem_reverse, hfolded] at hcurrent
    simp at hcurrent
  · exact hcomponents

theorem count_parent (names : List (List Char)) (n : Nat) :
    (names.map Component.name ++ List.replicate n Component.parent).count .parent = n := by
  rw [List.count_append, List.count_replicate_self, List.count_eq_zero_of_not_mem (by simp), Nat.zero_add]

theorem folded_join_normalize (hpath : isAbsolute path = false) (cwd : String) :
    folded (join cwd (normalize path)) = (folded path).reverse.foldl push (folded cwd) := by
  rw [folded_join cwd (by rw [isAbsolute_normalize, hpath]), segments_normalize hpath]

theorem absolutize_relative_iff (hpath : isAbsolute path = false) (hcwd : isAbsolute cwd = false) :
    absolutize (absolutize path cwd) cwd = absolutize path cwd ↔ IsBalanced cwd := by
  have hjoin : isAbsolute (join cwd path) = false := by rw [isAbsolute_join cwd hpath, hcwd]
  obtain ⟨dirs, m, -, hdirs⟩ := folded_relative hcwd
  obtain ⟨names, n, -, hnames⟩ := folded_relative hjoin
  -- What is read has at least the `..` of the directory.
  have hsteps : ∀ component ∈ segments path.toList, component.IsStep := fun _ => isStep_of_mem_segments
  have hcount := count_parent_foldl hsteps (folded cwd)
  rw [← folded_join cwd hpath, hnames, hdirs, count_parent, count_parent] at hcount
  rw [absolutize_eq path, absolutize_eq, normalize_eq_iff, folded_join_normalize hjoin, hnames, hdirs,
    List.reverse_append, List.reverse_replicate, List.foldl_append, foldl_push_parents, ← List.map_reverse,
    foldl_push_names, ← List.map_reverse, List.reverse_reverse, List.append_cancel_left_eq]
  rw [IsBalanced, hdirs, count_parent, List.length_append, List.length_map, List.length_replicate]
  constructor
  · intro heq
    have hlength := congrArg List.length heq
    have hparents := congrArg (List.count .parent) heq
    rw [count_parent, List.count_replicate_self] at hparents
    simp only [List.length_append, List.length_map, List.length_drop, List.length_replicate] at hlength
    omega
  · intro hbalanced
    rw [List.drop_eq_nil_of_le (by omega), List.map_nil, List.nil_append]
    congr 1
    omega

/-- Reading a path inside a directory a second time changes nothing exactly if it is absolute then, or
the directory is balanced. -/
theorem absolutize_absolutize_iff (path cwd : String) :
    absolutize (absolutize path cwd) cwd = absolutize path cwd ↔
      isAbsolute path = true ∨ isAbsolute cwd = true ∨ IsBalanced cwd := by
  have hagain : isAbsolute (join cwd path) = true →
      absolutize (absolutize path cwd) cwd = absolutize path cwd := by
    intro habsolute
    rw [absolutize_eq path, absolutize_eq, join_of_isAbsolute, normalize_normalize]
    rw [isAbsolute_normalize, habsolute]
  cases hpath : isAbsolute path with
  | true =>
    have hjoin : isAbsolute (join cwd path) = true := by rw [join_of_isAbsolute hpath, hpath]
    simp [hagain hjoin]
  | false =>
    cases hcwd : isAbsolute cwd with
    | true =>
      have hjoin : isAbsolute (join cwd path) = true := by rw [isAbsolute_join cwd hpath, hcwd]
      simp [hagain hjoin]
    | false => simp [absolutize_relative_iff hpath hcwd]

end TsBuild.Path
