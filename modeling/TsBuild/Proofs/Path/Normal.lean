import TsBuild.Path
import TsBuild.Proofs.Text.Pieces

/-!
# Normal forms of paths

A path is normalized by way of a stack of components. What the stack comes to is normal
(`normalStack_folded`), is read back from its text (`components_render`), and so is not changed by
normalizing again (`normalize_normalize`). Joining is seen in it as pushing the segments of the second
path (`folded_join`).
-/

namespace TsBuild.Path

open TsBuild (Text.splitOn Text.joinWith)

def IsName (segment : List Char) : Prop :=
  segment ≠ [] ∧ segment ≠ ['.'] ∧ segment ≠ ['.', '.'] ∧ '/' ∉ segment

/-- Normal forms, last component first: names above the root, or above some `..`. -/
inductive NormalStack : List Component → Prop
  | root : NormalStack [.root]
  | parents (n : Nat) : NormalStack (List.replicate n .parent)
  | name {segment : List Char} {stack : List Component} (h : IsName segment) (below : NormalStack stack) :
      NormalStack (.name segment :: stack)

def segments (cs : List Char) : List Component :=
  (Text.splitOn '/' cs).filterMap Component.ofSegment?

def Component.IsStep (component : Component) : Prop :=
  component = .parent ∨ ∃ segment, IsName segment ∧ component = .name segment

def folded (path : String) : List Component := (components path).foldl push []

variable {names pieces : List (List Char)} {component : Component} {stack parts : List Component}

theorem normalize_eq (path : String) : normalize path = String.ofList (render (folded path).reverse) := rfl

-- ---------------------------------------------------------------------------
-- Segments
-- ---------------------------------------------------------------------------

theorem ofSegment_name {segment : List Char} (h : IsName segment) :
    Component.ofSegment? segment = some (.name segment) := by
  obtain ⟨hempty, hdot, hdots, -⟩ := h
  simp [Component.ofSegment?, hempty, hdot, hdots]

theorem isStep_of_mem_segments (h : component ∈ segments cs) : component.IsStep := by
  obtain ⟨segment, hmem, hsegment⟩ := List.mem_filterMap.mp h
  have hslash := Text.notMem_of_mem_splitOn hmem
  unfold Component.ofSegment? at hsegment
  split at hsegment
  · cases hsegment
  · rename_i hempty
    split at hsegment
    · cases hsegment
    · rename_i hdot
      split at hsegment
      · cases hsegment
        exact .inl rfl
      · rename_i hdots
        cases hsegment
        exact .inr ⟨segment, ⟨hempty, hdot, hdots, hslash⟩, rfl⟩

theorem segments_append (before after : List Char) :
    segments (before ++ '/' :: after) = segments before ++ segments after := by
  rw [segments, Text.splitOn_append, List.filterMap_append]
  rfl

theorem segments_slash (path other : String) :
    segments (path ++ "/" ++ other).toList = segments path.toList ++ segments other.toList := by
  simp [String.toList_append, segments_append]

theorem folded_eq (path : String) :
    folded path = (segments path.toList).foldl push (if isAbsolute path then [.root] else []) := by
  unfold folded components
  by_cases habs : isAbsolute path = true
  · simp only [habs, ↓reduceIte, List.foldl_cons]
    rfl
  · simp only [habs, Bool.false_eq_true, ↓reduceIte]
    split <;> rfl

-- ---------------------------------------------------------------------------
-- Pushing keeps normal forms
-- ---------------------------------------------------------------------------

theorem normalStack_push (h : NormalStack stack) (hstep : component.IsStep) :
    NormalStack (push stack component) := by
  obtain rfl | ⟨segment, hname, rfl⟩ := hstep
  · cases h with
    | root => exact .root
    | parents n =>
      cases n with
      | zero => exact .parents 1
      | succ n => exact .parents (n + 2)
    | name _ below => exact below
  · exact .name hname h

theorem normalStack_foldl (h : NormalStack stack) (hall : ∀ component ∈ parts, component.IsStep) :
    NormalStack (parts.foldl push stack) := by
  induction parts generalizing stack with
  | nil => exact h
  | cons component rest ih =>
    exact ih (normalStack_push h (hall component List.mem_cons_self))
      fun other hmem => hall other (List.mem_cons_of_mem _ hmem)

theorem normalStack_folded (path : String) : NormalStack (folded path) := by
  rw [folded_eq]
  refine normalStack_foldl ?_ fun _ => isStep_of_mem_segments
  split
  · exact .root
  · exact .parents 0

-- ---------------------------------------------------------------------------
-- The two kinds of normal forms
-- ---------------------------------------------------------------------------

/-- A normal form consists of names below the root or below some `..`. -/
theorem NormalStack.shape (h : NormalStack stack) :
    ∃ names : List (List Char), (∀ name ∈ names, IsName name) ∧
      (stack.reverse = .root :: names.map .name ∨
        ∃ n, stack.reverse = List.replicate n .parent ++ names.map .name) := by
  induction h with
  | root => exact ⟨[], by simp, .inl rfl⟩
  | parents n => exact ⟨[], by simp, .inr ⟨n, by simp⟩⟩
  | @name segment stack hname below ih =>
    obtain ⟨names, hnames, hshape⟩ := ih
    refine ⟨names ++ [segment], ?_, ?_⟩
    · intro name hmem
      rcases List.mem_append.mp hmem with hmem | hmem
      · exact hnames name hmem
      · rw [List.mem_singleton.mp hmem]
        exact hname
    · rcases hshape with hshape | ⟨n, hshape⟩
      · exact .inl (by simp [hshape])
      · exact .inr ⟨n, by simp [hshape]⟩

theorem map_text_name (names : List (List Char)) :
    (names.map Component.name).map Component.text = names := by
  rw [List.map_map]
  exact List.map_id _

theorem filterMap_names (h : ∀ name ∈ names, IsName name) :
    names.filterMap Component.ofSegment? = names.map .name := by
  induction names with
  | nil => rfl
  | cons name rest ih =>
    rw [List.filterMap_cons_some (ofSegment_name (h name List.mem_cons_self)),
      ih fun other hmem => h other (List.mem_cons_of_mem _ hmem), List.map_cons]

theorem segments_joinWith (h : ∀ piece ∈ pieces, '/' ∉ piece) :
    segments (Text.joinWith ['/'] pieces) = pieces.filterMap Component.ofSegment? := by
  unfold segments
  cases pieces with
  | nil => rfl
  | cons piece rest => rw [Text.splitOn_joinWith (List.cons_ne_nil _ _) h]

theorem components_absolute (h : ∀ name ∈ names, IsName name) :
    components (String.ofList (render (.root :: names.map .name))) = .root :: names.map .name := by
  have hslash : ∀ name ∈ names, '/' ∉ name := fun name hmem => (h name hmem).2.2.2
  rw [components]
  simp only [render, map_text_name, isAbsolute, String.toList_ofList, List.head?_cons, decide_true,
    ↓reduceIte, Text.splitOn_cons_self]
  have hsegments := segments_joinWith hslash
  rw [filterMap_names h, segments] at hsegments
  rw [List.filterMap_cons_none (by rfl), hsegments]

theorem components_joinWith (hslash : ∀ piece ∈ pieces, '/' ∉ piece)
    (hplain : ∀ piece ∈ pieces, piece ≠ [] ∧ piece ≠ ['.']) :
    components (String.ofList (Text.joinWith ['/'] pieces)) = pieces.filterMap Component.ofSegment? := by
  cases pieces with
  | nil => rfl
  | cons piece rest =>
    have hsplit := Text.splitOn_joinWith (List.cons_ne_nil piece rest) hslash
    have hrelative : isAbsolute (String.ofList (Text.joinWith ['/'] (piece :: rest))) = false := by
      rw [isAbsolute, String.toList_ofList, decide_eq_false_iff_not]
      intro hhead
      obtain ⟨cs, hcs⟩ := List.head?_eq_some_iff.mp hhead
      rw [hcs, Text.splitOn_cons_self] at hsplit
      exact (hplain piece List.mem_cons_self).1 (List.cons.inj hsplit).1.symm
    rw [components]
    simp only [hrelative, Bool.false_eq_true, ↓reduceIte, String.toList_ofList, hsplit, List.head?_cons,
      Option.some.injEq, (hplain piece List.mem_cons_self).2]

theorem render_relative (n : Nat) (names : List (List Char)) :
    render (List.replicate n .parent ++ names.map .name) =
      Text.joinWith ['/'] (List.replicate n ['.', '.'] ++ names) := by
  have hrender : render (List.replicate n .parent ++ names.map .name) =
      Text.joinWith ['/']
        ((List.replicate n Component.parent ++ names.map Component.name).map Component.text) := by
    cases n with
    | zero => cases names <;> rfl
    | succ n => rfl
  rw [hrender, List.map_append, map_text_name, List.map_replicate]
  rfl

theorem components_relative (n : Nat) (h : ∀ name ∈ names, IsName name) :
    components (String.ofList (render (List.replicate n .parent ++ names.map .name))) =
      List.replicate n .parent ++ names.map .name := by
  have hpieces : ∀ piece ∈ List.replicate n ['.', '.'] ++ names, piece = ['.', '.'] ∨ IsName piece := by
    intro piece hmem
    rcases List.mem_append.mp hmem with hmem | hmem
    · exact .inl (List.eq_of_mem_replicate hmem)
    · exact .inr (h piece hmem)
  rw [render_relative]
  refine (components_joinWith ?_ ?_).trans ?_
  · intro piece hmem
    rcases hpieces piece hmem with rfl | hname
    · decide
    · exact hname.2.2.2
  · intro piece hmem
    rcases hpieces piece hmem with rfl | hname
    · decide
    · exact ⟨hname.1, hname.2.1⟩
  · rw [List.filterMap_append, filterMap_names h, List.filterMap_replicate]
    rfl

theorem components_render (h : NormalStack stack) :
    components (String.ofList (render stack.reverse)) = stack.reverse := by
  obtain ⟨names, hnames, hshape | ⟨n, hshape⟩⟩ := h.shape
  · rw [hshape]
    exact components_absolute hnames
  · rw [hshape]
    exact components_relative n hnames

theorem foldl_push_reverse (h : NormalStack stack) : stack.reverse.foldl push [] = stack := by
  induction h with
  | root => rfl
  | parents n =>
    rw [List.reverse_replicate]
    induction n with
    | zero => rfl
    | succ n ih =>
      rw [List.replicate_succ', List.foldl_append, ih, ← List.replicate_succ']
      cases n <;> rfl
  | name _ _ ih => rw [List.reverse_cons, List.foldl_append, ih]; rfl

-- ---------------------------------------------------------------------------
-- Normalizing, joining
-- ---------------------------------------------------------------------------

theorem components_normalize (path : String) : components (normalize path) = (folded path).reverse :=
  components_render (normalStack_folded path)

theorem folded_normalize (path : String) : folded (normalize path) = folded path := by
  rw [folded, components_normalize, foldl_push_reverse (normalStack_folded path)]

theorem normalize_normalize (path : String) : normalize (normalize path) = normalize path := by
  rw [normalize_eq (normalize path), folded_normalize, normalize_eq]

theorem normalize_eq_iff : normalize path = normalize other ↔ folded path = folded other := by
  constructor
  · intro h
    rw [← folded_normalize path, h, folded_normalize]
  · intro h
    rw [normalize_eq, h, normalize_eq]

/-- The normal form depends on the segments alone, and on whether the path is absolute. -/
theorem normalize_congr (habsolute : isAbsolute path = isAbsolute other)
    (hsegments : segments path.toList = segments other.toList) : normalize path = normalize other := by
  rw [normalize_eq_iff, folded_eq, folded_eq, habsolute, hsegments]

theorem isAbsolute_iff (path : String) : isAbsolute path = true ↔ ∃ cs, path.toList = '/' :: cs := by
  rw [isAbsolute, decide_eq_true_iff, List.head?_eq_some_iff]

theorem root_mem_push (h : component.IsStep) : .root ∈ push stack component ↔ .root ∈ stack := by
  obtain rfl | ⟨segment, -, rfl⟩ := h
  · rcases stack with _ | ⟨_ | _ | _ | segment, below⟩ <;> simp [push]
  · simp [push]

theorem root_mem_foldl (h : ∀ component ∈ parts, component.IsStep) :
    .root ∈ parts.foldl push stack ↔ .root ∈ stack := by
  induction parts generalizing stack with
  | nil => rfl
  | cons component rest ih =>
    rw [List.foldl_cons, ih fun other hmem => h other (List.mem_cons_of_mem _ hmem),
      root_mem_push (h component List.mem_cons_self)]

theorem root_mem_folded (path : String) : .root ∈ folded path ↔ isAbsolute path = true := by
  rw [folded_eq, root_mem_foldl fun _ => isStep_of_mem_segments]
  split <;> simp_all

theorem root_notMem_segments (cs : List Char) : .root ∉ segments cs := by
  intro h
  obtain heq | ⟨_, -, heq⟩ := isStep_of_mem_segments h <;> cases heq

theorem root_mem_components (path : String) : .root ∈ components path ↔ isAbsolute path = true := by
  have hsegments := root_notMem_segments path.toList
  unfold segments at hsegments
  rw [components]
  split
  · simp_all
  · split <;> simp_all

theorem isAbsolute_normalize (path : String) : isAbsolute (normalize path) = isAbsolute path := by
  rw [Bool.eq_iff_iff, ← root_mem_components, components_normalize, List.mem_reverse, root_mem_folded]

theorem names_of_absolute (habsolute : isAbsolute path = true) (hnormal : normalize path = path) :
    ∃ names : List (List Char), (∀ name ∈ names, IsName name) ∧
      path = String.ofList (render (.root :: names.map .name)) := by
  obtain ⟨names, hnames, hshape | ⟨n, hshape⟩⟩ := (normalStack_folded path).shape
  · exact ⟨names, hnames, by rw [← hshape, ← normalize_eq, hnormal]⟩
  · rw [← root_mem_folded, ← List.mem_reverse, hshape] at habsolute
    simp at habsolute

theorem join_of_isAbsolute (h : isAbsolute path = true) : join base path = path := by
  rw [join, if_pos h]

theorem absolutize_eq (path cwd : String) : absolutize path cwd = normalize (join cwd path) := by
  unfold absolutize
  split
  · rename_i h
    rw [join_of_isAbsolute h]
  · rfl

theorem toList_join (base : String) (h : isAbsolute path = false) :
    (join base path).toList =
      if base.toList = [] ∨ base.toList.getLast? = some '/' then base.toList ++ path.toList
      else base.toList ++ '/' :: path.toList := by
  have hempty : base.isEmpty = true ↔ base.toList = [] := by
    rw [String.isEmpty_iff, String.toList_eq_nil_iff]
  rw [join, h]
  simp only [Bool.false_eq_true, ↓reduceIte, Bool.or_eq_true, hempty, decide_eq_true_eq]
  split
  · rw [String.toList_append]
  · simp

theorem isAbsolute_join (base : String) (h : isAbsolute path = false) :
    isAbsolute (join base path) = isAbsolute base := by
  rw [isAbsolute] at h
  rw [isAbsolute, isAbsolute, toList_join base h]
  cases hbase : base.toList with
  | nil => simpa using h
  | cons c cs => split <;> rfl

theorem segments_join (base : String) (h : isAbsolute path = false) :
    segments (join base path).toList = segments base.toList ++ segments path.toList := by
  rw [toList_join base h]
  split
  · rename_i hbase
    rcases hbase with hbase | hbase
    · rw [hbase]
      rfl
    · obtain ⟨before, hbefore⟩ := List.getLast?_eq_some_iff.mp hbase
      rw [hbefore, List.append_assoc, List.singleton_append, segments_append, segments_append]
      change _ = segments before ++ [] ++ _
      rw [List.append_nil]
  · exact segments_append _ _

/-- Joining pushes the segments of a relative path on what the base comes to. -/
theorem folded_join (base : String) (h : isAbsolute path = false) :
    folded (join base path) = (segments path.toList).foldl push (folded base) := by
  rw [folded_eq, folded_eq base, isAbsolute_join base h, segments_join base h, List.foldl_append]

end TsBuild.Path
