import Mathlib.Algebra.GroupWithZero.Nat
import TsBuild.Proofs.Path.Spelling
import TsBuild.Proofs.Text.Lines

/-!
# Paths that are normal as they stand

A normal form is written as names below the root or behind some `..` (`IsCanonical`). These are the paths that
normalizing gives (`isCanonical_normalize`) and the ones it leaves alone (`normalize_of_isCanonical`). What is read
inside a directory comes to the same inside the normal form of the directory (`normalize_join_normalize`). What
is made of a path in this way has no more bytes than the path (`byteLength_normalize_le`).
-/

namespace TsBuild.Path

inductive IsCanonical : String → Prop
  | absolute (names : List (List Char)) (h : ∀ name ∈ names, IsName name) :
      IsCanonical (String.ofList ('/' :: Text.joinWith ['/'] names))
  | relative (n : Nat) (names : List (List Char)) (h : ∀ name ∈ names, IsName name) :
      IsCanonical (String.ofList (Text.joinWith ['/'] (List.replicate n ['.', '.'] ++ names)))

variable {path : String} {component pushed : Component} {stack parts : List Component}

-- ---------------------------------------------------------------------------
-- What normalizing gives, and what it leaves alone
-- ---------------------------------------------------------------------------

theorem render_absolute (names : List (List Char)) :
    render (.root :: names.map .name) = '/' :: Text.joinWith ['/'] names := by
  rw [render, map_text_name]

theorem isCanonical_normalize (path : String) : IsCanonical (normalize path) := by
  rw [normalize_eq]
  obtain ⟨names, hnames, hshape | ⟨n, hshape⟩⟩ := (normalStack_folded path).shape
  · rw [hshape, render_absolute]
    exact .absolute names hnames
  · rw [hshape, render_relative]
    exact .relative n names hnames

theorem normalize_of_isCanonical (h : IsCanonical path) : normalize path = path := by
  cases h with
  | absolute names h =>
    have hfolded : folded (String.ofList (render (.root :: names.map .name))) =
        (names.map Component.name).reverse ++ [.root] := by
      rw [folded, components_absolute h, List.foldl_cons]
      exact foldl_push_names names [.root]
    rw [← render_absolute, normalize_eq, hfolded]
    simp
  | relative n names h =>
    have hparents : (List.replicate n Component.parent).foldl push [] = List.replicate n .parent := by
      simpa using foldl_push_parents n [] 0
    have hfolded : folded (String.ofList (render (List.replicate n .parent ++ names.map .name))) =
        (names.map Component.name).reverse ++ List.replicate n .parent := by
      rw [folded, components_relative n h, List.foldl_append, hparents, foldl_push_names]
    rw [← render_relative, normalize_eq, hfolded]
    simp

theorem normalize_eq_self_iff : normalize path = path ↔ IsCanonical path :=
  ⟨fun h => h ▸ isCanonical_normalize path, normalize_of_isCanonical⟩

-- ---------------------------------------------------------------------------
-- Segments of a canonical text
-- ---------------------------------------------------------------------------

theorem IsCanonical.splitOn_eq (h : IsCanonical path) :
    ∃ n rest, Text.splitOn '/' path.toList = List.replicate n ['.', '.'] ++ rest ∧
      (isAbsolute path = true → n = 0) ∧ ['.'] ∉ rest ∧ ['.', '.'] ∉ rest := by
  have hplain : ∀ names : List (List Char), (∀ name ∈ names, IsName name) → ['.'] ∉ names ∧ ['.', '.'] ∉ names :=
    fun names hnames => ⟨fun hmem => (hnames _ hmem).2.1 rfl, fun hmem => (hnames _ hmem).2.2.1 rfl⟩
  cases h with
  | absolute names h =>
    rw [String.toList_ofList, Text.splitOn_cons_self]
    refine ⟨0, _, rfl, fun _ => rfl, ?_⟩
    cases names with
    | nil => decide
    | cons name rest =>
      rw [Text.splitOn_joinWith (List.cons_ne_nil _ _) fun name hmem => (h name hmem).2.2.2]
      simpa using hplain _ h
  | relative n names h =>
    rw [String.toList_ofList]
    by_cases hne : List.replicate n ['.', '.'] ++ names = []
    · rw [hne]
      exact ⟨0, [[]], rfl, fun _ => rfl, by decide, by decide⟩
    · have hslash : ∀ piece ∈ List.replicate n ['.', '.'] ++ names, '/' ∉ piece := by
        intro piece hmem
        rcases List.mem_append.mp hmem with hmem | hmem
        · rw [List.eq_of_mem_replicate hmem]
          decide
        · exact (h piece hmem).2.2.2
      rw [Text.splitOn_joinWith hne hslash]
      refine ⟨n, names, rfl, ?_, hplain names h⟩
      intro habsolute
      obtain ⟨cs, hcs⟩ := (isAbsolute_iff _).mp habsolute
      -- The first segment of an absolute path is empty.
      have hhead := congrArg (List.head? <| Text.splitOn '/' ·) hcs
      rw [String.toList_ofList] at hhead
      simp only [Text.splitOn_joinWith hne hslash, Text.splitOn_cons_self, List.head?_cons] at hhead
      cases n with
      | zero => rfl
      | succ n => cases hhead

-- ---------------------------------------------------------------------------
-- Names and sizes
-- ---------------------------------------------------------------------------

/-- The bytes that a component takes up in a path, with the slash before it. -/
def Component.size : Component → Nat
  | root => 0
  | component => Text.byteLength component.text + 1

theorem sum_size_push (stack : List Component) (component : Component) :
    ((push stack component).map Component.size).sum ≤ (stack.map Component.size).sum + component.size := by
  cases component with
  | root => exact Nat.zero_le _
  | current => exact Nat.le_add_right _ _
  | name => simp [push, Nat.add_comm]
  | parent =>
    rcases stack with _ | ⟨_ | _ | _ | segment, below⟩ <;> simp [push] <;> omega

theorem sum_size_foldl (parts stack : List Component) :
    ((parts.foldl push stack).map Component.size).sum ≤
      (stack.map Component.size).sum + (parts.map Component.size).sum := by
  induction parts generalizing stack with
  | nil => exact Nat.le_refl _
  | cons component rest ih =>
    calc ((rest.foldl push (push stack component)).map Component.size).sum
      _ ≤ ((push stack component).map Component.size).sum + (rest.map Component.size).sum := ih _
      _ ≤ (stack.map Component.size).sum + component.size + (rest.map Component.size).sum :=
        Nat.add_le_add_right (sum_size_push stack component) _
      _ = _ := by rw [List.map_cons, List.sum_cons, Nat.add_assoc]

theorem sum_splitOn (cs : List Char) :
    ((Text.splitOn '/' cs).map (Text.byteLength · + 1)).sum = Text.byteLength cs + 1 := by
  induction cs with
  | nil => rfl
  | cons c cs ih =>
    by_cases hc : c = '/'
    · subst hc
      have hsize : ('/' : Char).utf8Size = 1 := rfl
      rw [Text.splitOn_cons_self, List.map_cons, List.sum_cons, ih, Text.byteLength, Text.byteLength, hsize]
      omega
    · obtain ⟨piece, rest, hpieces⟩ := List.exists_cons_of_ne_nil (Text.splitOn_ne_nil '/' cs)
      rw [hpieces, List.map_cons, List.sum_cons] at ih
      rw [Text.splitOn_cons hc hpieces, List.map_cons, List.sum_cons, Text.byteLength, Text.byteLength]
      omega

theorem text_of_ofSegment {segment : List Char} (h : Component.ofSegment? segment = some component) :
    component.text = segment ∧ component.size = Text.byteLength segment + 1 := by
  unfold Component.ofSegment? at h
  split at h
  · cases h
  · split at h
    · cases h
    · split at h
      · rename_i hdots
        cases h
        exact ⟨hdots.symm, hdots ▸ rfl⟩
      · cases h
        exact ⟨rfl, rfl⟩

theorem sum_size_segments (cs : List Char) : ((segments cs).map Component.size).sum ≤ Text.byteLength cs + 1 := by
  rw [← sum_splitOn, segments]
  induction Text.splitOn '/' cs with
  | nil => exact Nat.le_refl _
  | cons piece rest ih =>
    cases hpiece : Component.ofSegment? piece with
    | none =>
      rw [List.filterMap_cons_none hpiece, List.map_cons, List.sum_cons]
      exact Nat.le_trans ih (Nat.le_add_left _ _)
    | some component =>
      rw [List.filterMap_cons_some hpiece, List.map_cons, List.sum_cons, List.map_cons, List.sum_cons,
        (text_of_ofSegment hpiece).2]
      exact Nat.add_le_add_left ih _

theorem mem_push (h : component ∈ push stack pushed) : component ∈ stack ∨ component = pushed := by
  cases pushed with
  | root => exact .inr (List.mem_singleton.mp h)
  | current => exact .inl h
  | name => exact (List.mem_cons.mp h).symm
  | parent =>
    rcases stack with _ | ⟨_ | _ | _ | segment, below⟩
    · exact .inr (List.mem_singleton.mp h)
    · exact .inl h
    · exact (List.mem_cons.mp h).symm
    · exact (List.mem_cons.mp h).symm
    · exact .inl (List.mem_cons_of_mem _ h)

theorem mem_foldl_push (h : component ∈ parts.foldl push stack) : component ∈ stack ∨ component ∈ parts := by
  induction parts generalizing stack with
  | nil => exact .inl h
  | cons pushed rest ih =>
    rcases ih h with hstack | hrest
    · exact (mem_push hstack).imp_right fun heq => List.mem_cons.mpr (.inl heq)
    · exact .inr (List.mem_cons_of_mem _ hrest)

theorem folded_absolute (h : isAbsolute path = true) :
    ∃ names : List (List Char), (∀ name ∈ names, IsName name ∧ name ∈ Text.splitOn '/' path.toList) ∧
      folded path = (names.map .name).reverse ++ [.root] := by
  obtain ⟨names, hnames, hshape | ⟨n, hshape⟩⟩ := (normalStack_folded path).shape
  · have hfolded : folded path = (names.map .name).reverse ++ [.root] := by
      rw [← List.reverse_inj, hshape]
      simp
    refine ⟨names, fun name hmem => ⟨hnames name hmem, ?_⟩, hfolded⟩
    have hstack : .name name ∈ folded path := by
      rw [hfolded]
      simpa using hmem
    rw [folded_eq, if_pos h] at hstack
    rcases mem_foldl_push hstack with hroot | hsegment
    · simp at hroot
    · obtain ⟨segment, hpiece, heq⟩ := List.mem_filterMap.mp hsegment
      rw [show name = segment from (text_of_ofSegment heq).1]
      exact hpiece
  · have hroot := (root_mem_folded path).mpr h
    rw [← List.mem_reverse, hshape] at hroot
    simp at hroot

theorem normalize_absolute {names : List (List Char)} (h : folded path = (names.map .name).reverse ++ [.root]) :
    (normalize path).toList = '/' :: Text.joinWith ['/'] names := by
  rw [normalize_eq, h, List.reverse_append, List.reverse_reverse, String.toList_ofList]
  exact render_absolute names

/-- An absolute path in normal form has no segments but those that it had. -/
theorem mem_splitOn_normalize {segment : List Char} (h : isAbsolute path = true)
    (hmem : segment ∈ Text.splitOn '/' (normalize path).toList) : segment ∈ Text.splitOn '/' path.toList := by
  obtain ⟨names, hnames, hfolded⟩ := folded_absolute h
  obtain ⟨cs, hcs⟩ := (isAbsolute_iff path).mp h
  have hempty : [] ∈ Text.splitOn '/' path.toList := by
    rw [hcs, Text.splitOn_cons_self]
    exact List.mem_cons_self
  rw [normalize_absolute hfolded, Text.splitOn_cons_self, List.mem_cons] at hmem
  rcases hmem with rfl | hmem
  · exact hempty
  · cases names with
    | nil => exact List.mem_singleton.mp hmem ▸ hempty
    | cons name rest =>
      rw [Text.splitOn_joinWith (List.cons_ne_nil _ _) fun name hmem => (hnames name hmem).1.2.2.2] at hmem
      exact (hnames segment hmem).2

/-- The normal form of an absolute path has no more bytes than the path. -/
theorem byteLength_normalize_le (h : isAbsolute path = true) :
    Text.byteLength (normalize path).toList ≤ Text.byteLength path.toList := by
  obtain ⟨cs, hcs⟩ := (isAbsolute_iff path).mp h
  obtain ⟨names, hnames, hfolded⟩ := folded_absolute h
  have hslash : Text.byteLength path.toList = Text.byteLength cs + 1 := by
    rw [hcs, Text.byteLength]
    exact Nat.add_comm _ _
  rw [normalize_absolute hfolded]
  cases names with
  | nil =>
    rw [hslash]
    exact Nat.le_add_left _ _
  | cons name rest =>
    have hsplit := sum_splitOn (Text.joinWith ['/'] (name :: rest))
    rw [Text.splitOn_joinWith (List.cons_ne_nil _ _) fun name hmem => (hnames name hmem).1.2.2.2] at hsplit
    have hsegments : segments path.toList = segments cs := by
      rw [hcs, segments, Text.splitOn_cons_self]
      rfl
    have hnamesSize : ((name :: rest).map Component.name).map Component.size =
        (name :: rest).map (Text.byteLength · + 1) := by
      rw [List.map_map]
      rfl
    calc Text.byteLength ('/' :: Text.joinWith ['/'] (name :: rest))
      _ = ((name :: rest).map (Text.byteLength · + 1)).sum := by
        rw [hsplit, Text.byteLength]
        exact Nat.add_comm _ _
      _ = ((folded path).map Component.size).sum := by
        rw [hfolded, List.map_append, List.map_reverse, hnamesSize, List.sum_append, List.sum_reverse]
        rfl
      _ ≤ 0 + ((segments cs).map Component.size).sum := by
        rw [folded_eq, if_pos h, hsegments]
        exact sum_size_foldl _ _
      _ ≤ Text.byteLength path.toList := by
        rw [Nat.zero_add, hslash]
        exact sum_size_segments cs

-- ---------------------------------------------------------------------------
-- Joining
-- ---------------------------------------------------------------------------

theorem normalize_join_normalize (base path : String) :
    normalize (join base path) = normalize (join (normalize base) path) := by
  cases habsolute : isAbsolute path with
  | true => rw [join_of_isAbsolute habsolute, join_of_isAbsolute habsolute]
  | false => rw [normalize_eq_iff, folded_join _ habsolute, folded_join _ habsolute, folded_normalize]

theorem absolutize_normalize (path cwd : String) : absolutize path cwd = absolutize path (normalize cwd) := by
  rw [absolutize_eq, absolutize_eq, normalize_join_normalize]

/-- Normalizing gives canonical paths, which are those that it leaves alone: no segment of them is a `.`, and a `..` is
only in front in a relative one. It makes no path absolute or relative, and it may be done before joining as well
as after it; so a path is read inside an absolute directory as often as one likes, and inside its normal form. -/
theorem normalize_canonical (path : String) :
    (['.'] ∉ Text.splitOn '/' (normalize path).toList ∧
      (∃ n rest, Text.splitOn '/' (normalize path).toList = List.replicate n ['.', '.'] ++ rest ∧
        ['.', '.'] ∉ rest) ∧
      (isAbsolute path = true → ['.', '.'] ∉ Text.splitOn '/' (normalize path).toList)) ∧
    isAbsolute (normalize path) = isAbsolute path ∧
    normalize (normalize path) = normalize path ∧ (normalize path = path ↔ IsCanonical path) ∧
    (∀ other, normalize (join path other) = normalize (join (normalize path) other)) ∧
    ∀ cwd, isAbsolute cwd = true →
      absolutize (absolutize path cwd) cwd = absolutize path cwd ∧
        absolutize path cwd = absolutize path (normalize cwd) := by
  have hkind := isAbsolute_normalize path
  obtain ⟨n, rest, hsplit, habsolute, hdot, hdots⟩ := (isCanonical_normalize path).splitOn_eq
  refine ⟨⟨?_, ⟨n, rest, hsplit, hdots⟩, fun hpath => ?_⟩, hkind, normalize_normalize path, normalize_eq_self_iff,
    normalize_join_normalize path, fun cwd hcwd => ⟨?_, absolutize_normalize path cwd⟩⟩
  · rw [hsplit, List.mem_append, List.mem_replicate]
    rintro (⟨-, heq⟩ | hmem)
    · cases heq
    · exact hdot hmem
  · rw [hsplit, habsolute (hkind.trans hpath)]
    exact hdots
  · exact (absolutize_absolutize_iff path cwd).mpr (.inr (.inl hcwd))

/-- A path that goes back beyond where it starts, in a directory that goes back beyond the root. -/
theorem normalize_canonical_climbing :
    isAbsolute "/../w//x/." = true ∧ normalize "./a/../../b/" = "../b" ∧
      absolutize (absolutize "./a/../../b/" "/../w//x/.") "/../w//x/." = "/w/b" ∧
      absolutize "./a/../../b/" (normalize "/../w//x/.") = "/w/b" := by
  have hcwd : isAbsolute "/../w//x/." = true := by decide
  have hread : absolutize "./a/../../b/" "/../w//x/." = "/w/b" := by decide +kernel
  obtain ⟨-, -, -, -, -, habsolutize⟩ := normalize_canonical "./a/../../b/"
  obtain ⟨hagain, hnormal⟩ := habsolutize _ hcwd
  exact ⟨hcwd, by decide +kernel, hagain.trans hread, hnormal.symm.trans hread⟩

end TsBuild.Path
