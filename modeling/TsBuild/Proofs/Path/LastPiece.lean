import Mathlib.Data.Option.Basic
import TsBuild.Proofs.Path.Ending

/-!
# The last piece of a path

What a path comes to in a directory is seen from its last piece: it is added to what the pieces before come
to (`exists_holder`). With an ending the piece is a name there, whatever it is alone. An entry of the path is
an entry of what the path comes to (`normalize_join_join`).
-/

namespace TsBuild.Path

variable {below stack : List Component} {piece before : List Char}

-- ---------------------------------------------------------------------------
-- Segments
-- ---------------------------------------------------------------------------

theorem segments_nil : segments [] = [] := rfl

theorem segments_of_isLead (hlead : Text.IsLead '/' before) (after : List Char) :
    segments (before ++ after) = segments before ++ segments after := by
  rcases hlead with rfl | hlast
  · rfl
  · obtain ⟨first, rfl⟩ := List.getLast?_eq_some_iff.mp hlast
    rw [List.append_assoc, List.singleton_append, segments_append, segments_append, segments_nil,
      List.append_nil]

theorem segments_of_notMem (h : '/' ∉ piece) : segments piece = (Component.ofSegment? piece).toList := by
  rw [segments, Text.splitOn_of_notMem h]
  cases hpiece : Component.ofSegment? piece <;> simp [hpiece]

theorem segments_name (h : IsName piece) : segments piece = [.name piece] := by
  rw [segments_of_notMem h.2.2.2, ofSegment_name h]
  rfl

theorem isAbsolute_append_of_isEnding {ending : String} (h : isAbsolute path = false)
    (hending : IsEnding ending.toList) : isAbsolute (path ++ ending) = false := by
  rw [isAbsolute, decide_eq_false_iff_not] at h ⊢
  rw [String.toList_append]
  cases hpath : path.toList with
  | nil =>
    intro hhead
    rw [List.nil_append] at hhead
    exact hending.1 (List.mem_of_mem_head? hhead)
  | cons c cs =>
    rw [hpath] at h
    exact h

/-- What the pieces of a path before its last come to in a directory; the path and the path with an ending in
terms of it. -/
structure IsHolder (dir path : String) (holder : List Component) : Prop where
  normal : NormalStack holder
  root_mem : isAbsolute dir = true → .root ∈ holder
  folded_eq : folded (join dir path) =
    (Component.ofSegment? (Text.lastPiece '/' path.toList)).toList.foldl push holder
  normalize_eq : ∀ ending : String, IsEnding ending.toList → normalize (join dir (path ++ ending)) =
    String.ofList (lead holder ++ Text.lastPiece '/' path.toList) ++ ending

theorem exists_holder (dir : String) (h : isAbsolute path = false) : ∃ holder, IsHolder dir path holder := by
  obtain ⟨before, hpath, hlead, hslash⟩ := Text.exists_lastPiece '/' path.toList
  have hholder : NormalStack ((segments before).foldl push (folded dir)) :=
    normalStack_foldl (normalStack_folded dir) fun _ => isStep_of_mem_segments
  refine ⟨_, hholder, fun hdir => ?_, ?_, fun ending hending => ?_⟩
  · exact (root_mem_foldl fun _ => isStep_of_mem_segments).mpr ((root_mem_folded dir).mpr hdir)
  · have hsegments : segments path.toList =
        segments before ++ (Component.ofSegment? (Text.lastPiece '/' path.toList)).toList := by
      rw [← segments_of_notMem hslash, ← segments_of_isLead hlead, ← hpath]
    rw [folded_join dir h, hsegments, List.foldl_append]
  · have hname : IsName (Text.lastPiece '/' path.toList ++ ending.toList) := hending.isName hslash
    have hsegments : segments (path ++ ending).toList =
        segments before ++ [.name (Text.lastPiece '/' path.toList ++ ending.toList)] := by
      rw [← segments_name hname, ← segments_of_isLead hlead, ← List.append_assoc, ← hpath,
        String.toList_append]
    rw [normalize_eq_spell, folded_join dir (isAbsolute_append_of_isEnding h hending), hsegments,
      List.foldl_append, List.foldl_cons, List.foldl_nil, push, spell_name hholder hname, ← String.toList_inj,
      String.toList_append, String.toList_ofList, String.toList_ofList, List.append_assoc]

-- ---------------------------------------------------------------------------
-- Lengths
-- ---------------------------------------------------------------------------

theorem length_spell_le_lead (stack : List Component) : (spell stack).toList.length ≤ (lead stack).length := by
  rw [spell, String.toList_ofList]
  unfold lead
  split
  · exact Nat.le_refl _
  · exact Nat.le_refl _
  · rw [List.length_append]
    exact Nat.le_add_right _ _

theorem length_spell_parent_le (h : NormalStack stack) :
    (spell (push stack .parent)).toList.length ≤ (lead stack).length + ['.', '.'].length := by
  cases h with
  | root => decide
  | parents n =>
    have hpush : push (List.replicate n .parent) .parent = .parent :: List.replicate n .parent := by
      cases n <;> rfl
    rw [hpush, toList_spell_cons (.parents n) (.inl rfl), List.length_append]
    exact Nat.le_refl _
  | @name segment below hname hbelow =>
    have hspell := length_spell_le_lead (.name segment :: below)
    rw [toList_spell_cons hbelow (.inr ⟨segment, hname, rfl⟩), List.length_append] at hspell
    calc (spell below).toList.length
      _ ≤ (lead below).length := length_spell_le_lead below
      _ ≤ (lead below).length + segment.length := Nat.le_add_right _ _
      _ ≤ (lead (.name segment :: below)).length := hspell
      _ ≤ _ := Nat.le_add_right _ _

/-- A path is no longer than what leads up to its last piece, and that piece. -/
theorem length_spell_push_le (h : NormalStack stack) (hslash : '/' ∉ piece) :
    (spell ((Component.ofSegment? piece).toList.foldl push stack)).toList.length ≤
      (lead stack ++ piece).length := by
  have hlead := length_spell_le_lead stack
  rw [List.length_append]
  unfold Component.ofSegment?
  split
  · exact Nat.le_trans hlead (Nat.le_add_right _ _)
  · split
    · exact Nat.le_trans hlead (Nat.le_add_right _ _)
    · split
      · rename_i hdots
        rw [Option.toList_some, List.foldl_cons, List.foldl_nil, hdots]
        exact length_spell_parent_le h
      · rename_i hempty hdot hdots
        have hname : IsName piece := ⟨hempty, hdot, hdots, hslash⟩
        rw [Option.toList_some, List.foldl_cons, List.foldl_nil, push,
          toList_spell_cons h (.inr ⟨piece, hname, rfl⟩), List.length_append]
        exact Nat.le_refl _

-- ---------------------------------------------------------------------------
-- Entries of a directory
-- ---------------------------------------------------------------------------

theorem toList_join_spell (h : NormalStack stack) (hname : isAbsolute name = false) :
    (join (spell stack) name).toList = lead stack ++ name.toList := by
  rw [toList_join _ hname]
  obtain rfl | rfl | ⟨component, below, rfl, hstep, hbelow⟩ := h.eq_cons
  · rfl
  · rfl
  · obtain ⟨c, rest, htext, hslash, -⟩ := reverse_text_eq hstep
    have hlast : (spell (component :: below)).toList.getLast? = some c := by
      rw [toList_spell_cons hbelow hstep, ← List.head?_reverse, List.reverse_append, htext]
      rfl
    rw [if_neg, lead_cons hstep, List.append_assoc]
    · rfl
    · rintro (hempty | hroot)
      · rw [hempty] at hlast
        cases hlast
      · rw [hlast, Option.some.injEq] at hroot
        exact hslash hroot

theorem isAbsolute_of_isName {name : String} (h : IsName name.toList) : isAbsolute name = false := by
  rw [isAbsolute, decide_eq_false_iff_not]
  exact fun hhead => h.2.2.2 (List.mem_of_mem_head? hhead)

theorem folded_join_name {name : String} (h : IsName name.toList) (dir : String) :
    folded (join dir name) = .name name.toList :: folded dir := by
  rw [folded_join dir (isAbsolute_of_isName h), segments_name h]
  rfl

theorem normalize_join_join (dir : String) (h : isAbsolute path = false) {name : String}
    (hname : IsName name.toList) :
    normalize (join dir (join path name)) = join (normalize (join dir path)) name := by
  have hrelative := isAbsolute_of_isName hname
  have hnormal : NormalStack (folded (join dir path)) := normalStack_folded _
  rw [← String.toList_inj, normalize_eq_spell (join dir path), toList_join_spell hnormal hrelative,
    normalize_eq_spell, folded_join dir ((isAbsolute_join path hrelative).trans h),
    segments_join path hrelative, List.foldl_append, ← folded_join dir h, segments_name hname,
    List.foldl_cons, List.foldl_nil, push, spell_name hnormal hname, String.toList_ofList]

-- ---------------------------------------------------------------------------
-- File names
-- ---------------------------------------------------------------------------

theorem exists_components (path : String) : ∃ start, components path = start ++ segments path.toList := by
  unfold components segments
  split
  · exact ⟨[.root], rfl⟩
  · split
    · exact ⟨[.current], rfl⟩
    · exact ⟨[], rfl⟩

theorem fileName_of_isName (h : IsName (Text.lastPiece '/' path.toList)) :
    fileName? path = some (Text.lastPiece '/' path.toList) := by
  obtain ⟨start, hcomponents⟩ := exists_components path
  obtain ⟨before, hpath, hlead, -⟩ := Text.exists_lastPiece '/' path.toList
  have hsegments : segments path.toList = segments before ++ [.name (Text.lastPiece '/' path.toList)] := by
    rw [hpath, segments_of_isLead hlead, ← hpath, segments_name h]
  rw [fileName?, hcomponents, hsegments, ← List.append_assoc, List.getLast?_concat]

/-- A path without extension has no dot in its file name, but maybe at its start. -/
theorem dot_notMem_of_extensionOf (h : extensionOf? path = none) (hname : fileName? path = some name) :
    '.' ∉ name.drop 1 := by
  intro hdot
  rw [extensionOf?, hname, Option.bind_eq_bind, Option.bind_some, (Option.guard_eq_some' ()).mpr hdot] at h
  cases h

theorem getLast_components_of_fileName (h : fileName? path = some name) :
    (components path).getLast? = some (.name name) := by
  unfold fileName? at h
  split at h
  · rename_i hlast
    cases h
    exact hlast
  · cases h

theorem folded_of_fileName (h : fileName? path = some name) : ∃ below, folded path = .name name :: below := by
  obtain ⟨init, hinit⟩ := List.getLast?_eq_some_iff.mp (getLast_components_of_fileName h)
  refine ⟨init.foldl push [], ?_⟩
  rw [folded, hinit, List.foldl_append]
  rfl

theorem fileName_normalize_of_folded (h : folded path = .name name :: below) :
    fileName? (normalize path) = some name := by
  simp [fileName?, components_normalize, h]

theorem parent_isSome_of_fileName (h : fileName? path = some name) : (parent? (normalize path)).isSome := by
  obtain ⟨below, hfolded⟩ := folded_of_fileName h
  have hnormal := normalStack_folded path
  refine parent_isSome (normalize_normalize path) (fun hempty => ?_) fun hroot => ?_
  · have hnil := (spell_inj hnormal (.parents 0)).mp hempty
    rw [hfolded] at hnil
    cases hnil
  · have htop := (spell_inj hnormal .root).mp hroot
    rw [hfolded] at htop
    cases htop

theorem exists_segments_of_fileName (h : fileName? path = some name) :
    ∃ front, segments path.toList = front ++ [.name name] := by
  have hlast := getLast_components_of_fileName h
  obtain hnil | ⟨front, last, hsegments⟩ := List.eq_nil_or_concat (segments path.toList)
  · -- the start of a path is no name
    rw [segments] at hnil
    simp only [components, hnil] at hlast
    split at hlast
    · cases hlast
    · split at hlast <;> cases hlast
  · obtain ⟨start, hcomponents⟩ := exists_components path
    rw [hcomponents, hsegments, List.concat_eq_append, ← List.append_assoc, List.getLast?_concat] at hlast
    cases hlast
    exact ⟨front, by simpa using hsegments⟩

theorem exists_parent_of_fileName (h : fileName? path = some name) (cwd : String) :
    ∃ dir, parent? (absolutize path cwd) = some dir := by
  have hfolded : ∃ below, folded (join cwd path) = .name name :: below := by
    cases habsolute : isAbsolute path with
    | true =>
      rw [join_of_isAbsolute habsolute]
      exact folded_of_fileName h
    | false =>
      obtain ⟨front, hsegments⟩ := exists_segments_of_fileName h
      exact ⟨_, by rw [folded_join cwd habsolute, hsegments, List.foldl_append]; rfl⟩
  obtain ⟨below, hfolded⟩ := hfolded
  have hparent := parent_isSome_of_fileName (fileName_normalize_of_folded hfolded)
  rw [normalize_normalize, ← absolutize_eq] at hparent
  exact Option.isSome_iff_exists.mp hparent

theorem fileName_absolutize (h : IsName (Text.lastPiece '/' path.toList)) (dir : String) :
    fileName? (absolutize path dir) = some (Text.lastPiece '/' path.toList) := by
  rw [absolutize_eq]
  cases habsolute : isAbsolute path with
  | true =>
    obtain ⟨below, hfolded⟩ := folded_of_fileName (fileName_of_isName h)
    rw [join_of_isAbsolute habsolute]
    exact fileName_normalize_of_folded hfolded
  | false =>
    obtain ⟨holder, hholder⟩ := exists_holder dir habsolute
    have hfolded : folded (join dir path) = .name (Text.lastPiece '/' path.toList) :: holder := by
      rw [hholder.folded_eq, ofSegment_name h, Option.toList_some, List.foldl_cons, List.foldl_nil, push]
    exact fileName_normalize_of_folded hfolded

theorem fileName_of_isScript (h : isScript path = true) : ∃ name, fileName? path = some name := by
  cases hname : fileName? path with
  | none => simp [isScript, extensionOf?, hname] at h
  | some name => exact ⟨name, rfl⟩

end TsBuild.Path
