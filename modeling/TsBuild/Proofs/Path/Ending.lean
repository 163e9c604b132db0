import TsBuild.Proofs.Path.Directory
import TsBuild.Proofs.Text.Affixes

/-!
# The last name of a normal form

The text of a normal form is what leads up to its last component, and that component
(`toList_spell_cons`). So text added to a normal form lengthens its last name (`spell_append`), and an
ending can be taken off only from that name (`exists_name_of_ending`). The directory of a normal form is what is
below its last component (`parent_spell`), so all directories above it are in normal form
(`normal_of_mem_ancestors`).
-/

namespace TsBuild.Path

open TsBuild (Text.joinWith)

variable {stack below other : List Component} {component : Component} {segment ending stem : List Char}

def spell (stack : List Component) : String := String.ofList (render stack.reverse)

/-- What stands before one more component in the text of a stack. -/
def lead : List Component → List Char
  | [] => []
  | [.root] => ['/']
  | stack => render stack.reverse ++ ['/']

theorem normalize_eq_spell (path : String) : normalize path = spell (folded path) := rfl

theorem folded_spell (h : NormalStack stack) : folded (spell stack) = stack := by
  rw [folded, spell, components_render h, foldl_push_reverse h]

theorem normalize_spell (h : NormalStack stack) : normalize (spell stack) = spell stack := by
  rw [normalize_eq_spell, folded_spell h]

theorem spell_inj (h : NormalStack stack) (h' : NormalStack other) :
    spell stack = spell other ↔ stack = other := by
  constructor
  · intro heq
    rw [← folded_spell h, heq, folded_spell h']
  · rintro rfl
    rfl

theorem isAbsolute_spell (h : NormalStack stack) : isAbsolute (spell stack) = true ↔ .root ∈ stack := by
  rw [← root_mem_folded, folded_spell h]

theorem exists_spell (h : normalize path = path) : ∃ stack, NormalStack stack ∧ path = spell stack :=
  ⟨folded path, normalStack_folded path, by rw [← normalize_eq_spell, h]⟩

-- ---------------------------------------------------------------------------
-- The last component
-- ---------------------------------------------------------------------------

theorem NormalStack.eq_cons (h : NormalStack stack) :
    stack = [.root] ∨ stack = [] ∨
      ∃ component below, stack = component :: below ∧ component.IsStep ∧ NormalStack below := by
  cases h with
  | root => exact .inl rfl
  | parents n =>
    cases n with
    | zero => exact .inr (.inl rfl)
    | succ n => exact .inr (.inr ⟨.parent, List.replicate n .parent, rfl, .inl rfl, .parents n⟩)
  | name hname hbelow => exact .inr (.inr ⟨_, _, rfl, .inr ⟨_, hname, rfl⟩, hbelow⟩)

theorem joinWith_append_singleton (sep : List Char) {pieces : List (List Char)} (h : pieces ≠ [])
    (last : List Char) : Text.joinWith sep (pieces ++ [last]) = Text.joinWith sep pieces ++ sep ++ last := by
  induction pieces with
  | nil => exact absurd rfl h
  | cons piece rest ih =>
    cases rest with
    | nil => rfl
    | cons next rest =>
      have hrest := ih (List.cons_ne_nil _ _)
      simp only [List.cons_append, Text.joinWith, List.append_assoc] at hrest ⊢
      rw [hrest]

theorem render_append_singleton {parts : List Component} (hne : parts ≠ []) (hroot : parts ≠ [.root])
    (component : Component) : render (parts ++ [component]) = render parts ++ '/' :: component.text := by
  have hjoin : ∀ {parts : List Component}, parts ≠ [] →
      Text.joinWith ['/'] ((parts ++ [component]).map Component.text) =
        Text.joinWith ['/'] (parts.map Component.text) ++ '/' :: component.text := by
    intro parts hparts
    rw [List.map_append, List.map_singleton,
      joinWith_append_singleton _ (by simpa using hparts), List.append_assoc]
    rfl
  rcases parts with _ | ⟨_ | _ | _ | name, rest⟩
  · exact absurd rfl hne
  · have hrest : rest ≠ [] := fun heq => hroot (heq ▸ rfl)
    rw [List.cons_append, render, render, hjoin hrest, List.cons_append]
  all_goals exact hjoin (List.cons_ne_nil _ _)

theorem toList_spell_cons (h : NormalStack below) (hstep : component.IsStep) :
    (spell (component :: below)).toList = lead below ++ component.text := by
  rw [spell, String.toList_ofList, List.reverse_cons]
  unfold lead
  split
  · obtain rfl | ⟨_, -, rfl⟩ := hstep <;> rfl
  · rfl
  · rename_i hne hroot
    rw [render_append_singleton (by simpa using hne) (by simpa using hroot), List.append_assoc]
    rfl

theorem lead_cons (hstep : component.IsStep) :
    lead (component :: below) = (spell (component :: below)).toList ++ ['/'] := by
  rw [spell, String.toList_ofList]
  obtain rfl | ⟨_, -, rfl⟩ := hstep <;> rfl

theorem isLead_lead (below : List Component) : Text.IsLead '/' (lead below) := by
  unfold lead
  split
  · exact .inl rfl
  · exact .inr rfl
  · exact .inr List.getLast?_concat

theorem slash_notMem_text (hstep : component.IsStep) : '/' ∉ component.text := by
  obtain rfl | ⟨segment, hname, rfl⟩ := hstep
  · decide
  · exact hname.2.2.2

-- ---------------------------------------------------------------------------
-- Endings
-- ---------------------------------------------------------------------------

/-- Text that makes a name of any segment that it is added to. -/
def IsEnding (ending : List Char) : Prop := '/' ∉ ending ∧ 3 ≤ ending.length

instance (ending : List Char) : Decidable (IsEnding ending) :=
  inferInstanceAs (Decidable ('/' ∉ ending ∧ 3 ≤ ending.length))

theorem IsEnding.isName (h : IsEnding ending) (hslash : '/' ∉ segment) : IsName (segment ++ ending) := by
  have hlength : 3 ≤ (segment ++ ending).length := by
    rw [List.length_append]
    exact Nat.le_trans h.2 (Nat.le_add_left _ _)
  refine ⟨?_, ?_, ?_, by simp [hslash, h.1]⟩
  all_goals
    intro heq
    rw [heq] at hlength
    simp at hlength

/-- An ending makes the last segment longer; a root or an empty path has none. -/
theorem spell_append (h : NormalStack stack) (ending : String) :
    ∃ segment below, NormalStack below ∧ '/' ∉ segment ∧ (.root ∈ stack ↔ .root ∈ below) ∧
      (spell stack ++ ending).toList = lead below ++ (segment ++ ending.toList) := by
  obtain rfl | rfl | ⟨component, below, rfl, hstep, hbelow⟩ := h.eq_cons
  · exact ⟨[], [.root], .root, List.not_mem_nil, Iff.rfl, by rw [String.toList_append]; rfl⟩
  · exact ⟨[], [], .parents 0, List.not_mem_nil, Iff.rfl, by rw [String.toList_append]; rfl⟩
  · refine ⟨component.text, below, hbelow, slash_notMem_text hstep, ?_, ?_⟩
    · obtain rfl | ⟨_, -, rfl⟩ := hstep <;> simp
    · rw [String.toList_append, toList_spell_cons hbelow hstep, List.append_assoc]

theorem spell_name (h : NormalStack below) (hname : IsName segment) :
    spell (.name segment :: below) = String.ofList (lead below ++ segment) := by
  rw [← String.toList_inj, String.toList_ofList, toList_spell_cons h (.inr ⟨_, hname, rfl⟩)]
  rfl

theorem normal_append {ending : String} (h : normalize path = path) (hending : IsEnding ending.toList) :
    normalize (path ++ ending) = path ++ ending ∧ isAbsolute (path ++ ending) = isAbsolute path := by
  obtain ⟨stack, hstack, rfl⟩ := exists_spell h
  obtain ⟨segment, below, hbelow, hslash, hroot, htext⟩ := spell_append hstack ending
  have hname := hending.isName hslash
  have heq : spell stack ++ ending = spell (.name (segment ++ ending.toList) :: below) := by
    rw [spell_name hbelow hname, ← htext, String.ofList_toList]
  have hnormal : NormalStack (.name (segment ++ ending.toList) :: below) := .name hname hbelow
  rw [heq]
  refine ⟨normalize_spell hnormal, ?_⟩
  rw [Bool.eq_iff_iff, isAbsolute_spell hnormal, isAbsolute_spell hstack, hroot]
  simp

theorem exists_name_of_ending (h : NormalStack stack) (hending : IsEnding ending)
    (htext : (spell stack).toList = stem ++ ending) :
    ∃ segment below, stack = .name (segment ++ ending) :: below ∧ NormalStack below ∧ '/' ∉ segment ∧
      stem = lead below ++ segment := by
  have hlong : 3 ≤ (spell stack).toList.length := by
    rw [htext, List.length_append]
    exact Nat.le_trans hending.2 (Nat.le_add_left _ _)
  obtain rfl | rfl | ⟨component, below, rfl, hstep, hbelow⟩ := h.eq_cons
  · exact absurd hlong (by decide)
  · exact absurd hlong (by decide)
  · rw [toList_spell_cons hbelow hstep] at htext
    obtain ⟨segment, hsegment, hstem⟩ :=
      Text.exists_append_of_piece (isLead_lead below) hending.1 htext
    have hslash := slash_notMem_text hstep
    rw [hsegment, List.mem_append, not_or] at hslash
    refine ⟨segment, below, ?_, hbelow, hslash.1, hstem⟩
    obtain rfl | ⟨name, -, rfl⟩ := hstep
    · -- A `..` is too short to have an ending.
      have hlength := congrArg List.length hsegment
      have hthree := hending.2
      simp [Component.text] at hlength
      omega
    · rw [← hsegment]
      rfl

-- ---------------------------------------------------------------------------
-- Directories
-- ---------------------------------------------------------------------------

theorem reverse_text_eq (hstep : component.IsStep) :
    ∃ c rest, component.text.reverse = c :: rest ∧ c ≠ '/' ∧
      (c = '.' → ∃ d others, rest = d :: others ∧ d ≠ '/') := by
  obtain rfl | ⟨segment, ⟨hempty, hdot, -, hslash⟩, rfl⟩ := hstep
  · exact ⟨'.', ['.'], rfl, by decide, fun _ => ⟨'.', [], rfl, by decide⟩⟩
  · have hmem : '/' ∉ segment.reverse := by simpa using hslash
    change ∃ c rest, segment.reverse = c :: rest ∧ _
    rcases hreverse : segment.reverse with _ | ⟨c, _ | ⟨d, others⟩⟩
    · exact absurd (List.reverse_eq_nil_iff.mp hreverse) hempty
    · rw [hreverse, List.mem_singleton] at hmem
      refine ⟨c, [], rfl, Ne.symm hmem, fun hc => absurd ?_ hdot⟩
      rw [← List.reverse_inj, hreverse, hc]
      rfl
    · rw [hreverse, List.mem_cons, List.mem_cons, not_or, not_or] at hmem
      exact ⟨c, d :: others, rfl, Ne.symm hmem.1, fun _ => ⟨d, others, rfl, Ne.symm hmem.2.1⟩⟩

theorem trimReversed_text (hstep : component.IsStep) (cs : List Char) :
    trimReversed (component.text.reverse ++ cs) = component.text.reverse ++ cs := by
  obtain ⟨c, rest, htext, hslash, hdot⟩ := reverse_text_eq hstep
  rw [htext, List.cons_append, trimReversed]
  · intro heq
    exact hslash (List.cons.inj heq).1
  · intro others heq
    exact hslash (List.cons.inj heq).1
  · intro others heq
    obtain ⟨hc, hrest⟩ := List.cons.inj heq
    obtain ⟨d, more, rfl, hd⟩ := hdot hc
    exact hd (List.cons.inj hrest).1

theorem trimReversed_lead (h : NormalStack below) :
    trimReversed (lead below).reverse = (spell below).toList.reverse := by
  obtain rfl | rfl | ⟨component, rest, rfl, hstep, hrest⟩ := h.eq_cons
  · simp [lead, spell, render, Text.joinWith, trimReversed]
  · simp [lead, spell, render, Text.joinWith, trimReversed]
  · have htrim := trimReversed_text hstep (lead rest).reverse
    obtain ⟨c, more, htext, -⟩ := reverse_text_eq hstep
    rw [lead_cons hstep, toList_spell_cons hrest hstep, List.reverse_append, List.reverse_append,
      List.reverse_singleton, List.singleton_append, trimReversed, htrim]
    simp [htext]

/-- The directory of a normal form is what is below its last component. -/
theorem parent_spell (h : NormalStack below) (hstep : component.IsStep) :
    parent? (spell (component :: below)) = some (spell below) := by
  obtain ⟨c, more, htext, hslash, -⟩ := reverse_text_eq hstep
  have htrim := trimReversed_text hstep (lead below).reverse
  have hlead : (lead below).reverse.dropWhile (· ≠ '/') = (lead below).reverse := by
    rcases isLead_lead below with hnil | hlast
    · rw [hnil, List.reverse_nil, List.dropWhile_nil]
    · obtain ⟨front, hfront⟩ := List.getLast?_eq_some_iff.mp hlast
      simp [hfront]
  have hpiece : ∀ c ∈ component.text.reverse, decide (c ≠ '/') = true := by
    intro c hmem
    have hnotMem := slash_notMem_text hstep
    exact decide_eq_true fun heq => hnotMem (heq ▸ List.mem_reverse.mp hmem)
  rw [parent?, toList_spell_cons h hstep, List.reverse_append, parentReversed?, htrim]
  split
  · rename_i hnil
    simp [htext] at hnil
  · rename_i hroot
    rw [htext, List.cons_append] at hroot
    exact absurd (List.cons.inj hroot).1 hslash
  · rw [List.dropWhile_append_of_pos hpiece, hlead, trimReversed_lead h, Option.map_some, List.reverse_reverse,
      String.ofList_toList]

theorem parent_isSome (h : normalize path = path) (hempty : path ≠ "") (hroot : path ≠ "/") :
    (parent? path).isSome := by
  obtain ⟨stack, hstack, rfl⟩ := exists_spell h
  obtain rfl | rfl | ⟨component, below, rfl, hstep, hbelow⟩ := hstack.eq_cons
  · exact absurd rfl hroot
  · exact absurd rfl hempty
  · rw [parent_spell hbelow hstep, Option.isSome_some]

theorem normal_of_parent (h : normalize path = path) (hparent : parent? path = some dir) : normalize dir = dir := by
  obtain ⟨stack, hstack, rfl⟩ := exists_spell h
  obtain rfl | rfl | ⟨component, below, rfl, hstep, hbelow⟩ := hstack.eq_cons
  · simp [parent?, parentReversed?, spell, render, Text.joinWith, trimReversed] at hparent
  · simp [parent?, parentReversed?, spell, render, Text.joinWith, trimReversed] at hparent
  · rw [parent_spell hbelow hstep, Option.some.injEq] at hparent
    exact hparent ▸ normalize_spell hbelow

theorem normal_of_mem_ancestors (h : normalize path = path) (hmem : dir ∈ ancestors path) :
    normalize dir = dir := by
  induction hn : path.length using Nat.strongRecOn generalizing path with
  | _ n ih =>
    obtain ⟨-, hpath⟩ | ⟨above, habove, hpath⟩ := ancestors_cases path
    · rw [hpath, List.mem_singleton] at hmem
      exact hmem ▸ h
    · rw [hpath, List.mem_cons] at hmem
      rcases hmem with rfl | hmem
      · exact h
      · exact ih above.length (hn ▸ length_parent_lt habove) (normal_of_parent h habove) hmem rfl

end TsBuild.Path
