import TsBuild.Proofs.Path.Normal

/-!
# Directories of absolute paths

The directory part of an absolute path is absolute (`isAbsolute_parent`), and so are all directories
above it (`isAbsolute_of_mem_ancestors`). Both are seen on the reversed text, which keeps the slash it
ends in. What is above a path depends on its directory alone (`drop_ancestors`), and what is above a directory
is the same wherever the climb began (`ancestors_of_suffix`).
-/

namespace TsBuild.Path

variable {cs above : List Char} {path dir : String}

theorem isAbsolute_ofList (cs : List Char) :
    isAbsolute (String.ofList cs.reverse) = true ↔ cs.getLast? = some '/' := by
  rw [isAbsolute, String.toList_ofList, List.head?_reverse, decide_eq_true_iff]

theorem getLast_reverse (h : isAbsolute path = true) : path.toList.reverse.getLast? = some '/' := by
  rwa [isAbsolute, decide_eq_true_iff, ← List.getLast?_reverse] at h

theorem getLast_trimReversed (h : cs.getLast? = some '/') : (trimReversed cs).getLast? = some '/' := by
  fun_induction trimReversed cs with
  | case1 => exact h
  | case2 rest hne ih =>
    refine ih ?_
    cases rest with
    | nil => exact absurd rfl hne
    | cons c rest => rwa [List.getLast?_cons_cons] at h
  | case3 rest ih =>
    rw [List.getLast?_cons_cons] at h
    exact ih h
  | case4 => exact h

theorem getLast_dropWhile (h : cs.getLast? = some '/') :
    (cs.dropWhile (· ≠ '/')).getLast? = some '/' := by
  induction cs with
  | nil => exact h
  | cons c rest ih =>
    by_cases hc : c = '/'
    · rw [List.dropWhile_cons_of_neg (by simp [hc])]
      exact h
    · rw [List.dropWhile_cons_of_pos (by simp [hc])]
      cases rest with
      | nil =>
        rw [List.getLast?_singleton, Option.some.injEq] at h
        exact absurd h hc
      | cons next rest =>
        rw [List.getLast?_cons_cons] at h
        exact ih h

theorem getLast_parentReversed (h : cs.getLast? = some '/') (hparent : parentReversed? cs = some above) :
    above.getLast? = some '/' := by
  unfold parentReversed? at hparent
  split at hparent
  · cases hparent
  · cases hparent
  · cases hparent
    exact getLast_trimReversed (getLast_dropWhile (getLast_trimReversed h))

theorem isAbsolute_parent (h : isAbsolute path = true) (hparent : parent? path = some dir) :
    isAbsolute dir = true := by
  obtain ⟨above, habove, rfl⟩ := Option.map_eq_some_iff.mp hparent
  rw [isAbsolute_ofList]
  exact getLast_parentReversed (getLast_reverse h) habove

theorem isAbsolute_of_mem_go (h : cs.getLast? = some '/') (hmem : dir ∈ ancestors.go cs) :
    isAbsolute dir = true := by
  induction hn : cs.length using Nat.strongRecOn generalizing cs with
  | _ n ih =>
    rw [ancestors.go, List.mem_cons] at hmem
    rcases hmem with rfl | hmem
    · exact (isAbsolute_ofList cs).mpr h
    · cases habove : parentReversed? cs with
      | none =>
        rw [habove] at hmem
        cases hmem
      | some above =>
        rw [habove] at hmem
        simp only at hmem
        split at hmem
        · rename_i hshort
          exact ih above.length (hn ▸ hshort) (getLast_parentReversed h habove) hmem rfl
        · cases hmem

theorem isAbsolute_of_mem_ancestors (h : isAbsolute path = true) (hmem : dir ∈ ancestors path) :
    isAbsolute dir = true :=
  isAbsolute_of_mem_go (getLast_reverse h) hmem

-- ---------------------------------------------------------------------------
-- Directories above
-- ---------------------------------------------------------------------------

theorem length_trimReversed_le (cs : List Char) : (trimReversed cs).length ≤ cs.length := by
  fun_induction trimReversed cs with
  | case1 => exact Nat.le_refl _
  | case2 rest _ ih => exact Nat.le_succ_of_le ih
  | case3 rest ih => exact Nat.le_succ_of_le ih
  | case4 => exact Nat.le_refl _

theorem eq_nil_of_trimReversed (h : trimReversed cs = '/' :: rest) : rest = [] := by
  fun_induction trimReversed cs with
  | case1 => exact (List.cons.inj h).2.symm
  | case2 _ _ ih => exact ih h
  | case3 _ ih => exact ih h
  | case4 cs hroot hslash =>
    subst h
    exact absurd rfl (hslash rest)

theorem length_parentReversed_lt (h : parentReversed? cs = some above) : above.length < cs.length := by
  unfold parentReversed? at h
  have htrim := length_trimReversed_le cs
  split at h
  · cases h
  · cases h
  · rename_i hempty hroot
    cases h
    refine Nat.lt_of_le_of_lt (length_trimReversed_le _) (Nat.lt_of_lt_of_le ?_ htrim)
    rcases hcs : trimReversed cs with _ | ⟨c, rest⟩
    · exact absurd hcs hempty
    · have hslash : c ≠ '/' := by
        rintro rfl
        rw [eq_nil_of_trimReversed hcs] at hcs
        exact hroot hcs
      rw [List.dropWhile_cons_of_pos (by simpa using hslash)]
      exact Nat.lt_succ_of_le (List.dropWhile_sublist _).length_le

/-- Above a path are its directory and what is above that. -/
theorem drop_ancestors (h : parent? path = some dir) : (ancestors path).drop 1 = ancestors dir := by
  obtain ⟨above, habove, rfl⟩ := Option.map_eq_some_iff.mp h
  rw [ancestors, ancestors, ancestors.go, habove, List.drop_one, List.tail_cons]
  simp only [length_parentReversed_lt habove, ↓reduceIte, String.toList_ofList, List.reverse_reverse]

theorem length_parent_lt (h : parent? path = some dir) : dir.length < path.length := by
  obtain ⟨above, habove, rfl⟩ := Option.map_eq_some_iff.mp h
  have hlt := length_parentReversed_lt habove
  rwa [List.length_reverse, String.length_toList, ← List.length_reverse, ← String.length_ofList] at hlt

theorem ancestors_cases (path : String) :
    (parent? path = none ∧ ancestors path = [path]) ∨
      ∃ dir, parent? path = some dir ∧ ancestors path = path :: ancestors dir := by
  have hhead : ancestors path = path :: (ancestors path).drop 1 := by
    rw [ancestors, ancestors.go, List.reverse_reverse, String.ofList_toList, List.drop_one, List.tail_cons]
  cases hparent : parent? path with
  | none =>
    rw [parent?, Option.map_eq_none_iff] at hparent
    refine .inl ⟨rfl, ?_⟩
    rw [ancestors, ancestors.go, hparent, List.reverse_reverse, String.ofList_toList]
  | some dir => exact .inr ⟨dir, rfl, drop_ancestors hparent ▸ hhead⟩

/-- Above a directory is what stands behind it wherever it is above a path. -/
theorem ancestors_of_suffix (h : dir :: rest <:+ ancestors path) : ancestors dir = dir :: rest := by
  induction hn : path.length using Nat.strongRecOn generalizing path with
  | _ n ih =>
    have hself : dir :: rest = ancestors path → ancestors dir = dir :: rest := by
      intro heq
      obtain ⟨-, hpath⟩ | ⟨above, -, hpath⟩ := ancestors_cases path
      all_goals
        rw [hpath, List.cons.injEq] at heq
        rw [heq.1, hpath, heq.2]
    obtain ⟨-, hpath⟩ | ⟨above, habove, hpath⟩ := ancestors_cases path
    · rw [hpath, List.suffix_cons_iff] at h
      rcases h with heq | hnil
      · exact hself (hpath ▸ heq)
      · exact absurd (List.suffix_nil.mp hnil) (List.cons_ne_nil _ _)
    · rw [hpath, List.suffix_cons_iff] at h
      rcases h with heq | hlater
      · exact hself (hpath ▸ heq)
      · exact ih above.length (hn ▸ length_parent_lt habove) hlater rfl

theorem length_le_of_mem_ancestors (h : dir ∈ ancestors path) : dir.length ≤ path.length := by
  induction hn : path.length using Nat.strongRecOn generalizing path with
  | _ n ih =>
    obtain ⟨-, hpath⟩ | ⟨above, habove, hpath⟩ := ancestors_cases path
    · rw [hpath, List.mem_singleton] at h
      exact h ▸ Nat.le_of_eq hn
    · rw [hpath, List.mem_cons] at h
      rcases h with rfl | h
      · exact Nat.le_of_eq hn
      · have hlt := length_parent_lt habove
        exact Nat.le_trans (ih above.length (hn ▸ hlt) h rfl) (hn ▸ Nat.le_of_lt hlt)

theorem nodup_ancestors (path : String) : (ancestors path).Nodup := by
  induction hn : path.length using Nat.strongRecOn generalizing path with
  | _ n ih =>
    obtain ⟨-, hpath⟩ | ⟨above, habove, hpath⟩ := ancestors_cases path
    · rw [hpath]
      exact List.nodup_cons.mpr ⟨List.not_mem_nil, .nil⟩
    · have hlt := length_parent_lt habove
      rw [hpath, List.nodup_cons]
      refine ⟨fun hmem => ?_, ih above.length (hn ▸ hlt) above rfl⟩
      exact absurd (length_le_of_mem_ancestors hmem) (Nat.not_le_of_lt hlt)

theorem isAbsolute_join_of_base (h : isAbsolute base = true) (path : String) :
    isAbsolute (join base path) = true := by
  cases hpath : isAbsolute path with
  | true => rw [join_of_isAbsolute hpath, hpath]
  | false => rw [isAbsolute_join base hpath, h]

theorem isAbsolute_parent_absolutize (hcwd : isAbsolute cwd = true)
    (hparent : parent? (absolutize path cwd) = some dir) : isAbsolute dir = true := by
  refine isAbsolute_parent ?_ hparent
  rw [absolutize_eq, isAbsolute_normalize]
  exact isAbsolute_join_of_base hcwd path

theorem isAbsolute_append (h : isAbsolute path = true) (ending : String) :
    isAbsolute (path ++ ending) = true := by
  rw [isAbsolute_iff] at h ⊢
  obtain ⟨cs, hcs⟩ := h
  exact ⟨cs ++ ending.toList, by rw [String.toList_append, hcs, List.cons_append]⟩

end TsBuild.Path
