import TsBuild.Text.Basic

/-!
# Pieces of a text

Pieces joined with a character that none of them has are split again at it (`splitOn_joinWith`), and a text is
split on both sides of any occurrence (`splitOn_append`).
-/

namespace TsBuild.Text

theorem splitOn_cons_self (sep : Char) (cs : List Char) :
    splitOn sep (sep :: cs) = [] :: splitOn sep cs := by
  simp [splitOn]

theorem splitOn_cons {sep c : Char} (h : c ≠ sep) (hcs : splitOn sep cs = piece :: rest) :
    splitOn sep (c :: cs) = (c :: piece) :: rest := by
  simp [splitOn, h, hcs]

theorem splitOn_of_notMem {sep : Char} {cs : List Char} (h : sep ∉ cs) : splitOn sep cs = [cs] := by
  induction cs with
  | nil => rfl
  | cons c cs ih =>
    rw [List.mem_cons, not_or] at h
    exact splitOn_cons (Ne.symm h.1) (ih h.2)

theorem splitOn_append (sep : Char) (before after : List Char) :
    splitOn sep (before ++ sep :: after) = splitOn sep before ++ splitOn sep after := by
  induction before with
  | nil => exact splitOn_cons_self sep after
  | cons c cs ih =>
    by_cases h : c = sep
    · subst h
      rw [List.cons_append, splitOn_cons_self, splitOn_cons_self, ih, List.cons_append]
    · obtain ⟨piece, rest, hpieces⟩ := List.exists_cons_of_ne_nil (splitOn_ne_nil sep cs)
      rw [hpieces, List.cons_append] at ih
      rw [List.cons_append, splitOn_cons h ih, splitOn_cons h hpieces, List.cons_append]

theorem notMem_of_mem_splitOn {sep : Char} {cs piece : List Char} (h : piece ∈ splitOn sep cs) :
    sep ∉ piece := by
  induction cs generalizing piece with
  | nil =>
    rw [splitOn, List.mem_singleton] at h
    subst h
    exact List.not_mem_nil
  | cons c cs ih =>
    by_cases hc : c = sep
    · subst hc
      rw [splitOn_cons_self, List.mem_cons] at h
      rcases h with rfl | h
      · exact List.not_mem_nil
      · exact ih h
    · obtain ⟨first, rest, hpieces⟩ := List.exists_cons_of_ne_nil (splitOn_ne_nil sep cs)
      rw [splitOn_cons hc hpieces, List.mem_cons] at h
      rw [hpieces] at ih
      rcases h with rfl | h
      · rw [List.mem_cons, not_or]
        exact ⟨Ne.symm hc, ih List.mem_cons_self⟩
      · exact ih (List.mem_cons_of_mem _ h)

theorem exists_mem_splitOn_iff {sep c : Char} (hc : c ≠ sep) :
    (∃ piece ∈ splitOn sep cs, c ∈ piece) ↔ c ∈ cs := by
  induction cs with
  | nil => simp [splitOn]
  | cons d cs ih =>
    by_cases hd : d = sep
    · subst hd
      simp only [splitOn_cons_self, List.mem_cons, exists_eq_or_imp, List.not_mem_nil, false_or, hc, ih]
    · obtain ⟨piece, rest, hpieces⟩ := List.exists_cons_of_ne_nil (splitOn_ne_nil sep cs)
      simp only [hpieces, List.mem_cons, exists_eq_or_imp] at ih
      simp only [splitOn_cons hd hpieces, List.mem_cons, exists_eq_or_imp, or_assoc, ih]

theorem splitOn_joinWith {sep : Char} {pieces : List (List Char)} (hne : pieces ≠ [])
    (h : ∀ piece ∈ pieces, sep ∉ piece) : splitOn sep (joinWith [sep] pieces) = pieces := by
  induction pieces with
  | nil => exact absurd rfl hne
  | cons piece rest ih =>
    cases rest with
    | nil => exact splitOn_of_notMem (h piece List.mem_cons_self)
    | cons next rest =>
      have hrest := ih (List.cons_ne_nil _ _) fun p hp => h p (List.mem_cons_of_mem _ hp)
      rw [joinWith, List.append_assoc, List.singleton_append, splitOn_append, hrest,
        splitOn_of_notMem (h piece List.mem_cons_self), List.singleton_append]
      exact List.cons_ne_nil _ _

end TsBuild.Text
