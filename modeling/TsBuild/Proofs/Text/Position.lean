import TsBuild.Proofs.Text.Affixes
import TsBuild.Proofs.Text.Lines
import TsBuild.Proofs.Text.Pieces

/-!
# The line of a place

Reading a text up to a place counts the line feeds before it and the characters behind the last of them
(`foldl_step`). The line there is what stands between that line feed and the next one, and it is the piece
of this number when the text is split into lines (`splitOn_place`).
-/

namespace TsBuild.Text

theorem positionFrom_eq (start : Position) (cs : List Char) (n : Nat) :
    positionFrom start cs n = (takeBytes n cs).foldl Position.step start := by
  induction cs generalizing start n with
  | nil => rfl
  | cons c cs ih =>
    rw [positionFrom, takeBytes]
    split
    · rfl
    · exact ih _ _

/-- The characters up to a place between two of them, or up to the end for an offset past it. -/
theorem takeBytes_eq {before after : List Char}
    (h : byteLength before = min n (byteLength (before ++ after))) : takeBytes n (before ++ after) = before := by
  induction before generalizing n with
  | nil =>
    cases after with
    | nil => rfl
    | cons c after =>
      have hpos := byteLength_cons_pos c after
      have hzero : n = 0 := by
        simp only [byteLength, List.nil_append] at h hpos
        omega
      simp [takeBytes, hzero]
  | cons c before ih =>
    have hpos := c.utf8Size_pos
    simp only [List.cons_append, byteLength] at h
    rw [List.cons_append, takeBytes, if_neg (by omega), ih (by omega)]

theorem foldl_step_of_notMem {cs : List Char} (h : '\n' ∉ cs) (start : Position) :
    cs.foldl Position.step start = ⟨start.line, start.character + cs.length⟩ := by
  induction cs generalizing start with
  | nil => rfl
  | cons c cs ih =>
    simp only [List.mem_cons, not_or] at h
    rw [List.foldl_cons, ih h.2, Position.step, if_neg (Ne.symm h.1), List.length_cons]
    simp only [Position.mk.injEq, true_and]
    omega

/-- A place is as many lines down as there are line feeds before it, and as many characters in as stand behind
the last of them. -/
theorem foldl_step (before : List Char) :
    before.foldl Position.step ⟨0, 0⟩ = ⟨before.count '\n', (lastPiece '\n' before).length⟩ := by
  obtain ⟨front, hbefore, hfront, hpiece⟩ := exists_lastPiece '\n' before
  have hcount : before.count '\n' = front.count '\n' := by
    rw [hbefore, List.count_append, List.count_eq_zero.mpr hpiece, Nat.add_zero]
  have hcharacter : (front.foldl Position.step ⟨0, 0⟩).character = 0 := by
    rcases hfront with rfl | hlast
    · rfl
    · obtain ⟨first, rfl⟩ := List.getLast?_eq_some_iff.mp hlast
      simp [Position.step]
  have hfold := congrArg (List.foldl Position.step ⟨0, 0⟩) hbefore
  rw [hfold, hcount, List.foldl_append, foldl_step_of_notMem hpiece, hcharacter, line_foldl_step]
  simp

theorem splitOn_eq_takeWhile (sep : Char) (cs : List Char) :
    ∃ rest, splitOn sep cs = cs.takeWhile (· ≠ sep) :: rest := by
  induction cs with
  | nil => exact ⟨[], rfl⟩
  | cons c cs ih =>
    by_cases h : c = sep
    · subst h
      exact ⟨splitOn c cs, by simp [splitOn_cons_self]⟩
    · obtain ⟨rest, hrest⟩ := ih
      exact ⟨rest, by simp [splitOn_cons h hrest, h]⟩

theorem length_splitOn (sep : Char) (cs : List Char) : (splitOn sep cs).length = cs.count sep + 1 := by
  induction cs with
  | nil => rfl
  | cons c cs ih =>
    by_cases h : c = sep
    · subst h
      simp [splitOn_cons_self, ih]
    · obtain ⟨piece, rest, hpieces⟩ := List.exists_cons_of_ne_nil (splitOn_ne_nil sep cs)
      rw [hpieces] at ih
      simpa [splitOn_cons h hpieces, h] using ih

theorem splitOn_place (sep : Char) (before after : List Char) :
    ∃ above below, above.length = before.count sep ∧
      splitOn sep (before ++ after) =
        above ++ (lastPiece sep before ++ after.takeWhile (· ≠ sep)) :: below := by
  obtain ⟨front, hbefore, hfront, hpiece⟩ := exists_lastPiece sep before
  have hcount : before.count sep = front.count sep := by
    rw [hbefore, List.count_append, List.count_eq_zero.mpr hpiece, Nat.add_zero]
  obtain ⟨above, hlength, habove⟩ : ∃ above : List (List Char), above.length = front.count sep ∧
      ∀ rest, splitOn sep (front ++ rest) = above ++ splitOn sep rest := by
    rcases hfront with rfl | hlast
    · exact ⟨[], rfl, fun rest => rfl⟩
    · obtain ⟨first, rfl⟩ := List.getLast?_eq_some_iff.mp hlast
      refine ⟨splitOn sep first, by simp [length_splitOn], fun rest => ?_⟩
      rw [List.append_assoc, List.singleton_append, splitOn_append]
  obtain ⟨below, hbelow⟩ := splitOn_eq_takeWhile sep (lastPiece sep before ++ after)
  refine ⟨above, below, hlength.trans hcount.symm, ?_⟩
  have htake : (lastPiece sep before ++ after).takeWhile (· ≠ sep) =
      lastPiece sep before ++ after.takeWhile (· ≠ sep) := by
    refine List.takeWhile_append_of_pos fun c hc => ?_
    have hne : c ≠ sep := fun heq => hpiece (heq ▸ hc)
    simpa using hne
  rw [← htake, ← hbelow, ← habove, ← List.append_assoc, ← hbefore]

end TsBuild.Text
