import Mathlib.Data.List.Infix
import TsBuild.Proofs.Text.Pieces

/-!
# Beginnings and ends of a text

What dropping a beginning or an end of a text finds is the text around it, and cutting cuts at the first
occurrence (`cutAt_eq_some_iff`). `exists_append_of_piece` tells where an end lies in a text whose last piece
is known.
-/

namespace TsBuild.Text

variable {start ending cs rest before after : List Char}

theorem dropPrefix_eq_some : dropPrefix? start cs = some rest ↔ cs = start ++ rest := by
  induction start generalizing cs with
  | nil => simp [dropPrefix?]
  | cons s start ih =>
    cases cs with
    | nil => simp [dropPrefix?]
    | cons c cs =>
      by_cases h : s = c
      · simp [dropPrefix?, h, ih]
      · simp [dropPrefix?, h, Ne.symm h]

theorem startsWith_iff : startsWith start cs = true ↔ start <+: cs := by
  rw [startsWith, Option.isSome_iff_exists]
  constructor
  · rintro ⟨rest, h⟩
    exact ⟨rest, (dropPrefix_eq_some.mp h).symm⟩
  · rintro ⟨rest, h⟩
    exact ⟨rest, dropPrefix_eq_some.mpr h.symm⟩

theorem endsWith_iff : endsWith ending cs = true ↔ ending <:+ cs := by
  rw [endsWith, startsWith_iff, List.reverse_prefix]

theorem dropSuffix_eq_some : dropSuffix? ending cs = some rest ↔ cs = rest ++ ending := by
  rw [dropSuffix?, Option.map_eq_some_iff]
  constructor
  · rintro ⟨reversed, h, rfl⟩
    rw [← List.reverse_inj, dropPrefix_eq_some.mp h]
    simp
  · rintro rfl
    exact ⟨rest.reverse, dropPrefix_eq_some.mpr (by simp), by simp⟩

theorem dropSuffix_eq_none : dropSuffix? ending cs = none ↔ ¬ ending <:+ cs := by
  rw [Option.eq_none_iff_forall_ne_some]
  simp only [ne_eq, dropSuffix_eq_some]
  constructor
  · rintro h ⟨rest, rfl⟩
    exact h rest rfl
  · rintro h rest rfl
    exact h ⟨rest, rfl⟩

-- ---------------------------------------------------------------------------
-- Cutting
-- ---------------------------------------------------------------------------

/-- The text has `needle` first between what stands before it and what stands behind it. -/
structure CutsAt (needle cs before after : List Char) : Prop where
  split : cs = before ++ (needle ++ after)
  first {other rest : List Char} : cs = other ++ (needle ++ rest) → before.length ≤ other.length

variable {needle : List Char}

theorem CutsAt.unique (h : CutsAt needle cs before after) {other : List Char} (h' : CutsAt needle cs other rest) :
    before = other ∧ after = rest := by
  have hlength : before.length = other.length := Nat.le_antisymm (h.first h'.split) (h'.first h.split)
  obtain ⟨hbefore, hbehind⟩ := List.append_inj (h.split.symm.trans h'.split) hlength
  exact ⟨hbefore, List.append_cancel_left hbehind⟩

theorem cutsAt_cons {c : Char} (h : ¬ needle <+: c :: cs) :
    CutsAt needle (c :: cs) before after ↔ ∃ shorter, before = c :: shorter ∧ CutsAt needle cs shorter after := by
  constructor
  · rintro ⟨hsplit, hfirst⟩
    cases before with
    | nil => exact absurd ⟨after, hsplit.symm⟩ h
    | cons d shorter =>
      obtain ⟨rfl, hcs⟩ := List.cons.inj hsplit
      refine ⟨shorter, rfl, hcs, fun {other rest} hother => ?_⟩
      have hle := hfirst (show c :: cs = c :: other ++ (needle ++ rest) by rw [hother]; rfl)
      simpa using hle
  · rintro ⟨shorter, rfl, hsplit, hfirst⟩
    refine ⟨by rw [hsplit]; rfl, fun {other rest} hother => ?_⟩
    cases other with
    | nil => exact absurd ⟨rest, hother.symm⟩ h
    | cons d other => simpa using hfirst (List.cons.inj hother).2

theorem cutAt_eq_some_iff : cutAt? needle cs = some (before, after) ↔ CutsAt needle cs before after := by
  induction cs generalizing before with
  | nil =>
    cases needle with
    | nil =>
      simp only [cutAt?, List.isEmpty_nil, ↓reduceIte, Option.some.injEq, Prod.mk.injEq]
      constructor
      · rintro ⟨rfl, rfl⟩
        exact ⟨rfl, fun _ => Nat.zero_le _⟩
      · rintro ⟨hsplit, -⟩
        simpa [eq_comm] using hsplit
    | cons c needle =>
      constructor
      · intro h
        cases h
      · intro h
        have hlength := congrArg List.length h.split
        simp at hlength
  | cons c cs ih =>
    rw [cutAt?]
    cases hprefix : dropPrefix? needle (c :: cs) with
    | some rest =>
      have hsplit : c :: cs = needle ++ rest := dropPrefix_eq_some.mp hprefix
      have hcut : CutsAt needle (c :: cs) [] rest := ⟨hsplit, fun _ => Nat.zero_le _⟩
      simp only [Option.some.injEq, Prod.mk.injEq]
      constructor
      · rintro ⟨rfl, rfl⟩
        exact hcut
      · exact hcut.unique
    | none =>
      have hnot : ¬ needle <+: c :: cs := by
        rw [← startsWith_iff, startsWith, hprefix]
        exact Bool.false_ne_true
      simp only [Option.map_eq_some_iff, Prod.exists, Prod.mk.injEq, cutsAt_cons hnot, ← ih]
      constructor
      · rintro ⟨shorter, _, hcut, rfl, rfl⟩
        exact ⟨shorter, rfl, hcut⟩
      · rintro ⟨shorter, rfl, hcut⟩
        exact ⟨shorter, after, hcut, rfl, rfl⟩

theorem cutAt_eq_none_iff : cutAt? needle cs = none ↔ ¬ needle <:+: cs := by
  induction cs with
  | nil => cases needle <;> simp [cutAt?]
  | cons c cs ih =>
    rw [List.infix_cons_iff, ← startsWith_iff, startsWith, cutAt?]
    cases dropPrefix? needle (c :: cs) <;> simp [ih]

theorem cutAt_eq_none {c : Char} : cutAt? [c] cs = none ↔ c ∉ cs := by
  rw [cutAt_eq_none_iff, List.singleton_infix_iff]

theorem cutAt_eq_some {c : Char} :
    cutAt? [c] cs = some (before, after) ↔ cs = before ++ c :: after ∧ c ∉ before := by
  rw [cutAt_eq_some_iff]
  constructor
  · rintro ⟨hsplit, hfirst⟩
    refine ⟨hsplit, fun hmem => ?_⟩
    obtain ⟨other, rest, rfl⟩ := List.append_of_mem hmem
    have hle := hfirst (show cs = other ++ ([c] ++ (rest ++ c :: after)) by simp [hsplit])
    rw [List.length_append, List.length_cons] at hle
    omega
  · rintro ⟨rfl, hbefore⟩
    refine ⟨rfl, fun {other rest} hother => ?_⟩
    rcases List.append_eq_append_iff.mp hother with ⟨more, rfl, -⟩ | ⟨more, rfl, hrest⟩
    · simp
    · cases more with
      | nil => simp
      | cons d more =>
        obtain ⟨rfl, -⟩ := List.cons.inj hrest
        exact absurd (by simp) hbefore

-- ---------------------------------------------------------------------------
-- The last piece
-- ---------------------------------------------------------------------------

/-- The text before a last piece: nothing, or it ends in the separator. -/
def IsLead (sep : Char) (before : List Char) : Prop := before = [] ∨ before.getLast? = some sep

def lastPiece (sep : Char) (cs : List Char) : List Char := (cs.reverse.takeWhile (· ≠ sep)).reverse

theorem exists_lastPiece (sep : Char) (cs : List Char) :
    ∃ before, cs = before ++ lastPiece sep cs ∧ IsLead sep before ∧ sep ∉ lastPiece sep cs := by
  refine ⟨(cs.reverse.dropWhile (· ≠ sep)).reverse, ?_, ?_, ?_⟩
  · rw [lastPiece, ← List.reverse_append, List.takeWhile_append_dropWhile, List.reverse_reverse]
  · rcases hdrop : cs.reverse.dropWhile (· ≠ sep) with _ | ⟨c, rest⟩
    · exact .inl rfl
    · have hhead := List.head?_dropWhile_not (· ≠ sep) cs.reverse
      rw [hdrop] at hhead
      refine .inr ?_
      rw [List.getLast?_reverse]
      simpa using hhead
  · rw [lastPiece, List.mem_reverse]
    exact fun hmem => by simpa using List.all_eq_true.mp List.all_takeWhile sep hmem

theorem lastPiece_append {sep : Char} {ending : List Char} (h : sep ∉ ending) (cs : List Char) :
    lastPiece sep (cs ++ ending) = lastPiece sep cs ++ ending := by
  have hall : ∀ c ∈ ending.reverse, decide (c ≠ sep) = true := by
    intro c hc
    have hne : c ≠ sep := by
      rintro rfl
      exact h (List.mem_reverse.mp hc)
    simpa using hne
  rw [lastPiece, List.reverse_append, List.takeWhile_append_of_pos hall, List.reverse_append,
    List.reverse_reverse, lastPiece]

/-- An end without separator is an end of the last piece. -/
theorem exists_append_of_piece {sep : Char} (hlead : IsLead sep before) (hsep : sep ∉ ending)
    (h : before ++ after = rest ++ ending) : ∃ shorter, after = shorter ++ ending ∧ rest = before ++ shorter := by
  rcases List.append_eq_append_iff.mp h with ⟨shorter, hrest, hafter⟩ | ⟨overlap, hbefore, hending⟩
  · exact ⟨shorter, hafter, hrest⟩
  · -- The end begins before the piece, and so holds the separator, unless it is all of the piece.
    rcases hlead with rfl | hlast
    · obtain ⟨rfl, rfl⟩ := List.append_eq_nil_iff.mp hbefore.symm
      exact ⟨[], by simpa using hending.symm, rfl⟩
    · rcases List.eq_nil_or_concat overlap with rfl | ⟨init, last, hoverlap⟩
      · exact ⟨[], by simpa using hending.symm, by simpa using hbefore.symm⟩
      · rw [List.concat_eq_append] at hoverlap
        subst hoverlap
        rw [hbefore, ← List.append_assoc, List.getLast?_concat, Option.some.injEq] at hlast
        subst hlast
        exact absurd (by rw [hending]; simp) hsep

end TsBuild.Text
