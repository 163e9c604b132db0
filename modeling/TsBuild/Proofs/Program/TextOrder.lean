import TsBuild.Program.Check

/-!
# Diagnostics in text order

Putting diagnostics in text order is a stable sort, and this says all of it: the result is in order, and
those at one place are as they were (`inTextOrder_eq_iff`). So it makes no difference whether some of them
were in order before others came (`inTextOrder_append`), and further diagnostics come between the others
(`inTextOrder_sublist`).
-/

namespace TsBuild.Program

variable {diagnostics first second : List Diagnostic}

def startOf (diagnostic : Diagnostic) : Nat := diagnostic.start.getD 0

def startingAt (start : Nat) (diagnostics : List Diagnostic) : List Diagnostic :=
  diagnostics.filter fun diagnostic => startOf diagnostic = start

def IsOrdered (diagnostics : List Diagnostic) : Prop :=
  diagnostics.Pairwise fun a b => startOf a ≤ startOf b

theorem mem_startingAt : diagnostic ∈ startingAt start diagnostics ↔
    diagnostic ∈ diagnostics ∧ startOf diagnostic = start := by
  simp [startingAt]

theorem startingAt_cons (start : Nat) (diagnostic : Diagnostic) (diagnostics : List Diagnostic) :
    startingAt start (diagnostic :: diagnostics) =
      if startOf diagnostic = start then diagnostic :: startingAt start diagnostics
      else startingAt start diagnostics := by
  simp only [startingAt, List.filter_cons, decide_eq_true_eq]

theorem startingAt_append (start : Nat) (first second : List Diagnostic) :
    startingAt start (first ++ second) = startingAt start first ++ startingAt start second :=
  List.filter_append ..

-- ---------------------------------------------------------------------------
-- Sorting
-- ---------------------------------------------------------------------------

def mayPrecede (a b : Diagnostic) : Bool := startOf a ≤ startOf b

theorem inTextOrder_eq (diagnostics : List Diagnostic) :
    inTextOrder diagnostics = diagnostics.mergeSort mayPrecede := rfl

theorem mayPrecede_trans (a b c : Diagnostic) (hab : mayPrecede a b = true) (hbc : mayPrecede b c = true) :
    mayPrecede a c = true := by
  simp only [mayPrecede, decide_eq_true_eq] at hab hbc ⊢
  exact Nat.le_trans hab hbc

theorem mayPrecede_total (a b : Diagnostic) : (mayPrecede a b || mayPrecede b a) = true := by
  simpa [mayPrecede] using Nat.le_total (startOf a) (startOf b)

theorem inTextOrder_perm (diagnostics : List Diagnostic) : (inTextOrder diagnostics).Perm diagnostics :=
  List.mergeSort_perm _ _

theorem isOrdered_inTextOrder (diagnostics : List Diagnostic) : IsOrdered (inTextOrder diagnostics) := by
  rw [inTextOrder_eq]
  refine (List.pairwise_mergeSort mayPrecede_trans mayPrecede_total diagnostics).imp ?_
  exact fun h => of_decide_eq_true h

theorem startingAt_inTextOrder (start : Nat) (diagnostics : List Diagnostic) :
    startingAt start (inTextOrder diagnostics) = startingAt start diagnostics := by
  -- What stands at one place is in order, so sorting leaves it as it is.
  have hplace : (startingAt start diagnostics).Pairwise fun a b => mayPrecede a b = true := by
    refine List.pairwise_of_forall_mem_list fun a ha b hb => ?_
    rw [mayPrecede, (mem_startingAt.mp ha).2, (mem_startingAt.mp hb).2]
    exact decide_eq_true (Nat.le_refl start)
  have hsublist : (startingAt start diagnostics).Sublist (inTextOrder diagnostics) :=
    List.sublist_mergeSort mayPrecede_trans mayPrecede_total hplace List.filter_sublist
  have hwithin : (startingAt start diagnostics).Sublist (startingAt start (inTextOrder diagnostics)) := by
    have hfiltered := hsublist.filter fun diagnostic => decide (startOf diagnostic = start)
    simpa only [startingAt, List.filter_filter, Bool.and_self] using hfiltered
  exact (hwithin.eq_of_length ((inTextOrder_perm diagnostics).filter _).length_eq.symm).symm

-- ---------------------------------------------------------------------------
-- Uniqueness
-- ---------------------------------------------------------------------------

theorem IsOrdered.sublist (hfirst : IsOrdered first) (hsecond : IsOrdered second)
    (h : ∀ start, (startingAt start first).Sublist (startingAt start second)) : first.Sublist second := by
  induction second generalizing first with
  | nil =>
    cases first with
    | nil => exact .slnil
    | cons a first =>
      have hmem : a ∈ startingAt (startOf a) [] :=
        (h (startOf a)).subset (mem_startingAt.mpr ⟨List.mem_cons_self, rfl⟩)
      cases hmem
  | cons b second ih =>
    -- Away from the place of `b`, the rest of the second list is as good as all of it.
    have hother : ∀ start, startOf b ≠ start →
        (startingAt start first).Sublist (startingAt start second) := by
      intro start hstart
      have hplace := h start
      rwa [startingAt_cons, if_neg hstart] at hplace
    have hhead := h (startOf b)
    rw [startingAt_cons, if_pos rfl] at hhead
    cases first with
    | nil => exact List.nil_sublist _
    | cons a first =>
      rw [startingAt_cons] at hhead
      by_cases hstart : startOf a = startOf b
      · rw [if_pos hstart] at hhead
        cases hhead with
        | cons _ hlater =>
          refine .cons b (ih hfirst hsecond.tail fun start => ?_)
          by_cases hat : startOf b = start
          · subst hat
            rwa [startingAt_cons, if_pos hstart]
          · exact hother start hat
        | cons_cons _ htail =>
          refine .cons_cons _ (ih hfirst.tail hsecond.tail fun start => ?_)
          by_cases hat : startOf b = start
          · exact hat ▸ htail
          · have hplace := hother start hat
            rwa [startingAt_cons, if_neg hat] at hplace
      · -- The first list begins behind the place of `b`.
        have hmem : a ∈ b :: second :=
          (mem_startingAt.mp ((h (startOf a)).subset (mem_startingAt.mpr ⟨List.mem_cons_self, rfl⟩))).1
        have hlt : startOf b < startOf a := by
          rcases List.mem_cons.mp hmem with rfl | hlater
          · exact absurd rfl hstart
          · exact Nat.lt_of_le_of_ne (List.rel_of_pairwise_cons hsecond hlater) (Ne.symm hstart)
        refine .cons b (ih hfirst hsecond.tail fun start => ?_)
        by_cases hat : startOf b = start
        · have hnone : startingAt start (a :: first) = [] := by
            refine List.filter_eq_nil_iff.mpr fun c hc => ?_
            have hle : startOf a ≤ startOf c := by
              rcases List.mem_cons.mp hc with rfl | hc
              · exact Nat.le_refl _
              · exact List.rel_of_pairwise_cons hfirst hc
            simp only [decide_eq_true_eq]
            omega
          rw [hnone]
          exact List.nil_sublist _
        · exact hother start hat

/-- A list in order is known by what there is at each place. -/
theorem IsOrdered.eq (hfirst : IsOrdered first) (hsecond : IsOrdered second)
    (h : ∀ start, startingAt start first = startingAt start second) : first = second := by
  have hsublist := hfirst.sublist hsecond fun start => h start ▸ List.Sublist.refl _
  have hsuperlist := hsecond.sublist hfirst fun start => h start ▸ List.Sublist.refl _
  exact hsublist.eq_of_length_le hsuperlist.length_le

theorem inTextOrder_eq_iff :
    inTextOrder first = second ↔
      IsOrdered second ∧ ∀ start, startingAt start second = startingAt start first := by
  constructor
  · rintro rfl
    exact ⟨isOrdered_inTextOrder first, fun start => startingAt_inTextOrder start first⟩
  · rintro ⟨hordered, hplaces⟩
    refine (isOrdered_inTextOrder first).eq hordered fun start => ?_
    rw [startingAt_inTextOrder, hplaces]

theorem inTextOrder_append (first second : List Diagnostic) :
    inTextOrder (inTextOrder first ++ second) = inTextOrder (first ++ second) := by
  rw [inTextOrder_eq_iff]
  refine ⟨isOrdered_inTextOrder _, fun start => ?_⟩
  rw [startingAt_inTextOrder, startingAt_append, startingAt_append, startingAt_inTextOrder]

/-- With more diagnostics, those there were keep their order. -/
theorem inTextOrder_sublist (h : first.Sublist second) : (inTextOrder first).Sublist (inTextOrder second) := by
  refine (isOrdered_inTextOrder first).sublist (isOrdered_inTextOrder second) fun start => ?_
  rw [startingAt_inTextOrder, startingAt_inTextOrder]
  exact h.filter _

end TsBuild.Program
