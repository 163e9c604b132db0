import TsBuild.Text.Position

/-!
# Lines and bytes

A line begins behind as many line feeds as its number (`append_of_lineStart?`), so the line of a place in it is
counted on from there (`line_position_add`). Characters and bytes are counted alike as long as every character
takes one byte (`take_eq_takeBytes`).
-/

namespace TsBuild.Text

-- ---------------------------------------------------------------------------
-- Widths
-- ---------------------------------------------------------------------------

theorem utf8Size_eq_one {c : Char} (h : c.toNat < 0x80) : c.utf8Size = 1 :=
  Char.utf8Size_eq_one_iff.mpr (UInt32.le_iff_toNat_le.mpr (Nat.le_of_lt_succ h))

theorem byteLength_cons_pos (c : Char) (cs : List Char) : 0 < byteLength (c :: cs) :=
  Nat.lt_of_lt_of_le c.utf8Size_pos (Nat.le_add_right _ _)

theorem length_le_byteLength (cs : List Char) : cs.length ≤ byteLength cs := by
  induction cs with
  | nil => exact Nat.le_refl _
  | cons c cs ih =>
    have hpos := c.utf8Size_pos
    rw [List.length_cons, byteLength]
    omega

theorem byteLength_eq_length_iff {cs : List Char} :
    byteLength cs = cs.length ↔ ∀ c ∈ cs, c.utf8Size = 1 := by
  induction cs with
  | nil => exact ⟨fun _ c hc => absurd hc List.not_mem_nil, fun _ => rfl⟩
  | cons c cs ih =>
    have hpos := c.utf8Size_pos
    have hle := length_le_byteLength cs
    rw [List.forall_mem_cons, ← ih, byteLength, List.length_cons]
    omega

theorem takeBytes_zero (cs : List Char) : takeBytes 0 cs = [] := by cases cs <;> rfl

theorem takeBytes_prefix_of_le {m n : Nat} (h : m ≤ n) (cs : List Char) : takeBytes m cs <+: takeBytes n cs := by
  induction cs generalizing m n with
  | nil => exact List.prefix_rfl
  | cons c cs ih =>
    rw [takeBytes, takeBytes]
    split
    · exact List.nil_prefix
    · rw [if_neg (by omega)]
      exact List.prefix_cons_inj c |>.mpr (ih (by omega))

theorem take_eq_takeBytes {n : Nat} {cs : List Char} (h : ∀ c ∈ takeBytes n cs, c.utf8Size = 1) :
    cs.take n = takeBytes n cs := by
  induction cs generalizing n with
  | nil => rw [List.take_nil, takeBytes]
  | cons c cs ih =>
    cases n with
    | zero => rfl
    | succ n =>
      rw [takeBytes, if_neg n.succ_ne_zero, List.forall_mem_cons] at h
      obtain ⟨hc, h⟩ := h
      rw [hc, Nat.add_sub_cancel] at h
      rw [List.take_succ_cons, takeBytes, if_neg n.succ_ne_zero, hc, Nat.add_sub_cancel, ih h]

/-- The first `n` characters take `n` bytes exactly if those that begin within these bytes take one each. -/
theorem byteLength_take_iff {n : Nat} {cs : List Char} (h : n < byteLength cs) :
    byteLength (cs.take n) = n ↔ ∀ c ∈ takeBytes n cs, c.utf8Size = 1 := by
  induction cs generalizing n with
  | nil => exact absurd h (Nat.not_lt_zero n)
  | cons c cs ih =>
    cases n with
    | zero => exact ⟨fun _ c hc => absurd hc List.not_mem_nil, fun _ => rfl⟩
    | succ n =>
      rw [takeBytes, if_neg n.succ_ne_zero, List.forall_mem_cons, List.take_succ_cons, byteLength]
      rw [byteLength] at h
      by_cases hc : c.utf8Size = 1
      · rw [hc] at h ⊢
        rw [Nat.add_sub_cancel, ← ih (by omega)]
        omega
      · have hpos := c.utf8Size_pos
        have hle := length_le_byteLength (cs.take n)
        rw [List.length_take] at hle
        have hshort : cs.length < n → cs.take n = cs := fun h => List.take_of_length_le (Nat.le_of_lt h)
        by_cases hlength : cs.length < n
        · rw [hshort hlength]
          omega
        · omega

-- ---------------------------------------------------------------------------
-- Lines
-- ---------------------------------------------------------------------------

theorem lineStart?_zero (cs : List Char) (o : Nat) : lineStart? 0 cs o = some (cs, o) := by
  cases cs <;> rfl

theorem append_of_lineStart? (h : lineStart? n cs o = some (rest, start)) :
    ∃ before, cs = before ++ rest ∧ start = o + byteLength before ∧ before.count '\n' = n := by
  induction cs generalizing n o with
  | nil =>
    cases n with
    | zero =>
      cases h
      exact ⟨[], rfl, rfl, rfl⟩
    | succ n => cases h
  | cons c cs ih =>
    cases n with
    | zero =>
      cases h
      exact ⟨[], rfl, rfl, rfl⟩
    | succ n =>
      obtain ⟨before, hcs, hstart, hcount⟩ := ih h
      refine ⟨c :: before, by rw [hcs, List.cons_append], by rw [hstart, byteLength, Nat.add_assoc], ?_⟩
      rw [List.count_cons, hcount]
      by_cases hc : c = '\n' <;> simp [hc]

theorem positionFrom_append (start : Position) (before after : List Char) :
    positionFrom start (before ++ after) (byteLength before) = before.foldl Position.step start := by
  induction before generalizing start with
  | nil => cases after <;> rfl
  | cons c before ih =>
    have hpos := byteLength_cons_pos c before
    rw [List.cons_append, positionFrom, if_neg (by omega), byteLength, Nat.add_sub_cancel_left, ih,
      List.foldl_cons]

theorem line_foldl_step (start : Position) (cs : List Char) :
    (cs.foldl Position.step start).line = start.line + cs.count '\n' := by
  induction cs generalizing start with
  | nil => rfl
  | cons c cs ih =>
    rw [List.foldl_cons, ih, List.count_cons, Position.step]
    by_cases hc : c = '\n'
    · simp only [hc, ↓reduceIte, beq_self_eq_true]
      omega
    · simp [hc]

theorem line_position_add (h : lineStart? n cs 0 = some (piece ++ after, start)) :
    (position cs (start + byteLength piece)).line = n + piece.count '\n' := by
  obtain ⟨before, hcs, hstart, hcount⟩ := append_of_lineStart? h
  rw [position, hstart, Nat.zero_add, ← byteLength_append, hcs, ← List.append_assoc, positionFrom_append,
    line_foldl_step, List.count_append, hcount]
  exact Nat.zero_add _

/-- The byte offset lies in the line of number `n`, which begins at `start`. -/
structure InLine (cs : List Char) (offset n : Nat) (rest : List Char) (start : Nat) : Prop where
  lineStart : ∀ o, lineStart? n cs o = some (rest, o + start)
  start_le : start ≤ offset
  within : offset - start ≤ byteLength rest
  unbroken : '\n' ∉ takeBytes (offset - start) rest

variable {c : Char} {cs rest : List Char} {offset n start : Nat}

theorem InLine.zero (cs : List Char) : InLine cs 0 0 cs 0 where
  lineStart o := lineStart?_zero cs o
  start_le := Nat.le_refl 0
  within := Nat.zero_le _
  unbroken := by cases cs <;> exact List.not_mem_nil

theorem InLine.eq_of_zero (h : InLine cs offset 0 rest start) : rest = cs ∧ start = 0 := by
  have hlineStart := h.lineStart 0
  rw [lineStart?_zero] at hlineStart
  obtain ⟨hrest, hstart⟩ := Prod.mk.inj (Option.some.inj hlineStart)
  exact ⟨hrest.symm, by omega⟩

theorem InLine.newline (h : InLine cs offset n rest start) :
    InLine ('\n' :: cs) (offset + 1) (n + 1) rest (start + 1) where
  lineStart o := by
    have hsize : ('\n' : Char).utf8Size = 1 := rfl
    rw [lineStart?, if_pos rfl, h.lineStart, hsize, Nat.add_assoc, Nat.add_comm 1]
  start_le := Nat.succ_le_succ h.start_le
  within := by rw [Nat.add_sub_add_right]; exact h.within
  unbroken := by rw [Nat.add_sub_add_right]; exact h.unbroken

theorem InLine.cons_first (hc : c ≠ '\n') (hpos : offset ≠ 0) (h : InLine cs (offset - c.utf8Size) 0 cs 0) :
    InLine (c :: cs) offset 0 (c :: cs) 0 where
  lineStart o := lineStart?_zero _ o
  start_le := Nat.zero_le offset
  within := by
    have hwithin := h.within
    rw [byteLength]
    omega
  unbroken := by
    have hunbroken := h.unbroken
    rw [Nat.sub_zero] at hunbroken
    rw [Nat.sub_zero, takeBytes, if_neg hpos, List.mem_cons, not_or]
    exact ⟨Ne.symm hc, hunbroken⟩

theorem InLine.cons (hc : c ≠ '\n') (h : InLine cs (offset - c.utf8Size) (n + 1) rest start) :
    InLine (c :: cs) offset (n + 1) rest (start + c.utf8Size) := by
  have hstart : 0 < start := by
    obtain ⟨before, -, hstart, hcount⟩ := append_of_lineStart? (h.lineStart 0)
    have hle := length_le_byteLength before
    have hcount' := List.count_le_length (a := '\n') (l := before)
    omega
  have hle := h.start_le
  have hsub : offset - (start + c.utf8Size) = offset - c.utf8Size - start := by omega
  refine ⟨fun o => ?_, by omega, ?_, ?_⟩
  · rw [lineStart?, if_neg hc, h.lineStart, Nat.add_assoc, Nat.add_comm start]
  · rw [hsub]
    exact h.within
  · rw [hsub]
    exact h.unbroken

end TsBuild.Text
