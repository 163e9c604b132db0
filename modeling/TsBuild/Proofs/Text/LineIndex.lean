import TsBuild.Proofs.Text.Encoding
import TsBuild.Proofs.Text.Position
import TsBuild.Text.LineIndex

/-!
# What a line index finds

The search among the beginnings of lines ends at the last one that is not behind the offset (`halve_eq`). As many
lines begin up to an offset as there are line feeds before it, and one more (`IsCut.starts_le_iff`), so the index
finds what walking the text finds, and never fails (`position?_of`, `offset?_of`).
-/

namespace TsBuild.Text

variable {cs before after : List Char} {c : Char} {offset : Nat}

-- ---------------------------------------------------------------------------
-- Halving
-- ---------------------------------------------------------------------------

/-- If the keys up to the `count`-th are the ones that are no greater, halving ends at the last of them. -/
theorem halve_eq {keys : Array Nat} {key count base size : Nat} (h : base + size ≤ keys.size)
    (hkeys : ∀ i (hi : i < keys.size), keys[i] ≤ key ↔ i < count) (hbase : base < count)
    (hcount : count ≤ base + size) : halve keys key base size h = count - 1 := by
  fun_induction halve keys key base size h with
  | case1 base size h hsize hgreater ih =>
    have hmiddle := (not_congr (hkeys (base + size / 2) (by omega))).mp (Nat.not_le.mpr hgreater)
    exact ih hbase (by omega)
  | case2 base size h hsize hnot ih =>
    have hmiddle := (hkeys (base + size / 2) (by omega)).mp (Nat.not_lt.mp hnot)
    exact ih hmiddle (by omega)
  | case3 base size h hsize => omega

theorem search_eq {keys : Array Nat} {key count : Nat} (hkeys : ∀ i (hi : i < keys.size), keys[i] ≤ key ↔ i < count)
    (hpos : 0 < count) (hcount : count ≤ keys.size) :
    search keys key = .ok (count - 1) ∨ search keys key = .error count := by
  have hhalve := halve_eq (Nat.le_of_eq (Nat.zero_add keys.size)) hkeys hpos (by omega)
  have hlast : count - 1 < keys.size := by omega
  have hle : keys[count - 1] ≤ key := (hkeys _ hlast).mpr (by omega)
  rw [search]
  simp only [hhalve, Array.getElem?_eq_getElem hlast]
  split
  · exact .inl rfl
  · rename_i hne
    rw [if_pos (by omega), Nat.sub_add_cancel hpos]
    exact .inr rfl

-- ---------------------------------------------------------------------------
-- Offsets of characters
-- ---------------------------------------------------------------------------

theorem charOffsets_append (before after : List Char) (offset : Nat) :
    charOffsets (before ++ after) offset =
      charOffsets before offset ++ charOffsets after (offset + byteLength before) := by
  induction before generalizing offset with
  | nil => rfl
  | cons c before ih => rw [List.cons_append, charOffsets, charOffsets, ih, List.cons_append, byteLength, Nat.add_assoc]

theorem length_charOffsets (cs : List Char) (offset : Nat) : (charOffsets cs offset).length = cs.length := by
  induction cs generalizing offset with
  | nil => rfl
  | cons c cs ih => rw [charOffsets, List.length_cons, ih, List.length_cons]

theorem mem_charOffsets (h : o ∈ charOffsets cs offset) : offset ≤ o ∧ o < offset + byteLength cs := by
  induction cs generalizing offset with
  | nil => cases h
  | cons c cs ih =>
    have hpos := c.utf8Size_pos
    rw [byteLength]
    rcases List.mem_cons.mp h with rfl | h
    · omega
    · have hbounds := ih h
      omega

theorem getElem?_charOffsets (cs : List Char) (offset i : Nat) :
    (charOffsets cs offset)[i]? = if i < cs.length then some (offset + byteLength (cs.take i)) else none := by
  induction cs generalizing offset i with
  | nil => rfl
  | cons c cs ih =>
    cases i with
    | zero => rfl
    | succ i =>
      rw [charOffsets, List.getElem?_cons_succ, ih, List.take_succ_cons, byteLength, List.length_cons]
      simp only [Nat.add_lt_add_iff_right, Nat.add_assoc]

theorem cutAtByte?_append (before after : List Char) : cutAtByte? (byteLength before) (before ++ after) = some after := by
  induction before with
  | nil => cases after <;> rfl
  | cons c before ih =>
    have hpos := c.utf8Size_pos
    cases hbytes : c.utf8Size + byteLength before with
    | zero => omega
    | succ n =>
      have hrest : n + 1 - c.utf8Size = byteLength before := by omega
      rw [List.cons_append, byteLength, hbytes, cutAtByte?, if_pos (by omega), hrest, ih]

-- ---------------------------------------------------------------------------
-- Beginnings of lines
-- ---------------------------------------------------------------------------

def feedEnds (cs : List Char) (offset : Nat) : List Nat :=
  ((cs.zip (charOffsets cs offset)).filter (·.1 = '\n')).map (·.2 + 1)

theorem feedEnds_cons (c : Char) (cs : List Char) (offset : Nat) :
    feedEnds (c :: cs) offset =
      if c = '\n' then (offset + 1) :: feedEnds cs (offset + 1) else feedEnds cs (offset + c.utf8Size) := by
  by_cases hc : c = '\n'
  · subst hc
    rfl
  · simp [feedEnds, charOffsets, hc]

theorem feedEnds_append (before after : List Char) (offset : Nat) :
    feedEnds (before ++ after) offset = feedEnds before offset ++ feedEnds after (offset + byteLength before) := by
  rw [feedEnds, charOffsets_append, List.zip_append (length_charOffsets _ _).symm, List.filter_append, List.map_append]
  rfl

theorem length_feedEnds (cs : List Char) (offset : Nat) : (feedEnds cs offset).length = cs.count '\n' := by
  induction cs generalizing offset with
  | nil => rfl
  | cons c cs ih =>
    rw [feedEnds_cons]
    by_cases hc : c = '\n'
    · subst hc
      rw [if_pos rfl, List.length_cons, ih, List.count_cons_self]
    · rw [if_neg hc, ih, List.count_cons_of_ne hc]

theorem exists_of_mem_feedEnds (h : o ∈ feedEnds cs offset) : ∃ feed ∈ charOffsets cs offset, o = feed + 1 := by
  obtain ⟨⟨c, feed⟩, hmem, rfl⟩ := List.mem_map.mp h
  exact ⟨feed, (List.of_mem_zip (List.mem_filter.mp hmem).1).2, rfl⟩

/-- The line feeds among the bytes are those among the characters. -/
theorem map_zipIdx_encode (cs : List Char) (offset : Nat) :
    (((encode cs).zipIdx offset).filter (·.1 = '\n'.toUInt8)).map (·.2 + 1) = feedEnds cs offset := by
  induction cs generalizing offset with
  | nil => rfl
  | cons c cs ih =>
    rw [encode_cons, List.zipIdx_append, List.filter_append, List.map_append, String.length_utf8EncodeChar, ih,
      feedEnds_cons]
    by_cases hc : c = '\n'
    · subst hc
      rfl
    · have hnone : ((String.utf8EncodeChar c).zipIdx offset).filter (·.1 = '\n'.toUInt8) = [] := by
        rw [List.filter_eq_nil_iff]
        intro b hb
        rw [decide_eq_true_iff]
        intro heq
        exact hc ((mem_utf8EncodeChar rfl).mp (heq ▸ List.fst_mem_of_mem_zipIdx hb))
      rw [if_neg hc, hnone]
      rfl

theorem LineIndex.starts_of (text : String) :
    (LineIndex.of text).starts = (0 :: feedEnds text.toList 0).toArray := by
  rw [← map_zipIdx_encode, ← bytes_eq]
  rfl

theorem getElem?_starts (h : IsLead '\n' before) (after : List Char) :
    (0 :: feedEnds (before ++ after) 0)[before.count '\n']? = some (byteLength before) := by
  rcases h with rfl | hlast
  · rfl
  · obtain ⟨first, rfl⟩ := List.getLast?_eq_some_iff.mp hlast
    have hlength := length_feedEnds first 0
    rw [feedEnds_append, feedEnds_append, List.count_append, List.count_singleton_self, List.getElem?_cons_succ,
      List.append_assoc, List.getElem?_append_right (Nat.le_of_eq hlength), hlength, Nat.sub_self]
    simp [feedEnds, charOffsets, byteLength]
    rfl

theorem getElem?_feedEnds (cs : List Char) (offset n : Nat) :
    (offset :: feedEnds cs offset)[n]? = (lineStart? n cs offset).map Prod.snd := by
  induction cs generalizing offset n with
  | nil => cases n <;> rfl
  | cons c cs ih =>
    cases n with
    | zero => rfl
    | succ n =>
      rw [lineStart?, List.getElem?_cons_succ, feedEnds_cons]
      by_cases hc : c = '\n'
      · subst hc
        exact ih _ _
      · rw [if_neg hc, if_neg hc, ← ih, List.getElem?_cons_succ]

-- ---------------------------------------------------------------------------
-- What is found
-- ---------------------------------------------------------------------------

/-- A text cut at an offset, or behind the character that the offset is in. -/
structure IsCut (cs before after : List Char) (offset : Nat) : Prop where
  text_eq : cs = before ++ after
  le : offset ≤ byteLength before
  lt : ∀ o ∈ charOffsets before 0, o < offset

theorem min_le_byteLength_takeBytes (n : Nat) (cs : List Char) :
    min n (byteLength cs) ≤ byteLength (takeBytes n cs) := by
  induction cs generalizing n with
  | nil => exact Nat.min_le_right _ _
  | cons c cs ih =>
    rw [takeBytes]
    split
    · omega
    · have hrest := ih (n - c.utf8Size)
      simp only [byteLength]
      omega

theorem lt_of_mem_charOffsets_takeBytes (h : o ∈ charOffsets (takeBytes n cs) offset) : o < offset + n := by
  induction cs generalizing n offset with
  | nil => cases h
  | cons c cs ih =>
    rw [takeBytes] at h
    split at h
    · cases h
    · rcases List.mem_cons.mp h with rfl | h
      · omega
      · have hlt := ih h
        by_cases hsize : c.utf8Size ≤ n
        · omega
        · rw [Nat.sub_eq_zero_of_le (by omega), takeBytes_zero] at h
          cases h

theorem isCut_takeBytes (n : Nat) (cs : List Char) :
    IsCut cs (takeBytes n cs) (dropBytes n cs) (min n (byteLength cs)) where
  text_eq := (takeBytes_append_dropBytes n cs).symm
  le := min_le_byteLength_takeBytes n cs
  lt o ho := by
    have hmem : o ∈ charOffsets (takeBytes n cs ++ dropBytes n cs) 0 := by
      rw [charOffsets_append]
      exact List.mem_append_left _ ho
    rw [takeBytes_append_dropBytes] at hmem
    have hbounds := mem_charOffsets hmem
    have hlt := lt_of_mem_charOffsets_takeBytes ho
    omega

theorem position_eq_takeBytes (cs : List Char) (n : Nat) :
    position cs n = ⟨(takeBytes n cs).count '\n', (lastPiece '\n' (takeBytes n cs)).length⟩ := by
  rw [position, positionFrom_eq, foldl_step]

/-- The lines that begin up to a cut are the first, and those behind the line feeds before it. -/
theorem IsCut.starts_le_iff (h : IsCut cs before after offset) (hi : (0 :: feedEnds cs 0)[i]? = some start) :
    start ≤ offset ↔ i < before.count '\n' + 1 := by
  have hlength : (0 :: feedEnds before 0).length = before.count '\n' + 1 := by
    rw [List.length_cons, length_feedEnds]
  rw [h.text_eq, feedEnds_append, Nat.zero_add, ← List.cons_append, List.getElem?_append, hlength] at hi
  split at hi
  · rename_i hfirst
    refine iff_of_true ?_ hfirst
    rcases List.mem_cons.mp (List.mem_of_getElem? hi) with rfl | hmem
    · exact Nat.zero_le _
    · obtain ⟨feed, hfeed, rfl⟩ := exists_of_mem_feedEnds hmem
      exact h.lt feed hfeed
  · rename_i hlast
    refine iff_of_false ?_ hlast
    obtain ⟨feed, hfeed, rfl⟩ := exists_of_mem_feedEnds (List.mem_of_getElem? hi)
    have hbounds := mem_charOffsets hfeed
    have hle := h.le
    omega

theorem IsCut.line?_eq (h : IsCut cs before after offset) (hcs : text.toList = cs) :
    (LineIndex.of text).line? offset = some (before.count '\n') := by
  have hkeys : ∀ i (hi : i < (LineIndex.of text).starts.size),
      (LineIndex.of text).starts[i] ≤ offset ↔ i < before.count '\n' + 1 := by
    intro i hi
    refine h.starts_le_iff ?_
    rw [← hcs, ← List.getElem?_toArray, ← LineIndex.starts_of, Array.getElem?_eq_getElem hi]
  have hsize : before.count '\n' + 1 ≤ (LineIndex.of text).starts.size := by
    rw [LineIndex.starts_of, List.size_toArray, List.length_cons, length_feedEnds, hcs, h.text_eq, List.count_append]
    omega
  obtain hfound | hfound := search_eq hkeys (Nat.succ_pos _) hsize
  · rw [LineIndex.line?, hfound]
    rfl
  · rw [LineIndex.line?, hfound]

theorem IsCut.takeWhile_eq (h : IsCut cs (front ++ piece) after offset) :
    (charOffsets (piece ++ after) (byteLength front)).takeWhile (· < offset) =
      charOffsets piece (byteLength front) := by
  have hbefore : ∀ o ∈ charOffsets piece (byteLength front), decide (o < offset) = true := by
    intro o ho
    refine decide_eq_true (h.lt o ?_)
    rw [charOffsets_append, Nat.zero_add]
    exact List.mem_append_right _ ho
  rw [charOffsets_append, List.takeWhile_append_of_pos hbefore, ← byteLength_append]
  cases after with
  | nil => rw [charOffsets, List.takeWhile_nil, List.append_nil]
  | cons c after =>
    rw [charOffsets, List.takeWhile_cons_of_neg (by simpa using h.le), List.append_nil]

theorem position?_of (text : String) (offset : Nat) :
    (LineIndex.of text).position? offset = some (position text.toList offset) := by
  have hcut := isCut_takeBytes offset text.toList
  rw [position_eq_takeBytes]
  generalize takeBytes offset text.toList = before at hcut ⊢
  generalize dropBytes offset text.toList = after at hcut
  obtain ⟨front, hbefore, hfront, hpiece⟩ := exists_lastPiece '\n' before
  generalize lastPiece '\n' before = piece at hbefore hpiece ⊢
  subst hbefore
  have htext : text.toList = front ++ (piece ++ after) := by rw [hcut.text_eq, List.append_assoc]
  have hline : (LineIndex.of text).line? (min offset (byteLength (LineIndex.of text).text)) =
      some ((front ++ piece).count '\n') := hcut.line?_eq rfl
  have hstart : (LineIndex.of text).starts[(front ++ piece).count '\n']? = some (byteLength front) := by
    rw [LineIndex.starts_of, List.getElem?_toArray, htext, List.count_append, List.count_eq_zero.mpr hpiece]
    exact getElem?_starts hfront _
  have hrest : cutAtByte? (byteLength front) (LineIndex.of text).text = some (piece ++ after) := by
    rw [LineIndex.of, htext, cutAtByte?_append]
  have hkept : (charOffsets (piece ++ after) (byteLength front)).takeWhile
      (· < min offset (byteLength (LineIndex.of text).text)) = charOffsets piece (byteLength front) :=
    hcut.takeWhile_eq
  simp only [LineIndex.position?, hline, hstart, hrest, hkept, length_charOffsets, Option.bind_eq_bind,
    Option.bind_some, Option.pure_def]

theorem offset?_of (text : String) (at' : Position) :
    (LineIndex.of text).offset? at' = some (Text.offset text.toList at') := by
  have hstart := getElem?_feedEnds text.toList 0 at'.line
  simp only [LineIndex.offset?, LineIndex.starts_of, List.getElem?_toArray, hstart, Text.offset]
  cases hline : lineStart? at'.line text.toList 0 with
  | none => rfl
  | some found =>
    obtain ⟨rest, start⟩ := found
    obtain ⟨before, htext, hlength, -⟩ := append_of_lineStart? hline
    have hcut : cutAtByte? start text.toList = some rest := by
      rw [htext, hlength, Nat.zero_add, cutAtByte?_append]
    have htotal : byteLength text.toList = start + byteLength rest := by
      rw [htext, byteLength_append, hlength, Nat.zero_add]
    simp only [LineIndex.of, Option.map_some, hcut, Option.bind_eq_bind, Option.bind_some, Option.pure_def,
      getElem?_charOffsets, htotal, Option.some.injEq]
    split
    · rfl
    · rename_i hlong
      rw [List.take_of_length_le (Nat.not_lt.mp hlong)]
      rfl

end TsBuild.Text
