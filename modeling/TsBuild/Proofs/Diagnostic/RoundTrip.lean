import Mathlib.Order.Bounds.Defs
import TsBuild.Diagnostic.Basic
import TsBuild.Proofs.Text.LineIndex

/-!
# Offsets and positions

The position of an offset counts the line feeds among the bytes before it, and the characters that begin between the
last of them and the offset (`count_take_encode`, `IsCut.length_filter`). Back from it one comes to the first place
between two characters that is not before the offset, and from a place in a line to this place
(`position_roundTrip`).
-/

namespace TsBuild.Text

variable {cs before after front piece : List Char} {offset : Nat}

def IsBoundary (text : String) (offset : Nat) : Prop :=
  ∃ before after, text.toList = before ++ after ∧ offset = byteLength before

/-- The line of a number begins at an offset: as many line feeds are before it, one of them right before it unless it
is the beginning. -/
structure BeginsLine (text : String) (line start : Nat) : Prop where
  count : ((bytes text).take start).count '\n'.toUInt8 = line
  behind : start = 0 ∨ (bytes text)[start - 1]? = some '\n'.toUInt8

-- ---------------------------------------------------------------------------
-- Line feeds
-- ---------------------------------------------------------------------------

theorem count_take_utf8EncodeChar {c : Char} (h : c ≠ '\n') (n : Nat) :
    ((String.utf8EncodeChar c).take n).count '\n'.toUInt8 = 0 := by
  rw [List.count_eq_zero]
  exact fun hmem => h ((mem_utf8EncodeChar rfl).mp (List.mem_of_mem_take hmem))

theorem count_take_encode (n : Nat) (cs : List Char) :
    ((encode cs).take n).count '\n'.toUInt8 = (takeBytes n cs).count '\n' := by
  induction cs generalizing n with
  | nil => simp [takeBytes]
  | cons c cs ih =>
    rw [takeBytes, encode_cons, List.take_append, List.count_append, String.length_utf8EncodeChar, ih]
    by_cases hn : n = 0
    · subst hn
      rw [if_pos rfl, Nat.zero_sub, takeBytes_zero]
      rfl
    · rw [if_neg hn]
      by_cases hc : c = '\n'
      · subst hc
        have hbytes : String.utf8EncodeChar '\n' = ['\n'.toUInt8] := rfl
        rw [hbytes, List.take_of_length_le (by simp; omega), List.count_singleton_self, List.count_cons_self, Nat.add_comm]
      · rw [count_take_utf8EncodeChar hc, List.count_cons_of_ne hc, Nat.zero_add]

theorem lastPiece_append_of_isLead (h : IsLead '\n' front) (hpiece : '\n' ∉ piece) :
    lastPiece '\n' (front ++ piece) = piece := by
  have hfront : lastPiece '\n' front = [] := by
    rcases h with rfl | hlast
    · rfl
    · obtain ⟨first, rfl⟩ := List.getLast?_eq_some_iff.mp hlast
      simp [lastPiece]
  rw [lastPiece_append hpiece, hfront, List.nil_append]

theorem isLead_cons {sep c : Char} : IsLead sep (c :: front) ↔ IsLead sep front ∧ (front = [] → c = sep) := by
  unfold IsLead
  cases front with
  | nil => simp
  | cons d front => simp [List.getLast?_cons_cons]

theorem lineStart?_append (h : IsLead '\n' front) (rest : List Char) (offset : Nat) :
    lineStart? (front.count '\n') (front ++ rest) offset = some (rest, offset + byteLength front) := by
  induction front generalizing offset with
  | nil => exact lineStart?_zero rest offset
  | cons c front ih =>
    obtain ⟨hfront, hempty⟩ := isLead_cons.mp h
    by_cases hc : c = '\n'
    · subst hc
      rw [List.count_cons_self, List.cons_append, lineStart?, if_pos rfl, ih hfront, byteLength, Nat.add_assoc]
    · -- The line feed at the end is still to come.
      have hfeed : '\n' ∈ front := by
        rcases hfront with rfl | hlast
        · exact absurd (hempty rfl) hc
        · exact List.mem_of_getLast? hlast
      obtain ⟨n, hn⟩ := Nat.exists_eq_add_one.mpr (List.count_pos_iff.mpr hfeed)
      rw [List.count_cons_of_ne hc, hn, List.cons_append, lineStart?, if_neg hc, ← hn, ih hfront, byteLength,
        Nat.add_assoc]

theorem exists_of_splitOn {content : List Char} (h : (splitOn '\n' cs)[n]? = some content) :
    ∃ front after, cs = front ++ (content ++ after) ∧ IsLead '\n' front ∧ front.count '\n' = n := by
  induction cs generalizing n content with
  | nil =>
    cases n with
    | zero =>
      cases h
      exact ⟨[], [], rfl, .inl rfl, rfl⟩
    | succ n => cases h
  | cons c cs ih =>
    by_cases hc : c = '\n'
    · subst hc
      rw [splitOn_cons_self] at h
      cases n with
      | zero =>
        cases h
        exact ⟨[], '\n' :: cs, rfl, .inl rfl, rfl⟩
      | succ n =>
        obtain ⟨front, after, hcs, hfront, hcount⟩ := ih h
        refine ⟨'\n' :: front, after, by rw [hcs, List.cons_append], isLead_cons.mpr ⟨hfront, fun _ => rfl⟩, ?_⟩
        rw [List.count_cons_self, hcount]
    · obtain ⟨piece, rest, hpieces⟩ := List.exists_cons_of_ne_nil (splitOn_ne_nil '\n' cs)
      rw [splitOn_cons hc hpieces] at h
      rw [hpieces] at ih
      cases n with
      | zero =>
        cases h
        obtain ⟨front, after, hcs, hfront, hcount⟩ := ih (n := 0) rfl
        have hempty : front = [] := by
          rcases hfront with hempty | hlast
          · exact hempty
          · exact absurd (List.mem_of_getLast? hlast) (List.count_eq_zero.mp hcount)
        refine ⟨[], after, ?_, .inl rfl, rfl⟩
        rw [hcs, hempty]
        rfl
      | succ n =>
        obtain ⟨front, after, hcs, hfront, hcount⟩ := ih (n := n + 1) h
        refine ⟨c :: front, after, by rw [hcs, List.cons_append], isLead_cons.mpr ⟨hfront, ?_⟩, ?_⟩
        · rintro rfl
          cases hcount
        · rw [List.count_cons_of_ne hc, hcount]

-- ---------------------------------------------------------------------------
-- Places
-- ---------------------------------------------------------------------------

theorem position_append (h : IsLead '\n' front) (hpiece : '\n' ∉ piece) (after : List Char) :
    position (front ++ piece ++ after) (byteLength (front ++ piece)) = ⟨front.count '\n', piece.length⟩ := by
  rw [position, positionFrom_append, foldl_step, lastPiece_append_of_isLead h hpiece, List.count_append,
    List.count_eq_zero.mpr hpiece, Nat.add_zero]

theorem offset_append (h : IsLead '\n' front) (piece after : List Char) :
    Text.offset (front ++ piece ++ after) ⟨front.count '\n', piece.length⟩ = byteLength (front ++ piece) := by
  rw [Text.offset, List.append_assoc, lineStart?_append h]
  simp only [Nat.zero_add, List.take_left, byteLength_append]

theorem IsCut.length_filter (h : IsCut cs (front ++ piece) after offset) :
    ((charOffsets cs 0).filter fun o => byteLength front ≤ o ∧ o < offset).length = piece.length := by
  have hfront : (charOffsets front 0).filter (fun o => byteLength front ≤ o ∧ o < offset) = [] := by
    rw [List.filter_eq_nil_iff]
    intro o ho
    have hbounds := mem_charOffsets ho
    rw [decide_eq_true_iff]
    omega
  have hpiece : (charOffsets piece (byteLength front)).filter (fun o => byteLength front ≤ o ∧ o < offset) =
      charOffsets piece (byteLength front) := by
    rw [List.filter_eq_self]
    intro o ho
    refine decide_eq_true ⟨(mem_charOffsets ho).1, h.lt o ?_⟩
    rw [charOffsets_append, Nat.zero_add]
    exact List.mem_append_right _ ho
  have hafter : (charOffsets after (byteLength (front ++ piece))).filter
      (fun o => byteLength front ≤ o ∧ o < offset) = [] := by
    rw [List.filter_eq_nil_iff]
    intro o ho
    have hbounds := mem_charOffsets ho
    have hle := h.le
    rw [decide_eq_true_iff]
    omega
  rw [h.text_eq, charOffsets_append, charOffsets_append, Nat.zero_add, Nat.zero_add, List.filter_append,
    List.filter_append, hfront, hpiece, hafter, List.nil_append, List.append_nil, length_charOffsets]

theorem IsCut.front_le (h : IsCut cs (front ++ piece) after offset) (hfront : IsLead '\n' front) :
    byteLength front ≤ offset := by
  rcases hfront with rfl | hlast
  · exact Nat.zero_le _
  · obtain ⟨first, rfl⟩ := List.getLast?_eq_some_iff.mp hlast
    have hfeed := h.lt (byteLength first) (by simp [charOffsets_append, charOffsets])
    rw [byteLength_append]
    exact hfeed

theorem beginsLine_of_isLead {text : String} (h : IsLead '\n' front) (htext : text.toList = front ++ after) :
    BeginsLine text (front.count '\n') (byteLength front) where
  count := by
    rw [bytes_eq, count_take_encode, htext, takeBytes_eq (by rw [byteLength_append]; omega)]
  behind := by
    rcases h with rfl | hlast
    · exact .inl rfl
    · obtain ⟨first, rfl⟩ := List.getLast?_eq_some_iff.mp hlast
      have hfeed : encode (first ++ ['\n'] ++ after) = encode first ++ '\n'.toUInt8 :: encode after := by
        rw [List.append_assoc, List.singleton_append, encode_append, encode_cons_of_one rfl]
      have hlength : byteLength (first ++ ['\n']) - 1 = (encode first).length := by
        rw [byteLength_append, length_encode]
        exact Nat.add_sub_cancel _ 1
      rw [bytes_eq, htext, hfeed, hlength, List.getElem?_append_right (Nat.le_refl _), Nat.sub_self]
      exact .inr rfl

/-- The place of a cut is the first at its offset or behind. -/
theorem IsCut.isLeast {text : String} (h : IsCut text.toList before after offset) :
    IsLeast {b | IsBoundary text b ∧ offset ≤ b} (byteLength before) := by
  refine ⟨⟨⟨before, after, h.text_eq, rfl⟩, h.le⟩, ?_⟩
  rintro b ⟨⟨first, last, htext, rfl⟩, hle⟩
  rw [h.text_eq] at htext
  rcases List.append_eq_append_iff.mp htext with ⟨more, rfl, -⟩ | ⟨more, rfl, -⟩
  · rw [byteLength_append]
    exact Nat.le_add_right _ _
  · cases more with
    | nil => exact Nat.le_of_eq (by rw [List.append_nil])
    | cons c more =>
      have hstart := h.lt (byteLength first) (by simp [charOffsets_append, charOffsets])
      omega

end TsBuild.Text

namespace TsBuild.SourceFile

open TsBuild.Text (IsBoundary BeginsLine LineIndex bytes charOffsets)

variable {file : SourceFile} {p : Nat}

theorem length_bytes (text : String) : (bytes text).length = Text.byteLength text.toList := by
  rw [Text.bytes_eq, Text.length_encode]

/-- What is before an offset: the lines before its own, and the part of that line. -/
theorem exists_cut (file : SourceFile) (p : Nat) :
    ∃ front piece after, Text.IsCut file.text.toList (front ++ piece) after (min p (bytes file.text).length) ∧
      Text.IsLead '\n' front ∧ file.position p = ⟨front.count '\n', piece.length⟩ := by
  have hcut := Text.isCut_takeBytes p file.text.toList
  have hposition := Text.position_eq_takeBytes file.text.toList p
  obtain ⟨front, hbefore, hfront, hpiece⟩ := Text.exists_lastPiece '\n' (Text.takeBytes p file.text.toList)
  generalize Text.lastPiece '\n' (Text.takeBytes p file.text.toList) = piece at hbefore hpiece hposition
  rw [hbefore, ← length_bytes] at hcut
  rw [hbefore, List.count_append, List.count_eq_zero.mpr hpiece, Nat.add_zero] at hposition
  exact ⟨front, piece, _, hcut, hfront, hposition⟩

theorem position_mono {p' : Nat} (h : p ≤ p') :
    (file.position p).line < (file.position p').line ∨
      (file.position p).line = (file.position p').line ∧
        (file.position p).character ≤ (file.position p').character := by
  obtain ⟨more, hmore⟩ := Text.takeBytes_prefix_of_le h file.text.toList
  rw [position, position, Text.position_eq_takeBytes, Text.position_eq_takeBytes, ← hmore]
  simp only [List.count_append]
  by_cases hfeed : '\n' ∈ more
  · have hpos := List.count_pos_iff.mpr hfeed
    exact .inl (by omega)
  · rw [List.count_eq_zero.mpr hfeed, Text.lastPiece_append hfeed, List.length_append]
    exact .inr ⟨rfl, Nat.le_add_right _ _⟩

theorem offset_position_isLeast (file : SourceFile) (p : Nat) :
    IsLeast {b | IsBoundary file.text b ∧ min p (bytes file.text).length ≤ b} (file.offset (file.position p)) := by
  obtain ⟨front, piece, after, hcut, hfront, hposition⟩ := exists_cut file p
  have hoffset : file.offset (file.position p) = Text.byteLength (front ++ piece) := by
    rw [hposition, offset, hcut.text_eq, Text.offset_append hfront]
  rw [hoffset]
  exact hcut.isLeast

theorem position_offset {content : List Char} {line character : Nat}
    (h : (Text.splitOn '\n' file.text.toList)[line]? = some content) (hcharacter : character ≤ content.length) :
    file.position (file.offset ⟨line, character⟩) = ⟨line, character⟩ := by
  obtain ⟨front, after, htext, hfront, rfl⟩ := Text.exists_of_splitOn h
  have hnone : '\n' ∉ content.take character := fun hmem =>
    Text.notMem_of_mem_splitOn (List.mem_of_getElem? h) (List.mem_of_mem_take hmem)
  have hsplit : file.text.toList = front ++ content.take character ++ (content.drop character ++ after) := by
    rw [htext, List.append_assoc, ← List.append_assoc (content.take character), List.take_append_drop]
  have hlength : (content.take character).length = character := by
    rw [List.length_take]
    omega
  have hoffset := Text.offset_append hfront (content.take character) (content.drop character ++ after)
  have hposition := Text.position_append hfront hnone (content.drop character ++ after)
  rw [hlength] at hoffset hposition
  rw [position, offset, hsplit, hoffset, hposition]

/-- Every offset has a position, which an index finds as well: as many lines down as there are line feeds among the
bytes before it, and as many characters in as begin between the beginning of that line and the offset. Later
offsets have no earlier positions. The offset of the position is the first place between two characters that is
not before the offset, so it is the offset if that is such a place; and each place in a line, its end included,
is the position of its offset. -/
theorem position_roundTrip (file : SourceFile) :
    (∀ p, let at' := file.position p; let q := min p (bytes file.text).length
      (LineIndex.of file.text).position? p = some at' ∧
      at'.line = ((bytes file.text).take q).count '\n'.toUInt8 ∧
      (∃ start, BeginsLine file.text at'.line start ∧ start ≤ q ∧
        at'.character = ((charOffsets file.text.toList 0).filter fun o => start ≤ o ∧ o < q).length) ∧
      IsLeast {b | IsBoundary file.text b ∧ q ≤ b} (file.offset at')) ∧
    (∀ p p', p ≤ p' → (file.position p).line < (file.position p').line ∨
      (file.position p).line = (file.position p').line ∧
        (file.position p).character ≤ (file.position p').character) ∧
    (∀ p, IsBoundary file.text p → file.offset (file.position p) = p) ∧
    (∀ at', (LineIndex.of file.text).offset? at' = some (file.offset at')) ∧
    ∀ (line character : Nat) (content : List Char),
      (Text.splitOn '\n' file.text.toList)[line]? = some content → character ≤ content.length →
        file.position (file.offset ⟨line, character⟩) = ⟨line, character⟩ := by
  refine ⟨fun p => ?_, fun p p' => position_mono, fun p hp => ?_, Text.offset?_of file.text,
    fun line character content => position_offset⟩
  · obtain ⟨front, piece, after, hcut, hfront, hposition⟩ := exists_cut file p
    have hline : (file.position p).line = ((bytes file.text).take p).count '\n'.toUInt8 := by
      rw [position, Text.position_eq_takeBytes, Text.bytes_eq, Text.count_take_encode]
    refine ⟨Text.position?_of file.text p, ?_, ⟨Text.byteLength front, ?_, hcut.front_le hfront, ?_⟩,
      offset_position_isLeast file p⟩
    · rw [hline, List.take_eq_take_min]
    · rw [hposition]
      exact Text.beginsLine_of_isLead hfront (by rw [hcut.text_eq, List.append_assoc])
    · rw [hposition, hcut.length_filter]
  · obtain ⟨⟨-, hle⟩, hleast⟩ := offset_position_isLeast file p
    have hshort : p ≤ (bytes file.text).length := by
      obtain ⟨before, after, htext, rfl⟩ := hp
      rw [length_bytes, htext, Text.byteLength_append]
      exact Nat.le_add_right _ _
    rw [Nat.min_eq_left hshort] at hle hleast
    exact Nat.le_antisymm (hleast ⟨hp, Nat.le_refl p⟩) hle

def accented : SourceFile := ⟨"a.ts", "a\né = 1;\r\n\n"⟩

/-- Inside of the character one is behind it, and the end of the second line is where its line feed is. -/
theorem position_roundTrip_accented :
    accented.position 3 = ⟨1, 1⟩ ∧ accented.offset ⟨1, 1⟩ = 4 ∧ IsBoundary accented.text 4 ∧
      accented.offset (accented.position 4) = 4 ∧
      (Text.splitOn '\n' accented.text.toList)[1]? = some "é = 1;\r".toList ∧
      accented.position (accented.offset ⟨1, 7⟩) = ⟨1, 7⟩ ∧ accented.offset ⟨1, 7⟩ = 10 := by
  obtain ⟨-, -, hboundary, -, hplace⟩ := position_roundTrip accented
  have hfour : IsBoundary accented.text 4 := ⟨"a\né".toList, " = 1;\r\n\n".toList, by decide, by decide⟩
  have hline : (Text.splitOn '\n' accented.text.toList)[1]? = some "é = 1;\r".toList := by decide
  exact ⟨by decide, by decide, hfour, hboundary 4 hfour, hline, hplace 1 7 _ hline (by decide), by decide⟩

end TsBuild.SourceFile
