import Mathlib.Data.List.DropRight
import Mathlib.Order.Bounds.Defs
import TsBuild.Proofs.Diagnostic.Frame

/-!
# The rows of a code frame

A frame shows lines one after the other, from two above the error line to the last of the two below it that is not
blank (`isGreatest_frameWindow`). Each stands behind its number in a column as wide as the last number, and the
caret has the one row more, right below the error line (`codeFrame_layout`).
-/

namespace TsBuild.Diagnostic

def lineText (source : String) (number : Nat) : List Char :=
  ((Text.splitOn '\n' source.toList).getD (number - 1) []).rdropWhile (· = '\r')

def label (width number : Nat) : List Char :=
  List.replicate (width - (toString number).toList.length) ' ' ++ (toString number).toList ++ [':', ' ']

def lineRows (source : String) (line column width number : Nat) : List (List Char) :=
  let text := lineText source number
  let shown := label width number ++ expandTabs text
  if number = line then
    [shown, List.replicate (width + 2 + (expandTabs (text.take (min column text.length))).length) ' ' ++ ['^']]
  else [shown]

/-- The lines that a frame could end with: the error line, and each of the next two that is not blank. -/
def frameEnds (source : String) (line : Nat) : Set Nat :=
  {number | number = line ∨ line < number ∧ number ≤ min (line + 2) (Text.splitOn '\n' source.toList).length ∧
    ∃ c ∈ lineText source number, Text.isBlank c = false}

/-- What a frame chooses from: the lines without the carriage returns at their ends. -/
def frameLines (source : String) : List (List Char) :=
  (Text.splitOn '\n' source.toList).map (Text.trimEnd (· = '\r'))

def frameWindow (source : String) (line : Nat) : List (List Char) :=
  dropBlankEnd (line - (line - 3)) (((frameLines source).take (line + 2)).drop (line - 3))

def isBlankLine (text : List Char) : Bool := (Text.trim text).isEmpty

def linesBelow (source : String) (line : Nat) : List (List Char) := ((frameLines source).take (line + 2)).drop line

def keptBelow (source : String) (line : Nat) : List (List Char) :=
  (linesBelow source line).rdropWhile isBlankLine

variable {source : String} {text : List Char} {line width number i : Nat}

-- ---------------------------------------------------------------------------
-- Lines
-- ---------------------------------------------------------------------------

theorem length_label (h : (toString number).length ≤ width) : (label width number).length = width + 2 := by
  simp only [label, List.length_append, List.length_replicate, String.length_toList, List.length_cons, List.length_nil]
  omega

theorem isBlankLine_iff : isBlankLine text = true ↔ ∀ c ∈ text, Text.isBlank c = true := by
  rw [isBlankLine, List.isEmpty_iff, Text.trim]
  change (text.dropWhile Text.isBlank).rdropWhile Text.isBlank = [] ↔ _
  rw [List.rdropWhile_eq_nil_iff]
  constructor
  · intro h
    have hnil : text.dropWhile Text.isBlank = [] := by
      cases hdrop : text.dropWhile Text.isBlank with
      | nil => rfl
      | cons c rest =>
        have hhead := List.head?_dropWhile_not Text.isBlank text
        rw [hdrop] at hhead h
        simp [h c List.mem_cons_self] at hhead
    simpa using List.dropWhile_eq_nil_iff.mp hnil
  · exact fun h c hc => h c ((List.dropWhile_sublist _).subset hc)

theorem not_isBlankLine_iff : ¬ isBlankLine text = true ↔ ∃ c ∈ text, Text.isBlank c = false := by
  rw [isBlankLine_iff]
  simp

theorem length_frameLines (source : String) :
    (frameLines source).length = (Text.splitOn '\n' source.toList).length := List.length_map _

theorem lineText_eq (h : (frameLines source)[i]? = some text) : lineText source (i + 1) = text := by
  rw [frameLines, List.getElem?_map, Option.map_eq_some_iff] at h
  obtain ⟨piece, hpiece, rfl⟩ := h
  rw [lineText, Nat.add_sub_cancel, List.getD_eq_getElem?_getD, hpiece]
  rfl

theorem prefix_getElem? {α : Type} {xs ys : List α} {x : α} (hfront : xs <+: ys) (h : xs[i]? = some x) :
    ys[i]? = some x := by
  obtain ⟨hi, rfl⟩ := List.getElem?_eq_some_iff.mp h
  exact List.prefix_iff_getElem?.mp hfront i hi

theorem lineText_below (h : (linesBelow source line)[i]? = some text) : lineText source (line + i + 1) = text := by
  rw [linesBelow, List.getElem?_drop] at h
  exact lineText_eq (prefix_getElem? (List.take_prefix _ _) h)

theorem length_linesBelow (source : String) (line : Nat) :
    (linesBelow source line).length = min (line + 2) (Text.splitOn '\n' source.toList).length - line := by
  rw [linesBelow, List.length_drop, List.length_take, length_frameLines]

-- ---------------------------------------------------------------------------
-- The window
-- ---------------------------------------------------------------------------

theorem frameWindow_eq (source : String) (line : Nat) :
    frameWindow source line = ((frameLines source).take line).drop (line - 3) ++ keptBelow source line := by
  have hfirst : line - 3 + (line - (line - 3)) = line := by omega
  have habove : (((frameLines source).take (line + 2)).drop (line - 3)).take (line - (line - 3)) =
      ((frameLines source).take line).drop (line - 3) := by
    rw [← List.drop_take, List.take_take, Nat.min_eq_left (by omega)]
  have hbelow : (((frameLines source).take (line + 2)).drop (line - 3)).drop (line - (line - 3)) =
      linesBelow source line := by
    rw [List.drop_drop, hfirst, linesBelow]
  rw [frameWindow, dropBlankEnd, habove, hbelow]
  rfl

theorem length_frameWindow (hcount : line ≤ (Text.splitOn '\n' source.toList).length) :
    line - 3 + (frameWindow source line).length = line + (keptBelow source line).length := by
  rw [← length_frameLines] at hcount
  rw [frameWindow_eq, List.length_append, List.length_drop, List.length_take, Nat.min_eq_left hcount]
  omega

theorem prefix_keptBelow (source : String) (line : Nat) : keptBelow source line <+: linesBelow source line :=
  List.rdropWhile_prefix _ _

theorem lineText_window (h : (frameWindow source line)[i]? = some text) :
    lineText source (line - 3 + i + 1) = text := by
  have hchosen := prefix_getElem? (prefix_dropBlankEnd _ _) h
  rw [List.getElem?_drop] at hchosen
  exact lineText_eq (prefix_getElem? (List.take_prefix _ _) hchosen)

/-- The last line in a frame is the last that it could end with. -/
theorem isGreatest_frameWindow (hcount : line ≤ (Text.splitOn '\n' source.toList).length) :
    IsGreatest (frameEnds source line) (line + (keptBelow source line).length) := by
  have hlength := length_linesBelow source line
  constructor
  · by_cases hkept : keptBelow source line = []
    · exact .inl (by rw [hkept, List.length_nil, Nat.add_zero])
    · have hpos := List.length_pos_iff.mpr hkept
      have hle := (prefix_keptBelow source line).length_le
      have hlast : (linesBelow source line)[(keptBelow source line).length - 1]? =
          some ((keptBelow source line).getLast hkept) := by
        refine prefix_getElem? (prefix_keptBelow source line) ?_
        rw [← List.getLast?_eq_getElem?, List.getLast?_eq_some_getLast hkept]
      have htext := lineText_below hlast
      rw [show line + ((keptBelow source line).length - 1) + 1 = line + (keptBelow source line).length by omega] at htext
      refine .inr ⟨by omega, by omega, ?_⟩
      rw [htext]
      exact not_isBlankLine_iff.mp (List.rdropWhile_last_not _ _ hkept)
  · rintro number (rfl | ⟨hbelow, hle, hshown⟩)
    · exact Nat.le_add_right _ _
    · by_contra hlate
      obtain ⟨i, rfl⟩ : ∃ i, number = line + i + 1 := ⟨number - line - 1, by omega⟩
      obtain ⟨text, htext⟩ : ∃ text, (linesBelow source line)[i]? = some text :=
        ⟨_, List.getElem?_eq_getElem (by omega)⟩
      rw [lineText_below htext] at hshown
      -- What stands after the kept lines was dropped from the end.
      have hdropped : text ∈ (linesBelow source line).rtakeWhile isBlankLine := by
        rw [← List.rdropWhile_append_rtakeWhile (p := isBlankLine) (l := linesBelow source line),
          List.getElem?_append_right (by change (keptBelow source line).length ≤ i; omega)] at htext
        exact List.mem_of_getElem? htext
      exact not_isBlankLine_iff.mpr hshown (List.mem_rtakeWhile_imp hdropped)

-- ---------------------------------------------------------------------------
-- Rows
-- ---------------------------------------------------------------------------

theorem rowsOf_lineText (source : String) (first line column width i : Nat) :
    rowsOf first width line column (lineText source (first + i + 1), i) =
      lineRows source line column width (first + i + 1) := by
  rw [lineRows, ← List.take_eq_take_min]
  rfl

theorem rows_window (source : String) (line column width : Nat) :
    (frameWindow source line).zipIdx.flatMap (rowsOf (line - 3) width line column) =
      (List.range' (line - 3 + 1) (frameWindow source line).length).flatMap
        (lineRows source line column width) := by
  have hrows : (frameWindow source line).zipIdx.map (rowsOf (line - 3) width line column) =
      (List.range' (line - 3 + 1) (frameWindow source line).length).map (lineRows source line column width) := by
    refine List.ext_getElem (by simp) fun i hi _ => ?_
    have hi : i < (frameWindow source line).length := by simpa using hi
    simp only [List.getElem_map, List.getElem_zipIdx, List.getElem_range', Nat.zero_add, Nat.one_mul]
    rw [← lineText_window (List.getElem?_eq_getElem hi), rowsOf_lineText, Nat.add_right_comm]
  rw [List.flatMap_def, hrows, ← List.flatMap_def]

/-- A frame has the lines from two above the error line to the last that it could end with, each behind its number
in a column as wide as the last number, and the caret right below the error line. -/
theorem codeFrame_layout (hline : 1 ≤ line) (hcount : line ≤ (Text.splitOn '\n' source.toList).length)
    (column : Nat) :
    ∃ last, IsGreatest (frameEnds source line) last ∧
      Text.splitOn '\n' (codeFrame source line column).toList =
        (List.range' (max 1 (line - 2)) (last + 1 - max 1 (line - 2))).flatMap
          (lineRows source line column (toString last).length) ∧
      ∀ number ≤ last, (label (toString last).length number).length = (toString last).length + 2 := by
  have hlast := length_frameWindow hcount
  have hne : frameWindow source line ≠ [] := List.length_pos_iff.mp (by omega)
  refine ⟨_, isGreatest_frameWindow hcount, ?_, fun number hnumber => length_label (length_toString_le hnumber)⟩
  rw [splitOn_codeFrame column hne rfl]
  rw [rows_window, hlast, show max 1 (line - 2) = line - 3 + 1 by omega, ← hlast, Nat.add_right_comm,
    Nat.add_sub_cancel_left]

def blankEnd : String := "1\n2\n3\n4\n5\n6\n7\n\teight\r\n\tnine = 9\n\tten\r\n \t\r\n"

/-- The frame ends with the tenth line, so its numbers take two columns. -/
theorem codeFrame_layout_blankEnd :
    Text.splitOn '\n' (codeFrame blankEnd 9 3).toList =
      [" 7: 7".toList, " 8:   eight".toList, " 9:   nine = 9".toList, "        ^".toList, "10:   ten".toList] := by
  have hcount : 9 ≤ (Text.splitOn '\n' blankEnd.toList).length := by decide +kernel
  have htenth : ¬ isBlankLine (lineText blankEnd 10) = true := by decide +kernel
  have heleventh : isBlankLine (lineText blankEnd 11) = true := by decide +kernel
  obtain ⟨last, ⟨hmem, hgreatest⟩, hrows, -⟩ := codeFrame_layout (by decide : 1 ≤ 9) hcount 3
  have hten : 10 ≤ last := hgreatest (.inr ⟨by decide, by decide +kernel, not_isBlankLine_iff.mp htenth⟩)
  have hlast : last = 10 := by
    rcases hmem with rfl | ⟨-, hle, hshown⟩
    · omega
    · rcases Nat.eq_or_lt_of_le hten with hten | hten
      · exact hten.symm
      · obtain rfl : last = 11 := by omega
        exact absurd heleventh (not_isBlankLine_iff.mpr hshown)
  rw [hrows, hlast]
  decide +kernel

end TsBuild.Diagnostic
