import TsBuild.Diagnostic.Report
import TsBuild.Proofs.Text.Position

/-!
# Where the caret of a code frame stands

The frame of an error splits the text into lines by itself, after the place was counted by another pass over the
text. Both come to the same line (`Text.splitOn_place`), which the frame shows under its number with a caret
right below (`shows_codeFrame`). The caret stands below the character that the error is about, unless that is
part of the end of its line (`frame_marks`).
-/

namespace TsBuild.Diagnostic

variable {p : Char → Bool} {cs text : List Char} {line : Nat}

-- ---------------------------------------------------------------------------
-- Ends that are dropped
-- ---------------------------------------------------------------------------

theorem prefix_trimEnd (p : Char → Bool) (cs : List Char) : Text.trimEnd p cs <+: cs := by
  rw [← List.reverse_suffix, Text.trimEnd, List.reverse_reverse]
  exact List.dropWhile_suffix p

theorem dropWhile_ne_nil {α : Type} {p : α → Bool} {xs : List α} (h : ∃ x ∈ xs, p x = false) :
    xs.dropWhile p ≠ [] := by
  intro hnil
  have hany := List.any_dropWhile (p := p) (l := xs)
  obtain ⟨x, hx, hp⟩ := h
  rw [hnil, List.any_nil, eq_comm, Bool.not_eq_false', List.all_eq_true] at hany
  exact Bool.noConfusion (hp.symm.trans (hany x hx))

theorem trimEnd_append (h : ∃ c ∈ cs, p c = false) (before : List Char) :
    Text.trimEnd p (before ++ cs) = before ++ Text.trimEnd p cs := by
  have hne : cs.reverse.dropWhile p ≠ [] := dropWhile_ne_nil (by simpa using h)
  simp [Text.trimEnd, List.dropWhile_append, hne]

theorem trimEnd_cons {c : Char} (h : ∃ other ∈ c :: cs, p other = false) :
    ∃ rest, Text.trimEnd p (c :: cs) = c :: rest := by
  have hne : Text.trimEnd p (c :: cs) ≠ [] := by
    rw [Text.trimEnd, ne_eq, List.reverse_eq_nil_iff]
    refine dropWhile_ne_nil ?_
    simpa only [List.mem_reverse] using h
  obtain ⟨first, rest, hkept⟩ := List.exists_cons_of_ne_nil hne
  obtain ⟨dropped, hwhole⟩ := prefix_trimEnd p (c :: cs)
  rw [hkept, List.cons_append, List.cons.injEq] at hwhole
  exact ⟨rest, by rw [hkept, hwhole.1]⟩

theorem dropBlankEnd_append {lines : List (List Char)} (h : lines.length = least) (more : List (List Char)) :
    ∃ kept, dropBlankEnd least (lines ++ more) = lines ++ kept := by
  subst h
  exact ⟨_, by rw [dropBlankEnd, List.take_left, List.drop_left]⟩

theorem prefix_dropBlankEnd (least : Nat) (lines : List (List Char)) : dropBlankEnd least lines <+: lines := by
  have hkept : ((lines.drop least).reverse.dropWhile fun line => (Text.trim line).isEmpty).reverse <+:
      lines.drop least := by
    rw [← List.reverse_suffix, List.reverse_reverse]
    exact List.dropWhile_suffix _
  have hwhole := (List.prefix_append_right_inj (lines.take least)).mpr hkept
  rwa [List.take_append_drop] at hwhole

-- ---------------------------------------------------------------------------
-- Rows
-- ---------------------------------------------------------------------------

theorem expandTabs_append (first last : List Char) :
    expandTabs (first ++ last) = expandTabs first ++ expandTabs last := List.flatMap_append

theorem newline_notMem_expandTabs (h : '\n' ∉ cs) : '\n' ∉ expandTabs cs := by
  simp only [expandTabs, List.mem_flatMap, not_exists, not_and]
  intro c hc
  split
  · decide
  · rintro hnewline
    rw [List.mem_singleton] at hnewline
    subst hnewline
    exact h hc

theorem newline_notMem_toString (n : Nat) : '\n' ∉ (toString n).toList := by
  intro h
  rw [Nat.toString_eq_ofList_toDigits, String.toList_ofList] at h
  exact absurd (Nat.isDigit_of_mem_toDigits (by decide) (by decide) h) (by decide)

theorem length_toString_le {m n : Nat} (h : m ≤ n) : (toString m).length ≤ (toString n).length := by
  change m.repr.length ≤ n.repr.length
  have hpos : 0 < n.repr.length := Nat.length_repr_pos
  rw [Nat.length_repr_le_iff hpos]
  exact Nat.lt_of_le_of_lt h ((Nat.length_repr_le_iff hpos).mp (Nat.le_refl _))

def rowsOf (first width line column : Nat) : List Char × Nat → List (List Char)
  | (text, i) =>
    let shown := Text.padLeft width (toString (first + i + 1)).toList ++ [':', ' '] ++ expandTabs text
    if first + i + 1 = line then
      [shown, List.replicate (width + 2 + (expandTabs (text.take column)).length) ' ' ++ ['^']]
    else [shown]

theorem newline_notMem_rowsOf {first width column i : Nat} {row : List Char} (htext : '\n' ∉ text)
    (h : row ∈ rowsOf first width line column (text, i)) : '\n' ∉ row := by
  have hshown : '\n' ∉ Text.padLeft width (toString (first + i + 1)).toList ++ [':', ' '] ++ expandTabs text := by
    have hnumber := newline_notMem_toString (first + i + 1)
    have htabs := newline_notMem_expandTabs htext
    simp only [Text.padLeft, List.mem_append, List.mem_replicate, List.mem_cons, not_or]
    exact ⟨⟨⟨fun h => absurd h.2 (by decide), hnumber⟩, by decide⟩, htabs⟩
  rw [rowsOf] at h
  split at h
  · simp only [List.mem_cons, List.not_mem_nil, or_false] at h
    rcases h with rfl | rfl
    · exact hshown
    · simp
  · rw [List.mem_singleton.mp h]
    exact hshown

theorem rowsOf_ne_nil (first width line column : Nat) (numbered : List Char × Nat) :
    rowsOf first width line column numbered ≠ [] := by
  rw [rowsOf]
  split <;> exact List.cons_ne_nil _ _

theorem splitOn_codeFrame {source : String} {window : List (List Char)} (column : Nat) (hne : window ≠ [])
    (hwindow : dropBlankEnd (line - (line - 3))
      ((((Text.splitOn '\n' source.toList).map (Text.trimEnd (· = '\r'))).take (line + 2)).drop (line - 3)) =
        window) :
    Text.splitOn '\n' (codeFrame source line column).toList = window.zipIdx.flatMap
      (rowsOf (line - 3) (toString (line - 3 + window.length)).length line column) := by
  have hframe : (codeFrame source line column).toList = Text.joinWith ['\n'] (window.zipIdx.flatMap
      (rowsOf (line - 3) (toString (line - 3 + window.length)).length line column)) := by
    rw [codeFrame, String.toList_ofList, ← hwindow]
    rfl
  rw [hframe]
  refine Text.splitOn_joinWith ?_ ?_
  · obtain ⟨text, rest, rfl⟩ := List.exists_cons_of_ne_nil hne
    rw [List.zipIdx_cons, List.flatMap_cons]
    exact List.append_ne_nil_of_left_ne_nil (rowsOf_ne_nil _ _ _ _ _) _
  · intro row hrow
    obtain ⟨⟨text, i⟩, htext, hrow⟩ := List.mem_flatMap.mp hrow
    refine newline_notMem_rowsOf (fun hbroken => ?_) hrow
    have hmem := List.fst_mem_of_mem_zipIdx htext
    rw [← hwindow] at hmem
    obtain ⟨piece, hpiece, rfl⟩ :=
      List.mem_map.mp (List.mem_of_mem_take (List.mem_of_mem_drop ((prefix_dropBlankEnd _ _).subset hmem)))
    exact Text.notMem_of_mem_splitOn hpiece ((prefix_trimEnd _ _).subset hbroken)

-- ---------------------------------------------------------------------------
-- The error line
-- ---------------------------------------------------------------------------

/-- The frame shows a line under its number, with a caret in the row right below and only spaces before it. -/
structure Shows (frame : String) (number : Nat) (label shown : List Char) (indent : Nat) : Prop where
  numbered : ∃ padding, label = List.replicate padding ' ' ++ (toString number).toList ++ [':', ' ']
  rows : ∃ above below, Text.splitOn '\n' frame.toList =
    above ++ (label ++ shown) :: (List.replicate indent ' ' ++ ['^']) :: below

theorem Shows.ne_empty {frame : String} {label shown : List Char} {number indent : Nat}
    (h : Shows frame number label shown indent) : frame ≠ "" := by
  rintro rfl
  obtain ⟨above, below, hrows⟩ := h.rows
  have hlength := congrArg List.length hrows
  simp only [String.toList_empty, Text.splitOn, List.length_append, List.length_cons, List.length_nil] at hlength
  omega

/-- A frame has up to two lines before the error line, and the end of it drops none of them. -/
theorem exists_window {above : List (List Char)} (hline : above.length + 1 = line) (text : List Char)
    (below : List (List Char)) :
    ∃ before kept, line - 3 + before.length + 1 = line ∧
      dropBlankEnd (line - (line - 3)) (((above ++ text :: below).take (line + 2)).drop (line - 3)) =
        before ++ text :: kept := by
  have hwindow : ((above ++ text :: below).take (line + 2)).drop (line - 3) =
      (above.drop (line - 3) ++ [text]) ++ below.take 2 := by
    rw [List.take_append, List.take_of_length_le (by omega), show line + 2 - above.length = 2 + 1 by omega,
      List.take_succ_cons, List.drop_append_of_le_length (by omega), List.append_assoc, List.singleton_append]
  have hleast : (above.drop (line - 3) ++ [text]).length = line - (line - 3) := by
    simp only [List.length_append, List.length_drop, List.length_singleton]
    omega
  obtain ⟨kept, hkept⟩ := dropBlankEnd_append hleast (below.take 2)
  refine ⟨above.drop (line - 3), kept, ?_, ?_⟩
  · rw [List.length_drop]
    omega
  · rw [hwindow, hkept, List.append_assoc, List.singleton_append]

theorem shows_codeFrame {source : String} {above below : List (List Char)}
    (hsplit : Text.splitOn '\n' source.toList = above ++ text :: below) (hline : above.length + 1 = line)
    (column : Nat) :
    ∃ label, Shows (codeFrame source line column) line label (expandTabs (Text.trimEnd (· = '\r') text))
      (label.length + (expandTabs ((Text.trimEnd (· = '\r') text).take column)).length) := by
  have hlength : (above.map (Text.trimEnd (· = '\r'))).length + 1 = line := by rw [List.length_map, hline]
  obtain ⟨before, kept, hnumber, hwindow⟩ :=
    exists_window hlength (Text.trimEnd (· = '\r') text) (below.map (Text.trimEnd (· = '\r')))
  rw [← List.map_cons, ← List.map_append, ← hsplit] at hwindow
  have hrows := splitOn_codeFrame column (by simp) hwindow
  generalize Text.trimEnd (· = '\r') text = shown at hrows ⊢
  generalize hwidth : (toString (line - 3 + (before ++ shown :: kept).length)).length = width at hrows
  -- The last number of the frame is the widest, so the caret is as far in as the number column says.
  have hwide : (toString line).toList.length ≤ width := by
    rw [← hwidth, String.length_toList]
    refine length_toString_le ?_
    rw [List.length_append, List.length_cons]
    omega
  refine ⟨Text.padLeft width (toString line).toList ++ [':', ' '], ⟨_, rfl⟩, ?_⟩
  have herror : rowsOf (line - 3) width line column (shown, before.length) =
      [Text.padLeft width (toString line).toList ++ [':', ' '] ++ expandTabs shown,
       List.replicate ((Text.padLeft width (toString line).toList ++ [':', ' ']).length +
         (expandTabs (shown.take column)).length) ' ' ++ ['^']] := by
    have hlabel : (Text.padLeft width (toString line).toList ++ [':', ' ']).length = width + 2 := by
      simp only [Text.padLeft, List.length_append, List.length_replicate, List.length_cons, List.length_nil]
      omega
    simp only [rowsOf, hnumber, ↓reduceIte, hlabel]
  rw [hrows, List.zipIdx_append, List.zipIdx_cons, List.flatMap_append, List.flatMap_cons, Nat.zero_add, herror]
  exact ⟨_, _, rfl⟩

theorem position_eq {file : SourceFile} {start : Nat} {before after : List Char}
    (htext : file.text.toList = before ++ after)
    (hplace : Text.byteLength before = min start (Text.byteLength file.text.toList)) :
    file.position start = ⟨before.count '\n', (Text.lastPiece '\n' before).length⟩ := by
  rw [htext] at hplace
  rw [SourceFile.position, Text.position, Text.positionFrom_eq, htext, Text.takeBytes_eq hplace, Text.foldl_step]

/-- An error in a file at a place between two characters, or at the end for an offset past it, shows the line
that the place is in, and its caret stands below the place unless that is in the end of the line. -/
theorem frame_marks {diagnostic : Diagnostic} {file : SourceFile} {start : Nat} {before after : List Char}
    (hfile : diagnostic.file = some file) (hstart : diagnostic.start = some start)
    (htext : file.text.toList = before ++ after)
    (hplace : Text.byteLength before = min start (Text.byteLength file.text.toList)) :
    ∃ loc frame line shown label indent,
      (StandaloneError.ofDiagnostic diagnostic).loc = some loc ∧
      (StandaloneError.ofDiagnostic diagnostic).frame = some frame ∧ frame ≠ "" ∧
      loc.file = file.name ∧ loc.line = before.count '\n' + 1 ∧
      line = Text.lastPiece '\n' before ++ after.takeWhile (· ≠ '\n') ∧
      (∃ above below, Text.splitOn '\n' file.text.toList = above ++ line :: below ∧
        above.length + 1 = loc.line) ∧
      shown = expandTabs (Text.trimEnd (· = '\r') line) ∧ Shows frame loc.line label shown indent ∧
      ((∃ other ∈ after.takeWhile (· ≠ '\n'), other ≠ '\r') → ∃ c rest last, after = c :: rest ∧
        shown = expandTabs (Text.lastPiece '\n' before) ++ expandTabs [c] ++ last ∧
        indent = (label ++ expandTabs (Text.lastPiece '\n' before)).length) := by
  have hposition := position_eq htext hplace
  have hloc : diagnostic.location? =
      some ⟨file.name, before.count '\n' + 1, (Text.lastPiece '\n' before).length⟩ := by
    simp only [Diagnostic.location?, hfile, hstart, Option.bind_eq_bind, Option.bind_some, Option.pure_def,
      hposition]
  obtain ⟨above, below, habove, hsplit⟩ := Text.splitOn_place '\n' before after
  rw [← htext] at hsplit
  obtain ⟨label, hshows⟩ := shows_codeFrame hsplit (congrArg (· + 1) habove) (Text.lastPiece '\n' before).length
  refine ⟨_, _, _, _, label, _, hloc, ?_, hshows.ne_empty, rfl, rfl, rfl, ⟨above, below, hsplit, ?_⟩, rfl,
    hshows, ?_⟩
  · simp only [StandaloneError.ofDiagnostic, hfile, hloc, Option.bind_eq_bind, Option.bind_some, Option.pure_def]
  · exact congrArg (· + 1) habove
  · intro hkept
    obtain ⟨other, hother, hne⟩ := hkept
    cases after with
    | nil => cases hother
    | cons c rest =>
      by_cases hc : c = '\n'
      · simp [hc] at hother
      · have hline : (c :: rest).takeWhile (· ≠ '\n') = c :: rest.takeWhile (· ≠ '\n') := by simp [hc]
        rw [hline] at hother ⊢
        have hkept : ∃ other ∈ c :: rest.takeWhile (· ≠ '\n'), decide (other = '\r') = false :=
          ⟨other, hother, decide_eq_false hne⟩
        obtain ⟨last, hlast⟩ := trimEnd_cons hkept
        refine ⟨c, rest, expandTabs last, rfl, ?_, ?_⟩
        · rw [trimEnd_append hkept, hlast, List.append_cons, expandTabs_append, expandTabs_append]
        · rw [trimEnd_append hkept, List.take_left, List.length_append]

def behindTab : Diagnostic :=
  (Diagnostic.error 2304 "Cannot find name").pointingAt ⟨"a.ts", "a\né\tx = 1\r\ny\n"⟩ 5 1

/-- The caret is three characters in although the place is two characters and three bytes into its line. -/
theorem frame_marks_behindTab :
    ∃ frame label, (StandaloneError.ofDiagnostic behindTab).frame = some frame ∧
      Shows frame 2 label "é  x = 1".toList (label.length + 3) := by
  have hfile : behindTab.file = some ⟨"a.ts", "a\né\tx = 1\r\ny\n"⟩ := rfl
  have htext : ("a\né\tx = 1\r\ny\n" : String).toList = "a\né\t".toList ++ "x = 1\r\ny\n".toList := by decide
  obtain ⟨loc, frame, line, shown, label, indent, -, hframe, -, -, hnumber, rfl, -, rfl, hshows, hcaret⟩ :=
    frame_marks hfile rfl htext (by decide)
  obtain ⟨_, _, _, -, -, rfl⟩ := hcaret ⟨'x', by decide, by decide⟩
  rw [hnumber, List.length_append] at hshows
  exact ⟨frame, label, hframe, hshows⟩

end TsBuild.Diagnostic
