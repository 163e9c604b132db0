import TsBuild.Config.Text
import TsBuild.Proofs.Config.Blanks
import TsBuild.Proofs.Json.Reading

/-!
# Where a fault in a configuration is reported

The reader counts the columns of a fault in bytes, and the diagnostic is placed as if they were characters. So it
stands where the reader found the fault exactly if the characters before that place on its line take one byte each
(`syntaxError_isPlaced_iff`); otherwise it stands further on, maybe on a later line.
-/

namespace TsBuild.Config

variable {name text : String} {fault : Json.ReadError}

theorem exists_inLine_of_read (hread : Json.read (Comments.strip text) = .error fault) :
    ∃ rest start, Text.InLine text.toList (start + fault.column) (fault.line - 1) rest start ∧ 1 ≤ fault.line := by
  unfold Json.read at hread
  split at hread
  · cases hread
  · next found hfound =>
    have hoffset := Json.offset_le_of_fault hfound
    rw [Comments.byteLength_strip] at hoffset
    obtain ⟨n, rest, start, hplace, heq⟩ := Json.exists_inLine_of_lineColumn hoffset 1 0
    rw [← Comments.lineColumn_strip, ite_self, Nat.zero_add] at heq
    have hlocate : fault = ⟨found.cause, 1 + n, found.offset - start⟩ := by
      rw [← Except.error.inj hread, Json.Fault.locate, heq]
    have hstart := hplace.start_le
    subst hlocate
    refine ⟨rest, start, ?_, Nat.le_add_right 1 n⟩
    rwa [Nat.add_sub_cancel_left, Nat.add_sub_cancel' hstart]

theorem line_pointingAt (diagnostic : Diagnostic) (file : SourceFile) (start length : Nat) :
    (diagnostic.pointingAt file start length).location?.map Location.line =
      some ((file.position start).line + 1) := rfl

/-- The diagnostic stands one byte before the column of the fault, and on its line. -/
def IsPlaced (diagnostic : Diagnostic) (text : String) (fault : Json.ReadError) : Prop :=
  ∃ rest start, Text.lineStart? (fault.line - 1) text.toList 0 = some (rest, start) ∧
    diagnostic.start = some (start + (fault.column - 1)) ∧
    diagnostic.location?.map Location.line = some fault.line

/-- A text that cannot be read gives a diagnostic. It stands behind as many characters of the line as the column
has bytes, and so in place exactly if none of those before the place is wider than a byte. -/
theorem syntaxError_isPlaced_iff (hread : Json.read (Comments.strip text) = .error fault) :
    ∃ diagnostic rest start, parse name text = .error diagnostic ∧
      Text.lineStart? (fault.line - 1) text.toList 0 = some (rest, start) ∧
      diagnostic.start = some (start + Text.byteLength (rest.take (fault.column - 1))) ∧
      diagnostic.location?.map Location.line =
        some (fault.line + (rest.take (fault.column - 1)).count '\n') ∧
      (IsPlaced diagnostic text fault ↔ ∀ c ∈ Text.takeBytes (fault.column - 1) rest, c.utf8Size = 1) := by
  obtain ⟨rest, start, hplace, hpos⟩ := exists_inLine_of_read hread
  have hlineStart := hplace.lineStart 0
  rw [Nat.zero_add] at hlineStart
  have hbytes := hplace.within
  have hunbroken := hplace.unbroken
  rw [Nat.add_sub_cancel_left] at hbytes hunbroken
  have hparse : parse name text = .error (syntaxDiagnostic ⟨name, text⟩ fault) := by rw [parse, hread]
  have hoffset : (⟨name, text⟩ : SourceFile).offset ⟨fault.line - 1, fault.column - 1⟩ =
      start + Text.byteLength (rest.take (fault.column - 1)) := by
    rw [SourceFile.offset, Text.offset, hlineStart]
  have hpiece : Text.lineStart? (fault.line - 1) text.toList 0 =
      some (rest.take (fault.column - 1) ++ rest.drop (fault.column - 1), start) := by
    rw [List.take_append_drop, hlineStart]
  have hstart : (syntaxDiagnostic ⟨name, text⟩ fault).start =
      some (start + Text.byteLength (rest.take (fault.column - 1))) := congrArg some hoffset
  have hline : (syntaxDiagnostic ⟨name, text⟩ fault).location?.map Location.line =
      some (fault.line + (rest.take (fault.column - 1)).count '\n') := by
    rw [syntaxDiagnostic, line_pointingAt, hoffset, SourceFile.position, Text.line_position_add hpiece,
      Nat.add_right_comm, Nat.sub_add_cancel hpos]
  have hwidth : Text.byteLength (rest.take (fault.column - 1)) = fault.column - 1 ↔
      ∀ c ∈ Text.takeBytes (fault.column - 1) rest, c.utf8Size = 1 := by
    by_cases hcolumn : fault.column - 1 = 0
    · rw [hcolumn, Text.takeBytes_zero]
      exact ⟨fun _ c hc => absurd hc List.not_mem_nil, fun _ => rfl⟩
    · exact Text.byteLength_take_iff (by omega)
  refine ⟨_, rest, start, hparse, hlineStart, hstart, hline, ?_⟩
  constructor
  · rintro ⟨rest', start', hlineStart', hstart', -⟩
    obtain ⟨rfl, rfl⟩ := Prod.mk.inj (Option.some.inj (hlineStart.symm.trans hlineStart'))
    exact hwidth.mp (Nat.add_left_cancel (Option.some.inj (hstart.symm.trans hstart')))
  · intro hwidths
    have hnone : (rest.take (fault.column - 1)).count '\n' = 0 := by
      rw [Text.take_eq_takeBytes hwidths]
      exact List.count_eq_zero.mpr fun hmem =>
        hunbroken ((Text.takeBytes_prefix_of_le (Nat.sub_le _ 1) rest).subset hmem)
    exact ⟨rest, start, hlineStart, by rw [hstart, hwidth.mpr hwidths], by rw [hline, hnone, Nat.add_zero]⟩

theorem read_eq_error
    (h : Except.casesOn (motive := fun _ => Option Json.ReadError) (Json.read text) some (fun _ => none) =
      some fault) : Json.read text = .error fault := by
  cases hread : Json.read text with
  | ok value =>
    rw [hread] at h
    cases h
  | error found =>
    rw [hread] at h
    cases h
    rfl

/-- A comma is missing between the members. -/
theorem syntaxError_isPlaced_iff_ascii :
    let text := "\x7b\n  \"a\": 1\n  \"b\": 2\n\x7d"
    Json.read (Comments.strip text) = .error ⟨.expectedObjectCommaOrEnd, 3, 3⟩ ∧
      ∃ diagnostic, parse "tsconfig.json" text = .error diagnostic ∧
        IsPlaced diagnostic text ⟨.expectedObjectCommaOrEnd, 3, 3⟩ ∧ diagnostic.start = some 13 := by
  intro text
  have hread : Json.read (Comments.strip text) = .error ⟨.expectedObjectCommaOrEnd, 3, 3⟩ :=
    read_eq_error (by decide +kernel)
  obtain ⟨diagnostic, rest, start, hparse, hlineStart, hstart, -, hplaced⟩ := syntaxError_isPlaced_iff hread
  have hline : Text.lineStart? 2 text.toList 0 = some ("  \"b\": 2\n\x7d".toList, 11) := by decide +kernel
  obtain ⟨rfl, rfl⟩ := Prod.mk.inj (Option.some.inj (hlineStart.symm.trans hline))
  have hwidths : (Text.takeBytes 2 "  \"b\": 2\n\x7d".toList).all (·.utf8Size = 1) := by decide +kernel
  have hascii : ∀ c ∈ Text.takeBytes 2 "  \"b\": 2\n\x7d".toList, c.utf8Size = 1 :=
    fun c hc => of_decide_eq_true (List.all_eq_true.mp hwidths c hc)
  exact ⟨hread, diagnostic, hparse, hplaced.mpr hascii, hstart⟩

/-- The key has six bytes and three characters between its quotes, and the colon behind it is missing on the
first line. The diagnostic is on the second. -/
theorem syntaxError_misplaced :
    let text := "\x7b\"ééé\" 1\n\x7d\n"
    ∃ diagnostic fault, parse "tsconfig.json" text = .error diagnostic ∧
      Json.read (Comments.strip text) = .error fault ∧ ¬IsPlaced diagnostic text fault := by
  intro text
  have hread : Json.read (Comments.strip text) = .error ⟨.expectedColon, 1, 11⟩ :=
    read_eq_error (by decide +kernel)
  have hparse : parse "tsconfig.json" text =
      .error (syntaxDiagnostic ⟨"tsconfig.json", text⟩ ⟨.expectedColon, 1, 11⟩) := by
    rw [parse, hread]
  refine ⟨_, _, hparse, hread, fun ⟨_, _, _, _, hplaced⟩ => ?_⟩
  have hline : (syntaxDiagnostic ⟨"tsconfig.json", text⟩ ⟨.expectedColon, 1, 11⟩).location?.map Location.line =
      some 2 := by decide +kernel
  rw [hline] at hplaced
  cases hplaced

end TsBuild.Config
