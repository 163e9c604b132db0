import TsBuild.Bundle.ScriptPlugin
import TsBuild.Proofs.Json.ReadBack

/-!
# Transpiled files

A file is transpiled exactly if its text has no syntax error (`run_cases`), and the source map that comes
with it is read back as it was written, whatever the file is called (`read_json`). So a transform of a
file without syntax errors has a result.
-/

namespace TsBuild

-- ---------------------------------------------------------------------------
-- Source maps
-- ---------------------------------------------------------------------------

namespace Script.SourceMap

open TsBuild.Json
open Print (Mark)

variable {rest : List Char}

theorem takes_version (nested : Option (Reader Json)) :
    Takes (valueWith nested) ['3'] (.number (.int 3)) ([','] ++ rest) := fun _ => ⟨_, rfl⟩

theorem takes_sources (nested : Option (Reader Json)) (isEmpty : Bool) (fileName : String) :
    Takes (valueWith (some (valueWith nested)))
      (Json.array (if isEmpty then [] else [.string fileName])).compact.toList
      (.array (if isEmpty then [] else [.string fileName])) rest := by
  cases isEmpty with
  | true =>
    have htext : (Json.array []).compact.toList = ['[', ']'] := by simp [compact, compactItems]
    simp only [↓reduceIte, htext]
    exact takes_array_nil _
  | false =>
    have htext : (Json.array [.string fileName]).compact.toList =
        ['['] ++ ((quote fileName).toList ++ [']']) := by
      simp [compact, compactItems]
    simp only [Bool.false_eq_true, ↓reduceIte, htext]
    exact takes_array_string _ fileName

theorem takes_json (nested : Option (Reader Json)) (fileName source : String) (marks : List Mark) :
    Takes (valueWith (some (valueWith (some (valueWith nested))))) (json fileName source marks).compact.toList
      (json fileName source marks) rest := by
  let sources := Json.array (if marks.isEmpty then [] else [.string fileName])
  let places := mappings (segments source marks)
  have htext : (json fileName source marks).compact.toList =
      ['\x7b'] ++ (((quote "version").toList ++ ([':'] ++ ['3'])) ++
        (([','] ++ ((quote "sources").toList ++ ([':'] ++ sources.compact.toList))) ++
        (([','] ++ ((quote "names").toList ++ ([':'] ++ ['[', ']']))) ++
        (([','] ++ ((quote "mappings").toList ++ ([':'] ++ (quote places).toList))) ++ ['\x7d'])))) := by
    have hversion : (Number.int 3).text = "3" := rfl
    simp [json, compact, compactMembers, compactItems, hversion, sources, places]
  rw [htext]
  refine (takes_peekToken (by decide)).ahead ?_
  refine (takes_skip '\x7b').bind ?_
  refine takes_loop_next _ (takes_member_first (takes_version _) _ _) (by simp [quote_toList]) ?_
  refine takes_loop_next _ (takes_member_next (takes_sources _ _ _) _ _) (by simp) ?_
  refine takes_loop_next _ (takes_member_next (takes_array_nil _) _ _) (by simp) ?_
  refine takes_loop_next _ (takes_member_next (takes_string _ _) _ _) (by simp) ?_
  exact takes_loop_done (takes_object_end _ _)

theorem read_json (fileName source : String) (marks : List Mark) :
    Json.read (json fileName source marks).compact = .ok (json fileName source marks) := by
  have hvalue : value depthLimit = valueWith (some (valueWith (some (valueWith (some (value 124)))))) := by
    rw [depthLimit, value, value, value]
  have htakes : Takes _ _ _ [] := takes_json (some (value 124)) fileName source marks
  obtain ⟨offset, hread⟩ := htakes 0
  rw [List.append_nil, ← hvalue] at hread
  rw [Json.read, document]
  simp only [Bind.bind, StateT.bind, hread, Except.bind]
  rfl

end Script.SourceMap

-- ---------------------------------------------------------------------------
-- Syntax errors
-- ---------------------------------------------------------------------------

theorem Script.module_of_faults_eq_nil {dialect : Dialect} {text : String}
    (h : (parse dialect text).faults = []) : ∃ module, (parse dialect text).module? = some module := by
  unfold parse at h ⊢
  simp only at h ⊢
  split at h
  · exact ⟨_, rfl⟩
  · simp at h

namespace Program.Facts

theorem faultDiagnostics_eq_nil {file : SourceFile} {parsed : Script.Parsed} :
    faultDiagnostics file parsed = [] ↔ parsed.faults = [] := by
  rw [faultDiagnostics, List.map_eq_nil_iff]
  constructor
  · intro h
    have hperm := List.mergeSort_perm parsed.faults fun a b => a.span.lo ≤ b.span.lo
    rw [h] at hperm
    exact hperm.nil_eq.symm
  · intro h
    rw [h, List.mergeSort_nil]

theorem category_of_mem_syntaxErrors {file : SourceFile} (h : diagnostic ∈ (of file).syntaxErrors) :
    diagnostic.category = .error := by
  obtain ⟨fault, -, rfl⟩ := List.mem_map.mp h
  rfl

end Program.Facts

namespace Transpile

open Program (Facts)
open Bundle.ScriptPlugin (transformed)

theorem transformed_json (code fileName source : String) (marks : List Script.Print.Mark)
    (diagnostics : List Diagnostic) :
    transformed ⟨code, some (Script.SourceMap.json fileName source marks).compact, diagnostics⟩ =
      .ok ⟨code, some (Script.SourceMap.json fileName source marks)⟩ := by
  simp only [transformed, Option.map_some, Script.SourceMap.read_json]

/-- A file without syntax errors is transpiled, with a source map that can be read; any other is not. -/
theorem run_cases (file : SourceFile) (options : OptionSet) :
    ((Facts.of file).syntaxErrors = [] ∧ ∃ output result, run file options = .ok output ∧
        output.diagnostics = warnings file options ∧ transformed output = .ok result) ∨
      ((Facts.of file).syntaxErrors ≠ [] ∧ ∃ error, run file options = .error error) := by
  have hparses : (Facts.of file).syntaxErrors = [] ↔
      (Script.parse (Facts.dialect file.name) (Text.withoutByteOrderMark file.text)).faults = [] :=
    Facts.faultDiagnostics_eq_nil
  rw [Ne, hparses, run]
  generalize hparsed : Script.parse (Facts.dialect file.name) (Text.withoutByteOrderMark file.text) = parsed
  by_cases hfaults : parsed.faults = []
  · subst hparsed
    obtain ⟨module, hmodule⟩ := Script.module_of_faults_eq_nil hfaults
    refine .inl ⟨hfaults, ?_⟩
    simp only [hmodule, hfaults]
    cases options.wantsSourceMap with
    | false => exact ⟨_, _, rfl, rfl, rfl⟩
    | true =>
      exact ⟨_, _, rfl, rfl, transformed_json ..⟩
  · refine .inr ⟨hfaults, ?_⟩
    cases hmodule : parsed.module? with
    | none => exact ⟨_, rfl⟩
    | some module =>
      obtain ⟨fault, rest, hcons⟩ := List.exists_cons_of_ne_nil hfaults
      simp only [hcons]
      exact ⟨_, rfl⟩

end Transpile

end TsBuild
