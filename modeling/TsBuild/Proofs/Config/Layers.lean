import TsBuild.Config.Expand
import TsBuild.Proofs.Options.Entries

/-!
# Layers of options

What a configuration gives is a layer: a value for some options, errors, and the files it comes from.
An expansion that inherits from several bases makes the layer in which the last base that has a value
gives it (`layer_foldl`), and the options of the file itself lie on top (`onto_eq`).
-/

namespace TsBuild.Config

-- ---------------------------------------------------------------------------
-- Layers
-- ---------------------------------------------------------------------------

/-- What a configuration gives, its bases included. -/
structure Layer where
  value? : (name : OptionName) → Option name.Value
  kept? : (name : String) → Option Json
  errors : List Diagnostic
  /-- The files that contribute, in the order they are met. -/
  files : List String

namespace Layer

def empty : Layer := ⟨fun _ => none, fun _ => none, [], []⟩

def failed (error : Diagnostic) : Layer := { empty with errors := [error] }

def own (raw? : Option Json) (file : SourceFile) : Layer :=
  match raw? with
  | none => empty
  | some raw =>
    { value? := OptionSet.ownValue? (OptionSet.entriesOf raw)
      kept? := OptionSet.ownKept? (OptionSet.entriesOf raw)
      errors := (OptionSet.ownErrors raw).map fun (name, error) => optionDiagnostic (some file) name error
      files := [] }

/-- A file over its bases, of which the last that has a value gives it. -/
def onto (own : Layer) (malformed : List Diagnostic) (bases : List Layer) : Layer where
  value? name := own.value? name <|> bases.reverse.findSome? fun base => base.value? name
  kept? name := own.kept? name <|> bases.reverse.findSome? fun base => base.kept? name
  errors := malformed ++ bases.flatMap errors ++ own.errors
  files := bases.flatMap files

end Layer

-- ---------------------------------------------------------------------------
-- Inheriting
-- ---------------------------------------------------------------------------

def Layer.inherit (inherited : Layer) (bases : List Layer) : Layer where
  value? name := (bases.reverse.findSome? fun base => base.value? name) <|> inherited.value? name
  kept? name := (bases.reverse.findSome? fun base => base.kept? name) <|> inherited.kept? name
  errors := inherited.errors ++ bases.flatMap errors
  files := inherited.files ++ bases.flatMap files

theorem findSome_cons_orElse (f : α → Option β) (first : α) (rest : List α) (last : Option β) :
    ((first :: rest).reverse.findSome? f <|> last) = (rest.reverse.findSome? f <|> (f first <|> last)) := by
  rw [List.reverse_cons, List.findSome?_append, List.findSome?_singleton]
  cases rest.reverse.findSome? f <;> rfl

theorem Layer.inherit_nil (inherited : Layer) : inherited.inherit [] = inherited := by
  simp only [inherit, List.flatMap_nil, List.append_nil]
  rfl

theorem Layer.inherit_cons (inherited base : Layer) (bases : List Layer) :
    inherited.inherit (base :: bases) = (inherited.inherit [base]).inherit bases := by
  simp only [inherit, findSome_cons_orElse, List.flatMap_cons, List.flatMap_nil, List.append_nil,
    List.append_assoc]
  rfl

theorem Layer.onto_eq {own : Layer} (h : own.files = []) (malformed : List Diagnostic)
    (bases : List Layer) :
    own.onto malformed bases = (inherit { empty with errors := malformed } bases).inherit [own] := by
  have hnone : ∀ {α : Type} (x : Option α), (x <|> none) = x := fun x => by cases x <;> rfl
  simp [onto, inherit, empty, h, hnone]

namespace Expansion

def layer (expansion : Expansion) : Layer :=
  ⟨expansion.options.value?, expansion.options.kept?, expansion.errors, expansion.files⟩

def IsDistinct (expansion : Expansion) : Prop := expansion.options.IsDistinct

theorem isDistinct_then {inherited : Expansion} (h : inherited.IsDistinct) (base : Expansion) :
    (inherited.then' base).IsDistinct :=
  OptionSet.isDistinct_layeredOver base.options h

theorem layer_then (inherited : Expansion) {base : Expansion} (h : base.IsDistinct) :
    (inherited.then' base).layer = inherited.layer.inherit [base.layer] := by
  have hkept : (base.options.layeredOver inherited.options).kept? =
      fun name => base.options.kept? name <|> inherited.options.kept? name :=
    funext (OptionSet.kept_layeredOver h inherited.options)
  simp only [layer, then', hkept, Layer.inherit, findSome_cons_orElse, List.flatMap_cons, List.flatMap_nil,
    List.append_nil]
  rfl

theorem layer_foldl {f : String → Expansion} (hf : ∀ spec, (f spec).IsDistinct) (specs : List String)
    (inherited : Expansion) :
    (specs.foldl (fun inherited spec => inherited.then' (f spec)) inherited).layer =
      inherited.layer.inherit (specs.map fun spec => (f spec).layer) := by
  induction specs generalizing inherited with
  | nil => exact (Layer.inherit_nil _).symm
  | cons spec rest ih =>
    rw [List.foldl_cons, ih, layer_then inherited (hf spec), List.map_cons, ← Layer.inherit_cons]

theorem isDistinct_foldl {f : String → Expansion} (specs : List String) {inherited : Expansion}
    (h : inherited.IsDistinct) :
    (specs.foldl (fun inherited spec => inherited.then' (f spec)) inherited).IsDistinct := by
  induction specs generalizing inherited with
  | nil => exact h
  | cons spec rest ih => exact ih (isDistinct_then h (f spec))

end Expansion

end TsBuild.Config
