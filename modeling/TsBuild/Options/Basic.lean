import TsBuild.Json.Writer
import TsBuild.Options.Name

/-!
# Option sets

An option set gives each option at most one value and keeps the entries without a
meaning in the order they came. `ofJson` reads a raw object entry by entry: an
entry sets its option, is kept, or is rejected with an error under its name.
`layeredOver` layers one set on another.
-/

namespace TsBuild

inductive OptionError
  | wrongType (name expected : String)
  | notOneOf (name : String) (spellings : List String)
  | substitutionsNotArray (pattern : String)
  | substitutionNotString (pattern : String) (value : Json)
  | unknown (name : String)
  deriving Repr

namespace OptionError

def code : OptionError → Nat
  | wrongType .. => 5024
  | notOneOf .. => 6046
  | substitutionsNotArray _ => 5063
  | substitutionNotString .. => 5064
  | unknown _ => 5023

def message : OptionError → String
  | wrongType name expected =>
    "Compiler option '" ++ name ++ "' requires a value of type " ++ expected ++ "."
  | notOneOf name spellings =>
    "Argument for '--" ++ name ++ "' option must be: " ++
      ", ".intercalate (spellings.map fun s => "'" ++ s ++ "'") ++ "."
  | substitutionsNotArray pattern =>
    "Substitutions for pattern '" ++ pattern ++ "' should be an array."
  | substitutionNotString pattern value =>
    "Substitution '" ++ value.compact ++ "' for pattern '" ++ pattern ++
      "' has incorrect type, expected 'string', got '" ++ value.typeName ++ "'."
  | unknown name => "Unknown compiler option '" ++ name ++ "'."

end OptionError

namespace Options

def readBool (name : String) (value : Json) : Except OptionError Bool :=
  match value.asBool? with
  | some b => .ok b
  | none => .error (.wrongType name "boolean")

def readString (name : String) (value : Json) : Except OptionError String :=
  match value.asString? with
  | some s => .ok s
  | none => .error (.wrongType name "string")

def readList (name : String) (value : Json) : Except OptionError (List String) :=
  match value.asArray? with
  | none => .error (.wrongType name "Array")
  | some items =>
    items.mapM fun item =>
      match item.asString? with
      | some s => .ok s
      | none => .error (.wrongType name "string[]")

def readSubstitutions (pattern : String) (value : Json) : Except OptionError (List String) :=
  match value.asArray? with
  | none => .error (.substitutionsNotArray pattern)
  | some items =>
    items.mapM fun item =>
      match item.asString? with
      | some s => .ok s
      | none => .error (.substitutionNotString pattern item)

def readPaths (name : String) (value : Json) : Except OptionError (List (String × List String)) :=
  match value.asObject? with
  | none => .error (.wrongType name "object")
  | some members => members.mapM fun (pattern, value) => do pure (pattern, ← readSubstitutions pattern value)

def readEnumerated [Enumerated α] (name : String) (value : Json) : Except OptionError α :=
  match value.asString?.bind Enumerated.parse? with
  | some a => .ok a
  | none => .error (.notOneOf name ((Enumerated.values : List (String × α)).map Prod.fst))

end Options

namespace OptionKind

open Options

def read (name : String) (value : Json) : (kind : OptionKind) → Except OptionError kind.Value
  | flag => readBool name value
  | text => readString name value
  | list => readList name value
  | paths => readPaths name value
  | target => (readEnumerated name value : Except OptionError Target)
  | module => (readEnumerated name value : Except OptionError ModuleKind)
  | moduleResolution => (readEnumerated name value : Except OptionError ModuleResolution)
  | jsx => (readEnumerated name value : Except OptionError JsxMode)

def write : (kind : OptionKind) → kind.Value → Json
  | flag, (b : Bool) => .bool b
  | text, (s : String) => .string s
  | list, (items : List String) => .array (items.map .string)
  | paths, (patterns : List (String × List String)) =>
    .object (patterns.map fun (pattern, targets) => (pattern, .array (targets.map .string)))
  | target, (t : Target) => .string t.text
  | module, (m : ModuleKind) => .string m.text
  | moduleResolution, (m : ModuleResolution) => .string m.text
  | jsx, (mode : JsxMode) => .string mode.text

end OptionKind

structure OptionSet where
  value? : (name : OptionName) → Option name.Value
  passthrough : List (String × Json)

namespace OptionSet

def empty : OptionSet := ⟨fun _ => none, []⟩

instance : Inhabited OptionSet := ⟨empty⟩

def set (options : OptionSet) (name : OptionName) (value : name.Value) : OptionSet :=
  { options with
    value? := fun other => if h : name = other then some (h ▸ value) else options.value? other }

def setJson (options : OptionSet) (name : String) (value : Json) : Except OptionError (Option OptionSet) :=
  match OptionName.ofText? name with
  | none => .ok none
  | some option => do pure (some (options.set option (← option.kind.read name value)))

/-- The values of `upper` where it has them and those of `lower` elsewhere. -/
def layeredOver (upper lower : OptionSet) : OptionSet where
  value? name := upper.value? name <|> lower.value? name
  passthrough := upper.passthrough.foldl (fun entries (key, value) => Json.insert key value entries)
    lower.passthrough

def baseline : OptionSet :=
  (((empty.set .importHelpers true).set .sourceMap true).set .module ModuleKind.es2015).set
    .moduleResolution ModuleResolution.node10

def flag? (options : OptionSet) (name : OptionName) (h : name.kind = .flag := by rfl) : Option Bool :=
  (options.value? name).map fun value => cast (congrArg OptionKind.Value h) value

def isOn (options : OptionSet) (name : OptionName) (h : name.kind = .flag := by rfl) : Bool :=
  (options.flag? name h).getD false

def wantsSourceMap (options : OptionSet) : Bool :=
  options.isOn .sourceMap || options.isOn .inlineSourceMap

def strictNullChecks (options : OptionSet) : Bool :=
  (options.flag? .strictNullChecks).getD (options.isOn .strict)

/-- Takes one entry of a raw object: it sets its option, is kept, or is rejected. -/
def readEntry (options : OptionSet) (name : String) (value : Json) :
    Except OptionError OptionSet := do
  match ← options.setJson name value with
  | some options => pure options
  | none =>
    if passthroughNames.contains name then
      pure { options with passthrough := Json.insert name value options.passthrough }
    else throw (.unknown name)

def readEntries (options : OptionSet) :
    List (String × Json) → OptionSet × List (String × OptionError)
  | [] => (options, [])
  | (name, value) :: rest =>
    match options.readEntry name value with
    | .ok options => readEntries options rest
    | .error error =>
      let (options, errors) := readEntries options rest
      (options, (name, error) :: errors)

def sectionName : String := "compilerOptions"

/-- The entries that read cleanly, and an error under its name for each other entry. -/
def ofJson (value : Json) : OptionSet × List (String × OptionError) :=
  match value.asObject? with
  | none => (empty, [(sectionName, .wrongType sectionName "object")])
  | some members => readEntries empty members

def toJson (options : OptionSet) : Json :=
  .object (OptionName.all.filterMap (fun name =>
    (options.value? name).map fun value => (name.text, name.kind.write value)) ++ options.passthrough)

end OptionSet

end TsBuild
