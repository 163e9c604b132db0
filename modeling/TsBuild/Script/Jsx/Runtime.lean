import TsBuild.Options.Values
import TsBuild.Script.Made
import TsBuild.Script.Parsed

/-!
# How elements are made

An element is made by a function when the script runs: by one that the script has, or by one
imported from a package. The options say which, and comments at the beginning of a script may
say otherwise: `@jsxRuntime`, `@jsxImportSource`, `@jsx` and `@jsxFrag`, each followed by a value.
-/

namespace TsBuild.Script.Jsx

structure Runtime where
  /-- Whether the functions are imported. -/
  isAutomatic : Bool
  /-- Whether elements are told where they were written. -/
  isDevelopment : Bool := false
  /-- The package that the functions are imported from. -/
  package : String := "react"
  /-- The function of the script that makes elements. -/
  factory : Node
  /-- What the function makes fragments of. -/
  fragment : Node

namespace Runtime

def moduleScope : Nat := 1

def ofReact (name : String) : Node :=
  Made.memberNamed (Made.ident "React" moduleScope) name

def classic : Runtime :=
  { isAutomatic := false, factory := ofReact "createElement", fragment := ofReact "Fragment" }

def ofMode (package : Option String) : JsxMode → Option Runtime
  | .react => some classic
  | .reactJsx => some { classic with isAutomatic := true, package := package.getD "react" }
  | .reactJsxDev =>
    some { classic with isAutomatic := true, isDevelopment := true, package := package.getD "react" }
  | .preserve | .reactNative => none

-- ---------------------------------------------------------------------------
-- Directives
-- ---------------------------------------------------------------------------

inductive Directive
  | runtime (isAutomatic : Bool)
  | package (name : String)
  | factory (expression : Node)
  | fragment (expression : Node)

def words (line : List Char) : List (List Char) :=
  (Text.splitOn ' ' (line.map fun c => if Text.isBlank c then ' ' else c)).filter fun word =>
    !word.isEmpty

def isDottedName (word : List Char) : Bool :=
  word.head?.any isIdentStart && word.all fun c => isIdentPart c || c = '.'

/-- An expression that a comment names. Its variables are those of the module, and all of it
stands where the comment does. -/
def expression? (span : Span) (source : List Char) : Option Node :=
  let parsed := parse { jsx := false, declarations := false } (String.ofList source)
  match isDottedName source, parsed.module? with
  | true, some (.mk _ _ [.mk .exprStmt _ [expression]]) =>
    some (expression.fold fun node parts =>
      match node.kind with
      | .ident name _ => .mk (.ident name moduleScope) span []
      | kind => .mk kind span parts)
  | _, _ => none

def directive? (span : Span) (name value : List Char) : Option Directive :=
  match String.ofList name with
  | "@jsxRuntime" =>
    match String.ofList value with
    | "classic" => some (.runtime false)
    | "automatic" => some (.runtime true)
    | _ => none
  | "@jsxImportSource" => some (.package (String.ofList value))
  | "@jsxFrag" => (expression? span value).map .fragment
  | "@jsx" => (expression? span value).map .factory
  | _ => none

def directivesOfWords (span : Span) : List (List Char) → List Directive
  | name :: value :: rest => (directive? span name value).toList ++ directivesOfWords span rest
  | _ => []

def directivesOfLine (span : Span) (line : List Char) : List Directive :=
  let line := Text.trim line
  let line := match line with
    | '*' :: rest => Text.trim rest
    | _ => line
  if Text.startsWith "@jsx".toList line then directivesOfWords span (words line) else []

def directivesOf (comment : Comment) : List Directive :=
  let span : Span := ⟨comment.start, comment.start + comment.text.utf8ByteSize + 4⟩
  if comment.isBlock then (Text.lines comment.text.toList).flatMap (directivesOfLine span) else []

def directed (runtime : Runtime) : Directive → Runtime
  | .runtime isAutomatic => { runtime with isAutomatic }
  | .package package => { runtime with isAutomatic := true, package }
  | .factory factory => { runtime with factory }
  | .fragment fragment => { runtime with fragment }

/-- The runtime that a module asks for: in front of the module, or of the first item with a
directive. -/
def ofModule (runtime : Runtime) (leading : List (Pos × Comment)) (module : Node) : Runtime :=
  let directivesAt (pos : Pos) : List Directive :=
    (leading.filter fun (p, _) => p = pos).flatMap fun (_, comment) => directivesOf comment
  let first := (module.children.map fun item => directivesAt item.lo).find? fun ds => !ds.isEmpty
  (directivesAt module.lo ++ first.getD []).foldl directed runtime

end Runtime

end TsBuild.Script.Jsx
