import TsBuild.Script.Jsx.Call
import TsBuild.Script.Jsx.DisplayName
import TsBuild.Script.Jsx.Origin
import TsBuild.Script.Jsx.Purity

/-!
# Scripts without elements

The elements of a module become calls, and what the calls need is imported in front of all else.
-/

namespace TsBuild.Script.Jsx

structure File where
  name : String
  text : String

def isDirective (statement : Node) : Bool :=
  match statement with
  | .mk .exprStmt _ [.mk (.str ..) _ _] => true
  | _ => false

def afterDirectives (new : List Node) (statements : List Node) : List Node :=
  statements.takeWhile isDirective ++ new ++ statements.dropWhile isDirective

/-- The module without elements, and the positions of calls that have no effects. The comments are
given with the positions they stand before. What is imported belongs to `scope`, which no other
variable does. -/
def lower (file : File) (leading : List (Pos × Comment)) (runtime : Runtime) (scope : Nat)
    (module : Node) : Node × List Pos :=
  let maker : Maker := { runtime.ofModule leading module with scope }
  let located := if maker.isDevelopment then Origin.located file.name file.text module else module
  let converted := maker.converted located
  let complete := converted.withChildren
    (afterDirectives (maker.imports converted) converted.children)
  (DisplayName.assigned complete, Purity.positions module ++ Purity.positions complete)

end TsBuild.Script.Jsx
