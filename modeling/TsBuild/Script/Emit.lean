import TsBuild.Script.Elision
import TsBuild.Script.Jsx
import TsBuild.Script.Lowering
import TsBuild.Script.Parentheses
import TsBuild.Script.Print.Script
import TsBuild.Script.Scope.Rename
import TsBuild.Script.Scope.Resolve

/-!
# Emitting scripts

A module without its types is a module still: one that loses its last import or export with
them is given an empty export.
-/

namespace TsBuild.Script.Emit

def isModuleDeclaration (item : Node) : Bool :=
  match item.kind with
  | .importDecl .. | .exportDecl | .exportNamed _ | .exportDefaultDecl | .exportDefaultExpr | .exportAll _
  | .importEquals .. | .exportAssign | .namespaceExport => true
  | _ => false

/-- Adds an empty export to `after` if it lost the declarations that make `before` a module. -/
def keepModule (before after : Node) : Node :=
  match before.children.reverse.find? isModuleDeclaration with
  | none => after
  | some last =>
    if after.children.any isModuleDeclaration then after
    else after.withChildren (after.children ++ [.mk (.exportNamed false) last.span [.absent, .absent]])

def withoutTypes (module : Node) : Node × Nat :=
  let (module, scopes) := Scope.resolve module
  let (lowered, scopes) := Lowering.lower scopes (Elision.erase module)
  (keepModule module lowered, scopes)

def markPure (comments : Print.Comments) (pos : Pos) : Print.Comments :=
  let comment : Comment := { isBlock := true, start := 0, text := "#__PURE__" }
  if comments.leading.any fun (p, c) => p = pos && c.text = comment.text then comments
  else { comments with leading := comments.leading ++ [(pos, comment)] }

/-- Comments at parentheses that are gone stand at the expressions that were in them. -/
def moved (removed : Parentheses.Removed) (comments : Print.Comments) : Print.Comments :=
  removed.foldl (fun comments (inner, outer) =>
    { leading := comments.leading.map fun (pos, c) => (if pos = outer.lo then inner.lo else pos, c)
      trailing := comments.trailing.map fun (pos, c) => (if pos = outer.hi then inner.hi else pos, c) })
    comments

structure Setting where
  /-- How elements are made, unless they stay. -/
  runtime? : Option Jsx.Runtime
  keepsComments : Bool

def text (setting : Setting) (file : Jsx.File) (comments : Print.Comments) (module : Node) :
    String × List Print.Mark :=
  let (module, scopes) := withoutTypes module
  let (module, pure) := match setting.runtime? with
    | some runtime => Jsx.lower file comments.leading runtime (scopes + 1) module
    | none => (module, [])
  let comments := if setting.keepsComments then pure.foldl markPure comments else .none
  let (placed, removed) := Parentheses.placed (Scope.rename module)
  Print.script file.text (moved removed comments) placed

end TsBuild.Script.Emit
