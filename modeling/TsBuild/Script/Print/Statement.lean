import TsBuild.Script.Print.Class

/-!
# Statements

Each statement ends its line, except a block: what follows a block goes on behind its brace.
-/

namespace TsBuild.Script.Print

open Doc

/-- The positions at which an expression begins that is written without parentheses: its own and
those of the expressions it begins with. -/
def openings : Node → List Pos
  | .mk kind span children =>
    span.lo :: match kind, children with
      | .call, first :: _ | .member, first :: _ | .binary _, first :: _ | .cond, first :: _
      | .seq, first :: _ | .assign _, first :: _ | .optional _, first :: _ => openings first
      | _, _ => []

def argument (setting : Setting) (value : Part) : Doc :=
  if value.isAbsent then empty
  else if (openings value.node).any setting.lineEndBefore then "(" ++ value.doc ++ ")"
  else " " ++ value.doc

def block (setting : Setting) (node : Node) (role : Role) (parts : List Part) : Doc :=
  before node.lo ++ guarded (role ≠ .body) (startMark node) ++ braced .plain setting node .lines parts

def declaration (setting : Setting) (node : Node) (role : Role) (word : String) (parts : List Part) :
    Doc :=
  start node ++ word ++ " " ++ items setting .arguments node.span parts ++
    match role with
    | .head => empty
    | .exported => ";" ++ endMark node
    | _ => text ";"

def ifStatement (node : Node) (test consequent alternate : Part) : Doc :=
  start node ++ "if (" ++ test.doc ++ ") " ++ consequent.doc ++
    if alternate.isAbsent then empty
    else guarded (consequent.kind matches .block) " " ++ "else " ++ alternate.doc

def forStatement (node : Node) (head test step body : Part) : Doc :=
  let part (value : Part) : Doc := if value.isAbsent then empty else " " ++ value.doc
  start node ++ "for(" ++ head.docAs .head ++ ";" ++ part test ++ ";" ++ part step ++ ")" ++ body.doc

def switchCase (setting : Setting) (node : Node) (test : Part) (body : List Part) : Doc :=
  start node ++ (if test.isAbsent then text "default" else "case " ++ test.doc) ++ ":" ++
    items setting .lines node.span body

def tryStatement (node : Node) (body handler finalizer : Part) : Doc :=
  start node ++ "try " ++ body.doc ++
    (if handler.isAbsent then empty else " " ++ handler.doc) ++
    if finalizer.isAbsent then empty else " finally" ++ finalizer.doc

def catchClause (node : Node) (pattern body : Part) : Doc :=
  start node ++ "catch " ++ (if pattern.isAbsent then empty else "(" ++ pattern.doc ++ ")") ++ " " ++
    body.doc

def jump (node : Node) (word : String) (label : Part) : Doc :=
  start node ++ word ++ (if label.isAbsent then empty else " " ++ label.doc) ++ ";"

def statementBody? (setting : Setting) (node : Node) (role : Role) (parts : List Part) : Option Doc :=
  let part (i : Nat) : Part := parts.getD i .absent
  match node.kind with
  | .empty => some (start node ++ ";")
  | .debugger => some (start node ++ "debugger;")
  | .exprStmt => some (before node.lo ++ (part 0).doc ++ ";")
  | .varDecl kind _ => some (declaration setting node role kind.text parts)
  | .usingDecl isAwait =>
    some (start node ++ (if isAwait then "await using " else "using ") ++
      items setting .arguments node.span parts)
  | .functionDecl _ => some (part 0).doc
  | .classDecl => some ((part 0).docAs role)
  | .returnStmt => some (start node ++ "return" ++ argument setting (part 0) ++ ";")
  | .throwStmt => some (start node ++ "throw" ++ argument setting (part 0) ++ ";")
  | .ifStmt => some (ifStatement node (part 0) (part 1) (part 2))
  | .switch =>
    some (start node ++ "switch(" ++ (part 0).doc ++ ")\x7b" ++
      items setting .lines node.span (parts.drop 1) ++ closeMark node ++ "\x7d")
  | .tryStmt => some (tryStatement node (part 0) (part 1) (part 2))
  | .whileStmt => some (start node ++ "while(" ++ (part 0).doc ++ ")" ++ (part 1).doc)
  | .doWhile => some (start node ++ "do " ++ (part 0).doc ++ "while (" ++ (part 1).doc ++ ")")
  | .forStmt => some (forStatement node (part 0) (part 1) (part 2) (part 3))
  | .forIn =>
    some (start node ++ "for(" ++ (part 0).docAs .head ++ " in " ++ (part 1).doc ++ ")" ++ (part 2).doc)
  | .forOf isAwait =>
    some (start node ++ (if isAwait then "for await (" else "for (") ++ (part 0).docAs .head ++ " of " ++
      (part 1).doc ++ ")" ++ (part 2).doc)
  | .breakStmt => some (jump node "break" (part 0))
  | .continueStmt => some (jump node "continue" (part 0))
  | .labeled => some (start node ++ (part 0).doc ++ ": " ++ (part 1).doc)
  | .withStmt => some (start node ++ "with(" ++ (part 0).doc ++ ") " ++ (part 1).doc)
  | _ => none

/-- The document of a statement. In the head of a loop and behind `export` it does not end the
line. -/
def statement? (setting : Setting) (node : Node) (role : Role) (parts : List Part) : Option Doc :=
  match node.kind with
  | .block => some (block setting node role parts)
  | _ =>
    (statementBody? setting node role parts).map fun doc =>
      match role with
      | .head | .exported => doc
      | _ => doc ++ after node ++ line

def statementPart? (setting : Setting) (node : Node) (parts : List Part) : Option Doc :=
  let part (i : Nat) : Part := parts.getD i .absent
  match node.kind with
  | .declarator _ =>
    some (start node ++ (part 0).doc ++
      if (part 1).isAbsent then empty else " = " ++ (part 1).doc)
  | .switchCase => some (switchCase setting node (part 0) (parts.drop 1))
  | .catch => some (catchClause node (part 0) (part 1))
  | _ => none

end TsBuild.Script.Print
