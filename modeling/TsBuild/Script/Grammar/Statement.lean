import TsBuild.Script.Grammar.Declaration

/-!
# Statements
-/

namespace TsBuild.Script.Grammar

open Read

variable [Descent]

def body : Read Node := read (.statement false)

def withLoop {α : Type} (inner : Read α) : Read α :=
  within (fun setting => { setting with mayBreak := true, mayContinue := true }) inner

def parenthesizedExpression : Read Node := do
  expectPunct "("
  let inner ← withMembership (read .expression)
  expectPunct ")"
  return inner

def block : Read Node := do
  let start ← pos
  expectPunct "\x7b"
  let statements ← loop ([] : List Node) fun statements => do
    if ← isPunct "\x7d" then
      bump
      return .inr statements
    if ← atEnd then
      noteAt (← currentSpan) (.expected "\x7d" "<eof>")
      return .inr statements
    return .inl ((← read (.statement true)) :: statements)
  return .mk .block (← spanFrom start) statements.reverse

-- ---------------------------------------------------------------------------
-- Jumps
-- ---------------------------------------------------------------------------

def label : Read Node := do
  let ident ← identifier true
  return ident.withKind (.name ident.nameText)

def jump (start : Pos) : Read Node := do
  let isBreak ← isWord "break"
  bump
  let target ←
    if ← eatStop then pure .absent
    else do
      let target ← label
      expectStop
      pure target
  let span ← spanFrom start
  let isKnown := (← get).labels.contains target.nameText
  let setting ← setting
  if isBreak then
    if !target.isAbsent && !isKnown then noteAt span .breakLabel
    else if target.isAbsent && !setting.mayBreak then noteAt span .breakOutside
  else if !setting.mayContinue then noteAt span .continueLabel
  else if !target.isAbsent && !isKnown then noteAt span .jumpTarget
  return .mk (if isBreak then .breakStmt else .continueStmt) span [target]

/-- Notes a `return` outside of functions, also where it goes on wrongly. -/
def returnStatement (start : Pos) : Read Node :=
  finishing
    (do
      bump
      let value ← if ← isStop then pure .absent else withMembership (read .expression)
      expectStop
      return .mk .returnStmt (← spanFrom start) [value])
    (do unless (← setting).inFunction do noteAt (← spanFrom start) .returnOutside)

def throwStatement (start : Pos) : Read Node := do
  bump
  if ← afterLineBreak then failHere .lineBreakInThrow
  let value ← withMembership (read .expression)
  expectStop
  return .mk .throwStmt (← spanFrom start) [value]

-- ---------------------------------------------------------------------------
-- Branches
-- ---------------------------------------------------------------------------

def ifStatement : Read Node := do
  let start ← pos
  expectWord "if"
  let test ← parenthesizedExpression
  let consequent ← body
  let alternate ←
    if ← eatWord "else" then
      if ← isWord "if" then read .ifStatement else body
    else pure .absent
  return .mk .ifStmt (← spanFrom start) [test, consequent, alternate]

def switchStatement (start : Pos) : Read Node := do
  bump
  let discriminant ← parenthesizedExpression
  expectPunct "\x7b"
  let cases ← within (fun setting => { setting with mayBreak := true }) do
    loop (([], false) : List Node × Bool) fun (cases, hasDefault) => do
      unless ← isAnyWord ["case", "default"] do return .inr cases
      let caseStart ← pos
      let isDefault ← isWord "default"
      bump
      let test ←
        if isDefault then do
          if hasDefault then failHere .multipleDefault
          pure .absent
        else withMembership (read .expression)
      expectPunct ":"
      let statements ← whileM
        (do
          if ← atEnd then return false
          notM (isAnyWord ["case", "default"] <||> isPunct "\x7d"))
        (read (.statement true))
      let node := Node.mk .switchCase (← spanFrom caseStart) (test :: statements)
      return .inl (node :: cases, hasDefault || isDefault)
  expectPunct "\x7d"
  return .mk .switch (← spanFrom start) (discriminant :: cases.reverse)

def catchClause : Read Node := do
  let start ← pos
  unless ← eatWord "catch" do return .absent
  let parameter ←
    if ← eatPunct "(" then do
      let pattern ← bindingPatternWith true
      let type ← typeAnnotation?
      expectPunct ")"
      pure (annotate pattern type false)
    else pure .absent
  let block ← block
  return .mk .catch (← spanFrom start) [parameter, block]

def finallyClause : Read Node := do
  if ← eatWord "finally" then block else return .absent

def tryStatement (start : Pos) : Read Node := do
  bump
  let attempted ← block
  let catchStart ← pos
  let handler ← catchClause
  let final ← finallyClause
  if handler.isAbsent && final.isAbsent then noteAt ⟨catchStart, catchStart⟩ .semicolon
  return .mk .tryStmt (← spanFrom start) [attempted, handler, final]

def strayClause : Read Node := do
  let span ← currentSpan
  noteAt span .semicolon
  let handler ← optionally catchClause
  if handler.isSome then
    let _ ← optionally finallyClause
  return .mk .exprStmt span [.absent]

-- ---------------------------------------------------------------------------
-- Loops
-- ---------------------------------------------------------------------------

def whileStatement (start : Pos) : Read Node := do
  bump
  let test ← parenthesizedExpression
  let body ← withLoop body
  return .mk .whileStmt (← spanFrom start) [test, body]

def doStatement (start : Pos) : Read Node := do
  bump
  let body ← withLoop body
  expectWord "while"
  let test ← parenthesizedExpression
  let _ ← eatStop
  return .mk .doWhile (← spanFrom start) [body, test]

def forClauses : Read (Node × Node) := do
  let test ←
    if ← eatPunct ";" then pure .absent
    else do
      let test ← withMembership (read .expression)
      expectPunct ";"
      pure test
  let update ← if ← isPunct ")" then pure .absent else withMembership (read .expression)
  return (test, update)

def forEachHead (left : Node) : Read (Kind × List Node) := do
  let isOf ← isWord "of"
  bump
  if isOf then return (.forOf false, [left, ← withMembership (read .assignment)])
  if left.kind matches .usingDecl _ then noteAt left.span .usingInForIn
  return (.forIn, [left, ← withMembership (read .expression)])

/-- Whether an expression is the beginning of a declaration with `using`, and if so whether that
awaits. -/
def usingHead? : Node → Option Bool
  | .mk (.ident "using" _) _ _ => some false
  | .mk .await _ [.mk (.ident "using" _) _ _] => some true
  | _ => none

def checkForVariable (declaration : Node) (isOf : Bool) : Read Unit := do
  match declaration.children with
  | [declarator] =>
    let pattern := declarator.child 0
    unless (declarator.child 1).isAbsent do noteAt pattern.span .forOfInitializer
    let type := match pattern.kind with
      | .binding .. => pattern.child 1
      | _ => pattern.child 0
    unless type.isAbsent do
      noteAt pattern.span (if isOf then .typedForOf else .typedForIn)
  | _ :: rest => for declarator in rest do noteAt (declarator.child 0).span .forOneBinding
  | [] => pure ()

def forHead : Read (Kind × List Node) := do
  if ← isAnyWord ["const", "var"] <||> (isWord "let" <&&> letDeclares) then
    let declaration ← variableDeclaration true
    if ← isAnyWord ["of", "in"] then
      checkForVariable declaration (← isWord "of")
      return ← forEachHead declaration
    expectPunct ";"
    let (test, update) ← forClauses
    return (.forStmt, [declaration, test, update])
  if ← eatPunct ";" then
    let (test, update) ← forClauses
    return (.forStmt, [.absent, test, update])
  let start ← pos
  let first ← within (fun setting => { setting with membership := false }) (read .expression)
  if let some isAwait := usingHead? first then
    if ← notM (isWord "of") <&&> nextIs (fun kind => kind.isWord "of" || kind.isWord "in") then
      let name ← bindingIdentifier true
      let span ← spanFrom start
      let declarator := Node.mk (.declarator false) span [binding name, .absent]
      return ← forEachHead (.mk (.usingDecl isAwait) span [declarator])
  if ← isAnyWord ["of", "in"] then
    let pattern ← toPattern .target first
    if ← pure (pattern.kind matches .arrayPattern _ | .objectPattern _) <&&> isWord "in" then
      noteAt pattern.span .forInPattern
    return ← forEachHead pattern
  expectPunct ";"
  let (test, update) ← forClauses
  return (.forStmt, [first, test, update])

def forStatement (start : Pos) : Read Node := do
  bump
  let await? ← if ← eatWord "await" then pure (some (← get).previous) else pure none
  expectPunct "("
  let inside (setting : Setting) : Setting :=
    { setting with membership := false, inLoopHead := true, inAwaitLoopHead := await?.isSome }
  let (kind, parts) ← within inside forHead
  expectPunct ")"
  let body ← withLoop body
  let kind ←
    match await?, kind with
    | none, kind => pure kind
    | some _, .forOf _ => pure (.forOf true)
    | some span, _ => failAt span .forAwaitIn
  return .mk kind (← spanFrom start) (parts ++ [body])

-- ---------------------------------------------------------------------------
-- Labels and the rest
-- ---------------------------------------------------------------------------

def labelledFunction : Read Node := do
  let node ← functionDeclaration (← pos) false
  noteAt node.span .labelledFunction
  if (node.child 0).kind matches .function _ true then noteAt node.span .labelledGenerator
  return node

def labelled (ident : Node) : Read Node := do
  let name := ident.nameText
  let duplicates := (← get).labels.filter (· = name)
  modify fun s => { s with labels := name :: s.labels }
  let inner ← within (fun setting => { setting with mayBreak := true }) do
    if ← isWord "function" then labelledFunction else body
  for _ in duplicates do noteAt ident.span (.duplicateLabel name)
  modify fun s => { s with labels := s.labels.erase name }
  return .mk .labeled (← spanFrom ident.lo) [ident.withKind (.name name), inner]

def withStatement (start : Pos) : Read Node := do
  noteAt (← currentSpan) .withUnsupported
  noteAt (← currentSpan) .withStrict
  bump
  let object ← parenthesizedExpression
  let inner ← within (fun setting => { setting with inFunction := true }) body
  return .mk .withStmt (← spanFrom start) [object, inner]

/-- A statement that begins with an expression; a word may turn out to begin a declaration or to be
a label. -/
def expressionStatement (start : Pos) (decorators : List Node) : Read Node := do
  let expression ← withMembership (read .expression)
  if let .mk (.ident name _) _ _ := expression then
    if ← eatPunct ":" then return ← labelled expression
    if name = "declare" then
      if let some node := ← ambientDeclaration? start decorators then return node
    else if ← pure (name == "global") <&&> isPunct "\x7b" then
      let inner ← namespaceBlock
      return .mk (.namespaceDecl false true) (← spanFrom start) [expression, inner]
    else if let some node := ← typeDeclaration? start decorators name false then return node
  if ← eatStop then return .mk .exprStmt (← spanFrom start) [expression]
  match ← kind? with
  | some (.punct text) =>
    if isBinaryPunct text then
      noteAt (← currentSpan) .semicolon
      let whole ← binaryRest (← get).size 0 expression
      return .mk .exprStmt (← spanFrom start) [whole]
  | _ => pure ()
  failHere .statementEnd

def statementAfter (start : Pos) (decorators : List Node) (declarations : Bool) : Read Node := do
  let startsDeclaration (word : String) : Read Bool := do
    isWord word <&&> nextIs isAnyName <&&> notM lineBreakAhead
  if ← isWord "const" <&&> nextIsWord "enum" then
    bump
    bump
    return ← enumDeclaration start true
  let token ← require
  match token.kind with
  | .punct "\x7b" => return ← read .block
  | .punct ";" =>
    bump
    return .mk .empty (← spanFrom start) []
  | .word text =>
    match text with
    | "break" | "continue" => return ← jump start
    | "debugger" =>
      bump
      expectStop
      return .mk .debugger (← spanFrom start) []
    | "do" => return ← doStatement start
    | "for" => return ← forStatement start
    | "function" =>
      unless declarations do noteAt (← currentSpan) .declarationNotAllowed
      return ← functionDeclaration start false
    | "class" =>
      unless declarations do noteAt (← currentSpan) .declarationNotAllowed
      return ← classDeclaration start decorators false
    | "if" => return ← ifStatement
    | "return" => return ← returnStatement start
    | "switch" => return ← switchStatement start
    | "throw" => return ← throwStatement start
    | "try" => return ← tryStatement start
    | "catch" | "finally" => return ← strayClause
    | "with" => return ← withStatement start
    | "while" => return ← whileStatement start
    | "var" => return ← variableDeclaration false
    | "const" => if declarations then return ← variableDeclaration false
    | "let" => if ← pure declarations <&&> letDeclares then return ← variableDeclaration false
    | "interface" =>
      if ← startsDeclaration text then
        bump
        return ← interfaceDeclaration start
    | "type" =>
      if ← startsDeclaration text then
        bump
        return ← aliasDeclaration start
    | "enum" =>
      if ← startsDeclaration text then
        bump
        return ← enumDeclaration start false
    | "async" =>
      if ← isAsyncFunction then
        bump
        return ← functionDeclaration start true
    | "using" => if ← pure declarations <&&> usingDeclares then return ← usingDeclaration start false
    | "await" =>
      if ← pure declarations <&&> foresee (do bump; usingDeclares) then
        bump
        return ← usingDeclaration start true
    | _ => pure ()
  | _ => pure ()
  expressionStatement start decorators

def statement (declarations : Bool) : Read Node := do
  let start ← pos
  let decorators ← decorators true
  if ← isWord "export" then failHere .moduleItemInside
  if ← isWord "import" then
    let expression ← read .expression
    let _ ← eatPunct ";"
    return .mk .exprStmt (← spanFrom start) [expression]
  statementAfter start decorators declarations

end TsBuild.Script.Grammar
