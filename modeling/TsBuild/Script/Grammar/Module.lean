import TsBuild.Script.Grammar.Statement

/-!
# Imports, exports and whole modules
-/

namespace TsBuild.Script.Grammar

open Read

variable [Descent]

-- ---------------------------------------------------------------------------
-- Imports
-- ---------------------------------------------------------------------------

def attributes : Read Node := do
  if ← notM afterLineBreak <&&> (eatWord "assert" <||> eatWord "with") then objectLiteral
  else return .absent

def moduleName : Read Node := do
  match (← require).kind with
  | .str .. => stringHere
  | .word .. => wordHere
  | _ => failUnexpected "identifier or string"

def importSpecifier (typeOnly : Bool) : Read Node := do
  let start ← pos
  let first ← moduleName
  let named (span : Span) (isType : Bool) (binding imported : Node) : Node :=
    .mk (.importNamed isType) span [binding, imported]
  if first.kind matches .str .. then
    if ← eatWord "as" then
      let binding ← bindingIdentifier true
      return named ⟨start, binding.hi⟩ false binding first
    else failAt first.span (.stringImportBinding first.nameText)
  let noteType : Read Unit := if typeOnly then noteAt first.span .typeOnNamedImport else pure ()
  let plain (isType : Bool) (imported : Node) : Read Node := do
    if ← eatWord "as" then
      let binding ← bindingIdentifier true
      return named ⟨start, binding.hi⟩ isType binding imported
    return named (← spanFrom start) isType imported .absent
  if ← pure (first.nameText == "type") <&&> isName then
    let second ← wordHere
    if second.nameText = "as" then
      if !(← isName) then
        noteType
        return named (← spanFrom start) true second .absent
      let third ← bindingIdentifier true
      if third.nameText = "as" then
        if ← isName then
          let binding ← bindingIdentifier true
          noteType
          return named ⟨start, first.hi⟩ true binding second
        else return named ⟨start, third.hi⟩ false third first
      else return named ⟨start, first.hi⟩ false third first
    else
      noteType
      plain true second
  else plain false first

def importEquals (start : Pos) (name : Node) (isExport typeOnly : Bool) : Read Node := do
  expectPunct "="
  let target ←
    if ← isWord "require" <&&> nextIsPunct "(" then do
      let targetStart ← pos
      bump
      bump
      let source ← stringHere
      expectPunct ")"
      pure (Node.mk .externalModule (← spanFrom targetStart) [source])
    else entityName
  expectStop
  return .mk (.importEquals isExport typeOnly) (← spanFrom start) [name, target]

structure ImportHead where
  typeOnly : Bool := false
  phase : ImportPhase := .evaluation
  specifiers : List Node := []

/-- The head of an import that begins with a name, or what the name is set to. The name may turn
out to say what is imported: types, or another phase of the module. -/
def importHead (start : Pos) : Read (Sum Node ImportHead) := do
  let first ← bindingIdentifier true
  let isType := first.nameText == "type"
  if ← pure isType <&&> isOneOf ["*", "\x7b"] then return .inr { typeOnly := true }
  let (typeOnly, binding) ←
    if ← pure isType <&&> isVariable then do
      if ← notM (isWord "from") <||> nextIsWord "from" then pure (true, ← bindingIdentifier true)
      else if ← nextIsPunct "=" then pure (true, ← wordHere)
      else pure (false, first)
    else pure (false, first)
  if ← isPunct "=" then return .inl (← importEquals start binding false typeOnly)
  let (phase, binding) ← do
    match ImportPhase.ofWord? binding.nameText with
    | none => pure (.evaluation, binding)
    | some phase =>
      if ← isOneOf ["*", "\x7b"] then return .inr { typeOnly, phase }
      if ← isVariable <&&> notM (isWord "from") <||> nextIsWord "from" then
        pure (phase, ← bindingIdentifier true)
      else pure (.evaluation, binding)
  unless ← isWord "from" do expectPunct ","
  return .inr { typeOnly, phase, specifiers := [.mk .importDefault binding.span [binding]] }

def importDeclaration (start : Pos) : Read Node := do
  bump
  if ← atEnd then
    let _ ← require
  if ← isString then
    let source ← stringHere
    let attributes ← attributes
    let _ ← eatStop
    return .mk (.importDecl false .evaluation) (← spanFrom start) [source, attributes]
  match ← if ← isVariable then importHead start else pure (.inr {}) with
  | .inl node => return node
  | .inr head =>
    let specifierStart ← pos
    let more ←
      if ← eatPunct "*" then do
        expectWord "as"
        let binding ← bindingIdentifier true
        pure [Node.mk .importAll (← spanFrom specifierStart) [binding]]
      else if ← eatPunct "\x7b" then do
        let specifiers ← commaSeparated (isPunct "\x7d") (importSpecifier head.typeOnly)
        expectPunct "\x7d"
        pure specifiers
      else pure []
    expectWord "from"
    let source ← stringHere
    let attributes ← attributes
    expectStop
    return .mk (.importDecl head.typeOnly head.phase) (← spanFrom start)
      (source :: attributes :: (head.specifiers ++ more))

-- ---------------------------------------------------------------------------
-- Exports
-- ---------------------------------------------------------------------------

def exportSpecifier (typeOnly : Bool) : Read Node := do
  let start ← pos
  let first ← moduleName
  let specifier (span : Span) (isType : Bool) (inner outer : Node) : Node :=
    .mk (.exportSpecifier isType) span [inner, outer]
  if ← pure (first.nameText = "type" && (first.kind matches .ident ..)) <&&> isName then
    let second ← moduleName
    if second.nameText = "as" then
      if !(← isName) then return specifier (← spanFrom start) true second .absent
      let third ← moduleName
      if ← pure (third.nameText == "as") <&&> isName then
        let outer ← moduleName
        return specifier (← spanFrom start) true second outer
      else return specifier (← spanFrom start) false first third
    if typeOnly then noteAt first.span .typeOnNamedExport
    let outer ← if ← eatWord "as" then moduleName else pure .absent
    return specifier (← spanFrom start) true second outer
  let outer ← if ← eatWord "as" then moduleName else pure .absent
  return specifier (← spanFrom start) false first outer

def fromClause : Read (Node × Node) := do
  expectWord "from"
  let source ← stringHere
  let attributes ← attributes
  let _ ← eatStop
  return (source, attributes)

/-- Decorators behind `export`, which may stand there only if none stand before it. -/
def laterDecorators (before : List Node) : Read (List Node) := do
  unless ← isPunct "@" do return before
  let start ← pos
  let decorators ← decorators false
  unless before.isEmpty do failAt (← spanFrom start) .decoratorsTwice
  return decorators

def exportDefault (start : Pos) (decorators : List Node) : Read Node := do
  let node (declaration : Node) : Read Node := do
    return .mk .exportDefaultDecl (← spanFrom start) [declaration]
  let decorators ← laterDecorators decorators
  if ← isWord "abstract" <&&> nextIsWord "interface" then
    noteAt (← currentSpan) .abstractModifier
    bump
  let declarationStart ← pos
  if ← isWord "abstract" <&&> nextIsWord "class" <&&> notM lineBreakAhead then
    bump
    return ← node (← classHere declarationStart decorators false true)
  if ← isWord "interface" <&&> nextIs isAnyName then
    bump
    return ← node (← interfaceDeclaration declarationStart)
  if ← isWord "class" then
    return ← node (← classHere declarationStart decorators false false)
  if ← isAsyncFunction then
    bump
    return ← node (← functionHere declarationStart true true false)
  if ← isWord "function" then
    return ← node (← functionHere declarationStart false true false)
  let expression ← withMembership (read .assignment)
  expectStop
  return .mk .exportDefaultExpr (← spanFrom start) [expression]

def exportNames (start : Pos) (typeOnly : Bool) : Read Node := do
  expectPunct "\x7b"
  let specifiers ← commaSeparated (isPunct "\x7d") (exportSpecifier typeOnly)
  expectPunct "\x7d"
  let (source, attributes) ←
    if ← isWord "from" then fromClause
    else do
      for specifier in specifiers do
        let name := specifier.child 0
        match name.kind with
        | .str .. => noteAt name.span .stringExportBinding
        | _ =>
          if isReserved name.nameText then noteAt name.span (.exportNeedsFrom name.nameText)
      let _ ← eatStop
      pure (.absent, .absent)
  return .mk (.exportNamed typeOnly) (← spanFrom start) (source :: attributes :: specifiers)

def exportDeclaration (decorators : List Node) : Read Node := do
  let start ← pos
  bump
  let _ ← require
  let node (declaration : Node) : Read Node := do
    return .mk .exportDecl (← spanFrom start) [declaration]
  let declarationStart ← pos
  if ← eatWord "declare" then
    if let some declaration := ← ambientDeclaration? declarationStart decorators then
      return ← node declaration
  if let some (.word text) := ← kind? then
    let here ← pos
    if let some declaration := ← attempt (typeDeclaration? here decorators text true) then
      return ← node declaration
  if ← eatWord "import" then
    let typeOnly ← isWord "type" <&&> nextIs isAnyName
    if typeOnly then bump
    let name ← wordHere
    return ← importEquals start name true typeOnly
  if ← eatPunct "=" then
    let expression ← withMembership (read .expression)
    expectStop
    return .mk .exportAssign (← spanFrom start) [expression]
  if ← eatWord "as" then
    expectWord "namespace"
    let name ← identifier true
    expectStop
    return .mk .namespaceExport (← spanFrom start) [name]
  let specifierStart ← pos
  let typeOnly ←
    if ← isWord "type" <&&> (nextIsPunct "\x7b" <||> nextIsPunct "*") then do
      bump
      pure true
    else pure false
  if !typeOnly then
    if ← eatWord "default" then return ← exportDefault start decorators
  let decorators ← laterDecorators decorators
  if !typeOnly then
    let here ← pos
    if ← isWord "class" then return ← node (← classDeclaration here decorators false)
    if ← isAsyncFunction then
      bump
      return ← node (← functionDeclaration here true)
    if ← isWord "function" then return ← node (← functionDeclaration here false)
    if ← isWord "const" <&&> nextIsWord "enum" then
      bump
      bump
      return ← node (← enumDeclaration here true)
    if ← isAnyWord ["var", "const"] <||> (isWord "let" <&&> letDeclares) then
      return ← node (← variableDeclaration false)
  if ← isPunct "*" then
    let specifierStart ← if typeOnly then pos else pure specifierStart
    bump
    if ← eatWord "as" then
      let name ← moduleName
      let specifier := Node.mk .exportNamespace (← spanFrom specifierStart) [name]
      let (source, attributes) ← fromClause
      return .mk (.exportNamed typeOnly) (← spanFrom start) [source, attributes, specifier]
    let (source, attributes) ← fromClause
    return .mk (.exportAll typeOnly) (← spanFrom start) [source, attributes]
  exportNames start typeOnly

-- ---------------------------------------------------------------------------
-- Items and modules
-- ---------------------------------------------------------------------------

def moduleItem : Read Node := do
  let start ← pos
  let decorators ← decorators true
  if ← isWord "import" then
    if ← nextIsPunct "(" <||> nextIsPunct "." then
      let expression ← withMembership (read .expression)
      let _ ← eatStop
      return .mk .exprStmt (← spanFrom start) [expression]
    importDeclaration start
  else if ← isWord "export" then exportDeclaration decorators
  else statementAfter start decorators true

def module : Read Node := do
  let start ← pos
  let shebang ← do
    match ← kind? with
    | some (.shebang text) =>
      bump
      pure (some text)
    | _ => pure none
  let items ← whileM (return !(← atEnd)) (read .moduleItem)
  return .mk (.module shebang) (← spanFrom start) items

-- ---------------------------------------------------------------------------
-- Reading
-- ---------------------------------------------------------------------------

def readBy : Goal → Read Node
  | .assignment => assignment
  | .expression => expression
  | .unary => unary
  | .leftHandSide => leftHandSide
  | .member => memberOrNew
  | .type => type
  | .operatorType => operatorType
  | .bindingPattern => bindingPatternWith true
  | .parameters => parameters
  | .statement declarations => statement declarations
  | .moduleItem => moduleItem
  | .block => block
  | .decorator => decorator
  | .jsxElement => jsxElement
  | .ifStatement => ifStatement
  | .namespaceTail => do namespaceRest (← pos)

def readWithin : Nat → Goal → Read Node
  | 0 => fun _ => do failHere .depth
  | depth + 1 => @readBy ⟨readWithin depth⟩

end TsBuild.Script.Grammar
