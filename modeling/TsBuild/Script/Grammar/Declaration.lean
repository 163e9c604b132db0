import TsBuild.Script.Grammar.Expression

/-!
# Declarations

Variables, and the declarations of types: interfaces, aliases, enumerations and namespaces.
-/

namespace TsBuild.Script.Grammar

open Read

variable [Descent]

-- ---------------------------------------------------------------------------
-- Variables
-- ---------------------------------------------------------------------------

/-- A variable with its type and first value. In the head of a loop no value is needed. -/
def declarator (kind : VarKind) (inLoop : Bool) : Read Node := do
  let start ← pos
  let pattern ← bindingPatternWith (kind = .hoisted)
  let isDefinite ← if pattern.kind matches .binding .. then eatPunct "!" else pure false
  let type ← typeAnnotation?
  let pattern := annotate pattern type false
  if ← pure inLoop <&&> (isWord "in" <||> isWord "of") then
    return .mk (.declarator isDefinite) (← spanFrom start) [pattern, .absent]
  let value ←
    if ← eatPunct "=" then read .assignment
    else do
      if !(← setting).isAmbient then
        if kind = .constant && !inLoop then noteAt (← spanFrom start) .constWithoutValue
        else if !(pattern.kind matches .binding ..) then
          failAt (← spanFrom start) .patternWithoutValue
      pure .absent
  return .mk (.declarator isDefinite) (← spanFrom start) [pattern, value]

def skipToStop : Read Unit := do
  let _ ← optionally (read .expression)
  loop () fun _ => do
    if ← eatStop then return .inr ()
    bump
    if ← isKind (fun kind => kind matches .error ..) then return .inr ()
    return .inl ()

def startsIteration : Read Bool := do
  if ← isAnyWord ["of", "in"] then
    foresee do
      bump
      let _ ← read .assignment
      isPunct ")"
  else return false

def variableDeclaration (inLoop : Bool) : Read Node := do
  let start ← pos
  let kind ←
    if ← eatWord "var" then pure VarKind.hoisted
    else if ← eatWord "let" then pure VarKind.lexical
    else do
      expectWord "const"
      pure VarKind.constant
  let keyword ← spanFrom start
  if ← pure inLoop <&&> startsIteration then
    noteAt ⟨keyword.hi, keyword.hi⟩ .emptyDeclarators
    return .mk (.varDecl kind false) keyword []
  let item := declarator kind inLoop
  let item := if kind ≠ .hoisted || !inLoop then withMembership item else item
  let declarators ← loop ([] : List Node) fun declarators => do
    if ← atEnd <||> isPunct ";" then
      let previous := (← get).previous
      noteAt (if previous = keyword then ⟨keyword.hi, keyword.hi⟩ else previous) .trailingComma
      return .inr declarators
    let declarators := (← item) :: declarators
    if ← eatPunct "," then return .inl declarators else return .inr declarators
  if ← pure !inLoop <&&> notM eatStop then
    noteAt (← currentSpan) .semicolon
    skipToStop
  return .mk (.varDecl kind false) (← spanFrom start) declarators.reverse

/-- Whether `using` begins a declaration: a name has to follow on the same line. -/
def usingDeclares : Read Bool :=
  isWord "using" <&&> nextIs namesVariable <&&> notM lineBreakAhead

def usingDeclaration (start : Pos) (isAwait : Bool) : Read Node := do
  expectWord "using"
  let declarators ← loop ([] : List Node) fun declarators => do
    if ← atEnd <||> isPunct ";" then
      noteAt (← get).previous .trailingComma
      return .inr declarators.reverse
    let declarators := (← withMembership (declarator .hoisted false)) :: declarators
    if ← eatPunct "," then return .inl declarators else return .inr declarators.reverse
  let span ← spanFrom start
  for declarator in declarators do
    unless (declarator.child 0).kind matches .binding .. do noteAt span .usingPattern
    if (declarator.child 1).isAbsent then noteAt span .usingWithoutValue
  let _ ← eatStop
  return .mk (.usingDecl isAwait) span declarators

def letDeclares : Read Bool := nextIs fun
  | .word text => !isKnownWord text || ["let", "yield", "await"].contains text
  | .punct text => text = "\x7b" || text = "["
  | _ => false

-- ---------------------------------------------------------------------------
-- Functions and classes
-- ---------------------------------------------------------------------------

def functionDeclaration (start : Pos) (isAsync : Bool) : Read Node := do
  let function ← functionHere start isAsync true true
  return .mk (.functionDecl false) function.span [function]

def classDeclaration (start : Pos) (decorators : List Node) (isAbstract : Bool) : Read Node := do
  let node ← classHere start decorators true isAbstract
  return .mk .classDecl node.span [node]

-- ---------------------------------------------------------------------------
-- Types
-- ---------------------------------------------------------------------------

def interfaceDeclaration (start : Pos) : Read Node := do
  let name ← wordHere
  if isTypeName name.nameText then noteAt name.span .invalidInterfaceName
  let types ← typeParameters? .type
  let bases ← if ← eatWord "extends" then heritage else pure []
  if ← isWord "extends" then
    noteAt (← currentSpan) .extendsTwice
    loop () fun _ => do
      if ← atEnd <||> isPunct "\x7b" then return .inr ()
      bump
      return .inl ()
  let members ← inType typeMembers
  return .mk .interface (← spanFrom start) (name :: types :: bases ++ members)

def aliasDeclaration (start : Pos) : Read Node := do
  let name ← wordHere
  let types ← typeParameters? .type
  inType (expectPunct "=")
  let type ← inType (read .type)
  expectStop
  return .mk .typeAlias (← spanFrom start) [name, types, type]

def enumMemberName (start : Pos) : Read Node := do
  let token ← require
  match token.kind with
  | .str value raw =>
    bump
    return .mk (.str value (some raw)) token.span []
  | .num value raw =>
    bump
    noteAt token.span .numericEnumMember
    return .mk (.str value.text (some raw)) token.span []
  | .punct "[" =>
    bump
    let _ ← read .expression
    noteAt (← spanFrom start) .computedEnumMember
    expectPunct "]"
    return .mk (.name "") token.span []
  | _ => nameHere

/-- A member of an enumeration. What stands where a value or a comma should is taken for a comma. -/
def enumMember : Read Node := do
  let start ← pos
  let name ← enumMemberName start
  let value ←
    if ← eatPunct "=" then withMembership (read .assignment)
    else do
      unless ← isOneOf [",", "\x7d"] do
        let stray ← pos
        bump
        modify fun s => { s with current := some (some ⟨.punct ",", s.previous, false⟩) }
        noteAt ⟨stray, stray⟩ .semicolon
      pure .absent
  return .mk .enumMember (← spanFrom start) [name, value]

/-- Members up to the closing brace. A missing comma is noted. -/
def enumMembers : Read (List Node) := do
  let members ← loop ([] : List Node) fun members => do
    if ← isPunct "\x7d" then return .inr members
    let members := (← enumMember) :: members
    unless ← eatPunct "," <||> isPunct "\x7d" do
      let got ← if ← atEnd then pure "EOF" else shown
      noteAt (← currentSpan) (.expected "," got)
    return .inl members
  return members.reverse

def enumDeclaration (start : Pos) (isConst : Bool) : Read Node := do
  let name ← wordHere
  expectPunct "\x7b"
  let members ← enumMembers
  expectPunct "\x7d"
  return .mk (.enum isConst false) (← spanFrom start) (name :: members)

-- ---------------------------------------------------------------------------
-- Namespaces
-- ---------------------------------------------------------------------------

def namespaceBlock : Read Node := do
  let start ← pos
  expectPunct "\x7b"
  let items ← loop ([] : List Node) fun items => do
    if ← isPunct "\x7d" then
      bump
      return .inr items
    if ← atEnd then
      noteAt (← currentSpan) (.expected "\x7d" "<eof>")
      return .inr items
    return .inl ((← read .moduleItem) :: items)
  return .mk .block (← spanFrom start) items.reverse

/-- A namespace from its name on; dots stand for namespaces within. -/
def namespaceRest (start : Pos) : Read Node := do
  let name ← wordHere
  let body ← if ← eatPunct "." then read .namespaceTail else namespaceBlock
  return .mk (.namespaceDecl false false) (← spanFrom start) [name, body]

def ambientModule (start : Pos) : Read Node := do
  let isGlobal ← isWord "global"
  let name ←
    if isGlobal then wordHere
    else if ← isString then stringHere
    else failUnexpected "global or a string literal"
  let body ←
    if ← isPunct "\x7b" then namespaceBlock
    else do
      expectStop
      pure .absent
  return .mk (.namespaceDecl false isGlobal) (← spanFrom start) [name, body]

-- ---------------------------------------------------------------------------
-- Declarations that begin with a plain word
-- ---------------------------------------------------------------------------

def declared (start : Pos) (node : Node) : Node :=
  let span : Span := ⟨start, node.hi⟩
  match node with
  | .mk (.varDecl kind _) _ children => .mk (.varDecl kind true) span children
  | .mk (.functionDecl _) _ children => .mk (.functionDecl true) span children
  | .mk .classDecl _ [.mk (.classLike isAbstract _) _ children] =>
    .mk .classDecl span [.mk (.classLike isAbstract true) span children]
  | .mk (.enum isConst _) _ children => .mk (.enum isConst true) span children
  | .mk (.namespaceDecl _ isGlobal) _ children => .mk (.namespaceDecl true isGlobal) span children
  | node => node

/-- The declaration that a word begins; none when it begins another kind of statement. The word is
the current token if `isNext`, and the one before otherwise. -/
def typeDeclaration? (start : Pos) (decorators : List Node) (word : String) (isNext : Bool) :
    Read (Option Node) := do
  let step : Read Unit := if isNext then bump else pure ()
  let onVariable : Read Bool := if isNext then pure true else isVariable
  match word with
  | "abstract" =>
    if ← pure isNext <||> (isWord "class" <&&> notM afterLineBreak) then
      step
      return some (← classDeclaration start decorators true)
    else return none
  | "enum" =>
    if ← onVariable then
      step
      return some (← enumDeclaration start false)
    else return none
  | "interface" =>
    if ← onVariable then
      step
      return some (← interfaceDeclaration start)
    else return none
  | "module" =>
    if ← pure isNext <||> notM afterLineBreak then
      step
      if ← isString then return some (← ambientModule start)
      else if ← pure isNext <||> isVariable then return some (← namespaceRest start)
      else return none
    else return none
  | "namespace" =>
    if ← onVariable then
      step
      return some (← namespaceRest start)
    else return none
  | "type" =>
    if ← pure isNext <||> (notM afterLineBreak <&&> isVariable) then
      step
      return some (← aliasDeclaration start)
    else return none
  | _ => return none

def ambientDeclaration? (start : Pos) (decorators : List Node) : Read (Option Node) := do
  let setting ← setting
  if setting.isAmbient && !setting.isDeclarationFile then
    noteAt (← spanFrom start) .declareInAmbient
  let found ← within (fun setting => { setting with isAmbient := true }) do
    if ← isWord "function" then return some (← functionDeclaration start false)
    if ← isWord "class" then return some (← classDeclaration start decorators false)
    if ← isWord "const" <&&> nextIsWord "enum" then
      bump
      bump
      return some (← enumDeclaration start true)
    if ← isAnyWord ["const", "var", "let"] then return some (← variableDeclaration false)
    if ← isWord "global" then return some (← ambientModule start)
    match ← kind? with
    | some (.word text) => typeDeclaration? start decorators text true
    | _ => return none
  return found.map (declared start)

end TsBuild.Script.Grammar
