import TsBuild.Script.Grammar.Pattern

/-!
# Functions

Parameters and bodies, and what both may be followed by.
-/

namespace TsBuild.Script.Grammar

open Read

variable [Descent]

/-- Decorators before what they belong to, which may be an export in some places only. -/
def decorators (allowsExport : Bool) : Read (List Node) := do
  let decorators ← whileM (isPunct "@") (read .decorator)
  if !decorators.isEmpty && !allowsExport && !(← setting).inClass then
    if ← isWord "export" then failHere .exportNotAllowed
  return decorators

-- ---------------------------------------------------------------------------
-- Parameters
-- ---------------------------------------------------------------------------

def parameter : Read Node := do
  let start ← pos
  let decorators ← decorators false
  let pattern ← if ← isPunct "..." then restParameter else parameterPattern
  return .mk .param (← spanFrom start) [.list decorators, pattern]

def isRest (parameter : Node) : Bool := (parameter.child 1).kind matches .rest

def parameterList (parameter : Read Node) : Read (List Node) := do
  let parameters ← loop ([] : List Node) fun parameters => do
    if ← atEnd <||> isPunct ")" then return .inr parameters
    if let some rest := parameters.find? isRest then noteAt (rest.child 1).span .restParameterLast
    let parameter ← parameter
    unless ← isPunct ")" do
      expectPunct ","
      if ← pure (isRest parameter) <&&> isPunct ")" then noteAt (← get).previous .restComma
    return .inl (parameter :: parameters)
  return parameters.reverse

/-- The parameters of a function, of which a leading `this` is only a type. -/
def parameters : Read Node := return .list (← parameterList parameter)

def isThisParameter (parameter : Node) : Bool :=
  match parameter.child 1 with
  | .mk (.binding _) _ (ident :: _) => ident.nameText = "this"
  | _ => false

def checkAccessor (kind : MethodKind) (span : Span) (parameters : List Node) : Read Unit := do
  let count := parameters.countP fun parameter => !isThisParameter parameter
  match kind with
  | .method => pure ()
  | .getter => if count ≠ 0 then noteAt span .getterParameters
  | .setter =>
    if count ≠ 1 then noteAt span .setterParameter
    if let first :: _ := parameters then
      if isRest first then noteAt (first.child 1).span .restInSetter

def constructorParameter : Read Node := do
  let start ← pos
  let decorators ← decorators false
  if ← isPunct "..." then
    let patternStart ← pos
    bump
    let pattern ← bindingPatternWith true
    let type ← typeAnnotation?
    let rest := Node.mk .rest (← spanFrom patternStart) [pattern, type]
    return .mk .param (← spanFrom start) [.list decorators, rest]
  let access ← access?
  let isOverride := (← modifier? ["override"] true).isSome
  let isReadonly := (← modifier? ["readonly"] true).isSome
  let pattern ← parameterPattern
  if access.isNone && !isOverride && !isReadonly then
    return .mk .param (← spanFrom start) [.list decorators, pattern]
  else
    unless pattern.kind matches .binding .. | .defaulted do
      failAt pattern.span .parameterPropertyPattern
    return .mk (.paramProperty { access, isOverride, isReadonly }) (← spanFrom start)
      [.list decorators, pattern]

-- ---------------------------------------------------------------------------
-- Bodies
-- ---------------------------------------------------------------------------

def areSimple (patterns : List Node) : Bool := patterns.all fun pattern => pattern.kind matches .binding ..

/-- Whether all parameters are plain names. A property counts as such. -/
def areSimpleParameters (parameters : List Node) : Bool :=
  parameters.all fun parameter =>
    match parameter.kind with
    | .paramProperty _ => true
    | _ => (parameter.child 1).kind matches .binding ..

/-- Notes a block that makes its code strict where the parameters have been read already. -/
def denyUseStrict (block : Node) : Read Unit := do
  match block.child 0 with
  | .mk .exprStmt span [.mk (.str _ (some raw)) _ _] =>
    if raw = "'use strict'" || raw = "\"use strict\"" then noteAt span .useStrict
  | _ => pure ()

def denyDefaults (parameters : List Node) : Read Unit := do
  for parameter in parameters do
    if (parameter.child 1).kind matches .defaulted then
      noteAt (parameter.child 1).span .initializerWithoutBody

def bodySetting (isAsync isGenerator isArrow : Bool) (setting : Setting) : Setting :=
  { setting with
    isAsync
    isGenerator
    inFunction := true
    inPlainFunction := setting.inPlainFunction || !isArrow
    inParameters := false
    inStaticBlock := setting.inStaticBlock && isArrow
    mayBreak := false
    mayContinue := false
    awaitsColon := false
    inConditional := setting.inConditional && isArrow
    membership := setting.membership || !isArrow }

/-- A reading in the body of a function, where no label outside can be jumped to. -/
def inBody {α : Type} (isAsync isGenerator isArrow : Bool) (inner : Read α) : Read α := do
  let setting ← setting
  if ← pure setting.isAmbient <&&> isPunct "\x7b" then noteAt (← currentSpan) .implementationInAmbient
  let saved := (← get).labels
  let arrowStart := (← get).arrowStart
  modify fun s => { s with labels := [], arrowStart := none }
  let a ← within (bodySetting isAsync isGenerator isArrow) inner
  modify fun s => { s with labels := saved, arrowStart }
  return a

def functionBody (isAsync isGenerator isSimple : Bool) : Read Node :=
  inBody isAsync isGenerator false do
    if ← notM (isPunct "\x7b") <&&> eatStop then return .absent
    let block ← withMembership (read .block)
    unless isSimple do denyUseStrict block
    return block

def arrowBody (isAsync isSimple : Bool) : Read Node :=
  inBody isAsync false true do
    if ← isPunct "\x7b" then
      let block ← read .block
      unless isSimple do denyUseStrict block
      return block
    else read .assignment

def functionRest (start : Pos) (name : Node) (isAsync isGenerator : Bool)
    (checkParameters : List Node → Read Unit := fun _ => pure ()) : Read Node :=
  let inside (setting : Setting) : Setting :=
    { setting with isAsync, isGenerator, awaitsColon := false, inClassField := false }
  within inside do
    let types ← typeParameters? .function
    expectPunct "("
    let parameters ←
      within (fun setting => { setting with inParameters := true, inFunction := false }) do
        let parameters ← parameterList parameter
        checkParameters parameters
        return parameters
    expectPunct ")"
    let result ← if ← isPunct ":" then returnType ":" else pure .absent
    let body ← functionBody isAsync isGenerator (areSimpleParameters parameters)
    if body.isAbsent then denyDefaults parameters
    return .mk (.function isAsync isGenerator) (← spanFrom start)
      [name, .list parameters, body, types, result]

def functionHere (start : Pos) (isAsync isStatement needsName : Bool) : Read Node := do
  expectWord "function"
  let isGenerator ← eatPunct "*"
  let inside := fun (setting : Setting) =>
    if isStatement then setting else { setting with isAsync, isGenerator }
  let name ← within inside do
    if needsName then bindingIdentifier true
    else if ← isVariable then bindingIdentifier true
    else pure .absent
  let function ← functionRest start name isAsync isGenerator
  if !isStatement && (function.child 2).isAbsent then failUnexpected "\x7b"
  return function

def isAsyncFunction : Read Bool := do
  if ← isWord "async" <&&> nextIsWord "function" then return !(← lineBreakAhead)
  else return false

end TsBuild.Script.Grammar
