import TsBuild.Script.Grammar.Reading

/-!
# Types

Of a type only what later readers ask about is kept: keywords, unions, parentheses, and the values
in it, such as computed keys. All other forms are read for their extent.
-/

namespace TsBuild.Script.Grammar

open Read

variable [Descent]

-- ---------------------------------------------------------------------------
-- Names
-- ---------------------------------------------------------------------------

def nameHere : Read Node := do
  match ← require with
  | ⟨.word text, span, _⟩ =>
    bump
    return .mk (.name text) span []
  | _ => failHere .expectedIdent

def wordHere : Read Node := do
  let node ← nameHere
  return node.withKind (.ident node.nameText 0)

def stringHere : Read Node := do
  match ← require with
  | ⟨.str value raw, span, _⟩ =>
    bump
    return .mk (.str value (some raw)) span []
  | _ => failUnexpected "a string literal"

def entityName : Read Node := do
  let start ← pos
  let first ← wordHere
  loop first fun entity => do
    if ← eatPunct "." then
      let right ← nameHere
      return .inl (.mk .qualified (← spanFrom start) [entity, right])
    else return .inr entity

-- ---------------------------------------------------------------------------
-- Modifiers
-- ---------------------------------------------------------------------------

def canFollowModifier : Read Bool := do
  bump
  if ← afterLineBreak then return false
  isKind fun
    | .word .. | .str .. | .num .. => true
    | .punct text => ["[", "\x7b", "*", "...", "#"].contains text
    | _ => false

/-- One of some modifiers. A class member that begins with `static \{` has none. -/
def modifier? (allowed : List String) (beforeBlock : Bool) : Read (Option String) := do
  match ← kind? with
  | some (.word text) =>
    if !allowed.contains text || (isKeyword text && text ≠ "in" && text ≠ "const") then return none
    if ← pure (!beforeBlock && text = "static") <&&> nextIsPunct "\x7b" then return none
    attempt do
      if ← canFollowModifier then return some text else return none
  | _ => return none

def parameterModifiers : List String := ["public", "protected", "private", "readonly"]

def eatModifier : Read Bool := do
  let found ← isAnyWord parameterModifiers <&&> nextIs fun
    | .word .. => true
    | .punct text => text = "\x7b" || text = "["
    | _ => false
  if found then
    let _ ← modifier? parameterModifiers true
  return found

def access? : Read (Option Accessibility) := do
  match ← modifier? ["public", "protected", "private"] true with
  | some "public" => return some .isPublic
  | some "protected" => return some .isProtected
  | some "private" => return some .isPrivate
  | _ => return none

-- ---------------------------------------------------------------------------
-- Annotations and parameters of types
-- ---------------------------------------------------------------------------

def typeHere : Read Node := read .type

def other (start : Pos) (children : List Node) : Read Node := do
  return .mk .typeOther (← spanFrom start) children

def typeBehind (token : Read Bool) : Read (List Node) := do
  if ← token then return [← typeHere] else return []

def typeAnnotation? : Read Node := do
  if ← isPunct ":" then inType do
    bump
    typeHere
  else return .absent

/-- A type behind a colon or arrow, which may also say what the function asserts. -/
def returnType (token : String) : Read Node := inType do
  let start ← pos
  expectPunct token
  let asserts ← do
    if ← isWord "asserts" then nextIs fun kind =>
      (kind matches .word ..) && !(isKnownKeyword kind)
    else pure false
  if asserts then bump
  let isPredicate ← isVariable <&&> nextIsWord "is" <&&> notM lineBreakAhead
  if !asserts && !isPredicate then typeHere
  else
    let _ ← nameHere
    other start (← typeBehind (eatWord "is"))
where
  isKnownKeyword : TokenKind → Bool
    | .word text => isKnownWord text && text ≠ "this"
    | _ => false

def anyTypes {α : Type} (inner : Read α) : Read α :=
  within (fun setting => { setting with plainTypes := false }) inner

/-- Leaves the second half of a shift as the current token. -/
def cutShift : Read Unit :=
  modify fun s =>
    match s.current with
    | some (some token) =>
      { s with current := some (some ⟨.punct "<", ⟨token.span.lo + 1, token.span.hi⟩, false⟩) }
    | _ => s

def typeArguments : Read Node := anyTypes do
  let start ← pos
  let arguments ← inType do
    outsideTags do
      if ← isPunct "<<" then cutShift else expectPunct "<"
      itemsBefore (isPunct ">") typeHere
  modify fun s => { s with lexer := { s.lexer with operandAllowed := false } }
  expectPunct ">"
  if arguments.isEmpty then noteAt (← spanFrom start) .emptyTypeArguments
  other start arguments

def typeArguments? : Read (List Node) := do
  if ← isPunct "<" then return [← typeArguments] else return []

inductive TypeScope
  | classLike
  | type
  | function
  deriving DecidableEq, Repr

def TypeScope.fault? (scope : TypeScope) (before : List String) (modifier : String) : Option Cause :=
  match modifier with
  | "const" => if scope = .type then some (.typeParameterModifierOfFunction modifier) else none
  | "in" | "out" =>
    if scope = .function then some (.typeParameterModifierOfType modifier)
    else if before.contains modifier then some (.modifierTwice modifier)
    else if modifier = "in" && before.contains "out" then some (.modifierOrder modifier "out")
    else none
  | _ => some (.typeParameterModifier modifier)

def typeParameter (scope : TypeScope) : Read Node := do
  let start ← pos
  loop ([] : List String) fun before => do
    match ← modifier?
        ["public", "private", "protected", "readonly", "abstract", "const", "override", "in", "out"]
        true with
    | some modifier =>
      if let some cause := scope.fault? before modifier then noteAt (← get).previous cause
      return .inl (modifier :: before)
    | none => return .inr ()
  let _ ← nameHere
  let bound ← typeBehind (eatWord "extends")
  other start (bound ++ (← typeBehind (eatPunct "=")))

def typeParameters (scope : TypeScope) : Read Node := inType do
  outsideTags do
    let start ← pos
    unless ← isKind fun kind => kind.isPunct "<" || kind matches .jsxTagStart do
      failUnexpected "< (jsx tag start)"
    bump
    let parameters ← itemsBefore (isPunct ">") (typeParameter scope)
    expectPunct ">"
    if parameters.isEmpty then noteAt (← spanFrom start) .emptyTypeParameters
    other start parameters

def typeParameters? (scope : TypeScope) : Read Node := do
  if ← inType (isPunct "<") then typeParameters scope else return .absent

-- ---------------------------------------------------------------------------
-- Members of object types
-- ---------------------------------------------------------------------------

def endTypeMember : Read Unit := do
  unless ← eatPunct "," do expectStop

def isIndexSignature : Read Bool := do
  if ← isPunct "[" then
    foresee do
      bump
      unless ← eat isAnyName do return false
      isOneOf [":", ","]
  else return false

def indexSignature (start : Pos) : Read Node := do
  expectPunct "["
  let name ← nameHere
  if ← eatPunct "," then noteAt name.span .indexParameters else expectPunct ":"
  let key ← inType typeHere
  expectPunct "]"
  let type ← typeAnnotation?
  endTypeMember
  return .mk .indexSignature (← spanFrom start) [key, type]

def propertyKey : Read Node :=
  within (fun setting => { setting with inKey := true }) do
    let start ← pos
    let token ← require
    match token.kind with
    | .word text =>
      bump
      return .mk (.name text) token.span []
    | .str value raw =>
      bump
      return .mk (.str value (some raw)) token.span []
    | .num value raw =>
      bump
      return .mk (.num value (some raw)) token.span []
    | .bigint raw =>
      bump
      return .mk (.bigint raw) token.span []
    | .punct "[" =>
      bump
      let innerStart ← pos
      let first ← withMembership (read .assignment)
      let expression ←
        if ← isPunct "," then do
          let rest ← whileM (eatPunct ",") (withMembership (read .assignment))
          let span ← spanFrom innerStart
          noteAt span .commaInKey
          pure (Node.mk .seq span (first :: rest))
        else pure first
      expectPunct "]"
      return .mk .computed (← spanFrom start) [expression]
    | _ =>
      failUnexpected "identifier, string literal, numeric literal or [ for the computed key"

def privateName : Read Node := do
  let start ← pos
  expectPunct "#"
  let hash ← spanFrom start
  if (← pos) ≠ hash.hi then failAt hash .spaceAfterHash
  let name ← nameHere
  return .mk (.privateName name.nameText) (← spanFrom start) []

def signatureKey : Read Node := do
  if ← eatPunct "[" then
    let key ← read .assignment
    expectPunct "]"
    return key
  else within (fun setting => { setting with inKey := true }) do
    match (← require).kind with
    | .num .. | .str .. => read .member
    | .punct "#" =>
      let name ← privateName
      noteAt name.span .privateInInterface
      return name
    | _ => nameHere

/-- Parameters of what has no body, up to their closing parenthesis: none has a default. -/
def signatureParameters : Read (List Node) := do
  let parameters ← read .parameters
  for parameter in parameters.children do
    if (parameter.child 1).kind matches .defaulted then
      failUnexpected <|
        "an identifier, [ for an array pattern, \x7b for an object patter or ... for a rest pattern"
  expectPunct ")"
  return parameters.children

def signature : Read (List Node) := do
  let types ← typeParameters? .function
  expectPunct "("
  let parameters ← signatureParameters
  let result ← if ← isPunct ":" then returnType ":" else pure .absent
  endTypeMember
  return parameters ++ [result, types]

def typeMember : Read Node := do
  let start ← pos
  if ← isOneOf ["(", "<"] then return ← other start (← signature)
  if ← isWord "new" then
    if ← nextIsPunct "(" <||> nextIsPunct "<" then
      bump
      return ← other start (← signature)
  let isReadonly := (← modifier? ["readonly"] true).isSome
  if ← isIndexSignature then return ← indexSignature start
  let accessor ← attempt (α := Node) do
    if isReadonly then return none
    let isGetter ← eatWord "get"
    unless isGetter do expectWord "set"
    let key ← signatureKey
    expectPunct "("
    let rest ←
      if isGetter then do
        expectPunct ")"
        pure [← typeAnnotation?]
      else signatureParameters
    if !isGetter && rest.isEmpty then return none
    endTypeMember
    return some (← other start (key :: rest))
  if let some node := accessor then return node
  let key ← signatureKey
  let _ ← eatPunct "?"
  if ← isOneOf ["(", "<"] then
    if isReadonly then failHere .readonlyMethod
    other start (key :: (← signature))
  else
    let type ← typeAnnotation?
    endTypeMember
    other start [key, type]

def typeMembers : Read (List Node) := anyTypes do
  expectPunct "\x7b"
  let members ← whileM (return !(← isPunct "\x7d")) typeMember
  expectPunct "\x7d"
  return members

-- ---------------------------------------------------------------------------
-- Forms of types
-- ---------------------------------------------------------------------------

def isFunctionType : Read Bool := do
  if ← isPunct "<" then return true
  if !(← isPunct "(") then return false
  foresee do
    bump
    if ← isOneOf [")", "..."] then return true
    let _ ← eatModifier
    if ← isName then bump
    else if ← isOneOf ["\x7b", "["] then
      let _ ← read .bindingPattern
    else return false
    if ← isOneOf [":", ",", "?", "="] then return true
    if ← eatPunct ")" then isPunct "=>" else return false

def functionType (isConstructor : Bool) : Read Node := do
  let start ← pos
  if isConstructor then
    let _ ← eatWord "abstract"
    expectWord "new"
  let types ← typeParameters? .function
  expectPunct "("
  let parameters ← signatureParameters
  let result ← returnType "=>"
  other start (parameters ++ [types, result])

def isMappedType : Read Bool := foresee do
  bump
  if ← eatPunct "+" <||> eatPunct "-" then return ← isWord "readonly"
  let _ ← eatWord "readonly"
  unless ← eatPunct "[" do return false
  unless ← eat isAnyName do return false
  isWord "in"

def mappedType : Read Node := do
  let start ← pos
  expectPunct "\x7b"
  if ← eatPunct "+" <||> eatPunct "-" then expectWord "readonly"
  else
    let _ ← eatWord "readonly"
  expectPunct "["
  let _ ← nameHere
  expectWord "in"
  let keys ← typeHere
  let renamed ← typeBehind (eatWord "as")
  expectPunct "]"
  if ← eatPunct "+" <||> eatPunct "-" then expectPunct "?"
  else
    let _ ← eatPunct "?"
  let type ← typeAnnotation?
  let _ ← eatStop
  expectPunct "\x7d"
  other start (keys :: renamed ++ [type])

/-- Whether an element of a tuple has to be there. One with a label counts as such. -/
inductive TupleElement
  | required
  | optional
  | rest
  deriving DecidableEq, Repr

def tupleElement : Read (TupleElement × Node) := do
  let _ ← attempt (α := Unit) do
    let _ ← eatPunct "..."
    unless ← isName do return none
    bump
    let _ ← eatPunct "?"
    if ← eatPunct ":" then return some () else return none
  let isRest ← eatPunct "..."
  let type ← typeHere
  if isRest then return (.rest, type)
  else if ← eatPunct "?" then return (.optional, type)
  else return (.required, type)

def tupleType : Read Node := do
  let start ← pos
  bump
  let elements ← anyTypes (itemsBefore (isPunct "]") tupleElement)
  expectPunct "]"
  if ((elements.map Prod.fst).dropWhile (· ≠ .optional)).contains .required then
    failAt (← spanFrom start) .requiredAfterOptional
  other start (elements.map Prod.snd)

def importType : Read Node := do
  let start ← pos
  bump
  expectPunct "("
  let source ←
    if ← isString then stringHere
    else
      let span := (← require).span
      bump
      noteAt span .importTypeSource
      pure .absent
  let attributes ← if ← eatPunct "," <&&> isPunct "\x7b" then read .assignment else pure .absent
  expectPunct ")"
  if ← eatPunct "." then
    let _ ← entityName
  other start ([source, attributes] ++ (← typeArguments?))

def typeReference : Read Node := do
  let start ← pos
  let _ ← entityName
  if ← notM afterLineBreak <&&> (isPunct "<" <||> isPunct "<<") then other start [← typeArguments]
  else other start []

def keywordType? : String → Option Keyword
  | "any" => some .any
  | "unknown" => some .unknown
  | "number" => some .number
  | "object" => some .object
  | "boolean" => some .boolean
  | "bigint" => some .bigint
  | "string" => some .string
  | "symbol" => some .symbol
  | "void" => some .void
  | "undefined" => some .undefined
  | "null" => some .null
  | "never" => some .never
  | "intrinsic" => some .intrinsic
  | _ => none

def templateType : Read Node := do
  let start ← pos
  bump
  let quasi : Read Bool := do
    match ← require with
    | ⟨.template _ _ fault?, _, _⟩ =>
      bump
      if let some fault := fault? then throw fault
      isPunct "`"
    | _ => failUnexpected "template token"
  let types ← loop ([] : List Node) fun types => do
    if ← quasi then
      expectPunct "`"
      return .inr types.reverse
    else
      expectPunct "$\x7b"
      let type ← typeHere
      expectPunct "\x7d"
      return .inl (type :: types)
  other start types

def wrongType {α : Type} : Read α :=
  failUnexpected <|
    "an identifier, void, yield, null, await, break, a string literal, a numeric literal, true, " ++
      "false, `, -, import, this, typeof, \x7b, [, ("

def primaryType : Read Node := do
  let start ← pos
  let token ← require
  match token.kind with
  | .str .. | .num .. | .bigint .. =>
    bump
    other start []
  | .word text =>
    match keywordType? text with
    | some keyword =>
      if ← nextIsPunct "." then typeReference
      else
        bump
        return .mk (.keyword keyword) token.span []
    | none =>
      if text = "true" || text = "false" then
        bump
        other start []
      else if text = "import" then importType
      else if text = "this" then
        bump
        other start (← typeBehind (notM afterLineBreak <&&> eatWord "is"))
      else if text = "typeof" then
        bump
        let named ←
          if ← isWord "import" then pure [← importType]
          else do
            let _ ← entityName
            pure []
        other start (named ++ (← if ← afterLineBreak then pure [] else typeArguments?))
      else if ← pure (text == "asserts") <&&> nextIsWord "this" then
        bump
        bump
        other start (← typeBehind (eatWord "is"))
      else if isKeyword text && !(["yield", "await", "break"].contains text) then wrongType
      else typeReference
  | .punct "`" => templateType
  | .punct "-" =>
    bump
    match (← require).kind with
    | .num .. | .bigint .. =>
      bump
      other start []
    | _ => failUnexpected "numeric literal or bigint literal"
  | .punct "\x7b" =>
    if ← isMappedType then mappedType else other start (← typeMembers)
  | .punct "[" => tupleType
  | .punct "(" =>
    bump
    let inner ← anyTypes typeHere
    expectPunct ")"
    return .mk .typeParen (← spanFrom start) [inner]
  | _ => wrongType

def arrayType : Read Node := do
  let start ← pos
  let element ← primaryType
  loop element fun type => do
    if ← afterLineBreak <||> notM (eatPunct "[") then return .inr type
    if ← eatPunct "]" then return .inl (← other start [type])
    let index ← anyTypes typeHere
    expectPunct "]"
    return .inl (← other start [type, index])

def operatorType : Read Node := do
  let start ← pos
  if ← isAnyWord ["keyof", "unique", "readonly"] then
    let isName ← nextIs fun
      | .punct text => [",", ")", "]", "\x7d", ";", "=", ">", "|", "&", "."].contains text
      | _ => false
    if ← pure isName <||> (return (← peek).isNone) then arrayType
    else
      bump
      let type ← read .operatorType
      other start [type]
  else if ← isWord "infer" then
    bump
    let _ ← nameHere
    let bound ← attempt (α := Node) do
      unless ← eatWord "extends" do return none
      let bound ← within (fun setting => { setting with plainTypes := true }) typeHere
      if ← notM (return (← setting).plainTypes) <&&> isPunct "?" then return none
      return some bound
    other start bound.toList
  else arrayType

def joinedTypes (operator : String) (kind : Kind) (constituent : Read Node) : Read Node := do
  let start ← pos
  let _ ← eatPunct operator
  let first ← constituent
  if ← isPunct operator then
    let more ← whileM (eatPunct operator) constituent
    return .mk kind (← spanFrom start) (first :: more)
  else return first

def unionType : Read Node :=
  joinedTypes "|" .union (joinedTypes "&" .typeOther operatorType)

def plainType : Read Node := do
  if ← isFunctionType then functionType false
  else if ← isWord "new" then functionType true
  else if ← isWord "abstract" <&&> nextIsWord "new" then functionType true
  else unionType

def type : Read Node := inType do
  let start ← pos
  let checked ← plainType
  if ← afterLineBreak <||> (return (← setting).plainTypes) <||> notM (eatWord "extends") then return checked
  let bound ← within (fun setting => { setting with plainTypes := true }) plainType
  expectPunct "?"
  let first ← typeHere
  expectPunct ":"
  let second ← typeHere
  other start [checked, bound, first, second]

end TsBuild.Script.Grammar
