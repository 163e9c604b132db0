import TsBuild.Script.Grammar.Class
import TsBuild.Script.Grammar.Jsx

/-!
# Expressions

From the operand up to the assignment. Arrow functions are found where a parenthesis or a name
turns out to be followed by an arrow.
-/

namespace TsBuild.Script.Grammar

open Read

variable [Descent]

-- ---------------------------------------------------------------------------
-- Parts of expressions
-- ---------------------------------------------------------------------------

def spreadOrAssignment : Read Node := do
  let start ← pos
  if ← eatPunct "..." then
    let inner ← withMembership (read .assignment)
    return .mk .spread (← spanFrom start) [inner]
  else withMembership (read .assignment)

def callArguments : Read Node :=
  within (fun setting => { setting with awaitsColon := false }) do
    expectPunct "("
    let arguments ← loop ([] : List Node) fun arguments => do
      if ← isPunct ")" then return .inr arguments
      let arguments := (← spreadOrAssignment) :: arguments
      unless ← isPunct ")" do expectPunct ","
      return .inl arguments
    expectPunct ")"
    return .list arguments.reverse

def arrayLiteral : Read Node := do
  let start ← pos
  bump
  let elements ← loop ([] : List Node) fun elements => do
    if ← atEnd <||> isPunct "]" then return .inr elements
    if ← eatPunct "," then return .inl (.absent :: elements)
    let elements := (← spreadOrAssignment) :: elements
    unless ← isPunct "]" do
      expectPunct ","
      if ← isPunct "]" then keepLastComma start
    return .inl elements
  expectPunct "]"
  return .mk .array (← spanFrom start) elements.reverse

/-- One part of a template; a wrong escape is a fault unless there is a tag. -/
def templateQuasi (isTagged : Bool) : Read Node := do
  let start ← pos
  match ← require with
  | ⟨.template raw cooked fault?, _, _⟩ =>
    bump
    if let some fault := fault? then
      unless isTagged do throw fault
    return .mk (.quasi raw cooked) (← spanFrom start) []
  | _ => failUnexpected "template token"

def templateLiteral (isTagged : Bool) : Read Node :=
  within (fun setting => { setting with awaitsColon := false }) do
    let start ← pos
    bump
    let first ← templateQuasi isTagged
    let parts ← loop [first] fun parts => do
      if ← isPunct "`" then return .inr parts
      expectPunct "$\x7b"
      let expression ← withMembership (read .expression)
      expectPunct "\x7d"
      let quasi ← templateQuasi isTagged
      return .inl (quasi :: expression :: parts)
    expectPunct "`"
    return .mk .template (← spanFrom start) parts.reverse

def taggedTemplate (tag : Node) (types : List Node) : Read Node := do
  let template ← templateLiteral true
  let span ← spanFrom tag.lo
  if tag.kind matches .optional _ then noteAt span .taggedInChain
  return .mk .tagged span ([tag, template] ++ types)

-- ---------------------------------------------------------------------------
-- Objects
-- ---------------------------------------------------------------------------

def objectMethod (start : Pos) (kind : MethodKind) (isAsync isGenerator : Bool) (key : Node) :
    Read Node := do
  let function ← functionRest start .absent isAsync isGenerator (checkAccessor kind key.span)
  if kind = .setter && (function.child 1).children.isEmpty then noteAt key.span .setterParameter
  return .mk (.method kind) (← spanFrom start) [key, function]

def canFollowKey (key : Node) : Read Bool := do
  if ← isPunct "\x7d" then return key.kind matches .name _
  isKind fun
    | .word .. | .str .. | .num .. | .bigint .. => true
    | .punct text => ["(", "[", ":", ",", "?", "=", "*", "<"].contains text
    | _ => false

/-- A property behind its name: a short one, or a method with the name as its modifier. -/
def namedProperty (start : Pos) (modifier? : Option Span) (key : Node) : Read Node := do
  let text := key.nameText
  if ← eatPunct "?" then noteAt (← get).previous .optionalMember
  if ← isOneOf ["=", ",", "\x7d"] then
    let ident := key.withKind (.ident text 0)
    if ← eatPunct "=" then
      let value ← withMembership (read .assignment)
      return .mk .assignProp (← spanFrom start) [ident, value]
    else return ident
  if text = "get" || text = "set" || text = "async" then
    if let some span := modifier? then noteAt span .asyncModifier
    let isGenerator ← if text = "async" then eatPunct "*" else pure false
    let key ← propertyKey
    let kind : MethodKind :=
      if text = "get" then .getter else if text = "set" then .setter else .method
    objectMethod start kind (text = "async") isGenerator key
  else
    failUnexpected <|
      "... , *,  (, [, :, , ?, =, an identifier, public, protected, private, readonly, <."

def objectProperty : Read Node := do
  let start ← pos
  if ← eatPunct "..." then
    let inner ← withMembership (read .assignment)
    return .mk .spread (← spanFrom start) [inner]
  if ← eatPunct "*" then
    let key ← propertyKey
    return ← objectMethod start .method false true key
  let modifier? ← if ← eatModifier then pure (some (← get).previous) else pure none
  let key ← propertyKey
  unless ← canFollowKey key do
    noteAt (← currentSpan) .semicolon
    return .mk .keyValue (← spanFrom start) [key, .absent]
  if ← eatPunct ":" then
    let value ← withMembership (read .assignment)
    return .mk .keyValue ⟨key.lo, value.hi⟩ [key, value]
  if ← isMethodHere then return ← objectMethod start .method false false key
  if key.kind matches .name _ then namedProperty start modifier? key
  else failUnexpected "identifier"

def objectLiteral : Read Node :=
  within (fun setting => { setting with awaitsColon := false }) do
    let start ← pos
    bump
    let properties ← loop ([] : List Node) fun properties => do
      if ← eatPunct "\x7d" then return .inr properties
      let properties := (← objectProperty) :: properties
      unless ← isPunct "\x7d" do
        expectPunct ","
        if ← isPunct "\x7d" then keepLastComma start
      return .inl properties
    return .mk .object (← spanFrom start) properties.reverse

-- ---------------------------------------------------------------------------
-- Arrow functions
-- ---------------------------------------------------------------------------

def arrowFunction (start : Pos) (isAsync : Bool) (parameters : List Node) (result : Node := .absent)
    (types : Node := .absent) : Read Node := do
  let body ← arrowBody isAsync (areSimple parameters)
  return .mk (.arrow isAsync) (← spanFrom start) [.list parameters, body, types, result]

def isPattern (node : Node) : Bool :=
  match node.kind with
  | .binding .. | .arrayPattern .. | .objectPattern .. | .defaulted | .rest => true
  | _ => false

def finishAssignment (start : Pos) (left : Node) : Read Node := do
  match ← kind? with
  | some (.punct operator) =>
    if !isAssignPunct operator then return left
    let target ←
      if operator = "=" then do
        let pattern ← toPattern .target left
        if isPattern pattern || isTargetKind pattern then pure pattern
        else failAt left.span .invalidTarget
      else do
        unless isSimpleTarget left do
          noteAt left.span .notAssignable
          if isStrictName left then noteStrict left.span .argumentsAssigned
        if isTargetKind left then pure left else failAt left.span .invalidTarget
    bump
    let right ← read .assignment
    return .mk (.assign operator) (← spanFrom start) [target, right]
  | _ => return left
where
  isTargetKind (node : Node) : Bool :=
    match node.kind with
    | .ascribed .asConst => false
    | .ident .. | .member | .optional .. | .paren | .ascribed .. => true
    | _ => false

def conditionalRest (start : Pos) (test : Node) : Read Node := do
  let consequent ← within
    (fun setting =>
      { setting with inConditional := true, awaitsColon := true, membership := true })
    (read .assignment)
  expectPunct ":"
  let alternate ← within
    (fun setting => { setting with inConditional := true, awaitsColon := false })
    (read .assignment)
  return .mk .cond ⟨start, alternate.hi⟩ [test, consequent, alternate]

def binaryOperator? : Read (Option BinaryOp) := do
  match ← kind? with
  | some (.word "in") => return if (← setting).membership then some .membership else none
  | some (.word "instanceof") => return some .instanceOf
  | some (.punct text) =>
    return BinaryOp.all.find? fun op => op.text = text && isBinaryPunct text
  | _ => return none

/-- Types said of an operand behind it. What `as` says is said of all operands joined by operators
that bind tighter than `in`, what `satisfies` says only of the last of them. -/
def ascriptions (minimum : Nat) (left : Node) : Read Node :=
  loop left fun left => do
    if ← afterLineBreak then return .inr left
    if ← pure (decide (minimum < BinaryOp.membership.precedence)) <&&> isWord "as" then
      if ← nextIsWord "const" then
        bump
        bump
        return .inl (.mk (.ascribed .asConst) (← spanFrom left.lo) [left, .absent])
      bump
      let type ← inType (read .type)
      return .inl (.mk (.ascribed .as) (← spanFrom left.lo) [left, type])
    if ← isWord "satisfies" then
      bump
      let type ← inType (read .type)
      return .inl (.mk (.ascribed .satisfies) (← spanFrom left.lo) [left, type])
    return .inr left

def isLogical (node : Node) : Bool :=
  node.kind matches .binary .and | .binary .or

def noteMixed (node : Node) : Read Unit := do
  if isLogical node then
    if (node.child 0).kind matches .binary .coalesce then
      noteAt node.span .mixedCoalescing

/-- Operands joined by operators that bind tighter than `minimum`. The right operand of an operator
is read with its precedence as the minimum; how deep that goes is bounded by `depth`. -/
def binaryRest : Nat → Nat → Node → Read Node
  | 0, _, left => return left
  | depth + 1, minimum, left =>
    loop left fun left => do
      let left ← ascriptions minimum left
      match ← binaryOperator? with
      | none =>
        noteMixed left
        return .inr left
      | some op =>
        if op.precedence ≤ minimum then
          noteMixed left
          return .inr left
        bump
        if op = .power && (left.kind matches .unary .. | .await) then failHere .unaryBase
        let right ← binaryRest depth (if op = .power then op.precedence - 1 else op.precedence)
          (← read .unary)
        if op = .coalesce then
          if isLogical left then noteAt left.span .mixedCoalescing
          if isLogical right then noteAt right.span .mixedCoalescing
        let node := Node.mk (.binary op) ⟨left.lo, right.hi⟩ [left, right]
        noteMixed node
        return .inl node

def isArrowHere (node : Node) : Read Bool := do
  match node.kind with
  | .arrow .. => return (← get).arrowStart = some node.lo
  | _ => return false

def binary : Read Node := do
  let first ← fun s =>
    match read .unary s with
    | .ok node after => .ok node after
    | .error fault after => recover fault after
  if ← isArrowHere first then return first
  binaryRest (← get).size 0 first
where
  /-- A missing operand before an operator is noted, and the reading goes on. -/
  recover (fault : Fault) : Read Node := do
    match ← kind? with
    | some (.word text) =>
      if ← pure (text == "instanceof") <||> (pure (text == "in") <&&> (return (← setting).membership)) then missing fault
      else throw fault
    | some (.punct text) => if isBinaryPunct text then missing fault else throw fault
    | _ => throw fault
  missing (fault : Fault) : Read Node := do
    noteAt (← currentSpan) .expression
    return .mk .absent fault.span []

def conditional : Read Node := do
  let start ← pos
  let test ← binary
  if ← isArrowHere test then return test
  if ← eatPunct "?" then conditionalRest start test else return test

-- ---------------------------------------------------------------------------
-- Parentheses
-- ---------------------------------------------------------------------------

def parenthesized : Read Node := do
  let start ← pos
  modify fun s => { s with arrowStart := some start }
  let hasModifier ← eatModifier
  let patternStart ← pos
  let isNamed ←
    if ← isVariable then pure true
    else if ← isPunct "..." then nextIs namesVariable
    else pure false
  let item ←
    if !isNamed then spreadOrAssignment
    else if ← eatPunct "..." then do
      let inner ← withMembership binary
      pure (Node.mk .spread (← spanFrom patternStart) [inner])
    else do
      let expression ← binary
      finishAssignment start expression
  let isSpread := item.kind matches .spread
  let (item, isOptional) ←
    if ← isPunct "?" then do
      let isOptional ← nextIs fun
        | .punct text => [",", "=", ":", ")"].contains text
        | _ => false
      if isOptional then
        bump
        if isSpread then noteAt (← get).previous .restOptional
        let inner := if isSpread then item.child 0 else item
        unless inner.kind matches .ident .. do failAt item.span .optionalPattern
        pure (item, true)
      else if isSpread then pure (item, false)
      else
        bump
        pure (← conditionalRest start item, false)
    else pure (item, false)
  let item ←
    if ← pure isOptional <||> isPunct ":" then do
      let inner := if isSpread then item.child 0 else item
      let pattern ← toPattern .bound inner
      let hasType := pattern.kind matches .binding .. | .arrayPattern .. | .objectPattern ..
      let type ← if hasType then typeAnnotation? else pure .absent
      let pattern :=
        if isSpread then Node.mk .rest ⟨item.lo, max pattern.hi type.hi⟩ [pattern, type]
        else annotate pattern type isOptional
      if ← eatPunct "=" then
        let value ← read .assignment
        pure (Node.mk .defaulted (← spanFrom patternStart) [pattern, value])
      else pure pattern
    else pure item
  if hasModifier then noteAt (← spanFrom start) .parameterPropertyOutside
  return item

def parenthesizedItems : Read (List Node × Option Span) := do
  expectPunct "("
  let (items, comma?) ← loop (([], none) : List Node × Option Span) fun (items, comma?) => do
    if ← atEnd <||> isPunct ")" then return .inr (items, comma?)
    let start ← pos
    let items := items ++ [← parenthesized]
    let items ← if ← eatPunct "=>" then strayArrow start items else pure items
    if ← isPunct ")" then return .inl (items, comma?)
    expectPunct ","
    let comma? ← if ← isPunct ")" then pure (some (← get).previous) else pure comma?
    return .inl (items, comma?)
  expectPunct ")"
  return (items, comma?)
where
  /-- An arrow behind an item stands for a function of the items so far if the first is a name. -/
  strayArrow (start : Pos) (items : List Node) : Read (List Node) := do
    let first := items.headD .absent
    let first := if first.kind matches .spread then first.child 0 else first
    if first.kind matches .ident .. | .binding .. then
      let arrow ← arrowFunction start false (← toParameters none items)
      return items ++ [arrow]
    else return items

def noteShorthandValues (item : Node) : Read Unit := do
  let object := if item.kind matches .spread then item.child 0 else item
  if object.kind matches .object then
    for property in object.children do
      if property.kind matches .assignProp then noteAt property.span .shorthandValue

/-- Parentheses around expressions, the arguments of a call to `async`, or the parameters of an
arrow function. -/
def parenthesesOrArrow (mayBeArrow : Bool) (asyncSpan : Option Span) : Read Node := do
  let start ← match asyncSpan with
    | some span => pure span.lo
    | none => pos
  let isAsync := asyncSpan.isSome
  let outer ← setting
  let (items, comma?) ← within
    (fun setting => { setting with awaitsColon := false, membership := true }) parenthesizedItems
  if ← pure outer.inConditional <&&> isPunct ":" then
    let arrow ← attempt (α := Node) do
      let result ← returnType ":"
      expectPunct "=>"
      let parameters ← toParameters none items
      let arrow ← arrowFunction start isAsync parameters result
      if ← pure outer.awaitsColon <&&> notM (isPunct ":") then failUnexpected "fail"
      return some arrow
    if let some arrow := arrow then return arrow
  let result? ←
    if ← pure !outer.awaitsColon <&&> isPunct ":" then
      attempt do
        let result ← returnType ":"
        if ← isPunct "=>" then return some result else return none
    else pure none
  if ← pure (items.any isPattern || result?.isSome) <||> isPunct "=>" then
    if ← afterLineBreak then failAt (← spanFrom start) .lineBreakBeforeArrow
    if !mayBeArrow then failAt (← spanFrom start) .arrowNotAllowed
    expectPunct "=>"
    let parameters ← toParameters comma? items
    let arrow ← arrowFunction start isAsync parameters (result?.getD .absent)
    if ← pure ((arrow.child 1).kind matches .block) <&&> isKind isOperator then
      noteAt (← currentSpan) .semicolon
      return ← binaryRest (← get).size 0 arrow
    return arrow
  for item in items do noteShorthandValues item
  match asyncSpan, items with
  | some span, items =>
    return .mk .call (← spanFrom span.lo) [.mk (.ident "async" 0) span [], .list items]
  | none, [] => failAt (← spanFrom start) .emptyParens
  | none, [item] =>
    if item.kind matches .spread then failAt (item.child 0).span .spreadInParens
    return .mk .paren (← spanFrom start) [item]
  | none, first :: rest =>
    if let some spread := items.find? (·.kind matches .spread) then
      failAt (spread.child 0).span .spreadInParens
    let stop := (rest.getLast?.getD first).hi
    return .mk .paren (← spanFrom start) [.mk .seq ⟨first.lo, stop⟩ (first :: rest)]
where
  isOperator : TokenKind → Bool
    | .punct text => isBinaryPunct text
    | _ => false

-- ---------------------------------------------------------------------------
-- Operands
-- ---------------------------------------------------------------------------

def genericAsyncArrow? (start : Pos) : Read (Option Node) := do
  let head ← attempt (α := List Node × Node × Node) do
    let types ← typeParameters .function
    expectPunct "("
    let parameters ← parameterList parameter
    expectPunct ")"
    let result ← if ← isPunct ":" then returnType ":" else pure .absent
    expectPunct "=>"
    return some (parameters.map (·.child 1), result, types)
  match head with
  | some (parameters, result, types) => return some (← arrowFunction start true parameters result types)
  | none => return none

def checkRegexFlags (span : Span) (flags : List Char) : Read Unit := do
  let (known, unknown) := flags.partition "dgimsuvy".toList.contains
  unless unknown.isEmpty do noteAt span .unknownRegexFlags
  if let some flag := known.find? fun flag => known.count flag > 1 then
    noteAt span (.duplicateRegexFlag flag)

/-- A regular expression, read again from the slash it begins with. What was noted since then
stays noted. -/
def regexHere : Read Node := do
  modify fun s =>
    let (token, lexer) := s.mark.nextRegex
    let lexer := { lexer with faults := s.lexer.faults, quiet := s.lexer.quiet }
    { s with current := some token, lexer, ahead := none }
  match ← require with
  | ⟨.regex pattern flags, span, _⟩ =>
    bump
    checkRegexFlags span flags.toList
    return .mk (.regex pattern flags) span []
  | _ => failHere .expression

def variableOrArrow (mayBeArrow : Bool) : Read Node := do
  let start ← pos
  let setting ← setting
  let ident ← identifier (!setting.isGenerator)
  if ← pure (mayBeArrow && ident.nameText = "async") <&&> notM afterLineBreak <&&> isVariable then
    if ← pure setting.inLoopHead <&&> isWord "of" <&&> notM (nextIsPunct "=>") then
      unless setting.inAwaitLoopHead do noteAt (← get).previous .forOfAsync
      return ident
    let parameter ← bindingIdentifier true
    if ← pure (parameter.nameText == "as") <&&> notM (isPunct "=>") then
      let type ← inType (read .type)
      return .mk (.ascribed .as) (← spanFrom start) [ident, type]
    expectPunct "=>"
    arrowFunction start true [binding parameter]
  else if ← pure mayBeArrow <&&> notM afterLineBreak <&&> eatPunct "=>" then
    arrowFunction start false [binding ident]
  else return ident

def primary : Read Node := do
  let start ← pos
  let mayBeArrow : Bool := (← get).arrowStart = some start
  let literal (kind : Kind) : Read Node := do
    bump
    return .mk kind (← spanFrom start) []
  match ← kind? with
  | some (.num value raw) => literal (.num value (some raw))
  | some (.bigint raw) => literal (.bigint raw)
  | some (.str value raw) => literal (.str value (some raw))
  | some (.punct "[") => arrayLiteral
  | some (.punct "\x7b") => objectLiteral
  | some (.punct "`") => templateLiteral false
  | some (.punct "(") => parenthesesOrArrow mayBeArrow none
  | some (.punct "/") => regexHere
  | some (.punct "/=") => regexHere
  | some (.punct "#") => privateName
  | some (.punct "@") =>
    let decorators ← decorators false
    classHere start decorators false false
  | some (.word "this") => literal .this
  | some (.word "null") => literal .null
  | some (.word "true") => literal (.bool true)
  | some (.word "false") => literal (.bool false)
  | some (.word "function") => functionHere start false false false
  | some (.word "class") => classHere start [] false false
  | some (.word "async") =>
    if ← isAsyncFunction then
      bump
      return ← functionHere start true false false
    if ← pure mayBeArrow <&&> (nextIsPunct "<" <||> nextIs isTagStart) then
      let arrow ← attempt (α := Node) do
        bump
        genericAsyncArrow? start
      if let some arrow := arrow then return arrow
    if ← pure mayBeArrow <&&> nextIsPunct "(" <&&> notM lineBreakAhead then
      bump
      return ← parenthesesOrArrow mayBeArrow (some (← get).previous)
    variableOrArrow mayBeArrow
  | some (.word text) =>
    if text = "let" || text = "await" || !isReservedInModule text then variableOrArrow mayBeArrow
    else if isStrictReserved text then variableOrArrow mayBeArrow
    else failHere .expression
  | _ => failHere .expression

def isChain : Node → Bool
  | .mk (.optional _) _ _ => true
  | .mk (.ascribed .nonNull) _ (inner :: _) => isChain inner
  | _ => false

/-- Whether type arguments found behind an operand stand for themselves there. -/
def endsInstantiation : Read Bool := do
  if ← isOneOf ["<", ">", "<<", ">>", ">>>", "+", "-", "(", "`"] then return false
  if ← afterLineBreak then return true
  match ← kind? with
  | some (.punct text) =>
    return isBinaryPunct text || !(["!", "[", "\x7b", "++", "--", "~", "#", "@"].contains text)
  | some (.word text) =>
    return !(startsOperand text)
  | some (.str ..) | some (.num ..) | some (.bigint ..) | some .jsxTagStart => return false
  | _ => return true
where
  startsOperand (text : String) : Bool :=
    !isKeyword text ||
      ["await", "function", "throw", "new", "this", "super", "class", "import", "yield", "typeof",
        "void", "delete", "let"].contains text

def instantiation? : Read (Option Node) := do
  if !(← isPunct "<") then return none
  attempt do
    let arguments ← typeArguments
    if ← endsInstantiation then return some arguments else return none

/-- Whether a node is an operand by itself; `super` and `import` need a step behind them. -/
def isOperand (node : Node) : Bool := !(node.kind matches .super | .importCallee _)

def failSuper {α : Type} (allowsCalls : Bool) : Read α := do
  let _ ← current
  failHere (if allowsCalls then .superAccess else .superCall)

abbrev Stepped := Node × Bool

/-- A step that begins with type arguments: a generic arrow function, a call or a template. Before
`=` and `as` the type arguments stand for themselves. -/
def genericStep? (allowsCalls : Bool) (object : Node) : Read (Option Stepped) :=
  attempt do
    let start := object.lo
    let isAsync := (object.kind matches .ident "async" _) && allowsCalls
    if isAsync then
      if let some arrow := ← genericAsyncArrow? start then return some (arrow, true)
    let types ← typeArguments
    if ← pure allowsCalls <&&> isPunct "(" then
      let arguments ← callArguments
      let call := Node.mk .call (← spanFrom start) [object, arguments, types]
      if isChain object then return some (.mk (.optional false) call.span [call], true)
      else return some (call, true)
    else if ← isPunct "`" then return some (← taggedTemplate object [types], true)
    else if ← isPunct "=" <||> isWord "as" then
      return some (.mk (.ascribed .instantiation) (← spanFrom start) [object, types], false)
    else return none

def instantiated (start : Pos) (operand : Node) : Read Node := do
  match ← instantiation? with
  | some types => return .mk (.ascribed .instantiation) (← spanFrom start) [operand, types]
  | none => return operand

/-- One more step behind an operand: a property, a call, a template. The operand stays as it is
when there is none. -/
def step (allowsCalls allowsBrackets : Bool) (object : Node) : Read Stepped := do
  let start := object.lo
  let isSuper := object.kind matches .super
  let broken ← afterLineBreak
  if ← pure !broken <&&> isPunct "!" then
    modify fun s => { s with lexer := { s.lexer with operandAllowed := false } }
    bump
    unless isOperand object do
      failHere (.nonNullOfKeyword (if isSuper then "super" else "import"))
    return (.mk (.ascribed .nonNull) (← spanFrom start) [object, .absent], true)
  if ← pure (isOperand object) <&&> isPunct "<" then
    if let some stepped := ← genericStep? allowsCalls object then return stepped
  let isStop ←
    if ← isPunct "?" <&&> nextIsPunct "." then do
      bump
      pure true
    else pure false
  let link (node : Node) : Node :=
    if isStop || isChain object then .mk (.optional isStop) node.span [node] else node
  let opensBracket ←
    if isStop then
      if ← isPunct "." <&&> nextIsPunct "[" then do
        bump
        pure true
      else pure false
    else pure allowsBrackets <&&> isPunct "["
  if opensBracket then
    let bracket ← pos
    expectPunct "["
    let property ← withMembership (read .expression)
    expectPunct "]"
    let span ← spanFrom start
    let key := Node.mk .computed (← spanFrom bracket) [property]
    if isSuper && isStop then failSuper allowsCalls
    return (← instantiated start (link (.mk .member span [object, key])), true)
  let opensCall ←
    if isStop then
      if ← isPunct "." <&&> (nextIsPunct "(" <||> nextIsPunct "<") then do
        bump
        pure true
      else pure false
    else pure allowsCalls <&&> isPunct "("
  if opensCall then
    let types ← typeArguments?
    let arguments ← callArguments
    if isStop && !isOperand object then failHere .superCallOptional
    return (link (.mk .call (← spanFrom start) ([object, arguments] ++ types)), true)
  if ← eatPunct "." then
    let property ← if ← isPunct "#" then privateName else nameHere
    let span ← spanFrom start
    if isSuper && isStop then failSuper allowsCalls
    if isSuper && (property.kind matches .privateName _) then failSuper false
    return (← instantiated start (link (.mk .member span [object, property])), true)
  if isSuper then failSuper allowsCalls
  unless isOperand object do failHere .importNotAllowed
  if ← isPunct "`" then return (← taggedTemplate object [], true)
  return (object, false)

def suffixes (allowsCalls allowsBrackets : Bool) (object : Node) : Read Node :=
  loop object fun object => do
    let (node, goesOn) ← step allowsCalls allowsBrackets object
    if goesOn then return .inl node else return .inr node

def importRest (start : Pos) (allowsCalls : Bool) : Read Node := do
  let span ← spanFrom start
  if ← eatPunct "." then
    let name ← nameHere
    if name.nameText = "meta" then
      suffixes allowsCalls true (.mk .importMeta (← spanFrom start) [])
    else if name.nameText = "source" then
      suffixes allowsCalls true (.mk (.importCallee .source) (← spanFrom start) [])
    else failUnexpected "meta"
  else suffixes allowsCalls true (.mk (.importCallee .evaluation) span [])

def memberOrNew : Read Node := do
  let start ← pos
  if ← eatWord "new" then
    if ← eatPunct "." then
      unless ← eatWord "target" do failUnexpected "target"
      let span ← spanFrom start
      let setting ← setting
      unless setting.inPlainFunction || setting.inParameters || setting.inClass do
        noteAt span .newTargetOutside
      return ← suffixes false true (.mk .newTarget span [])
    let callee ← read .member
    if callee.kind matches .optional .. then failAt callee.span .constructorInChain
    let types ←
      if ← isPunct "<" then
        attempt do
          let types ← typeArguments
          if ← isPunct "(" then return some types else return none
      else pure none
    if ← isPunct "(" then
      let arguments ← callArguments
      let node := Node.mk .new (← spanFrom start) ([callee, arguments] ++ types.toList)
      return ← suffixes false true node
    return .mk .new (← spanFrom start) [callee, .absent]
  if ← eatWord "super" then
    return ← suffixes false true (.mk .super (← spanFrom start) [])
  if ← eatWord "import" then return ← importRest start false
  let operand ← primary
  if ← isArrowHere operand then return operand
  suffixes false true (← instantiated start operand)

def leftHandSide : Read Node := do
  let start ← pos
  if (← get).lexer.jsx then
    match (← require).kind with
    | .jsxTagStart => return ← read .jsxElement
    | .jsxText value raw =>
      bump
      return .mk (.jsxText value raw) (← spanFrom start) []
    | .punct "<" =>
      if !(← nextIsPunct "!") then return ← read .jsxElement
    | _ => pure ()
  if ← eatWord "super" then
    return ← suffixes true true (.mk .super (← spanFrom start) [])
  if ← eatWord "import" then return ← importRest start true
  let callee ← memberOrNew
  if ← isArrowHere callee then return callee
  let types ←
    if ← isPunct "<" then
      attempt do
        let types ← typeArguments
        if ← isPunct "(" then return some types else return none
    else pure none
  if ← isPunct "(" then
    let arguments ← callArguments
    let call := Node.mk .call (← spanFrom start) ([callee, arguments] ++ types.toList)
    let call := if isChain callee then Node.mk (.optional false) call.span [call] else call
    return ← suffixes true true call
  if types.isSome then expectPunct "("
  return callee

-- ---------------------------------------------------------------------------
-- Operators before and behind operands
-- ---------------------------------------------------------------------------

def unaryOperator? : TokenKind → Option UnaryOp
  | .word "delete" => some .delete
  | .word "void" => some .void
  | .word "typeof" => some .typeof
  | .punct "+" => some .plus
  | .punct "-" => some .minus
  | .punct "~" => some .tilde
  | .punct "!" => some .not
  | _ => none

def awaitExpression : Read Node := do
  let start ← pos
  bump
  let span ← spanFrom start
  if ← isPunct "*" then failHere .awaitStar
  let setting ← setting
  if ← pure !setting.isAsync <&&> isOneOf [")", "]", ";", ","] then
    noteAt span .awaitAsIdent
    return .mk (.ident "await" 0) span []
  if setting.inFunction && !setting.isAsync then noteAt span .awaitInFunction
  if setting.inParameters && !setting.inFunction then noteAt span .awaitInParameters
  let inner ← read .unary
  return .mk .await (← spanFrom start) [inner]

def unary : Read Node := do
  let start ← pos
  if ← notM (return (← get).lexer.jsx) <&&> eatPunct "<" then
    if ← eatWord "const" then
      expectPunct ">"
      let inner ← read .unary
      return .mk (.ascribed .asConst) (← spanFrom start) [inner, .absent]
    let type ← inType (read .type)
    expectPunct ">"
    let inner ← read .unary
    return .mk (.ascribed .angle) (← spanFrom start) [inner, type]
  if ← isOneOf ["++", "--"] then
    let isIncrement ← isPunct "++"
    bump
    let inner ← read .unary
    checkTarget inner false
    return .mk (.update isIncrement true) ⟨start, inner.hi⟩ [inner]
  if let some op := (← kind?).bind unaryOperator? then
    bump
    let inner ← fun s =>
      match read .unary s with
      | .ok node after => .ok node after
      | .error fault after => missing fault after
    if op = .delete then checkDeleted inner
    return .mk (.unary op) ⟨start, inner.hi⟩ [inner]
  if ← isWord "await" then return ← awaitExpression
  let operand ← leftHandSide
  if ← isArrowHere operand then return operand
  if ← afterLineBreak then return operand
  if ← isOneOf ["++", "--"] then
    checkTarget operand false
    let isIncrement ← isPunct "++"
    bump
    return .mk (.update isIncrement false) (← spanFrom operand.lo) [operand]
  return operand
where
  /-- Only a property can be deleted. -/
  checkDeleted (node : Node) : Read Unit := do
    if node.kind matches .ident .. then noteStrict node.span .deleteIdent
    match unwrapped node with
    | .mk .member _ (object :: _) => unless isOperand object do noteAt (unwrapped node).span .deleteOperand
    | .mk (.optional _) _ (.mk .member _ _ :: _) => pure ()
    | operand => noteAt operand.span .deleteOperand
  unwrapped : Node → Node
    | .mk .paren _ [inner] => unwrapped inner
    | node => node
  /-- A missing operand behind an operator is noted, and the reading goes on. -/
  missing (fault : Fault) : Read Node := do
    let here ← pos
    noteAt fault.span fault.cause
    return .mk .absent ⟨here - 1, here - 1⟩ []

-- ---------------------------------------------------------------------------
-- Assignments and sequences
-- ---------------------------------------------------------------------------

def startsExpression : Option TokenKind → Bool
  | some (.punct text) =>
    ["!", "(", "[", "\x7b", "+", "-", "++", "--", "~", "`", "<", "#", "@", "/", "/=", "*"].contains text
  | some (.word text) =>
    !isKeyword text ||
      ["await", "function", "new", "this", "super", "class", "import", "yield", "typeof", "void",
        "delete", "let"].contains text
  | some (.str ..) | some (.num ..) | some (.bigint ..) | some .jsxTagStart => true
  | _ => false

def yieldExpression : Read Node := do
  let start ← pos
  bump
  let setting ← setting
  if setting.inParameters && !setting.inFunction then failAt (← spanFrom start) .yieldInParameters
  if ← isStop <||> notM (return startsExpression (← kind?)) then
    return .mk (.yield false) (← spanFrom start) [.absent]
  let isDelegate ← eatPunct "*"
  let inner ← read .assignment
  return .mk (.yield isDelegate) (← spanFrom start) [inner]

def plainAssignment : Read Node := do
  if ← (return (← setting).isGenerator) <&&> isWord "yield" then return ← yieldExpression
  let token ← require
  let start := token.span.lo
  let mayBeArrow : Bool := match token.kind with
    | .punct text => text = "("
    | .word text => !isKnownWord text || text = "yield"
    | _ => false
  modify fun s => { s with arrowStart := if mayBeArrow then some start else none }
  let operand ← conditional
  if ← isArrowHere operand then return operand
  match operand.kind with
  | .cond | .binary .. | .unary .. | .update .. => return operand
  | _ => finishAssignment start operand

def closeTag : Read Unit :=
  modify fun s =>
    { s with lexer := { s.lexer with contexts := s.lexer.contexts.dropWhile fun context =>
        context = .jsxOpeningTag || context = .jsxExpr } }

def assignment : Read Node := do
  if ← (return (← get).lexer.jsx) <&&> isKind isTagStart then
    if let some node := ← attempt (do return some (← plainAssignment)) then return node
    closeTag
  if ← isKind (fun kind => kind.isPunct "<" || isTagStart kind) <&&> nextIs isAnyName then
    let start ← pos
    let arrow ← attempt (α := Node) do
      if ← isKind isTagStart then closeTag
      let types ← typeParameters .function
      match ← plainAssignment with
      | .mk (.arrow isAsync) span [parameters, body, _, result] =>
        return some (.mk (.arrow isAsync) ⟨start, span.hi⟩ [parameters, body, types, result])
      | _ => return none
    if let some node := arrow then return node
  plainAssignment

def expression : Read Node := do
  let start ← pos
  let first ← read .assignment
  if ← isPunct "," then
    let rest ← whileM (eatPunct ",") (read .assignment)
    return .mk .seq (← spanFrom start) (first :: rest)
  else return first

def decorator : Read Node := do
  let start ← pos
  bump
  let expression ←
    if ← eatPunct "(" then do
      let expression ← read .expression
      expectPunct ")"
      pure expression
    else do
      let name ← identifier false
      suffixes true false name
  let types ← typeArguments?
  let expression ←
    if ← pure !types.isEmpty <||> isPunct "(" then do
      let arguments ← callArguments
      pure (Node.mk .call (← spanFrom expression.lo) ([expression, arguments] ++ types))
    else pure expression
  return .mk .decorator (← spanFrom start) [expression]

end TsBuild.Script.Grammar
