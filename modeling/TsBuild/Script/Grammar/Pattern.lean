import TsBuild.Script.Grammar.Type

/-!
# Patterns

What stands on the left of an assignment: names, and arrays and objects of them. Where a pattern
and an expression begin alike, the expression is read first and taken as a pattern afterwards.
-/

namespace TsBuild.Script.Grammar

open Read

variable [Descent]

-- ---------------------------------------------------------------------------
-- Identifiers
-- ---------------------------------------------------------------------------

def identifier (allowsYield : Bool) : Read Node := do
  match ← require with
  | ⟨.word text, span, _⟩ =>
    bump
    if text = "enum" then noteAt span (.strictIdent text)
    else if isStrictReserved text then noteStrict span (.strictIdent text)
    if text = "await" then
      let setting ← setting
      if setting.inStaticBlock then failAt span .expectedIdent
      else if !setting.isAmbient then failAt span .awaitAsIdent
    else if isKnownWord text && text ≠ "this" && text ≠ "let" && !(text = "yield" && allowsYield) then
      failAt span .expectedIdent
    else if ← pure (text == "arguments") <&&> (return (← setting).inClassField) then
      noteAt span .argumentsInField
    return .mk (.ident text 0) span []
  | _ => failHere .expectedIdent

def bindingIdentifier (allowsLet : Bool) : Read Node := do
  if ← pure !allowsLet <&&> isWord "let" then
    failUnexpected "let is reserved in const, let, class declaration"
  let node ← identifier true
  if ["eval", "arguments"].contains node.nameText then noteStrict node.span .evalOrArguments
  return node

def binding (ident : Node) : Node := .mk (.binding false) ident.span [ident, .absent]

-- ---------------------------------------------------------------------------
-- Patterns that are bound
-- ---------------------------------------------------------------------------

def denyDefault (start : Pos) : Read Unit := do
  if (← setting).isAmbient then noteAt (← spanFrom start) .initializerWithoutBody

def bindingElement : Read Node := do
  let start ← pos
  let pattern ← read .bindingPattern
  if ← eatPunct "=" then
    let value ← withMembership (read .assignment)
    denyDefault start
    return .mk .defaulted (← spanFrom start) [pattern, value]
  else return pattern

def restPattern (start : Pos) : Read Node := do
  let pattern ← read .bindingPattern
  return .mk .rest (← spanFrom start) [pattern, .absent]

def arrayPattern : Read Node := do
  let start ← pos
  bump
  let elements ← loop (([], none) : List Node × Option Span) fun (elements, rest?) => do
    if ← atEnd <||> isPunct "]" then return .inr elements
    if ← eatPunct "," then return .inl (.absent :: elements, rest?)
    if let some rest := rest? then noteAt rest .restNotLast
    let start ← pos
    let isRest ← eatPunct "..."
    let element ← if isRest then restPattern start else bindingElement
    unless ← isPunct "]" do
      expectPunct ","
      if ← pure isRest <&&> isPunct "]" then noteAt (← get).previous .restComma
    return .inl (element :: elements, if isRest then some element.span else rest?)
  expectPunct "]"
  return .mk (.arrayPattern false) (← spanFrom start) (.absent :: elements.reverse)

def objectPatternProperty : Read Node := do
  let start ← pos
  if ← eatPunct "..." then return ← restPattern start
  let key ← propertyKey
  if ← eatPunct ":" then
    let value ← bindingElement
    return .mk .keyValue ⟨key.lo, value.hi⟩ [key, value]
  match key.kind with
  | .name text =>
    let ident := key.withKind (.ident text 0)
    if ← eatPunct "=" then
      let value ← withMembership (read .assignment)
      return .mk .shorthand (← spanFrom start) [ident, value]
    else return .mk .shorthand (← spanFrom start) [ident, .absent]
  | _ => failUnexpected "an identifier"

/-- What takes the rest of the properties is a name, and comes last without a comma. -/
def checkRestProperties (comma? : Option Span) : List Node → Read Unit
  | [] => pure ()
  | property :: rest => do
    if property.kind matches .rest then
      if !rest.isEmpty then noteAt property.span .restNotLast
      else if !((property.child 0).kind matches .binding ..) then
        failAt property.span .restWithoutIdent
      else if let some comma := comma? then noteAt comma .restComma
    checkRestProperties comma? rest

def objectPattern : Read Node := do
  let start ← pos
  bump
  let (properties, comma?) ← loop (([], none) : List Node × Option Span) fun (properties, comma?) => do
    if ← eatPunct "\x7d" then return .inr (properties.reverse, comma?)
    let property ← objectPatternProperty
    if ← isPunct "\x7d" then return .inl (property :: properties, none)
    expectPunct ","
    return .inl (property :: properties, some (← get).previous)
  let span ← spanFrom start
  checkRestProperties comma? properties
  return .mk (.objectPattern false) span (.absent :: properties)

def bindingPatternWith (allowsLet : Bool) : Read Node := do
  match (← require).kind with
  | .word .. => return binding (← bindingIdentifier allowsLet)
  | .punct "[" => arrayPattern
  | .punct "\x7b" => objectPattern
  | _ => failUnexpected "yield, an identifier, [ or \x7b"

def annotate (pattern type : Node) (isOptional : Bool) : Node :=
  let span : Span := if type.isAbsent then pattern.span else ⟨pattern.lo, max pattern.hi type.hi⟩
  match pattern with
  | .mk (.binding _) _ [ident, _] => .mk (.binding isOptional) span [ident, type]
  | .mk (.arrayPattern _) _ (_ :: elements) => .mk (.arrayPattern isOptional) span (type :: elements)
  | .mk (.objectPattern _) _ (_ :: properties) =>
    .mk (.objectPattern isOptional) span (type :: properties)
  | .mk .rest _ [inner, _] => .mk .rest span [inner, type]
  | other => other

-- ---------------------------------------------------------------------------
-- Parameters
-- ---------------------------------------------------------------------------

def parameterPattern : Read Node := do
  let start ← pos
  let hasModifier ← eatModifier
  let pattern ← bindingPatternWith true
  let isOptional ← eatPunct "?"
  let type ← typeAnnotation?
  let pattern := annotate pattern type isOptional
  let pattern ←
    if ← eatPunct "=" then do
      if isOptional then noteAt pattern.span .optionalWithDefault
      let value ← withMembership (read .assignment)
      denyDefault start
      pure (Node.mk .defaulted (← spanFrom start) [pattern, value])
    else pure pattern
  if hasModifier then noteAt (← spanFrom start) .parameterPropertyOutside
  return pattern

/-- A parameter behind three dots, which has no default and cannot be left out. -/
def restParameter : Read Node := do
  let start ← pos
  bump
  let pattern ← bindingPatternWith true
  let pattern ←
    if ← eatPunct "=" then do
      let value ← read .assignment
      noteAt pattern.span .restInitializer
      pure (Node.mk .defaulted (← spanFrom pattern.lo) [pattern, value])
    else pure pattern
  let type ← typeAnnotation?
  let span ← spanFrom start
  if ← eatPunct "?" then noteAt (← get).previous .restOptional
  return .mk .rest span [pattern, type]

-- ---------------------------------------------------------------------------
-- Expressions as patterns
-- ---------------------------------------------------------------------------

/-- What a converted expression is to be: the target of an assignment, a part of one, or a
pattern that is bound. -/
inductive PatternUse
  | target
  | element
  | bound
  deriving DecidableEq, Repr

def PatternUse.inner : PatternUse → PatternUse
  | .bound => .bound
  | _ => .element

def isStrictName (node : Node) : Bool :=
  (node.kind matches .ident ..) && ["eval", "arguments"].contains node.nameText

def isSimpleTarget (node : Node) : Bool :=
  match node with
  | .mk (.ident ..) _ _ => !isStrictName node
  | .mk .member _ _ => true
  | .mk .paren _ [inner] => isSimpleTarget inner
  | .mk (.ascribed .asConst) _ _ => false
  | .mk (.ascribed _) _ (inner :: _) => isSimpleTarget inner
  | _ => false

def checkTarget (node : Node) (deniesCalls : Bool) : Read Unit := do
  unless isSimpleTarget node do
    noteAt node.span .notAssignable
    if isStrictName node then noteStrict node.span .argumentsAssigned
    else if denies node then noteAt node.span .notAssignable
where
  denies : Node → Bool
    | .mk .call _ _ => deniesCalls
    | .mk .paren _ [inner] => denies inner
    | .mk kind _ _ =>
      match kind with
      | .str .. | .num .. | .bigint .. | .bool .. | .null | .regex .. | .binary .. => false
      | _ => true

def isOperandKind : Kind → Bool
  | .member | .call | .new | .ident .. | .function .. | .classLike .. | .paren | .template
  | .ascribed .as | .str .. | .num .. | .bigint .. | .bool .. | .null | .regex .. | .jsxText .. => true
  | _ => false

def checkElement (node : Node) : Read Unit := do
  if isOperandKind node.kind then
    unless isSimpleTarget node do noteAt node.span .notSimple
  else
    noteAt node.span .notPattern
    noteAt node.span .notPattern

mutual
def toPattern (use : PatternUse) : Node → Read Node
  | .mk kind span children => do
    let node := Node.mk kind span children
    match kind with
    | .absent | .binding .. | .arrayPattern .. | .objectPattern .. | .defaulted | .rest => return node
    | .array =>
      let elements ← toElements use.inner (← lastComma? span.lo) children
      let elements := (elements.reverse.dropWhile Node.isAbsent).reverse
      return .mk (.arrayPattern false) span (.absent :: elements)
    | .object =>
      let properties ← toProperties use.inner (← lastComma? span.lo) children
      return .mk (.objectPattern false) span (.absent :: properties)
    | .assign operator =>
      if use = .target then checkTarget node true
      else if operator ≠ "=" then noteAt span .notPattern
      return .mk .defaulted span children
    | .ident .. =>
      match use with
      | .target => checkTarget node true
      | .element => checkElement node
      | .bound => pure ()
      return binding node
    | _ =>
      match use with
      | .target => checkTarget node true
      | .element => checkElement node
      | .bound => noteAt span .notPattern
      return node

def toElements (use : PatternUse) (comma? : Option Span) : List Node → Read (List Node)
  | [] => return []
  | .mk .spread span children :: rest => do
    match rest, children with
    | [], [inner] =>
      if inner.kind matches .assign .. then noteAt span .restInitializer
      if let some comma := comma? then noteAt comma .restComma
      return [.mk .rest inner.span [← toPattern use inner, .absent]]
    | rest, _ =>
      noteAt span .restNotLast
      toElements use comma? rest
  | node :: rest => do
    let pattern ← toPattern use node
    return pattern :: (← toElements use comma? rest)

def toProperties (use : PatternUse) (comma? : Option Span) : List Node → Read (List Node)
  | [] => return []
  | .mk kind span children :: rest => do
    let property ← match kind, children with
      | .ident .., _ => pure (Node.mk .shorthand span [.mk kind span children, .absent])
      | .keyValue, [key, value] => pure (Node.mk .keyValue span [key, ← toPattern use value])
      | .assignProp, [ident, value] => pure (Node.mk .shorthand span [ident, value])
      | .spread, [inner] =>
        if !rest.isEmpty then noteAt span .restNotLast
        else if let some comma := comma? then noteAt comma .restComma
        let inner ←
          if use = .bound then
            if inner.kind matches .ident .. then pure (binding inner)
            else do
              noteAt span .restWithoutIdent
              pure inner
          else toPattern use inner
        if inner.kind matches .defaulted then noteAt span .restInitializer
        pure (Node.mk .rest span [inner, .absent])
      | _, _ => failAt span .notPattern
    return property :: (← toProperties use comma? rest)
end

/-- The names that a pattern binds, but for those that are the keys of an object as well. -/
def boundNames : Node → List Node :=
  Node.fold fun node below =>
    match node.kind with
    | .binding _ => [node.child 0]
    | .defaulted | .rest => below.headD []
    | .keyValue => below.getD 1 []
    | .arrayPattern _ | .objectPattern _ => (below.drop 1).flatten
    | _ => []

def toParameters (comma? : Option Span) (items : List Node) : Read (List Node) := do
  let parameters ← go items
  for name in parameters.flatMap boundNames do
    if isStrictName name then noteStrict name.span .evalOrArguments
  return parameters
where
  noteComma : Read Unit := do
    if let some comma := comma? then noteAt comma .restComma
  go : List Node → Read (List Node)
    | [] => return []
    | [item] => do
      match item with
      | .mk .spread span [inner] =>
        if inner.kind matches .assign .. then noteAt span .restInitializer
        noteComma
        return [.mk .rest inner.span [← toPattern .bound inner, .absent]]
      | .mk .rest .. =>
        noteComma
        return [item]
      | item => return [← toPattern .bound item]
    | item :: rest => do
      if item.kind matches .spread | .rest then
        noteAt item.span .restParameterLast
        go rest
      else return (← toPattern .bound item) :: (← go rest)

end TsBuild.Script.Grammar
