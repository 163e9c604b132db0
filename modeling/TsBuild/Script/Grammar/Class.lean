import TsBuild.Script.Grammar.Function

/-!
# Classes
-/

namespace TsBuild.Script.Grammar

open Read

variable [Descent]

-- ---------------------------------------------------------------------------
-- Members
-- ---------------------------------------------------------------------------

def isMethodHere : Read Bool := isOneOf ["(", "<"]

def isPropertyHere (atStop : Bool) : Read Bool := do
  if ← isOneOf ["!", ":", "=", "\x7d"] then return true
  if atStop then isStop else isPunct ";"

def memberKey : Read Node := do
  if ← isPunct "#" then
    let key ← privateName
    if key.nameText = "constructor" then noteAt key.span .constructorPrivate
    return key
  else propertyKey

def isConstructorKey (key : Node) : Bool :=
  match key.kind with
  | .name text | .str text _ => text = "constructor"
  | _ => false

structure MemberHead where
  start : Pos
  decorators : List Node
  modifiers : Modifiers
  isAccessor : Bool := false
  declare? : Option Span := none
  static? : Option Span := none
  /-- The last modifier but for `static` and the access. -/
  modifier? : Option Span := none
  deriving Inhabited

def denyAccess (head : MemberHead) (key : Node) : Read Unit := do
  if head.modifiers.access.isSome then noteAt ⟨head.start, key.hi⟩ .privateAccess

def methodRest (head : MemberHead) (kind : MethodKind) (isAsync isGenerator : Bool) (key : Node)
    (word : Span := key.span) : Read Node := do
  let function ← functionRest head.start .absent isAsync isGenerator (checkAccessor kind word)
  let span ← spanFrom head.start
  if key.kind matches .privateName _ then denyAccess head key
  else if head.modifiers.isAbstract && !(function.child 2).isAbsent then noteAt span .abstractWithBody
  return .mk (.classMethod kind head.modifiers) span [key, function, .list head.decorators]

def propertyRest (head : MemberHead) (key : Node) : Read Node := do
  if isConstructorKey key then failAt key.span .constructorField
  let isPrivate := key.kind matches .privateName _
  if isPrivate && head.modifiers.isDeclared then noteAt key.span (.privateModifier "declare")
  if isPrivate && head.modifiers.isAbstract then noteAt key.span (.privateModifier "abstract")
  let isDefinite ← if head.modifiers.isOptional then pure false else eatPunct "!"
  let type ← typeAnnotation?
  let inside (setting : Setting) : Setting := { setting with membership := true, inClassField := true }
  let value ← within inside do
    if ← eatPunct "=" then
      if head.modifiers.isAbstract then noteAt (← spanFrom head.start) .abstractWithValue
      read .assignment
    else pure .absent
  unless ← eatStop do noteAt (← currentSpan) .semicolon
  let modifiers := { head.modifiers with isDefinite }
  if isPrivate && !head.isAccessor then denyAccess head key
  let kind : Kind := if head.isAccessor then .accessor modifiers else .property modifiers
  return .mk kind (← spanFrom head.start) [.list head.decorators, key, value, type]

def denyTypeParameters : Read Unit := do
  if ← isPunct "<" then
    let start ← pos
    if ← nextIsPunct ">" then
      bump
      let stop ← pos
      bump
      noteAt (← spanFrom start) .emptyTypeParameters
      noteAt (← spanFrom stop) .constructorTypeParameters
    else
      let parameters ← typeParameters .function
      for parameter in parameters.children do noteAt parameter.span .constructorTypeParameters

def constructorRest (head : MemberHead) : Read Node := do
  if head.modifiers.isOverride then noteAt (← spanFrom head.start) (.constructorModifier "override")
  denyTypeParameters
  expectPunct "("
  let inside (setting : Setting) : Setting :=
    { setting with inParameters := true, inFunction := false, inClassField := false }
  let parameters ← within inside (parameterList constructorParameter)
  expectPunct ")"
  if ← isPunct ":" then
    let type ← typeAnnotation?
    noteAt type.span .constructorReturnType
  let body ← within (fun setting => { setting with inClassField := false }) <|
    functionBody false false (areSimpleParameters parameters)
  if body.isAbsent then
    for parameter in parameters do
      if parameter.kind matches .paramProperty _ then noteAt parameter.span .parameterPropertyOutside
    denyDefaults parameters
  if let some span := head.static? then noteAt span (.constructorModifier "static")
  if let some span := head.modifier? then
    if head.modifiers.isAbstract then noteAt span .abstractModifier
  return .mk (.constructor head.modifiers.access) (← spanFrom head.start) [.list parameters, body]

/-- A block that runs once for the class; no modifier may come before it. -/
def staticBlock (head : MemberHead) : Read Node := do
  if let some span := head.declare? then noteAt span .modifierNotHere
  if head.modifiers.access.isSome then noteAt (← currentSpan) .modifierNotHere
  let saved := (← get).labels
  modify fun s => { s with labels := [] }
  let block ← within (fun setting =>
    { setting with
      inStaticBlock := true, inClassField := true, mayBreak := false, mayContinue := false,
      inFunction := false, isAsync := false }) (read .block)
  modify fun s => { s with labels := saved }
  return .mk .staticBlock (← spanFrom head.start) [block]

def modifierFault? (modifiers : Modifiers) (hasSuperclass : Bool) (modifier : String) : Option Cause :=
  match modifier with
  | "abstract" =>
    if modifiers.isAbstract then some (.modifierTwice modifier)
    else if modifiers.isOverride then some (.modifierOrder modifier "override")
    else none
  | "override" =>
    if modifiers.isOverride then some (.modifierTwice modifier)
    else if modifiers.isReadonly then some (.modifierOrder modifier "readonly")
    else if modifiers.isDeclared then some (.modifierClash modifier "declare")
    else if !hasSuperclass then some .overrideWithoutBase
    else none
  | "readonly" => if modifiers.isReadonly then some (.modifierTwice modifier) else none
  | "static" => if modifiers.isOverride then some (.modifierOrder modifier "override") else none
  | _ => none

def memberModifiers (head : MemberHead) : Read MemberHead :=
  loop head fun head => do
    match ← modifier? ["abstract", "readonly", "override", "static"] false with
    | some modifier =>
      let modifiers := head.modifiers
      let span := (← get).previous
      if let some cause := modifierFault? modifiers (← setting).hasSuperclass modifier then
        noteAt span cause
      let modifiers := match modifier with
        | "abstract" => { modifiers with isAbstract := true }
        | "readonly" => { modifiers with isReadonly := true }
        | "override" => { modifiers with isOverride := true }
        | _ => { modifiers with isStatic := true }
      return .inl { head with modifiers, modifier? := some span }
    | none => return .inr head

def plainMethod (head : MemberHead) (key : Node) : Read Node := do
  if let some span := head.declare? then noteAt span .declareModifier
  if head.modifiers.isReadonly then failAt (← spanFrom head.start) .readonlyMethod
  if isConstructorKey key then constructorRest head else methodRest head .method false false key

/-- A method behind `async`, which comes after all modifiers. -/
def asyncMethod (head : MemberHead) : Read Node := do
  let isLate := (← modifier? ["override"] false).isSome
  if isLate then noteAt (← get).previous (.modifierOrder "override" "async")
  let isGenerator ← eatPunct "*"
  let key ← memberKey
  if isConstructorKey key then failAt key.span .asyncConstructor
  if head.modifiers.isReadonly then failAt (← spanFrom head.start) .readonlyMethod
  let isOptional ← if head.modifiers.isOptional then pure true else eatPunct "?"
  let isOverride := head.modifiers.isOverride || isLate
  let head := { head with modifiers := { head.modifiers with isOptional, isOverride } }
  methodRest head .method true isGenerator key

def keyedMember (head : MemberHead) : Read Node := do
  if ← eatPunct "*" then
    let key ← memberKey
    if head.modifiers.isReadonly then noteAt (← spanFrom head.start) .readonlyMethod
    if isConstructorKey key then noteAt key.span .generatorConstructor
    return ← methodRest head .method false true key
  let key ← memberKey
  let isOptional ← eatPunct "?"
  let head := { head with modifiers := { head.modifiers with isOptional } }
  if ← isMethodHere then return ← plainMethod head key
  let word := if key.kind matches .name .. then key.nameText else ""
  let isAccessor ←
    if word = "get" || word = "set" then do
      if ← isPropertyHere false then pure false
      else notM (afterLineBreak <&&> isPunct "*")
    else pure false
  if ← pure !isAccessor <&&> isPropertyHere true then return ← propertyRest head key
  if ← pure (word == "async") <&&> notM afterLineBreak then return ← asyncMethod head
  if isAccessor then
    let accessed ← memberKey
    if head.modifiers.isReadonly then noteAt key.span .readonlyAccessor
    if isConstructorKey accessed then noteAt key.span .constructorAccessor
    let kind : MethodKind := if word = "get" then .getter else .setter
    return ← methodRest head kind false false accessed key.span
  failUnexpected "* for generator, private key, identifier or async"

/-- A word that is a modifier, or the key of a member if a member follows it: then the member. -/
def wordMember (head : MemberHead) (word : String) (wordStart : Pos) (atStop : Bool) :
    Read (Option Node) := do
  let key := Node.mk (.name word) (← spanFrom wordStart) []
  if ← isMethodHere then return some (← methodRest head .method false false key)
  if ← isPropertyHere atStop <||> isPunct "?" then
    let isOptional ← eatPunct "?"
    return some (← propertyRest { head with modifiers := { head.modifiers with isOptional } } key)
  return none

def classMember : Read Node := do
  let start ← pos
  let decorators ← decorators false
  let head : MemberHead := { start, decorators, modifiers := {} }
  let wordStart ← pos
  let declared ← eatWord "declare"
  let access ← access?
  let declared ← if declared then pure true else eatWord "declare"
  let head := { head with modifiers := { access } }
  if declared then
    if let some member := ← wordMember head "declare" wordStart true then return member
  let declare? ← if declared then pure (some (← spanFrom start)) else pure none
  let wordStart ← pos
  let head := { head with declare?, modifiers := { head.modifiers with isDeclared := declared } }
  let isStatic ← eatWord "static"
  if isStatic then
    if !(← isPunct "\x7b") then
      if let some member := ← wordMember head "static" wordStart false then return member
  let static? ← if isStatic then pure (some (← spanFrom wordStart)) else pure none
  let head ← memberModifiers { head with static?, modifiers := { head.modifiers with isStatic } }
  let modifiers := head.modifiers
  if ← pure modifiers.isStatic <&&> isPunct "\x7b" then return ← staticBlock head
  if modifiers.access.isNone && !modifiers.isAbstract && !modifiers.isOverride then
    if ← isIndexSignature then return ← indexSignature start
  if ← isWord "accessor" <&&> notM lineBreakAhead then
    let isModifier ← nextIs fun
      | .word .. | .str .. | .num .. => true
      | .punct text => ["[", "#"].contains text
      | _ => false
    if isModifier then
      bump
      return ← keyedMember { head with isAccessor := true }
  keyedMember head

def classBody : Read (List Node) := do
  let members ← loop (([], false) : List Node × Bool) fun (members, constructed) => do
    if ← atEnd <||> isPunct "\x7d" then return .inr members
    let span ← currentSpan
    if ← eatPunct ";" then return .inl (.mk .emptyMember span [] :: members, constructed)
    let member ← classMember
    let isConstructor := (member.kind matches .constructor ..) && !(member.child 1).isAbsent
    if ← pure (isConstructor && constructed) <&&> notM (return (← setting).isAmbient) then
      noteAt member.span .duplicateConstructor
    return .inl (member :: members, constructed || isConstructor)
  return members.reverse

-- ---------------------------------------------------------------------------
-- Classes
-- ---------------------------------------------------------------------------

def superclass : Read (Node × List Node) := do
  let base ← read .leftHandSide
  match base with
  | .mk (.ascribed .instantiation) _ [inner, arguments] => return (inner, [arguments])
  | base => return (base, ← typeArguments?)

def heritage : Read (List Node) :=
  itemsBefore (isPunct "\x7b" <||> isAnyWord ["implements", "extends"]) do
    let start ← pos
    let _ ← entityName
    other start (← typeArguments?)

/-- The superclass of a class, and the types in its clauses. Clauses that are repeated or stand in the
wrong order are noted. -/
def classHeritage : Read (Node × List Node) := do
  let (base, arguments) ←
    if ← eatWord "extends" then do
      let base ← superclass
      if ← eatPunct "," then
        for type in ← heritage do noteAt type.span .extendsSeveral
      pure base
    else pure (.absent, [])
  if ← eatWord "extends" then
    noteAt (← get).previous .extendsTwice
    let _ ← superclass
  let interfaces ← if ← eatWord "implements" then heritage else pure []
  if ← eatWord "implements" then
    noteAt (← get).previous .implementsTwice
    let _ ← heritage
  if ← eatWord "extends" then
    noteAt (← get).previous .extendsAfterImplements
    let (late, lateArguments) ← superclass
    if base.isAbsent then return (late, lateArguments ++ interfaces)
  return (base, arguments ++ interfaces)

def isTypeName (name : String) : Bool := (keywordType? name).isSome && name ≠ "undefined"

/-- Whether a member of a class has no body of its own and is not private. -/
def isAbstractMember (member : Node) : Bool :=
  match member with
  | .mk (.property modifiers) _ (_ :: key :: _) =>
    modifiers.isAbstract && !(key.kind matches .privateName _)
  | .mk (.classMethod _ modifiers) _ (key :: _) =>
    modifiers.isAbstract && !(key.kind matches .privateName _)
  | _ => false

def classHere (start : Pos) (decorators : List Node) (needsName isAbstract : Bool) : Read Node :=
  within (fun setting => { setting with inClass := true }) do
    expectWord "class"
    let name ←
      if needsName then bindingIdentifier false
      else if ← isVariable then bindingIdentifier false
      else pure .absent
    if isTypeName name.nameText then noteAt name.span .invalidClassName
    let types ← typeParameters? .classLike
    let (base, heritage) ← classHeritage
    expectPunct "\x7b"
    let members ←
      within (fun setting => { setting with hasSuperclass := !base.isAbsent, awaitsColon := false })
        classBody
    if ← atEnd then noteAt (← currentSpan) (.expected "\x7d" "<eof>")
    else expectPunct "\x7d"
    unless isAbstract do
      for member in members do
        if isAbstractMember member then noteAt member.span .abstractOutside
    return .mk (.classLike isAbstract false) (← spanFrom start)
      ([name, .list decorators, base, .list members, types] ++ heritage)

end TsBuild.Script.Grammar
