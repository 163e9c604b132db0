import TsBuild.Script.Lexer

/-!
# Reading by the grammar

A reading stands before a token of a script. The token is taken from the text only when it is
looked at, because what surrounds the place decides how a text is cut into tokens; one more token
may be looked at ahead. Faults are of two kinds: those that are noted while the reading goes on,
and the one that ends it.
-/

namespace TsBuild.Script.Grammar

structure Setting where
  /-- Whether `in` is an operator. -/
  membership : Bool := false
  isAsync : Bool := false
  isGenerator : Bool := false
  mayBreak : Bool := false
  mayContinue : Bool := false
  inType : Bool := false
  inKey : Bool := false
  isAmbient : Bool := false
  /-- Whether the whole file only declares. -/
  isDeclarationFile : Bool := false
  /-- Whether a branch of a conditional is read. -/
  inConditional : Bool := false
  /-- Whether the colon of a conditional is still to come. -/
  awaitsColon : Bool := false
  inClass : Bool := false
  /-- Whether the value of a property is read, or a static block. -/
  inClassField : Bool := false
  inFunction : Bool := false
  /-- Whether a function around the place is not an arrow function. -/
  inPlainFunction : Bool := false
  inParameters : Bool := false
  inStaticBlock : Bool := false
  hasSuperclass : Bool := false
  /-- Whether `extends` cannot begin a conditional type. -/
  plainTypes : Bool := false
  /-- Whether the head of a loop is read. -/
  inLoopHead : Bool := false
  /-- Whether it is the head of a loop that awaits. -/
  inAwaitLoopHead : Bool := false
  deriving Repr, Inhabited

structure Reading where
  lexer : Lexer
  /-- The lexer as it was before the current token. -/
  mark : Lexer
  /-- The current token, once it was looked at; none within at the end of the text. -/
  current : Option (Option Token) := none
  /-- The token after it with the lexer before that token. -/
  ahead : Option (Lexer × Option Token) := none
  /-- The span of the token before. -/
  previous : Span := ⟨1, 1⟩
  setting : Setting := {}
  labels : List String := []
  /-- The commas before the closing brackets of arrays and objects, by where these begin. -/
  lastCommas : List (Pos × Span) := []
  /-- Where an arrow function may begin. -/
  arrowStart : Option Pos := none
  /-- A bound on the number of tokens. -/
  size : Nat
  deriving Inhabited

abbrev Read := EStateM Fault Reading

namespace Read

-- ---------------------------------------------------------------------------
-- Tokens
-- ---------------------------------------------------------------------------

def take (lexer : Lexer) (setting : Setting) : Option Token × Lexer :=
  Lexer.next { lexer with inType := setting.inType, inPropertyName := setting.inKey }

def current : Read (Option Token) := fun s =>
  match s.current with
  | some token => .ok token s
  | none =>
    match s.ahead with
    | some (mark, token) => .ok token { s with current := some token, mark, ahead := none }
    | none =>
      let (token, lexer) := take s.lexer s.setting
      .ok token { s with current := some token, mark := s.lexer, lexer }

def peek : Read (Option Token) := do
  let _ ← current
  fun s =>
    match s.ahead with
    | some (_, token) => .ok token s
    | none =>
      let (token, lexer) := take s.lexer s.setting
      .ok token { s with ahead := some (s.lexer, token), lexer }

def bump : Read Unit := do
  match ← current with
  | none => pure ()
  | some token => modify fun s => { s with current := none, previous := token.span }

def setting : Read Setting := return (← get).setting

def lastPos : Read Pos := return (← get).previous.hi

def pos : Read Pos := do
  match ← current with
  | some token => return token.span.lo
  | none => lastPos

def spanFrom (start : Pos) : Read Span := do
  let stop ← lastPos
  return ⟨min start stop, max start stop⟩

/-- The span of the current token, or of the one before at the end of the text. -/
def currentSpan : Read Span := do
  let s ← get
  match s.current with
  | some (some token) => return token.span
  | _ => return s.previous

def kind? : Read (Option TokenKind) := return (← current).map (·.kind)

-- ---------------------------------------------------------------------------
-- Faults
-- ---------------------------------------------------------------------------

/-- Notes a fault. A token that could not be read is a fault of its own, noted before. -/
def noteAt (span : Span) (cause : Cause) : Read Unit := do
  if (← get).lexer.quiet then return
  match ← current with
  | some ⟨.error fault, _, _⟩ =>
    bump
    modify fun s => { s with lexer := s.lexer.report fault.cause fault.span }
  | _ => pure ()
  modify fun s => { s with lexer := s.lexer.report cause span }

/-- Notes a fault of strict code, which module code has a second time. -/
def noteStrict (span : Span) (cause : Cause) : Read Unit := do
  modify fun s => { s with lexer := (s.lexer.report cause span).report cause span }

def failAt {α : Type} (span : Span) (cause : Cause) : Read α := do
  match ← current with
  | some ⟨.error fault, _, _⟩ =>
    bump
    noteAt fault.span fault.cause
  | _ => pure ()
  throw ⟨cause, span⟩

def failHere {α : Type} (cause : Cause) : Read α := do
  failAt (← currentSpan) cause

def shown : Read String := do
  match ← current with
  | some token => return token.kind.show'
  | none => return "<eof>"

def failUnexpected {α : Type} (wanted : String) : Read α := do
  failHere (.unexpected (← shown) wanted)

def require : Read Token := do
  match ← current with
  | some token =>
    match token.kind with
    | .error fault =>
      bump
      throw fault
    | _ => return token
  | none =>
    let stop ← lastPos
    throw ⟨.eof, ⟨stop, stop⟩⟩

-- ---------------------------------------------------------------------------
-- Questions and steps
-- ---------------------------------------------------------------------------

def atEnd : Read Bool := return (← current).isNone

def isKind (p : TokenKind → Bool) : Read Bool := return (← kind?).elim false p

def isPunct (text : String) : Read Bool := isKind (·.isPunct text)

/-- Keeps the comma before the closing bracket of what begins at `start`. -/
def keepLastComma (start : Pos) : Read Unit :=
  modify fun s => { s with lastCommas := (start, s.previous) :: s.lastCommas }

def lastComma? (start : Pos) : Read (Option Span) := return (← get).lastCommas.lookup start

def isWord (text : String) : Read Bool := isKind (·.isWord text)

def isOneOf (puncts : List String) : Read Bool :=
  isKind fun kind => puncts.any kind.isPunct

def isAnyWord (words : List String) : Read Bool :=
  isKind fun kind => words.any kind.isWord

def namesVariable : TokenKind → Bool
  | .word text => !isReservedInModule text
  | _ => false

def isAnyName : TokenKind → Bool
  | .word .. => true
  | _ => false

def isVariable : Read Bool := isKind namesVariable

def isName : Read Bool := isKind isAnyName

def isString : Read Bool := isKind fun kind => kind matches .str ..

def nextIs (p : TokenKind → Bool) : Read Bool := return (← peek).elim false fun token => p token.kind

def nextIsPunct (text : String) : Read Bool := nextIs (·.isPunct text)

def nextIsWord (text : String) : Read Bool := nextIs (·.isWord text)

def afterLineBreak : Read Bool := return (← current).elim true (·.afterLineBreak)

def lineBreakAhead : Read Bool := return (← peek).elim false (·.afterLineBreak)

def eat (p : TokenKind → Bool) : Read Bool := do
  if ← isKind p then
    bump
    return true
  else return false

def eatPunct (text : String) : Read Bool := eat (·.isPunct text)

def eatWord (text : String) : Read Bool := eat (·.isWord text)

def expectPunct (text : String) : Read Unit := do
  unless ← eatPunct text do failHere (.expected text (← shown))

def expectWord (text : String) : Read Unit := do
  unless ← eatWord text do failHere (.expected text (← shown))

/-- Whether a statement may end here: at a semicolon, a closing brace, a line break or the end. -/
def isStop : Read Bool := do
  if ← atEnd then return true
  if ← isOneOf [";", "\x7d"] then return true
  afterLineBreak

def eatStop : Read Bool := do
  if ← eatPunct ";" then return true
  isStop

def expectStop : Read Unit := do
  unless ← eatStop do failHere (.expected ";" (← shown))

-- ---------------------------------------------------------------------------
-- Readings within readings
-- ---------------------------------------------------------------------------

def within {α : Type} (change : Setting → Setting) (inner : Read α) : Read α := fun s =>
  match inner { s with setting := change s.setting } with
  | .ok a after => .ok a { after with setting := s.setting }
  | .error fault after => .error fault { after with setting := s.setting }

def withMembership {α : Type} (inner : Read α) : Read α :=
  within (fun setting => { setting with membership := true }) inner

def inType {α : Type} (inner : Read α) : Read α :=
  within (fun setting => { setting with inType := true }) inner

/-- A reading that is undone unless it finds something; its faults are not noted. -/
def attempt {α : Type} (inner : Read (Option α)) : Read (Option α) := fun s =>
  match inner { s with lexer := { s.lexer with quiet := true } } with
  | .ok (some a) after =>
    .ok (some a) { after with lexer := { after.lexer with quiet := s.lexer.quiet } }
  | _ => .ok none s

def optionally {α : Type} (inner : Read α) : Read (Option α) := fun s =>
  match inner s with
  | .ok a after => .ok (some a) after
  | .error _ after => .ok none after

/-- A reading with a last step that is taken even if the reading fails. -/
def finishing {α : Type} (inner : Read α) (last : Read Unit) : Read α := fun s =>
  match inner s with
  | .ok a after => (last *> pure a) after
  | .error fault after => (last *> throw fault) after

def foresee (inner : Read Bool) : Read Bool := fun s =>
  match inner { s with lexer := { s.lexer with quiet := true } } with
  | .ok found _ => .ok found s
  | .error .. => .ok false s

def outsideTags {α : Type} (inner : Read α) : Read α := do
  let saved := (← get).lexer.contexts
  modify fun s => { s with lexer := { s.lexer with contexts := [.braceStmt] } }
  let a ← inner
  modify fun s => { s with lexer := { s.lexer with contexts := saved } }
  return a

/-- Repeats a step until it gives a result. Every step but the last takes a token. -/
def loop {σ α : Type} (start : σ) (step : σ → Read (Sum σ α)) : Read α := do
  let rec go : Nat → σ → Read α
    | 0, _ => do failHere .depth
    | fuel + 1, state => do
      match ← step state with
      | .inl next => go fuel next
      | .inr a => return a
  go (← get).size start

def whileM {α : Type} (condition : Read Bool) (item : Read α) : Read (List α) := do
  let items ← loop ([] : List α) fun items => do
    if ← condition then return .inl ((← item) :: items) else return .inr items
  return items.reverse

def itemsBefore {α : Type} (close : Read Bool) (item : Read α) : Read (List α) := do
  let items ← loop ([] : List α) fun items => do
    if ← close then return .inr items
    let items := (← item) :: items
    if ← eatPunct "," then return .inl items
    unless ← close do expectPunct ","
    return .inr items
  return items.reverse

def commaSeparated {α : Type} (close : Read Bool) (item : Read α) : Read (List α) := do
  let items ← loop ([] : List α) fun items => do
    if ← atEnd <||> close then return .inr items
    let items := (← item) :: items
    if ← close then return .inr items
    expectPunct ","
    return .inl items
  return items.reverse

end Read

-- ---------------------------------------------------------------------------
-- The rules that call each other
-- ---------------------------------------------------------------------------

inductive Goal
  | assignment
  | expression
  | unary
  | leftHandSide
  /-- A member expression, or the callee of `new`. -/
  | member
  | type
  | operatorType
  | bindingPattern
  | parameters
  | statement (declarations : Bool)
  | moduleItem
  | block
  | decorator
  | jsxElement
  | ifStatement
  | namespaceTail
  deriving DecidableEq, Repr

/-- How to read what lies one level further down. -/
class Descent where
  read : Goal → Read Node

export Descent (read)

end TsBuild.Script.Grammar
