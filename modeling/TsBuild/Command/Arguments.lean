import TsBuild.Command.Grammar

/-!
# Reading the command line

Arguments are read from left to right: switches, and the name of a command with its own
switches and operands behind it. The first fault ends the reading, and so does a switch that
asks for help or for the version. What is given behind the name of a command wins over what is
given in front of it.
-/

namespace TsBuild.Command

structure Given where
  switches : List Switch := []
  values : List (Switch × String) := []
  operands : List String := []

namespace Given

def has (given : Given) (switch : Switch) : Bool := given.switches.contains switch

def value? (given : Given) (switch : Switch) : Option String := given.values.lookup switch

/-- Adds a switch without a value; none if it stands there already. -/
def addFlag (given : Given) (switch : Switch) : Option Given :=
  if given.has switch && switch.kind ≠ .counted then none
  else some { given with switches := switch :: given.switches }

def addValue (given : Given) (switch : Switch) (value : String) : Option Given :=
  if given.has switch || (switch.needsText && value.isEmpty) then none
  else some { given with switches := switch :: given.switches, values := (switch, value) :: given.values }

end Given

inductive Stop
  | help (command : Option Name)
  | helpOnHelp
  | version
  | misuse
  deriving DecidableEq, Repr

def takeFlag (command : Option Name) (given : Given) (switch : Switch) : Except Stop Given :=
  match switch with
  | .help => .error (.help command)
  | .version => .error .version
  | switch =>
    match given.addFlag switch with
    | some given => .ok given
    | none => .error .misuse

def takeShorts (command : Option Name) (given : Given) : List Char → Except Stop Given
  | [] => .ok given
  | c :: rest =>
    match (Switch.ofCommand command).find? fun switch => switch.short? = some c with
    | some switch => do takeShorts command (← takeFlag command given switch) rest
    | none => .error .misuse

inductive Argument
  /-- Two hyphens: the rest are operands. -/
  | separator
  | long (name : List Char) (value : Option (List Char))
  | shorts (letters : List Char)
  | plain

def Argument.ofText (text : String) : Argument :=
  match text.toList with
  | ['-', '-'] => separator
  | '-' :: '-' :: rest =>
    match rest.dropWhile (· ≠ '=') with
    | '=' :: value => long (rest.takeWhile (· ≠ '=')) (some value)
    | _ => long rest none
  | '-' :: c :: rest => shorts (c :: rest)
  | _ => plain

def canBeValue (text : String) : Bool := Argument.ofText text matches .plain

/-- Reads arguments up to an operand or the end. What is left begins with the operand; a separator
is left as well. -/
def takeSwitches (command : Option Name) (given : Given) : List String → Except Stop (Given × List String)
  | [] => .ok (given, [])
  | argument :: rest =>
    match Argument.ofText argument with
    | .separator | .plain => .ok (given, argument :: rest)
    | .shorts letters => do takeSwitches command (← takeShorts command given letters) rest
    | .long name value =>
      match (Switch.ofCommand command).find? fun switch => switch.long = String.ofList name with
      | none => .error .misuse
      | some switch =>
        let added (value : String) : Except Stop Given :=
          match given.addValue switch value with
          | some given => .ok given
          | none => .error .misuse
        match switch.kind, value with
        | .value _, some value => do takeSwitches command (← added (String.ofList value)) rest
        | .value _, none =>
          match rest with
          | next :: rest =>
            if canBeValue next then do takeSwitches command (← added next) rest else .error .misuse
          | [] => .error .misuse
        | _, some _ => .error .misuse
        | _, none => do takeSwitches command (← takeFlag command given switch) rest

def takeOperands (name : Name) (given : Given) (operands : List String) : Except Stop Given :=
  let all := given.operands ++ operands
  match name.operand? with
  | none => if all.isEmpty then .ok given else .error .misuse
  | some operand =>
    if all.length > 1 && !operand.isRepeated then .error .misuse else .ok { given with operands := all }

/-- Reads what stands behind the name of a command; at most `n` operands stand between switches. -/
def takeCommand (name : Name) (given : Given) : (n : Nat) → List String → Except Stop Given
  | 0, arguments => takeOperands name given arguments
  | n + 1, arguments => do
    match ← takeSwitches (some name) given arguments with
    | (given, []) => return given
    | (given, operand :: rest) =>
      if Argument.ofText operand matches .separator then takeOperands name given rest
      else takeCommand name (← takeOperands name given [operand]) n rest

def helpTarget : List String → Stop
  | [] => .help none
  | [name] =>
    match Name.ofText? name with
    | some name => .help (some name)
    | none => if name = helpName then .helpOnHelp else .misuse
  | _ => .misuse

structure Line where
  outer : Given
  name? : Option Name := none
  inner : Given := {}

namespace Line

def isComplete (line : Line) : Bool :=
  match line.name? with
  | none => true
  | some name =>
    (name.operand?.isNone || !line.inner.operands.isEmpty) &&
      ((Switch.ofCommand (some name)).filter Switch.isRequired).all line.inner.has

def read (arguments : List String) : Except Stop Line := do
  let (outer, rest) ← takeSwitches none {} arguments
  match rest with
  | [] | ["--"] => return { outer }
  | command :: rest =>
    match Name.ofText? command with
    | some name =>
      let line : Line := { outer, name? := some name, inner := ← takeCommand name {} rest.length rest }
      if line.isComplete then return line else throw .misuse
    | none => throw (if command = helpName then helpTarget rest else .misuse)

def has (line : Line) (switch : Switch) : Bool := line.outer.has switch || line.inner.has switch

def value? (line : Line) (switch : Switch) : Option String :=
  line.inner.value? switch <|> line.outer.value? switch

end Line

end TsBuild.Command
