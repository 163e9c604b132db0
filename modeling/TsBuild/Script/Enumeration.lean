import TsBuild.Script.Made

/-!
# Enumerations

The values of the members of enumerations. A member without an initial value follows the one
before it; an initial value is computed if it is made of constants and of members known
before. Members with constant values are written out where they are read.
-/

namespace TsBuild.Script

inductive EnumValue
  | number (value : Number)
  | text (value : String)
  /-- A member without a value that follows no number. -/
  | missing
  | computed (expression : Node)
  deriving Repr, Inhabited

namespace EnumValue

def isConstant : EnumValue → Bool
  | number _ | text _ => true
  | _ => false

/-- A number that is not negative. The names of those that are not finite stand for no variable. -/
def magnitudeNode : Number → Node
  | .nan => Made.node (.name "NaN") []
  | .infinite _ => Made.node (.name "Infinity") []
  | value => Made.node (.num value none) []

def node : EnumValue → Node
  | number value =>
    if value.isNegative then Made.node (.unary .minus) [magnitudeNode value.neg] else magnitudeNode value
  | text value => Made.str value
  | missing => Made.void
  | computed expression => expression

def next : EnumValue → EnumValue
  | number value => number (value.add (.ofNat 1))
  | _ => missing

def text? : EnumValue → Option String
  | number value => some value.text
  | text value => some value
  | _ => none

end EnumValue

structure EnumEntry where
  enum : Variable
  member : String
  value : EnumValue
  deriving Repr, Inhabited

abbrev EnumTable := List EnumEntry

namespace EnumTable

def value? (table : EnumTable) (enum : Variable) (member : String) : Option EnumValue :=
  (table.find? fun entry => entry.enum = enum && entry.member = member).map EnumEntry.value

def constant? (table : EnumTable) (enum : Variable) (member : String) : Option EnumValue :=
  (table.value? enum member).filter EnumValue.isConstant

end EnumTable

namespace Enumeration

def propertyName? (property : Node) : Option String :=
  match property with
  | .mk (.name text) _ _ => some text
  | .mk .computed _ (.mk (.str value _) _ _ :: _) => some value
  | _ => none

def readName? (property : Node) : Option String :=
  match property with
  | .mk .computed _ (.mk .template _ [.mk (.quasi _ cooked) _ _] :: _) => cooked
  | other => propertyName? other

def arithmetic? (op : BinaryOp) (x y : Number) : Option Number :=
  match op with
  | .add => some (x.add y)
  | .sub => some (x.sub y)
  | .mul => some (x.mul y)
  | .div => some (x.div y)
  | .rem => some (x.rem y)
  | .power => some (x.pow y)
  | .shiftLeft => some (x.shiftLeft y)
  | .shiftRight => some (x.shiftRight y)
  | .shiftRightZero => some (x.shiftRightZero y)
  | .bitOr => some (x.or y)
  | .bitXor => some (x.xor y)
  | .bitAnd => some (x.and y)
  | _ => none

def unaryValue (node : Node) (op : UnaryOp) (value : EnumValue) : EnumValue :=
  match op, value with
  | .plus, .number x => .number x
  | .minus, .number x => .number x.neg
  | .tilde, .number x => .number x.not
  | .plus, value | .minus, value | .tilde, value => .computed (node.withChildren [value.node])
  | _, _ => .computed node

def binaryValue (node : Node) (op : BinaryOp) (left right : EnumValue) : EnumValue :=
  if (arithmetic? op (.ofNat 1) (.ofNat 1)).isNone then .computed node
  else
    let child (i : Nat) (value : EnumValue) : Node :=
      if value.isConstant then value.node else node.child i
    let other := EnumValue.computed (node.withChildren [child 0 left, child 1 right])
    match left, right with
    | .number x, .number y => ((arithmetic? op x y).map EnumValue.number).getD other
    | x, y =>
      match op, x.text?, y.text? with
      | .add, some a, some b => .text (a ++ b)
      | _, _, _ => other

def templateText? : List Node → List EnumValue → Option String
  | .mk (.quasi raw _) _ _ :: nodes, _ :: values => do return raw ++ (← templateText? nodes values)
  | _ :: nodes, value :: values => do return (← value.text?) ++ (← templateText? nodes values)
  | _, _ => some ""

def namesMember (table : EnumTable) (enum : Variable) (ident : Node) : Bool :=
  (table.value? enum ident.nameText).isSome

/-- The value of an initial value in an enumeration. Members of other enumerations are not known yet. -/
def evaluate (table : EnumTable) (enum : Variable) (expression : Node) : EnumValue :=
  expression.fold fun node values =>
    let value (i : Nat) : EnumValue := values.getD i .missing
    match node.kind with
    | .str text _ => .text text
    | .num number _ => .number number
    | .ident "NaN" 0 => .number .nan
    | .ident "Infinity" 0 => .number (.infinite false)
    | .ident name _ => (table.constant? enum name).getD (.computed node)
    | .paren => value 0
    | .unary op => unaryValue node op (value 0)
    | .binary op => binaryValue node op (value 0) (value 1)
    | .member =>
      (do
        guard ((node.child 0).toVariable? = some enum)
        table.constant? enum (← propertyName? (node.child 1))).getD (.computed node)
    | .template => ((templateText? node.children values).map EnumValue.text).getD (.computed node)
    | _ => .computed node

/-- The value of a member; one that is not constant reads other members through the enumeration. -/
def memberValue (table : EnumTable) (enum : Variable) (previous : EnumValue) (initial : Node) :
    EnumValue :=
  if initial.isAbsent then previous.next
  else
    let qualified (ident : Node) : Option Node :=
      if namesMember table enum ident then
        some (Made.memberOf (Made.ident enum.name enum.scope) ident)
      else none
    match evaluate table enum initial with
    | .computed expression => .computed (Made.substitute qualified expression)
    | value => value

def addMembers (enum : Variable) (table : EnumTable) (previous : EnumValue) : List Node → EnumTable
  | [] => table
  | member :: rest =>
    let value := memberValue table enum previous (member.child 1)
    addMembers enum (⟨enum, (member.child 0).nameText, value⟩ :: table) value rest

def table (tree : Node) : EnumTable :=
  tree.subnodes.foldl (fun table node =>
    match node.kind, (node.child 0).toVariable? with
    | .enum .., some enum => addMembers enum table (.number ((Number.ofNat 1).neg)) (node.children.drop 1)
    | _, _ => table) []

-- ---------------------------------------------------------------------------
-- Reading members
-- ---------------------------------------------------------------------------

def isTarget (kind : Kind) (isTarget : Bool) (i : Nat) : Bool :=
  match kind with
  | .assign _ | .update .. | .forIn | .forOf _ => i = 0
  | .paren | .arrayPattern _ | .objectPattern _ => isTarget
  | .defaulted | .rest => isTarget && i = 0
  | .keyValue => isTarget && i = 1
  | _ => false

def inlineStep (table : EnumTable) (node : Node) (parts : List (Bool → Node)) (isTarget : Bool) : Node :=
  let children := parts.mapIdx fun i part => part (Enumeration.isTarget node.kind isTarget i)
  let constant? : Option EnumValue := do
    guard (!isTarget)
    guard (node.kind matches .member)
    table.constant? (← (node.child 0).toVariable?) (← readName? (node.child 1))
  (constant?.map EnumValue.node).getD (node.withChildren children)

def inlined (table : EnumTable) (tree : Node) : Node :=
  if table.isEmpty then tree else tree.fold (inlineStep table) false

-- ---------------------------------------------------------------------------
-- The statements an enumeration stands for
-- ---------------------------------------------------------------------------

/-- Sets a member: its value by its name, and its name by its value unless that is a text. -/
def memberStatement (table : EnumTable) (enum : Variable) (member : Node) (value : EnumValue) : Node :=
  let object := Made.ident enum.name enum.scope
  let name := Made.str (member.child 0).nameText
  let assigned := Made.assign (Made.element object name) (inlined table value.node)
  let expression := match value with
    | .text _ => assigned
    | _ => Made.assign (Made.element object assigned) name
  .mk .exprStmt member.span [expression]

def memberStatements (table : EnumTable) (enum : Variable) (dropsConstants : Bool) (members : List Node) :
    List Node :=
  members.filterMap fun member =>
    let value := (table.value? enum (member.child 0).nameText).getD .missing
    if dropsConstants && value.isConstant then none else some (memberStatement table enum member value)

end Enumeration

end TsBuild.Script
