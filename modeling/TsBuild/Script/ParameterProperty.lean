import TsBuild.Script.Made

/-!
# Parameter properties

A parameter of a constructor that is a property besides becomes a plain parameter and a field.
The constructor sets the field, and with it all other fields that have initial values, as
soon as there is a `this`: at its beginning, or behind each call of `super`. The keys of these
fields are computed once, in front of the statement that the class is in.
-/

namespace TsBuild.Script.ParameterProperty

def patternIdent (pattern : Node) : Node :=
  match pattern with
  | .mk .defaulted _ (.mk (.binding _) _ (ident :: _) :: _) => ident
  | .mk (.binding _) _ (ident :: _) => ident
  | other => other

def idents (constructor : Node) : List Node :=
  (constructor.child 0).children.filterMap fun parameter =>
    match parameter.kind with
    | .paramProperty _ => some (patternIdent (parameter.child 1))
    | _ => none

def plainParameter (parameter : Node) : Node :=
  match parameter.kind with
  | .paramProperty _ => parameter.withKind .param
  | _ => parameter

-- ---------------------------------------------------------------------------
-- Initial values
-- ---------------------------------------------------------------------------

def ofThis (key : Node) : Node :=
  match key.kind with
  | .name _ | .privateName _ | .computed => Made.node .member [Made.this, key]
  | _ => Made.element Made.this key

def field (ident : Node) : Node :=
  Made.node (.property {}) [.list [], Made.node (.name ident.nameText) [], .absent]

def setParameter (ident : Node) : Node := Made.assign (Made.memberOf Made.this ident) ident

def isInstanceField (member : Node) : Bool :=
  match member.kind with
  | .property modifiers => !modifiers.isStatic
  | _ => false

def setField? (member : Node) : Option Node :=
  if (member.child 2).isAbsent then none
  else some (Made.assign (ofThis (member.child 1)) (member.child 2))

def withoutValue (member : Node) : Node :=
  member.withChildren (member.children.take 2 ++ [.absent])

-- ---------------------------------------------------------------------------
-- Where they are set
-- ---------------------------------------------------------------------------

/-- Puts expressions behind each call of `super`, and tells whether there is one. A call whose result
is used stays the first element of an array that the result is taken from. -/
def afterSuper (expressions : List Node) (body : Node) : Node × Bool :=
  let step (node : Node) (parts : List (Bool → StateM Bool Node)) (isIgnored : Bool) :
      StateM Bool Node := do
    match node.kind with
    | .function .. | .classLike .. => return node
    | kind =>
      let last := parts.length - 1
      let ignored (i : Nat) : Bool := match kind with
        | .exprStmt => true
        | .seq => i < last || isIgnored
        | .paren => isIgnored
        | _ => false
      let children ← (parts.mapIdx fun i part => part (ignored i)).mapM id
      let node := node.withChildren children
      match kind, (node.child 0).kind with
      | .call, .super =>
        set true
        let all := node :: expressions
        return if isIgnored then Made.sequence all
          else Made.element (Made.array all) (Made.number 0)
      | _, _ => return node
  (body.fold step false).run false

def initialized (expressions : List Node) (body : Node) : Node :=
  let (changed, hasSuper) := afterSuper expressions body
  if hasSuper then changed
  else body.withChildren (expressions.map Made.statement ++ body.children)

-- ---------------------------------------------------------------------------
-- Keys
-- ---------------------------------------------------------------------------

structure Keys where
  /-- The number of scopes, with one for the variable of each key. -/
  scopes : Nat
  declarators : List Node := []
  deriving Inhabited

/-- The words of an expression, as the name of a variable; none if there are no words in it. -/
def words? (expression : Node) : Option String :=
  expression.fold fun node parts =>
    let part (i : Nat) : Option String := parts.getD i none
    match node.kind with
    | .ident text _ | .name text | .privateName text => some text
    | .super => some "super"
    | .call => if (node.child 0).kind matches .super | .importCallee _ then none else some ((part 0).getD "")
    | .member => some ((part 0).getD "" ++ "_" ++ (part 1).getD "")
    | .computed => part 0
    | _ => none

def keyName (key : Node) : String :=
  let words := (words? key).getD "_key"
  if words.toList.head? = some '_' then words else "_" ++ words

def isFixed (key : Node) : Bool :=
  match key.kind with
  | .str .. | .num .. | .bigint _ | .bool _ | .null => true
  | .template => key.children.length = 1
  | _ => false

/-- Puts the computed key of a field that is set elsewhere into a variable. -/
def withKey (member : Node) : StateM Keys Node := do
  let key := (member.child 1).child 0
  let isComputed : Bool := (member.child 1).kind matches .computed
  if !isInstanceField member || (member.child 2).isAbsent || !isComputed || isFixed key then
    return member
  modify fun keys => { keys with scopes := keys.scopes + 1 }
  let name := Made.ident (keyName key) (← get).scopes
  let declarator := Made.node (.declarator false) [Made.binding name, key]
  modify fun keys => { keys with declarators := keys.declarators ++ [declarator] }
  return member.withChildren [member.child 0, (member.child 1).withChildren [name], member.child 2]

-- ---------------------------------------------------------------------------
-- Classes
-- ---------------------------------------------------------------------------

/-- The members of a class without parameter properties, whose fields come first. -/
def members (members : List Node) : StateM Keys (List Node) := do
  let isConstructor (member : Node) : Bool := member.kind matches .constructor _
  let found := (members.find? isConstructor).elim [] idents
  if found.isEmpty then return members
  let members ← members.mapM withKey
  let expressions := found.map setParameter ++ (members.filter isInstanceField).filterMap setField?
  let lowered := members.map fun member =>
    if isConstructor member then
      let parameters := (member.child 0).withChildren ((member.child 0).children.map plainParameter)
      member.withChildren [parameters, initialized expressions (member.child 1)]
    else if isInstanceField member then withoutValue member
    else member
  return found.map field ++ lowered

end TsBuild.Script.ParameterProperty
