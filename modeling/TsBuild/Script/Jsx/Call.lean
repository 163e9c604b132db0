import TsBuild.Script.Jsx.Runtime
import TsBuild.Script.Jsx.Text

/-!
# Elements as calls

An element becomes a call of the function that makes it. A function that the script has takes the
tag, the attributes and the children one by one; an imported function takes the children as
one of the attributes, and the key and what it needs in development by themselves.
-/

namespace TsBuild.Script.Jsx

inductive Helper
  | single
  | several
  | fragment
  /-- Makes an element whose key comes after attributes that are spread out. -/
  | spread
  deriving DecidableEq, Repr

namespace Helper

def exportedName (isDevelopment : Bool) : Helper → String
  | single => if isDevelopment then "jsxDEV" else "jsx"
  | several => if isDevelopment then "jsxDEV" else "jsxs"
  | fragment => "Fragment"
  | spread => "createElement"

def localName (isDevelopment : Bool) (helper : Helper) : String :=
  "_" ++ helper.exportedName isDevelopment

end Helper

/-- How elements are made, with a scope for what is imported. -/
structure Maker extends Runtime where
  scope : Nat

namespace Maker

def helper (maker : Maker) (helper : Helper) : Node :=
  Made.ident (helper.localName maker.isDevelopment) maker.scope

-- ---------------------------------------------------------------------------
-- Parts of elements
-- ---------------------------------------------------------------------------

def tagName (tag : Node) : Node :=
  match tag.kind with
  | .ident text _ => if tag.isPlainTag then .mk (.str text none) tag.span [] else tag
  | .jsxNamespaced =>
    .mk (.str ((tag.child 0).nameText ++ ":" ++ (tag.child 1).nameText) none) tag.span []
  | _ => tag

def attributeName (name : Node) : Node :=
  match name.kind with
  | .jsxNamespaced => tagName name
  | _ =>
    if name.nameText.toList.contains '-' then .mk (.str name.nameText none) name.span [] else name

def attributeValue (maker : Maker) (attr : Node) : Node :=
  let value := attr.child 1
  match value.kind with
  | .absent => if maker.isAutomatic then Made.bool true else .mk (.bool true) (attr.child 0).span []
  | .str text _ => .mk (.str (attributeText text) none) value.span []
  | .jsxContainer => value.child 0
  | _ => value

def properties (maker : Maker) (attr : Node) : List Node :=
  match attr.kind, (attr.child 0).kind with
  | .spread, .object => (attr.child 0).children
  | .spread, _ => [attr]
  | _, _ => [Made.keyValue (attributeName (attr.child 0)) (maker.attributeValue attr)]

def child? (child : Node) : Option Node :=
  match child.kind with
  | .jsxText value _ =>
    let text := childText value
    if text.isEmpty then none else some (.mk (.str text none) child.span [])
  | .jsxContainer => (child.child 0).toOption
  | .jsxSpreadChild => some (.mk .spread child.span [child.child 0])
  | _ => some child

def isSpread (node : Node) : Bool := node.kind matches .spread

def childrenNamed (value : Node) : Node := Made.keyValue (Made.node (.name "children") []) value

def childrenProperty (children : List Node) : List Node :=
  match children with
  | [] => []
  | [value] => [childrenNamed (if isSpread value then Made.array [value] else value)]
  | values => [childrenNamed (Made.array values)]

/-- The children of a fragment as a property. One that is no list is passed by itself, also where
it was to be spread out. -/
def fragmentChildrenProperty (isList : Bool) (children : List Node) : List Node :=
  match children with
  | [] => []
  | [value] =>
    [childrenNamed (if isList then Made.array [value]
      else if isSpread value then value.child 0 else value)]
  | values => [childrenNamed (Made.array values)]

def isList (written : List Node) (children : List Node) : Bool :=
  match children with
  | [] => false
  | [_] => written.head?.elim false fun child => (child.kind matches .jsxSpreadChild)
  | _ => true

-- ---------------------------------------------------------------------------
-- Attributes with a meaning of their own
-- ---------------------------------------------------------------------------

def isNamed (name : String) (attr : Node) : Bool :=
  match attr with
  | .mk .jsxAttribute _ (.mk (.name text) _ _ :: _) => text = name
  | _ => false

/-- Whether the key comes after attributes that are spread out, which may set another one. -/
def hasLateKey : List Node → Bool
  | [] => false
  | attr :: rest =>
    if isSpread attr then rest.any (isNamed "key") || hasLateKey rest else hasLateKey rest

def ownArguments (maker : Maker) : List String :=
  if maker.isDevelopment then ["key", "__source", "__self"] else ["key"]

def value? (maker : Maker) (attributes : List Node) (name : String) : Option Node :=
  (attributes.filter (isNamed name)).getLast?.map maker.attributeValue

-- ---------------------------------------------------------------------------
-- Calls
-- ---------------------------------------------------------------------------

def call (span : Span) (callee : Node) (arguments : List Node) : Node :=
  .mk .call span [callee, .list arguments]

/-- The call of an imported function for an element. A single child stands apart from the
attributes where the key does not. -/
def importedCall (maker : Maker) (span : Span) (tag : Node) (attributes written : List Node) : Node :=
  let children := written.filterMap child?
  if hasLateKey attributes then
    let (apart, together) := children.partition fun child => children.length = 1 && !isSpread child
    let props := Made.object (attributes.flatMap maker.properties ++ childrenProperty together)
    call span (maker.helper .spread) ([tag, props] ++ apart)
  else
    let isOwn (attr : Node) : Bool := maker.ownArguments.any fun name => isNamed name attr
    let passed := attributes.filter fun attr => !isOwn attr
    let props := Made.object (passed.flatMap maker.properties ++ childrenProperty children)
    let isList := isList written children
    let callee := maker.helper (if isList then .several else .single)
    let value? := maker.value? attributes
    if maker.isDevelopment then
      let valueOrVoid (name : String) : Node := (value? name).getD Made.void
      call span callee [tag, props, valueOrVoid "key", Made.bool isList, valueOrVoid "__source",
        valueOrVoid "__self"]
    else call span callee ([tag, props] ++ (value? "key").toList)

def attributesObject (maker : Maker) : List Node → Node
  | [] => Made.null
  | [attr] =>
    if isSpread attr then attr.child 0 else Made.object (maker.properties attr)
  | attributes => Made.object (attributes.flatMap maker.properties)

def element (maker : Maker) (span : Span) (tag : Node) (attributes written : List Node) : Node :=
  if maker.isAutomatic then maker.importedCall span tag attributes written
  else call span maker.factory ([tag, maker.attributesObject attributes] ++ written.filterMap child?)

def fragmentCall (maker : Maker) (span : Span) (written : List Node) : Node :=
  let children := written.filterMap child?
  if maker.isAutomatic then
    let isList := isList written children
    let props := Made.object (fragmentChildrenProperty isList children)
    call span (maker.helper (if isList then .several else .single))
      ([maker.helper .fragment, props] ++
        if maker.isDevelopment then [Made.void, Made.bool isList] else [])
  else call span maker.factory ([maker.fragment, Made.null] ++ children)

-- ---------------------------------------------------------------------------
-- Modules
-- ---------------------------------------------------------------------------

def isElement (node : Node) : Bool := node.kind matches .jsxElement | .jsxFragment

def convertStep (maker : Maker) (node : Node) (parts : List Node) : Node :=
  let part (i : Nat) : Node := parts.getD i .absent
  match node.kind with
  | .jsxElement => maker.element node.span (tagName (part 0)) (part 1).children (part 2).children
  | .jsxFragment => maker.fragmentCall node.span (part 1).children
  | .paren => if isElement (node.child 0) then part 0 else node.withChildren parts
  | .ident "this" _ => node.withKind .this
  | _ => node.withChildren parts

def converted (maker : Maker) (module : Node) : Node := module.fold maker.convertStep

def importDeclaration (maker : Maker) (module : Node) (package : String) (helpers : List Helper) :
    List Node :=
  let isUsed (helper : Helper) : Bool :=
    let v : Variable := ⟨helper.localName maker.isDevelopment, maker.scope⟩
    module.subnodes.any fun node => node.toVariable? = some v
  match helpers.filter isUsed with
  | [] => []
  | used =>
    let specifier (helper : Helper) : Node :=
      Made.node (.importNamed false)
        [maker.helper helper, Made.node (.name (helper.exportedName maker.isDevelopment)) []]
    [Made.node (.importDecl false .evaluation) ([Made.str package, .absent] ++ used.map specifier)]

def imports (maker : Maker) (module : Node) : List Node :=
  let entry := if maker.isDevelopment then "/jsx-dev-runtime" else "/jsx-runtime"
  let helpers := if maker.isDevelopment then [.single, .fragment] else [.single, .several, .fragment]
  maker.importDeclaration module (maker.package ++ entry) helpers ++
    maker.importDeclaration module maker.package [.spread]

end Maker

end TsBuild.Script.Jsx
