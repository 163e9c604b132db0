import TsBuild.Diagnostic.Basic
import TsBuild.Script.Node

/-!
# Literals and their annotations

A variable or class property with an annotation and a literal initial value is
checked: the type of the literal has to be among the keyword types the
annotation is made of. Anything else in the annotation, and any other initial
value, leaves it unchecked.
-/

namespace TsBuild.Program

open Script (Node Keyword)

inductive LiteralType
  | string | number | boolean | bigint | null | undefined
  deriving DecidableEq, Repr

namespace LiteralType

def text : LiteralType → String
  | string => "string"
  | number => "number"
  | boolean => "boolean"
  | bigint => "bigint"
  | null => "null"
  | undefined => "undefined"

def negate? : LiteralType → Option LiteralType
  | number => some number
  | bigint => some bigint
  | _ => none

def affirm? : LiteralType → Option LiteralType
  | number => some number
  | _ => none

/-- The type of a literal, parentheses and signs included. A template without expressions is one. -/
def of? : Node → Option LiteralType
  | .mk (.str ..) _ _ => some string
  | .mk (.num ..) _ _ => some number
  | .mk (.bool _) _ _ => some boolean
  | .mk (.bigint _) _ _ => some bigint
  | .mk .null _ _ => some null
  | .mk .template _ [_] => some string
  | .mk (.ident name _) _ _ => if name = "undefined" then some undefined else none
  | .mk (.unary .minus) _ (operand :: _) => (of? operand).bind negate?
  | .mk (.unary .plus) _ (operand :: _) => (of? operand).bind affirm?
  | .mk .paren _ (inner :: _) => of? inner
  | _ => none

def belongsTo (literal : LiteralType) (keyword : Keyword) : Bool :=
  match literal, keyword with
  | string, .string | number, .number | boolean, .boolean | bigint, .bigint | null, .null
  | undefined, .undefined | undefined, .void => true
  | _, _ => false

def isNullish : LiteralType → Bool
  | null | undefined => true
  | _ => false

/-- Whether a literal may be given to a keyword type. Without strict null checks `null` and
`undefined` may be given to any. -/
def fits (strict : Bool) (literal : LiteralType) (keyword : Keyword) : Bool :=
  match keyword with
  | .any | .unknown | .intrinsic => true
  | _ => (!strict && literal.isNullish) || literal.belongsTo keyword

end LiteralType

mutual
def keywords? : Node → Option (List Keyword)
  | .mk (.keyword keyword) _ _ => some [keyword]
  | .mk .typeParen _ (inner :: _) => keywords? inner
  | .mk .union _ members => unionKeywords? members
  | _ => none
def unionKeywords? : List Node → Option (List Keyword)
  | [] => some []
  | member :: rest => do pure ((← keywords? member) ++ (← unionKeywords? rest))
end

structure AnnotatedLiteral where
  literal : LiteralType
  keywords : List Keyword
  /-- The annotation as it is written. -/
  typeText : String
  /-- The byte range of the name. -/
  start : Nat
  length : Nat
  deriving DecidableEq, Repr

namespace AnnotatedLiteral

def accepted (strict : Bool) (annotated : AnnotatedLiteral) : Bool :=
  annotated.keywords.any (annotated.literal.fits strict)

def diagnostic (file : SourceFile) (annotated : AnnotatedLiteral) : Diagnostic :=
  (Diagnostic.error 2322 ("Type '" ++ annotated.literal.text ++ "' is not assignable to type '" ++
    annotated.typeText ++ "'.")).pointingAt file annotated.start annotated.length

end AnnotatedLiteral

def spanText? (text : List Char) (span : Script.Span) : Option (List Char) :=
  let before := Text.takeBytes (span.lo - 1) text
  let within := Text.takeBytes (span.hi - span.lo) (Text.dropBytes (span.lo - 1) text)
  if Text.byteLength before = span.lo - 1 && Text.byteLength within = span.hi - span.lo then some within
  else none

def annotatedLiteral? (text : List Char) (name : Script.Span) (type init : Node) :
    Option AnnotatedLiteral := do
  pure {
    literal := ← LiteralType.of? init
    keywords := ← keywords? type
    typeText := ((spanText? text type.span).map fun cs => String.ofList (Text.trim cs)).getD "unknown"
    start := name.lo - 1
    length := name.hi - name.lo }

/-- What is to be checked at a node itself: a variable, or a class property that is neither
private nor only declared. -/
def annotatedLiteralAt? (text : List Char) (node : Node) : Option AnnotatedLiteral :=
  match node with
  | .mk (.declarator _) _ (.mk (.binding _) _ (name :: type :: _) :: init :: _) =>
    annotatedLiteral? text name.span type init
  | .mk (.property modifiers) _ (_ :: key :: init :: type :: _) =>
    if modifiers.isDeclared || (key.kind matches .privateName _) then none
    else annotatedLiteral? text key.span type init
  | _ => none

end TsBuild.Program
