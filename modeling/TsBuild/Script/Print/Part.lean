import TsBuild.Script.Node
import TsBuild.Script.Print.Doc

/-!
# Documents of nodes

What is written for a node depends on what is written for the nodes below it, on the role it
plays for the node above it, and on little else. A part is a node with its document for each
role, and with its own parts.
-/

namespace TsBuild.Script.Print

structure Setting where
  /-- Whether a comment stands in front of a position. -/
  commentBefore : Pos → Bool
  /-- Whether a comment that ends a line stands in front of a position. -/
  lineEndBefore : Pos → Bool
  /-- Whether a list that ends a span has a comma behind its last item. -/
  trailingComma : Span → Bool

inductive Role
  | plain
  | body
  | property
  | pattern
  | head
  | exported
  | tag
  deriving DecidableEq, Repr

inductive Part
  | mk (node : Node) (docs : Role → Doc) (parts : List Part)

namespace Part

def node : Part → Node
  | mk node _ _ => node

def docAs : Part → Role → Doc
  | mk _ docs _ => docs

def doc (part : Part) : Doc := part.docAs .plain

def parts : Part → List Part
  | mk _ _ parts => parts

def kind (part : Part) : Kind := part.node.kind
def span (part : Part) : Span := part.node.span

def absent : Part := mk .absent (fun _ => .empty) []

instance : Inhabited Part := ⟨absent⟩

def isAbsent (part : Part) : Bool := part.node.isAbsent

def part (part : Part) (i : Nat) : Part := part.parts.getD i absent

mutual
def ofNode (render : Node → List Part → Role → Doc) : Node → Part
  | .mk kind span children =>
    let parts := ofNodes render children
    mk (.mk kind span children) (render (.mk kind span children) parts) parts
def ofNodes (render : Node → List Part → Role → Doc) : List Node → List Part
  | [] => []
  | node :: rest => ofNode render node :: ofNodes render rest
end

end Part

open Doc

-- ---------------------------------------------------------------------------
-- Lists
-- ---------------------------------------------------------------------------

structure ListStyle where
  /-- Whether commas stand between the items. -/
  commas : Bool := false
  /-- Whether each item stands on lines of its own. -/
  broken : Bool := false
  indented : Bool := false
  /-- Whether spaces stand between the items. -/
  spaced : Bool := false
  /-- Whether spaces stand at the ends of a list with items. -/
  padded : Bool := false
  /-- Whether a comma behind the last item is kept, and a space if there is no item. -/
  keepsComma : Bool := false
  deriving DecidableEq, Repr

namespace ListStyle

def arguments : ListStyle := { commas := true, spaced := true }
def braced : ListStyle := { commas := true, spaced := true, padded := true }
def names : ListStyle := { braced with keepsComma := true }
def literal : ListStyle := { commas := true, broken := true, indented := true }
def lines : ListStyle := { broken := true, indented := true }
def plain : ListStyle := {}

end ListStyle

def listItem (style : ListStyle) (role : Role) (parent : Span) (item : Part) : Doc :=
  item.docAs role ++ guarded (style.commas && item.node.hi ≠ parent.hi) (behind item.node.hi false)

def itemsAs (role : Role) (setting : Setting) (style : ListStyle) (parent : Span) (parts : List Part) :
    Doc :=
  let edge : Doc := if style.broken then line else if style.padded then " " else empty
  let between : Doc :=
    guarded style.commas "," ++ if style.broken then line else if style.spaced then " " else empty
  if parts.isEmpty then guarded style.broken line ++ guarded style.keepsComma " "
  else
    let comma := guarded (style.keepsComma && setting.trailingComma parent) ", "
    let inner := edge ++ joined between (parts.map (listItem style role parent)) ++ comma
    (if style.indented then nest inner else inner) ++ edge

def items : Setting → ListStyle → Span → List Part → Doc := itemsAs .plain

-- ---------------------------------------------------------------------------
-- Pieces of documents
-- ---------------------------------------------------------------------------

def start (node : Node) : Doc := before node.lo ++ mark node.lo

def startMark (node : Node) : Doc := mark node.lo
def endMark (node : Node) : Doc := mark node.hi

/-- The position of the last character of a node, where its closing bracket stands. -/
def closeMark (node : Node) : Doc := mark (node.hi - 1)

def after (node : Node) : Doc := behind node.hi true

end TsBuild.Script.Print
