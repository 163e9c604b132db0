import TsBuild.Script.Made
import TsBuild.Script.Place

/-!
# Where elements are written

In development an element is told where it was written, and by which object it is made. The
attributes of an element do not reach out to the elements in them: those have no such object.
-/

namespace TsBuild.Script.Jsx.Origin

def attr (name : String) (value : Node) : Node :=
  Made.node .jsxAttribute [Made.node (.name name) [], Made.node .jsxContainer [value]]

def property (name : String) (value : Node) : Node :=
  Made.keyValue (Made.node (.name name) []) value

/-- The file, line and column of a position, both counted from one. -/
def source (fileName : String) (table : Array Place) (pos : Pos) : Node :=
  let place := Place.lookup table pos
  attr "__source" (Made.object [property "fileName" (Made.str fileName),
    property "lineNumber" (Made.number (place.line + 1)),
    property "columnNumber" (Made.number (place.column + 1))])

def locatedStep (fileName : String) (table : Array Place) (node : Node)
    (parts : List (Bool → Node)) (inAttribute : Bool) : Node :=
  let children := parts.map fun part => part inAttribute
  match node.kind with
  | .jsxElement =>
    let attributes := ((parts.drop 1).take 1).map fun part => part true
    let located (attributes : Node) : Node :=
      let origin := source fileName table attributes.lo ::
        if inAttribute then [] else [attr "__self" Made.this]
      attributes.withChildren (attributes.children ++ origin)
    node.withChildren (children.take 1 ++ attributes.map located ++ children.drop 2)
  | _ => node.withChildren children

def located (fileName text : String) (module : Node) : Node :=
  module.fold (locatedStep fileName (Place.table text)) false

end TsBuild.Script.Jsx.Origin
