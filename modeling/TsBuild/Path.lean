import TsBuild.Text.Basic

/-!
# Paths

A path is its text: segments between slashes, absolute when it starts with one.
Everything here is lexical. `components` gives a path its meaning; `normalize`
folds the components through a stack, so that `.` segments go away and `..`
takes back the segment before it.
-/

namespace TsBuild.Path

open TsBuild (Text.splitOn)

def dependencyDir : String := "node_modules"

def isAbsolute (path : String) : Bool :=
  path.toList.head? = some '/'

/-- One step of a path. A `.` counts only as the first segment of a relative path. -/
inductive Component
  | root
  | current
  | parent
  | name (segment : List Char)
  deriving DecidableEq, Repr

namespace Component

def text : Component → List Char
  | root => ['/']
  | current => ['.']
  | parent => ['.', '.']
  | name segment => segment

def ofSegment? (segment : List Char) : Option Component :=
  if segment = [] then none
  else if segment = ['.'] then none
  else if segment = ['.', '.'] then some parent
  else some (name segment)

end Component

def components (path : String) : List Component :=
  let segments := (Text.splitOn '/' path.toList).filterMap Component.ofSegment?
  if isAbsolute path then .root :: segments
  else if (Text.splitOn '/' path.toList).head? = some ['.'] then .current :: segments
  else segments

def push (stack : List Component) : Component → List Component
  | .current => stack
  | .root => [.root]
  | .name segment => .name segment :: stack
  | .parent =>
    match stack with
    | .name _ :: below => below
    | .root :: _ => stack
    | _ => .parent :: stack

def render : List Component → List Char
  | .root :: rest => '/' :: Text.joinWith ['/'] (rest.map Component.text)
  | parts => Text.joinWith ['/'] (parts.map Component.text)

/-- The path without `.` segments, each `..` folded into the segment before it.
A `..` at the root stays at the root; one with nothing before it is kept. -/
def normalize (path : String) : String :=
  String.ofList (render ((components path).foldl push []).reverse)

/-- `path` read inside the directory `base`; an absolute path stands for itself. -/
def join (base path : String) : String :=
  if isAbsolute path then path
  else if base.isEmpty || base.toList.getLast? = some '/' then base ++ path
  else base ++ "/" ++ path

def absolutize (path cwd : String) : String :=
  if isAbsolute path then normalize path else normalize (join cwd path)

def inDependencyDir (path : String) : Bool :=
  (components path).any fun c => c = .name dependencyDir.toList

/-- Drops slashes and `.` segments at the end, down to the root or a lone `.`.
The argument and the result are reversed. -/
def trimReversed : List Char → List Char
  | ['/'] => ['/']
  | '/' :: rest => trimReversed rest
  | '.' :: '/' :: rest => trimReversed ('/' :: rest)
  | cs => cs
termination_by cs => cs.length

def parentReversed? (cs : List Char) : Option (List Char) :=
  match trimReversed cs with
  | [] | ['/'] => none
  | cs => some (trimReversed (cs.dropWhile (· ≠ '/')))

def parent? (path : String) : Option String :=
  (parentReversed? path.toList.reverse).map fun cs => String.ofList cs.reverse

def ancestors (path : String) : List String :=
  go path.toList.reverse
where
  /-- On reversed text. -/
  go (cs : List Char) : List String :=
    String.ofList cs.reverse ::
      match parentReversed? cs with
      | none => []
      | some above => if above.length < cs.length then go above else []
  termination_by cs.length

/-- The last segment, unless the path ends in `..` or is a root or `.`. -/
def fileName? (path : String) : Option (List Char) :=
  match (components path).getLast? with
  | some (.name segment) => some segment
  | _ => none

/-- What follows the last dot of a segment that has one after its first character. -/
def extensionOf? (path : String) : Option String := do
  let segment ← fileName? path
  guard ('.' ∈ segment.drop 1)
  pure (String.ofList ('.' :: (segment.reverse.takeWhile (· ≠ '.')).reverse))

def hasStart (start path : String) : Bool :=
  Text.startsWith start.toList path.toList

def hasEnding (ending path : String) : Bool :=
  Text.endsWith ending.toList path.toList

/-- The extensions of the files that are compiled, in the order resolution tries them. -/
def scriptExtensions : List String := [".ts", ".tsx"]

def isScript (path : String) : Bool :=
  match extensionOf? path with
  | some extension => scriptExtensions.contains extension
  | none => false

end TsBuild.Path
