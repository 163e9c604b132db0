import TsBuild.Script.Lexer

/-!
# What is to be written

A document says what to write piece by piece: texts, ends of lines, deeper
indentation, the source positions that texts come from, and the places where the
comments around a source position belong.
-/

namespace TsBuild.Script.Print

inductive Doc
  | empty
  | text (s : String)
  /-- What follows comes from a source position; position zero says nothing. -/
  | mark (pos : Pos)
  /-- Ends the line, unless nothing stands on it yet. -/
  | line
  | nest (inner : Doc)
  /-- The comments in front of a source position. -/
  | before (pos : Pos)
  /-- The comments behind a source position, set apart by a space or not. -/
  | behind (pos : Pos) (spaced : Bool)
  | append (first second : Doc)
  deriving Repr, Inhabited

namespace Doc

instance : Append Doc := ⟨append⟩
instance : Coe String Doc := ⟨text⟩

def concat : List Doc → Doc
  | [] => empty
  | [doc] => doc
  | doc :: rest => doc ++ concat rest

def joined (between : Doc) : List Doc → Doc
  | [] => empty
  | [doc] => doc
  | doc :: rest => doc ++ between ++ joined between rest

def guarded (condition : Bool) (doc : Doc) : Doc :=
  if condition then doc else empty

end Doc

end TsBuild.Script.Print
