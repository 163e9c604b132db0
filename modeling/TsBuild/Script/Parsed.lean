import TsBuild.Script.Grammar.Module

/-!
# Scripts read from texts

The tree of a script with its comments, and the faults found on the way. A fault that ends the
reading leaves no tree; other faults leave one that nothing should be made of.
-/

namespace TsBuild.Script

/-- How a text is to be read: with elements in it, and as declarations only. -/
structure Dialect where
  jsx : Bool
  declarations : Bool
  deriving DecidableEq, Repr

structure Parsed where
  /-- The whole module, unless a fault ended the reading. -/
  module? : Option Node
  /-- In the order in which they were found. -/
  faults : List Fault
  /-- Comments with the positions they stand before. -/
  leading : List (Pos × Comment)
  /-- Comments with the positions they stand behind. -/
  trailing : List (Pos × Comment)

/-- Reads a script. Every rule takes a token within a few steps down, so a bound on the depth that
is a multiple of the text's length is never met. -/
def parse (dialect : Dialect) (text : String) : Parsed :=
  let size := text.length + 8
  let lexer := Lexer.ofText dialect.jsx text
  let setting : Grammar.Setting :=
    { isAmbient := dialect.declarations, isDeclarationFile := dialect.declarations }
  let start : Grammar.Reading := { lexer, mark := lexer, size, setting }
  let result (s : Grammar.Reading) (module? : Option Node) (fatal : List Fault) : Parsed :=
    { module?
      faults := s.lexer.faults.reverse ++ fatal
      leading := s.lexer.leading.reverse
      trailing := s.lexer.trailing.reverse }
  match @Grammar.module ⟨Grammar.readWithin (8 * size)⟩ start with
  | .ok node s => result s (some node) []
  | .error fault s => result s none [fault]

end TsBuild.Script
