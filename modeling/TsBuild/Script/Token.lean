import TsBuild.Script.Cause
import TsBuild.Script.Node

/-!
# Tokens

Words, punctuators and literals, each with its span and whether a line break comes before it.
Which words are keywords depends on the word alone; where a keyword may stand as a name is for
the grammar to say.
-/

namespace TsBuild.Script

structure Fault where
  cause : Cause
  span : Span
  deriving DecidableEq, Repr, Inhabited

inductive TokenKind
  /-- A word, its escapes resolved. -/
  | word (text : String)
  | punct (text : String)
  | str (value raw : String)
  | num (value : Number) (raw : String)
  | bigint (raw : String)
  | regex (pattern flags : String)
  /-- A part of a template: its text, and its value unless an escape in it is wrong. -/
  | template (raw : String) (cooked : Option String) (fault? : Option Fault)
  | shebang (text : String)
  | jsxName (text : String)
  | jsxText (value raw : String)
  | jsxTagStart
  | jsxTagEnd
  /-- What could not be read. -/
  | error (fault : Fault)
  deriving DecidableEq, Repr, Inhabited

structure Token where
  kind : TokenKind
  span : Span
  /-- Whether a line break separates it from the token before. -/
  afterLineBreak : Bool
  deriving Repr, Inhabited

def keywords : List String :=
  ["await", "break", "case", "catch", "continue", "debugger", "default", "do", "else", "finally",
    "for", "function", "if", "return", "switch", "throw", "try", "var", "let", "const", "while",
    "with", "new", "this", "super", "class", "extends", "export", "import", "yield", "in",
    "instanceof", "typeof", "void", "delete"]

def isKeyword (word : String) : Bool := keywords.contains word

def isKnownWord (word : String) : Bool :=
  isKeyword word || word = "null" || word = "true" || word = "false"

/-- Words that never name a variable: the keywords but for a few, the names of literals, and two more. -/
def isReserved (word : String) : Bool :=
  isKnownWord word && !(["let", "await", "yield"].contains word) || ["enum", "package"].contains word

def isStrictReserved (word : String) : Bool :=
  ["implements", "interface", "let", "package", "private", "protected", "public", "static",
    "yield"].contains word

def isReservedInModule (word : String) : Bool :=
  word = "await" || word ≠ "static" && (isReserved word || isStrictReserved word)

def isBinaryPunct (text : String) : Bool :=
  ["==", "!=", "===", "!==", "<", "<=", ">", ">=", "<<", ">>", ">>>", "+", "-", "*", "/", "%", "|",
    "^", "&", "||", "&&", "**", "??"].contains text

def isAssignPunct (text : String) : Bool :=
  ["=", "+=", "-=", "*=", "/=", "%=", "<<=", ">>=", ">>>=", "|=", "^=", "&=", "**=", "&&=", "||=",
    "??="].contains text

namespace TokenKind

def show' : TokenKind → String
  | word text => text
  | punct text => text
  | str value raw => "string literal (" ++ value ++ ", " ++ raw ++ ")"
  | num value raw => "numeric literal (" ++ value.text ++ ", " ++ raw ++ ")"
  | bigint raw => "bigint literal (" ++ String.ofList (raw.toList.dropLast) ++ ", " ++ raw ++ ")"
  | regex pattern flags => "regexp literal (" ++ pattern ++ ", " ++ flags ++ ")"
  | template raw .. => "template token (" ++ raw ++ ")"
  | shebang text => "shebang (" ++ text ++ ")"
  | jsxName text => "jsx name (" ++ text ++ ")"
  | jsxText _ raw => "jsx text (" ++ raw ++ ")"
  | jsxTagStart => "< (jsx tag start)"
  | jsxTagEnd => "> (jsx tag end)"
  | error .. => "<lexing error>"

def isPunct (kind : TokenKind) (text : String) : Bool :=
  match kind with
  | punct t => t = text
  | _ => false

def isWord (kind : TokenKind) (text : String) : Bool :=
  match kind with
  | word t => t = text
  | _ => false

/-- Whether an operand may follow, as far as the token alone can say. -/
def beforeOperand : TokenKind → Bool
  | word text =>
    ["await", "case", "default", "do", "else", "return", "throw", "new", "extends", "yield", "in",
      "instanceof", "typeof", "void", "delete"].contains text
  | punct text =>
    isBinaryPunct text || isAssignPunct text ||
      ["=>", "...", "!", "(", "\x7b", "[", ";", ",", ":", "$\x7b", "?", "++", "--", "~"].contains text
  | jsxText .. => true
  | _ => false

def takesComment : TokenKind → Bool
  | word text => !isKeyword text && !(["null", "true", "false"].contains text)
  | punct text => [";", "\x7b", "\x7d", "$\x7b"].contains text
  | str .. | num .. | bigint .. | regex .. | jsxText .. => true
  | _ => false

def takesLineComment : TokenKind → Bool
  | punct text => !isBinaryPunct text
  | _ => true

end TokenKind

end TsBuild.Script
