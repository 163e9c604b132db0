import TsBuild.Script.Entity
import TsBuild.Script.Escape
import TsBuild.Script.Identifier
import TsBuild.Script.Token
import TsBuild.Text.Basic

/-!
# Reading tokens

Tokens are read one at a time. What a character begins depends on the brackets that are open:
inside a template the text runs up to the next `$\{`, and inside JSX up to the next tag. A stack
of contexts keeps track of that. Comments are put aside with the position they belong to.
-/

namespace TsBuild.Script

/-- A comment, without its marks. One that starts at zero was not read from the text. -/
structure Comment where
  isBlock : Bool
  start : Pos
  text : String
  deriving DecidableEq, Repr

inductive Context
  | braceStmt
  | braceExpr
  | quasi
  | parenStmt (isFor : Bool)
  | parenExpr
  | template
  | functionExpr
  | jsxOpeningTag
  | jsxClosingTag
  | jsxExpr
  deriving DecidableEq, Repr

def Context.isExpr : Context → Bool
  | braceExpr | quasi | parenExpr | template | functionExpr | jsxExpr => true
  | _ => false

structure Lexer where
  rest : List Char
  pos : Pos := 1
  jsx : Bool
  /-- Whether angle brackets are read one by one, as types want them. -/
  inType : Bool := false
  inPropertyName : Bool := false
  /-- Whether faults are dropped, as they are while a reading is only tried. -/
  quiet : Bool := false
  contexts : List Context := [.braceStmt]
  operandAllowed : Bool := true
  last : Option TokenKind := none
  lineBreak : Bool := false
  isFirst : Bool := true
  lastHi : Pos := 1
  pending : List Comment := []
  /-- Comments before a position, last first. -/
  leading : List (Pos × Comment) := []
  /-- Comments behind a position, last first. -/
  trailing : List (Pos × Comment) := []
  /-- Faults so far, last first. -/
  faults : List Fault := []
  deriving Repr, Inhabited

namespace Lexer

def ofText (jsx : Bool) (text : String) : Lexer := { rest := text.toList, jsx }

def skip (lexer : Lexer) (n : Nat) : Lexer :=
  { lexer with
    rest := lexer.rest.drop n
    pos := lexer.pos + Text.byteLength (lexer.rest.take n) }

def report (lexer : Lexer) (cause : Cause) (span : Span) : Lexer :=
  if lexer.quiet then lexer else { lexer with faults := ⟨cause, span⟩ :: lexer.faults }

@[simp] theorem rest_report (lexer : Lexer) (cause : Cause) (span : Span) :
    (lexer.report cause span).rest = lexer.rest := by
  unfold report
  split <;> rfl

def isSpace (c : Char) : Bool :=
  c = ' ' || c = '\t' || c = '\x0b' || c = '\x0c' || c = '\u00a0' || c = '\ufeff' ||
    (c.toNat ≥ 128 && Text.isBlank c && !isLineEnd c && c ≠ '\u0085')

def skipBlanks (lexer : Lexer) : Lexer :=
  let run := lexer.rest.takeWhile fun c => isSpace c || isLineEnd c
  let lexer := if run.any isLineEnd then { lexer with lineBreak := true } else lexer
  lexer.skip run.length

theorem length_rest_skipBlanks_le (lexer : Lexer) :
    lexer.skipBlanks.rest.length ≤ lexer.rest.length := by
  unfold skipBlanks skip
  dsimp only
  split <;> simp

def keepComment (lexer : Lexer) (isForNext : Bool) (comment : Comment) : Lexer :=
  if isForNext then { lexer with pending := lexer.pending ++ [comment] }
  else { lexer with trailing := (lexer.lastHi, comment) :: lexer.trailing }

/-- A comment to the end of its line, behind marks of some width. It belongs to the token before it
on the same line. -/
def lineComment (lexer : Lexer) (width : Nat) : Lexer :=
  let isForNext := lexer.lineBreak || !(lexer.last.elim true TokenKind.takesLineComment)
  let text := (lexer.rest.drop width).takeWhile fun c => !isLineEnd c
  let lexer := lexer.keepComment isForNext ⟨false, lexer.pos, String.ofList text⟩
  let lexer := lexer.skip (text.length + width)
  if lexer.rest.isEmpty then lexer else { lexer.skip 1 with lineBreak := true }

/-- A block comment. It belongs to the token before it on the same line if that token takes
comments or a semicolon follows. -/
def blockComment (lexer : Lexer) : Lexer :=
  let brokenBefore := lexer.lineBreak
  let start := lexer.pos
  match Text.cutAt? ['*', '/'] (lexer.rest.drop 2) with
  | none =>
    let lexer := lexer.skip lexer.rest.length
    lexer.report .unterminatedBlockComment ⟨lexer.pos, lexer.pos⟩
  | some (text, _) =>
    let lexer := if text.any isLineEnd then { lexer with lineBreak := true } else lexer
    let lexer := (lexer.skip (text.length + 4)).skipBlanks
    let isForNext := brokenBefore || !(lexer.last.elim false TokenKind.takesComment)
    let isForNext := isForNext && !(!brokenBefore && lexer.rest.head? = some ';')
    lexer.keepComment isForNext ⟨true, start, String.ofList text⟩

def skipSpace (lexer : Lexer) : Lexer :=
  let next := lexer.skipBlanks
  let after :=
    match next.rest with
    | '/' :: '/' :: _ => next.lineComment 2
    | '/' :: '*' :: _ => next.blockComment
    | _ => next
  if after.rest.length < next.rest.length then skipSpace after else after
termination_by lexer.rest.length
decreasing_by
  rename_i h
  exact Nat.lt_of_lt_of_le h (length_rest_skipBlanks_le lexer)

-- ---------------------------------------------------------------------------
-- Words
-- ---------------------------------------------------------------------------

def wrong (cause : Cause) (lo hi : Pos) : TokenKind := .error ⟨cause, ⟨lo, hi⟩⟩

def wordRest (start : Lexer) (chars : List Char) (isEscaped : Bool) (lexer : Lexer) : TokenKind × Lexer :=
  let finish : TokenKind × Lexer :=
    let text := String.ofList chars.reverse
    (if isEscaped && isReservedInModule text then wrong (.escapedKeyword text) start.pos lexer.pos
      else .word text, lexer)
  match lexer.rest with
  | '\\' :: 'u' :: rest =>
    let escape := Escape.unicode rest
    let next := lexer.skip (escape.taken + 2)
    match escape.fault? with
    | some cause => (wrong cause next.pos next.pos, next)
    | none =>
      let fits := if chars.isEmpty then isIdentStart else isIdentPart
      let next :=
        if (escape.chars.take 1).all fits then next
        else next.report .invalidIdentCharacter ⟨lexer.pos, next.pos⟩
      if next.rest.length < lexer.rest.length then
        wordRest start (escape.chars.reverse ++ chars) true next
      else finish
  | '\\' :: _ => (wrong .unicodeEscapeExpected lexer.pos lexer.pos, lexer.skip 1)
  | c :: _ =>
    let next := lexer.skip 1
    if !isIdentPart c then finish
    else if next.rest.length < lexer.rest.length then
      wordRest start (c :: chars) isEscaped next
    else finish
  | [] => finish
termination_by lexer.rest.length
decreasing_by all_goals assumption

def word (lexer : Lexer) : TokenKind × Lexer := wordRest lexer [] false lexer

-- ---------------------------------------------------------------------------
-- Numbers
-- ---------------------------------------------------------------------------

def digitValue (radix : Nat) (c : Char) : Option Nat :=
  (hexValue? c).bind fun d => if d < radix then some d else none

def forbidsSeparator (radix : Nat) (c : Char) : Bool :=
  if radix = 16 then ['.', 'X', 'x'].contains c
  else ['.', 'B', 'b', 'E', 'e', 'O', 'o'].contains c

/-- Digits and separators; the digits, how many characters, and the offsets of separators that
stand wrong. -/
def digitRun (radix : Nat) (previous : Char) (offset : Nat) : List Char → List Nat × Nat × List Nat
  | [] => ([], 0, [])
  | c :: rest =>
    if c = '_' then
      let bad := !(rest.head?.elim false fun next => (digitValue radix next).isSome) ||
        forbidsSeparator radix previous || rest.head?.elim false (forbidsSeparator radix)
      let (digits, count, wrong) := digitRun radix c (offset + 1) rest
      (digits, count + 1, if bad then offset :: wrong else wrong)
    else match digitValue radix c with
      | none => ([], 0, [])
      | some d =>
        let (digits, count, wrong) := digitRun radix c (offset + 1) rest
        (d :: digits, count + 1, wrong)

def digits (lexer : Lexer) (start : Pos) (radix : Nat) (previous : Char) : List Nat × Lexer :=
  let (ds, count, wrong) := digitRun radix previous 0 lexer.rest
  let lexer' := wrong.foldl (fun l offset => l.report .separator ⟨start, lexer.pos + offset⟩) lexer
  (ds, lexer'.skip count)

def digitsValue (radix : Nat) (ds : List Nat) : Nat := ds.foldl (fun n d => radix * n + d) 0

def textSince (start now : Lexer) : String :=
  String.ofList (start.rest.take (start.rest.length - now.rest.length))

def checkNumberEnd (lexer : Lexer) (kind : TokenKind) : TokenKind × Lexer :=
  match lexer.rest with
  | c :: _ =>
    if isIdentStart c then (wrong .identAfterNumber lexer.pos lexer.pos, lexer) else (kind, lexer)
  | [] => (kind, lexer)

def radixNumber (lexer : Lexer) (radix : Nat) : TokenKind × Lexer :=
  let start := lexer
  let (ds, lexer) := (lexer.skip 2).digits lexer.pos radix 'x'
  if ds.isEmpty then (wrong (.expectedDigit radix) lexer.pos lexer.pos, lexer)
  else match lexer.rest with
    | 'n' :: _ =>
      let lexer := lexer.skip 1
      (.bigint (textSince start lexer), lexer)
    | _ =>
      checkNumberEnd lexer (.num (.ofNat (digitsValue radix ds)) (textSince start lexer))

def numberExponent (start lexer : Lexer) (ds : List Nat) (places : Nat) : TokenKind × Lexer :=
  let finish (lexer : Lexer) (exponent : Int) : TokenKind × Lexer :=
    let n := digitsValue 10 ds
    let scaled : Option Binary64 :=
      if n = 0 then some .zero
      else if exponent > 400 then none
      else if exponent < -800 - ds.length then some .zero
      else Binary64.ofRatio? false (n * Binary64.power 10 exponent) (Binary64.power 10 (-exponent)) 0
    checkNumberEnd lexer (.num (.ofRounded false scaled) (textSince start lexer))
  match lexer.rest with
  | c :: _ =>
    if c = 'e' || c = 'E' then
      let lexer := lexer.skip 1
      match lexer.rest with
      | [] => (wrong .exponentDigits lexer.pos lexer.pos, lexer)
      | sign :: _ =>
        let lexer := if sign = '+' || sign = '-' then lexer.skip 1 else lexer
        let (es, lexer) := lexer.digits start.pos 10 'e'
        if es.isEmpty then (wrong (.expectedDigit 10) lexer.pos lexer.pos, lexer)
        else
          let e := min (digitsValue 10 es) 100000
          finish lexer ((if sign = '-' then -(e : Int) else e) - places)
    else finish lexer (-(places : Int))
  | [] => finish lexer (-(places : Int))

def numberFraction (start lexer : Lexer) (whole : List Nat) : TokenKind × Lexer :=
  match lexer.rest with
  | '.' :: _ =>
    let (ds, lexer) := (lexer.skip 1).digits start.pos 10 '.'
    numberExponent start lexer (whole ++ ds) ds.length
  | _ => numberExponent start lexer whole 0

def decimalNumber (lexer : Lexer) : TokenKind × Lexer :=
  let start := lexer
  let (ds, lexer) := lexer.digits lexer.pos 10 ' '
  match lexer.rest with
  | 'n' :: _ =>
    let lexer := lexer.skip 1
    (.bigint (textSince start lexer), lexer)
  | _ =>
    let legacyOctal (n : Nat) : TokenKind × Lexer :=
      let span : Span := ⟨start.pos, lexer.pos⟩
      let (kind, after) := checkNumberEnd lexer (.num (.ofNat n) (textSince start lexer))
      match kind with
      | .error .. => (kind, after)
      | _ => (kind, (after.report .legacyOctalLiteral span).report .legacyOctal span)
    if start.rest.head? = some '0' then
      if digitsValue 10 ds = 0 then
        if lexer.pos = start.pos + 1 then numberFraction start lexer ds else legacyOctal 0
      else if ds.any (· ≥ 8) then
        numberFraction start (lexer.report .legacyDecimal ⟨start.pos, lexer.pos⟩) ds
      else legacyOctal (digitsValue 8 ds)
    else numberFraction start lexer ds

-- ---------------------------------------------------------------------------
-- Strings and templates
-- ---------------------------------------------------------------------------

/-- The rest of a string behind its opening quote. A string ends at its quote; a line end or the
end of the text ends it too, with a fault. -/
def stringRest (start : Lexer) (quote : Char) (value : List Char) (lexer : Lexer) :
    TokenKind × Lexer :=
  let finish (lexer : Lexer) : TokenKind × Lexer :=
    (.str (String.ofList value.reverse) (textSince start lexer), lexer)
  match lexer.rest with
  | [] => finish (lexer.report .unterminatedString ⟨start.pos, lexer.pos⟩)
  | '\\' :: rest =>
    let escape := Escape.ofText rest
    let next := lexer.skip (escape.taken + 1)
    match escape.fault? with
    | some .legacyOctal =>
      if next.rest.length < lexer.rest.length then
        stringRest start quote (escape.chars.reverse ++ value)
          (next.report .legacyOctal ⟨lexer.pos, lexer.pos + 2⟩)
      else finish next
    | some cause => (wrong cause lexer.pos next.pos, next)
    | none =>
      if next.rest.length < lexer.rest.length then
        stringRest start quote (escape.chars.reverse ++ value) next
      else finish next
  | c :: _ =>
    let next := lexer.skip 1
    if c = quote then finish next
    else if c = '\n' || c = '\r' then
      finish (lexer.report .unterminatedString ⟨start.pos, lexer.pos⟩)
    else if next.rest.length < lexer.rest.length then stringRest start quote (c :: value) next
    else finish next
termination_by lexer.rest.length
decreasing_by
  · simpa using ‹_›
  all_goals assumption

/-- What was read of a template's text: what was written and its value, last first, and the last
fault in it. -/
structure TemplateText where
  raw : List Char := []
  cooked : List Char := []
  fault? : Option Fault := none

def templateText (text : TemplateText) (lexer : Lexer) : Option (TemplateText × Lexer) :=
  let step (n : Nat) (written chars : List Char) (fault? : Option Fault) : Option (TemplateText × Lexer) :=
    let next := lexer.skip n
    if next.rest.length < lexer.rest.length then
      templateText
        { raw := written.reverse ++ text.raw
          cooked := chars.reverse ++ text.cooked
          fault? := fault?.or text.fault? } next
    else none
  match lexer.rest with
  | [] => none
  | '\x60' :: _ => some (text, lexer)
  | '$' :: '\x7b' :: _ => some (text, lexer)
  | '\\' :: rest =>
    let escape := Escape.ofText rest
    let written := lexer.rest.take (escape.taken + 1)
    let width := if escape.fault? = some .legacyOctal then 2 else Text.byteLength written
    step (escape.taken + 1) written escape.chars
      (escape.fault?.map fun cause => ⟨cause, ⟨lexer.pos, lexer.pos + width⟩⟩)
  | '\r' :: '\n' :: _ => step 2 ['\n'] ['\n'] none
  | '\r' :: _ => step 1 ['\n'] ['\n'] none
  | c :: _ => step 1 [c] [c] none
termination_by lexer.rest.length

/-- A part of a template. A text stands between every two expressions, even if it is empty. -/
def templateToken (lexer : Lexer) : TokenKind × Lexer :=
  let afterText := lexer.last.elim false fun kind => kind matches .template ..
  match lexer.rest with
  | '\x60' :: _ =>
    if afterText then (.punct "`", lexer.skip 1) else (.template "" (some "") none, lexer)
  | '$' :: '\x7b' :: _ =>
    if afterText then (.punct "$\x7b", lexer.skip 2) else (.template "" (some "") none, lexer)
  | _ =>
    match templateText {} lexer with
    | some (text, next) =>
      let next := if text.raw.any isLineEnd then { next with lineBreak := true } else next
      let cooked := if text.fault?.isSome then none else some (String.ofList text.cooked.reverse)
      (.template (String.ofList text.raw.reverse) cooked text.fault?, next)
    | none =>
      let next := lexer.skip lexer.rest.length
      (wrong .eof next.pos next.pos, next)

def regex (lexer : Lexer) : TokenKind × Lexer :=
  let start := lexer
  let rec body (inClass escaped : Bool) : List Char → Option Nat
    | [] => none
    | c :: rest =>
      if isLineEnd c then none
      else if escaped then (body inClass false rest).map (· + 1)
      else if c = '/' && !inClass then some 0
      else
        let inClass := if c = '[' then true else if c = ']' then false else inClass
        (body inClass (c = '\\') rest).map (· + 1)
  match body false false (lexer.rest.drop 1) with
  | none =>
    let next := lexer.skip (lexer.rest.takeWhile fun c => !isLineEnd c).length
    (wrong .unterminatedRegex start.pos next.pos, next)
  | some n =>
    let pattern := (lexer.rest.drop 1).take n
    let lexer := lexer.skip (n + 2)
    let flags := lexer.rest.takeWhile isIdentPart
    (.regex (String.ofList pattern) (String.ofList flags), lexer.skip flags.length)

-- ---------------------------------------------------------------------------
-- JSX
-- ---------------------------------------------------------------------------

def jsxEntity? (cs : List Char) : Option (Char × Nat) := do
  let name := (cs.take 10).takeWhile (· ≠ ';')
  guard (name.length < (cs.take 10).length)
  let c ← match name with
    | '#' :: 'x' :: hex => 
      if !hex.isEmpty && hexDigitsOf hex = hex then some (Char.ofNat (hexNumber hex)) else none
    | '#' :: decimal =>
      if !decimal.isEmpty && decimal.all Char.isDigit then
        some (Char.ofNat (digitsValue 10 (decimal.map fun d => d.toNat - '0'.toNat)))
      else none
    | name => entity? (String.ofList name)
  pure (c, name.length + 1)

/-- The value of JSX text or of an attribute: entities resolved, line ends as line feeds. -/
def jsxValue (cs : List Char) : List Char :=
  match cs with
  | [] => []
  | '&' :: rest =>
    match jsxEntity? rest with
    | some (c, taken) =>
      if (rest.drop taken).length < cs.length then c :: jsxValue (rest.drop taken) else ['&']
    | none => '&' :: jsxValue rest
  | '\r' :: '\n' :: rest => '\n' :: jsxValue rest
  | c :: rest => c :: jsxValue rest
termination_by cs.length
decreasing_by
  · rw [List.length_drop]
    exact Nat.lt_succ_of_le (Nat.sub_le rest.length taken)
  · exact Nat.lt_succ_self _
  · exact Nat.lt_succ_of_lt (Nat.lt_succ_self _)
  · exact Nat.lt_succ_self _

def jsxString (lexer : Lexer) (quote : Char) : TokenKind × Lexer :=
  let body := (lexer.rest.drop 1).takeWhile (· ≠ quote)
  let next := lexer.skip (body.length + 1)
  if next.rest.isEmpty then (wrong .unterminatedString lexer.pos next.pos, next)
  else
    let next := next.skip 1
    (.str (String.ofList (jsxValue body)) (textSince lexer next), next)

def jsxText (lexer : Lexer) : TokenKind × Lexer :=
  let body := lexer.rest.takeWhile fun c => c ≠ '<' && c ≠ '\x7b'
  let next := lexer.skip body.length
  if next.rest.isEmpty then (wrong .unterminatedJsx lexer.pos next.pos, next)
  else
    let strays := body.zipIdx.filter fun (c, _) => c = '>' || c = '\x7d'
    let reported := strays.foldl (fun l (c, i) =>
      let at' := lexer.pos + Text.byteLength (body.take i)
      let suggestions := if c = '>' then ["`\x7b'>'\x7d`", "`&gt;`"] else ["`\x7b'\x7d'\x7d`", "`&rbrace;`"]
      l.report (.jsxTextToken suggestions) ⟨at', at'⟩) next
    (.jsxText (String.ofList (jsxValue body)) (String.ofList body), reported)

def jsxName (lexer : Lexer) : TokenKind × Lexer :=
  let name := lexer.rest.takeWhile fun c => isIdentPart c || c = '-'
  (.jsxName (String.ofList name), lexer.skip name.length)

-- ---------------------------------------------------------------------------
-- Tokens
-- ---------------------------------------------------------------------------

def longest (lexer : Lexer) (puncts : List String) : TokenKind × Lexer :=
  match puncts.find? fun p => Text.startsWith p.toList lexer.rest with
  | some p => (.punct p, lexer.skip p.length)
  | none => (wrong (.unexpectedCharacter "") lexer.pos lexer.pos, lexer.skip 1)

def showChar (c : Char) : String :=
  let n := c.toNat
  if c = '\'' then "'\\''"
  else if c = '\\' then "'\\\\'"
  else if n < 0x20 || (0x7f ≤ n && n < 0xa0) then
    "'\\u\x7b" ++ String.ofList (Nat.toDigits 16 n) ++ "\x7d'"
  else "'" ++ c.toString ++ "'"

/-- Past a line that modules cannot have: an old kind of comment, or the middle of a conflict
between two versions. -/
def strayLine? (lexer : Lexer) : Option Lexer :=
  if lexer.lineBreak && Text.startsWith "-->".toList lexer.rest then
    some ((lexer.report .legacyComment ⟨lexer.pos, lexer.pos + 3⟩).lineComment 3).skipSpace
  else if !lexer.inType && Text.startsWith "<!--".toList lexer.rest then
    let behind := (lexer.lineComment 4).skipSpace
    some (behind.report .legacyComment ⟨lexer.pos, behind.pos⟩)
  else if lexer.lineBreak && Text.startsWith "=======".toList lexer.rest then
    some ((lexer.report .conflictMarker ⟨lexer.pos, lexer.pos + 7⟩).lineComment 7).skipSpace
  else none

def opensConflict (lexer : Lexer) : Bool :=
  lexer.lineBreak &&
    (!lexer.inType &&
      (Text.startsWith "<<<<<<< ".toList lexer.rest || Text.startsWith ">>>>>>> ".toList lexer.rest) ||
      Text.startsWith "||||||| ".toList lexer.rest)

def conflict (lexer : Lexer) : TokenKind × Lexer :=
  let span : Span := ⟨lexer.pos, lexer.pos + 7⟩
  (.error ⟨.conflictMarker, span⟩, ((lexer.report .conflictMarker span).lineComment 7).skipSpace)

def plainToken (lexer : Lexer) : TokenKind × Lexer :=
  match lexer.rest with
  | [] => (wrong .eof lexer.pos lexer.pos, lexer)
  | c :: rest =>
    if lexer.opensConflict then lexer.conflict
    else if c = '0' then
      match rest with
      | 'x' :: _ | 'X' :: _ => lexer.radixNumber 16
      | 'o' :: _ | 'O' :: _ => lexer.radixNumber 8
      | 'b' :: _ | 'B' :: _ => lexer.radixNumber 2
      | _ => lexer.decimalNumber
    else if c.isDigit then lexer.decimalNumber
    else if c = '.' then
      match rest with
      | '.' :: '.' :: _ => (.punct "...", lexer.skip 3)
      | d :: _ => if d.isDigit then numberFraction lexer lexer [] else (.punct ".", lexer.skip 1)
      | [] => (.punct ".", lexer.skip 1)
    else if c = '"' || c = '\'' then stringRest lexer c [] (lexer.skip 1)
    else if isIdentStart c || c = '\\' then lexer.word
    else if (c = '<' || c = '>') && lexer.inType then (.punct c.toString, lexer.skip 1)
    else if "#@`~;,:()[]\x7b\x7d".toList.contains c then (.punct c.toString, lexer.skip 1)
    else if "?/=!*%^|&+-<>".toList.contains c then
      lexer.longest [">>>=", "===", "!==", "**=", "<<=", ">>=", ">>>", "&&=", "||=", "??=", "=>", "==", "!=",
        "**", "*=", "%=", "^=", "||", "|=", "&&", "&=", "++", "+=", "--", "-=", "<<", "<=", ">>", ">=",
        "??", "/=", "?", "/", "=", "!", "*", "%", "^", "|", "&", "+", "-", "<", ">"]
    else (wrong (.unexpectedCharacter (showChar c)) lexer.pos lexer.pos, lexer.skip 1)

def plainToken? (lexer : Lexer) : Option TokenKind × Lexer :=
  let plain : Option TokenKind × Lexer :=
    if lexer.rest.isEmpty then (none, lexer) else ((some lexer.plainToken.1), lexer.plainToken.2)
  match lexer.strayLine? with
  | some next => if next.rest.length < lexer.rest.length then plainToken? next else plain
  | none => plain
termination_by lexer.rest.length

def context (lexer : Lexer) : Option Context := lexer.contexts.head?

def readToken (lexer : Lexer) : Option TokenKind × Lexer :=
  let some' (read : TokenKind × Lexer) : Option TokenKind × Lexer := (some read.1, read.2)
  let current := lexer.context
  let jsx := lexer.jsx && !lexer.inPropertyName && !lexer.inType
  let c := lexer.rest.headD ' '
  let inTag := current = some .jsxOpeningTag || current = some .jsxClosingTag
  if jsx && current = some .jsxExpr then
    if c = '<' then
      if lexer.operandAllowed then (some .jsxTagStart, lexer.skip 1) else lexer.plainToken?
    else if c = '\x7b' then lexer.plainToken?
    else some' lexer.jsxText
  else if jsx && inTag && isIdentStart c then some' lexer.jsxName
  else if jsx && inTag && c = '>' then (some .jsxTagEnd, lexer.skip 1)
  else if jsx && current = some .jsxOpeningTag && (c = '\'' || c = '"') then some' (lexer.jsxString c)
  else if jsx && c = '<' && lexer.operandAllowed && lexer.rest[1]?.elim false (· ≠ '!') then
    (some .jsxTagStart, lexer.skip 1)
  else if current = some .template then some' lexer.templateToken
  else lexer.plainToken?

-- ---------------------------------------------------------------------------
-- Contexts
-- ---------------------------------------------------------------------------

def isBraceBlock (lexer : Lexer) : Bool :=
  let byContext :=
    match lexer.last with
    | none => true
    | some (.word text) =>
      if text = "return" || text = "yield" then lexer.lineBreak
      else if text = "else" then true
      else !lexer.operandAllowed
    | some (.punct text) =>
      if [";", ")", "=>", "<", ">"].contains text then true
      else if text = "\x7b" then
        if lexer.context = some .braceExpr && lexer.contexts[1]? = some .jsxOpeningTag then true
        else lexer.context = some .braceStmt
      else !lexer.operandAllowed
    | _ => !lexer.operandAllowed
  if lexer.last = some (.punct ":") then
    match lexer.context with
    | some .braceStmt => true
    | some .braceExpr => false
    | _ => byContext
  else byContext

/-- The contexts after a token, and whether an operand may come next. -/
def contextsAfter (lexer : Lexer) (kind : TokenKind) (brokenBeforeLast : Bool) : List Context × Bool :=
  let contexts := lexer.contexts
  let isPrevDot := lexer.last = some (.punct ".")
  match kind with
  | .word text =>
    if isKeyword text && isPrevDot then (contexts, false)
    else if text = "function" then
      if lexer.operandAllowed && !lexer.isBraceBlock then (.functionExpr :: contexts, false)
      else (contexts, false)
    else if isKnownWord text then (contexts, kind.beforeOperand)
    else if text = "of" && contexts.head? = some (.parenStmt true) then
      (contexts, !(lexer.last.elim false TokenKind.beforeOperand))
    else match lexer.last with
      | some (.word previous) =>
        (contexts, (previous = "let" || previous = "const" || previous = "var") && brokenBeforeLast)
      | _ => (contexts, false)
  | .punct text =>
    if text = ")" || text = "\x7d" then
      match contexts with
      | [] | [_] => (contexts, true)
      | out :: below =>
        if out = .braceStmt && below.head? = some .functionExpr then (below.drop 1, false)
        else if out = .quasi then (below, below.head? ≠ some .template)
        else (below, !out.isExpr)
    else if text = "\x7b" then
      if lexer.jsx && contexts.head? = some .jsxOpeningTag then (.braceExpr :: contexts, true)
      else if lexer.jsx && contexts.head? = some .jsxExpr then (.quasi :: contexts, true)
      else (if lexer.isBraceBlock then .braceStmt :: contexts else .braceExpr :: contexts, true)
    else if text = "/" && lexer.jsx && lexer.last = some .jsxTagStart then
      (.jsxClosingTag :: contexts.drop 2, false)
    else if text = "$\x7b" then (.quasi :: contexts, true)
    else if text = "(" then
      let opened := match lexer.last with
        | some (.word previous) =>
          if previous = "if" || previous = "with" || previous = "while" then Context.parenStmt false
          else if previous = "for" then .parenStmt true
          else .parenExpr
        | _ => .parenExpr
      (opened :: contexts, true)
    else if text = "++" || text = "--" then (contexts, lexer.operandAllowed)
    else if text = "`" then
      if contexts.head? = some .template then (contexts.drop 1, false)
      else (.template :: contexts, false)
    else (contexts, kind.beforeOperand)
  | .jsxTagStart => (.jsxOpeningTag :: .jsxExpr :: contexts, false)
  | .jsxTagEnd =>
    match contexts with
    | out :: below =>
      if (out = .jsxOpeningTag && lexer.last = some (.punct "/")) || out = .jsxClosingTag then
        (below.drop 1, (below.drop 1).head? = some .jsxExpr)
      else (below, true)
    | [] => ([], true)
  | kind => (contexts, kind.beforeOperand)

def finishComments (lexer : Lexer) : Lexer :=
  let placed := lexer.pending.map fun comment => (lexer.lastHi, comment)
  if lexer.lastHi = 1 then { lexer with pending := [], leading := placed.reverse ++ lexer.leading }
  else { lexer with pending := [], trailing := placed.reverse ++ lexer.trailing }

def nextBy (read : Lexer → Option TokenKind × Lexer) (lexer : Lexer) : Option Token × Lexer :=
  let first := lexer.isFirst
  match (if first then Text.dropPrefix? ['#', '!'] lexer.rest else none) with
  | some text =>
    let line := text.takeWhile fun c => !isLineEnd c
    let after := lexer.skip (line.length + 2)
    let span : Span := ⟨lexer.pos, after.pos⟩
    (some ⟨.shebang (String.ofList line), span, true⟩,
      { after with isFirst := false, lastHi := after.pos, last := some (.shebang ""), operandAllowed := false })
  | none =>
    let lexer := { lexer with lineBreak := first, isFirst := false }
    let keepsSpace := lexer.context = some .template || lexer.context = some .jsxExpr
    let lexer := if keepsSpace then lexer else lexer.skipSpace
    if lexer.rest.isEmpty then (none, lexer.finishComments)
    else
      let start := lexer.pos
      match read lexer with
      | (none, after) => (none, after.finishComments)
      | (some kind, after) =>
        let (contexts, operandAllowed) :=
          contextsAfter { lexer with lineBreak := after.lineBreak } kind after.lineBreak
        (some ⟨kind, ⟨start, after.pos⟩, after.lineBreak⟩,
          { after with
            contexts
            operandAllowed
            last := some kind
            lastHi := after.pos
            pending := []
            leading := (after.pending.map fun comment => (start, comment)).reverse ++ after.leading })

def next (lexer : Lexer) : Option Token × Lexer := lexer.nextBy readToken

def nextRegex (lexer : Lexer) : Option Token × Lexer := lexer.nextBy fun start => (some start.regex.1, start.regex.2)

end Lexer

end TsBuild.Script
