import TsBuild.Json.Skip
import TsBuild.Json.Writer

/-!
# Reading JSON records

A record is an object with named fields, each at most once and all optional, or
an array with the fields in order. Fields of other names are skipped. A value of
the wrong shape is complained about behind it, or behind the bracket or comma
that follows.
-/

namespace TsBuild.Json

open Reader

def displayChar (c : Char) : List Char :=
  match c with
  | '"' => ['\\', '"']
  | '\\' => ['\\', '\\']
  | '\n' => ['\\', 'n']
  | '\r' => ['\\', 'r']
  | '\t' => ['\\', 't']
  | '\x00' => ['\\', '0']
  | c =>
    if c.toNat < 0x20 || (0x7f ≤ c.toNat && c.toNat < 0xa0) then
      ['\\', 'u', '\x7b'] ++ Nat.toDigits 16 c.toNat ++ ['\x7d']
    else [c]

def describe : Json → String
  | .null => "null"
  | .bool value => "boolean `" ++ (if value then "true" else "false") ++ "`"
  | .number (.int value) => "integer `" ++ toString value ++ "`"
  | .number (.float value) => "floating point `" ++ floatText value ++ "`"
  | .string value => "string " ++ String.ofList ('"' :: value.toList.flatMap displayChar ++ ['"'])
  | .array _ => "sequence"
  | .object _ => "map"

/-- A complaint about a value: a scalar is read first, a bracket is not. -/
def wrongType (expected : String) : Reader α := do
  match ← peekToken with
  | some '[' => fail (.other ("invalid type: sequence, expected " ++ expected))
  | some '\x7b' => fail (.other ("invalid type: map, expected " ++ expected))
  | _ => do
    let met ← value 0
    fail (.other ("invalid type: " ++ met.describe ++ ", expected " ++ expected))

def readFlag : Reader Bool := do
  match ← peekToken with
  | none => fail .eofInValue
  | some 't' => do skip 1; ident ['r', 'u', 'e']; pure true
  | some 'f' => do skip 1; ident ['a', 'l', 's', 'e']; pure false
  | some _ => wrongType "a boolean"

/-- A field: its name, and how its value changes the record. The value may read and
still be refused. -/
structure Field (σ : Type) where
  name : String
  read : σ → Reader (Except Cause σ)

def failMember (cause : Cause) : Reader α := do
  match ← peekToken with
  | some '\x7d' => do skip 1; fail cause
  | _ => fail cause

/-- Complains about an item of an array: behind the bracket if that comes next, and in front of
the next item otherwise. -/
def failItem (cause : Cause) : Reader α := do
  match ← peekToken with
  | some ']' => do skip 1; fail cause
  | some ',' => do skip 1; let _ ← peekToken; fail cause
  | _ => fail cause

def recordMembers (fields : List (Field σ)) (init : σ) : Reader σ :=
  loop (fun (state : Bool × List String × σ) => do
    let (started, met, record) := state
    let member : Reader ((Bool × List String × σ) ⊕ σ) := do
      skip 1
      let key ← stringRest
      match fields.find? fun field => field.name = key with
      | some field =>
        if met.contains key then failMember (.other ("duplicate field `" ++ key ++ "`"))
        else
          match ← peekToken with
          | none => fail .eofInObject
          | some ':' => do
            skip 1
            match ← field.read record with
            | .ok record => pure (.inl (true, key :: met, record))
            | .error cause => failMember cause
          | some _ => failNext .expectedColon
      | none =>
        match ← peekToken with
        | none => fail .eofInObject
        | some ':' => do
          skip 1
          skipValue
          pure (.inl (true, met, record))
        | some _ => failNext .expectedColon
    match ← peekToken with
    | none => fail .eofInObject
    | some '\x7d' => do skip 1; pure (.inr record)
    | some c =>
      if !started then if c = '"' then member else failNext .keyMustBeString
      else if c = ',' then do
        skip 1
        match ← peekToken with
        | some '"' => member
        | some '\x7d' => failNext .trailingComma
        | some _ => failNext .keyMustBeString
        | none => fail .eofInValue
      else failNext .expectedObjectCommaOrEnd)
    (fail .eofInObject) (false, [], init)

def recordEnd : Reader Unit := do
  match ← peekToken with
  | none => fail .eofInList
  | some ']' => skip 1
  | some ',' => do
    skip 1
    match ← peekToken with
    | some ']' => failNext .trailingComma
    | _ => failNext .trailingCharacters
  | some _ => failNext .trailingCharacters

def recordItems (first : Bool) (record : σ) : List (Field σ) → Reader σ
  | [] => do recordEnd; pure record
  | field :: fields => do
    let item : Reader σ := do
      match ← field.read record with
      | .ok record => recordItems false record fields
      | .error cause => failItem cause
    match ← peekToken with
    | none => fail .eofInList
    | some ']' => do skip 1; pure record
    | some c =>
      if first then item
      else if c = ',' then do
        skip 1
        match ← peekToken with
        | some ']' => failNext .trailingComma
        | some _ => item
        | none => fail .eofInValue
      else failNext .expectedListCommaOrEnd

def readRecord (name : String) (fields : List (Field σ)) (init : σ) (text : String) :
    Except ReadError σ :=
  let record : Reader σ := do
    let result ← match ← peekToken with
      | none => fail .eofInValue
      | some '\x7b' => do skip 1; recordMembers fields init
      | some '[' => do skip 1; recordItems true init fields
      | some _ => wrongType ("struct " ++ name)
    match ← peekToken with
    | none => pure result
    | some _ => failNext .trailingCharacters
  match record ⟨text.toList, 0⟩ with
  | .ok (result, _) => .ok result
  | .error fault => .error (fault.locate text.toList)

end TsBuild.Json
