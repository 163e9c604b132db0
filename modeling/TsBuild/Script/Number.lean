import TsBuild.Binary64

/-!
# Numbers of a script

A number is a finite double, an infinity or not a number. Constant expressions are
computed on them, the bitwise operators on 32-bit words.
-/

namespace TsBuild.Script

inductive Number
  | finite (value : Binary64)
  | infinite (negative : Bool)
  | nan
  deriving DecidableEq, Repr, Inhabited

namespace Number

open Binary64 (power)

/-- A rounded result, or an infinity of the same sign when it is too large. -/
def ofRounded (negative : Bool) : Option Binary64 → Number
  | some x => finite x
  | none => infinite negative

def ofNat (n : Nat) : Number := ofRounded false (Binary64.ofNat? n)

def ofInt (n : Int) : Number :=
  ofRounded (n < 0) (Binary64.ofRatio? (n < 0) n.natAbs 1 0)

def neg : Number → Number
  | finite x => finite x.neg
  | infinite negative => infinite !negative
  | nan => nan

def signed (x : Binary64) : Int := if x.negative then -(x.mantissa : Int) else x.mantissa

def add : Number → Number → Number
  | finite x, finite y =>
    let e := min x.exponent y.exponent
    let sum := signed x * power 2 (x.exponent - e) + signed y * power 2 (y.exponent - e)
    let negative := if sum = 0 then x.negative && y.negative else sum < 0
    ofRounded negative (Binary64.ofRatio? negative sum.natAbs 1 e)
  | nan, _ | _, nan => nan
  | infinite a, infinite b => if a = b then infinite a else nan
  | infinite a, _ | _, infinite a => infinite a

def sub (x y : Number) : Number := add x y.neg

def isZero : Number → Bool
  | finite x => x.isZero
  | _ => false

def isNegative : Number → Bool
  | finite x => x.negative
  | infinite negative => negative
  | nan => false

def mul (x y : Number) : Number :=
  let negative := x.isNegative != y.isNegative
  match x, y with
  | finite a, finite b => ofRounded negative (a.mul? b)
  | nan, _ | _, nan => nan
  | _, _ => if x.isZero || y.isZero then nan else infinite negative

def div (x y : Number) : Number :=
  let negative := x.isNegative != y.isNegative
  match x, y with
  | finite a, finite b =>
    if b.isZero then if a.isZero then nan else infinite negative
    else ofRounded negative (a.div? b)
  | nan, _ | _, nan => nan
  | infinite _, infinite _ => nan
  | infinite _, finite _ => infinite negative
  | finite _, infinite _ => finite { Binary64.zero with negative }

def rem : Number → Number → Number
  | finite x, finite y =>
    if y.isZero then nan
    else
      let e := min x.exponent y.exponent
      let a := x.mantissa * power 2 (x.exponent - e)
      let b := y.mantissa * power 2 (y.exponent - e)
      ofRounded x.negative (Binary64.ofRatio? x.negative (a % b) 1 e)
  | finite x, infinite _ => finite x
  | _, _ => nan

def toInt? : Number → Option Int
  | finite x =>
    if 0 ≤ x.exponent then some (signed x * power 2 x.exponent)
    else
      let unit := power 2 (-x.exponent)
      if x.mantissa % unit = 0 then
        some (if x.negative then -(x.mantissa / unit : Nat) else (x.mantissa / unit : Nat))
      else none
  | _ => none

def truncate : Number → Int
  | finite x =>
    let whole := if 0 ≤ x.exponent then x.mantissa * power 2 x.exponent
      else x.mantissa / power 2 (-x.exponent)
    if x.negative then -(whole : Int) else whole
  | _ => 0

def toWord (x : Number) : Nat := (x.truncate % power 2 32).toNat

def ofSignedWord (n : Nat) : Number :=
  ofInt (if n ≥ power 2 31 then (n : Int) - power 2 32 else n)

/-- A power with an integer exponent, rounded once; powers of other kinds are not computed. -/
def pow (x y : Number) : Number :=
  match y.toInt?, x with
  | some n, finite a =>
    let negative := a.negative && n % 2 = 1
    let k := n.natAbs
    if n = 0 then ofNat 1
    else if k > 4096 then if a.isZero then finite a else infinite negative
    else if 0 < n then ofRounded negative (Binary64.ofRatio? negative (power a.mantissa k) 1 (a.exponent * k))
    else if a.isZero then infinite negative
    else ofRounded negative (Binary64.ofRatio? negative 1 (power a.mantissa k) (-(a.exponent * k)))
  | _, _ => nan

def not (x : Number) : Number := ofSignedWord (power 2 32 - 1 - x.toWord)
def and (x y : Number) : Number := ofSignedWord (x.toWord &&& y.toWord)
def or (x y : Number) : Number := ofSignedWord (x.toWord ||| y.toWord)
def xor (x y : Number) : Number := ofSignedWord (x.toWord ^^^ y.toWord)
def shiftLeft (x y : Number) : Number := ofSignedWord (x.toWord <<< (y.toWord % 32) % power 2 32)
def shiftRightZero (x y : Number) : Number := ofNat (x.toWord >>> (y.toWord % 32))

def shiftRight (x y : Number) : Number :=
  let n : Int := if x.toWord ≥ power 2 31 then (x.toWord : Int) - power 2 32 else x.toWord
  ofInt (n / power 2 (y.toWord % 32 : Nat))

/-- Positional up to twenty-one digits before the point and six zeros behind it. -/
def text : Number → String
  | nan => "NaN"
  | infinite negative => if negative then "-Infinity" else "Infinity"
  | finite x =>
    if x.isZero then "0"
    else
      let d := x.shortest.trim
      let digits := Nat.toDigits 10 d.digits
      let point := (digits.length : Int) + d.exponent
      let zeros (n : Int) := List.replicate n.toNat '0'
      let body :=
        if 0 ≤ d.exponent && point ≤ 21 then digits ++ zeros d.exponent
        else if 0 < point && point ≤ 21 then digits.take point.toNat ++ '.' :: digits.drop point.toNat
        else if -6 < point && point ≤ 0 then '0' :: '.' :: zeros (-point) ++ digits
        else
          let e := point - 1
          digits.take 1 ++ (if digits.length = 1 then [] else '.' :: digits.drop 1) ++
            'e' :: (if 0 ≤ e then ['+'] else []) ++ (toString e).toList
      (if x.negative then "-" else "") ++ String.ofList body

def positional : Number → String
  | nan => "NaN"
  | infinite negative => if negative then "-Infinity" else "Infinity"
  | finite x =>
    let d := x.shortest.trim
    let digits := Nat.toDigits 10 d.digits
    let zeros (n : Int) := List.replicate n.toNat '0'
    let point := (digits.length : Int) + d.exponent
    let body :=
      if x.isZero then ['0']
      else if 0 ≤ d.exponent then digits ++ zeros d.exponent
      else if 0 < point then digits.take point.toNat ++ '.' :: digits.drop point.toNat
      else '0' :: '.' :: zeros (-point) ++ digits
    (if x.negative then "-" else "") ++ String.ofList body

end Number

end TsBuild.Script
