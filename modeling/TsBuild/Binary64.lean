/-!
# Binary floating-point numbers

A finite double is kept as a sign and `mantissa * 2 ^ exponent`. Arithmetic is
exact on natural numbers and rounds once, to the nearest double and to the even
one of two. `shortest` gives the fewest decimal digits that read back.
-/

namespace TsBuild

/-- A finite double in canonical form: the mantissa has 53 bits, or fewer at the least exponent. -/
structure Binary64 where
  negative : Bool
  mantissa : Nat
  exponent : Int
  deriving DecidableEq, Repr, Inhabited

namespace Binary64

def leastExponent : Int := -1074
def greatestExponent : Int := 971

def zero : Binary64 := ⟨false, 0, leastExponent⟩

def isZero (x : Binary64) : Bool := x.mantissa = 0

def neg (x : Binary64) : Binary64 := { x with negative := !x.negative }

def divNearest (num den : Nat) : Nat :=
  let q := num / den
  let twice := 2 * (num % den)
  if twice > den || (twice = den && q % 2 = 1) then q + 1 else q

def power (base : Nat) (n : Int) : Nat := Nat.pow base n.toNat

/-- The double nearest to `num / den * 2 ^ scale`; none when that is past the greatest double. -/
def ofRatio? (negative : Bool) (num den : Nat) (scale : Int) : Option Binary64 :=
  if num = 0 then some ⟨negative, 0, leastExponent⟩
  else
    let guess : Int := (Nat.log2 num : Int) - Nat.log2 den + scale - 53
    let quotient (e : Int) := (num * power 2 (scale - e), den * power 2 (e - scale))
    let fits (e : Int) : Bool :=
      let (n, d) := quotient e
      n < d * power 2 53
    let e := [guess, guess + 1, guess + 2].find? fits |>.getD (guess + 2)
    let e := max e leastExponent
    let (n, d) := quotient e
    let m := divNearest n d
    let (m, e) := if m = power 2 53 then (power 2 52, e + 1) else (m, e)
    if e > greatestExponent then none else some ⟨negative, m, e⟩

def ofNat? (n : Nat) : Option Binary64 := ofRatio? false n 1 0

def mul? (x y : Binary64) : Option Binary64 :=
  ofRatio? (x.negative != y.negative) (x.mantissa * y.mantissa) 1 (x.exponent + y.exponent)

def div? (x y : Binary64) : Option Binary64 :=
  ofRatio? (x.negative != y.negative) x.mantissa y.mantissa (x.exponent - y.exponent)

structure Decimal where
  digits : Nat
  exponent : Int
  deriving DecidableEq, Repr

/-- The order of `digits * 10 ^ k` and `quarters * 2 ^ (q - 2)`. -/
def compareDecimal (d : Decimal) (quarters : Nat) (q : Int) : Ordering :=
  compare (d.digits * power 10 d.exponent * power 2 (2 - q))
    (quarters * power 2 (q - 2) * power 10 (-d.exponent))

def decimalExponent (x : Binary64) : Int :=
  let scaled := x.mantissa * power 2 x.exponent * power 10 330 / power 2 (-x.exponent)
  ((Nat.toDigits 10 scaled).length : Int) - 331

/-- Whether a decimal rounds to `x`, the sign apart. The ends of the interval belong to the
double with the even mantissa; below a power of two the interval is half as wide. -/
def readsBack (x : Binary64) (d : Decimal) : Bool :=
  let m := x.mantissa
  let low := if m = power 2 52 && x.exponent > leastExponent then 4 * m - 1 else 4 * m - 2
  let above := compareDecimal d low x.exponent
  let below := compareDecimal d (4 * m + 2) x.exponent
  let closed := m % 2 = 0
  (above = .gt || (closed && above = .eq)) && (below = .lt || (closed && below = .eq))

/-- The decimal with `n` digits that reads back as `x`, the nearest if two do. -/
def withDigits? (x : Binary64) (n : Nat) : Option Decimal :=
  let k := decimalExponent x - n + 1
  let num := x.mantissa * power 2 x.exponent * power 10 (-k)
  let den := power 2 (-x.exponent) * power 10 k
  let down : Decimal := ⟨num / den, k⟩
  let up : Decimal := ⟨num / den + 1, k⟩
  let nearest : Decimal := ⟨divNearest num den, k⟩
  if readsBack x down && readsBack x up then some nearest
  else if readsBack x down then some down
  else if readsBack x up then some up
  else none

def shortest (x : Binary64) : Decimal :=
  ((List.range 18).drop 1).findSome? (withDigits? x) |>.getD ⟨x.mantissa, x.exponent⟩

def Decimal.trim (d : Decimal) : Decimal :=
  let digits := Nat.toDigits 10 d.digits
  let zeros := (digits.reverse.takeWhile (· = '0')).length
  ⟨d.digits / power 10 zeros, d.exponent + zeros⟩

end Binary64

end TsBuild
