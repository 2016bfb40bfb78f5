/-! Binary64 numbers as exact values. A finite number is `± m · 2^q`, with the sign of zero kept;
reading a decimal rounds to the nearest such number, a half going to the even one. One value is
no number, and compares with nothing. -/
namespace TypedClient

inductive Double where
  | finite (negative : Bool) (m : Nat) (q : Int)
  | infinite (negative : Bool)
  | nan
deriving DecidableEq, Repr, Inhabited

namespace Double

/-- The least exponent, that of the numbers nearest to zero. -/
def leastExponent : Int := -1074

/-- The exponent of the largest numbers. -/
def mostExponent : Int := 971

/-- `num / den` rounded to a whole number; a half goes to the even neighbour. -/
def roundHalfEven (num den : Nat) : Nat :=
  let k := num / den
  let r := 2 * (num % den)
  if r < den ∨ (r = den ∧ k % 2 = 0) then k else k + 1

/-- `n · b^e` as numerator and denominator. -/
def scaled (n b : Nat) (e : Int) : Nat × Nat :=
  if 0 ≤ e then (n * Nat.pow b e.toNat, 1) else (n, Nat.pow b (-e).toNat)

/-- The largest `e` with `2^e ≤ num / den`. -/
def binaryLog (num den : Nat) : Int :=
  let e := Int.ofNat num.log2 - Int.ofNat den.log2
  let (p, r) := scaled 1 2 e
  if p * den ≤ num * r then e else e - 1

/-- The nearest number to a positive fraction. -/
def ofFraction (negative : Bool) (num den : Nat) : Double :=
  let least := binaryLog num den - 52
  let q := if least < leastExponent then leastExponent else least
  let (p, r) := scaled 1 2 q
  let m := roundHalfEven (num * r) (den * p)
  let (m, q) := if m = Nat.pow 2 53 then (Nat.pow 2 52, q + 1) else (m, q)
  if mostExponent < q then .infinite negative else .finite negative m q

/-- The nearest number to `digits · 10^exponent`. Numbers far outside the range are not expanded. -/
def ofDecimal (negative : Bool) (digits : Nat) (exponent : Int) : Double :=
  let point := exponent + (Nat.toDigits 10 digits).length
  if digits = 0 ∨ point < -330 then .finite negative 0 leastExponent
  else if 320 < point then .infinite negative
  else
    let (num, den) := scaled digits 10 exponent
    ofFraction negative num den

def isZero : Double → Bool
  | .finite _ m _ => m == 0
  | .infinite _ | .nan => false

end Double

/-- A number of either kind by its value: a dyadic fraction `n · 2^q`, an infinity or none. -/
inductive Quantity where
  | dyadic (n q : Int)
  | infinite (negative : Bool)
  | none
deriving Repr

namespace Quantity

def ofInt (n : Int) : Quantity :=
  .dyadic n 0

def ofDouble : Double → Quantity
  | .finite negative m q => .dyadic (if negative then -(m : Int) else m) q
  | .infinite negative => .infinite negative
  | .nan => .none

/-- Both fractions over the smaller power of two. -/
def aligned (a p b q : Int) : Int × Int :=
  let least := if p ≤ q then p else q
  let power (e : Int) : Int := Int.ofNat (Nat.pow 2 (e - least).toNat)
  (a * power p, b * power q)

def le : Quantity → Quantity → Bool
  | .dyadic a p, .dyadic b q => let (x, y) := aligned a p b q; x ≤ y
  | .infinite s, .infinite t => s || !t
  | .infinite s, .dyadic _ _ => s
  | .dyadic _ _, .infinite t => !t
  | _, _ => false

def same (x y : Quantity) : Bool :=
  le x y && le y x

end Quantity

end TypedClient
