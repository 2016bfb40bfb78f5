import TypedClient.Decimal.Double

/-! The fewest decimal digits that read back as a given binary64 number, and of those the
nearest to it. For each number of digits the two neighbours on the decimal grid are tried. -/
namespace TypedClient.Decimal

open Double (scaled)

/-- The number `0.d₁d₂… · 10^point`, with `digits` written in `count` places. -/
structure Digits where
  digits : Nat
  count : Nat
  point : Int
deriving Repr, DecidableEq

/-- Compares `c · 10^s` with `x · 2^t`. -/
def compareScaled (c : Nat) (s : Int) (x : Nat) (t : Int) : Ordering :=
  let (cn, cd) := scaled c 10 s
  let (xn, xd) := scaled x 2 t
  compare (cn * xd) (xn * cd)

/-- A decimal lies among the reals that round to `m · 2^q`. The ends count if `m` is even. Below
a power of two the lower gap is half as wide. -/
def roundsTo (m : Nat) (q : Int) (c : Nat) (s : Int) : Bool :=
  let low := if m = Nat.pow 2 52 ∧ Double.leastExponent < q then 4 * m - 1 else 4 * m - 2
  let atLow := compareScaled c s low (q - 2)
  let atHigh := compareScaled c s (4 * m + 2) (q - 2)
  if m % 2 = 0 then atLow != .lt && atHigh != .gt else atLow == .gt && atHigh == .lt

/-- The `k` with `10^(k-1) ≤ num / den < 10^k`, for a positive fraction. -/
def pointOf (num den : Nat) : Int :=
  if den ≤ num then (Nat.toDigits 10 (num / den)).length
  else
    let j := (Nat.toDigits 10 (den / num)).length
    if den = num * Nat.pow 10 (j - 1) then 2 - (j : Int) else 1 - (j : Int)

/-- The better of the two neighbours with `count` digits, if one reads back. -/
def nearest? (m : Nat) (q : Int) (point : Int) (count : Nat) : Option Digits :=
  let s := point - count
  let (vn, vd) := scaled m 2 q
  let (gn, gd) := scaled 1 10 s
  let low := (vn * gd) / (vd * gn)
  let digits? : Option Nat :=
    match roundsTo m q low s, roundsTo m q (low + 1) s with
    | true, false => some low
    | false, true => some (low + 1)
    | false, false => none
    | true, true =>
      match compareScaled (2 * low + 1) s (2 * m) q with
      | .gt => some low
      | .lt => some (low + 1)
      | .eq => some (if low % 2 = 0 then low else low + 1)
  digits?.map fun d => if d = Nat.pow 10 count then ⟨1, 1, point + 1⟩ else ⟨d, count, point⟩

/-- The shortest digits of a positive number; seventeen always suffice. -/
def shortest (m : Nat) (q : Int) : Digits :=
  let (vn, vd) := scaled m 2 q
  let point := pointOf vn vd
  ((List.range' 1 17).findSome? (nearest? m q point)).getD ⟨0, 1, 1⟩

/-- How digits are laid out: the points written positionally, and the least number of digits of
an exponent. -/
structure Layout where
  leastPoint : Int
  mostPoint : Int
  exponentPlaces : Nat

/-- A number in digits: positionally with at least one decimal, or with a signed exponent. -/
def Digits.text (layout : Layout) (d : Digits) : String :=
  let ds := Nat.toDigits 10 d.digits
  let zeros (n : Int) := List.replicate n.toNat '0'
  let n : Int := d.count
  if layout.leastPoint ≤ d.point ∧ d.point ≤ layout.mostPoint then
    String.ofList <|
      if d.point ≤ 0 then '0' :: '.' :: (zeros (-d.point) ++ ds)
      else if n ≤ d.point then ds ++ zeros (d.point - n) ++ ['.', '0']
      else ds.take d.point.toNat ++ '.' :: ds.drop d.point.toNat
  else
    let e := d.point - 1
    let places := Nat.toDigits 10 e.natAbs
    let mantissa := if d.count ≤ 1 then ds else ds.take 1 ++ '.' :: ds.drop 1
    String.ofList <| mantissa ++ 'e' :: (if e < 0 then '-' else '+') ::
      (zeros (layout.exponentPlaces - places.length) ++ places)

/-- A binary64 number in shortest form, with the sign of zero; words for what has no digits. -/
def text (layout : Layout) (infinity nan : String) : Double → String
  | .finite negative m q =>
    let sign := if negative then "-" else ""
    sign ++ if m = 0 then "0.0" else (shortest m q).text layout
  | .infinite negative => (if negative then "-" else "") ++ infinity
  | .nan => nan

end TypedClient.Decimal
