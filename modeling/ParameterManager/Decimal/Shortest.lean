/-
The shortest decimal that reads back as a given binary number.

A finite double is `m · 2^q`.  The reals that round to it form an interval around it;
its ends belong to it when `m` is even.  On the grid of decimals with one digit, then
with two, and so on, only the two neighbours of the number can be nearest to it, so
the first grid that has a neighbour inside the interval gives the answer.  All
comparisons are exact, between natural numbers.
-/

namespace ParameterManager.Decimal

/-- The decimal number `digits · 10^exponent`. -/
structure Scientific where
  digits : Nat
  exponent : Int
  deriving DecidableEq, Repr

/-- A positive fraction. -/
structure Ratio where
  num : Nat
  den : Nat
  deriving DecidableEq, Repr

namespace Ratio

/-- The fraction `n · b^e`. -/
def scaled (n b : Nat) (e : Int) : Ratio :=
  if 0 ≤ e then ⟨n * Nat.pow b e.toNat, 1⟩ else ⟨n, Nat.pow b (-e).toNat⟩

/-- Whether one fraction is less than another. -/
def lt (a b : Ratio) : Bool := a.num * b.den < b.num * a.den

/-- The distance between two fractions. -/
def distance (a b : Ratio) : Ratio :=
  ⟨(a.num * b.den - b.num * a.den) + (b.num * a.den - a.num * b.den), a.den * b.den⟩

/-- The whole part of a fraction. -/
def floor (a : Ratio) : Nat := a.num / a.den

end Ratio

/-- How many decimal digits a number has. -/
def digitCount (n : Nat) : Nat := (Nat.toDigits 10 n).length

/-- The decimal exponent of the leading digit of a positive fraction. -/
def leadingExponent (r : Ratio) : Int :=
  if r.den ≤ r.num then (digitCount r.floor : Int) - 1
  else
    -- one digit too many when the inverse is exactly a power of ten
    let k := digitCount (r.den / r.num)
    if r.den ≤ r.num * Nat.pow 10 (k - 1) then -((k : Int) - 1) else -(k : Int)

/-- The interval of reals that round to a binary number. -/
structure Rounding where
  low : Ratio
  value : Ratio
  high : Ratio
  closed : Bool
  deriving DecidableEq, Repr

namespace Rounding

/-- The interval of `m · 2^q`; `narrow` when the next smaller number is half as far away. -/
def ofBinary (m : Nat) (q : Int) (narrow : Bool) : Rounding where
  low := .scaled (4 * m - if narrow then 1 else 2) 2 (q - 2)
  value := .scaled (4 * m) 2 (q - 2)
  high := .scaled (4 * m + 2) 2 (q - 2)
  closed := m % 2 == 0

/-- Whether a fraction rounds to the number. -/
def contains (i : Rounding) (r : Ratio) : Bool :=
  if i.closed then !r.lt i.low && !i.high.lt r else i.low.lt r && r.lt i.high

/-- The neighbour with `n` digits that rounds to the number, the nearer one if both do. -/
def neighbour? (i : Rounding) (n : Nat) : Option Scientific :=
  let e := leadingExponent i.value - (n - 1 : Nat)
  let below := (Ratio.mk (i.value.num * (Ratio.scaled 1 10 (-e)).num)
    (i.value.den * (Ratio.scaled 1 10 (-e)).den)).floor
  let point (d : Nat) : Ratio := .scaled d 10 e
  match i.contains (point below), i.contains (point (below + 1)) with
  | true, false => some ⟨below, e⟩
  | false, true => some ⟨below + 1, e⟩
  | false, false => none
  | true, true =>
    let down := i.value.distance (point below)
    let up := i.value.distance (point (below + 1))
    if up.lt down || (!down.lt up && below % 2 == 1) then some ⟨below + 1, e⟩ else some ⟨below, e⟩

/-- The decimal with the fewest digits that rounds to the number; seventeen always suffice. -/
def shortest (i : Rounding) : Scientific :=
  ((List.range' 1 17).findSome? i.neighbour?).getD ⟨0, 0⟩

end Rounding

/-- A number without trailing zeros in its digits; the count bounds how many are dropped. -/
def dropZeros : Nat → Scientific → Scientific
  | n + 1, s =>
    if s.digits % 10 = 0 ∧ s.digits ≠ 0 then dropZeros n ⟨s.digits / 10, s.exponent + 1⟩ else s
  | 0, s => s

/-- The shortest decimal of a finite double, without its sign. -/
def ofFloat (f : Float) : Scientific :=
  let bits := f.toBits.toNat
  let exponent : Nat := bits / Nat.pow 2 52 % 2048
  let fraction : Nat := bits % Nat.pow 2 52
  if exponent = 0 ∧ fraction = 0 then ⟨0, 0⟩
  else
    let i := if exponent = 0 then Rounding.ofBinary fraction (-1074) false
      else .ofBinary (Nat.pow 2 52 + fraction) ((exponent : Int) - 1075)
        (fraction = 0 ∧ exponent > 1)
    dropZeros 20 i.shortest

/-! ### Layout -/

/-- How a decimal is laid out: which positions of the point are written without an
exponent, counted from the first digit. -/
structure Layout where
  leastPoint : Int
  greatestPoint : Int
  deriving DecidableEq, Repr

def zeros (n : Nat) : List Char := List.replicate n '0'

/-- A decimal as text: a fraction always has a digit on both sides of the point, and an
exponent always has a sign. -/
def Layout.write (l : Layout) (s : Scientific) : List Char :=
  let ds := Nat.toDigits 10 s.digits
  let point : Int := ds.length + s.exponent
  if s.digits = 0 then ['0', '.', '0']
  else if point < l.leastPoint ∨ l.greatestPoint < point then
    let e := point - 1
    let fraction := if ds.length = 1 then [] else '.' :: ds.drop 1
    let sign := if e < 0 then '-' else '+'
    ds.take 1 ++ fraction ++ ['e', sign] ++ Nat.toDigits 10 e.natAbs
  else if point ≤ 0 then ['0', '.'] ++ zeros (-point).toNat ++ ds
  else if (ds.length : Int) ≤ point then ds ++ zeros (point - ds.length).toNat ++ ['.', '0']
  else ds.take point.toNat ++ ['.'] ++ ds.drop point.toNat

/-- Numbers from a hundred thousandth up to sixteen digits before the point are written
without an exponent. -/
def plainLayout : Layout := ⟨-4, 16⟩

/-- A finite double as text. -/
def floatText (f : Float) : String :=
  let text := plainLayout.write (ofFloat f)
  String.ofList (if f.toBits.toNat / Nat.pow 2 63 = 1 then '-' :: text else text)

end ParameterManager.Decimal
