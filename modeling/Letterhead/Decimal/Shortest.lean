import Letterhead.Decimal.Binary64
import Letterhead.Text.Basic
/-
# Shortest decimals

A number is written with the fewest digits that read back as the same number,
and of those with the decimal nearest to it. The real numbers that read back as
`m · 2 ^ e` lie between the middles to its neighbours; the middles belong to it
when `m` is even.
-/
namespace Letterhead.Binary64

/-- The decimal `digits · 10 ^ exponent`. -/
structure Decimal where
  digits : Nat
  exponent : Int
deriving DecidableEq, Repr

/-- The real numbers that read back as a positive number, in quarters of its
unit `2 ^ exponent`. -/
structure Cell where
  low : Nat
  middle : Nat
  high : Nat
  /-- The exponent of a quarter. -/
  exponent : Int
  endsIncluded : Bool

/-- The cell of `m · 2 ^ e`. Below a power of two the numbers lie twice as dense. -/
def cell (m : Nat) (e : Int) : Cell :=
  let low := if m = leastFull && leastExponent < e then 4 * m - 1 else 4 * m - 2
  ⟨low, 4 * m, 4 * m + 2, e - 2, m % 2 = 0⟩

/-- The weight of one quarter against one step of a decimal grid, as a quotient. -/
def Cell.quarter (c : Cell) (grid : Int) : Nat × Nat :=
  (powPos 10 (-grid) * powPos 2 c.exponent, powPos 10 grid * powPos 2 (-c.exponent))

def Cell.holds (c : Cell) (grid : Int) (n : Nat) : Bool :=
  let (num, den) := c.quarter grid
  if c.endsIncluded then c.low * num ≤ n * den && n * den ≤ c.high * num
  else c.low * num < n * den && n * den < c.high * num

/-- The point of a decimal grid that lies in the cell nearest to its middle, if
one of the two around the middle lies in it. -/
def Cell.onGrid? (c : Cell) (grid : Int) : Option Nat :=
  let (num, den) := c.quarter grid
  let below := c.middle * num / den
  let gapBelow := c.middle * num - below * den
  let gapAbove := (below + 1) * den - c.middle * num
  let nearest :=
    if gapBelow < gapAbove then below
    else if gapAbove < gapBelow then below + 1
    else if below % 2 = 0 then below else below + 1
  let other := if nearest = below then below + 1 else below
  if c.holds grid nearest then some nearest
  else if c.holds grid other then some other
  else none

/-- The place of the first digit: the number lies below `10 ^ place` and not
below `10 ^ (place - 1)`. -/
def place (m : Nat) (e : Int) : Int :=
  let bits : Int := m.log2 + e
  let guess := Int.fdiv (bits * 30103) 100000
  let reaches (p : Int) : Bool :=
    powPos 10 p * powPos 2 (-e) ≤ m * powPos 2 e * powPos 10 (-p)
  if reaches (guess + 1) then guess + 2
  else if reaches guess then guess + 1
  else guess

/-- The first grid from `n` to `n + left` digits with a point in the cell. -/
def Cell.search (c : Cell) (place : Int) : Nat → Nat → Decimal
  | n, 0 => ⟨(c.onGrid? (place - n)).getD 0, place - n⟩
  | n, left + 1 =>
    match c.onGrid? (place - n) with
    | some d => ⟨d, place - n⟩
    | none => c.search place (n + 1) left

/-- The shortest decimal that reads back as `m · 2 ^ e`; 17 digits always do. -/
def shortest (m : Nat) (e : Int) : Decimal := (cell m e).search (place m e) 1 16

/-- The spellings of the numbers that are no decimals. -/
structure Names where
  infinity : Text
  nan : Text

/-- How far decimals are written without an exponent: while the point stands
behind at most four zeros that lead the digits, or at most sixteen places on. -/
def isPositional (point : Int) : Bool := -4 < point && point ≤ 16

/-- Digits with a point behind the first `point` of them. A whole number keeps
one zero behind the point, and an exponent has a sign and two digits at least. -/
def layout (digits : Text) (point : Int) : Text :=
  if isPositional point then
    if point ≤ 0 then '0' :: '.' :: List.replicate (-point).toNat '0' ++ digits
    else if digits.length ≤ point.toNat then
      digits ++ List.replicate (point.toNat - digits.length) '0' ++ ['.', '0']
    else digits.take point.toNat ++ '.' :: digits.drop point.toNat
  else
    let mantissa := match digits with
      | d :: [] => [d]
      | d :: ds => d :: '.' :: ds
      | [] => []
    let exponent := point - 1
    mantissa ++ 'e' :: (if exponent < 0 then '-' else '+') ::
      Text.ofNatPadded 10 2 exponent.natAbs

/-- The digits of a decimal without zeros at the end. -/
def trimmedDigits (n : Nat) : Text :=
  match (Text.ofNat n).reverse.dropWhile (· == '0') with
  | [] => ['0']
  | ds => ds.reverse

def write (names : Names) : Binary64 → Text
  | nan => names.nan
  | infinite negative => if negative then '-' :: names.infinity else names.infinity
  | finite negative m e =>
    let body :=
      if m = 0 then ['0', '.', '0']
      else
        let d := shortest m e
        layout (trimmedDigits d.digits) ((Text.ofNat d.digits).length + d.exponent)
    if negative then '-' :: body else body

end Letterhead.Binary64
