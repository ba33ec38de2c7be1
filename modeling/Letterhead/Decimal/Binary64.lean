/-
# Binary floating point numbers

A finite number is a sign, a mantissa below `2 ^ 53` and a power of two, in
exact integers. Reading a decimal rounds to the nearest such number, and of two
that are equally near takes the one with the even mantissa.
-/
namespace Letterhead

/-- A number of the binary format of 64 bits. -/
inductive Binary64
  | finite (negative : Bool) (mantissa : Nat) (exponent : Int)
  | infinite (negative : Bool)
  | nan
deriving DecidableEq, Repr

namespace Binary64

/-- The least exponent; at it a mantissa may be below `2 ^ 52`. -/
def leastExponent : Int := -1074

def greatestExponent : Int := 971

/-- The quotient rounded to the nearest integer, a tie to the even one. -/
def roundDiv (num den : Nat) : Nat :=
  let q := num / den
  let r := num % den
  if 2 * r < den then q
  else if den < 2 * r then q + 1
  else if q % 2 = 0 then q else q + 1

/-- `10 ^ e` or `2 ^ e` as far as `e` is positive. -/
def powPos (base : Nat) (e : Int) : Nat := Nat.pow base e.toNat

/-- `2 ^ 52`, the least mantissa of a number with all its digits. -/
def leastFull : Nat := 4503599627370496

/-- The number nearest to a positive quotient. -/
def ofQuotient (negative : Bool) (num den : Nat) : Binary64 :=
  let e : Int := (num.log2 : Int) - (den.log2 : Int) - 52
  let full (e : Int) : Bool := leastFull * den * powPos 2 e ≤ num * powPos 2 (-e)
  let e := if full e then e else e - 1
  let e := if e < leastExponent then leastExponent else e
  let m := roundDiv (num * powPos 2 (-e)) (den * powPos 2 e)
  let (m, e) := if m = 2 * leastFull then (leastFull, e + 1) else (m, e)
  if greatestExponent < e then .infinite negative else .finite negative m e

/-- The number nearest to `digits · 10 ^ exponent`. Decimals beyond every
number of the format are told by their length alone. -/
def ofDecimal (negative : Bool) (digits : Nat) (exponent : Int) : Binary64 :=
  let places : Int := (Nat.toDigits 10 digits).length + exponent
  if digits = 0 || places < -330 then .finite negative 0 leastExponent
  else if 310 < places then .infinite negative
  else ofQuotient negative (digits * powPos 10 exponent) (powPos 10 (-exponent))

end Binary64
end Letterhead
