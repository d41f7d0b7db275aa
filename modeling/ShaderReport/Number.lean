/-
# `Number` — what a word stands for as a constant

The low bits of a word are a signed number in two's complement.

All of its bits may be a double.  A finite double is an integer times a power of two,
and it is written with seven significant digits.  They are computed from that quotient
exactly: the power of ten that puts one digit before the point, and the quotient rounded
there once, a half going to the even neighbour.
-/
import ShaderReport.Text.Numeral

namespace ShaderReport.Number

/-- The low `bits` bits of a word as a signed number.  Zero bits, and 64 or more, mean
the whole word. -/
def signed (word : UInt64) (bits : Nat) : Int :=
  Int.bmod word.toNat (Nat.pow 2 (if bits = 0 ∨ 64 ≤ bits then 64 else bits))

/-! ## Doubles -/

/-- A quotient rounded to the nearest integer, a half to the even neighbour. -/
def roundDiv (num den : Nat) : Nat :=
  let low := num / den
  let twice := 2 * (num % den)
  if twice < den then low
  else if den < twice then low + 1
  else if low % 2 = 0 then low else low + 1

/-- A quotient times a power of ten, as numerator and denominator. -/
def scale (num den : Nat) (power : Int) : Nat × Nat :=
  match power with
  | .ofNat p => (num * Nat.pow 10 p, den)
  | .negSucc p => (num, den * Nat.pow 10 (p + 1))

def digitCount (n : Nat) : Nat := (Nat.toDigits 10 n).length

/-- The exponent of ten that puts one digit of a positive quotient before the point. -/
def decimalExponent (num den : Nat) : Int :=
  let guess : Int := digitCount num - digitCount den
  let (n, d) := scale num den (-guess)
  if n < d then guess - 1 else guess

/-- Digits behind the point. -/
def places : Nat := 6

/-- One, with that many digits behind the point. -/
def unit : Nat := 1000000

/-- Values of the fraction field of a double. -/
def fractionLimit : Nat := 4503599627370496

/-- The digits of a positive quotient without the point, and the exponent of ten. -/
def significand (num den : Nat) : Nat × Int :=
  let exponent := decimalExponent num den
  let (n, d) := scale num den (places - exponent)
  let digits := roundDiv n d
  if digits = 10 * unit then (unit, exponent + 1) else (digits, exponent)

/-- One digit, a point, the other digits, and an exponent with its sign and at least
two digits. -/
def scientific (digits : Nat) (exponent : Int) : String :=
  let sign := if exponent < 0 then "-" else "+"
  (digits / unit).repr ++ "." ++ Text.zeroPadded places (digits % unit) ++
    "e" ++ sign ++ Text.zeroPadded 2 exponent.natAbs

/-- A double given by its bits: scientific if it is finite, and otherwise its bits. -/
def doubleText (bits : UInt64) : String :=
  let word := bits.toNat
  let exponent := word / fractionLimit % 2048
  let fraction := word % fractionLimit
  let sign := if word / fractionLimit / 2048 = 1 then "-" else ""
  if exponent = 2047 then "0x" ++ Text.hexFixedUpper 16 word
  else if exponent = 0 ∧ fraction = 0 then sign ++ scientific 0 0
  else
    -- A zero exponent field marks a number without the leading one bit.
    let (mantissa, power) :=
      if exponent = 0 then (fraction, 1) else (fractionLimit + fraction, exponent)
    let (digits, decimal) :=
      if 1075 ≤ power then significand (mantissa * Nat.pow 2 (power - 1075)) 1
      else significand mantissa (Nat.pow 2 (1075 - power))
    sign ++ scientific digits decimal

end ShaderReport.Number
