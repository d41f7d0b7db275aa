/-
# `Numeral` — numbers in base sixteen and zero-padded decimals
-/

namespace ShaderReport.Text

def hexDigit (n : Nat) : Char := "0123456789abcdef".toList.getD n '0'

/-- The lowest `width` base-sixteen digits of a number, highest first. -/
def hexDigits : (width : Nat) → Nat → List Char
  | 0, _ => []
  | width + 1, n => hexDigits width (n / 16) ++ [hexDigit (n % 16)]

/-- A number in exactly `width` base-sixteen digits. -/
def hexFixed (width n : Nat) : String := String.ofList (hexDigits width n)

/-- A number in exactly `width` upper-case base-sixteen digits. -/
def hexFixedUpper (width n : Nat) : String :=
  String.ofList ((hexDigits width n).map Char.toUpper)

/-- A number in as many base-sixteen digits as it needs. -/
def hex (n : Nat) : String := String.ofList (Nat.toDigits 16 n)

/-- A decimal numeral with zeros in front up to `width` digits. -/
def zeroPadded (width n : Nat) : String :=
  let digits := Nat.toDigits 10 n
  String.ofList (List.replicate (width - digits.length) '0' ++ digits)

/-- Two digits for every byte. -/
def hexBytes (b : List UInt8) : String :=
  String.ofList (b.flatMap fun x => hexDigits 2 x.toNat)

end ShaderReport.Text
