/-!
# Hexadecimal numbers

Upper-case digits: `fixedHex` with as many digits as the caller says, the way addresses and bytes
are written, and `prefixedHex` with as few as the number needs and `0x` in front, the way sizes
are written.
-/

namespace Challenger1P

/-- The upper-case digit for a value below 16. -/
def hexDigit (value : Nat) : Char := (Nat.digitChar value).toUpper

/-- The low `width` hexadecimal digits of a number, highest first. -/
def lowDigits : (width : Nat) → Nat → List Char
  | 0, _ => []
  | width + 1, number => lowDigits width (number / 16) ++ [hexDigit (number % 16)]

/-- A number in exactly `width` hexadecimal digits. -/
def fixedHex (width number : Nat) : String := String.ofList (lowDigits width number)

def byteHex (value : UInt8) : String := fixedHex 2 value.toNat

def wordHex (value : UInt16) : String := fixedHex 4 value.toNat

/-- A number in as few hexadecimal digits as it needs, after `0x`. -/
def prefixedHex (number : Nat) : String :=
  "0x" ++ String.ofList ((Nat.toDigits 16 number).map Char.toUpper)

end Challenger1P
