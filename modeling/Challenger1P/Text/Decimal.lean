/-!
# Decimal numbers

Reading a number of 64 bits: one digit or more, and perhaps a plus sign before them. A sign alone, a
larger number and any other character are refused.
-/

namespace Challenger1P

def digitValue? (c : Char) : Option Nat :=
  if '0' ≤ c ∧ c ≤ '9' then some (c.toNat - '0'.toNat) else none

/-- The number that digits stand for, behind those already read. -/
def digitsValue? : (value : Nat) → List Char → Option Nat
  | value, [] => some value
  | value, c :: rest => do digitsValue? (10 * value + (← digitValue? c)) rest

/-- A text without the plus sign that it begins with. -/
def withoutPlus : List Char → List Char
  | '+' :: rest => rest
  | characters => characters

def readUInt64? (text : String) : Option UInt64 := do
  let digits := withoutPlus text.toList
  guard !digits.isEmpty
  let value ← digitsValue? 0 digits
  guard (value < UInt64.size)
  return UInt64.ofNat value

end Challenger1P
