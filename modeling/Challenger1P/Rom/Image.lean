import Challenger1P.FileTree
import Challenger1P.Text.Hex

/-!
# ROM images

An image is a range of bytes cut out of a named source, and the address where it goes. Two make up
the machine: the monitor, the last three quarters of a 1 KiB chip at the top of memory, and BASIC,
8 KiB at `$A000`.

`Image.cut` cuts an image out of its source. It refuses an image that would run past the end of
memory, and after that one that runs past the end of the source. Where an image ends is a sum of
sizes of 64 bits (`checkedSum?`); an end that has no room in them is past both.
-/

namespace Challenger1P.Rom

/-- An image: where its bytes come from, and where they go. -/
structure Image where
  name : String
  /-- The image's first byte within the source. -/
  offset : Nat
  length : Nat
  address : UInt16
  deriving DecidableEq, Repr

/-- The monitor, out of this source. -/
def Image.monitor (name : String) : Image := ⟨name, 0x100, 0x300, 0xFD00⟩

/-- BASIC, out of this source. -/
def Image.basic (name : String) : Image := ⟨name, 0, 0x2000, 0xA000⟩

/-- Why an image could not be had. -/
inductive LoadError where
  | unreadable (name : String) (reason : ReadFailure)
  /-- The source ends before the image does. -/
  | truncated (name : String) (offset length actual : Nat)
  /-- Memory ends before the image does. -/
  | outOfRange (name : String) (address : UInt16) (length : Nat)
  /-- Reading the source crashed. -/
  | crashed (name : String)
  deriving DecidableEq, Repr

def LoadError.message : LoadError → String
  | .unreadable name reason => s!"failed to read ROM {name}: {reason.message}"
  | .truncated name offset length actual =>
    s!"ROM {name} is {actual} bytes; need {length} bytes from offset {prefixedHex offset}"
  | .outOfRange name address length =>
    s!"ROM {name} ({prefixedHex length} bytes) does not fit at ${wordHex address}"
  | .crashed name => s!"ROM fetch for {name} panicked"

/-- The sum of two sizes, if it has room in 64 bits. -/
def checkedSum? (a b : Nat) : Option Nat := if a + b < UInt64.size then some (a + b) else none

/-- The bytes from one index up to another, if the two are in order and within the source. -/
def slice? (raw : List UInt8) (start stop : Nat) : Option (List UInt8) :=
  if start ≤ stop ∧ stop ≤ raw.length then some ((raw.drop start).take (stop - start)) else none

def Image.cut (image : Image) (raw : List UInt8) : Except LoadError (List UInt8) :=
  if (checkedSum? image.address.toNat image.length).all (0x10000 < ·) then
    .error (.outOfRange image.name image.address image.length)
  else
    match (checkedSum? image.offset image.length).bind (slice? raw image.offset) with
    | some block => .ok block
    | none => .error (.truncated image.name image.offset image.length raw.length)

end Challenger1P.Rom
