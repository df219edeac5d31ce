/-!
# The bus

What the processor is wired to: 65536 addresses, each read and written one byte at a time. A read
hands back the bus as well as the byte, because a device behind an address may change when it is
looked at.

* `Bus`: the two operations.
* `Access`: one of them as it happened, for lists of what a computation did.
* `Recorded`: a bus that keeps such a list.
-/

namespace Challenger1P

/-- Something with 16-bit addresses and 8-bit data that can be read and written. -/
class Bus (β : Type) where
  read : β → UInt16 → UInt8 × β
  write : β → UInt16 → UInt8 → β

/-- One bus access, with the byte that went over the wires. -/
inductive Access where
  | read (address : UInt16) (value : UInt8)
  | write (address : UInt16) (value : UInt8)
  deriving DecidableEq, Repr

def Access.address : Access → UInt16
  | .read address _ => address
  | .write address _ => address

def Access.isWrite : Access → Bool
  | .read _ _ => false
  | .write _ _ => true

/-- A bus together with everything that was done to it, oldest access first. -/
structure Recorded (β : Type) where
  bus : β
  accesses : Array Access := #[]

instance {β : Type} [Bus β] : Bus (Recorded β) where
  read r address :=
    match Bus.read r.bus address with
    | (value, bus) => (value, ⟨bus, r.accesses.push (.read address value)⟩)
  write r address value :=
    ⟨Bus.write r.bus address value, r.accesses.push (.write address value)⟩

end Challenger1P
