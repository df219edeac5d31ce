import Challenger1P.Machine.Basic
import Challenger1P.Rom.Load

/-!
# Booting

Putting ROM images into a machine and resetting it, so that it starts at the address they hold. When
an image cannot be had, the machine stays as it was.
-/

namespace Challenger1P.Machine

/-- Put images into memory, without a reset. -/
def populate (m : Machine) (source : Rom.Source) (images : List Rom.Image) :
    Except Rom.Failure Machine :=
  (Rom.populate m.memory source images).map fun memory => m.mapMemory fun _ => memory

/-- Put images into memory and reset. -/
def boot (m : Machine) (source : Rom.Source) (images : List Rom.Image) :
    Except Rom.Failure Machine :=
  (m.populate source images).map fun m => { m with cpu := m.cpu.reset }

end Challenger1P.Machine
