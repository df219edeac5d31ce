import Challenger1P.Clock
import Challenger1P.CommandLine
import Challenger1P.Rom.Image

/-!
# Settings

What a command line comes to: the images to load and where to find them, the clock, and where to
show the machine. The clock rate, the tick and the scale have to be positive.
-/

namespace Challenger1P

/-- How a machine is to be set up. -/
structure Settings where
  romDirectory : String
  images : List Rom.Image
  /-- The path of the character ROM. -/
  characterRom : Option String
  clock : Clock
  frontend : FrontendKind
  scale : UInt64

inductive SettingsError where
  | zeroClock
  | zeroTick
  | zeroScale
  deriving DecidableEq, Repr

def SettingsError.message : SettingsError → String
  | .zeroClock => "--clock-hz must be greater than zero"
  | .zeroTick => "--tick-ms must be greater than zero"
  | .zeroScale => "--scale must be greater than zero"

/-- Nanoseconds in a millisecond. -/
def millisecond : Nat := 1000000

def Settings.ofArguments (a : Arguments) : Except SettingsError Settings :=
  if a.clockHz = 0 then .error .zeroClock
  else if a.tickMillis = 0 then .error .zeroTick
  else if a.scale = 0 then .error .zeroScale
  else .ok {
    romDirectory := a.romDirectory
    images := [.monitor a.monitor, .basic a.basic]
    characterRom := a.characterRom
    clock := { rateHz := a.clockHz, tickNanos := a.tickMillis.toNat * millisecond }
    frontend := a.frontend
    scale := a.scale }

end Challenger1P
