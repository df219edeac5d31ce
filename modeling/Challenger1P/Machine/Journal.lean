import Challenger1P.Machine.Boot
import Challenger1P.Machine.Host
import Challenger1P.Mos6502.Journal

/-!
# What the machine reports

The processor's records during ticks and runs, the end of a run by a halt, and the address a machine
boots at.
-/

namespace Challenger1P.Machine

def tickRecords (m : Machine) : Array Record :=
  (m.mapMemory MemoryMap.clearScreenWritten).cpu.stepsRecords m.spend.1 #[]

/-- What a run of at most `ticks` ticks reports, behind the records so far. -/
def runRecords {σ : Type} [Host σ] :
    (ticks : Nat) → Machine → σ → Array Record → Array Record
  | 0, _, _, records => records
  | ticks + 1, m, host, records =>
    match m.poll host with
    | (false, _, _) => records
    | (true, m, host) =>
      let records := records ++ m.tickRecords
      match m.tick with
      | (.halted, _) => records.push ⟨.info, "CPU halted; stopping."⟩
      | (.broken, _) => records
      | (.running _ none, m) => runRecords ticks m host records
      | (.running _ (some screen), m) =>
        runRecords ticks m (Host.display host screen) records

/-- What booting reports, from the machine that came of it. -/
def bootRecords (source : Rom.Source) (images : List Rom.Image) (booted : Machine) :
    Array Record :=
  (Rom.populateRecords source images).toArray ++
    #[booted.cpu.resetRecord, ⟨.info, s!"booted at ${wordHex booted.cpu.registers.pc}"⟩]

end Challenger1P.Machine
