import Challenger1P.Frontend.Window
import Challenger1P.Machine.Journal
import Challenger1P.Main
import Challenger1P.Program
import Challenger1P.Proofs.Bus.Recording
import Challenger1P.Proofs.Mos6502.Fetch
import Challenger1P.Proofs.Mos6502.Faults
import Challenger1P.Proofs.Machine.Halting
import Challenger1P.Proofs.Machine.ScreenUpdates
import Challenger1P.Proofs.Mos6502.Stack
import Challenger1P.Proofs.Mos6502.Traffic
import Challenger1P.Proofs.Mos6502.Alu
import Challenger1P.Proofs.Mos6502.Semantics
import Challenger1P.Proofs.Machine.PlainSteps
import Challenger1P.Proofs.Memory.Map
import Challenger1P.Proofs.Mos6502.BoundedStack
import Challenger1P.Proofs.Mos6502.Return
import Challenger1P.Proofs.Machine.WarmReset
import Challenger1P.Proofs.Memory.AddressMap
import Challenger1P.Proofs.Memory.Flat
import Challenger1P.Proofs.Rom.Cutting
import Challenger1P.Proofs.Rom.Fetch
import Challenger1P.Proofs.Rom.Loading
import Challenger1P.Proofs.Keyboard.Contacts
import Challenger1P.Proofs.Keyboard.Port
import Challenger1P.Proofs.Keyboard.History
import Challenger1P.Proofs.Keyboard.Identification
import Challenger1P.Proofs.Frontend.Motions
import Challenger1P.Proofs.Frontend.Forwarding
import Challenger1P.Proofs.Frontend.HeldKeys
import Challenger1P.Proofs.Frontend.ControlKeys
import Challenger1P.Proofs.Machine.Budget
import Challenger1P.Proofs.Mos6502.Latched
import Challenger1P.Proofs.Mos6502.Status
import Challenger1P.Proofs.Mos6502.IgnoredFlags
import Challenger1P.Proofs.Frontend.Console
import Challenger1P.Proofs.Frontend.Overwriting
import Challenger1P.Proofs.Mos6502.ProgramCounter
import Challenger1P.Proofs.Mos6502.Operands
import Challenger1P.Proofs.Mos6502.Numbers
import Challenger1P.Proofs.Mos6502.Shifts
import Challenger1P.Proofs.Screen.Painting
import Challenger1P.Proofs.Clock
import Challenger1P.Proofs.Frontend.Updates
import Challenger1P.Proofs.Frontend.ReadingBack
