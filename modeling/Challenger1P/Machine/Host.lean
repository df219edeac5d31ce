import Challenger1P.Machine.Basic

/-!
# Hosts

What a machine runs inside of: something that delivers what the user types, is told when the screen
has changed, and may go away. `Machine.run` polls the host, runs a tick, tells the host about the
screen if there is news, and begins again, until the processor halts or the host is gone.
-/

namespace Challenger1P

/-- What a machine runs inside of. -/
class Host (σ : Type) where
  /-- Deliver input to the keyboard. The flag says whether the host is still there. -/
  poll : σ → Keyboard → Bool × Keyboard × σ
  /-- Take notice of a new screen. -/
  display : σ → Screen → σ

inductive Ending where
  /-- The processor halted. -/
  | halted
  /-- The host went away. -/
  | closed
  /-- The processor stopped for another reason. -/
  | broken
  /-- The run was cut short. -/
  | unfinished
  deriving DecidableEq, Repr

/-- A host that follows a script: one list of keyboard events a poll, and gone after the last. It
remembers how often it was polled and what it was shown. -/
structure Script where
  polls : List (List KeyEvent)
  made : Nat := 0
  seen : List Screen := []

instance : Host Script where
  poll s keyboard :=
    match s with
    | { polls := [], made, seen } => (false, keyboard, { polls := [], made := made + 1, seen })
    | { polls := events :: polls, made, seen } =>
      (true, events.foldl Keyboard.apply keyboard, { polls, made := made + 1, seen })
  display s screen := { s with seen := s.seen ++ [screen] }

namespace Machine

variable {σ : Type} [Host σ]

/-- Poll the host and hand its input to the machine. -/
def poll (m : Machine) (host : σ) : Bool × Machine × σ :=
  match Host.poll host m.keyboard with
  | (alive, keyboard, host) => (alive, m.mapKeyboard fun _ => keyboard, host)

/-- Run until the processor halts or the host goes away, for at most `ticks` ticks. -/
def run : (ticks : Nat) → Machine → σ → Ending × Machine × σ
  | 0, m, host => (.unfinished, m, host)
  | ticks + 1, m, host =>
    match m.poll host with
    | (false, m, host) => (.closed, m, host)
    | (true, m, host) =>
      match m.tick with
      | (.halted, m) => (.halted, m, host)
      | (.broken, m) => (.broken, m, host)
      | (.running _ none, m) => run ticks m host
      | (.running _ (some screen), m) => run ticks m (Host.display host screen)

end Machine

end Challenger1P
