/-!
# The journal

What the emulator has to say about its own running, as records with a level of importance. Records
are values: the functions that produce them are apart from those that run the machine, and replay
what they describe.
-/

namespace Challenger1P

inductive Level where
  | error
  | warning
  | info
  | debug
  | trace
  deriving DecidableEq, Repr

/-- The word for a level that begins a line of the journal. -/
def Level.label : Level → String
  | .error => "ERROR"
  | .warning => "WARN"
  | .info => "INFO"
  | .debug => "DEBUG"
  | .trace => "TRACE"

structure Record where
  level : Level
  text : String
  deriving DecidableEq, Repr

def Record.line (r : Record) : String := s!"{r.level.label} {r.text}"

end Challenger1P
