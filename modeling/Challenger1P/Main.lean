import Challenger1P.Program

/-!
# The command

Reads the files that the settings name, boots the machine, and runs it tick by tick at the speed of
its clock, writing what its terminal takes.
-/

namespace Challenger1P.Command

/-- Why the operating system could not read a file. A directory can be opened and then not be read:
that failure names no file. -/
def readFailure : IO.Error → ReadFailure
  | .noFileOrDirectory .. => .notFound
  | .inappropriateType none .. => .isDirectory
  | .inappropriateType (some _) .. => .notDirectory
  | .invalidArgument .. => .nameTooLong
  | error => .other error.toString

def readFile (path : String) : IO (Except ReadFailure (List UInt8)) := do
  try
    return .ok (← IO.FS.readBinFile path).toList
  catch error => return .error (readFailure error)

/-- Read files, for later. -/
def readFiles (paths : List String) : IO FileReader := do
  let contents ← paths.mapM fun path => return (path, ← readFile path)
  return fun path => (contents.lookup path).getD (.error .notFound)

/-- Write what the program has to say, and give its status. -/
def finish (conclusion : Conclusion) : IO UInt32 := do
  (← IO.getStdout).putStr conclusion.text
  (← IO.getStderr).putStr conclusion.complaint
  return conclusion.exitCode

/-- Run tick by tick until the machine stops. -/
partial def loop (m : Machine) : IO Ending := do
  let start ← IO.monoNanosNow
  let (ending, m, terminal) := Machine.run 1 m ({} : Terminal)
  (← IO.getStdout).putStr terminal.text
  match ending with
  | .unfinished =>
    let elapsed := (← IO.monoNanosNow) - start
    IO.sleep (UInt32.ofNat (m.clock.pauseAfter elapsed / millisecond))
    loop m
  | ending => return ending

end Challenger1P.Command

open Challenger1P Challenger1P.Command in
def main (line : List String) : IO UInt32 := do
  match Settings.ofCommandLine line with
  | .error conclusion => finish conclusion
  | .ok settings =>
    match settings.start (← readFiles settings.paths) with
    | .error refusal => finish (.refused refusal)
    | .ok m => finish (.ran (← loop m) "")
