import Challenger1P.Frontend.Terminal
import Challenger1P.Machine.Boot
import Challenger1P.Screen.Glyphs
import Challenger1P.Settings

/-!
# The program

From a command line to a running machine. `Settings.start` reads the images and boots; `perform` is
all that the program does with a command line, with the files it may read and the number of ticks
it may run given. What is shown in a window needs a window system, and there is none here.
-/

namespace Challenger1P

/-- Why settings lead to no running machine. -/
inductive Refusal where
  | settings (error : SettingsError)
  /-- The budget of a tick is out of reach of the clock's arithmetic. -/
  | clockTooFast
  | rom (failure : Rom.Failure)
  | characterRom (error : CharacterRomError)
  | noWindow
  deriving DecidableEq, Repr

def Refusal.message : Refusal → String
  | .settings error => error.message
  | .clockTooFast => "the clock is too fast for so long a tick"
  | .rom failure => failure.message
  | .characterRom error => error.message
  | .noWindow => "failed to open window: Failed to create window"

namespace Settings

/-- The paths of the files that are read. -/
def paths (s : Settings) : List String :=
  s.images.map (fun image => joinPath s.romDirectory image.name) ++ s.characterRom.toList

/-- Switch a machine on and load its images. -/
def boot (s : Settings) (read : FileReader) : Except Refusal Machine :=
  match Machine.powerOn { device := {} } s.clock with
  | none => .error .clockTooFast
  | some m => (m.boot (.directory read s.romDirectory) s.images).mapError .rom

/-- Boot, and see that the machine can be shown. -/
def start (s : Settings) (read : FileReader) : Except Refusal Machine := do
  let m ← s.boot read
  match s.frontend, s.characterRom with
  | .terminal, _ => return m
  | .window, none => throw .noWindow
  | .window, some path =>
    let _ ← (loadCharacterRom read path).mapError .characterRom
    throw .noWindow

end Settings

/-- What becomes of a command line. -/
inductive Conclusion where
  | misread (error : CommandLineError)
  | refused (refusal : Refusal)
  | ran (ending : Ending) (text : String)
  deriving DecidableEq, Repr

namespace Conclusion

/-- The status that the program ends with. -/
def exitCode : Conclusion → UInt32
  | .misread .helpRequested => 0
  | .misread _ => 2
  | .refused _ => 1
  | .ran _ _ => 0

/-- What the program writes for the user to read. -/
def text : Conclusion → String
  | .misread .helpRequested => CommandLineError.helpRequested.message ++ "\n"
  | .ran _ text => text
  | _ => ""

/-- What the program writes about its failure, the first word of a refusal in bold red. -/
def complaint : Conclusion → String
  | .misread .helpRequested | .ran _ _ => ""
  | .misread error => error.message ++ "\n"
  | .refused refusal => s!"\x1b[1;31mERROR\x1b[0m {refusal.message}\n"

end Conclusion

def Settings.ofCommandLine (line : List String) : Except Conclusion Settings := do
  let arguments ← (Arguments.ofCommandLine line).mapError .misread
  (Settings.ofArguments arguments).mapError fun error => .refused (.settings error)

def perform (read : FileReader) (ticks : Nat) (line : List String) : Conclusion :=
  match Settings.ofCommandLine line with
  | .error conclusion => conclusion
  | .ok settings =>
    match settings.start read with
    | .error refusal => .refused refusal
    | .ok m =>
      match Machine.run ticks m ({} : Terminal) with
      | (ending, _, terminal) => .ran ending terminal.text

end Challenger1P
