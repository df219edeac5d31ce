import Challenger1P.Journal
import Challenger1P.Machine.Host
import Challenger1P.Screen.Text

/-!
# The terminal

A machine whose screen is shown in a text terminal. Each new screen is written as a *frame*: the
cursor goes to the top left, then come a heading and the lines of the screen, without the blanks at
their ends. A terminal takes what is written to it as long as it has room. It delivers no keys, and
never goes away.
-/

namespace Challenger1P

/-- What takes the cursor to the top left. -/
def cursorHome : List Char := "\x1b[H".toList

/-- The heading of a frame, in bold green. -/
def heading : List Char := "\x1b[1;32mSUPERBOARD\x1b[0m".toList

def trimBlanks (line : List Char) : List Char := (line.reverse.dropWhile (· = ' ')).reverse

/-- The characters that show a screen. -/
def Screen.frame (s : Screen) : List Char :=
  cursorHome ++ heading ++ '\n' :: s.lines.flatMap fun line => trimBlanks line ++ ['\n']

/-- A terminal, by what has been written to it. -/
structure Terminal where
  /-- How many more characters it takes, if there is a limit. -/
  room : Option Nat := none
  text : String := ""
  deriving DecidableEq, Repr

namespace Terminal

/-- Write as much of a text as there is room for. The flag says whether that is all of it. -/
def write (t : Terminal) (characters : List Char) : Bool × Terminal :=
  match t with
  | { room := none, text } => (true, { room := none, text := text ++ String.ofList characters })
  | { room := some room, text } =>
    (characters.length ≤ room,
      { room := some (room - characters.length)
        text := text ++ String.ofList (characters.take room) })

/-- Write the frame of a screen. -/
def draw (t : Terminal) (screen : Screen) : Bool × Terminal := t.write screen.frame

def drawRecords (t : Terminal) (screen : Screen) : List Record :=
  if (t.draw screen).1 then [] else [⟨.warning, "terminal redraw failed: full"⟩]

instance : Host Terminal where
  poll t keyboard := (true, keyboard, t)
  display t screen := (t.draw screen).2

end Terminal

end Challenger1P
