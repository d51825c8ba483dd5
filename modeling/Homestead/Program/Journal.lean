/-
  Homestead.Program.Journal
  ─────────────────────────
  **THREE FILES OF DATED LINES.**

  Each channel has a file in the directory `log`.  A line has the date in
  front.  The files of the game and of the houses start with a heading; the
  file of errors has lines only.
-/
import Homestead.Calendar
import Homestead.Program.Host
import Homestead.Program.Path
import Homestead.World.Notice

namespace Homestead.Program.Journal

open Host

/-! ## §1. Wording. -/

/-- The channels, in the order in which their files are opened. -/
def channels : List Channel :=
  [.error, .game, .houses]

/-- The name of the file of a channel. -/
def fileName : Channel → String
  | .error => "error.log"
  | .game => "game.log"
  | .houses => "houses.log"

/-- Whether the file of a channel starts with a heading. -/
def hasHeading : Channel → Bool
  | .error => false
  | .game | .houses => true

/-- The rule at the top of a heading. -/
def rule : String :=
  "".pushn '-' 79

/-- The heading of a file that was started at a time. -/
def heading (name : String) (seconds : Int) : String :=
  rule ++ "\nTibia - House Store\n" ++ name ++ " - started "
    ++ (Calendar.Civil.ofSeconds seconds).heading ++ "\n"

/-- A line with the date in front. -/
def line (seconds : Int) (message : String) : String :=
  (Calendar.Civil.ofSeconds seconds).stamp ++ ": " ++ message ++ "\n"

/-! ## §2. Files. -/

/-- The directory of the journal below the root of a world. -/
def directory (root : String) : String :=
  joinPath root "log"

/-- The file of a channel below the root of a world. -/
def path (root : String) (c : Channel) : String :=
  joinPath (directory root) (fileName c)

variable {m : Type → Type} [Monad m] [Host m]

/-- Opens the file of a channel, and writes the heading if the file is new. -/
def openChannel (root : String) (c : Channel) : m (Except OsError Unit) := do
  match ← openJournal (path root c) with
  | .error e => return .error e
  | .ok isNew =>
    if isNew && hasHeading c then append (path root c) (heading (fileName c) (← clock))
    return .ok ()

/-- Writes a notice to its channel. -/
def write (root : String) (n : Notice) : m Unit := do
  append (path root n.channel) (line (← clock) n.message)

end Homestead.Program.Journal
