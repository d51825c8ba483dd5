/-
  Homestead.Program.Host
  ──────────────────────
  **WHAT THE PROGRAMS ASK OF THE MACHINE THEY RUN ON.**

  The programs are written against these few requests, so they run on a
  real machine as well as on a picture of one.
-/
import Homestead.Archive.Tables
import Homestead.Program.Path

namespace Homestead.Program

/-! ## §1. Requests. -/

/-- Why a file cannot be had. -/
inductive OsError where
  /-- It is not there. -/
  | noSuchFile
  /-- It is there already. -/
  | fileExists
  /-- A directory on the way to it is none. -/
  | notADirectory
  /-- It is a directory. -/
  | isADirectory
  /-- A name in its path is too long. -/
  | nameTooLong
  /-- It is no text. -/
  | notText
  /-- Something else. -/
  | other (reason : String)
  deriving DecidableEq

/-- The wording of an error. -/
def OsError.message : OsError → String
  | noSuchFile => "No such file or directory (os error 2)"
  | fileExists => "File exists (os error 17)"
  | notADirectory => "Not a directory (os error 20)"
  | isADirectory => "Is a directory (os error 21)"
  | nameTooLong => "File name too long (os error 36)"
  | notText => "stream did not contain valid UTF-8"
  | other reason => reason

/-- The machines that the programs can run on. -/
class Host (m : Type → Type) where
  /-- The text of a file. -/
  readText : String → m (Except OsError String)
  /-- Makes a directory in one that is there. -/
  makeDirectory : String → m (Except OsError Unit)
  /-- Whether a path leads to a directory. -/
  isDirectory : String → m Bool
  /-- Opens a file for lines at its end, making it if need be; says whether it is empty. -/
  openJournal : String → m (Except OsError Bool)
  /-- Adds a text at the end of an open file. -/
  append : String → String → m Unit
  /-- Opens an archive, making it if need be. -/
  openArchive : String → m (Except ArchiveError Tables)
  /-- Puts tables in an archive. -/
  storeArchive : String → Tables → m Unit
  /-- Prints a line. -/
  print : String → m Unit
  /-- Prints a line about an error. -/
  warn : String → m Unit
  /-- Seconds since the start of 1970. -/
  clock : m Int
  /-- Waits until the input ends or says `quit`. -/
  awaitEnd : m Unit

/-! ## §2. Directories within directories. -/

namespace Host

variable {m : Type → Type} [Monad m] [Host m]

/-- Makes a directory, which may be there already. -/
def ensureDirectory (path : String) : m (Except OsError Unit) := do
  match ← (makeDirectory path : m (Except OsError Unit)) with
  | .ok () => return .ok ()
  | .error e => if ← isDirectory path then return .ok () else return .error e

/-- Makes a directory and up to so many that it lies in. -/
def makeWithin : Nat → String → m (Except OsError Unit)
  | 0, _ => return .error .noSuchFile
  | levels + 1, path => do
    if path == "" then return .ok ()
    match ← (ensureDirectory path : m (Except OsError Unit)) with
    | .error .noSuchFile =>
      match parentPath? path with
      | none => return .error .noSuchFile
      | some parent =>
        match ← (makeWithin levels parent : m (Except OsError Unit)) with
        | .ok () => ensureDirectory path
        | .error e => return .error e
    | result => return result

/-- Makes a directory and those that it lies in, unless they are there. -/
def makeDirectories (path : String) : m (Except OsError Unit) :=
  makeWithin (path.length + 1) path

end Host

end Homestead.Program
