/-
  Homestead.Main
  ──────────────
  **THE PROGRAMS ON A REAL MACHINE.**

  The executable is the house store, or the dump of house tiles when it
  goes by the name of that.  Everything that they do is decided elsewhere;
  here their requests go to the machine.
-/
import Std.Time.DateTime.Timestamp
import Homestead.Archive.File
import Homestead.Program.Disk
import Homestead.Program.Dump
import Homestead.Program.Session

namespace Homestead.Program

/-! ## §1. Requests. -/

/-- The reason of a failed request. -/
def OsError.ofIo : IO.Error → OsError
  | .noFileOrDirectory _ _ _ => .noSuchFile
  | .alreadyExists _ _ _ => .fileExists
  | .inappropriateType _ 20 _ => .notADirectory
  | .inappropriateType _ 21 _ => .isADirectory
  | .permissionDenied _ code _ => .other s!"Permission denied (os error {code})"
  | e => .other (toString e)

/-- A request with the reason for which it failed. -/
def attempt {α : Type} (request : IO α) : IO (Except OsError α) := do
  match ← request.toBaseIO with
  | .ok a => return .ok a
  | .error e => return .error (.ofIo e)

/-- The text of a file. -/
def readTextFile (path : String) : IO (Except OsError String) := do
  match ← attempt (IO.FS.readBinFile path) with
  | .error e => return .error e
  | .ok octets =>
    match String.fromUTF8? octets with
    | some text => return .ok text
    | none => return .error .notText

/-- Adds a text to a file. -/
def appendToFile (path text : String) : IO Unit := do
  (← IO.FS.Handle.mk path .append).putStr text

/-- Writes an archive beside the old one, which it then replaces. -/
def writeArchive (path : String) (tables : Tables) : IO Unit := do
  let part := path ++ ".part"
  IO.FS.writeBinFile part (ByteArray.mk tables.octets.toArray)
  IO.FS.rename part path

/-- Opens an archive; an empty or missing file becomes one without rows. -/
def openArchiveFile (path : String) : IO (Except ArchiveError Tables) := do
  if Disk.isTransient path then return .ok .empty
  let create : IO (Except ArchiveError Tables) := do
    match ← attempt (writeArchive path .empty) with
    | .ok () => return .ok .empty
    | .error _ => return .error (.cannotOpen path)
  match ← attempt (IO.FS.readBinFile path) with
  | .error .noSuchFile => create
  | .error _ => return .error (.cannotOpen path)
  | .ok octets =>
    if octets.isEmpty then create
    else match Tables.ofOctets? octets.toList with
      | some tables => return .ok tables
      | none => return .error .notAnArchive

/-- Passes lines of the input up to its end or to `quit`. -/
partial def passInput (input : IO.FS.Stream) : IO Unit := do
  match ← input.getLine.toBaseIO with
  | .error _ => return ()
  | .ok line => unless line.isEmpty || Text.trim line == "quit" do passInput input

instance : Host IO where
  readText := readTextFile
  makeDirectory path := attempt (IO.FS.createDir path)
  isDirectory path := do
    match ← (IO.FS.realPath path).toBaseIO with
    | .ok place => place.isDir
    | .error _ => return false
  openJournal path := attempt do
    appendToFile path ""
    return (← IO.FS.readBinFile path).isEmpty
  append path text := do
    discard <| attempt (appendToFile path text)
  openArchive := openArchiveFile
  storeArchive path tables := do
    unless Disk.isTransient path do writeArchive path tables
  print line := IO.println line
  warn line := IO.eprintln line
  clock := return (← Std.Time.Timestamp.now).toSecondsSinceUnixEpoch.val
  awaitEnd := do passInput (← IO.getStdin)

/-! ## §2. The executable. -/

/-- The settings of the environment. -/
def environment : IO Environment :=
  return { archive := ← IO.getEnv "TIBIA_DB_PATH", autosave := ← IO.getEnv "TIBIA_AUTOSAVE_SECS" }

end Homestead.Program

open Homestead.Program

/-- Runs the program that the executable is named for; gives the exit code. -/
def main (args : List String) : IO UInt32 := do
  let name := toString (← IO.appPath)
  if name.endsWith "tile_store_dump" then Dump.run (name :: args)
  else runStore (name :: args) (← environment)
