/-
  Homestead.Program.Disk
  ──────────────────────
  **A PICTURE OF A MACHINE.**

  A disk has directories, texts and archives by path.  Whether a path
  leads anywhere is found name by name: every directory on the way has to
  be there and to be one.  A machine is a disk with what has been printed
  and a clock that stands still.
-/
import Homestead.Program.Host

namespace Homestead.Program

/-! ## §1. Disks. -/

/-- What lies at a place. -/
inductive Entry where
  /-- A directory. -/
  | directory
  /-- A text. -/
  | text (content : String)
  /-- An archive. -/
  | archive (tables : Tables)

/-- The names that lead to a place, from the root of all files. -/
abbrev Place := List String

/-- Directories and files. -/
structure Disk where
  /-- What lies where. -/
  entries : Std.TreeMap String Entry := {}
  /-- The directory that relative paths start from. -/
  here : Place := []

namespace Disk

/-- A place as the key of its entry. -/
def key (place : Place) : String :=
  "/".intercalate place

/-- What lies at a place; the root of all files is a directory. -/
def entry? (d : Disk) (place : Place) : Option Entry :=
  if place.isEmpty then some .directory else d.entries[key place]?

/-- Puts something at a place. -/
def put (d : Disk) (place : Place) (entry : Entry) : Disk :=
  { d with entries := d.entries.insert (key place) entry }

/-- The most octets of a name. -/
def maxName : Nat := 255

/-- Follows names from a place. -/
def walk (d : Disk) : Place → List String → Except OsError Place
  | place, [] => .ok place
  | place, name :: rest =>
    match d.entry? place with
    | none => .error .noSuchFile
    | some .directory =>
      if name == "." then walk d place rest
      else if name == ".." then walk d place.dropLast rest
      else if name.utf8ByteSize > maxName then .error .nameTooLong
      else walk d (place ++ [name]) rest
    | some _ => .error .notADirectory

/-- The place that a path leads to; a path with a slash at its end leads to a directory. -/
def locate (d : Disk) (path : String) : Except OsError Place :=
  if path == "" then .error .noSuchFile
  else
    let names := (path.splitOn "/").filter (· != "")
    let names := if path.endsWith "/" then names ++ ["."] else names
    d.walk (if isAbsolute path then [] else d.here) names

/-! ## §2. Requests. -/

/-- The text of a file. -/
def readText (d : Disk) (path : String) : Except OsError String := do
  match d.entry? (← d.locate path) with
  | none => throw .noSuchFile
  | some .directory => throw .isADirectory
  | some (.text content) => return content
  | some (.archive _) => throw .notText

/-- Whether a path leads to a directory. -/
def isDirectory (d : Disk) (path : String) : Bool :=
  match d.locate path with
  | .error _ => false
  | .ok place =>
    match d.entry? place with
    | some .directory => true
    | _ => false

/-- Makes a directory in one that is there. -/
def makeDirectory (d : Disk) (path : String) : Except OsError Disk := do
  let place ← d.locate ((path.dropEndWhile (· == '/')).toString)
  if (d.entry? place).isSome then throw .fileExists
  return d.put place .directory

/-- Opens a text for lines at its end; says whether it is empty. -/
def openJournal (d : Disk) (path : String) : Except OsError (Bool × Disk) := do
  let place ← d.locate path
  match d.entry? place with
  | none => return (true, d.put place (.text ""))
  | some .directory => throw .isADirectory
  | some (.text content) => return (content == "", d)
  | some (.archive _) => return (false, d)

/-- Adds to a text. -/
def append (d : Disk) (path text : String) : Disk :=
  match d.locate path with
  | .error _ => d
  | .ok place =>
    match d.entry? place with
    | some (.text content) => d.put place (.text (content ++ text))
    | _ => d

/-- Whether an archive of that name lies on no disk. -/
def isTransient (path : String) : Bool :=
  path == "" || path == ":memory:"

/-- Opens an archive.  An empty text becomes an archive without rows. -/
def openArchive (d : Disk) (path : String) : Except ArchiveError (Tables × Disk) :=
  if isTransient path then .ok (.empty, d)
  else match d.locate path with
    | .error _ => .error (.cannotOpen path)
    | .ok place =>
      match d.entry? place with
      | some .directory => .error (.cannotOpen path)
      | some (.archive tables) => .ok (tables, d)
      | some (.text content) =>
        if content == "" then .ok (.empty, d.put place (.archive .empty))
        else .error .notAnArchive
      | none => .ok (.empty, d.put place (.archive .empty))

/-- Puts tables in an archive. -/
def storeArchive (d : Disk) (path : String) (tables : Tables) : Disk :=
  if isTransient path then d
  else match d.locate path with
    | .error _ => d
    | .ok place => d.put place (.archive tables)

end Disk

/-! ## §3. Machines. -/

/-- A disk, what has been printed, the latest line first, and a clock. -/
structure Machine where
  /-- The disk. -/
  disk : Disk
  /-- Lines printed. -/
  printed : List String := []
  /-- Lines printed about errors. -/
  warned : List String := []
  /-- Seconds since the start of 1970. -/
  clock : Int := 0

/-- A computation on a machine. -/
abbrev OnMachine := StateM Machine

namespace OnMachine

/-- A request that may change the disk. -/
def request {ε α : Type} (f : Disk → Except ε (α × Disk)) : OnMachine (Except ε α) := do
  let m ← get
  match f m.disk with
  | .ok (a, disk) =>
    set { m with disk }
    return .ok a
  | .error e => return .error e

/-- A change of the disk. -/
def change (f : Disk → Disk) : OnMachine Unit :=
  modify fun m => { m with disk := f m.disk }

instance : Host OnMachine where
  readText path := request fun d => (d.readText path).map (·, d)
  makeDirectory path := request fun d => (d.makeDirectory path).map ((), ·)
  isDirectory path := return (← get).disk.isDirectory path
  openJournal path := request fun d => d.openJournal path
  append path text := change fun d => d.append path text
  openArchive path := request fun d => d.openArchive path
  storeArchive path tables := change fun d => d.storeArchive path tables
  print line := modify fun m => { m with printed := line :: m.printed }
  warn line := modify fun m => { m with warned := line :: m.warned }
  clock := return (← get).clock
  awaitEnd := return ()

end OnMachine

end Homestead.Program
