/-
  Homestead.Program.Session
  ─────────────────────────
  **ONE RUN OF THE HOUSE STORE.**

  A run reads its arguments, opens the journal, loads the catalog and the
  map, then from the archive the houses and after them the house tiles,
  and prints what came of it.  What the command asks for comes last.

  The first thing that goes wrong ends the run.  A save is the exception:
  houses and house tiles are saved apart, and each says how it went.
-/
import Homestead.Blueprint.Build
import Homestead.Catalog.File
import Homestead.House.CachedNames
import Homestead.Program.Arguments
import Homestead.Program.Journal
import Homestead.World.Houses

namespace Homestead.Program

open Host

/-! ## §1. Errors. -/

/-- What ends a run. -/
inductive RunError where
  /-- The arguments. -/
  | arguments (e : ArgumentError)
  /-- The directory of the journal cannot be made. -/
  | journalDirectory (path : String) (e : OsError)
  /-- A file of the journal cannot be opened. -/
  | journalFile (name : String) (e : OsError)
  /-- The catalog file cannot be read. -/
  | catalogFile (path : String) (e : OsError)
  /-- The catalog file is no catalog. -/
  | catalog (e : CatalogError)
  /-- The map file cannot be read. -/
  | mapFile (path : String) (e : OsError)
  /-- The map file is no map. -/
  | mapText (path : String) (problem : Yaml.Problem)
  /-- The map gives no world. -/
  | map (e : BlueprintError)
  /-- The directory of the archive cannot be made. -/
  | archiveDirectory (e : OsError)
  /-- The archive cannot be opened. -/
  | archive (path : String) (e : ArchiveError)
  /-- The houses cannot be loaded. -/
  | houses (e : ArchiveError)
  /-- The house tiles cannot be loaded. -/
  | items (e : ArchiveError)
  /-- Something could not be saved. -/
  | save
  deriving DecidableEq

/-- The wording of an error. -/
def RunError.message : RunError → String
  | arguments e => e.message
  | journalDirectory path e => "log directory " ++ path ++ " create failed: " ++ e.message
  | journalFile name e => "open log " ++ name ++ " failed: " ++ e.message
  | catalogFile path e => "failed to read item catalog " ++ path ++ ": " ++ e.message
  | catalog e => e.message
  | mapFile path e => "failed to read map " ++ path ++ ": " ++ e.message
  | mapText path problem => "map " ++ path ++ " parse failed: " ++ problem.message
  | map e => e.message
  | archiveDirectory e => "save directory create failed: " ++ e.message
  | archive path e => "open " ++ path ++ " failed: " ++ e.message
  | houses e => "house info load failed: " ++ e.message
  | items e => "house item load failed: " ++ e.message
  | save => "save failed"

/-! ## §2. Loading. -/

variable {m : Type → Type} [Monad m] [Host m]

/-- A step of a run, which may end it. -/
abbrev Step (m : Type → Type) := ExceptT RunError m

/-- Ends the run with the error of a request. -/
def orFail {α ε : Type} (wrap : ε → RunError) (request : m (Except ε α)) : Step m α := do
  match ← (request : m (Except ε α)) with
  | .ok a => return a
  | .error e => throw (wrap e)

/-- Writes notices to the journal. -/
def note (root : String) (notices : List Notice) : Step m Unit :=
  notices.forM fun n => (Journal.write root n : m Unit)

/-- Opens the journal. -/
def openJournals (root : String) : Step m Unit := do
  let directory := Journal.directory root
  orFail (.journalDirectory directory) (makeDirectories directory : m (Except OsError Unit))
  Journal.channels.forM fun c =>
    orFail (.journalFile (Journal.fileName c))
      (Journal.openChannel root c : m (Except OsError Unit))

/-- The path of a data file below the root of a world. -/
def dataPath (root name : String) : String :=
  joinPath (joinPath root "dat") name

/-- Loads the catalog. -/
def loadCatalog (root : String) : Step m Catalog := do
  let path := dataPath root "items.yml"
  let text ← orFail (.catalogFile path) (readText path : m (Except OsError String))
  orFail .catalog (pure (Catalog.parse text) : m (Except CatalogError Catalog))

/-- Loads the map. -/
def loadMap (root : String) (c : Catalog) : Step m World := do
  let path := dataPath root "map.yml"
  let text ← orFail (.mapFile path) (readText path : m (Except OsError String))
  let blueprint ← orFail (.mapText path) (pure (Blueprint.parse text) : m (Except Yaml.Problem _))
  let (result, draft) := World.ofBlueprint c blueprint
  -- What was left out is reported also when the map gives no world.
  note root draft.notices
  let w ← orFail .map (pure result : m (Except BlueprintError World))
  let report := draft.report
  if report.dropped > 0 then
    (warn s!"tibia: map dropped {report.dropped} moveable item(s) on house tiles" : m Unit)
  note root [.mapLoaded w.name report.tiles report.items w.houses.size report.unknown]
  return w

/-- Opens the archive. -/
def openStore (path : String) : Step m Archive := do
  match parentPath? path with
  | some parent =>
    if parent != "" then
      orFail .archiveDirectory (makeDirectories parent : m (Except OsError Unit))
  | none => pure ()
  let tables ← orFail (.archive path) (openArchive path : m (Except ArchiveError Tables))
  return { tables }

/-! ## §3. The run. -/

/-- Prints what was loaded. -/
def printSummary (args : Arguments) (w : World) (info : HouseReport) (items : LoadReport) :
    Step m Unit :=
  ["tibia: house store",
    "- root: " ++ args.root,
    "- database: " ++ args.archive,
    s!"- item types: {w.catalog.size}",
    "- map '" ++ w.name ++ s!"': tiles={w.graph.tiles.size}",
    s!"- houses: {w.houses.size} (stored={info.houses}, lists={info.lists}, "
      ++ s!"unknown={info.unknown})",
    s!"- house items: rows={items.rows}, skipped={items.skipped}, failed={items.failed}, "
      ++ s!"created={items.items.created}, matched={items.matched}, "
      ++ s!"discarded={items.items.discarded}",
    s!"- bed sleepers: {w.sleepers.size}",
    s!"- decaying items: {w.decaying.length}"].forM fun line => (print line : m Unit)

/-- Saves the world and prints how that went. -/
def saveWorld (args : Arguments) (w : World) (a : Archive) : Step m Unit := do
  -- Of the two parts one may have been saved when the other was not.
  let (outcome, saved) := w.save a
  (storeArchive args.archive saved.tables : m Unit)
  note args.root outcome.notices
  match outcome.houses with
  | .ok r => (print s!"- saved houses: {r.houses}, lists: {r.lists}" : m Unit)
  | .error e => (warn ("tibia: house info save failed: " ++ e.message) : m Unit)
  match outcome.items with
  | .ok r =>
    (print s!"- saved house tiles: {r.tiles}, items: {r.items}, bytes: {r.octets}" : m Unit)
  | .error e => (warn ("tibia: house item save failed: " ++ e.message) : m Unit)
  if !outcome.isComplete then
    note args.root [.saveFailed]
    throw .save

/-- Does what a command asks for. -/
def obey (args : Arguments) (w : World) (a : Archive) : Step m Unit :=
  match args.command with
  | .check => return ()
  | .resave => saveWorld args w a
  | .serve => do
    (print "tibia: serving; type 'quit' or close stdin to stop" : m Unit)
    (awaitEnd : m Unit)
    (print "tibia: shutting down" : m Unit)
    saveWorld args w a

/-- The run up to its end or the first error. -/
def session (args : List String) (env : Environment) : Step m Unit := do
  let args ← orFail .arguments (pure (Arguments.read args env) : m (Except ArgumentError Arguments))
  openJournals args.root
  let catalog ← loadCatalog args.root
  let w ← loadMap args.root catalog
  let a ← openStore args.archive
  let names := CachedNames.ofSource a.tables.names
  let (loaded, names) ← orFail .houses (pure (w.loadHouses a names) : m (Except ArchiveError _))
  note args.root loaded.notices
  note args.root [.namesResolved names.hits names.misses]
  let items ← orFail .items (pure (loaded.world.loadItems a) : m (Except ArchiveError _))
  note args.root items.notices
  printSummary args items.world loaded.report items.report
  obey args items.world a

/-- Runs the house store, the name of the program in front of the arguments; gives the exit
code. -/
def runStore (args : List String) (env : Environment) : m UInt32 := do
  match ← (session args env).run with
  | .ok () => return 0
  | .error e =>
    warn e.message
    return 1

end Homestead.Program
