/-
  Homestead.Program.Arguments
  ───────────────────────────
  **WHAT THE PROGRAM IS ASKED TO DO.**

  The arguments name the root of the world's files and a command; two
  settings of the environment replace the place of the archive and the
  interval of saves.  A setting that is blank counts as not set.
-/
import Homestead.Program.Path
import Homestead.Text.Blank
import Homestead.Text.Numeral

namespace Homestead.Program

/-! ## §1. Commands and settings. -/

/-- What to do once the world is loaded. -/
inductive Command where
  /-- Nothing more. -/
  | check
  /-- Save it again. -/
  | resave
  /-- Keep it going until the input ends, then save it. -/
  | serve
  deriving DecidableEq

/-- The command of a name. -/
def Command.ofName? : String → Option Command
  | "check" => some check
  | "resave" => some resave
  | "serve" => some serve
  | _ => none

/-- The settings of the environment. -/
structure Environment where
  /-- Where the archive lies. -/
  archive : Option String := none
  /-- Seconds between saves. -/
  autosave : Option String := none
  deriving DecidableEq

/-- A setting without the blanks around it, if there is anything else in it. -/
def setting? (value : Option String) : Option String :=
  (value.map Text.trim).filter (· != "")

/-! ## §2. Arguments. -/

/-- Why arguments and settings are refused. -/
inductive ArgumentError where
  /-- There is no root. -/
  | usage
  /-- There is no such command. -/
  | unknownCommand (name : String)
  /-- The interval of saves is no number. -/
  | badInterval (text : String)
  deriving DecidableEq

/-- The wording of an error. -/
def ArgumentError.message : ArgumentError → String
  | usage => "usage: tibia-house-store <asset-root> [check|resave|serve]"
  | unknownCommand name => "unknown command '" ++ name ++ "'"
  | badInterval text => "TIBIA_AUTOSAVE_SECS is not a number: '" ++ text ++ "'"

/-- What the program was asked to do. -/
structure Arguments where
  /-- The root of the world's files. -/
  root : String
  /-- The command. -/
  command : Command
  /-- Where the archive lies. -/
  archive : String
  /-- Seconds between saves, 0 for none. -/
  autosaveSeconds : Nat
  deriving DecidableEq

namespace Arguments

/-- Seconds between saves unless a setting says otherwise. -/
def defaultAutosave : Nat := 900

/-- One more than the greatest number of seconds. -/
def autosaveBound : Nat := 18446744073709551616

/-- Reads the arguments, the name of the program in front, and the settings. -/
def read (args : List String) (env : Environment) : Except ArgumentError Arguments := do
  match args with
  | _ :: root :: rest =>
    let command ← match rest with
      | [] => pure Command.check
      | name :: _ =>
        match Command.ofName? name with
        | some command => pure command
        | none => throw (.unknownCommand name)
    let archive := (setting? env.archive).getD (joinPath (joinPath root "save") "world.db")
    let autosaveSeconds ← match setting? env.autosave with
      | none => pure defaultAutosave
      | some text =>
        match Text.boundedNumeral? autosaveBound text with
        | some seconds => pure seconds
        | none => throw (.badInterval text)
    return { root, command, archive, autosaveSeconds }
  | _ => throw .usage

end Arguments

end Homestead.Program
