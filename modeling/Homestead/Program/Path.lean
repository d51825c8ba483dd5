/-
  Homestead.Program.Path
  ──────────────────────
  **NAMES OF FILES.**

  A path is a text of names between slashes.  Empty names and names `.`
  inside a path mean nothing.
-/

namespace Homestead.Program

/-- A part below a path; nothing is put in between when the path is empty or ends with a slash. -/
def joinPath (path part : String) : String :=
  if path == "" || path.endsWith "/" then path ++ part else path ++ "/" ++ part

/-- Whether a path starts at the root of all files. -/
def isAbsolute (path : String) : Bool :=
  path.startsWith "/"

/-- The names of a path that mean something. -/
def pathNames (path : String) : List String :=
  match (path.splitOn "/").filter (· != "") with
  | [] => []
  | first :: rest =>
    let rest := rest.filter (· != ".")
    if first == "." && isAbsolute path then rest else first :: rest

/-- The path of what a path lies in, unless it is empty or the root of all files. -/
def parentPath? (path : String) : Option String :=
  match (pathNames path).reverse with
  | [] => none
  | _ :: front =>
    some ((if isAbsolute path then "/" else "") ++ "/".intercalate front.reverse)

end Homestead.Program
