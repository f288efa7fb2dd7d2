import TokenSale.Directory

/-!
# TokenSale.Command.Folder

The files that a command works on.  A path is a list of names between slashes;
empty names and lone dots do not count.

* `Folder.look` — what is found at a path;
* `Folder.write` — replaces the content of a file.
-/

namespace TokenSale

/-- Files by their paths. -/
structure Folder where
  files : Directory String String

/-- What is found at a path. -/
inductive Look where
  | file (content : String)
  /-- A folder, or a path through a file. -/
  | obstacle
  /-- Nothing, but the path is spelt as that of a folder. -/
  | missingFolder
  | vacant
  deriving DecidableEq

namespace Folder

/-- No files. -/
def empty : Folder := ⟨.empty⟩

/-- All names of a path. -/
def pieces (path : String) : List String := (path.toList.splitOn '/').map String.ofList

/-- The names of a path that count. -/
def names (path : String) : List String :=
  (pieces path).filter fun name => name != "" && name != "."

/-- The one spelling of a path. -/
def key (path : String) : String :=
  (if "/".toList.isPrefixOf path.toList then "/" else "") ++ "/".intercalate (names path)

/-- Whether a path is spelt as one of a folder: its last name does not count. -/
def spellsFolder (path : String) : Bool :=
  match (pieces path).getLast? with
  | some name => name == "" || name == "."
  | none => true

/-- Whether a spelling leads through another. -/
def isBelow (inner outer : String) : Bool := (outer ++ "/").toList.isPrefixOf inner.toList

/-- What is found at a path. -/
def look (f : Folder) (path : String) : Look :=
  match f.files.get? (key path) with
  | some content => if spellsFolder path then .missingFolder else .file content
  | none =>
    if (names path).isEmpty ||
        f.files.keys.any fun k => isBelow k (key path) || isBelow (key path) k
    then .obstacle
    else if spellsFolder path then .missingFolder
    else .vacant

/-- The content of the file at a path. -/
def read? (f : Folder) (path : String) : Option String :=
  match f.look path with
  | .file content => some content
  | _ => none

/-- The folder with a file at a path. -/
def write (f : Folder) (path content : String) : Folder := ⟨f.files.insert (key path) content⟩

/-- The folder of a list of files. -/
def ofList (files : List (String × String)) : Folder :=
  files.foldl (fun f p => f.write p.1 p.2) empty

end Folder

end TokenSale
