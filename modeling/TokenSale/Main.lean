import TokenSale.Command.Execute

/-!
# TokenSale.Main

The program: it reads the files that its arguments name, runs the command on
them, writes back those that have changed, and prints what the command says.
-/

namespace TokenSale.Main

/-- The files at paths, apart from those that cannot be read. -/
def readFiles (paths : List String) : IO Folder :=
  paths.foldlM (fun f (path : String) => do
    match ← (IO.FS.readFile path).toBaseIO with
    | .ok content => return f.write path content
    | .error _ => return f) .empty

/-- What stands before the last slash of a path. -/
def parent (path : String) : String := "/".intercalate (Folder.pieces path).dropLast

/-- Writes the file at a path if it has changed. -/
def writeChanged (before after : Folder) (path : String) : IO Unit := do
  match after.read? path with
  | none => return
  | some content =>
    if before.read? path = some content then return
    if parent path ≠ "" then IO.FS.createDirAll (parent path)
    IO.FS.writeFile path content

/-- Runs a command line on the files of the system. -/
def runCommand (args : List String) : IO UInt32 := do
  let paths := match Invocation.ofArguments args with
    | .ok invocation => invocation.paths
    | .error _ => []
  let before ← readFiles paths
  let (output, after) := Command.run before args
  paths.forM (writeChanged before after)
  IO.print output.stdout
  if let some message := output.error then IO.eprintln ("Error: " ++ message)
  if output.exitCode = 2 then IO.eprint Help.topPage.text
  return output.exitCode.toUInt32

end TokenSale.Main

/-- Runs the arguments of the program. -/
def main (args : List String) : IO UInt32 := TokenSale.Main.runCommand args
