import ActorLinks.Session

/-! # The program

Reads what a command line refers to, runs it, and carries out what it did.
-/
namespace ActorLinks

def faultOf : IO.Error → PathFault
  | .noFileOrDirectory .. | .noSuchThing .. => Disk.missing
  | .permissionDenied .. => .denied
  | e => .other (toString e)

partial def snapshot (path : String) : IO (Option FileTree) := do
  let place := (← IO.currentDir) / path
  if ← place.isDir then
    let mut entries := []
    for entry in ← place.readDir do
      match ← snapshot (Pathname.join path entry.fileName) with
      | some t => entries := (entry.fileName, t) :: entries
      | none => pure ()
    return some (.ofEntries entries)
  else if ← place.pathExists then
    try return some (.ofBytes (← IO.FS.readBinFile place))
    catch e => return some (.file (.error (faultOf e)))
  else return none

/-- The names from the root of the file system down to the current directory. -/
def currentPosition : IO (List String) := do
  return (Pathname.parts (← IO.currentDir).toString).filter (· ≠ "")

/-- One part further, into a directory that is made if nothing is there. -/
def enter (s : Disk × List String) (part : String) : Except PathFault (Disk × List String) := do
  let (d, position) := s
  let next ← d.step position part
  return (if (d.root.at? next).isSome then d else d.put next .empty, next)

/-- Puts what a path name leads to on a disk, with the directories that it leads through. -/
def place (d : Disk) (path : String) : IO Disk := do
  match ← snapshot path, (Pathname.parts path).foldlM enter (d, d.start path) with
  | some t, .ok (d, position) => return d.put position t
  | _, _ => return d

/-- The paths that a command reads from or writes to. -/
def referredPaths (command : Command) (configPath : String) : List String :=
  match command with
  | .generate path out => [configPath, path] ++ out.toList
  | .inspect path => [configPath, path]

def referredDisk (command : Command) (configPath : String) : IO Disk := do
  let position ← currentPosition
  let d : Disk := { root := FileTree.empty.put position .empty, current := position }
  (referredPaths command configPath).foldlM place d

def carryOut (s : Session) : IO Unit := do
  for path in s.made do
    IO.FS.createDirAll path
  for (path, text) in s.written do
    IO.FS.writeFile path text
  IO.print s.printed

end ActorLinks

open ActorLinks in
def main (args : List String) : IO UInt32 := do
  let line := CommandLine.parse args
  let d ← match line with
    | .run command config => referredDisk command (config.getD Session.defaultConfigPath)
    | _ => pure { root := .empty }
  let (s, ending) := Session.run d line
  carryOut s
  match ending with
  | .failed f => IO.eprintln ("Error: " ++ f.message)
  | .misuse => IO.eprintln "For more information, try '--help'."
  | .done => pure ()
  return ending.exitCode.toUInt32
