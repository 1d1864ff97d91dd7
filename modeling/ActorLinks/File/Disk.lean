import ActorLinks.File.Tree

/-! # Disks

A disk is one tree with the directory that relative path names start from. Every part of a path
name but the last has to lead to a directory.
-/
namespace ActorLinks

structure Disk where
  root : FileTree
  /-- The position of the current directory. -/
  current : List String := []

namespace Disk

def missing : PathFault := .missing "No such file or directory (os error 2)"

def notADirectory : PathFault := .other "not a directory"

def invalidName : PathFault := .other "invalid filename"

def alreadyThere : PathFault := .other "entity already exists"

def nameLimit : Nat := 255

/-- One part further from a position. -/
def step (d : Disk) (position : List String) (part : String) :
    Except PathFault (List String) :=
  match d.root.at? position with
  | none => .error missing
  | some (.file _) => .error notADirectory
  | some (.directory _) =>
    if part = "" || part = "." then .ok position
    else if part = ".." then .ok position.dropLast
    else if nameLimit < part.utf8ByteSize then .error invalidName
    else .ok (position ++ [part])

def start (d : Disk) (path : String) : List String :=
  if Pathname.isAbsolute path then [] else d.current

/-- Follows leading parts of a path name. -/
def follow (d : Disk) (path : String) (parts : List String) : Except PathFault (List String) :=
  if path.isEmpty then .error missing
  else if path.toList.contains '\x00' then .error (.other "invalid input parameter")
  else if Pathname.isTooLong path then .error invalidName
  else parts.foldlM d.step (d.start path)

/-- Where a path name leads; nothing need be there. -/
def position? (d : Disk) (path : String) : Except PathFault (List String) :=
  d.follow path (Pathname.parts path)

def tree? (d : Disk) (path : String) : Except PathFault FileTree := do
  match d.root.at? (← d.position? path) with
  | some t => return t
  | none => throw missing

def isDirectory (d : Disk) (path : String) : Bool :=
  match d.tree? path with
  | .ok t => t.isDirectory
  | .error _ => false

def text? (d : Disk) (path : String) : Except PathFault String := do (← d.tree? path).text?

def put (d : Disk) (position : List String) (t : FileTree) : Disk :=
  { d with root := d.root.put position t }

/-- Sets the text of a file. -/
def write (d : Disk) (path text : String) : Except PathFault Disk := do
  let position ← d.position? path
  match d.root.at? position with
  | some (.directory _) => throw (.other "is a directory")
  | _ => return d.put position (.ofText text)

/-- Deletes a file. -/
def remove? (d : Disk) (path : String) : Option Disk :=
  match d.position? path with
  | .ok position =>
    match d.root.at? position with
    | some (.file _) => some { d with root := d.root.remove position }
    | _ => none
  | .error _ => none

/-- Makes one directory where nothing is yet; slashes at the end of its path name do not count. -/
def makeDirectory (d : Disk) (path : String) : Except PathFault Disk := do
  match (Pathname.parts path).reverse.dropWhile (· = "") with
  | [] => throw alreadyThere
  | name :: around =>
    let position ← d.step (← d.follow path around.reverse) name
    if name = "." || name = ".." || (d.root.at? position).isSome then throw alreadyThere
    else return d.put position .empty

/-- Whatever has kept a directory from being made, it is no failure if the directory is there. -/
def orDirectory (d : Disk) (path : String) (made : Except PathFault Disk) : Except PathFault Disk :=
  match made with
  | .ok d => .ok d
  | .error fault => if d.isDirectory path then .ok d else .error fault

/-- Makes the first of some directories, each of which lies in the next. The next ones are made
before it only if it cannot be made without them. -/
def makeInside (d : Disk) : List String → Except PathFault Disk
  | [] => .ok d
  | path :: around =>
    match d.makeDirectory path with
    | .error (.missing _) => do
      let d ← d.makeInside around
      d.orDirectory path (d.makeDirectory path)
    | made => d.orDirectory path made

/-- Makes a directory and those around it, as far as they are missing. -/
def makeDirectories (d : Disk) (path : String) : Except PathFault Disk :=
  if path.isEmpty then .ok d else d.makeInside (path :: Pathname.ancestors path)

end Disk

end ActorLinks
