import ActorLinks.Failure
import ActorLinks.File.Pathname
import ActorLinks.Ordered.Dict

/-! # File trees

A directory holds its entries in ascending order of their names, so that a tree has one order
in which its files are met. A file that cannot be read is known with the fault that it gives.
-/
namespace ActorLinks

inductive FileTree where
  | file (content : Except PathFault ByteArray)
  | directory (entries : List (String × FileTree))

namespace FileTree

def empty : FileTree := directory []

instance : Inhabited FileTree := ⟨empty⟩

def ofBytes (bytes : ByteArray) : FileTree := file (.ok bytes)

def ofText (text : String) : FileTree := ofBytes text.toUTF8

def ofEntries (entries : List (String × FileTree)) : FileTree :=
  directory (entries.foldl (fun es e => putEntry e.1 e.2 es) [])

def isDirectory : FileTree → Bool
  | directory _ => true
  | file _ => false

def entries : FileTree → List (String × FileTree)
  | directory es => es
  | file _ => []

/-- The tree at a position, which is a list of names from the root down. -/
def at? (position : List String) (t : FileTree) : Option FileTree :=
  position.foldlM (fun t name => t.entries.lookup name) t

/-- Sets a position; directories on the way are made, and a file on the way gives way. -/
def put : FileTree → List String → FileTree → FileTree
  | _, [], new => new
  | t, name :: rest, new =>
    directory (putEntry name (((t.entries.lookup name).getD empty).put rest new) t.entries)

/-- Takes a position out of its directory. -/
def remove : FileTree → List String → FileTree
  | t, [] => t
  | t, [name] => directory (t.entries.filter fun e => e.1 ≠ name)
  | t, name :: rest =>
    match t.entries.lookup name with
    | some s => directory (putEntry name (s.remove rest) t.entries)
    | none => t

def text? : FileTree → Except PathFault String
  | directory _ => .error (.other "is a directory")
  | file (.error fault) => .error fault
  | file (.ok bytes) =>
    match String.fromUTF8? bytes with
    | some s => .ok s
    | none => .error (.other "invalid data")

mutual

/-- The files of a tree, depth first, by the path names that they have if the tree has `path`. -/
def files (path : String) : FileTree → List (String × FileTree)
  | file content => [(path, file content)]
  | directory es => entryFiles path es

def entryFiles (path : String) : List (String × FileTree) → List (String × FileTree)
  | [] => []
  | (name, t) :: rest => t.files (Pathname.join path name) ++ entryFiles path rest

end

mutual

/-- What a walk meets: the files, and the path names of directories that are too long for the
directories to be listed. -/
def walk (path : String) : FileTree → List (Except String (String × FileTree))
  | file content => [.ok (path, file content)]
  | directory es => if Pathname.isTooLong path then [.error path] else walkEntries path es

def walkEntries (path : String) :
    List (String × FileTree) → List (Except String (String × FileTree))
  | [] => []
  | (name, t) :: rest => t.walk (Pathname.join path name) ++ walkEntries path rest

end

end FileTree

end ActorLinks
