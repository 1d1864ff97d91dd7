import ActorLinks.Text.Name

/-! # Path names

A path name is a text whose parts are set off by slashes. Empty parts and single points say
nothing, two points lead to the parent.
-/
namespace ActorLinks.Pathname

def parts (path : String) : List String :=
  (path.toList.splitOnP (· = '/')).map String.ofList

def isAbsolute (path : String) : Bool := path.toList.head? == some '/'

/-- The parts that say something; a point does so where the path name begins with it. -/
def steps (path : String) : List String :=
  match parts path with
  | [] => []
  | p :: rest => ([p] ++ rest.filter (· ≠ ".")).filter (· ≠ "")

/-- The path names of what a path name leads through, the nearest first. The root and the current
directory are left out, as they are always there. -/
def ancestors (path : String) : List String :=
  let front := if isAbsolute path then "/" else ""
  let around := (steps path).dropLast
  (List.range around.length).reverse.map fun n => front ++ "/".intercalate (around.take (n + 1))

/-- The length in bytes from which a path name is too long to be looked up. -/
def limit : Nat := 4096

def isTooLong (path : String) : Bool := limit ≤ path.utf8ByteSize

/-- The last part that says something, unless it leads to a parent. -/
def fileName? (path : String) : Option String :=
  (((parts path).filter fun p => p ≠ "" && p ≠ ".").getLast?).filter (· ≠ "..")

/-- What stands before the last point of a file name and what stands behind it. A point in
front does not count. -/
def splitExtension (name : String) : String × Option String :=
  let cs := name.toList
  match Text.qualifier? cs with
  | none | some [] => (name, none)
  | some stem => (String.ofList stem, some (String.ofList (Text.lastSegment cs)))

def stem? (path : String) : Option String := (fileName? path).map fun n => (splitExtension n).1

def extension? (path : String) : Option String :=
  (fileName? path).bind fun n => (splitExtension n).2

/-- The name of a file inside a directory; a name that is absolute stands alone. -/
def join (directory name : String) : String :=
  if isAbsolute name || directory.isEmpty then name
  else if directory.toList.getLast? == some '/' then directory ++ name
  else directory ++ "/" ++ name

end ActorLinks.Pathname
