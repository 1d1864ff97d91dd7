import ActorLinks.Config
import ActorLinks.File.Disk
import ActorLinks.Manifest

/-! # Loading manifests

A manifest file is known by the ending of its name and lends its name to a manifest without
one. Of a directory every manifest file below it is loaded; one that fails is passed over there,
and reports its failure when it is loaded by itself.
-/
namespace ActorLinks

namespace Manifest

def formatOf? (path : String) : Option Record.Format :=
  (Pathname.extension? path).bind Record.Format.ofName?

def nameAfter (m : Manifest) (path : String) : Manifest :=
  { m with name := m.name <|> Pathname.stem? path }

/-- The manifest at a path, given what the path leads to. -/
def ofFile (path : String) (found : Except PathFault FileTree) : Except Failure Manifest :=
  match formatOf? path with
  | none => .error (.notAManifest path)
  | some format =>
    match found.bind FileTree.text? with
    | .error fault => .error (.ofPathFault fault)
    | .ok text => (parse format text).map fun m => m.nameAfter path

/-- Takes in what a walk meets. A manifest file that fails is passed over, unless the failure is
fatal; other files are not looked at. A path name may have grown too long for its file. -/
def loadMet (found : List (String × Manifest)) (met : Except String (String × FileTree)) :
    Except Failure (List (String × Manifest)) :=
  match met with
  | .error path => .error (.unlistable path)
  | .ok (path, t) =>
    if (formatOf? path).isNone then .ok found
    else
      match ofFile path (if Pathname.isTooLong path then .error Disk.invalidName else .ok t) with
      | .ok m => .ok (found ++ [(path, m)])
      | .error e => if e.isFatal then .error e else .ok found

/-- The manifests at or below a path with their paths. -/
def load (path : String) (found : Except PathFault FileTree) :
    Except Failure (List (String × Manifest)) :=
  match found with
  | .ok (.directory es) => (FileTree.walkEntries path es).foldlM loadMet []
  | _ => (ofFile path found).map fun m => [(path, m)]

end Manifest

namespace Config

/-- The configuration at a path, given what the path leads to; the default where nothing is. -/
def load (found : Except PathFault FileTree) : Except Failure Config :=
  match found with
  | .error _ => .ok {}
  | .ok t =>
    match t.text? with
    | .error fault => .error (.ofPathFault fault)
    | .ok text => parse text

/-- Writes the configuration to a path; a failure leaves the disk as it was. -/
def store (c : Config) (path : String) (d : Disk) : Except Failure Disk := do
  let text ← c.text
  match d.write path text with
  | .error fault => throw (.ofPathFault fault)
  | .ok d => return d

end Config

end ActorLinks
