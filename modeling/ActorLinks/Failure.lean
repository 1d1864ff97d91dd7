/-! # Failures

Each failure is a cause with what is known of it, and `message` is its only wording. A schema
failure and an emission failure end the whole run; any other costs only the manifest it struck.
-/
namespace ActorLinks

inductive Failure where
  | configuration (detail : String)
  | emission (detail : String)
  | fileSystem (detail : String)
  | notFound (item : String)
  | permissionDenied
  | schema (symbol detail : String)
  | serialization (detail : String)
  deriving DecidableEq, Repr

/-- What the operating system reports of a path. -/
inductive PathFault where
  | missing (detail : String)
  | denied
  | other (kind : String)
  deriving DecidableEq, Repr

namespace Failure

def message : Failure → String
  | configuration detail => "Configuration error: " ++ detail
  | emission detail => "Emission error: " ++ detail
  | fileSystem detail => "File System error: " ++ detail
  | notFound item => "Item Not Found: " ++ item
  | permissionDenied => "You do not have permission to access this resource"
  | schema symbol detail => "Schema error on '" ++ symbol ++ "': " ++ detail
  | serialization detail => "(De)Serialization error: " ++ detail

def isFatal : Failure → Bool
  | schema _ _ | emission _ => true
  | _ => false

def ofPathFault : PathFault → Failure
  | .missing detail => notFound detail
  | .denied => permissionDenied
  | .other kind => fileSystem ("IOError: " ++ kind)

/-- A walk comes to a directory that cannot be listed. -/
def unlistable (path : String) : Failure :=
  fileSystem ("Directory walk failed: IO error for operation on " ++ path
    ++ ": File name too long (os error 36)")

def unreadableToml : Failure := serialization "Toml deserialization error"

def unwritableToml : Failure := serialization "Toml serialization error"

def unreadableJson : Failure := serialization "JSON (de)serialization error"

def notAManifest (path : String) : Failure :=
  configuration (path ++ " is not a .toml or .json manifest")

end Failure

end ActorLinks
