import ActorLinks.CommandLine
import ActorLinks.Manifest.Load
import ActorLinks.Source

/-! # Sessions

What a command does to a disk, and what it prints. A command ends at its first failure with
everything before it done; a manifest that fails without ending the run is passed over. The
configuration is read again for every manifest.
-/
namespace ActorLinks

structure Session where
  disk : Disk
  printed : String := ""
  /-- The directories made so far, by the path names that were used. -/
  made : List String := []
  /-- The files written so far with their texts, by the path names that were used. -/
  written : List (String × String) := []

inductive Ending where
  | done
  | misuse
  | failed (f : Failure)
  deriving DecidableEq

def Ending.exitCode : Ending → UInt8
  | done => 0
  | failed _ => 1
  | misuse => 2

namespace Session

def print (s : Session) (line : String) : Session := { s with printed := s.printed ++ line ++ "\n" }

/-- Takes the items one by one up to the first failure. -/
def each {α : Type} (f : Session → α → Session × Option Failure) (s : Session) :
    List α → Session × Option Failure
  | [] => (s, none)
  | x :: xs =>
    match f s x with
    | (s, none) => each f s xs
    | (s, some e) => (s, some e)

def write (s : Session) (path text : String) : Session × Option Failure :=
  match s.disk.write path text with
  | .ok d => ({ s with disk := d, written := s.written ++ [(path, text)] }, none)
  | .error fault => (s, some (.ofPathFault fault))

def makeDirectories (s : Session) (path : String) : Session × Option Failure :=
  match s.disk.makeDirectories path with
  | .ok d => ({ s with disk := d, made := s.made ++ [path] }, none)
  | .error fault => (s, some (.ofPathFault fault))

def config (s : Session) (path : String) : Except Failure Config :=
  Config.load (s.disk.tree? path)

def manifests (s : Session) (path : String) : Except Failure (List (String × Manifest)) :=
  Manifest.load path (s.disk.tree? path)

/-- Goes on unless there is a failure. -/
def andThen (r : Session × Option Failure) (f : Session → Session × Option Failure) :
    Session × Option Failure :=
  match r with
  | (s, none) => f s
  | (s, some e) => (s, some e)

def withResult {α : Type} (s : Session) (r : Except Failure α)
    (f : α → Session × Option Failure) : Session × Option Failure :=
  match r with
  | .ok a => f a
  | .error e => (s, some e)

/-- The file that a source of a manifest is written to. -/
def filePath (out : String) (m : Manifest) (source : Source) : String :=
  Pathname.join out (m.outputName ++ "." ++ source.fileName)

def emit (out : Option String) (m : Manifest) (s : Session) (source : Source) :
    Session × Option Failure :=
  match out with
  | none => ((s.print ("// " ++ source.fileName)).print source.text, none)
  | some out =>
    let path := filePath out m source
    andThen (s.write path source.text) fun s => (s.print path, none)

def generateOne (configPath : String) (out : Option String) (s : Session)
    (found : String × Manifest) : Session × Option Failure :=
  s.withResult (s.config configPath) fun c =>
    match (found.2.graph.generate c.output).2 with
    | .ok sources => s.each (emit out found.2) sources
    | .error e => (s, if e.isFatal then some e else none)

def inspectOne (configPath : String) (s : Session) (found : String × Manifest) :
    Session × Option Failure :=
  let s := s.print found.1
  s.withResult (s.config configPath) fun _ =>
    s.withResult found.2.graph.outline.2 fun lines =>
      (lines.foldl (fun s line => s.print ("  " ++ line)) s, none)

def perform (configPath : String) (s : Session) : Command → Session × Option Failure
  | .generate path out =>
    let prepared := match out with
      | some out => s.makeDirectories out
      | none => (s, none)
    andThen prepared fun s =>
      s.withResult (s.manifests path) fun found => s.each (generateOne configPath out) found
  | .inspect path =>
    s.withResult (s.manifests path) fun found => s.each (inspectOne configPath) found

def defaultConfigPath : String := "linkgen.toml"

/-- Nothing is done unless the configuration can be read. -/
def run (d : Disk) : CommandLine → Session × Ending
  | .help topic => (topic.lines.foldl print { disk := d }, .done)
  | .version => (({ disk := d } : Session).print "linkgen 0.0.0", .done)
  | .misuse => ({ disk := d }, .misuse)
  | .run command config =>
    let configPath := config.getD defaultConfigPath
    let s : Session := { disk := d }
    match s.withResult (s.config configPath) fun _ => s.perform configPath command with
    | (s, none) => (s, .done)
    | (s, some e) => (s, .failed e)

end Session

end ActorLinks
