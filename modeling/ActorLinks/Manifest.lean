import ActorLinks.Compilation
import ActorLinks.Record.Format
import ActorLinks.Record.Symbol
import ActorLinks.Record.Target

/-! # Manifests

A manifest holds the symbols of a compilation, the targets to generate for, and the schematic
of the links that they get. It is kept as TOML or as JSON.
-/
namespace ActorLinks

structure Manifest where
  name : Option String := none
  schematic : Schematic := .standard
  targets : List Target := []
  types : List TypeSymbol := []
  deriving DecidableEq, Inhabited

namespace Manifest

instance : Record Manifest where
  encode m := .table
    [("name", encode m.name), ("schematic", encode m.schematic), ("targets", encode m.targets),
      ("types", encode m.types)]
  decode r v := do
    let f ← r.fields? ["name", "schematic", "targets", "types"] v
    return {
      name := ← f.defaulted none "name"
      schematic := ← f.defaulted .standard "schematic"
      targets := ← f.defaulted [] "targets"
      types := ← f.defaulted [] "types" }

def parse (format : Record.Format) (text : String) : Except Failure Manifest := format.parse text

def text (m : Manifest) (format : Record.Format) : Except Failure String := format.print m

def compilation (m : Manifest) : Compilation := .ofTypes m.types

/-- What the names of generated files begin with. -/
def outputName (m : Manifest) : String := m.name.getD "Links"

end Manifest

end ActorLinks
