import ActorLinks.Record.Format

/-! # Configuration

Settings of the output and of the log, each with a default. They are kept as TOML, which has no
number as large as the widest indents.
-/
namespace ActorLinks

namespace Config

structure Output where
  /-- Whether actors are headed by a view of their tree. -/
  emitTreeView : Bool := true
  /-- Whether sources switch off the warnings about hidden members. -/
  emitPragmas : Bool := true
  /-- The name space of actors that have none. -/
  defaultNamespace : String := "Discord"
  indent : UInt64 := 4
  deriving DecidableEq, Inhabited

structure Logging where
  filter : String := "linkgen_core=info"
  deriving DecidableEq, Inhabited

end Config

structure Config where
  output : Config.Output := {}
  logging : Config.Logging := {}
  deriving DecidableEq, Inhabited

namespace Config

instance : Record UInt64 where
  encode n := .int n.toNat
  decode
    | _, .int n => if 0 ≤ n && n.toNat < UInt64.size then some (UInt64.ofNat n.toNat) else none
    | _, _ => none

instance : Record Output where
  encode o := .table
    [("emit_tree_view", encode o.emitTreeView), ("emit_pragmas", encode o.emitPragmas),
      ("default_namespace", encode o.defaultNamespace), ("indent", encode o.indent)]
  decode r v := do
    let f ← r.fields? ["emit_tree_view", "emit_pragmas", "default_namespace", "indent"] v
    return {
      emitTreeView := ← f.defaulted true "emit_tree_view"
      emitPragmas := ← f.defaulted true "emit_pragmas"
      defaultNamespace := ← f.defaulted "Discord" "default_namespace"
      indent := ← f.defaulted 4 "indent" }

instance : Record Logging where
  encode l := .table [("filter", encode l.filter)]
  decode r v := do
    let f ← r.fields? ["filter"] v
    return { filter := ← f.defaulted ({} : Logging).filter "filter" }

instance : Record Config where
  encode c := .table [("output", encode c.output), ("logging", encode c.logging)]
  decode r v := do
    let f ← r.fields? ["output", "logging"] v
    return {
      output := ← f.defaulted {} "output"
      logging := ← f.defaulted {} "logging" }

def parse (text : String) : Except Failure Config := Record.Format.toml.parse text

def text (c : Config) : Except Failure String := Record.Format.toml.print c

end Config

end ActorLinks
