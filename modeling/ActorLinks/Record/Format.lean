import ActorLinks.Failure
import ActorLinks.Json.Reader
import ActorLinks.Json.Writer
import ActorLinks.Record.Reading
import ActorLinks.Toml.Reader
import ActorLinks.Toml.Writer

/-! # Formats of data files

A record is read from a text and written to one in either format.
-/
namespace ActorLinks.Record

inductive Format where
  | toml
  | json
  deriving DecidableEq, Repr

namespace Format

def name : Format → String
  | toml => "toml"
  | json => "json"

def all : List Format := [toml, json]

def ofName? (name : String) : Option Format := all.find? fun f => f.name == name

def reading : Format → Reading
  | toml => .toml
  | json => .json

def read? : Format → String → Option Value
  | toml => Toml.read?
  | json => Json.read?

def write? : Format → Value → Option String
  | toml => Toml.write?
  | json => fun v => some (Json.pretty v)

def unreadable : Format → Failure
  | toml => .unreadableToml
  | json => .unreadableJson

def unwritable : Format → Failure
  | toml => .unwritableToml
  | json => .unreadableJson

/-- Reads a record. -/
def parse {α : Type} [Record α] (f : Format) (text : String) : Except Failure α :=
  match (f.read? text).bind (decode f.reading) with
  | some a => .ok a
  | none => .error f.unreadable

/-- Writes a record. -/
def print {α : Type} [Record α] (f : Format) (a : α) : Except Failure String :=
  match f.write? (encode a) with
  | some text => .ok text
  | none => .error f.unwritable

end Format

end ActorLinks.Record
