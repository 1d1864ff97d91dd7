import ActorLinks.Record.Value

/-! # Reading records

A record is a table; it may also be given as the list of its fields in order. How much is let
pass where a record is taken from a value depends on how the value came to be read.
-/
namespace ActorLinks

/-- How a value came to be read. -/
inductive Reading where
  | json
  | toml
  /-- As a whole, before it was known what the value is meant to be. -/
  | ahead
  deriving DecidableEq, Repr

/-- How a type is kept in a data file. -/
class Record (α : Type) where
  encode : α → Value
  decode : Reading → Value → Option α

export Record (encode decode)

/-- The fields of a record that were found in a value. -/
structure Fields where
  reading : Reading
  /-- Whether they are known by their places in a list and not by their names. -/
  isList : Bool
  get? : String → Option Value

namespace Reading

/-- What may be given as the content of a choice that has none. -/
def isNothing : Reading → Value → Bool
  | _, .null | toml, .list [] | toml, .table [] | ahead, .table [] => true
  | _, _ => false

/-- Whether a list may go on behind the fields of the record that it stands for. -/
def allowsMore : Reading → Bool
  | toml => true
  | json | ahead => false

/-- The fields of a record by name; a name of the record must not occur twice. -/
def fields? (r : Reading) (names : List String) : Value → Option Fields
  | .table fields =>
    if names.all fun n => (fields.filter fun f => f.1 == n).length ≤ 1 then
      some ⟨r, false, fun n => fields.lookup n⟩
    else none
  | .list items =>
    if r.allowsMore || items.length ≤ names.length then
      some ⟨r, true, fun n => (names.zip items).lookup n⟩
    else none
  | _ => none

/-- A choice without content: a word, or a table of one field with nothing in it. -/
def word? (r : Reading) : Value → Option String
  | .text s => some s
  | .table [(s, content)] => if r.isNothing content then some s else none
  | _ => none

/-- The item that is named by a word. -/
def choice? {α : Type} (r : Reading) (name : α → String) (all : List α) (v : Value) :
    Option α :=
  (r.word? v).bind fun s => all.find? fun a => name a == s

end Reading

namespace Fields

def required {α : Type} [Record α] (f : Fields) (name : String) : Option α :=
  (f.get? name).bind (decode f.reading)

def defaulted {α : Type} [Record α] (f : Fields) (default : α) (name : String) : Option α :=
  match f.get? name with
  | some v => decode f.reading v
  | none => some default

/-- A field that a table may leave out, while a list has to have a null in its place. -/
def optional {α : Type} [Record α] (f : Fields) (name : String) : Option (Option α) :=
  match f.get? name with
  | some .null => some none
  | some v => (decode f.reading v).map some
  | none => if f.isList then none else some none

end Fields

namespace Record

instance : Record String where
  encode := .text
  decode
    | _, .text s => some s
    | _, _ => none

instance : Record Bool where
  encode := .bool
  decode
    | _, .bool b => some b
    | _, _ => none

instance {α : Type} [Record α] : Record (Option α) where
  encode
    | some a => encode a
    | none => .null
  decode
    | _, .null => some none
    | r, v => (decode r v).map some

def decodeList {α : Type} [Record α] (r : Reading) : List Value → Option (List α)
  | [] => some []
  | v :: vs => do return (← decode r v) :: (← decodeList r vs)

instance {α : Type} [Record α] : Record (List α) where
  encode items := .list (items.map encode)
  decode
    | r, .list vs => decodeList r vs
    | _, _ => none

end Record

end ActorLinks
