/-! # Values of data files

Both file formats are read into one kind of value. What cannot be made a value although it is well
formed does no harm as long as nobody looks at it.
-/
namespace ActorLinks

inductive Value where
  | null
  | bool (value : Bool)
  | int (value : Int)
  /-- A number with a fraction or an exponent, as it is written. -/
  | scalar (text : String)
  | text (text : String)
  | list (items : List Value)
  | table (fields : List (String × Value))
  /-- To be passed over only: text that is not Unicode, a number that is too large, or a container
  that is nested too deep. -/
  | unreadable
  deriving Inhabited

namespace Value

mutual

/-- Whether nothing in a value is unreadable. -/
def isReadable : Value → Bool
  | unreadable => false
  | list items => areReadable items
  | table fields => areFieldsReadable fields
  | null | bool _ | int _ | scalar _ | text _ => true

def areReadable : List Value → Bool
  | [] => true
  | v :: vs => v.isReadable && areReadable vs

def areFieldsReadable : List (String × Value) → Bool
  | [] => true
  | (_, v) :: fs => v.isReadable && areFieldsReadable fs

end

/-- A choice and its content: a table of one field, or a word where there is no content. -/
def choiceOf? : Value → Option (String × Value)
  | table [f] => some f
  | text s => some (s, null)
  | _ => none

end Value

end ActorLinks
