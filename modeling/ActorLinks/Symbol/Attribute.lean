import ActorLinks.Ordered.Dict
import ActorLinks.Text.Literal
import ActorLinks.Text.Name

/-! # Attributes and their constants

An attribute carries positional constants and constants by name. Five attribute classes are
markers that decide which links are made.
-/
namespace ActorLinks

inductive Constant where
  | primitive (text : String)
  | bool (value : Bool)
  | enumeration (text : String)
  | type (name : String)
  | array (items : List Constant)
  | error
  deriving Repr

namespace Constant

instance : Inhabited Constant := ⟨error⟩

mutual

def decEq : (a b : Constant) → Decidable (a = b)
  | primitive a, primitive b => decidable_of_iff (a = b) (by simp)
  | bool a, bool b => decidable_of_iff (a = b) (by simp)
  | enumeration a, enumeration b => decidable_of_iff (a = b) (by simp)
  | type a, type b => decidable_of_iff (a = b) (by simp)
  | array a, array b => @decidable_of_iff _ (a = b) (by simp) (decEqList a b)
  | error, error => isTrue rfl
  | primitive _, bool _ | primitive _, enumeration _ | primitive _, type _ | primitive _, array _
  | primitive _, error | bool _, primitive _ | bool _, enumeration _ | bool _, type _
  | bool _, array _ | bool _, error | enumeration _, primitive _ | enumeration _, bool _
  | enumeration _, type _ | enumeration _, array _ | enumeration _, error | type _, primitive _
  | type _, bool _ | type _, enumeration _ | type _, array _ | type _, error | array _, primitive _
  | array _, bool _ | array _, enumeration _ | array _, type _ | array _, error
  | error, primitive _ | error, bool _ | error, enumeration _ | error, type _ | error, array _ =>
    isFalse nofun

def decEqList : (a b : List Constant) → Decidable (a = b)
  | [], [] => isTrue rfl
  | [], _ :: _ | _ :: _, [] => isFalse nofun
  | a :: as, b :: bs =>
    match decEq a b, decEqList as bs with
    | isTrue h, isTrue h' => isTrue (by rw [h, h'])
    | isFalse h, _ => isFalse (by simp [h])
    | _, isFalse h => isFalse (by simp [h])

end

instance : DecidableEq Constant := decEq

def text? : Constant → Option String
  | primitive s | enumeration s => some s
  | _ => none

def bool? : Constant → Option Bool
  | bool b => some b
  | primitive "true" => some true
  | primitive "false" => some false
  | _ => none

def type? : Constant → Option String
  | type name => some name
  | _ => none

def array? : Constant → Option (List Constant)
  | array items => some items
  | _ => none

mutual

/-- How a message quotes a constant. -/
def quoted : Constant → String
  | primitive s => "Primitive(" ++ Text.literal s ++ ")"
  | bool b => "Bool(" ++ (if b then "true" else "false") ++ ")"
  | enumeration s => "Enum(" ++ Text.literal s ++ ")"
  | type s => "Type(" ++ Text.literal s ++ ")"
  | array items => "Array([" ++ ", ".intercalate (quotedItems items) ++ "])"
  | error => "Error"

def quotedItems : List Constant → List String
  | [] => []
  | c :: cs => c.quoted :: quotedItems cs

end

end Constant

structure Attribute where
  className : String
  typeArguments : List String := []
  arguments : List Constant := []
  named : Dict Constant := ∅
  deriving DecidableEq

inductive Marker where
  | relationshipName
  | linkMirror
  | linkExtension
  | linkHierarchicalRoot
  | typeHeuristic
  deriving DecidableEq, Repr

namespace Marker

def all : List Marker :=
  [relationshipName, linkMirror, linkExtension, linkHierarchicalRoot, typeHeuristic]

def className : Marker → String
  | relationshipName => "Discord.RelationshipNameAttribute"
  | linkMirror => "Discord.LinkMirrorAttribute"
  | linkExtension => "Discord.LinkExtensionAttribute"
  | linkHierarchicalRoot => "Discord.LinkHierarchicalRootAttribute"
  | typeHeuristic => "Discord.TypeHeuristicAttribute"

/-- A generic attribute class is matched without its type arguments. -/
def accepts (m : Marker) (className : String) : Bool := Text.unbound className == m.className

end Marker

def Attribute.is (a : Attribute) (m : Marker) : Bool := m.accepts a.className

/-- The first attribute that carries the marker. -/
def Marker.find? (m : Marker) (attributes : List Attribute) : Option Attribute :=
  attributes.find? fun a => a.is m

end ActorLinks
