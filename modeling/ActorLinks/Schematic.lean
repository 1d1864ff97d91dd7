import ActorLinks.Symbol.Type

/-! # Schematics

A schematic is the tree of link types that every actor is given. The order of children is the
order of declaration. A link type nests in another only where the other accepts its kind.
-/
namespace ActorLinks

inductive LinkKind where
  | defined
  | enumerable
  | indexable
  | paged
  deriving DecidableEq, Repr, Inhabited

namespace LinkKind

def all : List LinkKind := [defined, enumerable, indexable, paged]

def name : LinkKind → String
  | defined => "Defined"
  | enumerable => "Enumerable"
  | indexable => "Indexable"
  | paged => "Paged"

def ofName? (name : String) : Option LinkKind := all.find? fun k => k.name == name

/-- The kind that a symbol names by its last segment. -/
def ofSymbol? (symbol : String) : Option LinkKind := ofName? (Text.simpleName symbol)

/-- The kinds that may nest directly inside a kind. -/
def accepts : LinkKind → List LinkKind
  | defined => [enumerable, indexable]
  | enumerable => [indexable]
  | paged => [indexable]
  | indexable => []

end LinkKind

namespace Schematic

structure Entry where
  symbol : String
  typeParameters : List String := []
  constraintClauses : List String := []
  children : List Entry := []

namespace Entry

instance : Inhabited Entry := ⟨⟨"", [], [], []⟩⟩

mutual

def decEq : (a b : Entry) → Decidable (a = b)
  | ⟨s, ps, cs, as⟩, ⟨s', ps', cs', bs⟩ =>
    match decEqList as bs with
    | isTrue h => decidable_of_iff (s = s' ∧ ps = ps' ∧ cs = cs') (by simp [h])
    | isFalse h => isFalse (by simp [h])

def decEqList : (as bs : List Entry) → Decidable (as = bs)
  | [], [] => isTrue rfl
  | [], _ :: _ | _ :: _, [] => isFalse nofun
  | a :: as, b :: bs =>
    match decEq a b, decEqList as bs with
    | isTrue h, isTrue h' => isTrue (by rw [h, h'])
    | isFalse h, _ => isFalse (by simp [h])
    | _, isFalse h => isFalse (by simp [h])

end

instance : DecidableEq Entry := decEq

variable (e : Entry)

def name : String := Text.simpleName e.symbol

def kind? : Option LinkKind := LinkKind.ofSymbol? e.symbol

def isGeneric : Bool := !e.typeParameters.isEmpty

def typeName : String := withTypeParameters e.name e.typeParameters

/-- The part that a link type adds to the names of implementation classes. -/
def classSegment : String :=
  if e.typeParameters.isEmpty then e.name else e.name ++ toString e.typeParameters.length

end Entry

end Schematic

structure Schematic where
  root : Schematic.Entry
  deriving DecidableEq, Inhabited

namespace Schematic

def linkEntry (name : String) (children : List Entry) : Entry :=
  ⟨"Discord.ILinkType." ++ name, [], [], children⟩

/-- The four link types that are used where a manifest gives no schematic. -/
def standard : Schematic :=
  let indexable := linkEntry "Indexable" []
  let enumerable := linkEntry "Enumerable" [indexable]
  ⟨⟨"Discord.ILinkType", [], [],
    [linkEntry "Defined" [enumerable, indexable], enumerable, indexable,
      ⟨"Discord.ILinkType.Paged", ["TPaged", "TPageParams"],
        ["where TPageParams : IPagingParams"], [indexable]⟩]⟩⟩

end Schematic

end ActorLinks
