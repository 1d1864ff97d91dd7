import ActorLinks.Symbol.Type

/-! # Declarations

Type declarations and their members as data. A member is a leaf or a nested type declaration;
types, default values and bodies are texts that are written as they stand.
-/
namespace ActorLinks

inductive Accessibility where
  | unspecified
  | publicAccess
  | internalAccess
  | protectedAccess
  | privateProtectedAccess
  | privateAccess
  deriving DecidableEq, Repr, Inhabited

def Accessibility.keyword? : Accessibility → Option String
  | .unspecified => none
  | .publicAccess => some "public"
  | .internalAccess => some "internal"
  | .protectedAccess => some "protected"
  | .privateProtectedAccess => some "private protected"
  | .privateAccess => some "private"

inductive Modifier where
  | static
  | readonly
  | new
  | abstract
  | sealed
  | virtual
  | override
  | partialType
  deriving DecidableEq, Repr

namespace Modifier

/-- The order in which modifiers are written. -/
def all : List Modifier :=
  [static, readonly, new, abstract, sealed, virtual, override, partialType]

def keyword : Modifier → String
  | static => "static"
  | readonly => "readonly"
  | new => "new"
  | abstract => "abstract"
  | sealed => "sealed"
  | virtual => "virtual"
  | override => "override"
  | partialType => "partial"

end Modifier

/-- A set of modifiers, listed in the order in which they are written. -/
structure Modifiers where
  toList : List Modifier
  inOrder : Modifier.all.filter (· ∈ toList) = toList
  deriving DecidableEq

namespace Modifiers

def ofList (ms : List Modifier) : Modifiers :=
  ⟨Modifier.all.filter (· ∈ ms), by
    apply List.filter_congr
    intro m hm
    simp [hm]⟩

instance : EmptyCollection Modifiers := ⟨ofList []⟩

instance : Inhabited Modifiers := ⟨∅⟩

instance : Membership Modifier Modifiers := ⟨fun ms m => m ∈ ms.toList⟩

instance (m : Modifier) (ms : Modifiers) : Decidable (m ∈ ms) :=
  inferInstanceAs (Decidable (m ∈ ms.toList))

def union (ms ns : Modifiers) : Modifiers := ofList (ms.toList ++ ns.toList)

def insert (ms : Modifiers) (m : Modifier) : Modifiers := ofList (m :: ms.toList)

theorem mem_all (m : Modifier) : m ∈ Modifier.all := by cases m <;> decide

@[simp] theorem mem_ofList {ms : List Modifier} {m : Modifier} : m ∈ ofList ms ↔ m ∈ ms := by
  change m ∈ Modifier.all.filter (· ∈ ms) ↔ m ∈ ms
  simp [List.mem_filter, mem_all]

@[simp] theorem not_mem_empty {m : Modifier} : m ∉ (∅ : Modifiers) :=
  fun h => List.not_mem_nil (mem_ofList.mp h)

@[simp] theorem mem_insert {ms : Modifiers} {m k : Modifier} :
    k ∈ ms.insert m ↔ k = m ∨ k ∈ ms := by
  simp only [insert, mem_ofList, List.mem_cons]
  exact Iff.rfl

end Modifiers

namespace Decl

structure Parameter where
  typeName : String
  name : String
  default : Option String := none
  deriving DecidableEq

inductive PropertyBody where
  | get
  | expression (text : String)
  deriving DecidableEq

structure Property where
  accessibility : Accessibility := .unspecified
  modifiers : Modifiers := ∅
  typeName : String
  name : String
  explicitInterface : Option String := none
  body : PropertyBody := .get
  deriving DecidableEq

/-- A property that implements `name` of `interface` and is reached through it only. -/
def Property.explicit (typeName interface name expression : String) : Property where
  typeName := typeName
  name := name
  explicitInterface := some interface
  body := .expression expression

inductive MethodBody where
  | declaration
  | expression (text : String)
  | block (lines : List String)
  deriving DecidableEq

structure Method where
  accessibility : Accessibility := .unspecified
  modifiers : Modifiers := ∅
  returnType : String
  name : String
  explicitInterface : Option String := none
  parameters : List Parameter := []
  body : MethodBody := .declaration
  deriving DecidableEq

structure Indexer where
  accessibility : Accessibility := .unspecified
  modifiers : Modifiers := ∅
  typeName : String
  explicitInterface : Option String := none
  parameters : List Parameter
  expression : String
  deriving DecidableEq

structure Field where
  accessibility : Accessibility := .unspecified
  modifiers : Modifiers := ∅
  typeName : String
  name : String
  initializer : Option String := none
  deriving DecidableEq

/-- `baseArguments` is absent when the constructor does not call a base constructor. -/
structure Constructor where
  accessibility : Accessibility := .publicAccess
  name : String
  parameters : List Parameter
  baseArguments : Option (List String)
  body : List String
  deriving DecidableEq

inductive Leaf where
  | comment (text : String)
  | property (decl : Property)
  | method (decl : Method)
  | indexer (decl : Indexer)
  | field (decl : Field)
  | constructor (decl : Constructor)
  deriving DecidableEq

end Decl

mutual

inductive Member where
  | leaf (decl : Decl.Leaf)
  | type (decl : TypeDecl)

/-- The name includes the type parameters. -/
structure TypeDecl where
  leadingComments : List String := []
  accessibility : Accessibility := .publicAccess
  modifiers : Modifiers := ∅
  kind : TypeKind
  name : String
  bases : List String := []
  constraints : List String := []
  members : List Member := []

end

namespace Member

def comment (text : String) : Member := leaf (.comment text)

instance : Coe Decl.Property Member := ⟨fun d => leaf (.property d)⟩

instance : Coe Decl.Method Member := ⟨fun d => leaf (.method d)⟩

instance : Coe Decl.Indexer Member := ⟨fun d => leaf (.indexer d)⟩

instance : Coe Decl.Field Member := ⟨fun d => leaf (.field d)⟩

instance : Coe Decl.Constructor Member := ⟨fun d => leaf (.constructor d)⟩

instance : Coe TypeDecl Member := ⟨type⟩

instance : Inhabited Member := ⟨comment ""⟩

mutual

def decEq : (a b : Member) → Decidable (a = b)
  | leaf a, leaf b => decidable_of_iff (a = b) (by simp)
  | type a, type b => @decidable_of_iff _ (a = b) (by simp) (decEqType a b)
  | leaf _, type _ | type _, leaf _ => isFalse nofun

def decEqType : (a b : TypeDecl) → Decidable (a = b)
  | ⟨lc, ac, mo, ki, na, ba, co, ms⟩, ⟨lc', ac', mo', ki', na', ba', co', ms'⟩ =>
    if h : na = na' ∧ ki = ki' ∧ ac = ac' ∧ mo = mo' ∧ lc = lc' ∧ ba = ba' ∧ co = co' then
      @decidable_of_iff _ (ms = ms') (by simp [h]) (decEqList ms ms')
    else isFalse (by rintro e; injection e; simp_all)

def decEqList : (as bs : List Member) → Decidable (as = bs)
  | [], [] => isTrue rfl
  | [], _ :: _ | _ :: _, [] => isFalse nofun
  | a :: as, b :: bs =>
    match decEq a b with
    | isTrue h =>
      match decEqList as bs with
      | isTrue h' => isTrue (by rw [h, h'])
      | isFalse h' => isFalse (by simp [h'])
    | isFalse h => isFalse (by simp [h])

end

instance : DecidableEq Member := decEq

instance : DecidableEq TypeDecl := decEqType

def type? : Member → Option TypeDecl
  | type d => some d
  | leaf _ => none

def property? : Member → Option Decl.Property
  | leaf (.property d) => some d
  | _ => none

def method? : Member → Option Decl.Method
  | leaf (.method d) => some d
  | _ => none

end Member

end ActorLinks
