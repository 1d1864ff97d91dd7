import ActorLinks.Decl.Member

/-! # Building type declarations

Bases, constraints and members are added one at a time and never twice: several paths of a link
tree contribute the same explicit member, and it must be declared once.
-/
namespace ActorLinks

def appendNew {α : Type} [DecidableEq α] (items : List α) (item : α) : List α :=
  if item ∈ items then items else items ++ [item]

@[simp] theorem mem_appendNew {α : Type} [DecidableEq α] {items : List α} {item x : α} :
    x ∈ appendNew items item ↔ x ∈ items ∨ x = item := by
  unfold appendNew
  split
  · next h =>
    refine ⟨Or.inl, ?_⟩
    rintro (hx | rfl)
    · exact hx
    · exact h
  · simp

/-- Puts `item` at `index`, or last if there are fewer other items; an earlier copy goes. -/
def moveTo {α : Type} [DecidableEq α] (items : List α) (index : Nat) (item : α) : List α :=
  let others := items.filter (· ≠ item)
  others.take index ++ item :: others.drop index

namespace Decl

def Parameter.of (typeName name : String) : Parameter where
  typeName := typeName
  name := name

def Parameter.withDefault (typeName name value : String) : Parameter where
  typeName := typeName
  name := name
  default := some value

end Decl

namespace TypeDecl

def interfaceNamed (name : String) : TypeDecl where
  kind := .interface
  name := name

def classNamed (name : String) : TypeDecl where
  kind := .classType
  name := name

def withModifiers (d : TypeDecl) (ms : List Modifier) : TypeDecl :=
  { d with modifiers := d.modifiers.union (.ofList ms) }

def markNew (d : TypeDecl) (isNew : Bool) : TypeDecl :=
  if isNew then { d with modifiers := d.modifiers.insert .new } else d

/-- An empty base is not added. -/
def addBase (d : TypeDecl) (base : String) : TypeDecl :=
  if base.isEmpty then d else { d with bases := appendNew d.bases base }

def addBases (d : TypeDecl) (bases : List String) : TypeDecl := bases.foldl addBase d

def insertBase (d : TypeDecl) (index : Nat) (base : String) : TypeDecl :=
  { d with bases := moveTo d.bases index base }

def addConstraint (d : TypeDecl) (clause : String) : TypeDecl :=
  { d with constraints := appendNew d.constraints clause }

def addConstraints (d : TypeDecl) (clauses : List String) : TypeDecl :=
  clauses.foldl addConstraint d

def addMember (d : TypeDecl) (m : Member) : TypeDecl :=
  { d with members := appendNew d.members m }

def addMembers (d : TypeDecl) (ms : List Member) : TypeDecl := ms.foldl addMember d

section
variable (d : TypeDecl)

@[simp] theorem bases_markNew (isNew : Bool) : (d.markNew isNew).bases = d.bases := by
  cases isNew <;> rfl

@[simp] theorem members_markNew (isNew : Bool) : (d.markNew isNew).members = d.members := by
  cases isNew <;> rfl

@[simp] theorem name_markNew (isNew : Bool) : (d.markNew isNew).name = d.name := by
  cases isNew <;> rfl

@[simp] theorem kind_markNew (isNew : Bool) : (d.markNew isNew).kind = d.kind := by
  cases isNew <;> rfl

@[simp] theorem mem_modifiers_markNew {isNew : Bool} {m : Modifier} :
    m ∈ (d.markNew isNew).modifiers ↔ m ∈ d.modifiers ∨ isNew = true ∧ m = .new := by
  cases isNew <;> simp [markNew, or_comm]

@[simp] theorem name_addMember (m : Member) : (d.addMember m).name = d.name := rfl

@[simp] theorem kind_addMember (m : Member) : (d.addMember m).kind = d.kind := rfl

@[simp] theorem modifiers_addMember (m : Member) : (d.addMember m).modifiers = d.modifiers := rfl

@[simp] theorem modifiers_addMembers (ms : List Member) :
    (d.addMembers ms).modifiers = d.modifiers := by
  induction ms generalizing d with
  | nil => rfl
  | cons m ms ih => exact ih (d.addMember m)

@[simp] theorem name_addMembers (ms : List Member) : (d.addMembers ms).name = d.name := by
  induction ms generalizing d with
  | nil => rfl
  | cons m ms ih => exact ih (d.addMember m)

@[simp] theorem kind_addMembers (ms : List Member) : (d.addMembers ms).kind = d.kind := by
  induction ms generalizing d with
  | nil => rfl
  | cons m ms ih => exact ih (d.addMember m)

@[simp] theorem name_addConstraint (clause : String) : (d.addConstraint clause).name = d.name := rfl

@[simp] theorem kind_addConstraint (clause : String) : (d.addConstraint clause).kind = d.kind := rfl

@[simp] theorem name_addConstraints (clauses : List String) :
    (d.addConstraints clauses).name = d.name := by
  induction clauses generalizing d with
  | nil => rfl
  | cons clause clauses ih => exact ih (d.addConstraint clause)

@[simp] theorem kind_addConstraints (clauses : List String) :
    (d.addConstraints clauses).kind = d.kind := by
  induction clauses generalizing d with
  | nil => rfl
  | cons clause clauses ih => exact ih (d.addConstraint clause)

@[simp] theorem modifiers_addConstraint (clause : String) :
    (d.addConstraint clause).modifiers = d.modifiers := rfl

@[simp] theorem modifiers_addConstraints (clauses : List String) :
    (d.addConstraints clauses).modifiers = d.modifiers := by
  induction clauses generalizing d with
  | nil => rfl
  | cons clause clauses ih => exact ih (d.addConstraint clause)

@[simp] theorem modifiers_addBase (base : String) :
    (d.addBase base).modifiers = d.modifiers := by
  unfold addBase
  split <;> rfl

@[simp] theorem modifiers_addBases (bases : List String) :
    (d.addBases bases).modifiers = d.modifiers := by
  induction bases generalizing d with
  | nil => rfl
  | cons base bases ih => exact (ih (d.addBase base)).trans (modifiers_addBase d base)

@[simp] theorem name_addBase (base : String) : (d.addBase base).name = d.name := by
  unfold addBase
  split <;> rfl

@[simp] theorem kind_addBase (base : String) : (d.addBase base).kind = d.kind := by
  unfold addBase
  split <;> rfl

@[simp] theorem members_addBase (base : String) : (d.addBase base).members = d.members := by
  unfold addBase
  split <;> rfl

@[simp] theorem name_insertBase (index : Nat) (base : String) :
    (d.insertBase index base).name = d.name := rfl

@[simp] theorem kind_insertBase (index : Nat) (base : String) :
    (d.insertBase index base).kind = d.kind := rfl

@[simp] theorem members_insertBase (index : Nat) (base : String) :
    (d.insertBase index base).members = d.members := rfl

@[simp] theorem name_addBases (bases : List String) : (d.addBases bases).name = d.name := by
  induction bases generalizing d with
  | nil => rfl
  | cons base bases ih => exact (ih (d.addBase base)).trans (name_addBase d base)

@[simp] theorem kind_addBases (bases : List String) : (d.addBases bases).kind = d.kind := by
  induction bases generalizing d with
  | nil => rfl
  | cons base bases ih => exact (ih (d.addBase base)).trans (kind_addBase d base)

@[simp] theorem bases_addMember (m : Member) : (d.addMember m).bases = d.bases := rfl

@[simp] theorem mem_members_addMember {m k : Member} :
    k ∈ (d.addMember m).members ↔ k ∈ d.members ∨ k = m := mem_appendNew

@[simp] theorem bases_addMembers (ms : List Member) : (d.addMembers ms).bases = d.bases := by
  induction ms generalizing d with
  | nil => rfl
  | cons m ms ih => exact ih (d.addMember m)

@[simp] theorem mem_members_addMembers {ms : List Member} {k : Member} :
    k ∈ (d.addMembers ms).members ↔ k ∈ d.members ∨ k ∈ ms := by
  induction ms generalizing d with
  | nil => simp [addMembers]
  | cons m ms ih =>
    have hrest := ih (d.addMember m)
    rw [mem_members_addMember, or_assoc] at hrest
    rw [List.mem_cons]
    exact hrest

@[simp] theorem bases_addConstraint (clause : String) :
    (d.addConstraint clause).bases = d.bases := rfl

@[simp] theorem members_addConstraint (clause : String) :
    (d.addConstraint clause).members = d.members := rfl

@[simp] theorem bases_addConstraints (clauses : List String) :
    (d.addConstraints clauses).bases = d.bases := by
  induction clauses generalizing d with
  | nil => rfl
  | cons clause clauses ih => exact ih (d.addConstraint clause)

@[simp] theorem members_addConstraints (clauses : List String) :
    (d.addConstraints clauses).members = d.members := by
  induction clauses generalizing d with
  | nil => rfl
  | cons clause clauses ih => exact ih (d.addConstraint clause)

theorem mem_bases_addBase {base b : String} :
    b ∈ (d.addBase base).bases ↔ b ∈ d.bases ∨ b = base ∧ b ≠ "" := by
  unfold addBase
  split
  · next hempty =>
    have hbase : base = "" := String.isEmpty_iff.mp hempty
    subst hbase
    simp
  · next hne =>
    have hbase : base ≠ "" := fun h => hne (String.isEmpty_iff.mpr h)
    rw [mem_appendNew]
    refine or_congr_right ⟨fun h => ⟨h, h ▸ hbase⟩, And.left⟩

@[simp] theorem mem_bases_addBases {bases : List String} {b : String} :
    b ∈ (d.addBases bases).bases ↔ b ∈ d.bases ∨ b ∈ bases ∧ b ≠ "" := by
  induction bases generalizing d with
  | nil => simp [addBases]
  | cons base bases ih =>
    have hrest := ih (d.addBase base)
    rw [mem_bases_addBase, or_assoc, ← or_and_right] at hrest
    rw [List.mem_cons]
    exact hrest

@[simp] theorem members_addBases (bases : List String) :
    (d.addBases bases).members = d.members := by
  induction bases generalizing d with
  | nil => rfl
  | cons base bases ih => exact (ih (d.addBase base)).trans (members_addBase d base)

end

/-- The first nested type of that name, whatever its type parameters. -/
def nestedType? (d : TypeDecl) (name : String) : Option TypeDecl :=
  (d.members.filterMap Member.type?).find? fun t => Text.unbound t.name == name

def properties (d : TypeDecl) : List Decl.Property := d.members.filterMap Member.property?

def methods (d : TypeDecl) : List Decl.Method := d.members.filterMap Member.method?

end TypeDecl

end ActorLinks
