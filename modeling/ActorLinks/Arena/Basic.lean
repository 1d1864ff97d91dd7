import ActorLinks.Schematic
import ActorLinks.Target

/-! # Arenas

The nodes of all link trees stand in one arena and are named by their place in it. A node is
added below an earlier one, so parents have smaller ids than their children; that, and the
agreement of parents with child lists, belongs to the type. An id beyond the arena reads as a
detached back link without children.
-/
namespace ActorLinks

abbrev NodeId := Nat

/-- Link types of every kind are one category. -/
inductive Category where
  | actor
  | linkType
  | extension
  | hierarchy
  | backLink
  deriving DecidableEq, Repr

inductive NodeKind where
  | actor (symbol : TypeSymbol)
  | linkType (kind : LinkKind) (entry : Schematic.Entry)
  | extension (symbol : TypeSymbol)
  | hierarchy (marker : Attribute)
  | backLink

namespace NodeKind

def category : NodeKind → Category
  | actor _ => .actor
  | linkType _ _ => .linkType
  | extension _ => .extension
  | hierarchy _ => .hierarchy
  | backLink => .backLink

def isActor (k : NodeKind) : Bool := k.category == .actor

def isLinkType (k : NodeKind) : Bool := k.category == .linkType

def isBackLink (k : NodeKind) : Bool := k.category == .backLink

def entry? : NodeKind → Option Schematic.Entry
  | linkType _ e => some e
  | _ => none

end NodeKind

structure Node where
  parent : Option NodeId
  children : List NodeId
  target : Target
  kind : NodeKind

namespace Node

def detached : Node := ⟨none, [], default, .backLink⟩

instance : Inhabited Node := ⟨detached⟩

def adopt (n : Node) (child : NodeId) : Node := { n with children := n.children ++ [child] }

end Node

def parentIn (nodes : Array Node) (i : NodeId) : Option NodeId := nodes[i]?.bind Node.parent

def childrenIn (nodes : Array Node) (i : NodeId) : List NodeId :=
  (nodes[i]?.map Node.children).getD []

/-- The nodes with one more, entered in the child list of its parent. -/
def grow (nodes : Array Node) (parent : Option NodeId) (target : Target) (kind : NodeKind) :
    Array Node :=
  (match parent with
    | some p => nodes.modify p fun n => n.adopt nodes.size
    | none => nodes).push ⟨parent, [], target, kind⟩

theorem parentIn_lt_size {nodes : Array Node} {i p : Nat} (h : parentIn nodes i = some p) :
    i < nodes.size := by
  simp only [parentIn, Option.bind_eq_some_iff] at h
  obtain ⟨n, hn, _⟩ := h
  exact (Array.getElem?_eq_some_iff.mp hn).1

theorem childrenIn_eq_nil {nodes : Array Node} {i : NodeId} (h : nodes.size ≤ i) :
    childrenIn nodes i = [] := by
  simp [childrenIn, Array.getElem?_eq_none h]

section
variable {nodes : Array Node} {parent : Option NodeId} {target : Target} {kind : NodeKind}

@[simp] theorem size_grow : (grow nodes parent target kind).size = nodes.size + 1 := by
  cases parent <;> simp [grow]

theorem parentIn_grow (i : NodeId) :
    parentIn (grow nodes parent target kind) i
      = if i = nodes.size then parent else parentIn nodes i := by
  cases parent with
  | none => simp only [grow, parentIn, Array.getElem?_push]; split <;> simp_all
  | some p =>
    simp only [grow, parentIn, Array.getElem?_push, Array.size_modify, Array.getElem?_modify]
    split
    · simp
    · by_cases hp : p = i
      · subst hp
        simp only [ite_true, Option.bind_map]
        congr 1
      · simp [hp]

theorem childrenIn_grow (hp : ∀ p ∈ parent, p < nodes.size) (i : NodeId) :
    childrenIn (grow nodes parent target kind) i
      = if parent = some i then childrenIn nodes i ++ [nodes.size] else childrenIn nodes i := by
  cases parent with
  | none =>
    simp only [grow, childrenIn, Array.getElem?_push]
    split
    · next h => subst h; simp
    · simp
  | some p =>
    have hlt : p < nodes.size := hp p rfl
    simp only [grow, childrenIn, Array.getElem?_push, Array.size_modify, Array.getElem?_modify,
      Option.some.injEq]
    by_cases hi : i = nodes.size
    · subst hi
      have : p ≠ nodes.size := Nat.ne_of_lt hlt
      simp [this]
    · by_cases hpi : p = i
      · subst hpi
        simp [hi, hlt, Node.adopt]
      · simp [hi, hpi]

end

structure Arena where
  nodes : Array Node
  parent_lt : ∀ {i p : Nat}, parentIn nodes i = some p → p < i
  mem_children : ∀ {p c : Nat}, c ∈ childrenIn nodes p ↔ parentIn nodes c = some p
  children_ascending : ∀ p : NodeId, (childrenIn nodes p).Pairwise (· < ·)

namespace Arena

def empty : Arena where
  nodes := #[]
  parent_lt h := by simp [parentIn] at h
  mem_children := by simp [parentIn, childrenIn]
  children_ascending p := by simp [childrenIn]

instance : Inhabited Arena := ⟨empty⟩

section
variable (a : Arena)

def size : Nat := a.nodes.size

def node (id : NodeId) : Node := a.nodes[id]?.getD default

def kind (id : NodeId) : NodeKind := (a.node id).kind

def category (id : NodeId) : Category := (a.kind id).category

def target (id : NodeId) : Target := (a.node id).target

def isCore (id : NodeId) : Bool := (a.target id).isCore

def parent? (id : NodeId) : Option NodeId := parentIn a.nodes id

def children (id : NodeId) : List NodeId := childrenIn a.nodes id

def ids : List NodeId := List.range a.size

variable {a}

theorem mem_children_iff {p c : Nat} : c ∈ a.children p ↔ a.parent? c = some p :=
  a.mem_children

theorem lt_of_parent {i p : Nat} (h : a.parent? i = some p) : p < i := a.parent_lt h

theorem lt_size_of_parent {i p : Nat} (h : a.parent? i = some p) : i < a.size :=
  parentIn_lt_size h

theorem lt_of_mem_children {p c : Nat} (h : c ∈ a.children p) : p < c ∧ c < a.size :=
  ⟨lt_of_parent (mem_children_iff.mp h), lt_size_of_parent (mem_children_iff.mp h)⟩

end

/-- Adds a node at the end; its id is the size before. A parent outside the arena is no parent. -/
def alloc (a : Arena) (parent : Option NodeId) (target : Target) (kind : NodeKind) : Arena :=
  let parent := parent.filter (· < a.size)
  have hp : ∀ p ∈ parent, p < a.nodes.size := fun p h =>
    of_decide_eq_true (Option.filter_eq_some_iff.mp h).2
  { nodes := grow a.nodes parent target kind
    parent_lt := fun {i p} h => by
      rw [parentIn_grow] at h
      split at h
      · next hi => subst hi; exact hp p h
      · exact a.parent_lt h
    mem_children := fun {p c} => by
      rw [childrenIn_grow hp, parentIn_grow]
      by_cases hc : c = a.nodes.size
      · subst hc
        have hno : a.nodes.size ∉ childrenIn a.nodes p := fun h =>
          absurd (parentIn_lt_size (a.mem_children.mp h)) (Nat.lt_irrefl _)
        split <;> simp_all
      · rw [if_neg hc]
        split
        · simp [hc, a.mem_children]
        · exact a.mem_children
    children_ascending := fun p => by
      rw [childrenIn_grow hp]
      split
      · refine List.pairwise_append.mpr ⟨a.children_ascending p, by simp, ?_⟩
        intro c hc d hd
        rw [List.mem_singleton.mp hd]
        exact parentIn_lt_size (a.mem_children.mp hc)
      · exact a.children_ascending p }

@[simp] theorem size_alloc (a : Arena) (parent : Option NodeId) (target : Target)
    (kind : NodeKind) : (a.alloc parent target kind).size = a.size + 1 := by
  simp [alloc, size]

/-- The chain of parents, nearest first. -/
def parents (a : Arena) (id : NodeId) : List NodeId :=
  match _h : a.parent? id with
  | none => []
  | some p => p :: a.parents p
  termination_by id
  decreasing_by exact lt_of_parent _h

theorem parents_of_none {a : Arena} {id : Nat} (h : a.parent? id = none) : a.parents id = [] := by
  rw [parents]; split <;> simp_all

theorem parents_of_some {a : Arena} {id p : Nat} (h : a.parent? id = some p) :
    a.parents id = p :: a.parents p := by
  rw [parents]; split <;> simp_all

/-- The nearest actor strictly above a node. -/
def rootActor? (a : Arena) (id : NodeId) : Option NodeId :=
  (a.parents id).find? fun p => (a.kind p).isActor

/-- Bounds how many nodes a stack still leads to: one node outweighs all later ones together. -/
def weight (size : Nat) : List NodeId → Nat
  | [] => 0
  | id :: stack => 1 <<< (size - id) + weight size stack

theorem weight_foldr_cons (size : Nat) (ids stack : List NodeId) :
    weight size (ids.foldr List.cons stack) = weight size ids + weight size stack := by
  induction ids with
  | nil => rw [List.foldr_nil, weight, Nat.zero_add]
  | cons id ids ih => rw [List.foldr_cons, weight, weight, ih, Nat.add_assoc]

theorem weight_lt {size i : Nat} {ids : List Nat} (hascending : ids.Pairwise (· < ·))
    (hrange : ∀ id ∈ ids, i < id ∧ id < size) : weight size ids < 1 <<< (size - i) := by
  induction ids generalizing i with
  | nil =>
    rw [weight, Nat.one_shiftLeft]
    exact Nat.two_pow_pos _
  | cons id ids ih =>
    obtain ⟨hid, hids⟩ := List.pairwise_cons.mp hascending
    obtain ⟨hlt, hsize⟩ := hrange id List.mem_cons_self
    have hrest := ih hids fun d hd => ⟨hid d hd, (hrange d (List.mem_cons_of_mem id hd)).2⟩
    have hdouble : 2 * 1 <<< (size - id) ≤ 1 <<< (size - i) := by
      rw [← Nat.shiftLeft_succ, Nat.one_shiftLeft, Nat.one_shiftLeft]
      exact Nat.pow_le_pow_right (by decide) (by omega)
    rw [weight]
    omega

/-- Lists the nodes of a stack and all below them, after those that were listed so far, which stand
newest first. The children of the top take its place, pushed from the last one to the first. -/
def listFrom (a : Arena) (listed : List NodeId) : List NodeId → List NodeId
  | [] => listed.reverse
  | id :: stack => a.listFrom (id :: listed) ((a.children id).foldr List.cons stack)
  termination_by stack => weight a.size stack
  decreasing_by
    rw [weight_foldr_cons, weight]
    exact Nat.add_lt_add_right
      (weight_lt (a.children_ascending id) fun _ => lt_of_mem_children) _

/-- A node and everything below it, each parent before its children. -/
def descendants (a : Arena) (id : NodeId) : List NodeId := a.listFrom [] [id]

theorem listFrom_cons (a : Arena) (listed : List NodeId) (id : NodeId) (stack : List NodeId) :
    a.listFrom listed (id :: stack) = a.listFrom (id :: listed) (a.children id ++ stack) := by
  rw [listFrom, List.foldr_cons_eq_append']

/-- What was listed before stays in front. -/
theorem listFrom_after (a : Arena) (newer older stack : List NodeId) :
    a.listFrom (newer ++ older) stack = older.reverse ++ a.listFrom newer stack := by
  fun_induction listFrom a newer stack with
  | case1 newer => rw [listFrom, List.reverse_append]
  | case2 newer id stack ih => rw [listFrom, ← List.cons_append, ih]

/-- A stack is worked off from the top, so what lies under is left alone until then. -/
theorem listFrom_append (a : Arena) (listed above under : List NodeId) :
    a.listFrom listed (above ++ under) = a.listFrom (a.listFrom listed above).reverse under := by
  fun_induction listFrom a listed above with
  | case1 listed => rw [List.nil_append, List.reverse_reverse]
  | case2 listed id stack ih =>
    rw [← ih, List.cons_append, listFrom_cons, List.foldr_cons_eq_append', List.append_assoc]

/-- Each node of a stack is followed by everything below it. -/
theorem listFrom_eq (a : Arena) (listed stack : List NodeId) :
    a.listFrom listed stack = listed.reverse ++ stack.flatMap a.descendants := by
  induction stack generalizing listed with
  | nil => rw [listFrom, List.flatMap_nil, List.append_nil]
  | cons id stack ih =>
    have hfirst : a.listFrom listed [id] = listed.reverse ++ a.descendants id :=
      a.listFrom_after [] listed [id]
    rw [← List.singleton_append, listFrom_append, ih, List.reverse_reverse, hfirst,
      List.append_assoc, List.singleton_append, List.flatMap_cons]

theorem descendants_eq (a : Arena) (id : NodeId) :
    a.descendants id = id :: (a.children id).flatMap a.descendants := by
  rw [descendants, listFrom_cons, List.append_nil, listFrom_eq]
  rfl

def childOf? (a : Arena) (id : NodeId) (category : Category) : Option NodeId :=
  (a.children id).find? fun c => a.category c == category

def backLinkOf? (a : Arena) (id : NodeId) : Option NodeId := a.childOf? id .backLink

end Arena

end ActorLinks
