import ActorLinks.Arena.Path

/-! # Semantic composition

The nodes of one actor tree that a node behaves as: every order-preserving choice from its
ancestors that is again a path in the tree. The search groups the ancestors by category; link
types and extensions may be chosen one by one, any other group is taken whole.
-/
namespace ActorLinks

/-- The items at the positions that are set in `mask`. -/
def selectBits {α : Type} (mask : Nat) : List α → List α
  | [] => []
  | x :: xs => if mask % 2 = 1 then x :: selectBits (mask / 2) xs else selectBits (mask / 2) xs

/-- Every non-empty choice of items, in the order of the masks that choose them; on request
without the last, which takes them all. -/
def choices {α : Type} (items : List α) (dropLast : Bool) : List (List α) :=
  if items.isEmpty then []
  else (List.range (1 <<< items.length - if dropLast then 2 else 1)).map fun i =>
    selectBits (i + 1) items

namespace Arena
variable (a : Arena)

/-- Link types agree by their schematic symbol; other nodes by category, by whether they are
implemented, and by type name. -/
def semanticEq (m n : NodeId) : Bool :=
  m == n || match a.kind m, a.kind n with
    | .linkType _ e, .linkType _ f => e.symbol == f.symbol
    | k, l => k.category == l.category && a.isImplemented m == a.isImplemented n
        && a.typeName m == a.typeName n

def step? (start segment : NodeId) : Option NodeId :=
  (a.children start).find? fun c => a.semanticEq c segment

/-- Follows the segments down, each to the first child that agrees with it. -/
def walk? (start : NodeId) : List NodeId → Option NodeId
  | [] => some start
  | segment :: rest => (a.step? start segment).bind fun n => walk? n rest

/-- A node and its parents up to the nearest actor or back link, nearest first. -/
def searchChain (id : NodeId) : List NodeId :=
  id :: (a.parents id).takeWhile fun p => a.category p != .actor && a.category p != .backLink

/-- Neighbours of one category, root group first and each group from the root down. -/
def searchGroups (id : NodeId) : List (List NodeId) :=
  (a.searchChain id).reverse.splitBy fun m n => a.category m == a.category n

def expandGroup (group : List NodeId) : List (List NodeId) :=
  match group.getLast?.map a.category with
  | some .linkType | some .extension => choices group false
  | _ => [group]

def searchProduct (id : NodeId) : List (List (List NodeId)) :=
  (a.searchGroups id).map a.expandGroup

/-- The nodes reached from a frontier through any sequence of a group. -/
def advance (keep : NodeId → Bool) (group : List (List NodeId)) (frontier : SortedSet NodeId) :
    SortedSet NodeId :=
  SortedSet.ofList (frontier.toList.flatMap fun start =>
    (group.filterMap (a.walk? start)).filter keep)

/-- One group after the other, passing over those whose bit in `mask` is not set. -/
def sweep (keep : NodeId → Bool) (mask : Nat) :
    List (List (List NodeId)) → SortedSet NodeId → SortedSet NodeId
  | [], frontier => frontier
  | group :: groups, frontier =>
    if mask % 2 = 1 then sweep keep (mask / 2) groups (a.advance keep group frontier)
    else sweep keep (mask / 2) groups frontier

def composition (id : NodeId) (excludeSelf : Bool) (exclude : Option (SortedSet NodeId)) :
    SortedSet NodeId :=
  match a.rootActor? id with
  | none => ∅
  | some root =>
    let groups := a.searchProduct id
    let keep n := !(exclude.any fun x => n ∈ x) && !(excludeSelf && n == id)
    SortedSet.ofList ((List.range (1 <<< groups.length - 1)).flatMap fun i =>
      (a.sweep keep (i + 1) groups (SortedSet.ofList [root])).toList)

/-- The node at the same place below `target` as `id` is below its root. -/
def equivalent? (id target : NodeId) : Option NodeId :=
  a.walk? target (((a.parents id).reverse ++ [id]).drop 1)

end Arena

end ActorLinks
