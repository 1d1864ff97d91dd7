import ActorLinks.Graph.Basic

/-! # Relationship names

Every actor has a relationship name: its own, a declared one of the nearest ancestor, or the
friendly name. Actors named by the canonical relationships that a core actor inherits are found
by following them from actor to actor; each new name is followed once.
-/
namespace ActorLinks.LinkGraph

/-- The relationship name declared on the actor itself. -/
def userRelationshipName? (g : LinkGraph) (actor : NodeId) : Option String := do
  let symbol ← g.actorSymbol? actor
  let marker ← symbol.attribute? .relationshipName
  let argument ← marker.arguments.head?
  argument.text?

def derivedRelationshipName (g : LinkGraph) (actor : NodeId) : String :=
  match g.userRelationshipName? actor with
  | some name => name
  | none =>
    match (g.ancestors actor).findSome? g.userRelationshipName? with
    | some name => name
    | none =>
      let kind := ((g.actorSymbol? actor).map (·.kind)).getD .classType
      friendlyName (g.target actor).actor kind

/-- The name kept by a visit, else the derived one. -/
def relationshipName (g : LinkGraph) (actor : NodeId) : String :=
  match g.actorState? actor with
  | some s => s.relationshipName
  | none => g.derivedRelationshipName actor

/-- The graph actor whose canonical relationship the interface is. -/
def canonicallyRelated? (g : LinkGraph) (interface : String) : Option NodeId :=
  (Text.stripSuffix? ".CanonicalRelationship" interface).bind g.actorByCore?

def interfacesOf (g : LinkGraph) (actor : NodeId) : List String :=
  match g.actorSymbol? actor with
  | some s => s.interfaces
  | none => []

/-- The actors whose relationship name has not been found yet. -/
def unnamed (g : LinkGraph) (found : Dict (List NodeId)) : Nat :=
  g.roots.countP fun n => g.relationshipName n ∉ found.keys

theorem unnamed_insert_le (g : LinkGraph) (found : Dict (List NodeId)) (name : String)
    (nodes : List NodeId) : g.unnamed (found.insert name nodes) ≤ g.unnamed found := by
  apply List.countP_mono_left
  intro n _ h
  simp only [Dict.mem_keys_insert, decide_eq_true_eq] at h ⊢
  exact fun hn => h (Or.inr hn)

theorem unnamed_insert_lt {g : LinkGraph} {found : Dict (List NodeId)} {n : NodeId}
    (hn : n ∈ g.roots) (hf : g.relationshipName n ∉ found.keys) (nodes : List NodeId) :
    g.unnamed (found.insert (g.relationshipName n) nodes) < g.unnamed found := by
  have hle : g.unnamed (found.insert (g.relationshipName n) nodes)
      = (g.roots.filter fun m => g.relationshipName m ∉ found.keys).countP
          fun m => g.relationshipName m ≠ g.relationshipName n := by
    rw [unnamed, List.countP_filter]
    apply List.countP_congr
    intro m _
    simp [Dict.mem_keys_insert, not_or]
  rw [hle, unnamed, List.countP_eq_length_filter, List.countP_eq_length_filter,
    List.length_filter_lt_length_iff_exists]
  exact ⟨n, List.mem_filter.mpr ⟨hn, by simpa using hf⟩, by simp⟩

theorem mem_roots_of_related {g : LinkGraph} {interface : String} {n : NodeId}
    (h : g.canonicallyRelated? interface = some n) : n ∈ g.roots := by
  obtain ⟨_, _, hn⟩ := Option.bind_eq_some_iff.mp h
  exact List.mem_of_find?_eq_some hn

def addRelated (found : Dict (List NodeId)) (name : String) (n : NodeId) : Dict (List NodeId) :=
  let nodes := (found.get? name).getD []
  if n ∈ nodes then found else found.insert name (nodes ++ [n])

theorem unnamed_addRelated_le (g : LinkGraph) (found : Dict (List NodeId)) (name : String)
    (n : NodeId) : g.unnamed (addRelated found name n) ≤ g.unnamed found := by
  simp only [addRelated]
  split
  · exact Nat.le_refl _
  · exact unnamed_insert_le _ _ _ _

/-- Works through interfaces from the left; those of an actor with a new name come next. -/
def collectRelated (g : LinkGraph) (actor : NodeId) (found : Dict (List NodeId)) :
    List String → Dict (List NodeId)
  | [] => found
  | interface :: rest =>
    match _hrel : g.canonicallyRelated? interface with
    | none => g.collectRelated actor found rest
    | some n =>
      if n = actor then g.collectRelated actor found rest
      else if g.relationshipName n ∈ found.keys then
        g.collectRelated actor (addRelated found (g.relationshipName n) n) rest
      else
        g.collectRelated actor (found.insert (g.relationshipName n) [n])
          (g.interfacesOf n ++ rest)
  termination_by interfaces => (g.unnamed found, interfaces.length)
  decreasing_by
    · exact Prod.Lex.right _ (by simp)
    · exact Prod.Lex.right _ (by simp)
    · rcases Nat.lt_or_eq_of_le (unnamed_addRelated_le g found (g.relationshipName n) n) with h | h
      · exact Prod.Lex.left _ _ h
      · rw [h]; exact Prod.Lex.right _ (by simp)
    · exact Prod.Lex.left _ _ (unnamed_insert_lt (mem_roots_of_related _hrel) ‹_› [n])

/-- The related actors by relationship name, found from the interfaces of the core actor. -/
def additionalRelationships (g : LinkGraph) (actor : NodeId) : Dict (List NodeId) :=
  match g.compilation.type? (g.target actor).coreActor with
  | some core => g.collectRelated actor ∅ core.interfaces
  | none => ∅

end ActorLinks.LinkGraph
