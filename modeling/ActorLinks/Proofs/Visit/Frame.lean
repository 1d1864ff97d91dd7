import ActorLinks.Proofs.Visit.Run

/-! # What the state of a node depends on

The state of a node depends on the states of its parents and, at an actor, on that of the base
actor. Of other actors only the relationship name is taken, which is the same with or without a
state.
-/
namespace ActorLinks.LinkGraph

/-- The nodes whose states are read to make that of a node. -/
def reads (g : LinkGraph) (i : NodeId) : List NodeId :=
  g.arena.parents i ++ if (g.arena.kind i).isActor then (g.baseTarget? i).toList else []

section
variable {g : LinkGraph} {states : Array (Option NodeState)}

theorem detail?_withStates {n : NodeId} (h : (g.withStates states).state? n = g.state? n) :
    (g.withStates states).detail? n = g.detail? n := by rw [detail?, detail?, h]

theorem actorState?_withStates {n : NodeId} (h : (g.withStates states).state? n = g.state? n) :
    (g.withStates states).actorState? n = g.actorState? n := by
  rw [actorState?, actorState?, detail?_withStates h]

theorem collectRelated_of_none {actor : NodeId} {found : Dict (List NodeId)} {interface : String}
    {rest : List String} (h : g.canonicallyRelated? interface = none) :
    g.collectRelated actor found (interface :: rest) = g.collectRelated actor found rest := by
  rw [collectRelated]
  split
  · rfl
  · next n hn =>
    rw [h] at hn
    cases hn

theorem collectRelated_of_some {actor n : NodeId} {found : Dict (List NodeId)} {interface : String}
    {rest : List String} (h : g.canonicallyRelated? interface = some n) :
    g.collectRelated actor found (interface :: rest) =
      if n = actor then g.collectRelated actor found rest
      else if g.relationshipName n ∈ found.keys then
        g.collectRelated actor (addRelated found (g.relationshipName n) n) rest
      else
        g.collectRelated actor (found.insert (g.relationshipName n) [n])
          (g.interfacesOf n ++ rest) := by
  rw [collectRelated]
  split
  · next hn =>
    rw [h] at hn
    cases hn
  · next m hm =>
    rw [h] at hm
    cases hm
    rfl

theorem collectRelated_withStates
    (hnames : ∀ n, (g.withStates states).relationshipName n = g.relationshipName n)
    (actor : NodeId) (found : Dict (List NodeId)) (interfaces : List String) :
    (g.withStates states).collectRelated actor found interfaces
      = g.collectRelated actor found interfaces := by
  have hrelated (interface : String) :
      (g.withStates states).canonicallyRelated? interface = g.canonicallyRelated? interface := rfl
  have hinterfaces (n : NodeId) : (g.withStates states).interfacesOf n = g.interfacesOf n := rfl
  fun_induction g.collectRelated actor found interfaces with
  | case1 found => rw [collectRelated]
  | case2 found interface rest hrel ih =>
    rw [collectRelated_of_none ((hrelated interface).trans hrel), ih]
  | case3 found interface rest hrel ih =>
    rw [collectRelated_of_some ((hrelated interface).trans hrel), if_pos rfl, ih]
  | case4 found interface rest n hrel hne hmem ih =>
    rw [collectRelated_of_some ((hrelated interface).trans hrel), hnames, if_neg hne, if_pos hmem,
      ih]
  | case5 found interface rest n hrel hne hmem ih =>
    rw [collectRelated_of_some ((hrelated interface).trans hrel), hnames, hinterfaces,
      if_neg hne, if_neg hmem, ih]

theorem additionalRelationships_withStates
    (hnames : ∀ n, (g.withStates states).relationshipName n = g.relationshipName n)
    (actor : NodeId) :
    (g.withStates states).additionalRelationships actor = g.additionalRelationships actor := by
  have hcollect := collectRelated_withStates hnames actor
  simp only [additionalRelationships, hcollect]
  rfl

theorem parentConstructors_withStates {i : NodeId}
    (h : ∀ r ∈ g.arena.parents i, (g.withStates states).state? r = g.state? r) :
    (g.withStates states).parentConstructors i = g.parentConstructors i := by
  have hbind : (g.arena.implementedParent? i).bind (g.withStates states).detail?
      = (g.arena.implementedParent? i).bind g.detail? :=
    Option.bind_congr fun m hm => detail?_withStates (h m (List.mem_of_find?_eq_some hm))
  rw [parentConstructors, arena_withStates, hbind]
  rfl

theorem rootActorState?_withStates {i : NodeId}
    (h : ∀ r ∈ g.arena.parents i, (g.withStates states).state? r = g.state? r) :
    (g.withStates states).rootActorState? i = g.rootActorState? i :=
  Option.bind_congr fun m hm => actorState?_withStates (h m (List.mem_of_find?_eq_some hm))

theorem parentComposition_withStates {i : NodeId}
    (h : ∀ r ∈ g.arena.parents i, (g.withStates states).state? r = g.state? r) :
    (g.withStates states).parentComposition i = g.parentComposition i := by
  rw [parentComposition, parentComposition, arena_withStates]
  cases hp : g.arena.parent? i with
  | none => rfl
  | some p =>
    have hstate := h p (Arena.mem_parents_of_parent hp)
    rw [Option.bind_some, Option.bind_some, hstate]

theorem hasBackLinkMirror_withStates {n : NodeId}
    (h : (g.withStates states).state? n = g.state? n) :
    (g.withStates states).hasBackLinkMirror n = g.hasBackLinkMirror n := by
  rw [hasBackLinkMirror, hasBackLinkMirror, extensionState?, extensionState?, detail?_withStates h]

theorem baseConstructors_withStates {base : Option NodeId}
    (h : ∀ n ∈ base, (g.withStates states).state? n = g.state? n) :
    (g.withStates states).baseConstructors base = g.baseConstructors base := by
  have hbind : base.bind (g.withStates states).actorState? = base.bind g.actorState? :=
    Option.bind_congr fun n hn => actorState?_withStates (h n hn)
  rw [baseConstructors, baseConstructors, hbind]

theorem visitActor_withStates
    (hnames : ∀ n, (g.withStates states).relationshipName n = g.relationshipName n) {i : NodeId}
    (h : ∀ n ∈ g.baseTarget? i, (g.withStates states).state? n = g.state? n)
    (ancestors : List NodeId) :
    (g.withStates states).visitActor i ancestors = g.visitActor i ancestors := by
  have hrelated := additionalRelationships_withStates hnames i
  have hbase : (g.withStates states).baseConstructors ((g.withStates states).baseTarget? i)
      = g.baseConstructors (g.baseTarget? i) := baseConstructors_withStates h
  simp only [visitActor, hrelated, hbase, hnames]
  rfl

theorem visitLinkType_withStates {i : NodeId}
    (h : ∀ r ∈ g.arena.parents i, (g.withStates states).state? r = g.state? r)
    (ancestors : List NodeId) :
    (g.withStates states).visitLinkType i ancestors = g.visitLinkType i ancestors := by
  have hroot := rootActorState?_withStates h
  unfold visitLinkType implementationBase? rootConstructors
  rw [hroot]
  rfl

theorem visitExtension_withStates {i : NodeId}
    (h : ∀ r ∈ g.arena.parents i, (g.withStates states).state? r = g.state? r) :
    (g.withStates states).visitExtension i = g.visitExtension i := by
  have hparent := parentConstructors_withStates h
  unfold visitExtension
  rw [hparent]
  rfl

theorem listedMembers_withStates (t : Target) (cs : List Constant) :
    (g.withStates states).listedMembers t cs = g.listedMembers t cs := by
  induction cs with
  | nil => rfl
  | cons c cs ih =>
    rw [listedMembers, listedMembers, ih]
    rfl

theorem hierarchyMembers_withStates (i : NodeId) :
    (g.withStates states).hierarchyMembers i = g.hierarchyMembers i := by
  unfold hierarchyMembers membersOf
  simp only [listedMembers_withStates]
  rfl

theorem visitHierarchy_withStates {i : NodeId}
    (h : ∀ r ∈ g.arena.parents i, (g.withStates states).state? r = g.state? r) :
    (g.withStates states).visitHierarchy i = g.visitHierarchy i := by
  have hparent := parentConstructors_withStates h
  unfold visitHierarchy
  rw [hparent, hierarchyMembers_withStates]
  rfl

theorem visitBackLink_withStates {i : NodeId}
    (h : ∀ r ∈ g.arena.parents i, (g.withStates states).state? r = g.state? r) :
    (g.withStates states).visitBackLink i = g.visitBackLink i := by
  have hparent := parentConstructors_withStates h
  have hmirror : ∀ p ∈ g.arena.parent? i,
      (g.withStates states).hasBackLinkMirror p = g.hasBackLinkMirror p := fun p hp =>
    hasBackLinkMirror_withStates (h p (Arena.mem_parents_of_parent hp))
  unfold visitBackLink backLinkParent
  rw [hparent, arena_withStates]
  cases hp : g.arena.parent? i with
  | none => rfl
  | some p =>
    simp only [Except.map, hmirror p hp]

theorem visitNode_withStates {i : NodeId}
    (hnames : ∀ n, (g.withStates states).relationshipName n = g.relationshipName n)
    (hreads : ∀ r ∈ g.reads i, (g.withStates states).state? r = g.state? r) :
    (g.withStates states).visitNode i = g.visitNode i := by
  have hparents : ∀ r ∈ g.arena.parents i, (g.withStates states).state? r = g.state? r :=
    fun r hr => hreads r (List.mem_append_left _ hr)
  have hdetail : (g.withStates states).visitAs (g.arena.category i) i
      = g.visitAs (g.arena.category i) i := by
    have hancestors : (g.withStates states).ancestorsOfRoot i = g.ancestorsOfRoot i := rfl
    unfold visitAs
    rw [hancestors]
    cases hk : g.arena.category i with
    | actor =>
      have hbase : ∀ n ∈ g.baseTarget? i, (g.withStates states).state? n = g.state? n := by
        intro n hn
        have hactor : (g.arena.kind i).isActor = true := beq_iff_eq.mpr hk
        refine hreads n (List.mem_append_right _ ?_)
        rw [if_pos hactor]
        exact Option.mem_toList.mpr hn
      simp only [visitActor_withStates hnames hbase]
    | linkType => simp only [visitLinkType_withStates hparents]
    | extension => simp only [visitExtension_withStates hparents]
    | hierarchy => simp only [visitHierarchy_withStates hparents]
    | backLink => simp only [visitBackLink_withStates hparents]
  unfold visitNode
  rw [arena_withStates, hdetail, parentComposition_withStates hparents]
  rfl

end

end ActorLinks.LinkGraph
