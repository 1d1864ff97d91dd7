import ActorLinks.Proofs.Visit.Complete
import ActorLinks.Proofs.Visit.Settled

/-! # What the stored states record

A state stays as it was made, while states are added around it. Names of relationships do not
depend on states, so what an actor records about related actors holds in the visited graph too,
and so does what a node records about its ancestors.
-/
namespace ActorLinks.LinkGraph

/-- Every state was made by a visit of its node, in a graph that may have had other states. -/
def Recorded (g : LinkGraph) : Prop :=
  ∀ (i : NodeId) (v : NodeState), g.state? i = some v →
    ∃ states, (∀ n, (g.withStates states).relationshipName n = g.derivedRelationshipName n) ∧
      (g.withStates states).visitNode i = .ok v

/-- The node has the state of an actor with these ancestors. -/
def ActorAt (g : LinkGraph) (i : NodeId) (s : ActorState) (ancestors : List NodeId) : Prop :=
  ∃ v, g.state? i = some v ∧ v.detail = .actor s ∧ v.ancestors = ancestors

section
variable {g : LinkGraph} {i : NodeId} {v : NodeState}

theorem actorState?_eq_some {s : ActorState} :
    g.actorState? i = some s ↔ ∃ v, g.state? i = some v ∧ v.detail = .actor s := by
  rw [← Option.map_eq_some_iff, actorState?, detail?]
  cases (g.state? i).map (·.detail) with
  | none => simp
  | some d => cases d <;> simp

theorem ActorAt.actorState?_eq {s : ActorState} {ancestors : List NodeId}
    (h : g.ActorAt i s ancestors) : g.actorState? i = some s := by
  obtain ⟨v, hv, hdetail, _⟩ := h
  exact actorState?_eq_some.mpr ⟨v, hv, hdetail⟩

theorem linkTypeState?_eq_some {s : LinkTypeState} :
    g.linkTypeState? i = some s ↔ ∃ v, g.state? i = some v ∧ v.detail = .linkType s := by
  rw [← Option.map_eq_some_iff, linkTypeState?, detail?]
  cases (g.state? i).map (·.detail) with
  | none => simp
  | some d => cases d <;> simp

theorem extensionState?_eq_some {s : ExtensionState} :
    g.extensionState? i = some s ↔ ∃ v, g.state? i = some v ∧ v.detail = .extension s := by
  rw [← Option.map_eq_some_iff, extensionState?, detail?]
  cases (g.state? i).map (·.detail) with
  | none => simp
  | some d => cases d <;> simp

theorem hierarchyState?_eq_some {s : HierarchyState} :
    g.hierarchyState? i = some s ↔ ∃ v, g.state? i = some v ∧ v.detail = .hierarchy s := by
  rw [← Option.map_eq_some_iff, hierarchyState?, detail?]
  cases (g.state? i).map (·.detail) with
  | none => simp
  | some d => cases d <;> simp

theorem backLinkState?_eq_some {s : BackLinkState} :
    g.backLinkState? i = some s ↔ ∃ v, g.state? i = some v ∧ v.detail = .backLink s := by
  rw [← Option.map_eq_some_iff, backLinkState?, detail?]
  cases (g.state? i).map (·.detail) with
  | none => simp
  | some d => cases d <;> simp

theorem visitAs_of_visitNode (hv : g.visitNode i = .ok v) :
    v.ancestors = g.ancestorsOfRoot i ∧ g.visitAs v.detail.category i = .ok v.detail := by
  obtain ⟨detail, hdetail, rfl⟩ := Failure.map_eq_ok_iff.mp hv
  refine ⟨rfl, ?_⟩
  rw [← category_of_visitAs hdetail] at hdetail
  exact hdetail

theorem actor_of_visitNode {s : ActorState} (hv : g.visitNode i = .ok v)
    (hs : v.detail = .actor s) : s = g.visitActor i v.ancestors := by
  obtain ⟨hancestors, hvisit⟩ := visitAs_of_visitNode hv
  rw [hs] at hvisit
  cases hvisit
  rw [hancestors]

theorem linkType_of_visitNode {s : LinkTypeState} (hv : g.visitNode i = .ok v)
    (hs : v.detail = .linkType s) : s = g.visitLinkType i v.ancestors := by
  obtain ⟨hancestors, hvisit⟩ := visitAs_of_visitNode hv
  rw [hs] at hvisit
  cases hvisit
  rw [hancestors]

theorem extension_of_visitNode {s : ExtensionState} (hv : g.visitNode i = .ok v)
    (hs : v.detail = .extension s) : g.visitExtension i = .ok s := by
  obtain ⟨_, hvisit⟩ := visitAs_of_visitNode hv
  rw [hs] at hvisit
  obtain ⟨_, hstate, heq⟩ := Failure.map_eq_ok_iff.mp hvisit
  cases heq
  exact hstate

theorem hierarchy_of_visitNode {s : HierarchyState} (hv : g.visitNode i = .ok v)
    (hs : v.detail = .hierarchy s) : g.visitHierarchy i = .ok s := by
  obtain ⟨_, hvisit⟩ := visitAs_of_visitNode hv
  rw [hs] at hvisit
  obtain ⟨_, hstate, heq⟩ := Failure.map_eq_ok_iff.mp hvisit
  cases heq
  exact hstate

end

namespace Recorded
variable {g : LinkGraph} (h : g.Recorded) {i : NodeId} {v : NodeState}
include h

theorem relationshipName_eq (n : NodeId) : g.relationshipName n = g.derivedRelationshipName n :=
  relationshipName_eq_derived (fun m t a ht ha => by
    obtain ⟨states, _, hv⟩ := h _ _ ht
    exact name_of_visitNode (g := g.withStates states) hv ha) n

theorem withState (hi : i < g.states.size) (hv : g.visitNode i = .ok v) :
    (g.withState i v).Recorded := by
  intro j t ht
  rw [state?_withState hi] at ht
  split at ht
  · next hj =>
    cases ht
    subst hj
    exact ⟨g.states, h.relationshipName_eq, hv⟩
  · exact h j t ht

end Recorded

theorem recorded_preserved (top : LinkGraph) :
    Preserved top (fun i => (top.arena.parent? i).toList) Recorded :=
  fun hprogress hi _ hv h => h.withState (hprogress.size_eq ▸ hi) hv

theorem Visits.recorded {c : Compilation} {s : Schematic} {targets : List Target} {g : LinkGraph}
    (hv : Visits (ofTargets c s targets) g) : g.Recorded :=
  (hv.preserves_ofTargets (recorded_preserved _) grounded_ofTargets.supported_parent
    (by simp [Recorded, state?_ofTargets])).2

namespace Recorded
variable {g : LinkGraph} (h : g.Recorded) {i : NodeId} {v : NodeState}
include h

theorem ancestors_eq (hi : g.state? i = some v) : v.ancestors = g.ancestorsOfRoot i := by
  obtain ⟨states, _, hv⟩ := h i v hi
  exact (visitAs_of_visitNode (g := g.withStates states) hv).1

/-- What the state of an actor records holds in the graph as it is now. -/
theorem actorAt_eq {s : ActorState} {ancestors : List NodeId} (hi : g.ActorAt i s ancestors) :
    ancestors = g.ancestorsOfRoot i ∧
      s.redefinesRootMembers = (!(g.target i).isCore || !ancestors.isEmpty) ∧
      s.additionalRelationships = g.additionalRelationships i := by
  obtain ⟨v, hv, hdetail, rfl⟩ := hi
  refine ⟨h.ancestors_eq hv, ?_⟩
  obtain ⟨states, hnames, hvisit⟩ := h i v hv
  rw [actor_of_visitNode hvisit hdetail]
  exact ⟨rfl, additionalRelationships_withStates
    (fun n => (hnames n).trans (h.relationshipName_eq n).symm) i⟩

/-- The properties of an extension are those of its symbol. -/
theorem exists_extensionSymbol {s : ExtensionState} (hs : g.extensionState? i = some s) :
    ∃ symbol, g.extensionSymbol? i = some symbol ∧
      s.properties = symbol.properties.map (g.classify i) := by
  obtain ⟨v, hv, hdetail⟩ := extensionState?_eq_some.mp hs
  obtain ⟨states, _, hvisit⟩ := h i v hv
  have hstate := extension_of_visitNode hvisit hdetail
  unfold visitExtension at hstate
  split at hstate
  · cases hstate
  · next symbol hsymbol =>
    cases hstate
    exact ⟨symbol, hsymbol, rfl⟩

/-- An actor redefines its relationship where a related actor or an ancestor has its name. -/
theorem redefined_eq {s : ActorState} {ancestors : List NodeId} (hi : g.ActorAt i s ancestors) :
    s.relationshipName = g.derivedRelationshipName i ∧
    s.canonicalRelationshipRedefined =
      ((g.additionalRelationships i).contains (g.derivedRelationshipName i) ||
        ancestors.any fun a => g.derivedRelationshipName a == g.derivedRelationshipName i) := by
  obtain ⟨v, hv, hdetail, rfl⟩ := hi
  obtain ⟨states, hnames, hvisit⟩ := h i v hv
  have hrelated := additionalRelationships_withStates
    (fun n => (hnames n).trans (h.relationshipName_eq n).symm) i
  rw [actor_of_visitNode hvisit hdetail, ← hrelated]
  refine ⟨rfl, ?_⟩
  simp only [visitActor, hnames]
  rfl

theorem redefinesLinkMembers_eq {s : LinkTypeState} (hi : g.state? i = some v)
    (hs : g.linkTypeState? i = some s) :
    s.redefinesLinkMembers = (!(g.target i).isCore || !v.ancestors.isEmpty) := by
  obtain ⟨w, hw, hdetail⟩ := linkTypeState?_eq_some.mp hs
  obtain rfl := Option.some.inj (hi.symm.trans hw)
  obtain ⟨states, _, hv⟩ := h i v hi
  rw [linkType_of_visitNode hv hdetail]
  rfl

theorem shouldDeclareNew_eq {s : LinkTypeState} (hi : g.state? i = some v)
    (hs : v.detail = .linkType s) : s.shouldDeclareNew = g.redeclares i v.ancestors := by
  obtain ⟨states, _, hv⟩ := h i v hi
  rw [linkType_of_visitNode hv hs]
  rfl

end Recorded

end ActorLinks.LinkGraph
