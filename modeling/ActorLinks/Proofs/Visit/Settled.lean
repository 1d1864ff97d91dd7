import ActorLinks.Proofs.Compilation.Supertypes
import ActorLinks.Proofs.Failure
import ActorLinks.Proofs.Visit.Frame

/-! # Settled graphs

A graph is settled if a visit of any node with a state makes this state again. Where no name is
above itself, an actor is visited after its base, so that what is read for a node is there
before the node, and nothing that comes later changes it.
-/
namespace ActorLinks.LinkGraph

/-- Every state is what a visit of its node makes of the states there are, and all those that
such a visit reads are there. -/
def Settled (g : LinkGraph) : Prop :=
  ∀ {i : NodeId} {s : NodeState}, g.state? i = some s →
    g.visitNode i = .ok s ∧ ∀ r ∈ g.reads i, (g.state? r).isSome

section
variable {g : LinkGraph} {i : NodeId} {s : NodeState}

theorem name_of_visitNode {a : ActorState} (hv : g.visitNode i = .ok s)
    (ha : s.detail = .actor a) : a.relationshipName = g.derivedRelationshipName i := by
  obtain ⟨detail, hdetail, rfl⟩ := Failure.map_eq_ok_iff.mp hv
  cases ha
  unfold visitAs at hdetail
  split at hdetail
  · cases hdetail
    rfl
  · cases hdetail
  all_goals
    obtain ⟨_, _, hne⟩ := Failure.map_eq_ok_iff.mp hdetail
    cases hne

theorem relationshipName_eq_derived
    (h : ∀ n t a, g.state? n = some t → t.detail = .actor a →
      a.relationshipName = g.derivedRelationshipName n) (n : NodeId) :
    g.relationshipName n = g.derivedRelationshipName n := by
  rw [relationshipName]
  cases ha : g.actorState? n with
  | none => rfl
  | some a =>
    unfold actorState? at ha
    split at ha
    · next b hdetail =>
      cases ha
      obtain ⟨t, ht, hb⟩ := Option.map_eq_some_iff.mp hdetail
      exact h n t a ht hb
    · cases ha

section
variable (h : g.Settled) (hi : i < g.states.size) (hv : g.visitNode i = .ok s)
include h hi hv

/-- A state that is there already is only stored again. -/
theorem Settled.state?_kept {r : NodeId} (hr : (g.state? r).isSome) :
    (g.withState i s).state? r = g.state? r := by
  rw [state?_withState hi]
  split
  · next hri =>
    subst hri
    obtain ⟨t, ht⟩ := Option.isSome_iff_exists.mp hr
    rw [ht, ← Except.ok.inj ((h ht).1.symm.trans hv)]
  · rfl

theorem Settled.relationshipName_kept (n : NodeId) :
    (g.withState i s).relationshipName n = g.relationshipName n := by
  have hold := relationshipName_eq_derived (g := g) fun n t a ht ha =>
    name_of_visitNode (h ht).1 ha
  refine (relationshipName_eq_derived (fun n t a ht ha => ?_) n).trans (hold n).symm
  rw [state?_withState hi] at ht
  split at ht
  · next hni =>
    cases ht
    subst hni
    exact name_of_visitNode (g := g) hv ha
  · exact name_of_visitNode (g := g) (h ht).1 ha

theorem Settled.withState (hreads : ∀ r ∈ g.reads i, (g.state? r).isSome) :
    (g.withState i s).Settled := by
  have hframe {j : NodeId} (hj : ∀ r ∈ g.reads j, (g.state? r).isSome) :
      (g.withState i s).visitNode j = g.visitNode j ∧
        ∀ r ∈ g.reads j, ((g.withState i s).state? r).isSome := by
    have hkept := fun r hr => h.state?_kept hi hv (hj r hr)
    refine ⟨visitNode_withStates (h.relationshipName_kept hi hv) hkept, fun r hr => ?_⟩
    rw [hkept r hr]
    exact hj r hr
  intro j t ht
  rw [state?_withState hi] at ht
  split at ht
  · next hji =>
    cases ht
    subst hji
    obtain ⟨hsame, hthere⟩ := hframe hreads
    exact ⟨hsame.trans hv, hthere⟩
  · obtain ⟨hvisit, hreads'⟩ := h ht
    obtain ⟨hsame, hthere⟩ := hframe hreads'
    exact ⟨hsame.trans hvisit, hthere⟩

end

end

theorem settled_preserved (top : LinkGraph) : Preserved top top.reads Settled := by
  intro g done i s hprogress hi hreads hv h
  refine h.withState (hprogress.size_eq ▸ hi) hv fun r hr => hprogress.isSome r (hreads ?_)
  rw [hprogress.same] at hr
  exact hr

section
variable {c : Compilation} {sch : Schematic} {targets : List Target} {g : LinkGraph}

theorem Grounded.actorSymbol?_of_actor (h : Grounded c sch targets g) {name : String} {i : NodeId}
    (hi : g.actor? name = some i) :
    g.actorSymbol? i = some (LinkTree.actorSymbol c (g.target i)) := by
  have hk := (h.root_of_actor hi).2.kind_eq
  have hk' : g.arena.kind i = .actor (LinkTree.actorSymbol c (g.target i)) := hk
  have hactor : (g.arena.kind i).isActor = true := by
    rw [hk']
    rfl
  rw [actorSymbol?, actorRoot?, if_pos hactor, Option.bind_some, hk']

/-- The base of an actor has fewer supertypes. -/
theorem Grounded.supertypeCount_lt (h : Grounded c sch targets g) (hc : c.Acyclic)
    {name : String} {i b : NodeId} (hi : g.actor? name = some i) (hb : g.baseTarget? i = some b) :
    b ∈ g.visitOrder ∧ g.supertypeCount b < g.supertypeCount i := by
  unfold baseTarget? at hb
  rw [h.actorSymbol?_of_actor hi, h.compilation_eq] at hb
  obtain ⟨base, hbase, hactor⟩ := List.exists_of_findSome?_eq_some hb
  refine ⟨mem_visitOrder_iff.mpr ⟨base, hactor⟩, ?_⟩
  have hname := h.target_of_actor hi
  have habove : c.Above name base := by
    unfold LinkTree.actorSymbol at hbase
    rw [hname] at hbase
    cases ht : c.type? name with
    | some t =>
      rw [ht] at hbase
      exact Compilation.above_of_mem_baseChain ht hbase
    | none =>
      rw [ht] at hbase
      simp [Compilation.chain, Compilation.chainAfter] at hbase
  unfold supertypeCount
  rw [hname, h.target_of_actor hactor, h.compilation_eq]
  exact Compilation.size_supertypes_lt hc habove

theorem Grounded.supported_reads (h : Grounded c sch targets g) (hc : c.Acyclic) :
    Supported g.reads [] g.visitList := by
  apply h.supported_visitList
  · intro i p hp r hr
    have hk := h.nested.isActor_of_parent hp
    unfold reads at hr
    rw [hk] at hr
    simpa using hr
  · intro before top after hsplit htop r hr
    obtain ⟨name, hname⟩ := mem_visitOrder_iff.mp htop
    have hbase : g.baseTarget? top = some r := by
      unfold reads at hr
      rw [Arena.parents_of_none (h.orphan_of_mem_visitOrder htop), List.nil_append] at hr
      split at hr
      · exact Option.mem_toList.mp hr
      · cases hr
    obtain ⟨hmem, hlt⟩ := h.supertypeCount_lt hc hname hbase
    have horder := h.pairwise_visitOrder
    rw [hsplit] at hmem horder
    refine List.mem_flatMap.mpr ⟨r, ?_, Arena.self_mem_descendants r⟩
    rcases List.mem_append.mp hmem with hbefore | hafter
    · exact hbefore
    -- a later actor has at least as many supertypes, a base fewer
    · have hle : g.supertypeCount top ≤ g.supertypeCount r := by
        rcases List.mem_cons.mp hafter with rfl | hafter
        · exact Nat.le_refl _
        · exact (List.pairwise_cons.mp (List.pairwise_append.mp horder).2.1).1 r hafter
      exact absurd hlt (Nat.not_lt_of_le hle)

theorem Visits.settled (hc : c.Acyclic) (hv : Visits (ofTargets c sch targets) g) : g.Settled :=
  (hv.preserves_ofTargets (settled_preserved _) (grounded_ofTargets.supported_reads hc)
    (by simp [Settled, state?_ofTargets])).2

theorem withState_of_state? {i : NodeId} {t : NodeState} (h : g.state? i = some t) :
    g.withState i t = g := by
  have hstates : g.states.setIfInBounds i (some t) = g.states := by
    apply Array.ext_getElem?
    intro j
    rw [Array.getElem?_setIfInBounds]
    split
    · next hij =>
      subst hij
      have hi : g.states[i]? = some (some t) := Option.join_eq_some_iff.mp h
      rw [hi, if_pos (Array.getElem?_eq_some_iff.mp hi).1]
    · rfl
  rw [withState, hstates]

/-- To visit a settled graph again changes nothing. -/
theorem visitNodes_of_settled {ids : List NodeId}
    (h : ∀ i ∈ ids, ∃ t, g.state? i = some t ∧ g.visitNode i = .ok t) :
    g.visitNodes ids = (g, none) := by
  induction ids with
  | nil => rfl
  | cons i ids ih =>
    obtain ⟨t, ht, hv⟩ := h i List.mem_cons_self
    rw [visitNodes, hv]
    refine (congrArg (fun g' => visitNodes g' ids) (withState_of_state? ht)).trans ?_
    exact ih fun j hj => h j (List.mem_cons_of_mem _ hj)

/-- Without cycles among the supertypes a successful visit leaves a state at every node, each of
which a visit of the node makes again, and another visit changes nothing. -/
theorem visit_settles {g' : LinkGraph} (hc : c.Acyclic) (hv : Visits (ofTargets c sch targets) g)
    (hvisit : g.visit = (g', none)) :
    (∀ i < g.arena.size, ∃ t, g'.state? i = some t ∧ g'.visitNode i = .ok t) ∧
      g'.visit = (g', none) := by
  have hground : Grounded c sch targets (ofTargets c sch targets) := grounded_ofTargets
  have hsupported := hground.supported_reads hc
  obtain ⟨hprogress, hsettled⟩ := hv.preserves_ofTargets (settled_preserved _) hsupported
    (by simp [Settled, state?_ofTargets])
  obtain ⟨done, hdone, hsettled', hall⟩ := hprogress.visit (settled_preserved _)
    (fun i hi => hground.mem_visitList_iff.mp hi) hsupported hsettled
  rw [hvisit] at hdone hsettled' hall
  replace hdone : Progress (ofTargets c sch targets) done g' := hdone
  have hstates {i : NodeId} (hi : i ∈ (ofTargets c sch targets).visitList) :
      ∃ t, g'.state? i = some t ∧ g'.visitNode i = .ok t := by
    obtain ⟨t, ht⟩ := Option.isSome_iff_exists.mp (hdone.isSome i (hall rfl hi))
    exact ⟨t, ht, (hsettled' ht).1⟩
  constructor
  · intro i hi
    rw [hprogress.arena_eq] at hi
    exact hstates (hground.mem_visitList_iff.mpr hi)
  · exact visitNodes_of_settled fun i hi => hstates (hdone.visitList_eq ▸ hi)

theorem visit_settles_sample :
    (∀ i < sampleGraph.arena.size, ∃ t, sampleGraph.visit.1.state? i = some t ∧
      sampleGraph.visit.1.visitNode i = .ok t) ∧
    sampleGraph.visit.1.visit = (sampleGraph.visit.1, none) := by
  refine visit_settles (c := sampleTypes) (g := sampleGraph) ?_ .refl (Prod.ext rfl ?_)
  · exact Compilation.acyclic_of_shallow (by decide +kernel)
  · show sampleGraph.visit.2 = none
    decide +kernel

end

end ActorLinks.LinkGraph
