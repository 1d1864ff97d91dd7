import ActorLinks.Proofs.Visit.Failure

/-! # Complete graphs

Each state is one for the category of its node, and nodes with a complaint stay without one. So
a graph without complaints is complete after a visit, and a graph with a complaint never is.
-/
namespace ActorLinks

def NodeDetail.category : NodeDetail → Category
  | actor _ => .actor
  | linkType _ => .linkType
  | extension _ => .extension
  | hierarchy _ => .hierarchy
  | backLink _ => .backLink

namespace LinkGraph

def Fitting (g : LinkGraph) : Prop :=
  ∀ {i : NodeId} {s : NodeState}, g.state? i = some s →
    s.detail.category = g.arena.category i ∧ g.complaint? i = none

/-- Every node has a state, one for the category of the node. -/
structure Complete (g : LinkGraph) : Prop where
  nested : g.arena.Nested
  size_eq : g.states.size = g.arena.size
  exists_state : ∀ i < g.arena.size, ∃ s, g.state? i = some s
  category_eq : ∀ {i s}, g.state? i = some s → s.detail.category = g.arena.category i

theorem category_of_visitAs {g : LinkGraph} {category : Category} {i : NodeId} {d : NodeDetail}
    (h : g.visitAs category i = .ok d) : d.category = category := by
  unfold visitAs at h
  cases category with
  | actor =>
    cases h
    rfl
  | linkType =>
    cases h
    rfl
  | extension =>
    obtain ⟨_, _, rfl⟩ := Failure.map_eq_ok_iff.mp h
    rfl
  | hierarchy =>
    obtain ⟨_, _, rfl⟩ := Failure.map_eq_ok_iff.mp h
    rfl
  | backLink =>
    obtain ⟨_, _, rfl⟩ := Failure.map_eq_ok_iff.mp h
    rfl

theorem fitting_preserved {top : LinkGraph} (h : top.arena.Nested) :
    Preserved top (fun i => (top.arena.parent? i).toList) Fitting := by
  intro g done i s hprogress hi _ hv hfit j t ht
  rw [state?_withState (hprogress.size_eq ▸ hi)] at ht
  split at ht
  · next hj =>
    cases ht
    subst hj
    have hnested : g.arena.Nested := by rwa [hprogress.arena_eq]
    obtain ⟨d, hd, rfl⟩ := Failure.map_eq_ok_iff.mp hv
    refine ⟨category_of_visitAs hd, ?_⟩
    have hcomplaint := of?_visitNode hnested hi
    rw [hv] at hcomplaint
    exact hcomplaint.symm
  · exact hfit ht

section
variable {c : Compilation} {s : Schematic} {targets : List Target} {g : LinkGraph}

theorem Visits.fitting (hv : Visits (ofTargets c s targets) g) : g.Fitting :=
  (hv.preserves_ofTargets (fitting_preserved grounded_ofTargets.nested)
    grounded_ofTargets.supported_parent (by simp [Fitting, state?_ofTargets])).2

/-- Every visit fails as the first one does. -/
theorem Visits.failure_visit (hv : Visits (ofTargets c s targets) g) :
    g.visit.2 = (ofTargets c s targets).visit.2 := by
  rw [hv.grounded.failure_visit, grounded_ofTargets.failure_visit, hv.progress.same]
  rfl

theorem Visits.isVisited_eq_false (hv : Visits (ofTargets c s targets) g) {e : Failure}
    (he : (ofTargets c s targets).visit.2 = some e) : g.isVisited = false := by
  rw [← hv.failure_visit, hv.grounded.failure_visit] at he
  obtain ⟨i, hi, hcomplaint⟩ := List.exists_of_findSome?_eq_some he
  rw [Bool.eq_false_iff]
  intro hvisited
  have hlt : i < g.states.size := hv.progress.size_eq ▸ hv.grounded.mem_visitList_iff.mp hi
  obtain ⟨t, ht⟩ := (isVisited_iff.mp hvisited).2 i hlt
  rw [(hv.fitting ht).2] at hcomplaint
  cases hcomplaint

theorem Visits.complete_of_states (hv : Visits (ofTargets c s targets) g)
    (h : ∀ i < g.arena.size, ∃ t, g.state? i = some t) : g.Complete where
  nested := hv.grounded.nested
  size_eq := hv.progress.size_eq
  exists_state := h
  category_eq ht := (hv.fitting ht).1

theorem Visits.complete_of_isVisited (hv : Visits (ofTargets c s targets) g)
    (hvisited : g.isVisited = true) : g.Complete :=
  hv.complete_of_states fun n hn =>
    (isVisited_iff.mp hvisited).2 n (hv.progress.size_eq ▸ hn)

theorem Visits.complete_visit (hv : Visits (ofTargets c s targets) g) (hok : g.visit.2 = none) :
    g.visit.1.Complete := by
  have hground : Grounded c s targets (ofTargets c s targets) := grounded_ofTargets
  obtain ⟨done, hdone, _, hall⟩ := hv.progress.visit (fitting_preserved hground.nested)
    (fun i hi => hground.mem_visitList_iff.mp hi) hground.supported_parent hv.fitting
  refine hv.again.complete_of_states fun i hi => Option.isSome_iff_exists.mp ?_
  refine hdone.isSome i (hall hok (hground.mem_visitList_iff.mpr ?_))
  rwa [hdone.arena_eq] at hi

end

end LinkGraph

end ActorLinks
