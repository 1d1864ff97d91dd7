import ActorLinks.Graph.Visit
import ActorLinks.Proofs.Visit.Order

/-! # Runs of a visit

A visit changes states only. What one stored state preserves, in an order that supports what is
read, a whole visit preserves, and so does any number of visits, whether they succeed or not.
-/
namespace ActorLinks.LinkGraph

/-- The graph with other states. -/
def withStates (g : LinkGraph) (states : Array (Option NodeState)) : LinkGraph :=
  { g with states := states }

@[simp] theorem arena_withStates (g : LinkGraph) (states : Array (Option NodeState)) :
    (g.withStates states).arena = g.arena := rfl

theorem state?_withState {g : LinkGraph} {i : NodeId} (hi : i < g.states.size) (s : NodeState)
    (j : NodeId) : (g.withState i s).state? j = if j = i then some s else g.state? j := by
  simp only [state?, withState, Array.getElem?_setIfInBounds]
  by_cases hij : i = j
  · subst hij
    simp [hi]
  · simp [hij, Ne.symm hij]

theorem isVisited_iff {g : LinkGraph} : g.isVisited = true ↔
    0 < g.states.size ∧ ∀ i < g.states.size, ∃ s, g.state? i = some s := by
  have hempty : g.states.isEmpty = false ↔ 0 < g.states.size := by
    rw [Array.isEmpty_eq_false_iff, Array.size_pos_iff]
  have hstate (i : NodeId) (hi : i < g.states.size) :
      g.states[i].isSome = true ↔ ∃ s, g.state? i = some s := by
    simp [state?, hi, Option.isSome_iff_exists]
  rw [isVisited, Bool.and_eq_true, Bool.not_eq_true', hempty, Array.all_eq_true]
  exact and_congr_right fun _ => forall₂_congr hstate

/-- A graph that differs from `top` in its states only, which are those of all nodes in `done`
and maybe of others. -/
structure Progress (top : LinkGraph) (done : List NodeId) (g : LinkGraph) : Prop where
  same : g = top.withStates g.states
  size_eq : g.states.size = g.arena.size
  isSome : ∀ i ∈ done, (g.state? i).isSome

theorem Progress.arena_eq {top g : LinkGraph} {done : List NodeId} (h : Progress top done g) :
    g.arena = top.arena := by
  rw [h.same]
  rfl

theorem Progress.actors_eq {top g : LinkGraph} {done : List NodeId} (h : Progress top done g) :
    g.actors = top.actors := by
  rw [h.same]
  rfl

theorem Progress.target_eq {top g : LinkGraph} {done : List NodeId} (h : Progress top done g)
    (i : NodeId) : g.target i = top.target i := by
  rw [target, target, h.arena_eq]

theorem Progress.ancestors_eq {top g : LinkGraph} {done : List NodeId} (h : Progress top done g)
    (i : NodeId) : g.ancestors i = top.ancestors i := by
  rw [h.same]
  rfl

theorem Progress.visitList_eq {top g : LinkGraph} {done : List NodeId}
    (h : Progress top done g) : g.visitList = top.visitList := by
  rw [h.same]
  rfl

theorem Progress.withState {top g : LinkGraph} {done : List NodeId} (h : Progress top done g)
    {i : NodeId} (hi : i < g.arena.size) (s : NodeState) :
    Progress top (i :: done) (g.withState i s) where
  same := by
    rw [h.same]
    rfl
  size_eq := by simpa [LinkGraph.withState] using h.size_eq
  isSome := by
    intro j hj
    rw [state?_withState (h.size_eq ▸ hi)]
    split
    · rfl
    · next hne => exact h.isSome j ((List.mem_cons.mp hj).resolve_left hne)

/-- Storing the state of a node whose reads are done preserves the property. -/
def Preserved (top : LinkGraph) (reads : NodeId → List NodeId) (P : LinkGraph → Prop) : Prop :=
  ∀ {g : LinkGraph} {done : List NodeId} {i : NodeId} {s : NodeState}, Progress top done g →
    i < g.arena.size → reads i ⊆ done → g.visitNode i = .ok s → P g → P (g.withState i s)

section
variable {top g : LinkGraph} {reads : NodeId → List NodeId} {P : LinkGraph → Prop}

theorem visitNodes_preserves (hstep : Preserved top reads P) {done ids : List NodeId}
    (hids : ∀ i ∈ ids, i < g.arena.size) (hs : Supported reads done ids)
    (hg : Progress top done g) (hP : P g) :
    ∃ done', Progress top done' (g.visitNodes ids).1 ∧ P (g.visitNodes ids).1 ∧ done ⊆ done' ∧
      ((g.visitNodes ids).2 = none → ids ⊆ done') := by
  induction ids generalizing g done with
  | nil => exact ⟨done, hg, hP, fun _ hi => hi, fun _ => List.nil_subset _⟩
  | cons i ids ih =>
    have hi := hids i List.mem_cons_self
    rw [visitNodes]
    cases hv : g.visitNode i with
    | error e => exact ⟨done, hg, hP, fun _ hj => hj, fun h => nomatch h⟩
    | ok s =>
      obtain ⟨done', hg', hP', hsub, hall⟩ :=
        ih (g := g.withState i s) (fun j hj => hids j (List.mem_cons_of_mem _ hj)) hs.2
          (hg.withState hi s) (hstep hg hi hs.1 hv hP)
      refine ⟨done', hg', hP', fun j hj => hsub (List.mem_cons_of_mem _ hj), fun h => ?_⟩
      exact List.cons_subset.mpr ⟨hsub List.mem_cons_self, hall h⟩

/-- The graphs that any number of visits leads to, be they successful or not. -/
inductive Visits (g : LinkGraph) : LinkGraph → Prop
  | refl : Visits g g
  | again {h : LinkGraph} : Visits g h → Visits g h.visit.1

theorem Progress.forget {done : List NodeId} (h : Progress top done g) : Progress top [] g where
  __ := h
  isSome := by simp

theorem Progress.visit (hstep : Preserved top reads P)
    (hids : ∀ i ∈ top.visitList, i < top.arena.size) (hs : Supported reads [] top.visitList)
    (hg : Progress top [] g) (hP : P g) :
    ∃ done, Progress top done g.visit.1 ∧ P g.visit.1 ∧
      (g.visit.2 = none → top.visitList ⊆ done) := by
  have hlist := hg.visitList_eq
  obtain ⟨done, hg', hP', _, hall⟩ := visitNodes_preserves hstep
    (show ∀ i ∈ g.visitList, i < g.arena.size by rwa [hlist, hg.arena_eq]) (by rwa [hlist]) hg hP
  exact ⟨done, hg', hP', fun h => hlist ▸ hall h⟩

/-- Any number of visits preserves what is preserved when one state is stored. -/
theorem Visits.preserves (hstep : Preserved top reads P)
    (hids : ∀ i ∈ top.visitList, i < top.arena.size) (hs : Supported reads [] top.visitList)
    (hsize : top.states.size = top.arena.size) (hP : P top) (hv : Visits top g) :
    Progress top [] g ∧ P g := by
  induction hv with
  | refl => exact ⟨⟨rfl, hsize, by simp⟩, hP⟩
  | again _ ih =>
    obtain ⟨done, hg, hP', _⟩ := Progress.visit hstep hids hs ih.1 ih.2
    exact ⟨hg.forget, hP'⟩

end

section
variable {c : Compilation} {s : Schematic} {targets : List Target} {g : LinkGraph}
  {reads : NodeId → List NodeId} {P : LinkGraph → Prop}

theorem size_states_ofTargets :
    (ofTargets c s targets).states.size = (ofTargets c s targets).arena.size := by
  simp [ofTargets]

theorem state?_ofTargets (i : NodeId) : (ofTargets c s targets).state? i = none := by
  simp only [ofTargets, state?, Array.getElem?_replicate]
  split
  · rfl
  · rfl

/-- What holds before the first visit and is preserved by each stored state always holds. -/
theorem Visits.preserves_ofTargets (hstep : Preserved (ofTargets c s targets) reads P)
    (hs : Supported reads [] (ofTargets c s targets).visitList) (hP : P (ofTargets c s targets))
    (hv : Visits (ofTargets c s targets) g) : Progress (ofTargets c s targets) [] g ∧ P g :=
  hv.preserves hstep (fun _ hi => grounded_ofTargets.mem_visitList_iff.mp hi) hs
    size_states_ofTargets hP

theorem Visits.progress (hv : Visits (ofTargets c s targets) g) :
    Progress (ofTargets c s targets) [] g :=
  (hv.preserves_ofTargets (P := fun _ => True) (fun _ _ _ _ _ => trivial)
    grounded_ofTargets.supported_parent trivial).1

theorem Visits.grounded (hv : Visits (ofTargets c s targets) g) : Grounded c s targets g := by
  rw [hv.progress.same]
  exact grounded_ofTargets.withStates _

end

end ActorLinks.LinkGraph
