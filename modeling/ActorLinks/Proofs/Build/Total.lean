import ActorLinks.Graph.Build
import ActorLinks.Proofs.Arena.Chain
import ActorLinks.Proofs.Visit.Complete

/-! # Building a complete graph

No part of a complete graph fails to be built: every node has the state that its declaration is
made from, and only actors, which never stand below another node, are not built as a child.
-/
namespace ActorLinks.LinkGraph
variable {g : LinkGraph}

namespace Complete
variable (h : g.Complete)
include h

theorem isVisited_iff : g.isVisited = true ↔ 0 < g.arena.size := by
  rw [LinkGraph.isVisited_iff, h.size_eq]
  exact and_iff_left h.exists_state

theorem exists_detail {i : NodeId} (hi : i < g.arena.size) :
    ∃ s, g.expectState i = .ok s ∧ g.detail? i = some s.detail ∧
      s.detail.category = g.arena.category i := by
  obtain ⟨s, hs⟩ := h.exists_state i hi
  exact ⟨s, by rw [expectState, hs], by rw [detail?, hs, Option.map_some], h.category_eq hs⟩

theorem exists_linkTypePart {i : NodeId} (hi : i < g.arena.size)
    (hk : g.arena.category i = .linkType) : ∃ part, g.linkTypePart i = .ok part := by
  obtain ⟨s, hs, hdetail, hcategory⟩ := h.exists_detail hi
  rw [hk] at hcategory
  cases hd : s.detail with
  | linkType state =>
    have hstate : g.linkTypeState? i = some state := by rw [linkTypeState?, hdetail, hd]
    cases hkind : g.arena.kind i with
    | linkType kind entry =>
      simp only [linkTypePart, hs, hstate, hkind, bind, Except.bind, pure, Except.pure]
      split
      · exact ⟨_, rfl⟩
      · exact ⟨_, rfl⟩
    | _ => simp [Arena.category, hkind, NodeKind.category] at hk
  | _ => simp [hd, NodeDetail.category] at hcategory

theorem exists_extensionPart {i : NodeId} (hi : i < g.arena.size)
    (hk : g.arena.category i = .extension) : ∃ part, g.extensionPart i = .ok part := by
  obtain ⟨s, hs, hdetail, hcategory⟩ := h.exists_detail hi
  rw [hk] at hcategory
  cases hd : s.detail with
  | extension state =>
    have hstate : g.extensionState? i = some state := by rw [extensionState?, hdetail, hd]
    cases hkind : g.arena.kind i with
    | extension symbol =>
      have hsymbol : g.extensionSymbol? i = some symbol := by rw [extensionSymbol?, hkind]
      simp only [extensionPart, hs, hstate, hsymbol, bind, Except.bind, pure, Except.pure]
      exact ⟨_, rfl⟩
    | _ => simp [Arena.category, hkind, NodeKind.category] at hk
  | _ => simp [hd, NodeDetail.category] at hcategory

theorem exists_hierarchyPart {i : NodeId} (hi : i < g.arena.size)
    (hk : g.arena.category i = .hierarchy) : ∃ part, g.hierarchyPart i = .ok part := by
  obtain ⟨s, hs, hdetail, hcategory⟩ := h.exists_detail hi
  rw [hk] at hcategory
  cases hd : s.detail with
  | hierarchy state =>
    have hstate : g.hierarchyState? i = some state := by rw [hierarchyState?, hdetail, hd]
    simp only [hierarchyPart, hs, hstate, bind, Except.bind, pure, Except.pure]
    split
    · exact ⟨_, rfl⟩
    · exact ⟨_, rfl⟩
  | _ => simp [hd, NodeDetail.category] at hcategory

theorem exists_backLinkPart {i p : NodeId} (hp : g.arena.parent? i = some p)
    (hk : g.arena.category i = .backLink) : ∃ part, g.backLinkPart i = .ok part := by
  obtain ⟨s, hs, hdetail, hcategory⟩ := h.exists_detail (Arena.lt_size_of_parent hp)
  rw [hk] at hcategory
  cases hd : s.detail with
  | backLink state =>
    have hstate : g.backLinkState? i = some state := by rw [backLinkState?, hdetail, hd]
    have hparent : g.backLinkParent i = .ok p := by rw [backLinkParent, hp]
    simp only [backLinkPart, hs, hstate, hparent, bind, Except.bind, pure, Except.pure]
    split
    · exact ⟨_, rfl⟩
    · exact ⟨_, rfl⟩
  | _ => simp [hd, NodeDetail.category] at hcategory

theorem exists_part {i p : NodeId} (hp : g.arena.parent? i = some p) :
    ∃ part, g.partAs (g.arena.category i) i = .ok part := by
  have hi := Arena.lt_size_of_parent hp
  cases hk : g.arena.category i with
  | actor => exact absurd hk (h.nested.category_ne_actor hp)
  | linkType => exact h.exists_linkTypePart hi hk
  | extension => exact h.exists_extensionPart hi hk
  | hierarchy => exact h.exists_hierarchyPart hi hk
  | backLink => exact h.exists_backLinkPart hp hk

/-- Every node below an actor is built, from the bottom up. -/
theorem exists_buildNode {i p : NodeId} (hp : g.arena.parent? i = some p) :
    ∃ built, g.buildNode i = .ok built := by
  induction i using Arena.children_induction (a := g.arena) generalizing p with
  | node i ih =>
    obtain ⟨part, hpart⟩ := h.exists_part hp
    unfold buildNode buildChildAs
    rw [hpart]
    cases part with
    | nothing => exact ⟨_, rfl⟩
    | closed decl => exact ⟨_, rfl⟩
    | spread decl hoisted =>
      have hchildren : ∀ n ∈ (g.arena.children i).attach,
          ∃ built, g.buildChildAs (g.arena.category n.1) n.1 = .ok built := fun n _ =>
        ih n.1 n.2 (Arena.mem_children_iff.mp n.2)
      obtain ⟨below, hbelow⟩ := Failure.exists_mapM hchildren
      simp only [bind, Except.bind, pure, Except.pure, hbelow]
      exact ⟨_, rfl⟩

theorem exists_buildActor {i : NodeId} (hi : i < g.arena.size) (hp : g.arena.parent? i = none)
    (treeView : Bool) : ∃ decl, g.buildActor i treeView = .ok decl := by
  have hk := h.nested.actor_of_orphan i hi hp
  obtain ⟨s, hs, hdetail, hcategory⟩ := h.exists_detail hi
  rw [hk] at hcategory
  cases hd : s.detail with
  | actor state =>
    have hstate : g.actorState? i = some state := by rw [actorState?, hdetail, hd]
    obtain ⟨symbol, hsymbol⟩ : ∃ symbol, g.actorSymbol? i = some symbol := by
      have hactor := (h.nested.isActor_iff hi).mpr hp
      rw [actorSymbol?, actorRoot?, if_pos hactor, Option.bind_some]
      cases hkind : g.arena.kind i with
      | actor symbol => exact ⟨symbol, rfl⟩
      | _ => simp [Arena.category, hkind, NodeKind.category] at hk
    obtain ⟨below, hbelow⟩ := Failure.exists_mapM fun n (hn : n ∈ g.arena.children i) =>
      h.exists_buildNode (Arena.mem_children_iff.mp hn)
    simp only [buildActor, hs, hstate, hsymbol, hbelow, bind, Except.bind, pure, Except.pure]
    exact ⟨_, rfl⟩
  | _ => simp [hd, NodeDetail.category] at hcategory

end Complete

/-- Where nothing complains, the first visit is successful. -/
theorem visited_of_quiet {c : Compilation} {s : Schematic} {targets : List Target}
    (h : 0 < (ofTargets c s targets).arena.size ∧ ∀ i < (ofTargets c s targets).arena.size,
      (ofTargets c s targets).complaint? i = none) :
    (ofTargets c s targets).visit.2 = none ∧ (ofTargets c s targets).visit.1.isVisited = true := by
  have hground : Grounded c s targets (ofTargets c s targets) := grounded_ofTargets
  have hok : (ofTargets c s targets).visit.2 = none := by
    rw [hground.failure_visit, List.findSome?_eq_none_iff]
    exact fun i hi => h.2 i (hground.mem_visitList_iff.mp hi)
  refine ⟨hok, (Visits.complete_visit .refl hok).isVisited_iff.mpr ?_⟩
  rw [(Visits.again .refl).progress.arena_eq]
  exact h.1

end ActorLinks.LinkGraph
