import ActorLinks.BackLink.Declaration
import ActorLinks.Hierarchy.Declaration
import ActorLinks.Proofs.Composition.Order
import ActorLinks.Proofs.Visit.Compositions

/-! # Bases that come from compositions

The declaration of a node below an actor derives from those of its parent and of nodes that it or
its parent composes. All of them precede the node, so to follow bases never leads back to it.
-/
namespace ActorLinks.LinkGraph

/-- What a visited node composes on its own account. -/
def ownComposition (g : LinkGraph) (id : NodeId) : List NodeId :=
  match g.state? id with
  | some s => s.composition.toList
  | none => []

/-- The nodes that a node's declaration derives from for the sake of composition. -/
def composedBases (g : LinkGraph) (id : NodeId) : List NodeId :=
  match g.arena.category id with
  | .actor => []
  | .linkType =>
    if g.arena.isTemplate id then []
    else (g.ownComposition id).filter fun n => (g.arena.kind n).isLinkType
  | .extension =>
    if g.arena.isTemplate id then []
    else (g.arena.parent? id).toList ++ (g.ownComposition id).filter g.isExtensionNode
  | .hierarchy =>
    if g.arena.isTemplate id then [] else (g.ownComposition id).filter g.isHierarchyNode
  | .backLink => (g.arena.parent? id).toList ++ (g.inheritedBackLinks id).toList

section
variable {c : Compilation} {s : Schematic} {targets : List Target} {g : LinkGraph}

theorem mem_inheritedBackLinks {i n : NodeId} (h : n ∈ g.inheritedBackLinks i) :
    n ∈ g.ownComposition i ∨
      ∃ p, g.arena.parent? i = some p ∧ ∃ m ∈ g.ownComposition p, g.arena.parent? n = some m := by
  rw [inheritedBackLinks, SortedSet.mem_filter, SortedSet.mem_ofList, List.mem_append] at h
  rcases h.1 with hown | hparent
  · left
    unfold ownComposition
    cases hs : g.state? i with
    | none => simp [hs] at hown
    | some t =>
      rw [hs] at hown
      exact (List.mem_filter.mp hown).1
  · right
    cases hp : g.arena.parent? i with
    | none => simp [hp] at hparent
    | some p =>
      refine ⟨p, rfl, ?_⟩
      unfold ownComposition
      cases hs : g.state? p with
      | none => simp [hp, hs] at hparent
      | some t =>
        simp only [hp, Option.bind_some, hs] at hparent
        obtain ⟨m, hm, hn⟩ := List.mem_filterMap.mp hparent
        exact ⟨m, hm, Arena.mem_children_iff.mp (List.mem_of_find?_eq_some hn)⟩

theorem Visits.composed (hv : Visits (ofTargets c s targets) g) : g.Composed :=
  (hv.preserves_ofTargets (composed_preserved _) grounded_ofTargets.supported_parent
    (by simp [Composed, state?_ofTargets])).2

theorem Visits.preordered (hv : Visits (ofTargets c s targets) g) : g.arena.Preordered := by
  rw [hv.progress.arena_eq]
  exact preordered_ofTargets

theorem Composed.mem_composition (h : g.Composed) {i n : NodeId} (hn : n ∈ g.ownComposition i) :
    n ∈ g.arena.composition i true none := by
  unfold ownComposition at hn
  cases hs : g.state? i with
  | none => simp [hs] at hn
  | some t =>
    rw [hs] at hn
    have hmem : n ∈ g.exclusiveComposition i := (h hs).2 ▸ hn
    have himplicit := (SortedSet.mem_diff.mp hmem).1
    unfold implicitComposition at himplicit
    split at himplicit
    · simp at himplicit
    · exact himplicit

/-- Bases precede what derives from them. -/
theorem Composed.precedes_of_mem_composedBases (h : g.Composed) (hnested : g.arena.Nested)
    (hpre : g.arena.Preordered) {i n : NodeId} (hn : n ∈ g.composedBases i) :
    g.arena.Precedes n i := by
  have own {j m : NodeId} (hm : m ∈ g.ownComposition j) : g.arena.Precedes m j :=
    hnested.precedes_of_mem_composition hpre (h.mem_composition hm)
  have parent (hp : n ∈ (g.arena.parent? i).toList) : g.arena.Precedes n i :=
    .of_parent (Option.mem_toList.mp hp)
  unfold composedBases at hn
  cases hcat : g.arena.category i with
  | actor => simp [hcat] at hn
  | linkType =>
    simp only [hcat] at hn
    split at hn
    · cases hn
    · exact own (List.mem_filter.mp hn).1
  | extension =>
    simp only [hcat] at hn
    split at hn
    · cases hn
    · rcases List.mem_append.mp hn with hn | hn
      · exact parent hn
      · exact own (List.mem_filter.mp hn).1
  | hierarchy =>
    simp only [hcat] at hn
    split at hn
    · cases hn
    · exact own (List.mem_filter.mp hn).1
  | backLink =>
    simp only [hcat] at hn
    rcases List.mem_append.mp hn with hn | hn
    · exact parent hn
    · rcases mem_inheritedBackLinks hn with hown | ⟨p, hp, m, hm, hnm⟩
      · exact own hown
      · -- the back link of a node that precedes the parent
        have hchild := Arena.depth_of_parent hp
        have hcomposed := Arena.depth_of_parent hnm
        rcases own hm with hlt | ⟨heq, hlt⟩
        · exact Or.inl (by omega)
        · have hbefore := hpre.lt_of_depth_eq heq hlt
            (Arena.parent_mem_spine hnm Arena.self_mem_spine)
          exact Or.inr ⟨by omega, Nat.lt_trans hbefore (Arena.lt_of_parent hp)⟩

end

/-- One link type twice in one place. -/
def sampleTwins : LinkGraph :=
  let indexable := Schematic.linkEntry "Indexable" []
  ofTargets sampleTypes
    ⟨⟨"Discord.ILinkType", [], [], [Schematic.linkEntry "Defined" [indexable, indexable]]⟩⟩
    [sampleTarget]

end ActorLinks.LinkGraph
