import ActorLinks.Proofs.Composition.Search
import ActorLinks.Proofs.Failure
import ActorLinks.Proofs.Visit.Run

/-! # Compositions along a path

A node composes all that its parent composes, and its exclusive composition is the rest. So what
a node composes is split up among the nodes of its path, each of which adds its exclusive part.
-/
namespace ActorLinks.LinkGraph

/-- What the parent of a node composes. -/
def inheritedComposition (g : LinkGraph) (i : NodeId) : SortedSet NodeId :=
  match g.arena.parent? i with
  | some p => g.implicitComposition p
  | none => ∅

def exclusiveComposition (g : LinkGraph) (i : NodeId) : SortedSet NodeId :=
  (g.implicitComposition i).diff (g.inheritedComposition i)

theorem not_mem_of_mem_exclusive {g : LinkGraph} {i p n : NodeId}
    (hp : g.arena.parent? i = some p) (hn : n ∈ g.exclusiveComposition i) :
    n ∉ g.implicitComposition p := by
  rw [exclusiveComposition, inheritedComposition, hp, SortedSet.mem_diff] at hn
  exact hn.2

section Arena
variable {g : LinkGraph} {i p : NodeId} (h : g.arena.Nested) (hp : g.arena.parent? i = some p)
include h hp

theorem implicitComposition_subset {n : NodeId} (hn : n ∈ g.implicitComposition p) :
    n ∈ g.implicitComposition i := by
  have hpi := Arena.lt_of_parent hp
  have hi := Arena.lt_size_of_parent hp
  cases hk : (g.arena.kind p).isActor with
  | true => simp [implicitComposition, hk] at hn
  | false =>
    have hki := h.isActor_of_parent hp
    obtain ⟨root, hroot, _, hpath⟩ := h.exists_root (Nat.lt_trans hpi hi) hk
    obtain ⟨root', hroot', _, hpath'⟩ := h.exists_root hi hki
    have hsame : root' = root := by
      rw [Arena.rootActor?_of_parent hp hk, hroot] at hroot'
      exact (Option.some.inj hroot').symm
    subst hsame
    simp only [implicitComposition, hk, hki, Bool.false_eq_true, if_false] at hn ⊢
    obtain ⟨⟨segments, hne, hsub, hwalk⟩, _⟩ := (h.mem_composition_iff hroot hpath true).mp hn
    refine (h.mem_composition_iff hroot' hpath' true).mpr ⟨⟨segments, hne, ?_, hwalk⟩, fun _ => ?_⟩
    · rw [Arena.pathBelow_of_parent hp hk]
      exact hsub.trans (List.sublist_append_left _ _)
    · -- the walk along the parent's path ends above `i`
      rintro rfl
      have hend := Arena.depth_of_walk? hwalk
      have hparent := hpath.depth_getLast (Arena.getLast?_pathBelow p)
      have hchild := Arena.depth_of_parent hp
      have hlen := hsub.length_le
      omega

theorem mem_implicitComposition_iff {n : NodeId} : n ∈ g.implicitComposition i ↔
    n ∈ g.implicitComposition p ∨ n ∈ g.exclusiveComposition i := by
  rw [exclusiveComposition, inheritedComposition, hp, SortedSet.mem_diff]
  constructor
  · intro hn
    by_cases hnp : n ∈ g.implicitComposition p
    · exact Or.inl hnp
    · exact Or.inr ⟨hn, hnp⟩
  · rintro (hn | hn)
    · exact implicitComposition_subset h hp hn
    · exact hn.1

end Arena

/-- Each composed node is in the exclusive composition of exactly one node of the path. -/
theorem exists_exclusive_iff {g : LinkGraph} (h : g.arena.Nested) {i : NodeId}
    (hi : i < g.arena.size) (hk : (g.arena.kind i).isActor = false) {n : NodeId} :
    (n ∈ g.implicitComposition i ↔ ∃ q ∈ g.arena.pathBelow i, n ∈ g.exclusiveComposition q) ∧
      ∀ q ∈ g.arena.pathBelow i, ∀ r ∈ g.arena.pathBelow i, n ∈ g.exclusiveComposition q →
        n ∈ g.exclusiveComposition r → q = r := by
  induction i using Nat.strongRecOn with
  | ind i ih =>
    cases hp : g.arena.parent? i with
    | none =>
      rw [(h.isActor_iff hi).mpr hp] at hk
      cases hk
    | some p =>
      have hpi := Arena.lt_of_parent hp
      have hsplit := mem_implicitComposition_iff h hp (n := n)
      cases hkp : (g.arena.kind p).isActor with
      | true =>
        have hnone : n ∉ g.implicitComposition p := by simp [implicitComposition, hkp]
        rw [Arena.pathBelow_of_actor hp hkp, hsplit]
        simp [hnone]
      | false =>
        -- the path grows by the node itself, and what it composes by what is exclusive to it
        obtain ⟨hiff, huniq⟩ := ih p hpi (Nat.lt_trans hpi hi) hkp
        have happart {q : NodeId} (hq : q ∈ g.arena.pathBelow p)
            (hnq : n ∈ g.exclusiveComposition q) : n ∉ g.exclusiveComposition i :=
          fun hni => not_mem_of_mem_exclusive hp hni (hiff.mpr ⟨q, hq, hnq⟩)
        rw [Arena.pathBelow_of_parent hp hkp, hsplit, hiff]
        simp only [List.mem_append, List.mem_singleton]
        refine ⟨⟨?_, ?_⟩, ?_⟩
        · rintro (⟨q, hq, hnq⟩ | hni)
          · exact ⟨q, Or.inl hq, hnq⟩
          · exact ⟨i, Or.inr rfl, hni⟩
        · rintro ⟨q, hq | rfl, hnq⟩
          · exact Or.inl ⟨q, hq, hnq⟩
          · exact Or.inr hnq
        · rintro q (hq | rfl) r (hr | rfl) hnq hnr
          · exact huniq q hq r hr hnq hnr
          · exact absurd hnr (happart hq hnq)
          · exact absurd hnq (happart hr hnr)
          · rfl

/-- Every state holds the compositions of its node. -/
def Composed (g : LinkGraph) : Prop :=
  ∀ {i : NodeId} {s : NodeState}, g.state? i = some s →
    s.implicitComposition = g.implicitComposition i ∧ s.composition = g.exclusiveComposition i

theorem parentComposition_eq {g : LinkGraph} (h : g.Composed) {i : NodeId}
    (hdone : ∀ p, g.arena.parent? i = some p → (g.state? p).isSome) :
    g.parentComposition i = g.inheritedComposition i := by
  rw [parentComposition, inheritedComposition]
  cases hp : g.arena.parent? i with
  | none => rfl
  | some p =>
    obtain ⟨s, hs⟩ := Option.isSome_iff_exists.mp (hdone p hp)
    rw [Option.bind_some, hs]
    exact (h hs).1

theorem composed_preserved (top : LinkGraph) :
    Preserved top (fun i => (top.arena.parent? i).toList) Composed := by
  intro g done i s hprogress hi hreads hvisit h j t ht
  have hcompositions : s.implicitComposition = g.implicitComposition i ∧
      s.composition = (g.implicitComposition i).diff (g.parentComposition i) := by
    obtain ⟨detail, _, rfl⟩ := Failure.map_eq_ok_iff.mp hvisit
    exact ⟨rfl, rfl⟩
  rw [parentComposition_eq h] at hcompositions
  · rw [state?_withState (hprogress.size_eq ▸ hi)] at ht
    split at ht
    · next hj =>
      cases ht
      subst hj
      exact hcompositions
    · exact h ht
  · intro p hp
    refine hprogress.isSome p (hreads ?_)
    rw [hprogress.arena_eq] at hp
    exact Option.mem_toList.mpr hp

/-- In a visited graph, what the search finds for a node is what its parent composes, and apart
from it the composition of its own; so the compositions along the path below the actor split up
what the node composes. -/
theorem composition_splits {c : Compilation} {s : Schematic} {targets : List Target}
    {g : LinkGraph} (hv : Visits (ofTargets c s targets) g) (hg : g.isVisited = true)
    {i p : NodeId} (hp : g.arena.parent? i = some p) :
    ∃ own above, g.state? i = some own ∧ g.state? p = some above ∧
      own.implicitComposition = g.arena.composition i true none ∧
      (∀ n ∈ above.implicitComposition, n ∈ own.implicitComposition) ∧
      (∀ n ∈ own.composition, n ∉ above.implicitComposition) ∧
      (∀ n, n ∈ own.implicitComposition ↔
        n ∈ above.implicitComposition ∨ n ∈ own.composition) ∧
      ∀ n, (n ∈ own.implicitComposition ↔
          ∃ q ∈ g.arena.pathBelow i, ∃ t, g.state? q = some t ∧ n ∈ t.composition) ∧
        ∀ q ∈ g.arena.pathBelow i, ∀ r ∈ g.arena.pathBelow i, ∀ t u, g.state? q = some t →
          g.state? r = some u → n ∈ t.composition → n ∈ u.composition → q = r := by
  obtain ⟨hprogress, hcomposed⟩ := hv.preserves_ofTargets (composed_preserved _)
    grounded_ofTargets.supported_parent (by simp [Composed, state?_ofTargets])
  have hground := hv.grounded
  have hi := Arena.lt_size_of_parent hp
  have hpi := Arena.lt_of_parent hp
  have hexists {q : NodeId} (hq : q < g.arena.size) : ∃ t, g.state? q = some t :=
    (isVisited_iff.mp hg).2 q (hprogress.size_eq ▸ hq)
  obtain ⟨own, hown⟩ := hexists hi
  obtain ⟨above, habove⟩ := hexists (Nat.lt_trans hpi hi)
  obtain ⟨himplicit, hexclusive⟩ := hcomposed hown
  refine ⟨own, above, hown, habove, ?_⟩
  rw [himplicit, hexclusive, (hcomposed habove).1]
  have hnested := hground.nested
  have hk := hnested.isActor_of_parent hp
  have hsearch : g.implicitComposition i = g.arena.composition i true none := by
    rw [implicitComposition, hk]
    rfl
  refine ⟨hsearch, fun n hn => implicitComposition_subset hnested hp hn,
    fun n hn => not_mem_of_mem_exclusive hp hn,
    fun n => mem_implicitComposition_iff hnested hp, fun n => ?_⟩
  obtain ⟨hiff, huniq⟩ := exists_exclusive_iff hnested hi hk (n := n)
  refine ⟨hiff.trans ⟨?_, ?_⟩, ?_⟩
  · rintro ⟨q, hq, hn⟩
    obtain ⟨t, ht⟩ := hexists (Nat.lt_of_le_of_lt (Arena.le_of_mem_pathBelow hq) hi)
    exact ⟨q, hq, t, ht, (hcomposed ht).2 ▸ hn⟩
  · rintro ⟨q, hq, t, ht, hn⟩
    exact ⟨q, hq, (hcomposed ht).2 ▸ hn⟩
  · intro q hq r hr t u ht hu hnt hnu
    rw [(hcomposed ht).2] at hnt
    rw [(hcomposed hu).2] at hnu
    exact huniq q hq r hr hnt hnu

theorem composition_splits_sample : ∃ own above, sampleGraph.visit.1.state? 30 = some own ∧
    sampleGraph.visit.1.state? 28 = some above ∧
    ∀ n, n ∈ own.implicitComposition ↔ n ∈ above.implicitComposition ∨ n ∈ own.composition := by
  obtain ⟨own, above, hown, habove, _, _, _, hunion, _⟩ :=
    composition_splits (g := sampleGraph.visit.1) (i := 30) (p := 28)
      (.again .refl) (by decide +kernel) (by decide +kernel)
  exact ⟨own, above, hown, habove, hunion⟩

end ActorLinks.LinkGraph
