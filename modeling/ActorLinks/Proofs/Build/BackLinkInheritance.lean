import ActorLinks.Proofs.Build.Covariance

/-! # What back links inherit

A back link takes the back links among what it composes beyond its parent and those of what its
parent composes beyond the node above, and leaves itself out. What this comes to is known from the
parent alone: nothing where that is an actor, and otherwise the back link of the actor and one for
each node that the parent composes.
-/
namespace ActorLinks.LinkGraph
variable {c : Compilation} {sch : Schematic} {targets : List Target} {g : LinkGraph}
  {i n p root : NodeId}

section Visited
variable (hv : Visits (ofTargets c sch targets) g) (hvisited : g.isVisited = true)
include hv hvisited

/-- The only back link of an actor is the one that would inherit it. -/
theorem not_mem_inheritedBackLinks_of_actor (hp : g.arena.parent? i = some p)
    (hk : g.arena.category i = .backLink) (hactor : (g.arena.kind p).isActor = true) :
    n ∉ g.inheritedBackLinks i := by
  obtain ⟨v, hstate⟩ :=
    (hv.complete_of_isVisited hvisited).exists_state i (Arena.lt_size_of_parent hp)
  intro hn
  obtain ⟨hne, m, hlink, hroot | hm⟩ := (hv.mem_inheritedBackLinks_iff hstate hp hk).mp hn
  · rw [Arena.rootActor?_of_actor hp hactor] at hroot
    cases hroot
    have hown := hv.grounded.backLinkOf?_eq_some.mpr ⟨hp, hk⟩
    exact hne (Option.some.inj (hlink.symm.trans hown))
  · obtain ⟨q, hq⟩ := exists_parent_of_mem hm
    rw [hv.grounded.nested.isActor_of_parent hq] at hactor
    cases hactor

/-- Below an actor, the parent is neither the actor nor one of those that it composes itself, so all
of their back links are others. -/
theorem mem_inheritedBackLinks_iff_children (hp : g.arena.parent? i = some p)
    (hk : g.arena.category i = .backLink) (hbelow : (g.arena.kind p).isActor = false)
    (hroot : g.arena.rootActor? i = some root) : n ∈ g.inheritedBackLinks i ↔
      ∃ m, (m = root ∨ m ∈ g.implicitComposition p) ∧ n ∈ g.arena.children m ∧
        g.arena.category n = .backLink := by
  obtain ⟨v, hstate⟩ :=
    (hv.complete_of_isVisited hvisited).exists_state i (Arena.lt_size_of_parent hp)
  have hnested := hv.grounded.nested
  have hother {m : NodeId} (hm : m = root ∨ m ∈ g.implicitComposition p) : m ≠ p := by
    rcases hm with rfl | hm
    · rintro rfl
      have hactor := List.find?_some hroot
      rw [hbelow] at hactor
      cases hactor
    · exact ne_of_mem_implicitComposition hnested hm
  rw [hv.mem_inheritedBackLinks_iff hstate hp hk]
  constructor
  · rintro ⟨_, m, hlink, hm⟩
    obtain ⟨hparent, hkn⟩ := hv.grounded.backLinkOf?_eq_some.mp hlink
    refine ⟨m, ?_, Arena.mem_children_iff.mpr hparent, hkn⟩
    rcases hm with hm | hm
    · exact Or.inl (Option.some.inj (hm.symm.trans hroot))
    · exact Or.inr hm
  · rintro ⟨m, hm, hchild, hkn⟩
    have hparent := Arena.mem_children_iff.mp hchild
    refine ⟨?_, m, hv.grounded.backLinkOf?_eq_some.mpr ⟨hparent, hkn⟩, ?_⟩
    · rintro rfl
      exact hother hm (Option.some.inj (hparent.symm.trans hp))
    · rcases hm with rfl | hm
      · exact Or.inl hroot
      · exact Or.inr hm

/-- A back link inherits those of all that its parent behaves as: of nothing where that is an actor,
and otherwise of the actor that it is below and of each node that it composes. -/
theorem inherits_backLinks_of_parent (hi : i < g.arena.size)
    (hk : g.arena.category i = .backLink) : ∃ p root w, g.arena.parent? i = some p ∧
      g.arena.rootActor? i = some root ∧ g.state? p = some w ∧
      ((g.arena.kind p).isActor = true → (g.inheritedBackLinks i).toList = []) ∧
      ((g.arena.kind p).isActor = false → ∀ n, n ∈ g.inheritedBackLinks i ↔
        ∃ m, (m = root ∨ m ∈ w.implicitComposition) ∧ n ∈ g.arena.children m ∧
          g.arena.category n = .backLink) := by
  have hnested := hv.grounded.nested
  have hkind : (g.arena.kind i).isActor = false := by
    rw [NodeKind.isActor, ← Arena.category, hk]
    rfl
  obtain ⟨root, hroot, _⟩ := hnested.exists_root hi hkind
  obtain ⟨p, hp⟩ := Arena.exists_parent_of_rootActor? hroot
  have hpsize : p < g.arena.size := Nat.lt_trans (Arena.lt_of_parent hp) hi
  obtain ⟨w, hw⟩ := (hv.complete_of_isVisited hvisited).exists_state p hpsize
  refine ⟨p, root, w, hp, hroot, hw, ?_, ?_⟩
  · intro hactor
    apply List.eq_nil_iff_forall_not_mem.mpr
    intro n
    exact not_mem_inheritedBackLinks_of_actor hv hvisited hp hk hactor
  · intro hbelow n
    rw [(hv.composed hw).1]
    exact mem_inheritedBackLinks_iff_children hv hvisited hp hk hbelow hroot

end Visited

/-- The back link of the second extension below the first inherits those of the actor and of both
extensions on their own. -/
theorem inherits_backLinks_of_parent_sample :
    (mirrorGraph false).visit.1.arena.parent? 5 = some 4 ∧
    ∀ n, n ∈ (mirrorGraph false).visit.1.inheritedBackLinks 5 ↔ n ∈ [1, 3, 7] := by
  obtain ⟨hquiet, _, hparents, hroots, hcategories, _⟩ := mirrorGraph_nodes false
  have hvisited : (mirrorGraph false).visit.1.isVisited = true := (visited_of_quiet hquiet).2
  have hv : Visits (mirrorGraph false) (mirrorGraph false).visit.1 := .again .refl
  have hprogress : Progress (mirrorGraph false) [] (mirrorGraph false).visit.1 := hv.progress
  have hcomposed : ((mirrorGraph false).implicitComposition 4).toList = [2, 6] ∧
      ([0, 2, 6].flatMap fun m => ((mirrorGraph false).arena.children m).filter fun n =>
        (mirrorGraph false).arena.category n = .backLink) = [1, 3, 7] := by
    decide +kernel
  have hsame : (mirrorGraph false).visit.1.implicitComposition 4
      = (mirrorGraph false).implicitComposition 4 := by
    rw [hprogress.same]
    rfl
  rw [← hsame, ← hprogress.arena_eq] at hcomposed
  rw [← hprogress.arena_eq] at hparents hroots hcategories
  generalize (mirrorGraph false).visit.1 = g at *
  simp only [List.map_cons, List.map_nil, List.cons.injEq] at hparents hroots hcategories
  obtain ⟨_, hp5, _⟩ := hparents
  obtain ⟨_, hroot5, _⟩ := hroots
  obtain ⟨_, _, hk4, hk5, _⟩ := hcategories
  obtain ⟨p, root, w, hp, hroot, hw, _, hbelow⟩ :=
    inherits_backLinks_of_parent hv hvisited (Arena.lt_size_of_parent hp5) hk5
  obtain rfl := Option.some.inj (hp5.symm.trans hp)
  obtain rfl := Option.some.inj (hroot5.symm.trans hroot)
  have hextension : (g.arena.kind 4).isActor = false := by
    rw [NodeKind.isActor, ← Arena.category, hk4]
    rfl
  refine ⟨hp, fun n => ?_⟩
  have hmem (m : NodeId) : m ∈ w.implicitComposition ↔ m ∈ [2, 6] := by
    rw [(hv.composed hw).1, ← hcomposed.1]
    rfl
  rw [hbelow hextension n, ← hcomposed.2]
  simp [hmem]

end ActorLinks.LinkGraph
