import ActorLinks.Proofs.Build.BackLinks
import ActorLinks.Proofs.Build.LinkTypes
import ActorLinks.Proofs.Reach

/-! # Back links that redeclare their source

A back link outside the core assembly, or with an equivalent below an ancestor, has a reason of its
own to declare `Source` anew; any other does so if one that it inherits does. The search goes
through the inherited back links once, whichever branch leads to them. It finds a reason wherever
one can be reached, so the answer does not depend on the order of the branches.
-/
namespace ActorLinks.LinkGraph
variable {c : Compilation} {sch : Schematic} {targets : List Target} {g : LinkGraph}
  {i m n : NodeId}

/-- The one back link inherits the other over any number of steps. -/
def InheritsFrom (g : LinkGraph) (i n : NodeId) : Prop :=
  Relation.ReflTransGen (fun m n => n ∈ g.inheritedBackLinks m) i n

/-- The search finds a reason wherever one is reached, in whatever order it takes the successors. -/
theorem found_iff_inheritsFrom {next : NodeId → List NodeId}
    {outside : ∀ x, x ∉ g.knownIds → next x = []}
    (hnext : ∀ m n, n ∈ next m ↔ n ∈ g.inheritedBackLinks m) :
    (seek g.knownIds next outside g.changesSource [] [i]).found = true ↔
      ∃ n, g.InheritsFrom i n ∧ g.changesSource n = true := by
  have hsame : Next next = fun m n => n ∈ g.inheritedBackLinks m := by
    funext m n
    exact propext (hnext m n)
  rw [seek_iff, hsame]
  simp only [List.mem_singleton, exists_eq_left]
  rfl

theorem redefinesSource_iff :
    g.redefinesSource i = true ↔ ∃ n, g.InheritsFrom i n ∧ g.changesSource n = true :=
  found_iff_inheritsFrom fun _ _ => SortedSet.mem_iff.symm

theorem changesSource_iff {v : NodeState} (hstate : g.state? n = some v) :
    g.changesSource n = true ↔ g.arena.isCore n = false ∨
      ∃ a ∈ v.ancestors, ∃ e ∈ g.arena.descendants a, g.arena.equivalent? n a = some e := by
  rw [changesSource, hstate, Bool.or_eq_true, Bool.not_eq_true']
  show _ ∨ g.redeclares n v.ancestors = true ↔ _
  rw [redeclares, List.any_eq_true]
  refine or_congr_right (exists_congr fun a => and_congr_right fun _ => ?_)
  rw [Option.isSome_iff_exists]
  refine exists_congr fun e => ⟨fun h => ⟨?_, h⟩, And.right⟩
  exact Arena.mem_descendants_iff.mpr (Arena.start_mem_spine_of_walk? h)

section Visited
variable (hv : Visits (ofTargets c sch targets) g) (hvisited : g.isVisited = true)
include hv hvisited

theorem backLink_of_mem_inheritedBackLinks (hi : i < g.arena.size)
    (hk : g.arena.category i = .backLink) (hn : n ∈ g.inheritedBackLinks i) :
    n < g.arena.size ∧ g.arena.category n = .backLink := by
  have hbelow : (g.arena.kind i).isActor = false := by
    rw [NodeKind.isActor, ← Arena.category, hk]
    rfl
  obtain ⟨root, hroot, _⟩ := hv.grounded.nested.exists_root hi hbelow
  obtain ⟨p, hp⟩ := Arena.exists_parent_of_rootActor? hroot
  obtain ⟨v, hstate⟩ := (hv.complete_of_isVisited hvisited).exists_state i hi
  obtain ⟨_, m, hm, _⟩ := (hv.mem_inheritedBackLinks_iff hstate hp hk).mp hn
  obtain ⟨hparent, hkn⟩ := hv.grounded.backLinkOf?_eq_some.mp hm
  exact ⟨Arena.lt_size_of_parent hparent, hkn⟩

theorem backLink_of_inheritsFrom (hi : i < g.arena.size) (hk : g.arena.category i = .backLink)
    (h : g.InheritsFrom i n) : n < g.arena.size ∧ g.arena.category n = .backLink := by
  induction h with
  | refl => exact ⟨hi, hk⟩
  | tail _ hstep ih => exact backLink_of_mem_inheritedBackLinks hv hvisited ih.1 ih.2 hstep

/-- In a visited graph a back link redefines `Source` exactly where it inherits, over any number of
steps, from one that is not in the core assembly or has an equivalent below an ancestor. So it
does where one that it inherits does, and the order of the search does not matter. -/
theorem redefinesSource_iff_inherited (hi : i < g.arena.size)
    (hk : g.arena.category i = .backLink) :
    (g.redefinesSource i = true ↔ ∃ n v, g.InheritsFrom i n ∧ g.arena.category n = .backLink ∧
      g.state? n = some v ∧ (g.arena.isCore n = false ∨
        ∃ a ∈ v.ancestors, ∃ e ∈ g.arena.descendants a, g.arena.equivalent? n a = some e)) ∧
    (∀ n ∈ g.inheritedBackLinks i, g.redefinesSource n = true → g.redefinesSource i = true) ∧
    ∀ (next : NodeId → List NodeId) (outside : ∀ x, x ∉ g.knownIds → next x = []),
      (∀ m n, n ∈ next m ↔ n ∈ g.inheritedBackLinks m) →
        (seek g.knownIds next outside g.changesSource [] [i]).found = g.redefinesSource i := by
  refine ⟨?_, fun n hn hsource => ?_, fun next outside hnext => ?_⟩
  · rw [redefinesSource_iff]
    refine exists_congr fun n => ⟨fun ⟨hreach, hchanges⟩ => ?_, ?_⟩
    · obtain ⟨hlt, hkn⟩ := backLink_of_inheritsFrom hv hvisited hi hk hreach
      obtain ⟨v, hstate⟩ := (hv.complete_of_isVisited hvisited).exists_state n hlt
      exact ⟨v, hreach, hkn, hstate, (changesSource_iff hstate).mp hchanges⟩
    · rintro ⟨v, hreach, _, hstate, hreason⟩
      exact ⟨hreach, (changesSource_iff hstate).mpr hreason⟩
  · obtain ⟨m, hreach, hchanges⟩ := redefinesSource_iff.mp hsource
    exact redefinesSource_iff.mpr ⟨m, .head hn hreach, hchanges⟩
  · rw [Bool.eq_iff_iff, found_iff_inheritsFrom hnext, redefinesSource_iff]

end Visited

/-- The back link of an extension that channels do not have redefines `Source` for the sake of that
of its actor. -/
theorem redefinesSource_iff_inherited_thread :
    threadLinks.visit.1.arena.isCore 9 = true ∧
    threadLinks.visit.1.arena.equivalent? 9 0 = none ∧
    7 ∈ threadLinks.visit.1.inheritedBackLinks 9 ∧
    threadLinks.visit.1.redefinesSource 9 = true := by
  have hv : Visits threadLinks threadLinks.visit.1 := .again .refl
  have hvisited : threadLinks.visit.1.isVisited = true := (visited_of_quiet quiet_threadLinks).2
  have hprogress : Progress threadLinks [] threadLinks.visit.1 := hv.progress
  have hfacts : threadLinks.arena.isCore 9 = true ∧ threadLinks.arena.equivalent? 9 0 = none ∧
      threadLinks.arena.parent? 9 = some 8 ∧ threadLinks.arena.rootActor? 9 = some 6 ∧
      threadLinks.arena.category 9 = .backLink ∧ threadLinks.arena.backLinkOf? 6 = some 7 ∧
      threadLinks.arena.rootActor? 7 = some 6 ∧ threadLinks.arena.equivalent? 7 0 = some 1 ∧
      1 ∈ threadLinks.arena.descendants 0 := by
    decide +kernel
  have habove := mem_ancestors_threadLinks
  rw [← hprogress.arena_eq] at hfacts
  rw [← hprogress.ancestors_eq] at habove
  generalize threadLinks.visit.1 = g at *
  obtain ⟨hcore, hnone, hp, hroot, hk, hlink, hroot', hchannel, hbelow⟩ := hfacts
  have hcomplete := hv.complete_of_isVisited hvisited
  have hi := Arena.lt_size_of_parent hp
  obtain ⟨v, hstate⟩ := hcomplete.exists_state 9 hi
  have hinherits : 7 ∈ g.inheritedBackLinks 9 :=
    (hv.mem_inheritedBackLinks_iff hstate hp hk).mpr ⟨by decide, 6, hlink, Or.inl hroot⟩
  obtain ⟨hlt, hk'⟩ := backLink_of_mem_inheritedBackLinks hv hvisited hi hk hinherits
  obtain ⟨w, hw⟩ := hcomplete.exists_state 7 hlt
  have hmem : 0 ∈ w.ancestors := by
    rwa [hv.recorded.ancestors_eq hw, ancestorsOfRoot_of_rootActor?
      (hv.grounded.nested.isActor_of_rootActor? hroot') hroot']
  obtain ⟨hiff, _, _⟩ := redefinesSource_iff_inherited hv hvisited hi hk
  exact ⟨hcore, hnone, hinherits, hiff.mpr ⟨7, w, .single hinherits, hk', hw,
    Or.inr ⟨0, hmem, 1, hbelow, hchannel⟩⟩⟩

end ActorLinks.LinkGraph
