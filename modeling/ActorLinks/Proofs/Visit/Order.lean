import ActorLinks.Proofs.Arena.Chain
import ActorLinks.Proofs.Compilation.Supertypes

/-! # Orders that support what is read

A visit reads the states of other nodes. An order of nodes supports this if whatever a node
reads stands before it. The nodes of a tree from the top down are such an order where every
node below the top reads its parents only.
-/
namespace ActorLinks

/-- Each node of the list reads only nodes that are done or stand before it. -/
def Supported (reads : NodeId → List NodeId) : List NodeId → List NodeId → Prop
  | _, [] => True
  | done, id :: ids => (∀ r ∈ reads id, r ∈ done) ∧ Supported reads (id :: done) ids

namespace Supported
variable {reads : NodeId → List NodeId}

theorem mono {done more ids : List NodeId} (h : Supported reads done ids) (hsub : done ⊆ more) :
    Supported reads more ids := by
  induction ids generalizing done more with
  | nil => trivial
  | cons id ids ih => exact ⟨fun r hr => hsub (h.1 r hr), ih h.2 (List.cons_subset_cons id hsub)⟩

theorem append {done xs ys : List NodeId} (hx : Supported reads done xs)
    (hy : Supported reads (xs ++ done) ys) : Supported reads done (xs ++ ys) := by
  induction xs generalizing done with
  | nil => exact hy
  | cons x xs ih =>
    refine ⟨hx.1, ih hx.2 (hy.mono ?_)⟩
    intro n hn
    simp only [List.cons_append, List.mem_cons, List.mem_append] at hn ⊢
    rcases hn with hn | hn | hn
    · exact Or.inr (Or.inl hn)
    · exact Or.inl hn
    · exact Or.inr (Or.inr hn)

theorem flatMap {f : NodeId → List NodeId} {done xs : List NodeId}
    (h : ∀ before x after, xs = before ++ x :: after →
      Supported reads (before.flatMap f ++ done) (f x)) : Supported reads done (xs.flatMap f) := by
  induction xs generalizing done with
  | nil => trivial
  | cons x xs ih =>
    rw [List.flatMap_cons]
    refine append (h [] x xs rfl) (ih fun before y after hxs => ?_)
    refine (h (x :: before) y after (by rw [hxs, List.cons_append])).mono ?_
    intro n hn
    simp only [List.flatMap_cons, List.mem_append] at hn ⊢
    rcases hn with (hn | hn) | hn
    · exact Or.inr (Or.inl hn)
    · exact Or.inl hn
    · exact Or.inr (Or.inr hn)

end Supported

namespace Arena
variable {a : Arena}

/-- What holds of a node whenever it holds of its children holds of all nodes. -/
theorem children_induction {P : NodeId → Prop} (node : ∀ i, (∀ n ∈ a.children i, P n) → P i)
    (i : NodeId) : P i := by
  induction hd : a.size - i using Nat.strongRecOn generalizing i with
  | ind d ih =>
    refine node i fun n hn => ih (a.size - n) ?_ n rfl
    have hlt := lt_of_mem_children hn
    omega

theorem self_mem_descendants (i : NodeId) : i ∈ a.descendants i := by
  rw [descendants_eq]
  exact List.mem_cons_self

theorem mem_descendants_of_parent {top i p : NodeId} (hp : a.parent? i = some p)
    (h : p ∈ a.descendants top) : i ∈ a.descendants top := by
  induction top using children_induction (a := a) with
  | node top ih =>
    rw [descendants_eq] at h ⊢
    refine List.mem_cons_of_mem _ (List.mem_flatMap.mpr ?_)
    rcases List.mem_cons.mp h with rfl | h
    · exact ⟨i, mem_children_iff.mpr hp, self_mem_descendants i⟩
    · obtain ⟨n, hn, hpn⟩ := List.mem_flatMap.mp h
      exact ⟨n, hn, ih n hn hpn⟩

theorem lt_size_of_mem_descendants {top i : NodeId} (htop : top < a.size)
    (h : i ∈ a.descendants top) : i < a.size := by
  induction top using children_induction (a := a) with
  | node top ih =>
    rw [descendants_eq] at h
    rcases List.mem_cons.mp h with rfl | h
    · exact htop
    · obtain ⟨n, hn, hin⟩ := List.mem_flatMap.mp h
      exact ih n hn (lt_of_mem_children hn).2 hin

/-- From the top down, parents stand before their children. -/
theorem supported_descendants {reads : NodeId → List NodeId}
    (hreads : ∀ {i p : NodeId}, a.parent? i = some p → reads i ⊆ a.parents i) {top : NodeId}
    {done : List NodeId} (htop : ∀ r ∈ reads top, r ∈ done) (hdone : a.parents top ⊆ done) :
    Supported reads done (a.descendants top) := by
  induction top using children_induction (a := a) generalizing done with
  | node top ih =>
    rw [descendants_eq]
    refine ⟨htop, .flatMap fun before n after hsplit => ?_⟩
    have hn : n ∈ a.children top := by
      rw [hsplit]
      exact List.mem_append_right _ List.mem_cons_self
    have hp : a.parent? n = some top := mem_children_iff.mp hn
    have hparents : a.parents n ⊆ before.flatMap a.descendants ++ top :: done := by
      rw [parents_of_some hp]
      intro p hmem
      refine List.mem_append_right _ ?_
      rcases List.mem_cons.mp hmem with rfl | hmem
      · exact List.mem_cons_self
      · exact List.mem_cons_of_mem _ (hdone hmem)
    exact ih n hn (fun r hr => hparents (hreads hp hr)) hparents

end Arena

namespace LinkGraph
variable {c : Compilation} {s : Schematic} {targets : List Target} {g : LinkGraph}

theorem mem_visitOrder_iff {i : NodeId} : i ∈ g.visitOrder ↔ ∃ name, g.actor? name = some i := by
  rw [visitOrder, List.mem_map]
  simp only [List.mem_mergeSort, List.mem_map, Prod.exists]
  constructor
  · rintro ⟨_, name, _, ⟨_, _, hmem, heq⟩, rfl⟩
    cases heq
    exact ⟨name, Dict.mem_entries_iff.mp hmem⟩
  · rintro ⟨name, hi⟩
    exact ⟨_, name, i, ⟨name, i, Dict.mem_entries_iff.mpr hi, rfl⟩, rfl⟩

theorem mem_roots_iff {n : NodeId} : n ∈ g.roots ↔ ∃ actor, g.actor? actor = some n := by
  rw [roots, Dict.values, List.mem_map]
  constructor
  · rintro ⟨⟨actor, _⟩, hmem, rfl⟩
    exact ⟨actor, Dict.mem_entries_iff.mp hmem⟩
  · rintro ⟨actor, hn⟩
    exact ⟨(actor, n), Dict.mem_entries_iff.mpr hn, rfl⟩

theorem mem_supertypeActors_iff {i n : NodeId} : n ∈ g.supertypeActors i ↔
    ∃ actor ∈ g.compilation.supertypes (g.target i).actor, g.actor? actor = some n := by
  simp [supertypeActors, List.mem_mergeSort, List.mem_filterMap, SortedSet.mem_iff]

theorem mem_ancestors_iff {i n : NodeId} : n ∈ g.ancestors i ↔
    (∃ actor ∈ g.compilation.supertypes (g.target i).actor, g.actor? actor = some n) ∧
      ((g.target n).entity = (g.target i).entity ∨
        (g.target n).entity ∈ g.compilation.supertypes (g.target i).entity) := by
  simp [ancestors, List.mem_filter, mem_supertypeActors_iff, Compilation.implements_iff]

/-- An actor that is declared a parent is an ancestor, if its entity is the same or declared a
parent too. -/
theorem mem_ancestors_of_parents {i n : NodeId} (hn : g.actor? (g.target n).actor = some n)
    (hne : (g.target n).actor ≠ (g.target i).actor)
    (hactor : (g.target n).actor ∈ g.compilation.parents (g.target i).actor)
    (hentity : (g.target n).entity = (g.target i).entity ∨
      (g.target n).entity ∈ g.compilation.parents (g.target i).entity) : n ∈ g.ancestors i := by
  rw [mem_ancestors_iff]
  refine ⟨⟨_, Compilation.mem_supertypes_iff.mpr ⟨hne, .single hactor⟩, hn⟩, ?_⟩
  by_cases hsame : (g.target n).entity = (g.target i).entity
  · exact Or.inl hsame
  · have habove := hentity.resolve_left hsame
    exact Or.inr (Compilation.mem_supertypes_iff.mpr ⟨hsame, .single habove⟩)

/-- The more supertypes, the nearer; of equally near actors the one planted first comes first. -/
theorem pairwise_supertypeActors (g : LinkGraph) (i : NodeId) :
    (g.supertypeActors i).Pairwise fun m n => g.supertypeCount n < g.supertypeCount m ∨
      g.supertypeCount m = g.supertypeCount n ∧ (m : Nat) ≤ n := by
  have hnearer (x y : Nat × Nat) : isNearer x y = true ↔
      y.1 < x.1 ∨ x.1 = y.1 ∧ x.2 ≤ y.2 := by simp [isNearer]
  have htrans (x y z : Nat × Nat) (hxy : isNearer x y = true) (hyz : isNearer y z = true) :
      isNearer x z = true := by
    rw [hnearer] at hxy hyz ⊢
    omega
  have htotal (x y : Nat × Nat) : (isNearer x y || isNearer y x) = true := by
    rw [Bool.or_eq_true, hnearer, hnearer]
    omega
  rw [supertypeActors, List.pairwise_map]
  refine (List.pairwise_mergeSort htrans htotal _).imp_of_mem fun hx hy hxy => ?_
  obtain ⟨m, _, rfl⟩ := List.mem_map.mp (List.mem_mergeSort.mp hx)
  obtain ⟨n, _, rfl⟩ := List.mem_map.mp (List.mem_mergeSort.mp hy)
  exact (hnearer _ _).mp hxy

theorem isBeforeInVisit_iff {x y : Nat × String × NodeId} : isBeforeInVisit x y = true ↔
    x.1 < y.1 ∨ x.1 = y.1 ∧ (x.2.1 < y.2.1 ∨ x.2.1 = y.2.1 ∧ x.2.2 ≤ y.2.2) := by
  simp [isBeforeInVisit]

theorem isBeforeInVisit_trans (x y z : Nat × String × NodeId) (hxy : isBeforeInVisit x y = true)
    (hyz : isBeforeInVisit y z = true) : isBeforeInVisit x z = true := by
  rw [isBeforeInVisit_iff] at hxy hyz ⊢
  rcases hxy with hxy | ⟨hxy, hrest⟩
  · rcases hyz with hyz | ⟨hyz, _⟩
    · exact Or.inl (Nat.lt_trans hxy hyz)
    · exact Or.inl (hyz ▸ hxy)
  · rcases hyz with hyz | ⟨hyz, hrest'⟩
    · exact Or.inl (hxy ▸ hyz)
    · refine Or.inr ⟨hxy.trans hyz, ?_⟩
      rcases hrest with hs | ⟨hs, hi⟩
      · rcases hrest' with hs' | ⟨hs', _⟩
        · exact Or.inl (Std.lt_trans hs hs')
        · exact Or.inl (hs' ▸ hs)
      · rcases hrest' with hs' | ⟨hs', hi'⟩
        · exact Or.inl (hs ▸ hs')
        · exact Or.inr ⟨hs.trans hs', Nat.le_trans hi hi'⟩

theorem isBeforeInVisit_total (x y : Nat × String × NodeId) :
    (isBeforeInVisit x y || isBeforeInVisit y x) = true := by
  rw [Bool.or_eq_true, isBeforeInVisit_iff, isBeforeInVisit_iff]
  rcases Nat.lt_trichotomy x.1 y.1 with h | h | h
  · exact Or.inl (Or.inl h)
  · by_cases hxy : x.2.1 < y.2.1
    · exact Or.inl (Or.inr ⟨h, Or.inl hxy⟩)
    · by_cases hyx : y.2.1 < x.2.1
      · exact Or.inr (Or.inr ⟨h.symm, Or.inl hyx⟩)
      · have hs := eq_of_not_lt hxy hyx
        rcases Nat.le_total x.2.2 y.2.2 with hi | hi
        · exact Or.inl (Or.inr ⟨h, Or.inr ⟨hs, hi⟩⟩)
        · exact Or.inr (Or.inr ⟨h.symm, Or.inr ⟨hs.symm, hi⟩⟩)
  · exact Or.inr (Or.inl h)

theorem Grounded.target_of_actor (h : Grounded c s targets g) {name : String} {i : NodeId}
    (hi : g.actor? name = some i) : (g.target i).actor = name := by
  have hkept := h.kept name
  rw [hi, Option.map_some] at hkept
  simpa using List.find?_some hkept.symm

/-- Actors with fewer supertypes come first. -/
theorem Grounded.pairwise_visitOrder (h : Grounded c s targets g) :
    g.visitOrder.Pairwise fun x y => g.supertypeCount x ≤ g.supertypeCount y := by
  rw [visitOrder, List.pairwise_map]
  refine (List.pairwise_mergeSort isBeforeInVisit_trans isBeforeInVisit_total _).imp_of_mem ?_
  intro x y hx hy hxy
  have count {z : Nat × String × NodeId} (hz : z ∈ (g.actors.entries.map fun e =>
      ((g.compilation.supertypes e.1).size, e.1, e.2)).mergeSort isBeforeInVisit) :
      g.supertypeCount z.2.2 = z.1 := by
    obtain ⟨⟨name, i⟩, hmem, rfl⟩ := List.mem_map.mp (List.mem_mergeSort.mp hz)
    rw [supertypeCount, h.target_of_actor (Dict.mem_entries_iff.mp hmem)]
  rw [count hx, count hy]
  rcases isBeforeInVisit_iff.mp hxy with hlt | ⟨heq, _⟩
  · exact Nat.le_of_lt hlt
  · exact Nat.le_of_eq heq

/-- Every node stands below an actor. -/
theorem Grounded.exists_top (h : Grounded c s targets g) {i : NodeId} (hi : i < g.arena.size) :
    ∃ top ∈ g.visitOrder, i ∈ g.arena.descendants top := by
  induction i using Nat.strongRecOn with
  | ind i ih =>
    cases hp : g.arena.parent? i with
    | none =>
      exact ⟨i, mem_visitOrder_iff.mpr ⟨_, h.actor_of_orphan i hi hp⟩, Arena.self_mem_descendants i⟩
    | some p =>
      have hpi := Arena.lt_of_parent hp
      obtain ⟨top, htop, hmem⟩ := ih p hpi (Nat.lt_trans hpi hi)
      exact ⟨top, htop, Arena.mem_descendants_of_parent hp hmem⟩

/-- The nodes in the order in which a visit reaches them. -/
def visitList (g : LinkGraph) : List NodeId := g.visitOrder.flatMap g.arena.descendants

theorem Grounded.mem_visitList_iff (h : Grounded c s targets g) {i : NodeId} :
    i ∈ g.visitList ↔ i < g.arena.size := by
  rw [visitList, List.mem_flatMap]
  constructor
  · rintro ⟨top, htop, hi⟩
    obtain ⟨name, hname⟩ := mem_visitOrder_iff.mp htop
    exact Arena.lt_size_of_mem_descendants (h.root_of_actor hname).2.lt_size hi
  · exact h.exists_top

theorem Grounded.orphan_of_mem_visitOrder (h : Grounded c s targets g) {top : NodeId}
    (htop : top ∈ g.visitOrder) : g.arena.parent? top = none := by
  obtain ⟨name, hname⟩ := mem_visitOrder_iff.mp htop
  exact (h.root_of_actor hname).1

/-- The visit goes through each tree from the top down, so only what the actors themselves read
has to be looked for in earlier trees. -/
theorem Grounded.supported_visitList (h : Grounded c s targets g) {reads : NodeId → List NodeId}
    (hreads : ∀ {i p : NodeId}, g.arena.parent? i = some p → reads i ⊆ g.arena.parents i)
    (htop : ∀ before top after, g.visitOrder = before ++ top :: after → top ∈ g.visitOrder →
      reads top ⊆ before.flatMap g.arena.descendants) : Supported reads [] g.visitList := by
  refine .flatMap fun before top after hsplit => ?_
  have hmem : top ∈ g.visitOrder := by
    rw [hsplit]
    exact List.mem_append_right _ List.mem_cons_self
  refine Arena.supported_descendants hreads (fun r hr => ?_) ?_
  · exact List.mem_append_left _ (htop before top after hsplit hmem hr)
  · rw [Arena.parents_of_none (h.orphan_of_mem_visitOrder hmem)]
    exact List.nil_subset _

theorem Grounded.supported_parent (h : Grounded c s targets g) :
    Supported (fun i => (g.arena.parent? i).toList) [] g.visitList := by
  apply h.supported_visitList
  · intro i p hp r hr
    rw [hp, Option.mem_toList] at hr
    cases hr
    exact Arena.mem_parents_of_parent hp
  · intro before top after _ hmem r hr
    rw [h.orphan_of_mem_visitOrder hmem] at hr
    cases hr

end LinkGraph

end ActorLinks
