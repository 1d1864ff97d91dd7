import ActorLinks.Proofs.Arena.Preorder
import Mathlib.Data.List.Flatten
import Mathlib.Data.List.Nodup

/-! # Traversals

The list of a node and all below it is the one order that has each of them once, parents before
their children, and what stands below a child before what stands below later ones. The outline goes
the same way: each of its lines describes a node of this list.
-/
namespace ActorLinks

/-- What stands before another item is found before it. -/
theorem idxOf_lt_of_sublist {l : List NodeId} {m n : NodeId} (hnodup : l.Nodup)
    (h : [m, n].Sublist l) : l.idxOf m < l.idxOf n := by
  induction l with
  | nil => cases h
  | cons x xs ih =>
    obtain ⟨hx, hxs⟩ := List.nodup_cons.mp hnodup
    cases h with
    | cons _ h =>
      have hm : x ≠ m := fun heq => hx (heq ▸ h.subset List.mem_cons_self)
      have hn : x ≠ n := fun heq => hx (heq ▸ h.subset (by simp))
      rw [List.idxOf_cons_ne _ hm, List.idxOf_cons_ne _ hn]
      exact Nat.succ_lt_succ (ih hxs h)
    | cons_cons _ h =>
      have hn : m ≠ n := fun heq => hx (heq ▸ List.singleton_sublist.mp h)
      rw [List.idxOf_cons_self, List.idxOf_cons_ne _ hn]
      exact Nat.succ_pos _

namespace Arena
variable {a : Arena} {top i m n p c d : NodeId} {order : List NodeId}

/-- An order of the nodes at or below `top`. Each of them stands in it once, a parent before its
children, and a child with all that is below it before its later siblings with all below these. -/
structure TopDown (a : Arena) (top : NodeId) (order : List NodeId) : Prop where
  mem_iff : ∀ i, i ∈ order ↔ i = top ∨ top ∈ a.parents i
  nodup : order.Nodup
  parent_first : ∀ p ∈ order, ∀ c ∈ a.children p, order.idxOf p < order.idxOf c
  sibling_first : ∀ p ∈ order, ∀ c d, [c, d].Sublist (a.children p) →
    ∀ m n, c ∈ a.spine m → d ∈ a.spine n → order.idxOf m < order.idxOf n

section Descendants

theorem mem_spine_iff : top ∈ a.spine i ↔ i = top ∨ top ∈ a.parents i := by
  rw [spine, List.mem_cons, eq_comm]

theorem exists_child_of_mem_parents (h : top ∈ a.parents i) :
    ∃ c ∈ a.children top, c ∈ a.spine i := by
  have hmem : i ∈ a.descendants top := mem_descendants_iff.mpr (List.mem_cons_of_mem _ h)
  rw [descendants_eq] at hmem
  have hne : i ≠ top := (Nat.ne_of_lt (lt_of_mem_parents h)).symm
  obtain ⟨c, hc, hi⟩ := List.mem_flatMap.mp ((List.mem_cons.mp hmem).resolve_left hne)
  exact ⟨c, hc, mem_descendants_iff.mp hi⟩

theorem depth_le_of_mem_spine (h : top ∈ a.spine i) : a.depth top ≤ a.depth i := by
  rcases mem_spine_iff.mp h with rfl | h
  · exact Nat.le_refl _
  · exact Nat.le_of_lt (depth_lt_of_mem_parents h)

/-- On the way up from a node there is one node of each depth. -/
theorem eq_of_mem_spine (hc : c ∈ a.spine i) (hd : d ∈ a.spine i)
    (hdepth : a.depth c = a.depth d) : c = d := by
  induction i using Nat.strongRecOn with
  | ind i ih =>
    rcases List.mem_cons.mp hc with rfl | hc
    · rcases List.mem_cons.mp hd with rfl | hd
      · rfl
      · exact absurd hdepth.symm (Nat.ne_of_lt (depth_lt_of_mem_parents hd))
    · rcases List.mem_cons.mp hd with rfl | hd
      · exact absurd hdepth (Nat.ne_of_lt (depth_lt_of_mem_parents hc))
      · cases hp : a.parent? i with
        | none => simp [parents_of_none hp] at hc
        | some p =>
          rw [parents_of_some hp] at hc hd
          exact ih p (lt_of_parent hp) hc hd

theorem eq_of_siblings (hc : c ∈ a.children p) (hd : d ∈ a.children p) (hci : c ∈ a.spine i)
    (hdi : d ∈ a.spine i) : c = d := by
  refine eq_of_mem_spine hci hdi ?_
  rw [depth_of_parent (mem_children_iff.mp hc), depth_of_parent (mem_children_iff.mp hd)]

theorem sublist_descendants_of_child (hc : c ∈ a.children p) :
    (a.descendants c).Sublist (a.descendants p) := by
  have hone := (List.singleton_sublist.mpr hc).flatMap a.descendants
  rw [List.flatMap_singleton] at hone
  rw [descendants_eq a p]
  exact hone.cons p

theorem sublist_descendants (h : i ∈ a.descendants top) :
    (a.descendants i).Sublist (a.descendants top) := by
  induction i using Nat.strongRecOn with
  | ind i ih =>
    rcases List.mem_cons.mp (mem_descendants_iff.mp h) with rfl | hmem
    · exact List.Sublist.refl _
    · cases hp : a.parent? i with
      | none => simp [parents_of_none hp] at hmem
      | some p =>
        rw [parents_of_some hp] at hmem
        exact (sublist_descendants_of_child (mem_children_iff.mpr hp)).trans
          (ih p (lt_of_parent hp) (mem_descendants_iff.mpr hmem))

theorem nodup_descendants (a : Arena) (top : NodeId) : (a.descendants top).Nodup := by
  induction top using children_induction (a := a) with
  | node top ih =>
    rw [descendants_eq, List.nodup_cons, List.nodup_flatMap]
    refine ⟨fun hmem => ?_, ih, ?_⟩
    · obtain ⟨c, hc, hin⟩ := List.mem_flatMap.mp hmem
      exact Nat.not_lt_of_le (le_of_mem_spine (mem_descendants_iff.mp hin))
        (lt_of_mem_children hc).1
    · refine (a.children_ascending top).imp_of_mem fun {c d} hc hd hlt i hci hdi => ?_
      exact Nat.ne_of_lt hlt (eq_of_siblings hc hd (mem_descendants_iff.mp hci)
        (mem_descendants_iff.mp hdi))

theorem topDown_descendants (a : Arena) (top : NodeId) : a.TopDown top (a.descendants top) where
  mem_iff i := mem_descendants_iff.trans mem_spine_iff
  nodup := a.nodup_descendants top
  parent_first p hp c hc := by
    refine idxOf_lt_of_sublist (a.nodup_descendants top) (List.Sublist.trans ?_
      (sublist_descendants hp))
    rw [descendants_eq]
    refine (List.singleton_sublist.mpr ?_).cons_cons p
    exact List.mem_flatMap.mpr ⟨c, hc, self_mem_descendants c⟩
  sibling_first p hp c d hcd m n hm hn := by
    refine idxOf_lt_of_sublist (a.nodup_descendants top) (List.Sublist.trans ?_
      (sublist_descendants hp))
    have hboth : [m, n].Sublist ([c, d].flatMap a.descendants) := by
      rw [List.flatMap_cons, List.flatMap_singleton]
      exact (List.singleton_sublist.mpr (mem_descendants_iff.mpr hm)).append
        (List.singleton_sublist.mpr (mem_descendants_iff.mpr hn))
    rw [descendants_eq]
    exact (hboth.trans (hcd.flatMap a.descendants)).cons p

end Descendants

section Unique

/-- In the tree below `top`, `m` comes before `n`: it stands above `n`, or at or below an earlier
sibling. -/
inductive ComesFirst (a : Arena) (top m n : NodeId) : Prop where
  | above (h : m ∈ a.parents n)
  | beside {p c d : NodeId} (hp : top ∈ a.spine p) (hcd : [c, d].Sublist (a.children p))
      (hm : c ∈ a.spine m) (hn : d ∈ a.spine n)

theorem ComesFirst.of_child (h : a.ComesFirst c m n) (hc : c ∈ a.children top) :
    a.ComesFirst top m n := by
  cases h with
  | above h => exact .above h
  | beside hp hcd hm hn => exact .beside (parent_mem_spine (mem_children_iff.mp hc) hp) hcd hm hn

theorem comesFirst_or (hm : top ∈ a.spine m) (hn : top ∈ a.spine n) (hne : m ≠ n) :
    a.ComesFirst top m n ∨ a.ComesFirst top n m := by
  induction top using children_induction (a := a) with
  | node top ih =>
    rcases mem_spine_iff.mp hm with rfl | hm
    · exact Or.inl (.above ((mem_spine_iff.mp hn).resolve_left (Ne.symm hne)))
    · rcases mem_spine_iff.mp hn with rfl | hn
      · exact Or.inr (.above hm)
      · obtain ⟨c, hc, hcm⟩ := exists_child_of_mem_parents hm
        obtain ⟨d, hd, hdn⟩ := exists_child_of_mem_parents hn
        by_cases hcd : c = d
        · subst hcd
          exact (ih c hc hcm hdn).imp (·.of_child hc) (·.of_child hc)
        · exact (sublist_pair_or hc hd hcd).imp (.beside self_mem_spine · hcm hdn)
            (.beside self_mem_spine · hdn hcm)

namespace TopDown

theorem mem_of_child (h : a.TopDown top order) (hp : p ∈ order) (hc : c ∈ a.children p) :
    c ∈ order := by
  rw [h.mem_iff, ← mem_spine_iff] at hp ⊢
  exact (mem_spine_iff_of_parent (mem_children_iff.mp hc)).mpr (Or.inr hp)

/-- Parents come first, so all that stands above does. -/
theorem lt_of_mem_parents (h : a.TopDown top order) (hm : m ∈ order) (hmn : m ∈ a.parents n) :
    order.idxOf m < order.idxOf n := by
  induction n using Nat.strongRecOn with
  | ind n ih =>
    cases hq : a.parent? n with
    | none => simp [parents_of_none hq] at hmn
    | some q =>
      have hn : n ∈ a.children q := mem_children_iff.mpr hq
      rw [parents_of_some hq] at hmn
      rcases List.mem_cons.mp hmn with rfl | hmq
      · exact h.parent_first m hm n hn
      · have hlast : order.idxOf m < order.idxOf q := ih q (lt_of_parent hq) hmq
        have hqmem : q ∈ order := by
          rw [h.mem_iff, ← mem_spine_iff] at hm ⊢
          exact mem_spine_trans hm (List.mem_cons_of_mem _ hmq)
        exact Nat.lt_trans hlast (h.parent_first q hqmem n hn)

theorem lt_of_comesFirst (h : a.TopDown top order) (hm : m ∈ order) (hmn : a.ComesFirst top m n) :
    order.idxOf m < order.idxOf n := by
  cases hmn with
  | above hmn => exact h.lt_of_mem_parents hm hmn
  | beside hp hcd hcm hdn =>
    exact h.sibling_first _ ((h.mem_iff _).mpr (mem_spine_iff.mp hp)) _ _ hcd m n hcm hdn

theorem comesFirst_of_lt (h : a.TopDown top order) (hm : m ∈ order) (hn : n ∈ order)
    (hlt : order.idxOf m < order.idxOf n) : a.ComesFirst top m n := by
  have hne : m ≠ n := fun heq => Nat.ne_of_lt hlt (heq ▸ rfl)
  refine (comesFirst_or (mem_spine_iff.mpr ((h.mem_iff m).mp hm))
    (mem_spine_iff.mpr ((h.mem_iff n).mp hn)) hne).resolve_right fun hnm => ?_
  exact Nat.lt_asymm hlt (h.lt_of_comesFirst hn hnm)

/-- What comes first is laid down by the tree, so there is one such order. -/
theorem unique {other : List NodeId} (h : a.TopDown top order) (h' : a.TopDown top other) :
    order = other := by
  have hsame : ∀ i, i ∈ order ↔ i ∈ other := fun i => (h.mem_iff i).trans (h'.mem_iff i).symm
  have hother : other.Pairwise fun m n => other.idxOf m < other.idxOf n :=
    List.pairwise_iff_forall_sublist.mpr fun hsub => idxOf_lt_of_sublist h'.nodup hsub
  have horder : order.Pairwise fun m n => other.idxOf m < other.idxOf n := by
    refine List.pairwise_iff_forall_sublist.mpr fun {m n} hsub => ?_
    have hm : m ∈ order := hsub.subset List.mem_cons_self
    have hn : n ∈ order := hsub.subset (by simp)
    have hfirst := h.comesFirst_of_lt hm hn (idxOf_lt_of_sublist h.nodup hsub)
    exact h'.lt_of_comesFirst ((hsame m).mp hm) hfirst
  exact List.Perm.eq_of_pairwise (fun m n _ _ hmn hnm => absurd hnm (Nat.lt_asymm hmn)) horder
    hother ((List.perm_ext_iff_of_nodup h.nodup h'.nodup).mpr hsame)

end TopDown

end Unique

section Outline

theorem outlineAt_eq_map (depth : Nat) (top : NodeId) :
    outlineAt depth a top = (a.descendants top).map fun i =>
      String.ofList (List.replicate (2 * (depth + (a.depth i - a.depth top))) ' ') ++ "- "
        ++ a.describe i := by
  induction top using children_induction (a := a) generalizing depth with
  | node top ih =>
    rw [outlineAt_eq_cons, descendants_eq, List.map_cons, List.map_flatMap, Nat.sub_self,
      Nat.add_zero]
    refine congrArg (_ :: ·) (List.flatMap_congr fun c hc => ?_)
    rw [ih c hc]
    refine List.map_congr_left fun i hi => ?_
    have hbelow := depth_le_of_mem_spine (mem_descendants_iff.mp hi)
    have hlevels : depth + 1 + (a.depth i - a.depth c) = depth + (a.depth i - a.depth top) := by
      rw [depth_of_parent (mem_children_iff.mp hc)] at hbelow ⊢
      omega
    rw [hlevels]

/-- A line of the outline for each node at or below `top`, in the one order from the top down, which
describes the node and stands in by two blanks for each level below `top`. -/
theorem outline_topDown (a : Arena) (top : NodeId) :
    (a.outline top = (a.descendants top).map fun i =>
      String.ofList (List.replicate (2 * (a.depth i - a.depth top)) ' ') ++ "- "
        ++ a.describe i) ∧
    ∀ order, a.TopDown top order ↔ order = a.descendants top := by
  refine ⟨?_, fun order => ⟨fun h => h.unique (a.topDown_descendants top), ?_⟩⟩
  · rw [outline, outlineAt_eq_map]
    simp only [Nat.zero_add]
  · rintro rfl
    exact a.topDown_descendants top

end Outline

end Arena

end ActorLinks
