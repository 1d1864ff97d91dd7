import ActorLinks.Proofs.Generation
import ActorLinks.Proofs.Renumbering.Build
import ActorLinks.Proofs.Renumbering.Planting

/-! # Targets in another order

Where no two targets have one actor, another order of them gives the same trees under other ids.
Everything that is generated is the same then, but for one thing: ancestors of an actor that are
equally near are put in the order of their ids, which is that of the targets.
-/
namespace ActorLinks

theorem Dict.ext_get? {α : Type} {d e : Dict α} (h : ∀ key, d.get? key = e.get? key) : d = e := by
  have hnodup (d : Dict α) : d.entries.Nodup :=
    (List.pairwise_map.mp d.ascending).imp fun hlt he => by
      subst he
      exact Std.lt_irrefl hlt
  refine ext_entries (List.Perm.eq_of_pairwise (fun x y _ _ hxy hyx => ?_)
    (List.pairwise_map.mp d.ascending) (List.pairwise_map.mp e.ascending)
    ((List.perm_ext_iff_of_nodup (hnodup d) (hnodup e)).mpr fun x => ?_))
  · exact absurd (Std.lt_trans hxy hyx) Std.lt_irrefl
  · rw [show x = (x.1, x.2) from rfl, mem_entries_iff, mem_entries_iff, h]

namespace Arena
variable {a : Arena} {i : Nat}

theorem node_outside (hi : ¬ i < a.size) : a.node i = default := by
  rw [node, Array.getElem?_eq_none (Nat.le_of_not_lt hi), Option.getD_none]

theorem parent?_outside (hi : ¬ i < a.size) : a.parent? i = none := by
  rw [parent?, parentIn, Array.getElem?_eq_none (Nat.le_of_not_lt hi), Option.bind_none]

end Arena

/-- The other target is an ancestor of this one, as far as their symbols tell. -/
def Target.HasAncestor (c : Compilation) (t ancestor : Target) : Prop :=
  ancestor.actor ∈ c.supertypes t.actor ∧
    (ancestor.entity = t.entity ∨ ancestor.entity ∈ c.supertypes t.entity)

instance (c : Compilation) (t u : Target) : Decidable (t.HasAncestor c u) :=
  inferInstanceAs (Decidable (_ ∧ _))

/-- The two are equally near ancestors of some target. -/
def Compilation.Ties (c : Compilation) (targets : List Target) (x y : Target) : Prop :=
  (c.supertypes x.actor).size = (c.supertypes y.actor).size ∧
    ∃ t ∈ targets, t.HasAncestor c x ∧ t.HasAncestor c y

instance (c : Compilation) (targets : List Target) (x y : Target) :
    Decidable (c.Ties targets x y) :=
  inferInstanceAs (Decidable (_ ∧ ∃ t ∈ targets, _ ∧ _))

namespace LinkGraph
open Arena

/-- A node of `g` goes to the same place in the tree of its target in `g'`. -/
def transfer (g g' : LinkGraph) (i : Nat) : Nat :=
  if i < g.arena.size then
    (g'.actor? (g.target i).actor).getD 0 + (i - (g.actor? (g.target i).actor).getD 0)
  else g'.arena.size + i

section Transfer
variable {c : Compilation} {s : Schematic} {targets others : List Target} {g g' : LinkGraph}

theorem Holds.target_eq {t : Target} {root k : Nat} (h : Holds c s g t root)
    (hk : k < (treeOf c s t).size) : g.target (root + k) = t :=
  (h.embeds.target_eq k hk).trans (target_treeOf hk)

theorem Holds.transfer_eq {t : Target} {root other k : Nat} (h : Holds c s g t root)
    (h' : Holds c s g' t other) (hk : k < (treeOf c s t).size) :
    transfer g g' (root + k) = other + k := by
  rw [transfer, if_pos (h.embeds.lt_size k hk), h.target_eq hk, h.actor_eq, h'.actor_eq,
    Option.getD_some, Option.getD_some, Nat.add_sub_cancel_left]

theorem size_treeOf_pos (t : Target) : 0 < (treeOf c s t).size := by
  have hroot : ∀ p ∈ (none : Option NodeId), p < empty.size := by simp
  have hshows : (treeOf c s t).Shows t (LinkTree.ofTarget c s t) 0 :=
    (plant_grown (LinkTree.ofTarget c s t) hroot).2.2
  exact hshows.lt_size

theorem Holds.transfer_root {t : Target} {root other : Nat} (h : Holds c s g t root)
    (h' : Holds c s g' t other) : transfer g g' root = other := h.transfer_eq h' (size_treeOf_pos t)

theorem InRow.holds_target (h : InRow c s targets g) {t : Target} (ht : t ∈ targets) {root : Nat}
    (hroot : g.actor? t.actor = some root) : Holds c s g t root := by
  obtain ⟨root', hr⟩ := h.exists_root t ht
  obtain rfl := Option.some.inj (hr.actor_eq.symm.trans hroot)
  exact hr

theorem transfer_outside {i : Nat} (hi : ¬ i < g.arena.size) :
    transfer g g' i = g'.arena.size + i := if_neg hi

theorem transfer_not_lt {i : Nat} (hi : ¬ i < g.arena.size) :
    ¬ transfer g g' i < g'.arena.size := by
  rw [transfer_outside hi]
  exact Nat.not_lt.mpr (Nat.le_add_right _ _)

theorem InRow.holds_of_actor (hg : Grounded c s targets g) (h : InRow c s targets g)
    {name : String} {root : NodeId} (hroot : g.actor? name = some root) :
    g.target root ∈ targets ∧ Holds c s g (g.target root) root := by
  have hkept := hg.kept name
  rw [hroot, Option.map_some] at hkept
  have ht := List.mem_of_find?_eq_some hkept.symm
  exact ⟨ht, h.holds_target ht (hg.target_of_actor hroot ▸ hroot)⟩

/-- The trees of two targets do not overlap. -/
theorem InRow.apart (h : InRow c s targets g) {t u : Target} (ht : t ∈ targets) (hu : u ∈ targets)
    (hne : t ≠ u) {root other : Nat} (hr : Holds c s g t root) (ho : Holds c s g u other) :
    root + (treeOf c s t).size ≤ other ∨ other + (treeOf c s u).size ≤ root := by
  rcases sublist_pair_or ht hu hne with hsub | hsub
  · exact Or.inl (List.pairwise_iff_forall_sublist.mp h.ascending hsub root other hr ho)
  · exact Or.inr (List.pairwise_iff_forall_sublist.mp h.ascending hsub other root ho hr)

variable (hg : Grounded c s targets g) (h : InRow c s targets g) (h' : InRow c s others g')
  (hmem : ∀ t ∈ targets, t ∈ others)
include h h' hmem

/-- Every node has its place in the other graph. -/
theorem InRow.exists_place {i : Nat} (hi : i < g.arena.size) :
    ∃ t ∈ targets, ∃ root other k, Holds c s g t root ∧ Holds c s g' t other ∧
      k < (treeOf c s t).size ∧ i = root + k := by
  obtain ⟨t, ht, root, hr, k, hk, rfl⟩ := h.exists_tree i hi
  obtain ⟨other, ho⟩ := h'.exists_root t (hmem t ht)
  exact ⟨t, ht, root, other, k, hr, ho, hk, rfl⟩

theorem InRow.transfer_lt {i : Nat} (hi : i < g.arena.size) :
    transfer g g' i < g'.arena.size := by
  obtain ⟨t, _, root, other, k, hr, ho, hk, rfl⟩ := h.exists_place h' hmem hi
  rw [hr.transfer_eq ho hk]
  exact ho.embeds.lt_size k hk

theorem InRow.transfer_injective : Function.Injective (transfer g g') := by
  intro i j hij
  by_cases hi : i < g.arena.size
  · have hlt := h.transfer_lt h' hmem hi
    by_cases hj : j < g.arena.size
    · obtain ⟨t, ht, root, other, k, hr, ho, hk, rfl⟩ := h.exists_place h' hmem hi
      obtain ⟨u, hu, root', other', l, hr', ho', hl, rfl⟩ := h.exists_place h' hmem hj
      rw [hr.transfer_eq ho hk, hr'.transfer_eq ho' hl] at hij
      by_cases htu : t = u
      · subst htu
        obtain rfl := hr.root_unique hr'
        obtain rfl := ho.root_unique ho'
        exact congrArg (root + ·) (Nat.add_left_cancel hij)
      · rcases h'.apart (hmem t ht) (hmem u hu) htu ho ho' with hle | hle <;> omega
    · rw [hij, transfer_outside hj] at hlt
      omega
  · by_cases hj : j < g.arena.size
    · have hlt := h.transfer_lt h' hmem hj
      rw [← hij, transfer_outside hi] at hlt
      omega
    · rw [transfer_outside hi, transfer_outside hj] at hij
      exact Nat.add_left_cancel hij

/-- Nodes of one tree keep their order. -/
theorem InRow.transfer_lt_transfer {i j : Nat} (hij : i < j) (hj : j < g.arena.size)
    (htarget : g.target i = g.target j) : transfer g g' i < transfer g g' j := by
  obtain ⟨t, _, root, other, k, hr, ho, hk, rfl⟩ := h.exists_place h' hmem (Nat.lt_trans hij hj)
  obtain ⟨u, _, root', other', l, hr', ho', hl, rfl⟩ := h.exists_place h' hmem hj
  rw [hr.target_eq hk, hr'.target_eq hl] at htarget
  subst htarget
  obtain rfl := hr.root_unique hr'
  rw [hr.transfer_eq ho hk, hr.transfer_eq ho hl]
  exact Nat.add_lt_add_left (Nat.lt_of_add_lt_add_left hij) other

include hg

theorem InRow.arena_renumbers : g.arena.Renumbers (transfer g g') g'.arena := by
  have hmoved {t : Target} {root other : Nat} (hr : Holds c s g t root)
      (ho : Holds c s g' t other) {k : Nat} (hk : k < (treeOf c s t).size) :
      transfer g g' (root + k) = other + k := hr.transfer_eq ho hk
  -- a node of the arena is node `k` of the tree of its target, and is moved to node `k` of the same
  -- tree; past the end there is nothing on either side
  refine ⟨h.transfer_injective h' hmem, fun i hi => h.transfer_lt h' hmem hi, fun i => ?_,
    fun i => ?_, fun i => ?_, fun i => ?_, fun {top i j} hi hj hij => ?_⟩
  · by_cases hi : i < g.arena.size
    · obtain ⟨t, _, root, other, k, hr, ho, hk, rfl⟩ := h.exists_place h' hmem hi
      rw [hmoved hr ho hk, ho.embeds.kind_eq k hk, hr.embeds.kind_eq k hk]
    · rw [Arena.kind, Arena.kind, node_outside hi, node_outside (transfer_not_lt hi)]
  · by_cases hi : i < g.arena.size
    · obtain ⟨t, _, root, other, k, hr, ho, hk, rfl⟩ := h.exists_place h' hmem hi
      rw [hmoved hr ho hk, ho.embeds.target_eq k hk, hr.embeds.target_eq k hk]
    · rw [Arena.target, Arena.target, node_outside hi, node_outside (transfer_not_lt hi)]
  · by_cases hi : i < g.arena.size
    · obtain ⟨t, _, root, other, k, hr, ho, hk, rfl⟩ := h.exists_place h' hmem hi
      rw [hmoved hr ho hk, ho.embeds.parent_eq k hk, hr.embeds.parent_eq k hk, Option.map_map]
      refine Option.map_congr fun p hp => ?_
      exact (hmoved hr ho (Nat.lt_trans (lt_of_parent hp) hk)).symm
    · rw [parent?_outside hi, parent?_outside (transfer_not_lt hi), Option.map_none]
  · by_cases hi : i < g.arena.size
    · obtain ⟨t, _, root, other, k, hr, ho, hk, rfl⟩ := h.exists_place h' hmem hi
      rw [hmoved hr ho hk, ho.embeds.children_eq k hk, hr.embeds.children_eq k hk, List.map_map]
      refine List.map_congr_left fun n hn => ?_
      exact (hmoved hr ho (lt_of_mem_children hn).2).symm
    · have hnil : g.arena.children i = [] := childrenIn_eq_nil (Nat.le_of_not_lt hi)
      have hnil' : g'.arena.children (transfer g g' i) = [] :=
        childrenIn_eq_nil (Nat.le_of_not_lt (transfer_not_lt hi))
      rw [hnil, hnil', List.map_nil]
  · have hbelow : top ∈ g.arena.parents j := by
      refine (List.mem_cons.mp hj).resolve_left ?_
      rintro rfl
      exact absurd hij (Nat.not_lt.mpr (le_of_mem_spine hi))
    obtain ⟨p, hp⟩ := exists_parent_of_mem_parents hbelow
    refine h.transfer_lt_transfer h' hmem hij (lt_size_of_parent hp) ?_
    rw [← hg.target_of_mem_parents hbelow]
    rcases List.mem_cons.mp hi with rfl | hi
    · rfl
    · exact (hg.target_of_mem_parents hi).symm

theorem InRow.renumbers (hg' : Grounded c s others g') (hmem' : ∀ t ∈ others, t ∈ targets) :
    g.Renumbers (transfer g g') g' where
  arena := h.arena_renumbers hg h' hmem
  compilation_eq := hg'.compilation_eq.trans hg.compilation_eq.symm
  lt_of_mem_roots n hn := (hg.isActor_of_mem_roots hn).1
  actors_eq := by
    refine Dict.ext_get? fun name => ?_
    rw [Dict.get?_mapValues]
    cases hroot : g.actor? name with
    | some root =>
      obtain ⟨ht, hr⟩ := h.holds_of_actor hg hroot
      obtain ⟨other, ho⟩ := h'.exists_root _ (hmem _ ht)
      have hactor := ho.actor_eq
      rw [hg.target_of_actor hroot] at hactor
      rw [show g.actors.get? name = some root from hroot, Option.map_some,
        hr.transfer_root ho]
      exact hactor
    | none =>
      rw [show g.actors.get? name = none from hroot, Option.map_none]
      cases hother : g'.actor? name with
      | none => exact hother
      | some other =>
        obtain ⟨hu, _⟩ := h'.holds_of_actor hg' hother
        obtain ⟨root, hr⟩ := h.exists_root _ (hmem' _ hu)
        have hactor := hr.actor_eq
        rw [hg'.target_of_actor hother, hroot] at hactor
        cases hactor

end Transfer

section Ancestors

theorem pairwise_ancestors (g : LinkGraph) (i : NodeId) : (g.ancestors i).Pairwise fun m n =>
    g.supertypeCount n < g.supertypeCount m ∨
      g.supertypeCount m = g.supertypeCount n ∧ (m : Nat) ≤ n :=
  (g.pairwise_supertypeActors i).filter _

theorem ancestors_perm (g : LinkGraph) (i : NodeId) : (g.ancestors i).Perm
    (((g.compilation.supertypes (g.target i).actor).toList.filterMap g.actor?).filter fun n =>
      (g.target n).entity == (g.target i).entity ||
        g.compilation.implements (g.target i).entity (g.target n).entity) := by
  refine List.Perm.filter _ ?_
  refine ((List.mergeSort_perm _ _).map Prod.snd).trans (List.Perm.of_eq ?_)
  rw [List.map_map]
  exact List.map_id _

variable {c : Compilation} {s : Schematic} {targets others : List Target} {g g' : LinkGraph}

theorem InRow.holds_of_mem_ancestors (hg : Grounded c s targets g) (h : InRow c s targets g)
    {i n : NodeId} (hn : n ∈ g.ancestors i) : (g.target i).HasAncestor c (g.target n) ∧
      g.target n ∈ targets ∧ Holds c s g (g.target n) n := by
  obtain ⟨⟨name, hname, hroot⟩, hentity⟩ := mem_ancestors_iff.mp hn
  rw [hg.compilation_eq] at hname hentity
  exact ⟨⟨hg.target_of_actor hroot ▸ hname, hentity⟩, h.holds_of_actor hg hroot⟩

/-- Ancestors of one actor that are equally near stand in the order of their targets. -/
theorem InRow.sublist_of_lt (hg : Grounded c s targets g) (h : InRow c s targets g)
    {i m n : Nat} (hi : i < g.arena.size) (hm : m ∈ g.ancestors i) (hn : n ∈ g.ancestors i)
    (hcount : g.supertypeCount m = g.supertypeCount n) (hlt : m < n) :
    c.Ties targets (g.target m) (g.target n) ∧ [g.target m, g.target n].Sublist targets := by
  obtain ⟨hm, htm, hrm⟩ := h.holds_of_mem_ancestors hg hm
  obtain ⟨hn, htn, hrn⟩ := h.holds_of_mem_ancestors hg hn
  rw [supertypeCount, supertypeCount, hg.compilation_eq] at hcount
  have hti := List.mem_of_find?_eq_some (hg.keptTarget?_of_lt hi)
  refine ⟨⟨hcount, g.target i, hti, hm, hn⟩, ?_⟩
  have hne : g.target m ≠ g.target n := fun he => by
    rw [he] at hrm
    exact Nat.ne_of_lt hlt (hrm.root_unique hrn)
  refine (sublist_pair_or htm htn hne).resolve_right fun hsub => ?_
  have hle := List.pairwise_iff_forall_sublist.mp h.ascending hsub n m hrn hrm
  omega

section Kept
variable (hg : Grounded c s targets g) (hg' : Grounded c s others g') (h : InRow c s targets g)
  (h' : InRow c s others g') (hmem : ∀ t ∈ targets, t ∈ others)
include hg h h' hmem

/-- Where the order of no tie changes, ancestors that are equally near keep theirs. -/
theorem InRow.transfer_le_transfer
    (hties : targets.Pairwise fun x y => c.Ties targets x y → [x, y].Sublist others) {i m n : Nat}
    (hi : i < g.arena.size) (hm : m ∈ g.ancestors i) (hn : n ∈ g.ancestors i)
    (hcount : g.supertypeCount m = g.supertypeCount n) (hle : m ≤ n) :
    transfer g g' m ≤ transfer g g' n := by
  rcases Nat.lt_or_eq_of_le hle with hlt | rfl
  · obtain ⟨htie, hsub⟩ := h.sublist_of_lt hg hi hm hn hcount hlt
    obtain ⟨_, htm, hrm⟩ := h.holds_of_mem_ancestors hg hm
    obtain ⟨_, htn, hrn⟩ := h.holds_of_mem_ancestors hg hn
    obtain ⟨other, ho⟩ := h'.exists_root _ (hmem _ htm)
    obtain ⟨other', ho'⟩ := h'.exists_root _ (hmem _ htn)
    have hkept := List.pairwise_iff_forall_sublist.mp hties hsub htie
    have hle' := List.pairwise_iff_forall_sublist.mp h'.ascending hkept other other' ho ho'
    rw [hrm.transfer_root ho, hrn.transfer_root ho']
    exact Nat.le_trans (Nat.le_add_right _ _) hle'
  · exact Nat.le_refl _

include hg'

theorem InRow.ancestors_perm_map (hmem' : ∀ t ∈ others, t ∈ targets) (i : NodeId) :
    (g'.ancestors (transfer g g' i)).Perm ((g.ancestors i).map (transfer g g')) := by
  have hσ := h.renumbers hg h' hmem hg' hmem'
  have hfound (names : List String) :
      names.filterMap g'.actor? = (names.filterMap g.actor?).map (transfer g g') := by
    rw [List.map_filterMap]
    exact congrArg (List.filterMap · names) (funext hσ.actor?_eq)
  refine (ancestors_perm g' _).trans (.trans (.of_eq ?_) ((ancestors_perm g i).map _).symm)
  simp only [hfound, hσ.compilation_eq, List.filter_map, Function.comp_def, hσ.target_eq]

theorem InRow.ancestors_eq (hmem' : ∀ t ∈ others, t ∈ targets)
    (hties : targets.Pairwise fun x y => c.Ties targets x y → [x, y].Sublist others) {i : Nat}
    (hi : i < g.arena.size) :
    g'.ancestors (transfer g g' i) = (g.ancestors i).map (transfer g g') := by
  have hσ := h.renumbers hg h' hmem hg' hmem'
  have hcount (n : NodeId) : g'.supertypeCount (transfer g g' n) = g.supertypeCount n := by
    rw [supertypeCount, supertypeCount, hσ.compilation_eq, hσ.target_eq]
  refine (h.ancestors_perm_map hg hg' h' hmem hmem' i).eq_of_pairwise
    (fun (x y : Nat) _ _ hxy hyx => ?_) (pairwise_ancestors g' _)
    (List.pairwise_map.mpr ((pairwise_ancestors g i).imp_of_mem fun {m n} hm hn hmn => ?_))
  · rcases hxy with hlt | ⟨_, hle⟩ <;> rcases hyx with hlt' | ⟨_, hle'⟩
    · omega
    · omega
    · omega
    · exact Nat.le_antisymm hle hle'
  · rw [hcount, hcount]
    rcases hmn with hmore | ⟨heq, hle⟩
    · exact Or.inl hmore
    · exact Or.inr ⟨heq, h.transfer_le_transfer hg h' hmem hties hi hm hn heq hle⟩

end Kept

end Ancestors

end LinkGraph

end ActorLinks
