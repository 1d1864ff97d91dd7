import ActorLinks.Proofs.Visit.Order
import Mathlib.Data.List.Range

/-! # Pre-order

Planting adds each node below the newest one or below one of its parents. So the ids of an arena
run in pre-order: what stands at or below a node fills one stretch of ids from the node on, and
the stretches of siblings follow one another.
-/
namespace ActorLinks

/-- An ascending list without gaps is a range. -/
theorem eq_range'_of_ascending {first : Nat} {rest : List Nat}
    (hrest : (first :: rest).Pairwise (· < ·))
    (hclosed : ∀ m ∈ first :: rest, ∀ k, first ≤ k → k ≤ m → k ∈ first :: rest) :
    rest = List.range' (first + 1) rest.length := by
  induction rest generalizing first with
  | nil => rfl
  | cons next rest ih =>
    obtain ⟨hfirst, hnext⟩ := List.pairwise_cons.mp hrest
    have hlt : first < next := hfirst next List.mem_cons_self
    have hle {m : Nat} (hm : m ∈ next :: rest) : next ≤ m := by
      rcases List.mem_cons.mp hm with rfl | hm
      · exact Nat.le_refl _
      · exact Nat.le_of_lt ((List.pairwise_cons.mp hnext).1 m hm)
    have hmem : first + 1 ∈ next :: rest := by
      have hsome := hclosed next (List.mem_cons_of_mem _ List.mem_cons_self) (first + 1)
        (Nat.le_succ _) hlt
      exact (List.mem_cons.mp hsome).resolve_left (Nat.ne_of_gt (Nat.lt_succ_self _))
    obtain rfl : next = first + 1 := Nat.le_antisymm (hle hmem) hlt
    rw [List.length_cons, List.range'_succ]
    congr 1
    refine ih hnext fun m hm k hk hkm => ?_
    have hin := hclosed m (List.mem_cons_of_mem _ hm) k (Nat.le_of_succ_le hk) hkm
    exact (List.mem_cons.mp hin).resolve_left (Nat.ne_of_gt hk)

/-- Whichever of two items stands first. -/
theorem sublist_pair_or {α : Type} {l : List α} {x y : α} (hx : x ∈ l) (hy : y ∈ l)
    (hne : x ≠ y) : [x, y].Sublist l ∨ [y, x].Sublist l := by
  induction l with
  | nil => cases hx
  | cons z zs ih =>
    rcases List.mem_cons.mp hx with rfl | hxzs
    · have hyzs := (List.mem_cons.mp hy).resolve_left (Ne.symm hne)
      exact Or.inl ((List.singleton_sublist.mpr hyzs).cons_cons x)
    · rcases List.mem_cons.mp hy with rfl | hyzs
      · exact Or.inr ((List.singleton_sublist.mpr hxzs).cons_cons y)
      · exact (ih hxzs hyzs).imp (·.cons z) (·.cons z)

namespace Arena

/-- A node and its parents, nearest first. -/
def spine (a : Arena) (i : NodeId) : List NodeId := i :: a.parents i

/-- Every parent is the node before its child or stands above that one. -/
def Preordered (a : Arena) : Prop :=
  ∀ i p : Nat, a.parent? (i + 1) = some p → p ∈ a.spine i

section Spine
variable {a : Arena} {i j p top : NodeId}

theorem self_mem_spine : i ∈ a.spine i := List.mem_cons_self

theorem spine_of_parent (hp : a.parent? i = some p) : a.spine i = i :: a.spine p := by
  rw [spine, spine, parents_of_some hp]

theorem le_of_mem_spine {i top : Nat} (h : top ∈ a.spine i) : top ≤ i := by
  rcases List.mem_cons.mp h with rfl | h
  · exact Nat.le_refl _
  · exact Nat.le_of_lt (lt_of_mem_parents h)

theorem mem_spine_iff_of_parent (hp : a.parent? i = some p) :
    top ∈ a.spine i ↔ top = i ∨ top ∈ a.spine p := by
  rw [spine_of_parent hp, List.mem_cons]

theorem mem_spine_trans (htop : top ∈ a.spine j) (h : j ∈ a.spine i) : top ∈ a.spine i := by
  induction i using Nat.strongRecOn with
  | ind i ih =>
    rcases List.mem_cons.mp h with rfl | hmem
    · exact htop
    · cases hq : a.parent? i with
      | none => simp [parents_of_none hq] at hmem
      | some q =>
        have hj : j ∈ a.spine q := by rwa [parents_of_some hq] at hmem
        exact (mem_spine_iff_of_parent hq).mpr (Or.inr (ih q (lt_of_parent hq) hj))

theorem parent_mem_spine (hp : a.parent? j = some p) (h : j ∈ a.spine i) : p ∈ a.spine i :=
  mem_spine_trans ((mem_spine_iff_of_parent hp).mpr (Or.inr self_mem_spine)) h

theorem depth_lt_of_mem_parents (h : top ∈ a.parents i) : a.depth top < a.depth i := by
  induction i using Nat.strongRecOn with
  | ind i ih =>
    cases hp : a.parent? i with
    | none => simp [parents_of_none hp] at h
    | some p =>
      have hdepth := depth_of_parent hp
      rw [parents_of_some hp] at h
      rcases List.mem_cons.mp h with rfl | h
      · omega
      · have hlt := ih p (lt_of_parent hp) h
        omega

theorem mem_descendants_iff : i ∈ a.descendants top ↔ top ∈ a.spine i := by
  constructor
  · intro h
    induction top using children_induction (a := a) with
    | node top ih =>
      rw [descendants_eq] at h
      rcases List.mem_cons.mp h with rfl | h
      · exact self_mem_spine
      · obtain ⟨n, hn, hin⟩ := List.mem_flatMap.mp h
        exact parent_mem_spine (mem_children_iff.mp hn) (ih n hn hin)
  · intro h
    induction i using Nat.strongRecOn with
    | ind i ih =>
      rcases List.mem_cons.mp h with rfl | hmem
      · exact self_mem_descendants _
      · cases hp : a.parent? i with
        | none => simp [parents_of_none hp] at hmem
        | some p =>
          have htop : top ∈ a.spine p := by rwa [parents_of_some hp] at hmem
          exact mem_descendants_of_parent hp (ih p (lt_of_parent hp) htop)

theorem Descends.start_mem_spine {start m : NodeId} {path : List NodeId}
    (h : a.Descends start path) (hm : (start :: path).getLast? = some m) : start ∈ a.spine m := by
  induction path generalizing start with
  | nil =>
    cases hm
    exact self_mem_spine
  | cons x xs ih =>
    obtain ⟨hx, hxs⟩ := List.isChain_cons_cons.mp h
    exact parent_mem_spine hx (ih hxs hm)

end Spine

section Planting
variable {a b : Arena} {parent : Option NodeId} {added : List NodeId} {target : Target}

theorem Grown.parents_eq (h : Grown parent added a b) {i : NodeId} (hi : i < a.size) :
    b.parents i = a.parents i := by
  induction i using Nat.strongRecOn with
  | ind i ih =>
    have hsame := h.parent_eq i hi
    cases hp : a.parent? i with
    | none => rw [parents_of_none hp, parents_of_none (hsame.trans hp)]
    | some p =>
      have hlt := lt_of_parent hp
      rw [parents_of_some hp, parents_of_some (hsame.trans hp), ih p hlt (Nat.lt_trans hlt hi)]

/-- The newest node is `p` or stands below it. -/
def OnEdge (a : Arena) (p : NodeId) : Prop := p < a.size ∧ p ∈ a.spine (a.size - 1)

theorem OnEdge.of_child {c p : NodeId} (h : a.OnEdge c) (hp : a.parent? c = some p) :
    a.OnEdge p :=
  ⟨Nat.lt_trans (lt_of_parent hp) h.1, parent_mem_spine hp h.2⟩

theorem Preordered.alloc {kind : NodeKind} (h : a.Preordered)
    (hedge : ∀ p ∈ parent, a.OnEdge p) : (a.alloc parent target kind).Preordered := by
  have hparent : ∀ p ∈ parent, p < a.size := fun p hp => (hedge p hp).1
  have hgrown : Grown parent [a.size] a (a.alloc parent target kind) := grown_alloc hparent
  intro i p hp
  have hi : i < a.size := by
    have hlt := lt_size_of_parent hp
    rw [size_alloc] at hlt
    omega
  have hspine : (a.alloc parent target kind).spine i = a.spine i := by
    rw [spine, spine, hgrown.parents_eq hi]
  rw [hspine]
  rw [parent?_alloc hparent] at hp
  split at hp
  · next hlast =>
    have hedge' := (hedge p hp).2
    rwa [← hlast, Nat.add_sub_cancel] at hedge'
  · exact h i p hp

mutual

theorem Preordered.plant : ∀ (t : LinkTree) {a : Arena} {parent : Option NodeId},
    a.Preordered → (∀ p ∈ parent, a.OnEdge p) →
    (a.plant target parent t).Preordered ∧ (a.plant target parent t).OnEdge a.size
  | .node kind branches, a, parent, h, hedge => by
    have hnew : (a.alloc parent target kind).OnEdge a.size := by
      constructor
      · simp
      · rw [size_alloc, Nat.add_sub_cancel]
        exact self_mem_spine
    rw [Arena.plant]
    exact Preordered.plantAll branches (h.alloc hedge) hnew

theorem Preordered.plantAll : ∀ (ts : List LinkTree) {a : Arena} {p : NodeId},
    a.Preordered → a.OnEdge p →
    (a.plantAll target p ts).Preordered ∧ (a.plantAll target p ts).OnEdge p
  | [], a, p, h, hedge => by
    rw [Arena.plantAll]
    exact ⟨h, hedge⟩
  | t :: ts, a, p, h, hedge => by
    have hnext : ∀ q ∈ some p, a.OnEdge q := by
      intro q hq
      cases hq
      exact hedge
    have hchild : (a.plant target (some p) t).parent? a.size = some p :=
      (plant_grown t fun q hq => (hnext q hq).1).2.1
    obtain ⟨hfirst, hlast⟩ := Preordered.plant t h hnext
    rw [Arena.plantAll]
    exact Preordered.plantAll ts hfirst (hlast.of_child hchild)

end

end Planting

section Stretches
variable {a : Arena} (h : a.Preordered)
include h

/-- Between a node and one that stands below it, all stand below it. -/
theorem Preordered.mem_spine_of_le {top i j : Nat} (hj : top ∈ a.spine j) (htop : top ≤ i)
    (hij : i ≤ j) : top ∈ a.spine i := by
  induction j with
  | zero =>
    have hi : i = 0 := by omega
    rwa [hi]
  | succ j ih =>
    rcases Nat.lt_or_eq_of_le hij with hlt | rfl
    · refine ih ?_ (by omega)
      have hne : top ≠ j + 1 := by omega
      cases hp : a.parent? (j + 1) with
      | none =>
        rw [spine, parents_of_none hp, List.mem_singleton] at hj
        exact absurd hj hne
      | some p =>
        have habove := ((mem_spine_iff_of_parent hp).mp hj).resolve_left hne
        exact mem_spine_trans habove (h j p hp)
    · exact hj

/-- All that stands at or below a node comes before the later nodes of the same depth. -/
theorem Preordered.lt_of_depth_eq {c d n : Nat} (hdepth : a.depth c = a.depth d) (hcd : c < d)
    (hn : c ∈ a.spine n) : n < d := by
  rcases Nat.lt_or_ge n d with hlt | hge
  · exact hlt
  · have hmem := h.mem_spine_of_le hn (Nat.le_of_lt hcd) hge
    rcases List.mem_cons.mp hmem with heq | hmem
    · exact absurd heq (Nat.ne_of_lt hcd)
    · have hlt := depth_lt_of_mem_parents hmem
      omega

theorem Preordered.lt_of_siblings {c d p n : Nat} (hc : a.parent? c = some p)
    (hd : a.parent? d = some p) (hcd : c < d) (hn : c ∈ a.spine n) : n < d :=
  h.lt_of_depth_eq ((depth_of_parent hc).trans (depth_of_parent hd).symm) hcd hn

theorem Preordered.pairwise_descendants (top : NodeId) :
    (a.descendants top).Pairwise (· < ·) := by
  induction top using children_induction (a := a) with
  | node top ih =>
    rw [descendants_eq, List.pairwise_cons, List.pairwise_flatMap]
    refine ⟨fun n hn => ?_, fun c hc => ih c hc, ?_⟩
    · obtain ⟨c, hc, hnc⟩ := List.mem_flatMap.mp hn
      have hle := le_of_mem_spine (mem_descendants_iff.mp hnc)
      exact Nat.lt_of_lt_of_le (lt_of_mem_children hc).1 hle
    · refine (a.children_ascending top).imp_of_mem fun {c d} hc hd hcd m hm n hn => ?_
      have hlt := h.lt_of_siblings (mem_children_iff.mp hc) (mem_children_iff.mp hd) hcd
        (mem_descendants_iff.mp hm)
      exact Nat.lt_of_lt_of_le hlt (le_of_mem_spine (mem_descendants_iff.mp hn))

/-- A node and all below it fill one stretch of ids. -/
theorem Preordered.descendants_eq_range' (top : NodeId) :
    a.descendants top = List.range' top (a.descendants top).length := by
  have hascending := h.pairwise_descendants top
  rw [descendants_eq] at hascending ⊢
  rw [List.length_cons, List.range'_succ]
  congr 1
  refine eq_range'_of_ascending hascending fun m hm k hk hkm => ?_
  rw [← descendants_eq, mem_descendants_iff] at hm ⊢
  exact h.mem_spine_of_le hm hk hkm

end Stretches

end Arena

namespace LinkGraph
variable {c : Compilation} {s : Schematic} {targets : List Target}

theorem preordered_addTarget {g : LinkGraph} {t : Target} (h : g.arena.Preordered) :
    (g.addTarget t).arena.Preordered := by
  rw [addTarget]
  split
  · exact h
  · exact (Arena.Preordered.plant _ h (by simp)).1

theorem preordered_ofTargets : (ofTargets c s targets).arena.Preordered := by
  have hempty : Arena.empty.Preordered := by
    intro i p hp
    simp [Arena.parent?, Arena.empty, parentIn] at hp
  have hfold (g : LinkGraph) (h : g.arena.Preordered) :
      (targets.foldl addTarget g).arena.Preordered := by
    induction targets generalizing g with
    | nil => exact h
    | cons t ts ih => exact ih _ (preordered_addTarget h)
  exact hfold _ hempty

end LinkGraph

end ActorLinks
