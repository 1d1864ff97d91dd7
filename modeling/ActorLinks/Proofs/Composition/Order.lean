import ActorLinks.Proofs.Arena.Preorder
import ActorLinks.Proofs.Composition.Search
import Mathlib.Logic.Relation

/-! # The order of composition

What a node composes lies higher in the tree than the node, or as high and before it. And what a
composed node composes the node composes too, because a walk goes by the traits of its segments
only: a choice from the path of the composed node can be walked along the node's own path.
-/
namespace ActorLinks.Arena

/-- What two nodes have to share to be semantically equal. -/
def traits (a : Arena) (n : NodeId) : Category × String × Bool :=
  match a.kind n with
  | .linkType _ e => (.linkType, e.symbol, true)
  | k => (k.category, a.typeName n, a.isImplemented n)

/-- Higher in the tree, or as high and before. -/
def Precedes (a : Arena) (n m : Nat) : Prop :=
  a.depth n < a.depth m ∨ a.depth n = a.depth m ∧ n < m

variable {a : Arena}

theorem semanticEq_iff {m n : NodeId} : a.semanticEq m n = true ↔ a.traits m = a.traits n := by
  by_cases hmn : m = n
  · subst hmn
    simp [semanticEq]
  · cases hm : a.kind m <;> cases hn : a.kind n <;>
      simp [semanticEq, traits, hm, hn, hmn, NodeKind.category, and_comm]

theorem traits_fst (n : NodeId) : (a.traits n).1 = a.category n := by
  unfold traits category
  cases a.kind n <;> rfl

theorem Precedes.trans {q n m : Nat} (hqn : a.Precedes q n) (hnm : a.Precedes n m) :
    a.Precedes q m := by
  unfold Precedes at *
  omega

theorem Precedes.ne {n m : Nat} (h : a.Precedes n m) : n ≠ m := by
  rintro rfl
  unfold Precedes at h
  omega

theorem Precedes.of_parent {i p : NodeId} (hp : a.parent? i = some p) : a.Precedes p i := by
  have hdepth := depth_of_parent hp
  exact Or.inl (by omega)

/-- Steps that only lead to preceding nodes never lead back. -/
theorem not_transGen_self {R : NodeId → NodeId → Prop} (h : ∀ m n, R m n → a.Precedes n m)
    (m : NodeId) : ¬ Relation.TransGen R m m := by
  intro hcycle
  have hprecedes {n : NodeId} (hn : Relation.TransGen R m n) : a.Precedes n m := by
    induction hn with
    | single hstep => exact h _ _ hstep
    | tail _ hstep ih => exact (h _ _ hstep).trans ih
  exact (hprecedes hcycle).ne rfl

section Walk

theorem traits_of_step? {start segment n : NodeId} (h : a.step? start segment = some n) :
    a.traits n = a.traits segment :=
  semanticEq_iff.mp (List.find?_some (p := fun c => a.semanticEq c segment) h)

/-- A walk ends at a node of a category that the path has. -/
theorem Reaches.exists_segment {start n : NodeId} {path : List NodeId}
    (h : a.Reaches start path n) : ∃ q ∈ path, a.category q = a.category n := by
  obtain ⟨segments, hne, hsub, hwalk⟩ := h
  obtain ⟨front, q, rfl⟩ : ∃ front q, segments = front ++ [q] :=
    ⟨_, _, (List.dropLast_append_getLast hne).symm⟩
  rw [walk?_append] at hwalk
  obtain ⟨_, _, hstep⟩ := Option.bind_eq_some_iff.mp hwalk
  obtain ⟨_, hq, hsame⟩ := Option.bind_eq_some_iff.mp hstep
  cases hsame
  have htraits := congrArg Prod.fst (traits_of_step? hq)
  rw [traits_fst, traits_fst] at htraits
  exact ⟨q, hsub.subset (by simp), htraits.symm⟩

theorem step?_congr {start x y : NodeId} (h : a.traits x = a.traits y) :
    a.step? start x = a.step? start y := by
  have hsame : (fun c => a.semanticEq c x) = fun c => a.semanticEq c y := by
    funext c
    rw [Bool.eq_iff_iff, semanticEq_iff, semanticEq_iff, h]
  rw [step?, step?, hsame]

theorem walk?_congr {start : NodeId} {xs ys : List NodeId}
    (h : xs.map a.traits = ys.map a.traits) : a.walk? start xs = a.walk? start ys := by
  induction xs generalizing start ys with
  | nil =>
    cases ys with
    | nil => rfl
    | cons => cases h
  | cons x xs ih =>
    cases ys with
    | nil => cases h
    | cons y ys =>
      obtain ⟨hxy, hrest⟩ := List.cons.inj h
      rw [walk?, walk?, step?_congr hxy]
      congr 1
      funext n
      exact ih hrest

theorem start_mem_spine_of_walk? {start n : NodeId} {segments : List NodeId}
    (h : a.walk? start segments = some n) : start ∈ a.spine n := by
  induction segments generalizing start with
  | nil =>
    cases h
    exact self_mem_spine
  | cons x xs ih =>
    obtain ⟨c, hc, hn⟩ := Option.bind_eq_some_iff.mp h
    exact parent_mem_spine (parent_of_step? hc) (ih hn)

/-- The first child that agrees with a child is that child or one before it. -/
theorem step?_le {start segment n : NodeId} (hs : a.parent? segment = some start)
    (h : a.step? start segment = some n) : n ≤ segment := by
  obtain ⟨_, before, after, hsplit, hnone⟩ := List.find?_eq_some_iff_append.mp h
  have hmem : segment ∈ before ++ n :: after := hsplit ▸ mem_children_iff.mpr hs
  have hascending := a.children_ascending start
  rw [show childrenIn a.nodes start = before ++ n :: after from hsplit] at hascending
  rcases List.mem_append.mp hmem with hbefore | hafter
  · have hself : a.semanticEq segment segment = true := semanticEq_iff.mpr rfl
    have hno := hnone segment hbefore
    simp [hself] at hno
  · rcases List.mem_cons.mp hafter with rfl | hafter
    · exact Nat.le_refl _
    · have hrest := (List.pairwise_append.mp hascending).2.1
      exact Nat.le_of_lt ((List.pairwise_cons.mp hrest).1 segment hafter)

/-- A walk along a whole path ends at the end of the path or before it. -/
theorem Preordered.walk?_le (h : a.Preordered) {start n m : NodeId} {path : List NodeId}
    (hpath : a.Descends start path) (hm : path.getLast? = some m)
    (hn : a.walk? start path = some n) : n ≤ m := by
  induction path generalizing start with
  | nil => cases hm
  | cons x xs ih =>
    obtain ⟨hx, hxs⟩ := List.isChain_cons_cons.mp hpath
    obtain ⟨c, hc, hrest⟩ := Option.bind_eq_some_iff.mp hn
    rcases Nat.lt_or_eq_of_le (step?_le hx hc) with hlt | rfl
    · -- the walk leaves the path for an earlier sibling and stays below it
      have hbefore := h.lt_of_siblings (parent_of_step? hc) hx hlt (start_mem_spine_of_walk? hrest)
      have hle : x ≤ m := le_of_mem_spine (Descends.start_mem_spine hxs hm)
      exact Nat.le_of_lt (Nat.lt_of_lt_of_le hbefore hle)
    · cases xs with
      | nil =>
        cases hm
        cases hrest
        exact Nat.le_refl _
      | cons y ys => exact ih hxs hm hrest

end Walk

section Nested
variable (h : a.Nested)
include h

/-- The path of a node that a walk from an actor finds has the traits of the walked segments. -/
theorem Nested.traits_pathBelow {root n : NodeId} {segments : List NodeId}
    (hroot : (a.kind root).isActor = true) (hne : segments ≠ [])
    (hn : a.walk? root segments = some n) :
    (a.pathBelow n).map a.traits = segments.map a.traits ∧ a.rootActor? n = some root ∧
      (a.kind n).isActor = false := by
  induction segments using List.reverseRecOn generalizing n with
  | nil => exact absurd rfl hne
  | append_singleton xs x ih =>
    rw [walk?_append] at hn
    obtain ⟨m, hm, hstep⟩ := Option.bind_eq_some_iff.mp hn
    obtain ⟨_, hx, hsame⟩ := Option.bind_eq_some_iff.mp hstep
    cases hsame
    have hp := parent_of_step? hx
    have hactor := h.isActor_of_parent hp
    have htraits := traits_of_step? hx
    rcases eq_or_ne xs [] with rfl | hxs
    · cases hm
      refine ⟨?_, rootActor?_of_actor hp hroot, hactor⟩
      rw [pathBelow_of_actor hp hroot, List.nil_append, List.map_singleton, List.map_singleton,
        htraits]
    · obtain ⟨hpath, hroot', hk⟩ := ih hxs hm
      refine ⟨?_, (rootActor?_of_parent hp hk).trans hroot', hactor⟩
      rw [pathBelow_of_parent hp hk, List.map_append, List.map_append, hpath, List.map_singleton,
        List.map_singleton, htraits]

/-- Only nodes below an actor compose something. -/
theorem Nested.mem_composition_true_iff {n m : NodeId} :
    n ∈ a.composition m true none ↔ ∃ root, a.rootActor? m = some root ∧
      (a.kind root).isActor = true ∧ a.Descends root (a.pathBelow m) ∧
      a.Reaches root (a.pathBelow m) n ∧ n ≠ m := by
  have hiff {root : NodeId} (hroot : a.rootActor? m = some root)
      (hpath : a.Descends root (a.pathBelow m)) := h.mem_composition_iff (n := n) hroot hpath true
  constructor
  · intro hn
    cases hroot : a.rootActor? m with
    | none => simp [composition, hroot] at hn
    | some root =>
      obtain ⟨p, hp⟩ : ∃ p, a.parent? m = some p := by
        cases hp : a.parent? m with
        | none => simp [rootActor?, parents_of_none hp] at hroot
        | some p => exact ⟨p, rfl⟩
      obtain ⟨_, hroot', hactor, hpath⟩ :=
        h.exists_root (lt_size_of_parent hp) (h.isActor_of_parent hp)
      obtain rfl := Option.some.inj (hroot'.symm.trans hroot)
      obtain ⟨hreach, hne⟩ := (hiff hroot hpath).mp hn
      exact ⟨_, rfl, hactor, hpath, hreach, hne rfl⟩
  · rintro ⟨root, hroot, _, hpath, hreach, hne⟩
    exact (hiff hroot hpath).mpr ⟨hreach, fun _ => hne⟩

theorem Nested.precedes_of_mem_composition (hpre : a.Preordered) {n m : NodeId}
    (hn : n ∈ a.composition m true none) : a.Precedes n m := by
  obtain ⟨root, _, _, hpath, ⟨segments, _, hsub, hwalk⟩, hne⟩ :=
    h.mem_composition_true_iff.mp hn
  have hlast := getLast?_pathBelow (a := a) m
  have hend := depth_of_walk? hwalk
  have hdepth := hpath.depth_getLast hlast
  rcases Nat.lt_or_eq_of_le hsub.length_le with hlt | hlen
  · exact Or.inl (by omega)
  · rw [hsub.eq_of_length hlen] at hwalk hend
    have hle := hpre.walk?_le hpath hlast hwalk
    exact Or.inr ⟨by omega, Nat.lt_of_le_of_ne hle hne⟩

theorem Nested.composition_trans (hpre : a.Preordered) {q n m : NodeId}
    (hq : q ∈ a.composition n true none) (hn : n ∈ a.composition m true none) :
    q ∈ a.composition m true none := by
  have hne := ((h.precedes_of_mem_composition hpre hq).trans
    (h.precedes_of_mem_composition hpre hn)).ne
  obtain ⟨root, hroot, hactor, hpath, ⟨segments, hnil, hsub, hwalk⟩, _⟩ :=
    h.mem_composition_true_iff.mp hn
  obtain ⟨_, hroot', _, _, ⟨chosen, hnil', hsub', hwalk'⟩, _⟩ := h.mem_composition_true_iff.mp hq
  obtain ⟨htraits, hsame, _⟩ := h.traits_pathBelow hactor hnil hwalk
  obtain rfl := Option.some.inj (hsame.symm.trans hroot')
  -- the choice from the path of `n` has a counterpart among the segments that lead to `n`
  have hmap := hsub'.map a.traits
  rw [htraits] at hmap
  obtain ⟨counterpart, hsub'', heq⟩ := List.sublist_map_iff.mp hmap
  refine h.mem_composition_true_iff.mpr
    ⟨_, hroot, hactor, hpath, ⟨counterpart, ?_, hsub''.trans hsub, ?_⟩, hne⟩
  · rintro rfl
    exact hnil' (List.map_eq_nil_iff.mp heq)
  · rw [← walk?_congr heq]
    exact hwalk'

end Nested

end ActorLinks.Arena
