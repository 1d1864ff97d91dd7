import ActorLinks.Composition
import ActorLinks.Proofs.Graph.Trees
import Mathlib.Data.List.Chain

/-! # Chains of parents

In a nested arena the parents of a node end in the one actor above it. The path below that actor
leads from child to child down to the node, and a walk ends as much deeper as it has segments.
-/
namespace ActorLinks.Arena

/-- Each node of the path is a child of the one before it, the first one of `start`. -/
def Descends (a : Arena) (start : NodeId) (path : List NodeId) : Prop :=
  (start :: path).IsChain fun m n => a.parent? n = some m

/-- The nodes from just below the nearest actor down to `id`. -/
def pathBelow (a : Arena) (id : NodeId) : List NodeId :=
  (id :: (a.parents id).takeWhile fun p => !(a.kind p).isActor).reverse

def depth (a : Arena) (id : NodeId) : Nat := (a.parents id).length

variable {a : Arena}

theorem depth_of_parent {i p : NodeId} (h : a.parent? i = some p) : a.depth i = a.depth p + 1 := by
  rw [depth, parents_of_some h]
  rfl

theorem parent_of_step? {start segment n : NodeId} (h : a.step? start segment = some n) :
    a.parent? n = some start := mem_children_iff.mp (List.mem_of_find?_eq_some h)

theorem walk?_append (start : NodeId) (xs ys : List NodeId) :
    a.walk? start (xs ++ ys) = (a.walk? start xs).bind fun n => a.walk? n ys := by
  induction xs generalizing start with
  | nil => rfl
  | cons x xs ih =>
    cases h : a.step? start x with
    | none => simp [walk?, h]
    | some n => simp [walk?, h, ih]

theorem depth_of_walk? {start n : NodeId} {segments : List NodeId}
    (h : a.walk? start segments = some n) : a.depth n = a.depth start + segments.length := by
  induction segments generalizing start with
  | nil =>
    cases h
    rfl
  | cons x xs ih =>
    obtain ⟨m, hm, hn⟩ := Option.bind_eq_some_iff.mp h
    have hstep := depth_of_parent (parent_of_step? hm)
    have hrest := ih hn
    simp only [List.length_cons]
    omega

theorem depth_of_none {i : NodeId} (h : a.parent? i = none) : a.depth i = 0 := by
  rw [depth, parents_of_none h]
  rfl

/-- A walk that takes a step ends below something. -/
theorem exists_parent_of_walk? {start n : NodeId} {segments : List NodeId}
    (h : a.walk? start segments = some n) (hne : segments ≠ []) : ∃ p, a.parent? n = some p := by
  apply Option.ne_none_iff_exists'.mp
  intro hnone
  have hdepth := depth_of_walk? h
  have hlength := List.length_pos_iff.mpr hne
  rw [depth_of_none hnone] at hdepth
  omega

theorem depth_of_equivalent? {i start n : NodeId} (h : a.equivalent? i start = some n) :
    a.depth n = a.depth start + a.depth i := by
  rw [depth_of_walk? h]
  simp [depth]

theorem equivalent?_of_parent {i p : NodeId} (hp : a.parent? i = some p) (start : NodeId) :
    a.equivalent? i start = (a.equivalent? p start).bind fun q => a.step? q i := by
  have hsegments : ((a.parents i).reverse ++ [i]).drop 1
      = ((a.parents p).reverse ++ [p]).drop 1 ++ [i] := by
    rw [parents_of_some hp, List.reverse_cons, List.drop_append_of_le_length (by simp)]
  rw [equivalent?, hsegments, walk?_append]
  refine congrArg _ (funext fun q => ?_)
  rw [walk?]
  cases a.step? q i <;> rfl

theorem equivalent?_of_orphan {i : NodeId} (hp : a.parent? i = none) (start : NodeId) :
    a.equivalent? i start = some start := by
  rw [equivalent?, parents_of_none hp]
  rfl

theorem Descends.depth_getLast {start : NodeId} {path : List NodeId} (h : a.Descends start path)
    {id : NodeId} (hid : path.getLast? = some id) : a.depth id = a.depth start + path.length := by
  induction path generalizing start with
  | nil => cases hid
  | cons x xs ih =>
    obtain ⟨hx, hxs⟩ := List.isChain_cons_cons.mp h
    have hstep := depth_of_parent hx
    cases xs with
    | nil =>
      cases hid
      exact hstep
    | cons y ys =>
      have hrest := ih hxs hid
      simp only [List.length_cons] at hrest ⊢
      omega

theorem pathBelow_of_actor {i p : NodeId} (hp : a.parent? i = some p)
    (hk : (a.kind p).isActor = true) : a.pathBelow i = [i] := by
  simp [pathBelow, parents_of_some hp, hk]

theorem pathBelow_of_parent {i p : NodeId} (hp : a.parent? i = some p)
    (hk : (a.kind p).isActor = false) : a.pathBelow i = a.pathBelow p ++ [i] := by
  simp [pathBelow, parents_of_some hp, hk]

theorem getLast?_pathBelow (i : NodeId) : (a.pathBelow i).getLast? = some i := by simp [pathBelow]

theorem mem_parents_of_parent {i p : NodeId} (h : a.parent? i = some p) : p ∈ a.parents i := by
  rw [parents_of_some h]
  exact List.mem_cons_self

theorem lt_of_mem_parents {i p : Nat} (h : p ∈ a.parents i) : p < i := by
  induction i using Nat.strongRecOn with
  | ind i ih =>
    cases hq : a.parent? i with
    | none => simp [parents_of_none hq] at h
    | some q =>
      have hqi := lt_of_parent hq
      rw [parents_of_some hq] at h
      rcases List.mem_cons.mp h with rfl | h
      · exact hqi
      · exact Nat.lt_trans (ih q hqi h) hqi

theorem lt_size_of_mem_parents {i p : NodeId} (hp : p ∈ a.parents i) : p < a.size := by
  cases hparent : a.parent? i with
  | none => simp [parents_of_none hparent] at hp
  | some q => exact Nat.lt_trans (lt_of_mem_parents hp) (lt_size_of_parent hparent)

theorem le_of_mem_pathBelow {i n : Nat} (h : n ∈ a.pathBelow i) : n ≤ i := by
  rw [pathBelow, List.mem_reverse] at h
  rcases List.mem_cons.mp h with rfl | h
  · exact Nat.le_refl _
  · exact Nat.le_of_lt (lt_of_mem_parents ((List.takeWhile_sublist _).subset h))

theorem rootActor?_of_actor {i p : NodeId} (hp : a.parent? i = some p)
    (hk : (a.kind p).isActor = true) : a.rootActor? i = some p := by
  simp [rootActor?, parents_of_some hp, hk]

theorem rootActor?_of_parent {i p : NodeId} (hp : a.parent? i = some p)
    (hk : (a.kind p).isActor = false) : a.rootActor? i = a.rootActor? p := by
  simp [rootActor?, parents_of_some hp, hk]

theorem exists_parent_of_mem_parents {i n : NodeId} (h : n ∈ a.parents i) :
    ∃ p, a.parent? i = some p := by
  cases hp : a.parent? i with
  | none => simp [parents_of_none hp] at h
  | some p => exact ⟨p, rfl⟩

theorem exists_parent_of_rootActor? {i root : NodeId} (h : a.rootActor? i = some root) :
    ∃ p, a.parent? i = some p := exists_parent_of_mem_parents (List.mem_of_find?_eq_some h)

theorem lt_size_of_rootActor? {i root : NodeId} (h : a.rootActor? i = some root) : i < a.size := by
  obtain ⟨p, hp⟩ := exists_parent_of_rootActor? h
  exact lt_size_of_parent hp

theorem Descends.snoc {start i p : NodeId} {path : List NodeId} (h : a.Descends start path)
    (hlast : (start :: path).getLast? = some p) (hp : a.parent? i = some p) :
    a.Descends start (path ++ [i]) := by
  rw [Descends, ← List.cons_append]
  refine List.IsChain.append h (List.isChain_singleton i) ?_
  intro m hm n hn
  rw [hlast] at hm
  cases hm
  cases hn
  exact hp

theorem getLast?_cons_pathBelow (start i : NodeId) : (start :: a.pathBelow i).getLast? = some i := by
  rw [List.getLast?_cons, getLast?_pathBelow]
  rfl

theorem Descends.below_parent {start i p : NodeId} (h : a.Descends start (a.pathBelow p))
    (hp : a.parent? i = some p) (hk : (a.kind p).isActor = false) :
    a.Descends start (a.pathBelow i) := by
  rw [pathBelow_of_parent hp hk]
  exact h.snoc (getLast?_cons_pathBelow start p) hp

section Nested
variable (h : a.Nested)
include h

theorem Nested.isActor_iff {i : NodeId} (hi : i < a.size) :
    (a.kind i).isActor = true ↔ a.parent? i = none := by
  rw [NodeKind.isActor, beq_iff_eq, ← category]
  constructor
  · intro hk
    cases hp : a.parent? i with
    | none => rfl
    | some p =>
      have hadmits := h.admits hp
      rw [hk] at hadmits
      exact absurd hadmits (Category.actor_not_mem_admits _)
  · exact h.actor_of_orphan i hi

theorem Nested.isActor_of_parent {i p : NodeId} (hp : a.parent? i = some p) :
    (a.kind i).isActor = false := by
  rw [Bool.eq_false_iff]
  intro hk
  rw [(h.isActor_iff (lt_size_of_parent hp)).mp hk] at hp
  cases hp

theorem Nested.category_ne_actor {i p : NodeId} (hp : a.parent? i = some p) :
    a.category i ≠ .actor := beq_eq_false_iff_ne.mp (h.isActor_of_parent hp)

theorem Nested.orphan_of_isActor {i : NodeId} (hk : (a.kind i).isActor = true) :
    a.parent? i = none := by
  cases hp : a.parent? i with
  | none => rfl
  | some p =>
    rw [h.isActor_of_parent hp] at hk
    cases hk

/-- Nothing but an actor is not below an actor. -/
theorem Nested.isActor_of_rootActor? {i root : NodeId} (hroot : a.rootActor? i = some root) :
    (a.kind i).isActor = false := by
  cases hparent : a.parent? i with
  | none => simp [rootActor?, parents_of_none hparent] at hroot
  | some p => exact h.isActor_of_parent hparent

theorem Nested.rootActor?_of_mem_parents {i j root : NodeId} (hj : j ∈ a.parents i)
    (hroot : a.rootActor? j = some root) : a.rootActor? i = some root := by
  induction i using Nat.strongRecOn with
  | ind i ih =>
    cases hp : a.parent? i with
    | none => simp [parents_of_none hp] at hj
    | some p =>
      rw [parents_of_some hp] at hj
      have habove : a.rootActor? p = some root := by
        rcases List.mem_cons.mp hj with rfl | hj
        · exact hroot
        · exact ih p (lt_of_parent hp) hj
      rw [rootActor?_of_parent hp (h.isActor_of_rootActor? habove), habove]

theorem Nested.rootActor?_of_walk? {start n : NodeId} {segments : List NodeId}
    (hk : (a.kind start).isActor = true) (hn : a.walk? start segments = some n) (hne : n ≠ start) :
    a.rootActor? n = some start := by
  induction segments using List.reverseRecOn generalizing n with
  | nil =>
    cases hn
    exact absurd rfl hne
  | append_singleton segments x ih =>
    rw [walk?_append] at hn
    obtain ⟨m, hm, hstep⟩ := Option.bind_eq_some_iff.mp hn
    obtain ⟨k, hchild, hlast⟩ := Option.bind_eq_some_iff.mp hstep
    cases hlast
    have hp := parent_of_step? hchild
    by_cases hms : m = start
    · subst hms
      exact rootActor?_of_actor hp hk
    · have hroot := ih hm hms
      rw [rootActor?_of_parent hp (h.isActor_of_rootActor? hroot), hroot]

theorem Nested.category_ne_backLink {i p : NodeId} (hp : a.parent? i = some p) :
    a.category p ≠ .backLink := by
  intro hcat
  have hadmits := h.admits hp
  rw [hcat] at hadmits
  cases hadmits

/-- Below an actor, the path leads down to the node from the actor that is nearest. -/
theorem Nested.exists_root {i : NodeId} (hi : i < a.size) (hk : (a.kind i).isActor = false) :
    ∃ root, a.rootActor? i = some root ∧ (a.kind root).isActor = true ∧
      a.Descends root (a.pathBelow i) := by
  induction i using Nat.strongRecOn with
  | ind i ih =>
    cases hp : a.parent? i with
    | none =>
      have hroot := (h.isActor_iff hi).mpr hp
      rw [hk] at hroot
      cases hroot
    | some p =>
      have hpi := lt_of_parent hp
      cases hkp : (a.kind p).isActor with
      | true =>
        refine ⟨p, rootActor?_of_actor hp hkp, hkp, ?_⟩
        rw [pathBelow_of_actor hp hkp]
        exact List.isChain_pair.mpr hp
      | false =>
        obtain ⟨root, hroot, hactor, hpath⟩ := ih p hpi (Nat.lt_trans hpi hi) hkp
        refine ⟨root, (rootActor?_of_parent hp hkp).trans hroot, hactor, ?_⟩
        exact hpath.below_parent hp hkp

theorem Nested.takeWhile_parents (i : NodeId) :
    ((a.parents i).takeWhile fun p => a.category p != .actor && a.category p != .backLink)
      = (a.parents i).takeWhile fun p => !(a.kind p).isActor := by
  induction i using Nat.strongRecOn with
  | ind i ih =>
    cases hp : a.parent? i with
    | none => simp [parents_of_none hp]
    | some p =>
      have hb : (a.category p != .backLink) = true := bne_iff_ne.mpr (h.category_ne_backLink hp)
      have hk : (a.category p != .actor) = !(a.kind p).isActor := rfl
      rw [parents_of_some hp, List.takeWhile_cons, List.takeWhile_cons, hb, hk, Bool.and_true,
        ih p (lt_of_parent hp)]

/-- Only the actor ends the chain that the search follows. -/
theorem Nested.reverse_searchChain (i : NodeId) : (a.searchChain i).reverse = a.pathBelow i := by
  rw [searchChain, h.takeWhile_parents, pathBelow]

end Nested

end ActorLinks.Arena
