import ActorLinks.Arena.Planting

/-! # Planted trees

Planting adds nodes at the end of an arena and changes nothing before them but the child list
of the parent. The new part shows the tree that was planted: kinds, target and the order of
children agree, node by node.
-/
namespace ActorLinks.Arena

section Alloc
variable {a : Arena} {parent : Option NodeId} {target : Target} {kind : NodeKind}

theorem filter_parent (h : ∀ p ∈ parent, p < a.size) : parent.filter (· < a.size) = parent := by
  cases parent with
  | none => rfl
  | some p => simp [h p rfl]

theorem parent?_alloc (h : ∀ p ∈ parent, p < a.size) (i : NodeId) :
    (a.alloc parent target kind).parent? i = if i = a.size then parent else a.parent? i := by
  simp only [alloc, parent?, filter_parent h, parentIn_grow]
  rfl

theorem children_alloc (h : ∀ p ∈ parent, p < a.size) (i : NodeId) :
    (a.alloc parent target kind).children i
      = if parent = some i then a.children i ++ [a.size] else a.children i := by
  simp only [alloc, children, filter_parent h]
  exact childrenIn_grow h i

/-- Adoption changes the child list of a node only. -/
theorem node_alloc_agrees (i : NodeId) (hi : i ≠ a.size) :
    ((a.alloc parent target kind).node i).kind = (a.node i).kind ∧
    ((a.alloc parent target kind).node i).target = (a.node i).target := by
  have hi' : i ≠ a.nodes.size := hi
  cases hp : parent.filter (· < a.size) with
  | none => simp [node, alloc, hp, grow, Array.getElem?_push, hi']
  | some p =>
    simp only [node, alloc, hp, grow, Array.getElem?_push, Array.size_modify, if_neg hi',
      Array.getElem?_modify]
    cases a.nodes[i]? with
    | none => simp
    | some n => by_cases hpi : p = i <;> simp [hpi, Node.adopt]

theorem node_alloc_size :
    (a.alloc parent target kind).node a.size = ⟨parent.filter (· < a.size), [], target, kind⟩ := by
  have hpush (p : Option NodeId) :
      (grow a.nodes p target kind)[a.nodes.size]? = some ⟨p, [], target, kind⟩ := by
    cases p <;> simp only [grow, Array.getElem?_push, Array.size_modify, ite_true]
  simp only [node, alloc, size, hpush, Option.getD_some]

theorem kind_alloc (i : NodeId) :
    (a.alloc parent target kind).kind i = if i = a.size then kind else a.kind i := by
  split
  · next h => rw [h, Arena.kind, node_alloc_size]
  · next h => exact (node_alloc_agrees i h).1

theorem target_alloc (i : NodeId) :
    (a.alloc parent target kind).target i = if i = a.size then target else a.target i := by
  split
  · next h => rw [h, Arena.target, node_alloc_size]
  · next h => exact (node_alloc_agrees i h).2

end Alloc

/-- `b` is `a` with more nodes at its end, of which `added` are new children of `parent`. -/
structure Grown (parent : Option NodeId) (added : List NodeId) (a b : Arena) : Prop where
  size_le : a.size ≤ b.size
  kind_eq : ∀ i < a.size, b.kind i = a.kind i
  target_eq : ∀ i < a.size, b.target i = a.target i
  parent_eq : ∀ i < a.size, b.parent? i = a.parent? i
  children_eq : ∀ i < a.size,
    b.children i = if parent = some i then a.children i ++ added else a.children i
  /-- A new node without a parent is the first one, and is planted as a root. -/
  orphan : ∀ i, a.size ≤ i → i < b.size → b.parent? i = none → parent = none ∧ i = a.size

theorem grown_alloc {a : Arena} {parent : Option NodeId} {target : Target} {kind : NodeKind}
    (h : ∀ p ∈ parent, p < a.size) : Grown parent [a.size] a (a.alloc parent target kind) where
  size_le := by simp
  kind_eq i hi := by rw [kind_alloc, if_neg (Nat.ne_of_lt hi)]
  target_eq i hi := by rw [target_alloc, if_neg (Nat.ne_of_lt hi)]
  parent_eq i hi := by rw [parent?_alloc h, if_neg (Nat.ne_of_lt hi)]
  children_eq i _ := children_alloc h i
  orphan i hle hlt hnone := by
    have hi : i = a.size := by
      rw [size_alloc] at hlt
      omega
    rw [parent?_alloc h, if_pos hi] at hnone
    exact ⟨hnone, hi⟩

namespace Grown
variable {a b d : Arena} {parent : Option NodeId} {added more : List NodeId} {n : NodeId}

theorem refl (a : Arena) : Grown parent [] a a where
  size_le := Nat.le_refl _
  kind_eq _ _ := rfl
  target_eq _ _ := rfl
  parent_eq _ _ := rfl
  children_eq i _ := by simp
  orphan i hle hlt := by omega

/-- More children of the same parent are appended; what grows below new nodes is not seen. -/
theorem trans (hab : Grown parent added a b) (hbd : Grown (some n) more b d)
    (hn : parent = some n ∨ a.size ≤ n) :
    Grown parent (if parent = some n then added ++ more else added) a d where
  size_le := Nat.le_trans hab.size_le hbd.size_le
  kind_eq i hi := by rw [hbd.kind_eq i (Nat.lt_of_lt_of_le hi hab.size_le), hab.kind_eq i hi]
  target_eq i hi := by
    rw [hbd.target_eq i (Nat.lt_of_lt_of_le hi hab.size_le), hab.target_eq i hi]
  parent_eq i hi := by
    rw [hbd.parent_eq i (Nat.lt_of_lt_of_le hi hab.size_le), hab.parent_eq i hi]
  children_eq i hi := by
    rw [hbd.children_eq i (Nat.lt_of_lt_of_le hi hab.size_le), hab.children_eq i hi]
    rcases hn with rfl | hle
    · by_cases hni : n = i <;> simp [hni]
    · have hni : n ≠ i := Nat.ne_of_gt (Nat.lt_of_lt_of_le hi hle)
      by_cases hp : parent = some i
      · simp [hp, hni, Ne.symm hni]
      · simp [hp, hni]
  orphan i hle hlt hnone := by
    by_cases hi : i < b.size
    · rw [hbd.parent_eq i hi] at hnone
      exact hab.orphan i hle hi hnone
    · have hne := hbd.orphan i (Nat.le_of_not_lt hi) hlt hnone
      simp at hne

end Grown

mutual

/-- The tree at a node of the arena, as far as kinds, target and child order go. -/
def Shows (a : Arena) (target : Target) : LinkTree → NodeId → Prop
  | .node kind branches, id =>
    id < a.size ∧ a.kind id = kind ∧ a.target id = target ∧
      ShowsAll a target branches (a.children id)

def ShowsAll (a : Arena) (target : Target) : List LinkTree → List NodeId → Prop
  | [], [] => True
  | t :: ts, id :: ids => Shows a target t id ∧ ShowsAll a target ts ids
  | [], _ :: _ | _ :: _, [] => False

end

section Shows
variable {a b : Arena} {target : Target}

theorem Shows.lt_size {t : LinkTree} {id : NodeId} (h : Shows a target t id) : id < a.size := by
  cases t
  exact h.1

theorem Shows.kind_eq {t : LinkTree} {id : NodeId} (h : Shows a target t id) :
    a.kind id = t.kind := by
  cases t
  exact h.2.1

theorem Shows.target_eq {t : LinkTree} {id : NodeId} (h : Shows a target t id) :
    a.target id = target := by
  cases t
  exact h.2.2.1

theorem Shows.children {t : LinkTree} {id : NodeId} (h : Shows a target t id) :
    ShowsAll a target t.branches (a.children id) := by
  cases t
  exact h.2.2.2

theorem ShowsAll.exists_branch {ts : List LinkTree} {ids : List NodeId}
    (h : ShowsAll a target ts ids) {id : NodeId} (hid : id ∈ ids) :
    ∃ t ∈ ts, Shows a target t id := by
  induction ts generalizing ids with
  | nil =>
    cases ids with
    | nil => cases hid
    | cons => exact h.elim
  | cons t ts ih =>
    cases ids with
    | nil => cases hid
    | cons i ids =>
      rcases List.mem_cons.mp hid with rfl | hid
      · exact ⟨t, List.mem_cons_self, h.1⟩
      · obtain ⟨u, hu, hs⟩ := ih h.2 hid
        exact ⟨u, List.mem_cons_of_mem _ hu, hs⟩

theorem ShowsAll.exists_node {ts : List LinkTree} {ids : List NodeId}
    (h : ShowsAll a target ts ids) {t : LinkTree} (ht : t ∈ ts) :
    ∃ id ∈ ids, Shows a target t id := by
  induction ts generalizing ids with
  | nil => cases ht
  | cons u ts ih =>
    cases ids with
    | nil => exact h.elim
    | cons i ids =>
      rcases List.mem_cons.mp ht with rfl | ht
      · exact ⟨i, List.mem_cons_self, h.1⟩
      · obtain ⟨j, hj, hs⟩ := ih h.2 ht
        exact ⟨j, List.mem_cons_of_mem _ hj, hs⟩

/-- A child shows a branch of the tree at its parent. -/
theorem Shows.exists_branch {tree : LinkTree} {i p : NodeId} (h : Shows a target tree p)
    (hp : a.parent? i = some p) : ∃ b ∈ tree.branches, Shows a target b i :=
  h.children.exists_branch (mem_children_iff.mpr hp)

end Shows

section Frame
variable {a b : Arena} {target : Target} {lo : NodeId}

/-- Two arenas that agree from `lo` on, as far as the first one goes. -/
structure AgreesFrom (lo : NodeId) (a b : Arena) : Prop where
  size_le : a.size ≤ b.size
  kind_eq : ∀ i, lo ≤ i → i < a.size → b.kind i = a.kind i
  target_eq : ∀ i, lo ≤ i → i < a.size → b.target i = a.target i
  children_eq : ∀ i, lo ≤ i → i < a.size → b.children i = a.children i

mutual

theorem Shows.frame (h : AgreesFrom lo a b) :
    ∀ {t : LinkTree} {id : NodeId}, lo ≤ id → Shows a target t id → Shows b target t id
  | .node kind branches, id, hid, hs => by
    obtain ⟨hlt, hkind, htarget, hbranches⟩ := hs
    refine ⟨Nat.lt_of_lt_of_le hlt h.size_le, (h.kind_eq id hid hlt).trans hkind,
      (h.target_eq id hid hlt).trans htarget, ?_⟩
    rw [h.children_eq id hid hlt]
    refine ShowsAll.frame h (fun i hi => ?_) hbranches
    exact Nat.le_trans hid (Nat.le_of_lt (lt_of_mem_children hi).1)

theorem ShowsAll.frame (h : AgreesFrom lo a b) :
    ∀ {ts : List LinkTree} {ids : List NodeId}, (∀ i ∈ ids, lo ≤ i) →
      ShowsAll a target ts ids → ShowsAll b target ts ids
  | [], [], _, _ => trivial
  | _ :: _, id :: _, hids, hs =>
    ⟨Shows.frame h (hids id List.mem_cons_self) hs.1,
      ShowsAll.frame h (fun i hi => hids i (List.mem_cons_of_mem _ hi)) hs.2⟩
  | [], _ :: _, _, hs => hs.elim
  | _ :: _, [], _, hs => hs.elim

end

/-- Growth below an earlier parent does not touch the later nodes. -/
theorem Grown.agreesFrom {parent : Option NodeId} {added : List NodeId}
    (h : Grown parent added a b) (hp : ∀ p ∈ parent, p < lo) : AgreesFrom lo a b where
  size_le := h.size_le
  kind_eq i _ hi := h.kind_eq i hi
  target_eq i _ hi := h.target_eq i hi
  children_eq i hlo hi := by
    rw [h.children_eq i hi, if_neg]
    intro hpi
    exact absurd (hp i hpi) (Nat.not_lt.mpr hlo)

end Frame

section Plant
variable {target : Target}

mutual

theorem plant_grown : ∀ (t : LinkTree) {a : Arena} {parent : Option NodeId},
    (∀ p ∈ parent, p < a.size) →
    Grown parent [a.size] a (plant target parent a t) ∧
      (plant target parent a t).parent? a.size = parent ∧
      Shows (plant target parent a t) target t a.size
  | .node kind branches, a, parent, hp => by
    have halloc : Grown parent [a.size] a (a.alloc parent target kind) := grown_alloc hp
    have hlt : a.size < (a.alloc parent target kind).size := by simp
    obtain ⟨ids, hbelow, hshow⟩ := plantAll_grown branches (p := a.size) hlt
    have hroot : parent ≠ some a.size := fun h => absurd (hp _ h) (Nat.lt_irrefl _)
    rw [plant]
    refine ⟨?_, ?_, Nat.lt_of_lt_of_le hlt hbelow.size_le, ?_, ?_, ?_⟩
    · simpa [hroot] using halloc.trans hbelow (Or.inr (Nat.le_refl _))
    · rw [hbelow.parent_eq _ hlt, parent?_alloc hp, if_pos rfl]
    · rw [hbelow.kind_eq _ hlt, kind_alloc, if_pos rfl]
    · rw [hbelow.target_eq _ hlt, target_alloc, if_pos rfl]
    · have hnone : a.children a.size = [] := childrenIn_eq_nil (Nat.le_refl _)
      rw [hbelow.children_eq _ hlt, if_pos rfl, children_alloc hp, if_neg hroot, hnone]
      exact hshow

theorem plantAll_grown : ∀ (ts : List LinkTree) {a : Arena} {p : NodeId}, p < a.size →
    ∃ ids, Grown (some p) ids a (plantAll target p a ts) ∧
      ShowsAll (plantAll target p a ts) target ts ids
  | [], a, p, _ => by
    rw [plantAll]
    exact ⟨[], Grown.refl a, trivial⟩
  | t :: ts, a, p, hp => by
    have hparent : ∀ q ∈ some p, q < a.size := by
      intro q hq
      cases hq
      exact hp
    obtain ⟨hfirst, _, hshow⟩ := plant_grown t hparent
    obtain ⟨ids, hrest, hshows⟩ :=
      plantAll_grown ts (Nat.lt_of_lt_of_le hp hfirst.size_le)
    rw [plantAll]
    refine ⟨a.size :: ids, ?_, ?_, hshows⟩
    · simpa using hfirst.trans hrest (Or.inl rfl)
    · have hagrees := hrest.agreesFrom hparent
      exact Shows.frame hagrees (Nat.le_refl _) hshow

end

end Plant

end ActorLinks.Arena
