import ActorLinks.Proofs.Arena.Preorder
import ActorLinks.Proofs.Visit.Order

/-! # Trees in a row

A tree that is planted at the end of an arena stands there as it stands alone, with all ids moved
by the size of the arena. So the arena of a graph is the trees of its targets in a row.
-/
namespace ActorLinks

namespace Arena

/-- `b` holds every node of `a`, each under the id that `f` gives it. -/
structure Embeds (f : NodeId → NodeId) (a b : Arena) : Prop where
  lt_size : ∀ i < a.size, f i < b.size
  kind_eq : ∀ i < a.size, b.kind (f i) = a.kind i
  target_eq : ∀ i < a.size, b.target (f i) = a.target i
  parent_eq : ∀ i < a.size, b.parent? (f i) = (a.parent? i).map f
  children_eq : ∀ i < a.size, b.children (f i) = (a.children i).map f

/-- Growth at the end that is a tree of its own touches nothing. -/
theorem Embeds.grown {f : NodeId → NodeId} {a b d : Arena} {added : List NodeId}
    (h : Embeds f a b) (hd : Grown none added b d) : Embeds f a d where
  lt_size i hi := Nat.lt_of_lt_of_le (h.lt_size i hi) hd.size_le
  kind_eq i hi := (hd.kind_eq _ (h.lt_size i hi)).trans (h.kind_eq i hi)
  target_eq i hi := (hd.target_eq _ (h.lt_size i hi)).trans (h.target_eq i hi)
  parent_eq i hi := (hd.parent_eq _ (h.lt_size i hi)).trans (h.parent_eq i hi)
  children_eq i hi := (hd.children_eq _ (h.lt_size i hi)).trans (h.children_eq i hi)

/-- The nodes of `b` from `n` on are those of `a`, with ids moved by `n`. -/
structure Shifted (n : Nat) (a b : Arena) : Prop extends Embeds (n + ·) a b where
  size_eq : b.size = n + a.size

section Shifted
variable {n : Nat} {target : Target}

/-- Past their ends neither of the arenas has children. -/
theorem Shifted.children_add {a b : Arena} (h : Shifted n a b) (i : Nat) :
    b.children (n + i) = (a.children i).map (n + ·) := by
  by_cases hi : i < a.size
  · exact h.children_eq i hi
  · have hnone : a.children i = [] := childrenIn_eq_nil (Nat.le_of_not_lt hi)
    have hle : b.size ≤ n + i := by
      rw [h.size_eq]
      omega
    have hnone' : b.children (n + i) = [] := childrenIn_eq_nil hle
    rw [hnone, hnone', List.map_nil]

theorem Shifted.alloc {a b : Arena} (h : Shifted n a b) {parent : Option NodeId}
    (hp : ∀ p ∈ parent, p < a.size) (kind : NodeKind) :
    Shifted n (a.alloc parent target kind) (b.alloc (parent.map (n + ·)) target kind) := by
  have hp' : ∀ p ∈ parent.map (n + ·), p < b.size := by
    intro p hmem
    obtain ⟨q, hq, rfl⟩ := Option.map_eq_some_iff.mp hmem
    rw [h.size_eq]
    exact Nat.add_lt_add_left (hp q hq) n
  have hlast (i : Nat) : n + i = b.size ↔ i = a.size := by
    rw [h.size_eq]
    omega
  have hold {i : Nat} (hi : i < (a.alloc parent target kind).size) (hne : i ≠ a.size) :
      i < a.size := by
    rw [size_alloc] at hi
    omega
  -- field by field: the node added last, and the nodes there before
  refine ⟨⟨fun i hi => ?_, fun i hi => ?_, fun i hi => ?_, fun i hi => ?_, fun i hi => ?_⟩, ?_⟩
  · rw [size_alloc] at hi ⊢
    show n + i < b.size + 1
    rw [h.size_eq]
    omega
  · rw [kind_alloc, kind_alloc]
    simp only [hlast]
    split
    · rfl
    · next hne => exact h.kind_eq i (hold hi hne)
  · rw [target_alloc, target_alloc]
    simp only [hlast]
    split
    · rfl
    · next hne => exact h.target_eq i (hold hi hne)
  · rw [parent?_alloc hp, parent?_alloc hp']
    simp only [hlast]
    split
    · rfl
    · next hne => exact h.parent_eq i (hold hi hne)
  · have hparent : parent.map (n + ·) = some (n + i) ↔ parent = some i := by
      cases parent <;> simp
    rw [children_alloc hp, children_alloc hp']
    simp only [hparent, h.children_add, h.size_eq]
    split
    · rw [List.map_append, List.map_singleton]
    · rfl
  · rw [size_alloc, size_alloc, h.size_eq, Nat.add_assoc]

mutual

theorem Shifted.plant : ∀ (t : LinkTree) {a b : Arena} {parent : Option NodeId},
    (∀ p ∈ parent, p < a.size) → Shifted n a b →
    Shifted n (plant target parent a t) (plant target (parent.map (n + ·)) b t)
  | .node kind branches, a, b, parent, hp, h => by
    rw [Arena.plant, Arena.plant, h.size_eq]
    exact Shifted.plantAll branches (by simp) (h.alloc hp kind)

theorem Shifted.plantAll : ∀ (ts : List LinkTree) {a b : Arena} {p : NodeId}, p < a.size →
    Shifted n a b → Shifted n (plantAll target p a ts) (plantAll target (n + p) b ts)
  | [], a, b, p, _, h => by
    rw [Arena.plantAll, Arena.plantAll]
    exact h
  | t :: ts, a, b, p, hp, h => by
    have hparent : ∀ q ∈ some p, q < a.size := by
      intro q hq
      cases hq
      exact hp
    have hle : a.size ≤ (Arena.plant target (some p) a t).size :=
      (plant_grown t hparent).1.size_le
    rw [Arena.plantAll, Arena.plantAll]
    exact Shifted.plantAll ts (Nat.lt_of_lt_of_le hp hle) (Shifted.plant t hparent h)

end

/-- The arena of a graph with that target alone. -/
def treeOf (c : Compilation) (s : Schematic) (t : Target) : Arena := empty.addActor c s t

theorem shifted_addActor (a : Arena) (c : Compilation) (s : Schematic) (t : Target) :
    Shifted a.size (treeOf c s t) (a.addActor c s t) := by
  have hempty : Shifted a.size empty a := by
    refine ⟨⟨?_, ?_, ?_, ?_, ?_⟩, rfl⟩ <;> exact fun i hi => absurd hi (Nat.not_lt_zero i)
  show Shifted a.size (empty.plant t none _) (a.plant t (none.map (a.size + ·)) _)
  exact Shifted.plant (LinkTree.ofTarget c s t) (by simp) hempty

end Shifted

theorem target_treeOf {c : Compilation} {s : Schematic} {t : Target} {i : NodeId}
    (hi : i < (treeOf c s t).size) : (treeOf c s t).target i = t := by
  have hground : LinkGraph.Grounded c s [t] (.ofTargets c s [t]) := LinkGraph.grounded_ofTargets
  have harena : (LinkGraph.ofTargets c s [t]).arena = treeOf c s t := rfl
  have hkept := List.mem_of_find?_eq_some (hground.keptTarget?_of_lt (harena ▸ hi))
  exact List.mem_singleton.mp hkept

end Arena

namespace LinkGraph
open Arena

/-- The root of an actor whose tree stands in the graph. -/
structure Holds (c : Compilation) (s : Schematic) (g : LinkGraph) (t : Target) (root : Nat) :
    Prop where
  actor_eq : g.actor? t.actor = some root
  le_size : root + (treeOf c s t).size ≤ g.arena.size
  embeds : Embeds (root + ·) (treeOf c s t) g.arena

/-- The trees of the targets stand in the arena one after the other, and nothing else does. -/
structure InRow (c : Compilation) (s : Schematic) (targets : List Target) (g : LinkGraph) :
    Prop where
  exists_root : ∀ t ∈ targets, ∃ root, Holds c s g t root
  exists_tree : ∀ i < g.arena.size, ∃ t ∈ targets, ∃ root, Holds c s g t root ∧
    ∃ k < (treeOf c s t).size, i = root + k
  ascending : targets.Pairwise fun t u => ∀ root other, Holds c s g t root → Holds c s g u other →
    root + (treeOf c s t).size ≤ other

section
variable {c : Compilation} {s : Schematic} {targets : List Target} {g : LinkGraph} {t : Target}

theorem Holds.root_unique {root other : Nat} (h : Holds c s g t root)
    (h' : Holds c s g t other) : root = other :=
  Option.some.inj (h.actor_eq.symm.trans h'.actor_eq)

/-- A tree that stands in the graph stays where it is when that of another actor is added. -/
theorem Holds.added {u : Target} {root : Nat} (h : Holds c s g u root)
    (ht : ¬ g.actors.contains t.actor) (hne : u.actor ≠ t.actor)
    (hgrown : Grown none [g.arena.size] g.arena (g.addTarget t).arena) :
    Holds c s (g.addTarget t) u root := by
  refine ⟨?_, Nat.le_trans h.le_size hgrown.size_le, h.embeds.grown hgrown⟩
  rw [actor?_addTarget ht, if_neg hne, h.actor_eq]

theorem InRow.added (hg : Grounded c s targets g) (h : InRow c s targets g)
    (ht : ∀ u ∈ targets, u.actor ≠ t.actor) : InRow c s (targets ++ [t]) (g.addTarget t) := by
  have hkept : keptTarget? targets t.actor = none := by
    simpa [keptTarget?] using ht
  have hnone : g.actor? t.actor = none := by
    have hroot := hg.kept t.actor
    rw [hkept] at hroot
    exact Option.map_eq_none_iff.mp hroot
  have hnot : ¬ g.actors.contains t.actor := by
    simpa [Dict.contains, actor?] using hnone
  have harena : (g.addTarget t).arena = g.arena.addActor c s t := by
    simp only [addTarget, if_neg hnot, hg.compilation_eq, hg.schematic_eq]
  have hshift : Shifted g.arena.size (treeOf c s t) (g.addTarget t).arena := by
    rw [harena]
    exact shifted_addActor _ c s t
  have hgrown : Grown none [g.arena.size] g.arena (g.addTarget t).arena := by
    rw [harena]
    exact (plant_grown _ (by simp)).1
  have hnew : Holds c s (g.addTarget t) t g.arena.size :=
    ⟨by rw [actor?_addTarget hnot, if_pos rfl], Nat.le_of_eq hshift.size_eq.symm,
      hshift.toEmbeds⟩
  -- an actor has one root, so the trees that stood there are found at their old places only
  have hold {u : Target} (hu : u ∈ targets) {root : Nat} :
      Holds c s (g.addTarget t) u root ↔ Holds c s g u root := by
    refine ⟨fun hr => ?_, fun hr => hr.added hnot (ht u hu) hgrown⟩
    obtain ⟨root', hr'⟩ := h.exists_root u hu
    rwa [hr.root_unique (hr'.added hnot (ht u hu) hgrown)]
  refine ⟨fun u hu => ?_, fun i hi => ?_, ?_⟩
  · rcases List.mem_append.mp hu with hu | hu
    · obtain ⟨root, hr⟩ := h.exists_root u hu
      exact ⟨root, (hold hu).mpr hr⟩
    · obtain rfl := List.mem_singleton.mp hu
      exact ⟨_, hnew⟩
  · by_cases hlt : i < g.arena.size
    · obtain ⟨u, hu, root, hr, k, hk, rfl⟩ := h.exists_tree i hlt
      exact ⟨u, List.mem_append_left _ hu, root, (hold hu).mpr hr, k, hk, rfl⟩
    · rw [hshift.size_eq] at hi
      exact ⟨t, List.mem_append_right _ List.mem_cons_self, _, hnew, i - g.arena.size,
        by omega, by omega⟩
  · refine List.pairwise_append.mpr ⟨?_, List.pairwise_singleton _ _, ?_⟩
    · refine h.ascending.imp_of_mem fun hu hv hasc root other hr ho => ?_
      exact hasc root other ((hold hu).mp hr) ((hold hv).mp ho)
    · intro u hu v hv root other hr ho
      obtain rfl := List.mem_singleton.mp hv
      rw [ho.root_unique hnew]
      exact ((hold hu).mp hr).le_size

theorem inRow_foldl (hg : Grounded c s targets g) (h : InRow c s targets g) (more : List Target)
    (hdistinct : ((targets ++ more).map (·.actor)).Nodup) :
    InRow c s (targets ++ more) (more.foldl addTarget g) := by
  induction more generalizing targets g with
  | nil => simpa using h
  | cons t more ih =>
    have ht : ∀ u ∈ targets, u.actor ≠ t.actor := by
      rw [List.map_append] at hdistinct
      exact fun u hu => (List.nodup_append.mp hdistinct).2.2 _ (List.mem_map_of_mem hu) _
        List.mem_cons_self
    have hnext := ih (grounded_foldl hg [t]) (h.added hg ht) (by simpa using hdistinct)
    simpa using hnext

/-- The trees of targets with different actors stand in the order of the targets. -/
theorem inRow_ofTargets (hdistinct : (targets.map (·.actor)).Nodup) :
    InRow c s targets (ofTargets c s targets) := by
  have hempty : InRow c s [] { compilation := c, schematic := s } :=
    ⟨by simp, fun i hi => absurd hi (Nat.not_lt_zero i), .nil⟩
  have h := inRow_foldl grounded_empty hempty targets hdistinct
  exact ⟨fun t ht => (h.exists_root t ht).imp fun _ hr => ⟨hr.1, hr.2, hr.3⟩,
    fun i hi => by
      obtain ⟨t, ht, root, hr, hk⟩ := h.exists_tree i hi
      exact ⟨t, ht, root, ⟨hr.1, hr.2, hr.3⟩, hk⟩,
    h.ascending.imp fun hasc root other hr ho =>
      hasc root other ⟨hr.1, hr.2, hr.3⟩ ⟨ho.1, ho.2, ho.3⟩⟩

end

end LinkGraph

end ActorLinks
