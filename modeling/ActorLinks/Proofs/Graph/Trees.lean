import ActorLinks.Graph.Basic
import ActorLinks.Proofs.Arena.Form

/-! # The trees of a graph

Every actor of a graph is the root of the tree of its target, the first target of that name,
and every node stands below such a root. So each node shows a form of its own target, and the
category of a node is one that its parent admits.
-/
namespace ActorLinks

/-- Parents admit their children, and only actors have no parent. -/
structure Arena.Nested (a : Arena) : Prop where
  actor_of_orphan : ∀ i < a.size, a.parent? i = none → a.category i = .actor
  admits : ∀ {i p : NodeId}, a.parent? i = some p → a.category i ∈ (a.category p).admits

namespace LinkGraph

/-- The target that is kept for an actor name. -/
def keptTarget? (targets : List Target) (name : String) : Option Target :=
  targets.find? fun t => t.actor == name

/-- The node stands alone on top of the tree of its target. -/
def IsRootOf (c : Compilation) (s : Schematic) (a : Arena) (i : NodeId) : Prop :=
  a.parent? i = none ∧ a.Shows (a.target i) (.ofTarget c s (a.target i)) i

/-- The trees of the graph are those of the kept targets. -/
structure Grounded (c : Compilation) (s : Schematic) (targets : List Target) (g : LinkGraph) :
    Prop where
  compilation_eq : g.compilation = c
  schematic_eq : g.schematic = s
  actor_of_orphan : ∀ i < g.arena.size, g.arena.parent? i = none →
    g.actor? (g.target i).actor = some i
  root_of_actor : ∀ {name : String} {i : NodeId}, g.actor? name = some i →
    IsRootOf c s g.arena i
  kept : ∀ name, (g.actor? name).map g.target = keptTarget? targets name

section
variable {c : Compilation} {s : Schematic} {targets : List Target} {g : LinkGraph} {t : Target}

theorem grounded_empty : Grounded c s [] { compilation := c, schematic := s } where
  compilation_eq := rfl
  schematic_eq := rfl
  actor_of_orphan i hi := by simp [Arena.empty, Arena.size] at hi
  root_of_actor h := by simp [actor?, Dict.get?, EmptyCollection.emptyCollection, Dict.empty] at h
  kept name := rfl

theorem actor?_addTarget (h : ¬ g.actors.contains t.actor) (name : String) :
    (g.addTarget t).actor? name = if name = t.actor then some g.arena.size else g.actor? name := by
  simp only [addTarget, if_neg h, actor?]
  exact Dict.get?_insert _ _ _ _

theorem keptTarget?_append (name : String) :
    keptTarget? (targets ++ [t]) name
      = (keptTarget? targets name).or (if name = t.actor then some t else none) := by
  by_cases h : name = t.actor
  · simp [keptTarget?, List.find?_append, h]
  · simp [keptTarget?, List.find?_append, h, Ne.symm h]

/-- A target whose actor is there already changes nothing. -/
theorem Grounded.repeated (h : Grounded c s targets g) (ht : g.actors.contains t.actor) :
    Grounded c s (targets ++ [t]) g := by
  refine { h with kept := fun name => ?_ }
  rw [h.kept, keptTarget?_append]
  by_cases hn : name = t.actor
  · subst hn
    have hsome : (keptTarget? targets t.actor).isSome := by
      rw [← h.kept, Option.isSome_map]
      exact ht
    rw [Option.or_of_isSome hsome]
  · rw [if_neg hn, Option.or_none]

theorem Grounded.added (h : Grounded c s targets g) (ht : ¬ g.actors.contains t.actor) :
    Grounded c s (targets ++ [t]) (g.addTarget t) := by
  have hnone : g.actor? t.actor = none := by simpa [Dict.contains, actor?] using ht
  have harena : (g.addTarget t).arena = g.arena.plant t none (.ofTarget c s t) := by
    simp only [addTarget, if_neg ht, Arena.addActor, h.compilation_eq, h.schematic_eq]
  have hplant : Arena.Grown none [g.arena.size] g.arena (g.addTarget t).arena ∧
      (g.addTarget t).arena.parent? g.arena.size = none ∧
      (g.addTarget t).arena.Shows t (.ofTarget c s t) g.arena.size := by
    rw [harena]
    exact Arena.plant_grown _ (by simp)
  obtain ⟨hgrown, hparent, hshow⟩ := hplant
  have hnew : (g.addTarget t).target g.arena.size = t := hshow.target_eq
  have hold {i : Nat} (hi : i < g.arena.size) : (g.addTarget t).target i = g.target i :=
    hgrown.target_eq i hi
  have hlt {name : String} {i : Nat} (hi : g.actor? name = some i) : i < g.arena.size :=
    (h.root_of_actor hi).2.lt_size
  refine ⟨?_, ?_, ?_, ?_, ?_⟩
  · simpa [addTarget, ht] using h.compilation_eq
  · simpa [addTarget, ht] using h.schematic_eq
  -- an orphan is an old root, whose name is not the new one, or the new root itself
  · intro i hi hpi
    rw [actor?_addTarget ht]
    by_cases hi' : i < g.arena.size
    · rw [hgrown.parent_eq i hi'] at hpi
      have hactor := h.actor_of_orphan i hi' hpi
      rw [hold hi', if_neg, hactor]
      intro he
      rw [he, hnone] at hactor
      cases hactor
    · obtain ⟨_, rfl⟩ := hgrown.orphan i (Nat.le_of_not_lt hi') hi hpi
      rw [hnew, if_pos rfl]
  · intro name i hi
    rw [actor?_addTarget ht] at hi
    split at hi
    · cases hi
      rw [IsRootOf, hshow.target_eq]
      exact ⟨hparent, hshow⟩
    · obtain ⟨hpi, hs⟩ := h.root_of_actor hi
      rw [IsRootOf, hgrown.parent_eq i (hlt hi), hgrown.target_eq i (hlt hi)]
      -- the new tree grows past the old ids, so what an old root shows is not touched
      have hagrees : Arena.AgreesFrom 0 g.arena (g.addTarget t).arena :=
        hgrown.agreesFrom (by simp)
      exact ⟨hpi, hs.frame hagrees (Nat.zero_le _)⟩
  · intro name
    rw [actor?_addTarget ht, keptTarget?_append, ← h.kept]
    split
    · next hn => simp [hn, hnone, hnew]
    · cases hi : g.actor? name with
      | none => rfl
      | some i => simp [hold (hlt hi)]

theorem grounded_foldl (h : Grounded c s targets g) (more : List Target) :
    Grounded c s (targets ++ more) (more.foldl addTarget g) := by
  induction more generalizing targets g with
  | nil => simpa using h
  | cons t more ih =>
    have hnext : Grounded c s (targets ++ [t]) (g.addTarget t) := by
      by_cases ht : g.actors.contains t.actor
      · simpa only [addTarget, if_pos ht] using h.repeated ht
      · exact h.added ht
    simpa using ih hnext

theorem grounded_ofTargets : Grounded c s targets (ofTargets c s targets) := by
  have h := grounded_foldl (grounded_empty (c := c) (s := s)) targets
  exact { h with }

namespace Grounded
variable (h : Grounded c s targets g)
include h

/-- The states of the nodes play no part in the shape of the trees. -/
theorem withStates (states : Array (Option NodeState)) :
    Grounded c s targets { g with states := states } := { h with }

theorem isRoot_of_orphan {i : NodeId} (hi : i < g.arena.size) (hp : g.arena.parent? i = none) :
    IsRootOf c s g.arena i := h.root_of_actor (h.actor_of_orphan i hi hp)

theorem exists_form {i : NodeId} (hi : i < g.arena.size) :
    ∃ tree, LinkTree.Form c s (g.target i) tree ∧ g.arena.Shows (g.target i) tree i := by
  induction i using Nat.strongRecOn with
  | ind i ih =>
    cases hp : g.arena.parent? i with
    | none => exact ⟨_, .actor, (h.isRoot_of_orphan hi hp).2⟩
    | some p =>
      have hpi := Arena.lt_of_parent hp
      obtain ⟨tree, hform, hs⟩ := ih p hpi (Nat.lt_trans hpi hi)
      obtain ⟨b, hb, hsb⟩ := hs.exists_branch hp
      have ht : g.target i = g.target p := hsb.target_eq
      rw [ht]
      exact ⟨b, (hform.branch hb).1, hsb⟩

theorem target_of_parent {i p : NodeId} (hp : g.arena.parent? i = some p) :
    g.target i = g.target p := by
  obtain ⟨tree, _, hs⟩ := h.exists_form
    (Nat.lt_trans (Arena.lt_of_parent hp) (Arena.lt_size_of_parent hp))
  obtain ⟨b, _, hsb⟩ := hs.exists_branch hp
  exact hsb.target_eq

theorem target_of_mem_parents {i p : NodeId} (hp : p ∈ g.arena.parents i) :
    g.target p = g.target i := by
  induction i using Nat.strongRecOn with
  | ind i ih =>
    cases hparent : g.arena.parent? i with
    | none => simp [Arena.parents_of_none hparent] at hp
    | some q =>
      rw [Arena.parents_of_some hparent] at hp
      rw [h.target_of_parent hparent]
      rcases List.mem_cons.mp hp with rfl | hp
      · rfl
      · exact ih q (Arena.lt_of_parent hparent) hp

theorem keptTarget?_of_lt {i : NodeId} (hi : i < g.arena.size) :
    keptTarget? targets (g.target i).actor = some (g.target i) := by
  induction i using Nat.strongRecOn with
  | ind i ih =>
    cases hp : g.arena.parent? i with
    | none => rw [← h.kept, h.actor_of_orphan i hi hp, Option.map_some]
    | some p =>
      have hpi := Arena.lt_of_parent hp
      rw [h.target_of_parent hp]
      exact ih p hpi (Nat.lt_trans hpi hi)

theorem exists_actor (ht : t ∈ targets) : ∃ i, g.actor? t.actor = some i := by
  have hkept : (keptTarget? targets t.actor).isSome = true :=
    List.find?_isSome.mpr ⟨t, ht, beq_iff_eq.mpr rfl⟩
  rwa [← h.kept, Option.isSome_map, Option.isSome_iff_exists] at hkept

theorem nested : g.arena.Nested where
  actor_of_orphan i hi hp := by
    have hk := (h.isRoot_of_orphan hi hp).2.kind_eq
    rw [Arena.category, hk]
    rfl
  admits {i p} hp := by
    obtain ⟨tree, hform, hs⟩ := h.exists_form
      (Nat.lt_trans (Arena.lt_of_parent hp) (Arena.lt_size_of_parent hp))
    obtain ⟨b, hb, hsb⟩ := hs.exists_branch hp
    rw [Arena.category, Arena.category, hs.kind_eq, hsb.kind_eq]
    exact (hform.branch hb).2

/-- A hierarchy carries the marker of the core actor of its target. -/
theorem marker_eq {i : NodeId} {marker : Attribute} (hi : i < g.arena.size)
    (hk : g.arena.kind i = .hierarchy marker) :
    LinkTree.hierarchyMarker? c (g.target i) = some marker := by
  obtain ⟨tree, hform, hs⟩ := h.exists_form hi
  rw [hs.kind_eq] at hk
  cases hform with
  | hierarchy hm =>
    cases hk
    exact hm
  | _ => cases hk

/-- Where the core actor of an actor carries a marker, a hierarchy stands below the actor. -/
theorem exists_hierarchy {name : String} {i : NodeId} {marker : Attribute}
    (hi : g.actor? name = some i)
    (hm : LinkTree.hierarchyMarker? c (g.target i) = some marker) :
    ∃ n ∈ g.arena.children i, g.arena.kind n = .hierarchy marker ∧ g.target n = g.target i := by
  have hs := (h.root_of_actor hi).2
  obtain ⟨n, hn, hsn⟩ := hs.children.exists_node (LinkTree.hierarchy_mem_branches hm)
  exact ⟨n, hn, hsn.kind_eq, hsn.target_eq⟩

end Grounded

end

/-- A hierarchical root with one extension. -/
def sampleTypes : Compilation := .ofTypes
  [{ name := "Discord.IUserActor"
     kind := .interface
     interfaces := ["Discord.IActor"]
     attributes := [{ className := "Discord.LinkHierarchicalRootAttribute" }] },
   { name := "Discord.IUserActor.WithNick"
     kind := .interface
     containingType := some "Discord.IUserActor"
     attributes := [{ className := "Discord.LinkExtensionAttribute" }] }]

def sampleTarget : Target where
  actor := "Discord.IUserActor"
  entity := "Discord.IUser"
  id := "ulong"
  model := "IUserModel"

def sampleGraph : LinkGraph := ofTargets sampleTypes .standard [sampleTarget]

def channelModelTarget (actor entity : String) : Target where
  actor := actor
  entity := entity
  id := "ulong"
  model := "Discord.Models.IChannelModel"

def indexedLinks : Schematic :=
  ⟨⟨"Discord.ILinkType", [], [], [Schematic.linkEntry "Indexable" []]⟩⟩

def nestedLinks : Schematic :=
  ⟨⟨"Discord.ILinkType", [], [], [Schematic.linkEntry "Enumerable" indexedLinks.root.children]⟩⟩

end LinkGraph

end ActorLinks
