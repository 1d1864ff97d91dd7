import ActorLinks.Proofs.Visit.Run
import Mathlib

/-! # The order of actors

Where one actor implements another and is not implemented by it, it has more supertypes. So a visit
comes to it later, and among the ancestors of an actor it stands earlier. This holds also where
actors implement each other. The ancestors of an ancestor are ancestors.
-/
namespace ActorLinks.LinkGraph

/-- The first actor implements the second, and not the other way round. -/
def Surpasses (g : LinkGraph) (m n : NodeId) : Prop :=
  g.compilation.implements (g.target m).actor (g.target n).actor = true ∧
    g.compilation.implements (g.target n).actor (g.target m).actor = false

/-- Wherever the two nodes stand in the list, the first stands before the second. -/
def StandsBefore (l : List NodeId) (m n : NodeId) : Prop :=
  ∀ i j : Nat, l[i]? = some m → l[j]? = some n → i < j

theorem standsBefore_of_pairwise {l : List NodeId} {R : NodeId → NodeId → Prop}
    (hl : l.Pairwise R) {m n : NodeId} (hne : m ≠ n) (hback : ¬ R n m) : StandsBefore l m n := by
  intro i j hi hj
  obtain ⟨hil, rfl⟩ := List.getElem?_eq_some_iff.mp hi
  obtain ⟨hjl, rfl⟩ := List.getElem?_eq_some_iff.mp hj
  rcases Nat.lt_trichotomy i j with hlt | rfl | hlt
  · exact hlt
  · exact absurd rfl hne
  · exact absurd (List.pairwise_iff_getElem.mp hl j i hjl hil hlt) hback

section
variable {c : Compilation} {sch : Schematic} {targets : List Target} {g : LinkGraph}
  {m n : NodeId}

theorem Surpasses.supertypeCount_lt (h : g.Surpasses m n) :
    g.supertypeCount n < g.supertypeCount m := by
  obtain ⟨hmn, hnm⟩ := h
  obtain ⟨hne, habove⟩ := Compilation.mem_supertypes_iff.mp (Compilation.implements_iff.mp hmn)
  refine Compilation.size_supertypes_lt_of_not_above habove fun hback => ?_
  have himplements := Compilation.implements_iff.mpr
    (Compilation.mem_supertypes_iff.mpr ⟨Ne.symm hne, hback⟩)
  rw [hnm] at himplements
  cases himplements

theorem Surpasses.ne (h : g.Surpasses m n) : m ≠ n := by
  rintro rfl
  exact Nat.lt_irrefl _ h.supertypeCount_lt

theorem Surpasses.standsBefore_supertypeActors (h : g.Surpasses m n) (i : NodeId) :
    StandsBefore (g.supertypeActors i) m n := by
  refine standsBefore_of_pairwise (g.pairwise_supertypeActors i) h.ne ?_
  have hlt := h.supertypeCount_lt
  omega

theorem Surpasses.standsBefore_ancestors (h : g.Surpasses m n) (i : NodeId) :
    StandsBefore (g.ancestors i) m n := by
  refine standsBefore_of_pairwise ((g.pairwise_supertypeActors i).filter _) h.ne ?_
  have hlt := h.supertypeCount_lt
  omega

theorem Grounded.standsBefore_visitOrder (hg : Grounded c sch targets g) (h : g.Surpasses m n) :
    StandsBefore g.visitOrder n m :=
  standsBefore_of_pairwise hg.pairwise_visitOrder h.ne.symm (Nat.not_le_of_lt h.supertypeCount_lt)

theorem visitOrder_perm (g : LinkGraph) : g.visitOrder.Perm g.roots := by
  refine ((List.mergeSort_perm _ _).map _).trans (List.Perm.of_eq ?_)
  rw [List.map_map]
  rfl

/-- An entity of the right kind for an ancestor is passed on from ancestor to ancestor. -/
theorem entity_trans {x y z : String} (hxy : y = x ∨ y ∈ c.supertypes x)
    (hyz : z = y ∨ z ∈ c.supertypes y) : z = x ∨ z ∈ c.supertypes x := by
  rcases hxy with rfl | hxy
  · exact hyz
  · rcases hyz with rfl | hyz
    · exact Or.inr hxy
    · refine or_iff_not_imp_left.mpr fun hne => Compilation.mem_supertypes_iff.mpr ⟨hne, ?_⟩
      exact (Compilation.mem_supertypes_iff.mp hxy).2.trans
        (Compilation.mem_supertypes_iff.mp hyz).2

theorem Grounded.ancestors_trans (hg : Grounded c sch targets g) {i : NodeId} (hi : i ∈ g.roots)
    (hm : m ∈ g.ancestors i) (hn : n ∈ g.ancestors m) (hne : n ≠ i) : n ∈ g.ancestors i := by
  obtain ⟨⟨middle, hmiddle, hmactor⟩, hmentity⟩ := mem_ancestors_iff.mp hm
  obtain ⟨⟨top, htop, hnactor⟩, hnentity⟩ := mem_ancestors_iff.mp hn
  rw [hg.target_of_actor hmactor] at htop
  refine mem_ancestors_iff.mpr ⟨⟨top, ?_, hnactor⟩, entity_trans hmentity hnentity⟩
  refine Compilation.mem_supertypes_iff.mpr ⟨?_, (Compilation.mem_supertypes_iff.mp hmiddle).2.trans
    (Compilation.mem_supertypes_iff.mp htop).2⟩
  rintro rfl
  obtain ⟨name, hname⟩ := mem_roots_iff.mp hi
  rw [hg.target_of_actor hname, hname] at hnactor
  exact hne (Option.some.inj hnactor).symm

/-- The actors are visited in an order of their own, each after those that it surpasses, and the
supertypes and ancestors of an actor are listed the other way round. What is an ancestor of an
ancestor is an ancestor, if it is not the actor itself. -/
theorem surpassed_actors_first (hv : Visits (ofTargets c sch targets) g) :
    g.visitOrder.Perm g.roots ∧
    (∀ m n, g.Surpasses m n → StandsBefore g.visitOrder n m) ∧
    (∀ i m n, g.Surpasses m n →
      StandsBefore (g.supertypeActors i) m n ∧ StandsBefore (g.ancestors i) m n) ∧
    ∀ i ∈ g.roots, ∀ m ∈ g.ancestors i, ∀ n ∈ g.ancestors m, n ≠ i → n ∈ g.ancestors i :=
  ⟨g.visitOrder_perm, fun _ _ h => hv.grounded.standsBefore_visitOrder h,
    fun i _ _ h => ⟨h.standsBefore_supertypeActors i, h.standsBefore_ancestors i⟩,
    fun _ hi _ hm _ hn hne => hv.grounded.ancestors_trans hi hm hn hne⟩

end

/-- A channel and a guild that implement each other, and a thread that implements the channel. -/
def mutualTypes : Compilation := .ofTypes
  [{ name := "Discord.IChannelActor", kind := .interface, interfaces := ["Discord.IGuildActor"] },
   { name := "Discord.IGuildActor", kind := .interface, interfaces := ["Discord.IChannelActor"] },
   { name := "Discord.IThreadActor", kind := .interface, interfaces := ["Discord.IChannelActor"] }]

def mutualGraph : LinkGraph :=
  let actor (name : String) : Target :=
    { actor := s!"Discord.I{name}Actor", entity := "Discord.IChannel", id := "ulong"
      model := "Discord.Models.IChannelModel" }
  ofTargets mutualTypes ⟨⟨"Discord.ILinkType", [], [], []⟩⟩
    [actor "Thread", actor "Channel", actor "Guild"]

/-- The thread is node 0, the channel node 2 and the guild node 4. -/
theorem mutualGraph_actors : mutualGraph.actors.entries
      = [("Discord.IChannelActor", 2), ("Discord.IGuildActor", 4), ("Discord.IThreadActor", 0)] ∧
    (mutualGraph.target 0).actor = "Discord.IThreadActor" ∧
    (mutualGraph.target 2).actor = "Discord.IChannelActor" ∧
    (mutualGraph.target 0).entity = "Discord.IChannel" ∧
    (mutualGraph.target 2).entity = "Discord.IChannel" ∧
    (mutualGraph.target 4).entity = "Discord.IChannel" := by
  decide +kernel

theorem supertypes_mutualTypes :
    (mutualTypes.supertypes "Discord.IThreadActor").toList
      = ["Discord.IChannelActor", "Discord.IGuildActor"] ∧
    (mutualTypes.supertypes "Discord.IChannelActor").toList = ["Discord.IGuildActor"] := by
  constructor <;> cbv

/-- The thread surpasses the channel, which leads back to itself through the guild. -/
theorem surpassed_actors_first_mutual : mutualGraph.Surpasses 0 2 ∧
    StandsBefore mutualGraph.visitOrder 2 0 ∧ 2 ∈ mutualGraph.visitOrder ∧
    4 ∈ mutualGraph.ancestors 0 := by
  obtain ⟨hperm, hvisit, _, htrans⟩ :=
    surpassed_actors_first (c := mutualTypes) (g := mutualGraph) .refl
  obtain ⟨hentries, hthread, hchannel, hentity, hentity', hentity''⟩ := mutualGraph_actors
  obtain ⟨hsupertypes, hsupertypes'⟩ := supertypes_mutualTypes
  have hcompilation : mutualGraph.compilation = mutualTypes := grounded_ofTargets.compilation_eq
  have hroot {name : String} {i : NodeId} (h : (name, i) ∈ mutualGraph.actors.entries) :
      mutualGraph.actor? name = some i := Dict.mem_entries_iff.mp h
  have hsurpasses : mutualGraph.Surpasses 0 2 := by
    rw [Surpasses, hcompilation, hthread, hchannel, Bool.eq_false_iff, ne_eq,
      Compilation.implements_iff, Compilation.implements_iff, SortedSet.mem_iff, SortedSet.mem_iff,
      hsupertypes, hsupertypes']
    decide
  have hchannelThread : 2 ∈ mutualGraph.ancestors 0 := by
    rw [mem_ancestors_iff, hcompilation, hthread]
    refine ⟨⟨_, ?_, hroot (by rw [hentries]; exact List.mem_cons_self)⟩,
      Or.inl (hentity'.trans hentity.symm)⟩
    rw [SortedSet.mem_iff, hsupertypes]
    decide
  have hguildChannel : 4 ∈ mutualGraph.ancestors 2 := by
    rw [mem_ancestors_iff, hcompilation, hchannel]
    refine ⟨⟨_, ?_, hroot (by rw [hentries]; exact List.mem_cons_of_mem _ List.mem_cons_self)⟩,
      Or.inl (hentity''.trans hentity'.symm)⟩
    rw [SortedSet.mem_iff, hsupertypes']
    decide
  have hroots : mutualGraph.roots = [2, 4, 0] := by rw [roots, Dict.values, hentries]; rfl
  refine ⟨hsurpasses, hvisit 0 2 hsurpasses, hperm.mem_iff.mpr (by rw [hroots]; decide), ?_⟩
  exact htrans 0 (by rw [hroots]; decide) 2 hchannelThread 4 hguildChannel (by decide)

end ActorLinks.LinkGraph
