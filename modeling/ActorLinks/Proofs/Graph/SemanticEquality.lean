import ActorLinks.Proofs.Graph.Equivalents

/-! # Semantic equality

Nodes are semantically equal where they share their traits, so this is an equivalence. The type name
is a trait of all nodes but link types, whose names come from the entries of the schematic. Two of
these may share a symbol but not their type parameters: then the link types that they stand behind
are equal and named differently.
-/
namespace ActorLinks

/-- The entry stands behind link types of this kind: those above accept it. -/
inductive Schematic.Stands (s : Schematic) : LinkKind → Schematic.Entry → Prop
  | top {k : LinkKind} {e : Schematic.Entry} (he : e ∈ s.root.children)
    (hk : LinkTree.accepted? none e = some k) : Stands s k e
  | nested {k l : LinkKind} {e f : Schematic.Entry} (above : Stands s l f) (he : e ∈ f.children)
    (hk : LinkTree.accepted? (some l) e = some k) : Stands s k e

theorem Schematic.Stands.kind?_eq {s : Schematic} {k : LinkKind} {e : Schematic.Entry}
    (h : s.Stands k e) : e.kind? = some k := by
  cases h with
  | top _ hk => exact (Spot.accepted?_eq_some.mp hk).1
  | nested _ _ hk => exact (Spot.accepted?_eq_some.mp hk).1

theorem Schematic.Entry.typeName_congr {e f : Schematic.Entry} (hsymbol : e.symbol = f.symbol)
    (hparameters : e.typeParameters = f.typeParameters) : e.typeName = f.typeName := by
  rw [typeName, typeName, name, name, hsymbol, hparameters]

namespace Arena
variable {a : Arena} {m n : NodeId}

theorem semanticEq_equivalence (a : Arena) : Equivalence fun m n => a.semanticEq m n = true where
  refl _ := semanticEq_iff.mpr rfl
  symm h := semanticEq_iff.mpr (semanticEq_iff.mp h).symm
  trans h h' := semanticEq_iff.mpr ((semanticEq_iff.mp h).trans (semanticEq_iff.mp h'))

theorem category_eq_of_semanticEq (h : a.semanticEq m n = true) : a.category m = a.category n := by
  rw [← traits_fst, semanticEq_iff.mp h, traits_fst]

theorem traits_of_ne_linkType (h : a.category n ≠ .linkType) :
    a.traits n = (a.category n, a.typeName n, a.isImplemented n) := by
  unfold traits category at *
  cases hk : a.kind n with
  | linkType k e => exact absurd (by rw [hk]; rfl) h
  | _ => rfl

theorem typeName_eq_of_semanticEq (h : a.semanticEq m n = true) (hm : a.category m ≠ .linkType) :
    a.typeName m = a.typeName n := by
  have hn : a.category n ≠ .linkType := category_eq_of_semanticEq h ▸ hm
  have htraits := semanticEq_iff.mp h
  rw [traits_of_ne_linkType hm, traits_of_ne_linkType hn] at htraits
  exact (Prod.mk.inj (Prod.mk.inj htraits).2).1

theorem exists_linkType_of_category (h : a.category n = .linkType) :
    ∃ k e, a.kind n = .linkType k e := by
  unfold category at h
  cases hk : a.kind n with
  | linkType k e => exact ⟨k, e, rfl⟩
  | _ => simp [hk, NodeKind.category] at h

theorem semanticEq_linkType_iff {k l : LinkKind} {e f : Schematic.Entry}
    (hm : a.kind m = .linkType k e) (hn : a.kind n = .linkType l f) :
    a.semanticEq m n = true ↔ e.symbol = f.symbol := by
  rw [semanticEq_iff, traits_linkType hm, traits_linkType hn]
  simp

end Arena

namespace LinkGraph
variable {c : Compilation} {sch : Schematic} {targets : List Target} {g : LinkGraph}
  {i s : NodeId} {k : LinkKind} {e : Schematic.Entry}

section Grounded
variable (hg : Grounded c sch targets g)
include hg

theorem Grounded.stands_of_linkType (hk : g.arena.kind i = .linkType k e) : sch.Stands k e := by
  induction i using Nat.strongRecOn generalizing k e with
  | ind i ih =>
    obtain ⟨p, within, f, hp, _, he, haccepted, ⟨_, rfl, rfl⟩ | ⟨l, rfl, hkp⟩⟩ :=
      hg.exists_position hk
    · exact .top he haccepted
    · exact .nested (ih p (Arena.lt_of_parent hp) hkp) he haccepted

theorem Grounded.exists_linkType (hs : IsRootOf c sch g.arena s) (h : sch.Stands k e) :
    ∃ n, g.arena.kind n = .linkType k e := by
  induction h with
  | top he haccepted =>
    have hcarries : g.arena.Carries c (g.target s) (.position none sch.root.children) s :=
      hs.2.children
    obtain ⟨n, _, hn⟩ := hcarries.exists_child he haccepted
    exact ⟨n, hn⟩
  | nested _ he haccepted ih =>
    obtain ⟨q, hq⟩ := ih
    obtain ⟨n, _, hn⟩ := (hg.carries_linkType hq).exists_child he haccepted
    exact ⟨n, hn⟩

theorem Grounded.exists_root_of_mem {t : Target} (ht : t ∈ targets) :
    ∃ r, IsRootOf c sch g.arena r := by
  obtain ⟨r, hr⟩ := hg.exists_actor ht
  exact ⟨r, hg.root_of_actor hr⟩

/-- Semantically equal nodes that are named differently are link types of one symbol with different
type parameters. -/
theorem Grounded.typeName_eq_or (h : g.arena.semanticEq i s = true) :
    g.arena.typeName i = g.arena.typeName s ∨ ∃ k e f, g.arena.kind i = .linkType k e ∧
      g.arena.kind s = .linkType k f ∧ e.symbol = f.symbol ∧
      e.typeParameters ≠ f.typeParameters := by
  by_cases hcategory : g.arena.category i = .linkType
  · obtain ⟨k, e, hi⟩ := Arena.exists_linkType_of_category hcategory
    obtain ⟨l, f, hs⟩ := Arena.exists_linkType_of_category
      ((Arena.category_eq_of_semanticEq h).symm.trans hcategory)
    have hsymbol := (Arena.semanticEq_linkType_iff hi hs).mp h
    have hkind : k = l := by
      have he := (hg.stands_of_linkType hi).kind?_eq
      have hf := (hg.stands_of_linkType hs).kind?_eq
      rw [Schematic.Entry.kind?, hsymbol, ← Schematic.Entry.kind?, hf] at he
      exact (Option.some.inj he).symm
    subst hkind
    by_cases hparameters : e.typeParameters = f.typeParameters
    · left
      rw [Arena.typeName_linkType hi, Arena.typeName_linkType hs,
        Schematic.Entry.typeName_congr hsymbol hparameters]
    · exact Or.inr ⟨k, e, f, hi, hs, hsymbol, hparameters⟩
  · exact Or.inl (Arena.typeName_eq_of_semanticEq h hcategory)

end Grounded

/-- Semantic equality is an equivalence, and equal nodes share their category; also their type name,
unless they are link types of one symbol with different type parameters. So all equal nodes share
their type names exactly where all entries of one symbol that stand in the trees do. -/
theorem semanticEq_typeName_iff (c : Compilation) (sch : Schematic) (targets : List Target) :
    (Equivalence fun m n => (ofTargets c sch targets).arena.semanticEq m n = true) ∧
    (∀ m n, (ofTargets c sch targets).arena.semanticEq m n = true →
      (ofTargets c sch targets).arena.category m = (ofTargets c sch targets).arena.category n ∧
      ((ofTargets c sch targets).arena.typeName m = (ofTargets c sch targets).arena.typeName n ∨
        ∃ k e f, (ofTargets c sch targets).arena.kind m = .linkType k e ∧
          (ofTargets c sch targets).arena.kind n = .linkType k f ∧ e.symbol = f.symbol ∧
          e.typeParameters ≠ f.typeParameters)) ∧
    ((∀ m n, (ofTargets c sch targets).arena.semanticEq m n = true →
        (ofTargets c sch targets).arena.typeName m
          = (ofTargets c sch targets).arena.typeName n) ↔
      (targets ≠ [] → ∀ k e l f, sch.Stands k e → sch.Stands l f → e.symbol = f.symbol →
        e.typeName = f.typeName)) := by
  have hg : Grounded c sch targets (ofTargets c sch targets) := grounded_ofTargets
  refine ⟨Arena.semanticEq_equivalence _,
    fun m n h => ⟨Arena.category_eq_of_semanticEq h, hg.typeName_eq_or h⟩, ?_, ?_⟩
  · intro hnames htargets k e l f he hf hsymbol
    obtain ⟨t, ht⟩ := List.exists_mem_of_ne_nil _ htargets
    obtain ⟨r, hr⟩ := hg.exists_root_of_mem ht
    obtain ⟨m, hm⟩ := hg.exists_linkType hr he
    obtain ⟨n, hn⟩ := hg.exists_linkType hr hf
    rw [← Arena.typeName_linkType hm, ← Arena.typeName_linkType hn]
    exact hnames m n ((Arena.semanticEq_linkType_iff hm hn).mpr hsymbol)
  · intro hnames m n h
    rcases hg.typeName_eq_or h with hname | ⟨k, e, f, hm, hn, hsymbol, _⟩
    · exact hname
    · rw [Arena.typeName_linkType hm, Arena.typeName_linkType hn]
      refine hnames ?_ k e k f (hg.stands_of_linkType hm) (hg.stands_of_linkType hn) hsymbol
      rintro rfl
      exact absurd (lt_size_of_linkType hm) (Nat.not_lt_zero m)

/-- Two entries for pages, by one parameter and by two. -/
def pagedLinks : Schematic :=
  ⟨⟨"Discord.ILinkType", [], [],
    [⟨"Discord.ILinkType.Paged", ["T"], [], []⟩, ⟨"Discord.ILinkType.Paged", ["T", "P"], [], []⟩]⟩⟩

def pagedGraph : LinkGraph := ofTargets (.ofTypes []) pagedLinks
  [channelModelTarget "Discord.IChannelActor" "Discord.IChannel"]

/-- The link types of both are equal and have different names. -/
theorem paged_names_differ : pagedGraph.arena.semanticEq 2 4 = true ∧
    2 < pagedGraph.arena.size ∧ 4 < pagedGraph.arena.size ∧
    pagedGraph.arena.typeName 2 = "Paged<T>" ∧ pagedGraph.arena.typeName 4 = "Paged<T, P>" := by
  decide +kernel

end LinkGraph

end ActorLinks
