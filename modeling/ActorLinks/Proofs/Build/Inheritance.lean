import ActorLinks.Proofs.Build.Members
import ActorLinks.Proofs.Build.Total
import ActorLinks.Proofs.Composition.Bases

/-! # Inheritance through bases

A declaration names as bases what its node composes and its parent does not. Where no two siblings
agree, a walk down the path of the parent ends at the parent, so the parent itself is composed
and stands among the bases. What it composes is then inherited through it, and nothing is lost.
-/
namespace ActorLinks

namespace Arena

/-- No two siblings agree. -/
def Distinct (a : Arena) : Prop :=
  ∀ p < a.size, ∀ x ∈ a.children p, ∀ y ∈ a.children p, a.semanticEq x y = true → x = y

instance (a : Arena) : Decidable a.Distinct :=
  inferInstanceAs (Decidable (∀ p < a.size, ∀ x ∈ a.children p, ∀ y ∈ a.children p,
    a.semanticEq x y = true → x = y))

variable {a : Arena}

theorem step?_self (hd : a.Distinct) {i p : NodeId} (hp : a.parent? i = some p) :
    a.step? p i = some i := by
  have hmem : i ∈ a.children p := mem_children_iff.mpr hp
  have hself : a.semanticEq i i = true := semanticEq_iff.mpr rfl
  have hsome : (a.step? p i).isSome = true := List.find?_isSome.mpr ⟨i, hmem, hself⟩
  obtain ⟨n, hn⟩ := Option.isSome_iff_exists.mp hsome
  have hsame : a.semanticEq n i = true :=
    List.find?_some (p := fun c => a.semanticEq c i) hn
  have hlt := Nat.lt_trans (lt_of_parent hp) (lt_size_of_parent hp)
  rw [hn, hd p hlt n (List.mem_of_find?_eq_some hn) i hmem hsame]

theorem walk?_path (hd : a.Distinct) {start i : NodeId} {path : List NodeId}
    (hpath : a.Descends start path) (hlast : path.getLast? = some i) :
    a.walk? start path = some i := by
  induction path generalizing start with
  | nil => cases hlast
  | cons x xs ih =>
    obtain ⟨hx, hxs⟩ := List.isChain_cons_cons.mp hpath
    rw [walk?, step?_self hd hx, Option.bind_some]
    cases xs with
    | nil =>
      cases hlast
      rfl
    | cons y ys => exact ih hxs hlast

theorem path_eq_fullPath {i p : NodeId} (hp : a.parent? i = some p) (hne : a.fullPath p ≠ "") :
    a.path i = a.fullPath p := by
  have hpath : (a.path p).isEmpty = false := by
    rw [Bool.eq_false_iff]
    intro hempty
    exact hne (by rw [fullPath, if_pos hempty, String.isEmpty_iff.mp hempty])
  have hparents : (a.parents p).reverse.map a.typeName ≠ [] := by
    intro hnil
    simp [path, pathOver, hnil] at hpath
  rw [fullPath, hpath]
  simp only [path, pathOver, parents_of_some hp, List.filter_true, List.reverse_cons,
    List.map_append, List.map_cons, List.map_nil]
  rw [String.intercalate_append_of_ne_nil hparents (List.cons_ne_nil _ _),
    String.intercalate_singleton]
  rfl

section Nested
variable (h : a.Nested)
include h

theorem Nested.category_of_mem_pathBelow {i q : NodeId} (hi : i < a.size)
    (hk : a.category i = .linkType ∨ a.category i = .hierarchy) (hq : q ∈ a.pathBelow i) :
    a.category q ≠ .extension := by
  have hself : a.category i ≠ .extension := by rcases hk with hk | hk <;> simp [hk]
  induction i using Nat.strongRecOn with
  | ind i ih =>
    cases hp : a.parent? i with
    | none => rcases hk with hk | hk <;> simp [h.actor_of_orphan i hi hp] at hk
    | some p =>
      have hadmits := h.admits hp
      cases hkp : (a.kind p).isActor with
      | true =>
        rw [pathBelow_of_actor hp hkp, List.mem_singleton] at hq
        exact hq ▸ hself
      | false =>
        rw [pathBelow_of_parent hp hkp] at hq
        rcases List.mem_append.mp hq with hq | hq
        · have hlinkType : a.category p = .linkType := by
            cases hcat : a.category p with
            | linkType => rfl
            | actor => exact absurd (beq_iff_eq.mpr hcat) (Bool.eq_false_iff.mp hkp)
            | _ => rcases hk with hk | hk <;> simp [hcat, hk, Category.admits] at hadmits
          exact ih p (lt_of_parent hp) (Nat.lt_trans (lt_of_parent hp) hi) (Or.inl hlinkType) hq
            (by simp [hlinkType])
        · exact List.mem_singleton.mp hq ▸ hself

/-- A link type or an extension that the parent of such a node composes stands beside a parent of
the same category. -/
theorem Nested.category_parent {i p n : NodeId} (hp : a.parent? i = some p)
    (hk : a.category i = .linkType ∨ a.category i = .extension)
    (hn : n ∈ a.composition p true none) (hcat : a.category n = a.category i) :
    a.category p = a.category i := by
  have hadmits := h.admits hp
  have hpi := Nat.lt_trans (lt_of_parent hp) (lt_size_of_parent hp)
  obtain ⟨root, hroot, _, _, hreach, _⟩ := h.mem_composition_true_iff.mp hn
  have hactor : a.category p ≠ .actor := by
    intro hactor
    have hnone := (h.isActor_iff hpi).mp (beq_iff_eq.mpr hactor)
    simp [rootActor?, parents_of_none hnone] at hroot
  obtain ⟨q, hq, hqn⟩ := hreach.exists_segment
  rcases hk with hk | hk
  · rw [hk] at hadmits ⊢
    cases hkp : a.category p with
    | linkType => rfl
    | actor => exact absurd hkp hactor
    | _ => simp [hkp, Category.admits] at hadmits
  · rw [hk] at hadmits hcat ⊢
    -- on the path of a link type or a hierarchy there is no extension to compose
    have habove {k : Category} (hkp : a.category p = k) (hno : k = .linkType ∨ k = .hierarchy) :
        a.category p = .extension :=
      absurd (hqn.trans hcat) (h.category_of_mem_pathBelow hpi (hkp ▸ hno) hq)
    cases hkp : a.category p with
    | extension => rfl
    | actor => exact absurd hkp hactor
    | linkType => exact hkp ▸ habove hkp (Or.inl rfl)
    | hierarchy => exact hkp ▸ habove hkp (Or.inr rfl)
    | backLink => simp [hkp, Category.admits] at hadmits

end Nested

end Arena

namespace LinkGraph

/-- The declaration that is built for `x` has `y` among its bases for the sake of composition.
What stands directly below a nameless actor has no path to be named by. -/
def Derives (g : LinkGraph) (x y : NodeId) : Prop :=
  y ∈ g.composedBases x ∧ ∃ decl hoisted, g.buildNode x = .ok ⟨some decl, hoisted⟩ ∧
    (g.arena.fullPath y ≠ "" → g.arena.fullPath y ∈ decl.bases)

variable {g : LinkGraph}

theorem exists_parent_of_mem {i n : NodeId} (hn : n ∈ g.implicitComposition i) :
    ∃ p, g.arena.parent? i = some p := by
  cases hp : g.arena.parent? i with
  | none =>
    have hroot : g.arena.rootActor? i = none := by simp [Arena.rootActor?, Arena.parents_of_none hp]
    unfold implicitComposition Arena.composition at hn
    simp [hroot] at hn
  | some p => exact ⟨p, rfl⟩

section Distinct
variable (h : g.arena.Nested) (hd : g.arena.Distinct)
include h hd

theorem parent_mem_exclusive {i p : NodeId} (hp : g.arena.parent? i = some p)
    (hk : (g.arena.kind p).isActor = false) : p ∈ g.exclusiveComposition i := by
  have hi := Arena.lt_size_of_parent hp
  have hpi := Arena.lt_of_parent hp
  obtain ⟨root, hroot, hactor, hpath⟩ := h.exists_root (Nat.lt_trans hpi hi) hk
  have hki := h.isActor_of_parent hp
  have hwalk := Arena.walk?_path hd hpath (Arena.getLast?_pathBelow p)
  rw [exclusiveComposition, inheritedComposition, hp, SortedSet.mem_diff]
  simp only [implicitComposition, hk, hki, Bool.false_eq_true, if_false]
  constructor
  · refine h.mem_composition_true_iff.mpr
      ⟨root, (Arena.rootActor?_of_parent hp hk).trans hroot, hactor, ?_, ?_, Nat.ne_of_lt hpi⟩
    · exact hpath.below_parent hp hk
    · rw [Arena.pathBelow_of_parent hp hk]
      exact ⟨_, List.ne_nil_of_mem (List.mem_of_getLast? (Arena.getLast?_pathBelow p)),
        List.sublist_append_left _ _, hwalk⟩
  · intro hself
    obtain ⟨_, _, _, _, _, hne⟩ := h.mem_composition_true_iff.mp hself
    exact hne rfl

/-- Directly below an actor nothing is composed. -/
theorem not_mem_implicitComposition {i p n : NodeId} (hp : g.arena.parent? i = some p)
    (hk : (g.arena.kind p).isActor = true) : n ∉ g.implicitComposition i := by
  intro hn
  simp only [implicitComposition, h.isActor_of_parent hp, Bool.false_eq_true, if_false] at hn
  obtain ⟨root, hroot, _, _, ⟨segments, hne, hsub, hwalk⟩, hni⟩ :=
    h.mem_composition_true_iff.mp hn
  rw [Arena.pathBelow_of_actor hp hk, List.sublist_singleton] at hsub
  obtain rfl := hsub.resolve_left hne
  obtain rfl := Option.some.inj ((Arena.rootActor?_of_actor hp hk).symm.trans hroot)
  rw [Arena.walk?, Arena.step?_self hd hp] at hwalk
  exact hni (Option.some.inj hwalk).symm

end Distinct

theorem mem_composedBases {i n : NodeId} (ht : g.arena.isTemplate i = false)
    (hk : g.arena.category i = .linkType ∨ g.arena.category i = .extension)
    (hn : n ∈ g.ownComposition i) (hcat : g.arena.category n = g.arena.category i) :
    n ∈ g.composedBases i := by
  rcases hk with hk | hk
  · have hn' : (g.arena.kind n).category = .linkType := hcat.trans hk
    simp [composedBases, hk, ht, hn, NodeKind.isLinkType, hn']
  · have hn' : (g.arena.kind n).category = .extension := hcat.trans hk
    simp [composedBases, hk, ht, hn, isExtensionNode, NodeKind.isExtension, hn']

namespace Complete
variable (h : g.Complete)
include h

theorem exists_linkTypeBases {i : NodeId} (hi : i < g.arena.size)
    (hk : g.arena.category i = .linkType) (ht : (g.target i).assembly ≠ .gateway) :
    ∃ visited decl hoisted, g.state? i = some visited ∧
      g.linkTypePart i = .ok (.spread decl hoisted) ∧
      ∀ b ∈ g.linkTypeBases i visited, b ≠ "" → b ∈ decl.bases := by
  obtain ⟨visited, hvisited⟩ := h.exists_state i hi
  obtain ⟨part, hpart⟩ := h.exists_linkTypePart hi hk
  have hdeclared : (!(g.target i).isCore && (g.target i).assemblyLinkType.isNone) = false := by
    cases hassembly : (g.target i).assembly with
    | core => simp [Target.isCore, hassembly]
    | rest => simp [Target.assemblyLinkType, hassembly]
    | gateway => exact absurd hassembly ht
  rw [hpart]
  simp only [linkTypePart, expectState, hvisited, bind, Except.bind, pure, Except.pure] at hpart
  split at hpart
  · next state kind entry _ _ =>
    rw [hdeclared] at hpart
    cases hpart
    obtain ⟨decl, hoisted, heq, hbases⟩ := withImplementation_spread (g := g) i _ _ _
    refine ⟨visited, decl, hoisted, hvisited, congrArg Except.ok heq, fun b hb hne => ?_⟩
    rw [hbases, TypeDecl.bases_addMembers, TypeDecl.bases_addConstraints,
      TypeDecl.mem_bases_addBases]
    exact Or.inr ⟨hb, hne⟩
  · cases hpart

theorem exists_extensionBases {i : NodeId} (hi : i < g.arena.size)
    (hk : g.arena.category i = .extension) :
    ∃ visited symbol s decl hoisted, g.state? i = some visited ∧
      g.extensionPart i = .ok (.spread decl hoisted) ∧
      ∀ b ∈ g.extensionBases i symbol visited s, b ≠ "" → b ∈ decl.bases := by
  obtain ⟨visited, hvisited⟩ := h.exists_state i hi
  obtain ⟨part, hpart⟩ := h.exists_extensionPart hi hk
  rw [hpart]
  simp only [extensionPart, expectState, hvisited, bind, Except.bind, pure, Except.pure] at hpart
  split at hpart
  · next s symbol _ _ =>
    cases hpart
    obtain ⟨decl, hoisted, heq, hbases⟩ := withImplementation_spread (g := g) i _ _ _
    refine ⟨visited, symbol, s, decl, hoisted, hvisited, congrArg Except.ok heq, fun b hb hne => ?_⟩
    rw [hbases, TypeDecl.mem_bases_addBases]
    exact Or.inr ⟨hb, hne⟩
  · cases hpart

/-- What is spread takes in what is below, and keeps its name and bases. -/
theorem exists_decl {i p : NodeId} (hp : g.arena.parent? i = some p) {decl : TypeDecl}
    {hoisted : List TypeDecl}
    (hpart : g.partAs (g.arena.category i) i = .ok (.spread decl hoisted)) :
    ∃ full classes, g.buildNode i = .ok ⟨some full, classes⟩ ∧ full.name = decl.name ∧
      full.bases = decl.bases := by
  obtain ⟨built, hbuilt⟩ := h.exists_buildNode hp
  rw [hbuilt]
  unfold buildNode buildChildAs at hbuilt
  simp only [hpart, bind, Except.bind, pure, Except.pure] at hbuilt
  split at hbuilt
  · cases hbuilt
  · cases hbuilt
    exact ⟨_, _, rfl, TypeDecl.name_addMembers _ _, TypeDecl.bases_addMembers _ _⟩

theorem derives {i p n : NodeId} (hp : g.arena.parent? i = some p)
    (hk : g.arena.category i = .linkType ∨ g.arena.category i = .extension)
    (ht : (g.target i).assembly ≠ .gateway) (hn : n ∈ g.composedBases i) : g.Derives i n := by
  have hi := Arena.lt_size_of_parent hp
  refine ⟨hn, ?_⟩
  unfold composedBases at hn
  rcases hk with hk | hk
  · obtain ⟨visited, decl, hoisted, hvisited, hpart, hbases⟩ := h.exists_linkTypeBases hi hk ht
    obtain ⟨full, classes, hbuilt, _, hfull⟩ := h.exists_decl hp (by rw [hk]; exact hpart)
    refine ⟨full, classes, hbuilt, fun hne => hfull ▸ hbases _ ?_ hne⟩
    simp only [hk] at hn
    split at hn
    · cases hn
    · next htemplate =>
      rw [ownComposition, hvisited] at hn
      rw [linkTypeBases, SortedSet.mem_ofList, if_neg htemplate]
      exact List.mem_append_left _ (List.mem_append_left _ (List.mem_map_of_mem hn))
  · obtain ⟨visited, symbol, s, decl, hoisted, hvisited, hpart, hbases⟩ :=
      h.exists_extensionBases hi hk
    obtain ⟨full, classes, hbuilt, _, hfull⟩ := h.exists_decl hp (by rw [hk]; exact hpart)
    refine ⟨full, classes, hbuilt, fun hne => hfull ▸ hbases _ ?_ hne⟩
    simp only [hk] at hn
    split at hn
    · cases hn
    · next htemplate =>
      rw [ownComposition, hvisited] at hn
      rw [extensionBases, SortedSet.mem_ofList, if_neg htemplate]
      refine List.mem_append_left _ (List.mem_append_right _ ?_)
      rcases List.mem_append.mp hn with hparent | hcomposed
      · rw [hp] at hparent
        obtain rfl := List.mem_singleton.mp hparent
        rw [← Arena.path_eq_fullPath hp hne]
        exact List.mem_cons_self
      · exact List.mem_cons_of_mem _ (List.mem_flatMap.mpr ⟨n, hcomposed, List.mem_cons_self⟩)

end Complete

section
variable {c : Compilation} {s : Schematic} {targets : List Target}

/-- Where no two siblings agree, the bases of the built declarations lead from a link type to every
link type that it composes, and from an extension to every extension. -/
theorem composition_reached_by_bases (hv : Visits (ofTargets c s targets) g)
    (hg : g.isVisited = true) (hd : g.arena.Distinct) {i n : NodeId} {own : NodeState}
    (hown : g.state? i = some own) (hn : n ∈ own.implicitComposition)
    (hassembly : (g.target i).assembly ≠ .gateway)
    (hk : g.arena.category i = .linkType ∨ g.arena.category i = .extension)
    (hcat : g.arena.category n = g.arena.category i) : Relation.TransGen g.Derives i n := by
  have hsize := hv.progress.size_eq
  have hcomplete : g.Complete := hv.complete_of_states fun j hj =>
    (isVisited_iff.mp hg).2 j (hsize ▸ hj)
  have hnested := hcomplete.nested
  have hown' : own.implicitComposition = g.implicitComposition i := (hv.composed hown).1
  rw [hown'] at hn
  clear hown hown'
  induction i using Nat.strongRecOn with
  | ind i ih =>
    obtain ⟨p, hp⟩ := exists_parent_of_mem hn
    have hkp : (g.arena.kind p).isActor = false := by
      rw [Bool.eq_false_iff]
      intro hactor
      exact not_mem_implicitComposition hnested hd hp hactor hn
    have htemplate : g.arena.isTemplate i = false := by simp only [Arena.isTemplate, hp, hkp]
    have hstep {m : NodeId} (hm : m ∈ g.exclusiveComposition i)
        (hmk : g.arena.category m = g.arena.category i) : g.Derives i m := by
      obtain ⟨t, ht⟩ := hcomplete.exists_state i (Arena.lt_size_of_parent hp)
      refine hcomplete.derives hp hk hassembly (mem_composedBases htemplate hk ?_ hmk)
      have hown : m ∈ t.composition := (hv.composed ht).2 ▸ hm
      rw [ownComposition, ht]
      exact hown
    rcases (mem_implicitComposition_iff hnested hp).mp hn with habove | hexclusive
    · have hsearch : n ∈ g.arena.composition p true none := by
        rwa [implicitComposition, hkp] at habove
      have hsame := hnested.category_parent hp hk hsearch hcat
      have hparent : g.Derives i p := hstep (parent_mem_exclusive hnested hd hp hkp) hsame
      have hrest : Relation.TransGen g.Derives p n := by
        refine ih p (Arena.lt_of_parent hp) habove ?_ (hsame ▸ hk) (hcat.trans hsame.symm)
        rwa [← hv.grounded.target_of_parent hp]
      exact .head hparent hrest
    · exact .single (hstep hexclusive hcat)

end

/-- The parent of the link type composes the other one already, so it is inherited from there. -/
theorem composition_reached_by_bases_sample :
    ∃ own, sampleGraph.visit.1.state? 24 = some own ∧ 40 ∈ own.implicitComposition ∧
      Relation.TransGen sampleGraph.visit.1.Derives 24 40 := by
  have hsample : sampleGraph.visit.1.isVisited = true ∧ sampleGraph.visit.1.arena.Distinct ∧
      (sampleGraph.visit.1.state? 24).any (40 ∈ ·.implicitComposition) = true ∧
      (sampleGraph.visit.1.target 24).assembly ≠ .gateway ∧
      sampleGraph.visit.1.arena.category 24 = .linkType ∧
      sampleGraph.visit.1.arena.category 40 = .linkType := by decide +kernel
  obtain ⟨hvisited, hdistinct, hany, hassembly, hk, hcat⟩ := hsample
  obtain ⟨own, hown, hmem⟩ := (Option.any_eq_true _ _).mp hany
  have hmem : 40 ∈ own.implicitComposition := of_decide_eq_true hmem
  exact ⟨own, hown, hmem, composition_reached_by_bases (.again .refl) hvisited hdistinct hown hmem
    hassembly (Or.inl hk) (hcat.trans hk.symm)⟩

end LinkGraph

end ActorLinks
