import ActorLinks.Proofs.Build.EmittedClasses

/-! # First bases of hoisted classes

The first base of a hoisted class is named as a class of an actor: the root class, or one that is
hoisted itself. Whether a node has a class is decided by its being outside the core assembly, but
root classes are declared in the rest assembly only, and link types of the gateway assembly are left
out with all below them. So the first base is declared unless it stands for an actor or a link type
of that assembly.
-/
namespace ActorLinks.LinkGraph

section
variable {c : Compilation} {sch : Schematic} {targets : List Target} {g : LinkGraph}
  {i j b root : NodeId} {d : TypeDecl} {below : List Built}

/-- Above a node whose class is hoisted, the implemented ones are the actor and nodes whose classes
are hoisted too. -/
theorem Grounded.eq_or_mem_classNodes (hg : Grounded c sch targets g) (hroot : root ∈ g.roots)
    (hi : i ∈ g.classNodes root) (hj : j ∈ g.arena.parents i)
    (himplemented : g.arena.isImplemented j = true) : j = root ∨ j ∈ g.classNodes root := by
  obtain ⟨hir, _, hspreads⟩ :=
    spreads_of_mem_classNodes (hg.isActor_of_mem_roots hroot).2 hg.nested hi
  have hlt := Arena.lt_size_of_mem_parents hj
  cases hk : (g.arena.kind j).isActor with
  | true =>
    refine Or.inl (hg.eq_of_mem_roots (hg.mem_roots_of_isActor hlt hk) hroot ?_)
    rw [hg.target_of_mem_parents hj, hg.target_of_mem_parents (List.mem_of_find?_eq_some hir)]
  | false =>
    obtain ⟨r, hr, _⟩ := hg.nested.exists_root hlt hk
    obtain rfl := Option.some.inj ((hg.nested.rootActor?_of_mem_parents hj hr).symm.trans hir)
    refine Or.inr (mem_classNodes hg.nested hr ?_ fun n hn => hspreads n ?_)
    · rw [hoists, himplemented, hr]
      rfl
    · exact Arena.mem_spine_trans hn (List.mem_cons_of_mem _ hj)

/-- The class of a link type goes below the root class of its actor, or below that of another link
type that is implemented. -/
theorem Visits.classBase?_linkType (hv : Visits (ofTargets c sch targets) g)
    (hvisited : g.isVisited = true) (hk : g.arena.category i = .linkType)
    (hroot : g.arena.rootActor? i = some root) :
    g.classBase? i = some root ∨ ∃ j b, g.classBase? i = some j ∧
      g.arena.category j = .linkType ∧ g.arena.rootActor? j = some b ∧
        g.arena.isImplemented j = true := by
  obtain ⟨v, hstate⟩ :=
    (hv.complete_of_isVisited hvisited).exists_state i (Arena.lt_size_of_rootActor? hroot)
  have hcategory := (hv.fitting hstate).1.trans hk
  cases hdetail : v.detail with
  | linkType l =>
    have hl := linkTypeState?_eq_some.mpr ⟨v, hstate, hdetail⟩
    rw [classBase?, hk]
    simp only [hl, Option.bind_some, hroot]
    cases hbase : l.implementationBase with
    | none => exact Or.inl rfl
    | some j =>
      obtain ⟨_, b, _, _, hjb, hkj, himplemented⟩ := hv.linksBelowBases hl hbase
      exact Or.inr ⟨j, b, rfl, hkj, hjb, himplemented⟩
  | _ => simp [hdetail, NodeDetail.category] at hcategory

/-- The class of a node goes below the root class of its actor, a class that is hoisted too, or that
of a link type below the base actor. -/
theorem Visits.exists_classBase (hv : Visits (ofTargets c sch targets) g)
    (hvisited : g.isVisited = true) (hroot : root ∈ g.roots) (hi : i ∈ g.classNodes root) :
    ∃ j b, g.classBase? i = some j ∧ b ∈ g.roots ∧ g.target j = g.target b ∧
      (g.target b).isCore = false ∧ (j = b ∨ j ∈ g.classNodes b ∨
        g.arena.category j = .linkType ∧ g.arena.rootActor? j = some b ∧ g.hoists j = true) := by
  have hg := hv.grounded
  obtain ⟨_, hk⟩ := hg.isActor_of_mem_roots hroot
  obtain ⟨hir, hhoists, _⟩ := spreads_of_mem_classNodes hk hg.nested hi
  have hcore {n r : NodeId} (hn : g.arena.rootActor? n = some r)
      (himplemented : g.arena.isImplemented n = true) : (g.target r).isCore = false := by
    have hncore : g.arena.isCore n = false := by
      simpa using (Bool.and_eq_true_iff.mp himplemented).1
    rw [hg.isCore_of_rootActor? hn] at hncore
    exact hncore
  have hrcore := hcore hir (Bool.and_eq_true_iff.mp hhoists).1
  cases hki : g.arena.category i with
  | actor =>
    have hne := beq_eq_false_iff_ne.mp (hg.nested.isActor_of_rootActor? hir)
    exact absurd hki hne
  | linkType =>
    rcases hv.classBase?_linkType hvisited hki hir with hbase | ⟨j, b, hbase, hkj, hjb, hj⟩
    · exact ⟨root, root, hbase, hroot, rfl, hrcore, Or.inl rfl⟩
    · have htarget := hg.target_of_mem_parents (List.mem_of_find?_eq_some hjb)
      have hjhoists : g.hoists j = true := by
        rw [hoists, hj, hjb]
        rfl
      exact ⟨j, b, hbase, hg.mem_roots_of_rootActor? hjb, htarget.symm, hcore hjb hj,
        Or.inr (Or.inr ⟨hkj, hjb, hjhoists⟩)⟩
  | extension | hierarchy | backLink =>
    have hrimplemented := isImplemented_of_category (Or.inl (beq_iff_eq.mp hk)) hrcore
    obtain ⟨j, hj⟩ : ∃ j, g.arena.implementedParent? i = some j :=
      Option.isSome_iff_exists.mp (List.find?_isSome.mpr
        ⟨root, List.mem_of_find?_eq_some hir, hrimplemented⟩)
    have hmem := List.mem_of_find?_eq_some hj
    have hcase := hg.eq_or_mem_classNodes hroot hi hmem (List.find?_some hj)
    rw [classBase?, hki]
    refine ⟨j, root, hj, hroot, ?_, hrcore, hcase.imp id Or.inl⟩
    rw [hg.target_of_mem_parents hmem, hg.target_of_mem_parents (List.mem_of_find?_eq_some hir)]

/-- Outside the core assembly, a link type is left out in the gateway assembly only. -/
theorem Complete.spreads_linkType_iff (h : g.Complete) (hi : i < g.arena.size)
    (hk : g.arena.category i = .linkType) (hcore : (g.target i).isCore = false) :
    g.Spreads i ↔ (g.target i).assembly ≠ .gateway := by
  have hnone : (!(g.target i).isCore && (g.target i).assemblyLinkType.isNone)
      = ((g.target i).assembly == .gateway) := by
    rw [Target.isCore] at hcore ⊢
    unfold Target.assemblyLinkType
    cases hassembly : (g.target i).assembly with
    | core =>
      rw [hassembly] at hcore
      cases hcore
    | rest => rfl
    | gateway => rfl
  constructor
  · intro hspreads hgateway
    rw [hgateway] at hnone
    exact not_spreads_linkType hk hnone hspreads
  · intro hother
    exact h.spreads_linkType hi hk (hnone.trans (beq_false_of_ne hother))

theorem Grounded.target_of_mem_spine (hg : Grounded c sch targets g) {n : NodeId}
    (hn : n ∈ g.arena.spine i) : g.target n = g.target i := by
  rcases List.mem_cons.mp hn with rfl | hn
  · rfl
  · exact hg.target_of_mem_parents hn

section Base
variable (hv : Visits (ofTargets c sch targets) g) (hvisited : g.isVisited = true)
  (hcore : (g.target b).isCore = false)
include hv hvisited hcore

/-- A link type below an actor of another assembly has its class hoisted. -/
theorem Visits.linkType_mem_classNodes (hk : g.arena.category j = .linkType)
    (hj : g.arena.rootActor? j = some b) (hhoists : g.hoists j = true)
    (hassembly : (g.target b).assembly ≠ .gateway) : j ∈ g.classNodes b := by
  have hg := hv.grounded
  have hplace : g.arena.IsPlace j := Or.inr (Or.inl hk)
  have htarget := hg.target_of_mem_parents (List.mem_of_find?_eq_some hj)
  refine mem_classNodes hg.nested hj hhoists fun n hn hactor => ?_
  have hkn : g.arena.category n = .linkType := by
    rcases hg.nested.isPlace_of_mem_spine hplace n hn with hkn | hkn | hkn
    · exact absurd hkn (beq_eq_false_iff_ne.mp hactor)
    · exact hkn
    · rcases List.mem_cons.mp hn with rfl | hn
      · exact hk
      · have hflat := hg.nested.not_isHierarchy_of_mem_parents hplace n hn
        exact absurd hkn (beq_eq_false_iff_ne.mp hflat)
  have hlt : n < g.arena.size :=
    Nat.lt_of_le_of_lt (Arena.le_of_mem_spine hn) (Arena.lt_size_of_rootActor? hj)
  rw [htarget, ← hg.target_of_mem_spine hn] at hcore hassembly
  exact ((hv.complete_of_isVisited hvisited).spreads_linkType_iff hlt hkn hcore).mpr hassembly

variable (hb : b ∈ g.roots)
include hb

/-- In the gateway assembly no class is hoisted from a link type, nor from below one. -/
theorem Visits.assembly_ne_gateway (hi : i ∈ g.classNodes b) {n : NodeId}
    (hn : n ∈ g.arena.spine i) (hk : g.arena.category n = .linkType) :
    (g.target b).assembly ≠ .gateway := by
  have hg := hv.grounded
  obtain ⟨hir, _, hspreads⟩ :=
    spreads_of_mem_classNodes (hg.isActor_of_mem_roots hb).2 hg.nested hi
  have htarget : g.target n = g.target b := by
    rw [hg.target_of_mem_spine hn, hg.target_of_mem_parents (List.mem_of_find?_eq_some hir)]
  have hlt : n < g.arena.size :=
    Nat.lt_of_le_of_lt (Arena.le_of_mem_spine hn) (Arena.lt_size_of_rootActor? hir)
  rw [← htarget] at hcore ⊢
  exact ((hv.complete_of_isVisited hvisited).spreads_linkType_iff hlt hk hcore).mp
    (hspreads n hn (beq_false_of_ne (by rw [← Arena.category, hk]; simp)))

theorem Visits.declaresClass_linkBase_iff : g.DeclaresClass (g.target b).actor linkBaseName ↔
    (g.target b).assembly ≠ .gateway := by
  have hg := hv.grounded
  have hk := (hg.isActor_of_mem_roots hb).2
  rw [hv.declaresClass_iff hvisited hb]
  constructor
  · rintro (⟨hrest, _⟩ | ⟨i, hi, hname⟩ | ⟨_, hname⟩) hgateway
    · rw [hrest] at hgateway
      cases hgateway
    · obtain ⟨hir, _⟩ := spreads_of_mem_classNodes hk hg.nested hi
      obtain ⟨p, hp⟩ := Arena.exists_parent_of_rootActor? hir
      exact hg.implementationType_ne_linkBase hp hname.symm
    · simp [linkBaseName] at hname
  · intro hother
    refine Or.inl ⟨?_, rfl⟩
    rw [Target.isCore] at hcore
    cases hassembly : (g.target b).assembly with
    | core =>
      rw [hassembly] at hcore
      cases hcore
    | rest => rfl
    | gateway => exact absurd hassembly hother

theorem Visits.declaresClass_linkType_iff (hk : g.arena.category j = .linkType)
    (hj : g.arena.rootActor? j = some b) (hhoists : g.hoists j = true) :
    g.DeclaresClass (g.target b).actor (g.arena.implementationType j) ↔
      (g.target b).assembly ≠ .gateway := by
  have hg := hv.grounded
  obtain ⟨p, hp⟩ := Arena.exists_parent_of_rootActor? hj
  have htarget := hg.target_of_mem_parents (List.mem_of_find?_eq_some hj)
  rw [hv.declaresClass_iff hvisited hb]
  constructor
  · rintro (⟨_, hname⟩ | ⟨i, hi, hname⟩ | ⟨_, hname⟩) hgateway
    · exact hg.implementationType_ne_linkBase hp hname
    · have hmem := mem_parents_of_mem_classNodes hi
      obtain ⟨q, hq⟩ := Arena.exists_parent_of_mem_parents hmem
      refine hg.nested.implementationType_linkType_ne hg.kinded hp hk hq (fun n hn hkn => ?_)
        (htarget.symm.trans (hg.target_of_mem_parents hmem)) hname
      exact hv.assembly_ne_gateway hvisited hcore hb hi hn hkn hgateway
    · exact hg.nested.implementationType_ne_backLink hp hname
  · intro hother
    exact Or.inr (Or.inl
      ⟨j, hv.linkType_mem_classNodes hvisited hcore hk hj hhoists hother, rfl⟩)

end Base

/-- The first base of a hoisted class is a class that the declaration of the actor in its name
contains, but for the root class and the classes of link types in the gateway assembly. -/
theorem first_base_declared_iff (hv : Visits (ofTargets c sch targets) g)
    (hvisited : g.isVisited = true) (hroot : root ∈ g.roots)
    (hbelow : (g.arena.children root).mapM g.buildNode = .ok below) (hd : d ∈ Built.classes below) :
    ∃ i ∈ g.classNodes root, ∃ j, ∃ b ∈ g.roots, d.name = g.arena.implementationType i ∧
      g.classBase? i = some j ∧ (j = b ∨ g.arena.rootActor? j = some b) ∧
      d.bases.head? = some ((g.target b).actor ++ "." ++ g.arena.implementationType j) ∧
      (g.DeclaresClass (g.target b).actor (g.arena.implementationType j) ↔
        ¬((g.target b).assembly = .gateway ∧
          (g.arena.category j = .actor ∨ g.arena.category j = .linkType))) := by
  have hg := hv.grounded
  obtain ⟨i, hi, hclass⟩ := hg.exists_node_of_mem_classes hbelow hd
  obtain ⟨j, b, hbase, hb, htarget, hcore, hcase⟩ := hv.exists_classBase hvisited hroot hi
  obtain ⟨hlt, hk⟩ := hg.isActor_of_mem_roots hb
  have hhead := hclass.head_bases j hbase
  rw [classPath, htarget] at hhead
  refine ⟨i, hi, j, b, hb, hclass.name_eq, hbase, ?_⟩
  rw [and_iff_right hhead, not_and']
  rcases hcase with rfl | hj | ⟨hkj, hjb, hhoists⟩
  · rw [hg.implementationType_of_actor hlt hk, hv.declaresClass_linkBase_iff hvisited hcore hb]
    exact ⟨Or.inl rfl, fun h _ => h, fun h => h (Or.inl (beq_iff_eq.mp hk))⟩
  · obtain ⟨hjb, _⟩ := spreads_of_mem_classNodes hk hg.nested hj
    have hdeclares : g.DeclaresClass (g.target b).actor (g.arena.implementationType j) :=
      (hv.declaresClass_iff hvisited hb).mpr (Or.inr (Or.inl ⟨j, hj, rfl⟩))
    refine ⟨Or.inr hjb, iff_of_true hdeclares ?_⟩
    rintro (hkj | hkj)
    · exact absurd hkj (beq_eq_false_iff_ne.mp (hg.nested.isActor_of_rootActor? hjb))
    · exact hv.assembly_ne_gateway hvisited hcore hb hj Arena.self_mem_spine hkj
  · rw [hv.declaresClass_linkType_iff hvisited hcore hb hkj hjb hhoists]
    exact ⟨Or.inr hjb, fun h _ => h, fun h => h (Or.inr hkj)⟩

end

/-- A core actor with one extension. -/
def pinsTypes : Compilation := .ofTypes
  [{ name := "Discord.IChannelActor"
     kind := .interface },
   { name := "Discord.IChannelActor.Pins"
     kind := .interface
     containingType := some "Discord.IChannelActor"
     attributes := [{ className := "Discord.LinkExtensionAttribute" }] }]

def pinsGraph (assembly : Assembly) : LinkGraph :=
  ofTargets pinsTypes ⟨⟨"Discord.ILinkType", [], [], []⟩⟩ [pairTarget assembly "Channel"]

/-- Node 2 is the extension. -/
theorem pinsGraph_nodes (assembly : Assembly) (h : assembly ≠ .core) :
    (0 < (pinsGraph assembly).arena.size ∧
      ∀ i < (pinsGraph assembly).arena.size, (pinsGraph assembly).complaint? i = none) ∧
    (pinsGraph assembly).actor? (pairTarget assembly "Channel").actor = some 0 ∧
    (pinsGraph assembly).target 0 = pairTarget assembly "Channel" ∧
    (pinsGraph assembly).target 2 = pairTarget assembly "Channel" ∧
    (pinsGraph assembly).arena.rootActor? 2 = some 0 ∧
    (pinsGraph assembly).arena.spine 2 = [2, 0] ∧
    (pinsGraph assembly).arena.category 0 = .actor ∧
    (pinsGraph assembly).arena.category 2 = .extension ∧
    (pinsGraph assembly).arena.implementedParent? 2 = some 0 ∧
    ∀ i < (pinsGraph assembly).arena.size, (pinsGraph assembly).arena.implementationType i
      = (pinsGraph assembly).arena.implementationType 2 → i = 2 := by
  cases assembly with
  | core => exact absurd rfl h
  | rest => decide +kernel
  | gateway => decide +kernel

/-- The class of the extension is hoisted into the declaration of the actor, whose root class is its
first base. -/
theorem exists_pinsClass {assembly : Assembly} (h : assembly ≠ .core) {g : LinkGraph}
    (hv : Visits (pinsGraph assembly) g) (hvisited : g.isVisited = true) :
    0 ∈ g.roots ∧ ∃ decl own below d, g.buildActor 0 false = .ok decl ∧ decl.Contains own ∧
      (g.arena.children 0).mapM g.buildNode = .ok below ∧ d ∈ Built.classes below ∧
      Member.type d ∈ own.members ∧ d.name = g.arena.implementationType 2 ∧
      d.bases.head? = some ((pairTarget assembly "Channel").actor ++ "." ++ linkBaseName) := by
  have hprogress : Progress (pinsGraph assembly) [] g := hv.progress
  obtain ⟨_, hactor, htarget, htarget', hroot, hspine, hk, hk', hparent, _⟩ :=
    pinsGraph_nodes assembly h
  rw [actor?, ← hprogress.actors_eq] at hactor
  rw [← hprogress.target_eq] at htarget htarget'
  rw [← hprogress.arena_eq] at hroot hspine hk hk' hparent
  have hcomplete := hv.complete_of_isVisited hvisited
  have hmem : 2 ∈ g.classNodes 0 := by
    refine hcomplete.mem_classNodes_of_extensions hroot ?_ fun n hn hactor => ?_
    · rw [htarget']
      cases assembly with
      | core => exact absurd rfl h
      | rest => rfl
      | gateway => rfl
    · rw [hspine] at hn
      simp only [List.mem_cons, List.not_mem_nil, or_false] at hn
      rcases hn with rfl | rfl
      · exact hk'
      · exact absurd hk (beq_eq_false_iff_ne.mp hactor)
  have hroots : 0 ∈ g.roots := mem_roots_iff.mpr ⟨_, hactor⟩
  obtain ⟨decl, hdecl⟩ := hcomplete.exists_buildActor_of_mem_roots hv.grounded hroots false
  obtain ⟨_, _, own, below, _, hbelow, hown, _, hclasses⟩ := exists_own_of_buildActor hdecl
  obtain ⟨d, hd⟩ := hv.grounded.exists_class hbelow hmem
  have himplements := (List.forall₂_iff_zip.mp (hv.grounded.classes_of_children hbelow)).2 hd
  have hbase : g.classBase? 2 = some 0 := by
    rw [classBase?, hk']
    exact hparent
  have hclass := (List.of_mem_zip hd).2
  refine ⟨hroots, decl, own, below, d, hdecl, hown, hbelow, hclass, hclasses d hclass,
    himplements.name_eq, ?_⟩
  obtain ⟨hlt, hisActor⟩ := hv.grounded.isActor_of_actor hactor
  rw [himplements.head_bases 0 hbase, classPath, htarget,
    hv.grounded.implementationType_of_actor hlt hisActor]

/-- In the rest assembly the first base is declared. -/
theorem first_base_declared_iff_sample : ∃ below d,
    ((pinsGraph .rest).visit.1.arena.children 0).mapM (pinsGraph .rest).visit.1.buildNode
      = .ok below ∧ d ∈ Built.classes below ∧ d.name = "__RestLinkExtensionPins" ∧
    d.bases.head? = some "Discord.Rest.RestChannelActor.__LinkBase" ∧
    (pinsGraph .rest).visit.1.DeclaresClass "Discord.Rest.RestChannelActor" "__LinkBase" := by
  have hv : Visits (pinsGraph .rest) (pinsGraph .rest).visit.1 := .again .refl
  have hprogress : Progress (pinsGraph .rest) [] (pinsGraph .rest).visit.1 := hv.progress
  obtain ⟨hquiet, hactor, htarget, _, _, _, hk, hk', hparent, hnames⟩ :=
    pinsGraph_nodes .rest (by decide)
  have hvisited := (visited_of_quiet hquiet).2
  obtain ⟨hroots, _, _, below, d, _, _, hbelow, hd, _, hname, hhead⟩ :=
    exists_pinsClass (by decide) hv hvisited
  have hpins : (pinsGraph .rest).arena.implementationType 2 = "__RestLinkExtensionPins" := by
    decide +kernel
  rw [← hprogress.arena_eq] at hk hk' hparent hnames hpins
  rw [← hprogress.target_eq] at htarget
  rw [actor?, ← hprogress.actors_eq] at hactor
  obtain ⟨i, hi, j, b, _, hname', hbase, hjb, _, hiff⟩ :=
    first_base_declared_iff hv hvisited hroots hbelow hd
  have hlt := Arena.lt_size_of_rootActor? (spreads_of_mem_classNodes
    (hv.grounded.isActor_of_actor hactor).2 hv.grounded.nested hi).1
  obtain rfl := hnames i hlt (hname'.symm.trans hname)
  rw [classBase?, hk'] at hbase
  obtain rfl := Option.some.inj (hparent.symm.trans hbase)
  refine ⟨below, d, hbelow, hd, hname.trans hpins, hhead, ?_⟩
  rcases hjb with rfl | hjb
  · rw [htarget, hv.grounded.implementationType_of_actor
      (hv.grounded.isActor_of_actor hactor).1 (hv.grounded.isActor_of_actor hactor).2] at hiff
    have hrest : Assembly.rest ≠ .gateway := by decide
    exact hiff.mpr fun h => absurd h.1 hrest
  · exact absurd hk (beq_eq_false_iff_ne.mp (hv.grounded.nested.isActor_of_rootActor? hjb))

/-- In the gateway assembly it is not. -/
theorem link_base_undeclared : (pinsGraph .gateway).visit.2 = none ∧
    (pinsGraph .gateway).visit.1.isVisited = true ∧ ∃ decl own d,
      (pinsGraph .gateway).visit.1.buildActor 0 false = .ok decl ∧ decl.Contains own ∧
      Member.type d ∈ own.members ∧ d.name = "__GatewayLinkExtensionPins" ∧
      d.bases.head? = some "Discord.Gateway.GatewayChannelActor.__LinkBase" ∧
      ¬ (pinsGraph .gateway).visit.1.DeclaresClass "Discord.Gateway.GatewayChannelActor"
        "__LinkBase" := by
  have hv : Visits (pinsGraph .gateway) (pinsGraph .gateway).visit.1 := .again .refl
  have hprogress : Progress (pinsGraph .gateway) [] (pinsGraph .gateway).visit.1 := hv.progress
  obtain ⟨hquiet, _, htarget, _⟩ := pinsGraph_nodes .gateway (by decide)
  obtain ⟨hok, hvisited⟩ := visited_of_quiet hquiet
  obtain ⟨hroots, decl, own, _, d, hdecl, hown, _, _, hmember, hname, hhead⟩ :=
    exists_pinsClass (by decide) hv hvisited
  have hpins : (pinsGraph .gateway).arena.implementationType 2 = "__GatewayLinkExtensionPins" := by
    decide +kernel
  rw [← hprogress.arena_eq] at hpins
  rw [← hprogress.target_eq] at htarget
  refine ⟨hok, hvisited, decl, own, d, hdecl, hown, hmember, hname.trans hpins, hhead, ?_⟩
  have hiff := hv.declaresClass_linkBase_iff hvisited (by rw [htarget]; rfl) hroots
  rw [htarget] at hiff
  intro hdeclares
  exact hiff.mp hdeclares rfl

end ActorLinks.LinkGraph
