import ActorLinks.Proofs.Build.Constructors
import ActorLinks.Proofs.Build.Hoisted

/-! # Calls of base constructors

Every generated class passes on what the constructor below it in the chain takes. For most classes
that is the constructor of the class they derive from. A link type may derive from the link type at
the same place of the base actor, but its chain goes on at the root class of its own actor, which
may take a provider of entities that no class of the base actor takes.
-/
namespace ActorLinks

namespace LinkGraph

/-- The constructor of the actor's root class takes a provider of entities. -/
inductive TakesEntities (g : LinkGraph) : NodeId → Prop
  | own {i : NodeId} : g.modelHasId i = false → TakesEntities g i
  | base {i b : NodeId} : g.baseTarget? i = some b → (g.target b).isCore = false →
      TakesEntities g b → TakesEntities g i

/-- The class is declared for the node: the root class of an actor, or one hoisted to its level. -/
inductive Generates (g : LinkGraph) : NodeId → TypeDecl → Prop
  | root {i : NodeId} {s : ActorState} {ancestors : List NodeId} : i ∈ g.roots →
      (g.target i).assembly = .rest → g.ActorAt i s ancestors → Generates g i (g.linkBase i s)
  | hoisted {root i : NodeId} {d : TypeDecl} {below : List Built} : root ∈ g.roots →
      (g.arena.children root).mapM g.buildNode = .ok below →
      (i, d) ∈ (g.classNodes root).zip (Built.classes below) → Generates g i d

section
variable {c : Compilation} {sch : Schematic} {targets : List Target} {g : LinkGraph}
  {i j b : NodeId} {d e : TypeDecl} {s t : ActorState} {as bs : List NodeId}

theorem Visits.implementationClass_linkBase (hv : Visits (ofTargets c sch targets) g)
    (hi : g.ActorAt i s as) : g.ImplementationClass i (g.linkBase i s) := by
  have hg := hv.grounded
  have htype {n : NodeId} {name : String} (hn : g.actor? name = some n) :
      g.arena.implementationType n = linkBaseName :=
    hg.implementationType_of_actor (hg.isActor_of_actor hn).1 (hg.isActor_of_actor hn).2
  obtain ⟨actor, hactor⟩ := mem_roots_iff.mp (hi.mem_roots hv)
  obtain ⟨v, hstate, hdetail, _⟩ := id hi
  refine ⟨?_, fun b hb => ?_, v, hstate, ?_⟩
  · rw [htype hactor]
    cases hbase : s.baseActor <;> simp [linkBase, hbase, TypeDecl.classNamed]
  · have hk : g.arena.category i = .actor := beq_iff_eq.mp (hg.isActor_of_actor hactor).2
    rw [classBase?, hk] at hb
    simp only [hi.actorState?_eq, Option.bind_some] at hb
    have htarget := (hv.recorded.root_eq hi).1.symm.trans hb
    obtain ⟨base, hbase⟩ := exists_actor_of_base htarget
    rw [classPath, htype hbase]
    simp only [linkBase, hb, TypeDecl.bases_addMembers]
    rfl
  · rw [hdetail]
    refine TypeDecl.constructors_addMembers_constructorMembers ?_ _
    rw [TypeDecl.constructors_addMembers_of_none ?_, TypeDecl.constructors_addMembers_of_none
      fun _ => Implementation.constructor?_of_mem_propertyMembers]
    · unfold TypeDecl.constructors
      cases s.baseActor <;> simp [TypeDecl.classNamed]
    · simp [Member.constructor?]

/-- Outside the core assembly an actor has an implementation class. -/
theorem Grounded.isImplemented_of_root (hg : Grounded c sch targets g) (hi : i ∈ g.roots)
    (hcore : (g.target i).isCore = false) : g.arena.isImplemented i = true := by
  obtain ⟨_, hk⟩ := hg.isActor_of_mem_roots hi
  have hcore' : g.arena.isCore i = false := hcore
  rw [Arena.isImplemented, hcore']
  cases hkind : g.arena.kind i with
  | actor symbol => rfl
  | _ => simp [hkind, NodeKind.isActor, NodeKind.category] at hk

/-- The generated class of a node is its implementation class. -/
theorem Visits.implementationClass_of_generates (hv : Visits (ofTargets c sch targets) g)
    (h : g.Generates i d) : g.ImplementationClass i d ∧ g.arena.isImplemented i = true := by
  cases h with
  | root hi hrest hs =>
    have hcore : (g.target i).isCore = false := by
      rw [Target.isCore, hrest]
      rfl
    exact ⟨hv.implementationClass_linkBase hs, hv.grounded.isImplemented_of_root hi hcore⟩
  | hoisted _ hbelow hmem =>
    have hclasses := hv.grounded.classes_of_children hbelow
    refine ⟨(List.forall₂_iff_zip.mp hclasses).2 hmem, ?_⟩
    have hnode := (List.mem_filter.mp (List.of_mem_zip hmem).1).2
    exact (Bool.and_eq_true_iff.mp hnode).1

/-- The chain of an implemented node starts with a layer of its own. -/
theorem Settled.exists_layer (h : g.Settled) {v : NodeState} (hv : g.state? i = some v)
    (hi : g.arena.isImplemented i = true) :
    ∃ layer, v.detail.implementation.constructors = layer :: g.chainBelow i := by
  obtain ⟨name, properties, himplementation⟩ := implementation_of_visitNode (h hv).1
  rw [if_pos hi] at himplementation
  rw [himplementation]
  exact ⟨_, rfl⟩

theorem takesEntities_of_lineage {l : List NodeId} (h : g.Lineage (i :: l))
    (hl : ∃ n ∈ i :: l, g.modelHasId n = false) : g.TakesEntities i := by
  induction l generalizing i with
  | nil =>
    obtain ⟨n, hn, hid⟩ := hl
    exact .own (List.mem_singleton.mp hn ▸ hid)
  | cons b l ih =>
    obtain ⟨n, hn, hid⟩ := hl
    obtain ⟨hbase, hchain⟩ := List.isChain_cons_cons.mp h.1
    rcases List.mem_cons.mp hn with rfl | hn
    · exact .own hid
    · refine .base hbase (h.2 b (by simp)) (ih ⟨hchain, fun m hm => ?_⟩ ⟨n, hn, hid⟩)
      exact h.2 m (List.mem_cons_of_mem _ hm)

theorem asks_entityProvider_iff : (∃ p ∈ (g.rootLayer i).parameters, p.name = "entityProvider") ↔
    g.modelHasId i = false := by
  rw [parameters_rootLayer]
  cases g.modelHasId i <;> simp

/-- The constructor of a root class takes a provider of entities if some class of the chain asks for
one. -/
theorem Visits.takesEntities_iff (hc : c.Acyclic) (hv : Visits (ofTargets c sch targets) g)
    (hvisited : g.isVisited = true) (hi : g.ActorAt i s as) (hcore : (g.target i).isCore = false) :
    (∃ p ∈ s.implementation.constructors.asked, p.name = "entityProvider") ↔
      g.TakesEntities i := by
  have hsettled : g.Settled := hv.settled hc
  constructor
  · rintro ⟨p, hp, hname⟩
    have hchain := hv.rootChains i s hi.actorState?_eq
    rw [hcore, if_neg Bool.false_ne_true] at hchain
    obtain ⟨l, hl, hconstructors⟩ := hchain
    rw [hconstructors, asked_rootLayers] at hp
    obtain ⟨n, hn, hp⟩ := List.mem_flatMap.mp hp
    exact takesEntities_of_lineage hl
      ⟨n, List.mem_reverse.mp hn, asks_entityProvider_iff.mp ⟨p, hp, hname⟩⟩
  · intro h
    induction h generalizing s as with
    | own hid =>
      obtain ⟨p, hp, hname⟩ := asks_entityProvider_iff.mpr hid
      rw [hsettled.constructors_actor hi hcore, ConstructorChain.asked_cons]
      exact ⟨p, List.mem_append_right _ hp, hname⟩
    | base hbase hbcore _ ih =>
      obtain ⟨actor, hactor⟩ := exists_actor_of_base hbase
      obtain ⟨t, bs, hb⟩ := exists_actorAt hv hvisited hactor
      obtain ⟨p, hp, hname⟩ := ih hb hbcore
      rw [hsettled.constructors_actor hi hcore, hbase, baseConstructors_of_actorAt hb,
        ConstructorChain.asked_cons]
      exact ⟨p, List.mem_append_left _ hp, hname⟩

/-- What the root class of an actor takes, that of its base takes, if not for a provider of
entities. -/
theorem Visits.argumentNames_base_iff (hc : c.Acyclic) (hv : Visits (ofTargets c sch targets) g)
    (hvisited : g.isVisited = true) (hi : g.ActorAt i s as) (hcore : (g.target i).isCore = false)
    (hb : g.ActorAt b t bs) (hbcore : (g.target b).isCore = false)
    (hbase : g.baseTarget? i = some b) :
    s.implementation.constructors.argumentNames = t.implementation.constructors.argumentNames ↔
      (g.TakesEntities i → g.TakesEntities b) := by
  have hsettled : g.Settled := hv.settled hc
  have hown {p : ImplParameter} (hp : p ∈ (g.rootLayer b).parameters) :
      p ∈ t.implementation.constructors.asked := by
    rw [hsettled.constructors_actor hb hbcore, ConstructorChain.asked_cons]
    exact List.mem_append_right _ hp
  have hentity := hv.takesEntities_iff hc hvisited hb hbcore
  rw [hsettled.constructors_actor hi hcore, hbase, baseConstructors_of_actorAt hb,
    ConstructorChain.argumentNames_cons_eq_iff]
  -- the other parameters are those of every root class, so the provider of entities decides
  constructor
  · intro hall htakes
    cases htakes with
    | own hid =>
      obtain ⟨p, hp, hname⟩ := asks_entityProvider_iff.mpr hid
      obtain ⟨q, hq, heq⟩ := hall p hp
      exact hentity.mp ⟨q, hq, heq.trans hname⟩
    | base hbase' _ htakes =>
      obtain rfl := Option.some.inj (hbase.symm.trans hbase')
      exact htakes
  · intro htakes p hp
    rw [parameters_rootLayer] at hp hown
    rcases List.mem_append.mp hp with hp | hp
    · simp only [List.mem_cons, List.not_mem_nil, or_false] at hp
      rcases hp with rfl | rfl
      · exact ⟨_, hown (List.mem_append_left _ List.mem_cons_self), rfl⟩
      · exact ⟨_, hown (List.mem_append_left _ (List.mem_cons_of_mem _ List.mem_cons_self)), rfl⟩
    · split at hp
      · cases hp
      · next hid =>
        obtain rfl := List.mem_singleton.mp hp
        exact hentity.mpr (htakes (.own (Bool.eq_false_iff.mpr hid)))

theorem Visits.actorAt_of_isActor (hv : Visits (ofTargets c sch targets) g) {w : NodeState}
    (hw : g.state? j = some w) (hk : (g.arena.kind j).isActor = true) :
    ∃ t, w.detail = .actor t ∧ g.ActorAt j t w.ancestors := by
  have hcategory := (hv.fitting hw).1
  rw [show g.arena.category j = .actor from beq_iff_eq.mp hk] at hcategory
  cases hd : w.detail with
  | actor t => exact ⟨t, rfl, w, hw, hd, rfl⟩
  | _ => simp [hd, NodeDetail.category] at hcategory

/-- A class goes on the chain of the class that it derives from, if it is not a link type below
another one. -/
theorem Visits.chainBelow_eq (hv : Visits (ofTargets c sch targets) g) {w : NodeState}
    (hbase : g.classBase? i = some j) (hw : g.state? j = some w)
    (hno : ∀ s, g.linkTypeState? i = some s → s.implementationBase = none) :
    g.chainBelow i = w.detail.implementation.constructors := by
  unfold chainBelow
  cases hk : g.arena.category i with
  | actor =>
    rw [classBase?, hk] at hbase
    obtain ⟨s, hs, hactor⟩ := Option.bind_eq_some_iff.mp hbase
    obtain ⟨v, hstate, hdetail⟩ := actorState?_eq_some.mp hs
    rw [(hv.recorded.root_eq ⟨v, hstate, hdetail, rfl⟩).1] at hactor
    obtain ⟨name, hname⟩ := exists_actor_of_base hactor
    obtain ⟨t, ht, hat⟩ := hv.actorAt_of_isActor hw (hv.grounded.isActor_of_actor hname).2
    simp only [hactor, baseConstructors_of_actorAt hat, ht, NodeDetail.implementation]
  | linkType =>
    rw [classBase?, hk] at hbase
    obtain ⟨s, hs, hroot⟩ := Option.bind_eq_some_iff.mp hbase
    rw [hno s hs, Option.none_or] at hroot
    have hactor : (g.arena.kind j).isActor = true :=
      List.find?_some (p := fun p => (g.arena.kind p).isActor) hroot
    obtain ⟨t, ht, hat⟩ := hv.actorAt_of_isActor hw hactor
    simp only [rootConstructors, rootActorState?, hroot, Option.bind_some, hat.actorState?_eq, ht,
      NodeDetail.implementation]
  | extension | hierarchy | backLink =>
    rw [classBase?, hk] at hbase
    simp only at hbase
    simp only [parentConstructors, hbase, Option.bind_some, detail?, hw, Option.map_some]

/-- What a link type goes below is an implemented link type of the base of its actor. -/
def LinksBelowBases (g : LinkGraph) : Prop :=
  ∀ {i j : NodeId} {l : LinkTypeState}, g.linkTypeState? i = some l →
    l.implementationBase = some j → ∃ r b, g.arena.rootActor? i = some r ∧
      g.baseTarget? r = some b ∧ g.arena.rootActor? j = some b ∧
      g.arena.category j = .linkType ∧ g.arena.isImplemented j = true

theorem Recorded.exists_of_implementationBase? (h : g.Recorded) (hg : Grounded c sch targets g)
    (hbase : g.implementationBase? i = some j) : ∃ r b, g.arena.rootActor? i = some r ∧
      g.baseTarget? r = some b ∧ g.arena.rootActor? j = some b ∧
      g.arena.category j = .linkType ∧ g.arena.isImplemented j = true := by
  simp only [implementationBase?, Option.bind_eq_bind, Option.bind_eq_some_iff] at hbase
  obtain ⟨s, hs, b, hb, n, hn, hlink⟩ := hbase
  obtain ⟨r, hr, hactor⟩ := Option.bind_eq_some_iff.mp hs
  obtain ⟨w, hw, hroot⟩ := actorState?_eq_some.mp hactor
  rw [(h.root_eq ⟨w, hw, hroot, rfl⟩).1] at hb
  split at hlink
  · next hkind =>
    cases hlink
    obtain ⟨hlinkType, himplemented⟩ := Bool.and_eq_true_iff.mp hkind
    obtain ⟨name, hname⟩ := exists_actor_of_base hb
    have hk := (hg.isActor_of_actor hname).2
    have hne : j ≠ b := by
      rintro rfl
      rw [NodeKind.isLinkType, beq_iff_eq.mp hk] at hlinkType
      cases hlinkType
    exact ⟨r, b, hr, hb, hg.nested.rootActor?_of_walk? hk hn hne, beq_iff_eq.mp hlinkType,
      himplemented⟩
  · cases hlink

theorem linksBelowBases_preserved (c : Compilation) (sch : Schematic) (targets : List Target) :
    Preserved (ofTargets c sch targets)
      (fun i => ((ofTargets c sch targets).arena.parent? i).toList)
      fun g => g.Recorded ∧ g.LinksBelowBases := by
  intro g done i v hprogress hi _ hvisit ⟨hrecorded, hbelow⟩
  refine ⟨hrecorded.withState (hprogress.size_eq ▸ hi) hvisit, fun {k j l} hl hj => ?_⟩
  obtain ⟨w, hw, hdetail⟩ := linkTypeState?_eq_some.mp hl
  rw [state?_withState (hprogress.size_eq ▸ hi)] at hw
  split at hw
  · next hk =>
    cases hw
    subst hk
    have hg : Grounded c sch targets g := by
      rw [hprogress.same]
      exact grounded_ofTargets.withStates _
    rw [linkType_of_visitNode hvisit hdetail] at hj
    have hj : (if g.arena.isCore k then none else g.implementationBase? k) = some j := hj
    split at hj
    · cases hj
    · exact hrecorded.exists_of_implementationBase? hg hj
  · exact hbelow (linkTypeState?_eq_some.mpr ⟨w, hw, hdetail⟩) hj

theorem Visits.linksBelowBases (hv : Visits (ofTargets c sch targets) g) : g.LinksBelowBases :=
  (hv.preserves_ofTargets (linksBelowBases_preserved c sch targets)
    grounded_ofTargets.supported_parent ⟨by simp [Recorded, state?_ofTargets],
      fun hl => by simp [linkTypeState?, detail?, state?_ofTargets] at hl⟩).2.2

theorem Settled.constructors_linkType (h : g.Settled) {v : NodeState} (hv : g.state? i = some v)
    (hk : v.detail.category = .linkType) (hi : g.arena.isImplemented i = true) :
    v.detail.implementation.constructors.argumentNames = (g.rootConstructors i).argumentNames := by
  cases hd : v.detail with
  | linkType l =>
    have himplementation : l.implementation
        = .ofProperties (g.arena.className i) [] (g.rootConstructors i) := by
      rw [linkType_of_visitNode (h hv).1 hd]
      exact if_pos hi
    rw [NodeDetail.implementation, himplementation]
    exact ConstructorChain.argumentNames_cons_eq_iff.mpr fun _ hp => absurd hp List.not_mem_nil
  | _ => simp [hd, NodeDetail.category] at hk

theorem rootConstructors_of_actorAt (hroot : g.arena.rootActor? i = some j)
    (hj : g.ActorAt j s as) : g.rootConstructors i = s.implementation.constructors := by
  simp only [rootConstructors, rootActorState?, hroot, Option.bind_some, hj.actorState?_eq]

theorem Visits.category_of_linkTypeState? (hv : Visits (ofTargets c sch targets) g)
    {l : LinkTypeState} (hl : g.linkTypeState? i = some l) : g.arena.category i = .linkType := by
  obtain ⟨v, hstate, hdetail⟩ := linkTypeState?_eq_some.mp hl
  rw [← (hv.fitting hstate).1, hdetail]
  rfl

/-- Otherwise a class and its base stand below one actor. -/
theorem Visits.rootActor?_of_classBase? (hv : Visits (ofTargets c sch targets) g)
    (hbase : g.classBase? i = some j) (hb : g.arena.rootActor? j = some b)
    (hno : ∀ l, g.linkTypeState? i = some l → l.implementationBase = none) :
    g.arena.rootActor? i = some b := by
  have hn := hv.grounded.nested
  have hj := hn.isActor_of_rootActor? hb
  unfold classBase? at hbase
  cases hk : g.arena.category i with
  | actor =>
    rw [hk] at hbase
    obtain ⟨s, hs, hactor⟩ := Option.bind_eq_some_iff.mp hbase
    obtain ⟨v, hstate, hdetail⟩ := actorState?_eq_some.mp hs
    rw [(hv.recorded.root_eq ⟨v, hstate, hdetail, rfl⟩).1] at hactor
    obtain ⟨name, hname⟩ := exists_actor_of_base hactor
    rw [(hv.grounded.isActor_of_actor hname).2] at hj
    cases hj
  | linkType =>
    rw [hk] at hbase
    obtain ⟨l, hl, hroot⟩ := Option.bind_eq_some_iff.mp hbase
    rw [hno l hl, Option.none_or] at hroot
    rw [show (g.arena.kind j).isActor = true from
      List.find?_some (p := fun p => (g.arena.kind p).isActor) hroot] at hj
    cases hj
  | extension | hierarchy | backLink =>
    rw [hk] at hbase
    exact hn.rootActor?_of_mem_parents (List.mem_of_find?_eq_some hbase) hb

/-- A link type that goes below the one of the base actor still passes on what its own actor
takes. -/
theorem Visits.argumentNames_link_iff (hc : c.Acyclic) (hv : Visits (ofTargets c sch targets) g)
    (hvisited : g.isVisited = true) (hi : g.arena.isImplemented i = true)
    (hj : g.arena.isImplemented j = true) {l : LinkTypeState} (hl : g.linkTypeState? i = some l)
    (hlj : l.implementationBase = some j) {w : NodeState} (hw : g.state? j = some w) :
    g.chainBelow i ≠ [] ∧
      ((g.chainBelow i).argumentNames = w.detail.implementation.constructors.argumentNames ↔
        ∀ r b, g.arena.rootActor? i = some r → g.arena.rootActor? j = some b →
          g.TakesEntities r → g.TakesEntities b) := by
  have hsettled : g.Settled := hv.settled hc
  obtain ⟨r, b, hr, hrb, hb, hk, _⟩ := hv.linksBelowBases hl hlj
  obtain ⟨own, hown⟩ := mem_roots_iff.mp (hv.grounded.mem_roots_of_rootActor? hr)
  obtain ⟨s, as, hs⟩ := exists_actorAt hv hvisited hown
  obtain ⟨name, hname⟩ := exists_actor_of_base hrb
  obtain ⟨t, bs, ht⟩ := exists_actorAt hv hvisited hname
  have hcore {n root : NodeId} (hn : g.arena.isImplemented n = true)
      (hroot : g.arena.rootActor? n = some root) : (g.target root).isCore = false := by
    rw [hv.grounded.target_of_mem_parents (List.mem_of_find?_eq_some hroot)]
    exact Bool.not_eq_true' _ ▸ (Bool.and_eq_true_iff.mp hn).1
  have hchain : g.chainBelow i = s.implementation.constructors := by
    rw [chainBelow, hv.category_of_linkTypeState? hl]
    exact rootConstructors_of_actorAt hr hs
  refine ⟨by simp [hchain, hsettled.constructors_actor hs (hcore hi hr)], ?_⟩
  rw [hchain, hsettled.constructors_linkType hw ((hv.fitting hw).1.trans hk) hj,
    rootConstructors_of_actorAt hb ht,
    hv.argumentNames_base_iff hc hvisited hs (hcore hi hr) ht (hcore hj hb) hrb]
  refine ⟨fun h r' b' hr' hb' => ?_, fun h => h r b hr hb⟩
  cases hr.symm.trans hr'
  cases hb.symm.trans hb'
  exact h

/-- A class passes on what the constructor of its base takes, but for a link type below another one
whose own actor alone takes a provider of entities. -/
theorem Visits.argumentNames_iff (hc : c.Acyclic) (hv : Visits (ofTargets c sch targets) g)
    (hvisited : g.isVisited = true) (hi : g.arena.isImplemented i = true)
    (hj : g.arena.isImplemented j = true) (hbase : g.classBase? i = some j) {w : NodeState}
    (hw : g.state? j = some w) : g.chainBelow i ≠ [] ∧
      ((g.chainBelow i).argumentNames = w.detail.implementation.constructors.argumentNames ↔
        ∀ r b, g.arena.rootActor? i = some r → g.arena.rootActor? j = some b →
          g.TakesEntities r → g.TakesEntities b) := by
  have hsettled : g.Settled := hv.settled hc
  by_cases hlink : ∃ l, g.linkTypeState? i = some l ∧ l.implementationBase = some j
  · obtain ⟨l, hl, hlj⟩ := hlink
    exact hv.argumentNames_link_iff hc hvisited hi hj hl hlj hw
  · have hno : ∀ l, g.linkTypeState? i = some l → l.implementationBase = none := by
      intro l hl
      rw [classBase?, hv.category_of_linkTypeState? hl] at hbase
      simp only [hl, Option.bind_some] at hbase
      cases hlj : l.implementationBase with
      | none => rfl
      | some k =>
        rw [hlj, Option.some_or] at hbase
        exact absurd ⟨l, hl, hlj.trans hbase⟩ hlink
    obtain ⟨layer, hlayer⟩ := hsettled.exists_layer hw hj
    rw [hv.chainBelow_eq hbase hw hno]
    refine ⟨by simp [hlayer], iff_of_true rfl fun r b hr hb => ?_⟩
    rw [Option.some.inj (hr.symm.trans (hv.rootActor?_of_classBase? hbase hb hno))]
    exact id

/-- How the constructors of the generated classes fit together. -/
structure BaseCalls (g : LinkGraph) : Prop where
  declared : ∀ {i d}, g.Generates i d → ∃ root ∈ g.roots, ∃ decl own,
    g.buildActor root false = .ok decl ∧ decl.Contains own ∧ Member.type d ∈ own.members
  /-- No other class is hoisted. -/
  generates : ∀ {root below}, root ∈ g.roots →
    (g.arena.children root).mapM g.buildNode = .ok below →
      ∀ d ∈ Built.classes below, ∃ i, g.Generates i d
  head_bases : ∀ {i j d e}, g.Generates i d → g.Generates j e → g.classBase? i = some j →
    d.bases.head? = some ((g.target j).actor ++ "." ++ e.name)
  /-- What a class passes on is what its base takes, unless it is a link type below that of the base
  actor, and its own actor alone takes a provider of entities. -/
  arguments_iff : ∀ {i j d e}, g.Generates i d → g.Generates j e → g.classBase? i = some j →
    ∃ own base, d.constructors = [own] ∧ e.constructors = [base] ∧
      (own.baseArguments = some (base.parameters.map (·.name)) ↔
        ∀ r b, g.arena.rootActor? i = some r → g.arena.rootActor? j = some b →
          g.TakesEntities r → g.TakesEntities b)

theorem Visits.arguments_iff (hc : c.Acyclic) (hv : Visits (ofTargets c sch targets) g)
    (hvisited : g.isVisited = true) (hd : g.Generates i d) (he : g.Generates j e)
    (hbase : g.classBase? i = some j) :
    ∃ own base, d.constructors = [own] ∧ e.constructors = [base] ∧
      (own.baseArguments = some (base.parameters.map (·.name)) ↔
        ∀ r b, g.arena.rootActor? i = some r → g.arena.rootActor? j = some b →
          g.TakesEntities r → g.TakesEntities b) := by
  have hsettled : g.Settled := hv.settled hc
  obtain ⟨⟨_, _, v, hstate, hown⟩, hi⟩ := hv.implementationClass_of_generates hd
  obtain ⟨⟨_, _, w, hw, hclass⟩, hj⟩ := hv.implementationClass_of_generates he
  obtain ⟨layer, hlayer⟩ := hsettled.exists_layer hstate hi
  obtain ⟨layer', hlayer'⟩ := hsettled.exists_layer hw hj
  rw [hlayer] at hown
  rw [hlayer'] at hclass
  obtain ⟨hbelow, hiff⟩ := hv.argumentNames_iff hc hvisited hi hj hbase hw
  refine ⟨_, _, hown, hclass, ?_⟩
  rw [← hiff, hlayer']
  simp only [List.isEmpty_iff, if_neg hbelow, Option.some_inj]
  rfl

theorem Visits.exists_generates (hv : Visits (ofTargets c sch targets) g)
    (hvisited : g.isVisited = true) {root : NodeId} (hroot : root ∈ g.roots)
    (hi : i ∈ g.classNodes root) : ∃ d, g.Generates i d := by
  have hcomplete := hv.complete_of_isVisited hvisited
  obtain ⟨below, hbelow⟩ := Failure.exists_mapM fun n (hn : n ∈ g.arena.children root) =>
    hcomplete.exists_buildNode (Arena.mem_children_iff.mp hn)
  obtain ⟨d, hd⟩ := hv.grounded.exists_class hbelow hi
  exact ⟨d, .hoisted hroot hbelow hd⟩

/-- Below nothing but link types whose interfaces are generated, a class is hoisted. -/
theorem Visits.exists_generates_of_linkTypes (hv : Visits (ofTargets c sch targets) g)
    (hvisited : g.isVisited = true) {root : NodeId} (hroot : root ∈ g.roots)
    (hi : g.arena.rootActor? i = some root) (hhoists : g.hoists i = true)
    (habove : ∀ n ∈ i :: g.arena.parents i, (g.arena.kind n).isActor = false →
      n < g.arena.size ∧ g.arena.category n = .linkType ∧
        (!(g.target n).isCore && (g.target n).assemblyLinkType.isNone) = false) :
    ∃ d, g.Generates i d := by
  have hcomplete := hv.complete_of_isVisited hvisited
  refine hv.exists_generates hvisited hroot (mem_classNodes hcomplete.nested hi hhoists ?_)
  intro n hn hk
  obtain ⟨hlt, hcategory, htarget⟩ := habove n hn hk
  exact hcomplete.spreads_linkType hlt hcategory htarget

theorem Visits.exists_declaration (hv : Visits (ofTargets c sch targets) g)
    (hvisited : g.isVisited = true) (hd : g.Generates i d) : ∃ root ∈ g.roots, ∃ decl own,
      g.buildActor root false = .ok decl ∧ decl.Contains own ∧ Member.type d ∈ own.members := by
  have hcomplete := hv.complete_of_isVisited hvisited
  have hbuilt {root : NodeId} (hroot : root ∈ g.roots) :
      ∃ decl, g.buildActor root false = .ok decl := by
    obtain ⟨actor, hactor⟩ := mem_roots_iff.mp hroot
    obtain ⟨hp, hshows⟩ := hv.grounded.root_of_actor hactor
    exact hcomplete.exists_buildActor hshows.lt_size hp false
  cases hd with
  | root hi hrest hs =>
    obtain ⟨decl, hdecl⟩ := hbuilt hi
    obtain ⟨s, as, own, _, hs', _, hown, hbase, _⟩ := exists_own_of_buildActor hdecl
    obtain rfl := Option.some.inj (hs.actorState?_eq.symm.trans hs'.actorState?_eq)
    exact ⟨i, hi, decl, own, hdecl, hown, hbase hrest⟩
  | @hoisted root _ _ below hroot hbelow hmem =>
    obtain ⟨decl, hdecl⟩ := hbuilt hroot
    obtain ⟨_, _, own, below', _, hbelow', hown, _, hclasses⟩ := exists_own_of_buildActor hdecl
    cases hbelow.symm.trans hbelow'
    exact ⟨root, hroot, decl, own, hdecl, hown, hclasses d (List.of_mem_zip hmem).2⟩

theorem base_calls_fit (hc : c.Acyclic) (hv : Visits (ofTargets c sch targets) g)
    (hvisited : g.isVisited = true) : g.BaseCalls where
  declared hd := hv.exists_declaration hvisited hd
  generates := by
    intro root below hroot hbelow d hd
    have hlength := (hv.grounded.classes_of_children hbelow).length_eq
    obtain ⟨n, hn, rfl⟩ := List.getElem_of_mem hd
    have hn' : n < (g.classNodes root).length := hlength ▸ hn
    refine ⟨(g.classNodes root)[n], .hoisted hroot hbelow (List.mem_iff_getElem.mpr ⟨n, ?_, ?_⟩)⟩
    · rw [List.length_zip]
      exact Nat.lt_min.mpr ⟨hn', hn⟩
    · exact List.getElem_zip
  head_bases hd he hbase := by
    rw [(hv.implementationClass_of_generates hd).1.head_bases _ hbase,
      (hv.implementationClass_of_generates he).1.name_eq]
    rfl
  arguments_iff hd he hbase := hv.arguments_iff hc hvisited hd he hbase

/-- A link type goes below the one at the same place of the base actor, if that is implemented. -/
theorem Visits.classBase?_of_equivalent (hc : c.Acyclic)
    (hv : Visits (ofTargets c sch targets) g) (hvisited : g.isVisited = true) {r n : NodeId}
    (hi : i < g.arena.size) (hk : g.arena.category i = .linkType)
    (hcore : g.arena.isCore i = false) (hr : g.arena.rootActor? i = some r)
    (hs : g.ActorAt r s as) (hb : g.baseTarget? r = some b)
    (hn : g.arena.equivalent? i b = some n)
    (hlink : ((g.arena.kind n).isLinkType && g.arena.isImplemented n) = true) :
    g.classBase? i = some n := by
  have hsettled : g.Settled := hv.settled hc
  obtain ⟨v, hstate⟩ := (hv.complete_of_isVisited hvisited).exists_state i hi
  have hcategory := (hv.fitting hstate).1.trans hk
  cases hd : v.detail with
  | linkType l =>
    have hl : l.implementationBase = some n := by
      rw [linkType_of_visitNode (hsettled hstate).1 hd, visitLinkType, hcore,
        if_neg Bool.false_ne_true, implementationBase?, rootActorState?, hr, Option.bind_some,
        hs.actorState?_eq]
      simp only [Option.bind_eq_bind, Option.bind_some, (hv.recorded.root_eq hs).1, hb, hn, hlink,
        if_true]
    rw [classBase?, hk]
    simp only [linkTypeState?_eq_some.mpr ⟨v, hstate, hd⟩, Option.bind_some, hl, Option.some_or]
  | _ => simp [hd, NodeDetail.category] at hcategory

/-- The root class of the thread passes on what that of the channel takes. -/
theorem base_calls_fit_sample : ∃ d e own base, (pairGraph .rest).visit.1.Generates 2 d ∧
    (pairGraph .rest).visit.1.Generates 0 e ∧
    d.bases.head? = some "Discord.Rest.RestChannelActor.__LinkBase" ∧
    d.constructors = [own] ∧ e.constructors = [base] ∧
    own.baseArguments = some (base.parameters.map (·.name)) := by
  have hv : Visits (pairGraph .rest) (pairGraph .rest).visit.1 := .again .refl
  have hprogress : Progress (pairGraph .rest) [] (pairGraph .rest).visit.1 := hv.progress
  have hvisited := (visited_of_quiet (quiet_pairGraph .rest)).2
  have hcalls := base_calls_fit (acyclic_pairTypes .rest) hv hvisited
  obtain ⟨hentries, hchannel, hthread⟩ := pairGraph_actors .rest
  rw [← hprogress.actors_eq] at hentries
  rw [← hprogress.target_eq] at hchannel hthread
  obtain ⟨s, t, as, bs, ha, hb⟩ := exists_actorAt_pairGraph .rest
  have he := Generates.root (ha.mem_roots hv) (by rw [hchannel]; rfl) ha
  have hd := Generates.root (hb.mem_roots hv) (by rw [hthread]; rfl) hb
  have hkind : (pairGraph .rest).visit.1.arena.category 2 = .actor ∧
      (pairGraph .rest).visit.1.arena.rootActor? 2 = none := by
    rw [hprogress.arena_eq]
    decide +kernel
  have hbase : (pairGraph .rest).visit.1.classBase? 2 = some 0 := by
    rw [classBase?, hkind.1]
    simp only [hb.actorState?_eq, Option.bind_some]
    rw [(hv.recorded.root_eq hb).1, hprogress.baseTarget?_eq, (baseTarget?_pairGraph .rest).2.1]
  obtain ⟨own, base, hown, hclass, hiff⟩ := hcalls.arguments_iff hd he hbase
  refine ⟨_, _, own, base, hd, he, ?_, hown, hclass, hiff.mpr fun r b hr => ?_⟩
  · rw [hcalls.head_bases hd he hbase, hchannel,
      (hv.implementationClass_of_generates he).1.name_eq, hprogress.arena_eq]
    decide +kernel
  · rw [hkind.2] at hr
    cases hr

/-- The model of the channel carries its own id, that of the thread does not. -/
def indexedTypes : Compilation := .ofTypes
  [{ name := "Discord.Rest.RestChannelActor" },
   { name := "Discord.Rest.RestThreadActor", baseType := some "Discord.Rest.RestChannelActor" },
   { name := "Discord.Models.IChannelModel"
     kind := .interface
     interfaces := ["Discord.Models.IEntityModel"] }]

/-- One link type, which is node 2 below the channel and node 6 below the thread. -/
def indexedGraph : LinkGraph :=
  ofTargets indexedTypes ⟨⟨"Discord.ILinkType", [], [], [Schematic.linkEntry "Indexable" []]⟩⟩
    [pairTarget .rest "Channel", pairTarget .rest "Thread"]

theorem indexedGraph_symbols :
    (0 < indexedGraph.arena.size ∧
      ∀ i < indexedGraph.arena.size, indexedGraph.complaint? i = none) ∧
    (indexedGraph.actorSymbol? 0).bind (·.baseType) = none ∧
    (indexedGraph.actorSymbol? 4).bind (·.baseType) = some "Discord.Rest.RestChannelActor" ∧
    indexedGraph.actor? "Discord.Rest.RestChannelActor" = some 0 ∧
    indexedGraph.actor? "Discord.Rest.RestThreadActor" = some 4 ∧
    (indexedGraph.target 0).model ≠ "Discord.Models.IEntityModel" ∧
    "Discord.Models.IEntityModel" ∈ indexedTypes.parents (indexedGraph.target 0).model ∧
    indexedTypes.parents (indexedGraph.target 4).model = [] := by
  decide +kernel

theorem modelHasId_indexedGraph :
    indexedGraph.modelHasId 0 = true ∧ indexedGraph.modelHasId 4 = false := by
  obtain ⟨_, _, _, _, _, hne, hparent, hnone⟩ := indexedGraph_symbols
  have hcompilation : indexedGraph.compilation = indexedTypes := grounded_ofTargets.compilation_eq
  have habove : "Discord.Models.IEntityModel" ∈
      indexedTypes.supertypes (indexedGraph.target 0).model :=
    Compilation.mem_supertypes_iff.mpr ⟨hne.symm, .single hparent⟩
  rw [modelHasId, modelHasId, hcompilation]
  refine ⟨?_, Compilation.implementsSimple_of_orphan hnone _⟩
  exact List.any_eq_true.mpr ⟨_, SortedSet.mem_iff.mp habove, by decide⟩

theorem baseTarget?_indexedGraph :
    indexedGraph.baseTarget? 0 = none ∧ indexedGraph.baseTarget? 4 = some 0 := by
  obtain ⟨_, hnone, hdirect, hchannel, _⟩ := indexedGraph_symbols
  exact ⟨baseTarget?_of_none hnone, baseTarget?_of_direct hdirect hchannel⟩

/-- Both link types are implemented, and nothing but link types stands above them. -/
theorem indexedGraph_places :
    (∀ p ∈ [(2, 0), (6, 4)], indexedGraph.arena.rootActor? p.1 = some p.2 ∧
      indexedGraph.hoists p.1 = true ∧ ∀ n ∈ p.1 :: indexedGraph.arena.parents p.1,
        (indexedGraph.arena.kind n).isActor = false →
          n < indexedGraph.arena.size ∧ indexedGraph.arena.category n = .linkType ∧
            (!(indexedGraph.target n).isCore && (indexedGraph.target n).assemblyLinkType.isNone)
              = false) ∧
    6 < indexedGraph.arena.size ∧ indexedGraph.arena.category 6 = .linkType ∧
    indexedGraph.arena.isCore 6 = false ∧ indexedGraph.arena.equivalent? 6 0 = some 2 ∧
    ((indexedGraph.arena.kind 2).isLinkType && indexedGraph.arena.isImplemented 2) = true ∧
    indexedGraph.arena.implementationType 2 = "__RestLinkIndexable" ∧
    (indexedGraph.target 2).actor ++ "." ++ "__RestLinkIndexable"
      = "Discord.Rest.RestChannelActor.__RestLinkIndexable" := by
  decide +kernel

/-- The thread takes a provider of entities, the channel does not. -/
theorem takesEntities_indexedGraph {g : LinkGraph} (hprogress : Progress indexedGraph [] g) :
    g.TakesEntities 4 ∧ ¬ g.TakesEntities 0 := by
  refine ⟨.own (by rw [hprogress.modelHasId_eq]; exact modelHasId_indexedGraph.2), fun h => ?_⟩
  cases h with
  | own hid =>
    rw [hprogress.modelHasId_eq, modelHasId_indexedGraph.1] at hid
    cases hid
  | base hb =>
    rw [hprogress.baseTarget?_eq, baseTarget?_indexedGraph.1] at hb
    cases hb

/-- The link type below the thread derives from that below the channel, whose constructor does not
take what it passes on. -/
theorem link_base_call_misfits : indexedTypes.Acyclic ∧ indexedGraph.visit.2 = none ∧
    ∃ d e own base, indexedGraph.visit.1.Generates 6 d ∧ indexedGraph.visit.1.Generates 2 e ∧
      d.bases.head? = some "Discord.Rest.RestChannelActor.__RestLinkIndexable" ∧
      e.name = "__RestLinkIndexable" ∧ d.constructors = [own] ∧ e.constructors = [base] ∧
      own.baseArguments ≠ some (base.parameters.map (·.name)) := by
  have hacyclic : indexedTypes.Acyclic :=
    Compilation.acyclic_of_shallow (by decide)
  obtain ⟨hquiet, _, _, hchannel, hthread, _⟩ := indexedGraph_symbols
  obtain ⟨hok, hvisited⟩ : indexedGraph.visit.2 = none ∧ indexedGraph.visit.1.isVisited = true :=
    visited_of_quiet hquiet
  have hv : Visits indexedGraph indexedGraph.visit.1 := .again .refl
  have hprogress : Progress indexedGraph [] indexedGraph.visit.1 := hv.progress
  obtain ⟨hentity, hnone⟩ := takesEntities_indexedGraph hprogress
  obtain ⟨hplaces, hlt, hk, hcore, hequivalent, hlink, htype, hname⟩ := indexedGraph_places
  simp only [hoists, ← hprogress.arena_eq, ← hprogress.target_eq] at hplaces hname
  rw [← hprogress.arena_eq] at hlt hk hcore hequivalent hlink htype
  rw [actor?, ← hprogress.actors_eq] at hchannel hthread
  obtain ⟨hr, hhoists, habove⟩ := hplaces (6, 4) (by simp)
  obtain ⟨hr', hhoists', habove'⟩ := hplaces (2, 0) (by simp)
  obtain ⟨d, hd⟩ := hv.exists_generates_of_linkTypes hvisited (mem_roots_iff.mpr ⟨_, hthread⟩) hr
    hhoists habove
  obtain ⟨e, he⟩ := hv.exists_generates_of_linkTypes hvisited (mem_roots_iff.mpr ⟨_, hchannel⟩) hr'
    hhoists' habove'
  obtain ⟨t, bs, hstate⟩ := exists_actorAt hv hvisited hthread
  have hbase := hv.classBase?_of_equivalent hacyclic hvisited hlt hk hcore hr hstate
    (by rw [hprogress.baseTarget?_eq]; exact baseTarget?_indexedGraph.2) hequivalent hlink
  obtain ⟨own, base, hown, hclass, hiff⟩ := hv.arguments_iff hacyclic hvisited hd he hbase
  refine ⟨hacyclic, hok, d, e, own, base, hd, he, ?_, ?_, hown, hclass, fun hfits => ?_⟩
  · rw [(hv.implementationClass_of_generates hd).1.head_bases _ hbase, classPath, htype, hname]
  · rw [(hv.implementationClass_of_generates he).1.name_eq, htype]
  · exact hnone (hiff.mp hfits 4 0 hr hr' hentity)

end

end LinkGraph

end ActorLinks
