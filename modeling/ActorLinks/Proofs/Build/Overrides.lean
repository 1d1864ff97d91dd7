import ActorLinks.Proofs.Build.Explicit
import ActorLinks.Proofs.Visit.Implementations

/-! # Overridden properties

The root class of an actor with a base overrides what its base should have as virtual. Whether an
actor has a base is decided along the chain of base classes, which may pass through types that are
no actors of the graph. Whether something derives from an actor is decided by direct base classes
only, so a property may be overridden that is not virtual.
-/
namespace ActorLinks

def Modifiers.Overridable (ms : Modifiers) : Prop := .virtual ∈ ms ∨ .override ∈ ms

/-- Whatever `t` overrides is there to be overridden in `s`. -/
def ActorState.Overrides (t s : ActorState) : Prop :=
  ∀ p ∈ t.implementation.properties, .override ∈ p.modifiers →
    ∃ q ∈ s.implementation.properties, q.name = p.name ∧ q.modifiers.Overridable

/-- How the root class marks the properties that it hands down. -/
def Modifiers.handedDown (hasBase hasChild : Bool) : Modifiers :=
  if hasBase then (∅ : Modifiers).insert .override
  else if hasChild then (∅ : Modifiers).insert .virtual
  else ∅

section
variable {hasBase hasChild : Bool}

theorem ImplProperty.modifiers_overridable {p : ImplProperty} (hp : p.modifiers = ∅) :
    (p.overridable hasBase hasChild).modifiers = Modifiers.handedDown hasBase hasChild := by
  cases hasBase <;> cases hasChild <;> simp [overridable, Modifiers.handedDown, hp]

@[simp] theorem ImplProperty.name_overridable (p : ImplProperty) :
    (p.overridable hasBase hasChild).name = p.name := by
  cases hasBase <;> cases hasChild <;> rfl

namespace Modifiers

theorem override_mem_handedDown : .override ∈ handedDown hasBase hasChild ↔ hasBase = true := by
  cases hasBase <;> cases hasChild <;> decide

theorem overridable_handedDown :
    (handedDown hasBase hasChild).Overridable ↔ hasBase = true ∨ hasChild = true := by
  unfold Overridable
  cases hasBase <;> cases hasChild <;> decide

end Modifiers

end

namespace LinkGraph

/-- The properties that root classes hand down: the provider of entities only where the model does
not carry its own id. -/
def HandsDown (modelHasId : Bool) (name : String) : Prop :=
  name = "ActorProvider" ∨ modelHasId = false ∧ name = "EntityProvider"

theorem exists_rootProperty_iff {t : Target} {modelHasId hasBase hasChild : Bool} {name : String}
    {P : Modifiers → Prop} (hempty : ¬ P ∅) :
    (∃ p ∈ rootProperties t modelHasId hasBase hasChild, p.name = name ∧ P p.modifiers) ↔
      P (.handedDown hasBase hasChild) ∧ HandsDown modelHasId name := by
  have hmark (p : ImplProperty) (hp : p.modifiers = ∅) :
      (p.overridable hasBase hasChild).modifiers = Modifiers.handedDown hasBase hasChild :=
    ImplProperty.modifiers_overridable hp
  have hnone : ¬ ∃ p ∈ ([] : List ImplProperty), p.name = name ∧ P p.modifiers := by simp
  unfold rootProperties HandsDown
  cases modelHasId with
  | true =>
    simp only [if_true, List.append_nil, List.exists_mem_cons_iff, hnone, hmark,
      ImplProperty.name_overridable]
    simp [hempty, eq_comm, and_comm]
  | false =>
    simp only [Bool.false_eq_true, if_false, List.cons_append, List.nil_append,
      List.exists_mem_cons_iff, hnone, hmark, ImplProperty.name_overridable]
    simp [hempty, eq_comm, and_comm, or_and_right]

/-- A root class hands down no more than another if it is of a model with its own id wherever the
other is. -/
theorem handsDown_mono_iff {own other : Bool} :
    (∀ name, HandsDown own name → HandsDown other name) ↔ (other = true → own = true) := by
  constructor
  · intro h hother
    cases own with
    | true => rfl
    | false =>
      rcases h "EntityProvider" (Or.inr ⟨rfl, rfl⟩) with heq | ⟨hfalse, _⟩
      · simp at heq
      · rw [hother] at hfalse
        cases hfalse
  · intro h name hname
    refine hname.imp_right fun ⟨hown, heq⟩ => ⟨?_, heq⟩
    cases other with
    | false => rfl
    | true =>
      rw [h rfl] at hown
      cases hown

section
variable {c : Compilation} {sch : Schematic} {targets : List Target} {g : LinkGraph}
  {a b : NodeId} {s t : ActorState} {as bs : List NodeId}

theorem Recorded.exists_override_iff (h : g.Recorded) (hb : g.ActorAt b t bs)
    (hcore : (g.target b).isCore = false) (hbase : t.baseActor = some a) (name : String) :
    (∃ p ∈ t.implementation.properties, p.name = name ∧ .override ∈ p.modifiers) ↔
      HandsDown t.modelHasId name := by
  obtain ⟨htbase, _, htid, htprops⟩ := h.root_eq hb
  rw [hbase] at htbase
  rw [hcore, if_neg Bool.false_ne_true] at htprops
  rw [htprops, htid]
  refine (exists_rootProperty_iff (P := (.override ∈ ·)) (by decide)).trans (and_iff_right ?_)
  rw [Modifiers.override_mem_handedDown, ← htbase]
  rfl

theorem Recorded.exists_overridable_iff (h : g.Recorded) (ha : g.ActorAt a s as) (name : String) :
    (∃ q ∈ s.implementation.properties, q.name = name ∧ q.modifiers.Overridable) ↔
      (g.target a).isCore = false ∧ (s.baseActor.isSome = true ∨ s.hasChildTarget = true) ∧
        HandsDown s.modelHasId name := by
  obtain ⟨hsbase, hschild, hsid, hsprops⟩ := h.root_eq ha
  rw [hsprops, hsbase, hschild, hsid, ← Modifiers.overridable_handedDown]
  cases (g.target a).isCore with
  | true => simp
  | false =>
    have hroot : (∃ p ∈ g.rootPropertiesOf a, p.name = name ∧ p.modifiers.Overridable) ↔
        (Modifiers.handedDown (g.baseTarget? a).isSome (g.hasChildTarget a)).Overridable ∧
          HandsDown (g.modelHasId a) name :=
      exists_rootProperty_iff (by unfold Modifiers.Overridable; decide)
    simpa using hroot

theorem overrides_iff_of_recorded (h : g.Recorded) (ha : g.ActorAt a s as) (hb : g.ActorAt b t bs)
    (hcore : (g.target b).isCore = false) (hbase : t.baseActor = some a) :
    t.Overrides s ↔ (g.target a).isCore = false ∧
      (s.baseActor.isSome = true ∨ s.hasChildTarget = true) ∧
        (s.modelHasId = true → t.modelHasId = true) := by
  have hall : t.Overrides s ↔ ∀ name, HandsDown t.modelHasId name →
      (g.target a).isCore = false ∧ (s.baseActor.isSome = true ∨ s.hasChildTarget = true) ∧
        HandsDown s.modelHasId name := by
    simp only [← h.exists_override_iff hb hcore hbase, ← h.exists_overridable_iff ha]
    exact ⟨fun h name ⟨p, hp, hname, hmark⟩ => hname ▸ h p hp hmark,
      fun h p hp hmark => h p.name ⟨p, hp, rfl, hmark⟩⟩
  rw [hall, ← handsDown_mono_iff]
  constructor
  · intro h
    obtain ⟨hcore, hvirtual, _⟩ := h "ActorProvider" (Or.inl rfl)
    exact ⟨hcore, hvirtual, fun name hname => (h name hname).2.2⟩
  · rintro ⟨hcore, hvirtual, hmono⟩ name hname
    exact ⟨hcore, hvirtual, hmono name hname⟩

theorem Grounded.hasChildTarget_of_direct (h : Grounded c sch targets g) (hc : c.Acyclic)
    {name : String} (hb : g.actor? name = some b) (hbase : g.baseTarget? b = some a)
    (hdirect : (g.actorSymbol? b).bind (·.baseType) = some (g.target a).actor) :
    g.hasChildTarget a = true := by
  have hne : b ≠ a := by
    rintro rfl
    exact Nat.lt_irrefl _ (h.supertypeCount_lt hc hb hbase).2
  refine List.any_eq_true.mpr ⟨b, mem_roots_iff.mpr ⟨name, hb⟩, ?_⟩
  rw [Bool.and_eq_true, bne_iff_ne, beq_iff_eq]
  exact ⟨hne, hdirect⟩

/-- What an actor overrides is there in the base actor if that one has a root class whose properties
are virtual or overridden, and if they are as many: the provider of entities is missing where the
model of the base alone carries its own id. Virtual they are at least where the actor's class
derives from that of the base directly. -/
theorem overrides_base_iff (hc : c.Acyclic) (hv : Visits (ofTargets c sch targets) g)
    (hvisited : g.isVisited = true) (hb : g.ActorAt b t bs) (hcore : (g.target b).isCore = false)
    (hbase : t.baseActor = some a) : ∃ s as, g.ActorAt a s as ∧
      (t.Overrides s ↔ (g.target a).isCore = false ∧
        (s.baseActor.isSome = true ∨ s.hasChildTarget = true) ∧
          (s.modelHasId = true → t.modelHasId = true)) ∧
      ((g.actorSymbol? b).bind (·.baseType) = some (g.target a).actor →
        s.hasChildTarget = true) := by
  have hrecorded := hv.recorded
  have htarget : g.baseTarget? b = some a := (hrecorded.root_eq hb).1.symm.trans hbase
  obtain ⟨_, hactor⟩ := exists_actor_of_base htarget
  obtain ⟨s, as, ha⟩ := exists_actorAt hv hvisited hactor
  refine ⟨s, as, ha, overrides_iff_of_recorded hrecorded ha hb hcore hbase, fun hdirect => ?_⟩
  obtain ⟨_, hroot⟩ := mem_roots_iff.mp (hb.mem_roots hv)
  rw [(hrecorded.root_eq ha).2.1]
  exact hv.grounded.hasChildTarget_of_direct hc hroot htarget hdirect

/-- What the symbols of the pair have above them. -/
theorem pairGraph_symbols (assembly : Assembly) :
    (∀ e ∈ (pairTypes assembly).types.entries, ∀ other ∈ e.2.parents,
      (pairTypes assembly).parents other = []) ∧
    ((pairGraph assembly).actorSymbol? 0).bind (·.baseType) = none ∧
    ((pairGraph assembly).actorSymbol? 2).bind (·.baseType)
      = some (pairTarget assembly "Channel").actor ∧
    (pairTypes assembly).parents (pairTarget assembly "Channel").model = [] ∧
    (pairTypes assembly).parents (pairTarget assembly "Thread").model = [] := by
  cases assembly <;> decide +kernel

theorem acyclic_pairTypes (assembly : Assembly) : (pairTypes assembly).Acyclic :=
  Compilation.acyclic_of_shallow (pairGraph_symbols assembly).1

/-- The channel is the base of the thread. -/
theorem baseTarget?_pairGraph (assembly : Assembly) :
    (pairGraph assembly).baseTarget? 0 = none ∧ (pairGraph assembly).baseTarget? 2 = some 0 ∧
      ((pairGraph assembly).actorSymbol? 2).bind (·.baseType)
        = some ((pairGraph assembly).target 0).actor := by
  obtain ⟨hentries, htarget, _⟩ := pairGraph_actors assembly
  obtain ⟨_, hnone, hdirect, _⟩ := pairGraph_symbols assembly
  have hchannel : (pairGraph assembly).actor? (pairTarget assembly "Channel").actor = some 0 :=
    Dict.mem_entries_iff.mp (by rw [hentries]; exact List.mem_cons_self)
  exact ⟨baseTarget?_of_none hnone, baseTarget?_of_direct hdirect hchannel,
    by rw [htarget]; exact hdirect⟩

theorem modelHasId_pairGraph (assembly : Assembly) :
    (pairGraph assembly).modelHasId 0 = false ∧ (pairGraph assembly).modelHasId 2 = false := by
  obtain ⟨_, hchannel, hthread⟩ := pairGraph_actors assembly
  obtain ⟨_, _, _, hmodel, hmodel'⟩ := pairGraph_symbols assembly
  have hcompilation : (pairGraph assembly).compilation = pairTypes assembly :=
    grounded_ofTargets.compilation_eq
  rw [modelHasId, modelHasId, hchannel, hthread, hcompilation]
  exact ⟨Compilation.implementsSimple_of_orphan hmodel _,
    Compilation.implementsSimple_of_orphan hmodel' _⟩

/-- Both actors have their states after a visit. -/
theorem exists_actorAt_pairGraph (assembly : Assembly) : ∃ s t as bs,
    (pairGraph assembly).visit.1.ActorAt 0 s as ∧ (pairGraph assembly).visit.1.ActorAt 2 t bs := by
  have hv : Visits (pairGraph assembly) (pairGraph assembly).visit.1 := .again .refl
  have hprogress : Progress (pairGraph assembly) [] (pairGraph assembly).visit.1 := hv.progress
  have hvisited := (visited_of_quiet (quiet_pairGraph assembly)).2
  obtain ⟨hentries, _⟩ := pairGraph_actors assembly
  rw [← hprogress.actors_eq] at hentries
  obtain ⟨s, as, ha⟩ := exists_actorAt hv hvisited (i := 0)
    (Dict.mem_entries_iff.mp (hentries ▸ List.mem_cons_self))
  obtain ⟨t, bs, hb⟩ := exists_actorAt hv hvisited (i := 2)
    (Dict.mem_entries_iff.mp (hentries ▸ List.mem_cons_of_mem _ List.mem_cons_self))
  exact ⟨s, t, as, bs, ha, hb⟩

/-- The thread derives from the channel directly. -/
theorem overrides_base_iff_sample : ∃ s t as bs,
    (pairGraph .rest).visit.1.ActorAt 0 s as ∧ (pairGraph .rest).visit.1.ActorAt 2 t bs ∧
      t.baseActor = some 0 ∧ t.Overrides s := by
  have hv : Visits (pairGraph .rest) (pairGraph .rest).visit.1 := .again .refl
  have hprogress : Progress (pairGraph .rest) [] (pairGraph .rest).visit.1 := hv.progress
  have hvisited := (visited_of_quiet (quiet_pairGraph .rest)).2
  obtain ⟨_, t, _, bs, _, hb⟩ := exists_actorAt_pairGraph .rest
  obtain ⟨_, hchannel, hthread⟩ := pairGraph_actors .rest
  obtain ⟨_, hbase, hdirect⟩ := baseTarget?_pairGraph .rest
  rw [← hprogress.baseTarget?_eq, ← (hv.recorded.root_eq hb).1] at hbase
  rw [← hprogress.actorSymbol?_eq, ← hprogress.target_eq] at hdirect
  obtain ⟨s, as, ha, hiff, hchild⟩ := overrides_base_iff (acyclic_pairTypes .rest) hv hvisited hb
    (by rw [hprogress.target_eq, hthread]; rfl) hbase
  refine ⟨s, t, as, bs, ha, hb, hbase, hiff.mpr ⟨?_, Or.inr (hchild hdirect), ?_⟩⟩
  · rw [hprogress.target_eq, hchannel]
    rfl
  · rw [(hv.recorded.root_eq ha).2.2.1, hprogress.modelHasId_eq, (modelHasId_pairGraph .rest).1]
    exact nofun

/-- A text channel is a channel, and a thread a text channel, which is no actor of the graph. -/
def indirectTypes : Compilation := .ofTypes
  [{ name := "Discord.Rest.RestChannelActor" },
   { name := "Discord.Rest.RestTextChannelActor"
     baseType := some "Discord.Rest.RestChannelActor" },
   { name := "Discord.Rest.RestThreadActor"
     baseType := some "Discord.Rest.RestTextChannelActor" }]

def indirectGraph : LinkGraph :=
  ofTargets indirectTypes ⟨⟨"Discord.ILinkType", [], [], []⟩⟩
    [pairTarget .rest "Channel", pairTarget .rest "Thread"]

/-- The channel is two steps above the thread, and no actor stands between them. -/
theorem indirectGraph_symbols :
    (0 < indirectGraph.arena.size ∧
      ∀ i < indirectGraph.arena.size, indirectGraph.complaint? i = none) ∧
    (indirectGraph.actorSymbol? 0).bind (·.baseType) = none ∧
    (indirectGraph.actorSymbol? 2).bind (·.baseType)
      = some "Discord.Rest.RestTextChannelActor" ∧
    (indirectTypes.type? "Discord.Rest.RestTextChannelActor").bind (·.baseType)
      = some "Discord.Rest.RestChannelActor" ∧
    indirectGraph.actor? "Discord.Rest.RestTextChannelActor" = none ∧
    indirectGraph.actor? "Discord.Rest.RestChannelActor" = some 0 ∧
    indirectGraph.actor? "Discord.Rest.RestThreadActor" = some 2 ∧
    indirectGraph.hasChildTarget 0 = false ∧ (indirectGraph.target 2).isCore = false := by
  decide +kernel

theorem baseTarget?_indirectGraph :
    indirectGraph.baseTarget? 0 = none ∧ indirectGraph.baseTarget? 2 = some 0 := by
  obtain ⟨_, hnone, hdirect, habove, htext, hchannel, _⟩ := indirectGraph_symbols
  have hcompilation : indirectGraph.compilation = indirectTypes := grounded_ofTargets.compilation_eq
  refine ⟨baseTarget?_of_none hnone, ?_⟩
  rw [baseTarget?_eq, hdirect, hcompilation, Compilation.chain_some, habove, List.findSome?_cons,
    htext, Compilation.chainAfter, if_neg (by decide), List.findSome?_cons, hchannel]

theorem indirect_override_not_virtual : indirectTypes.Acyclic ∧ indirectGraph.visit.2 = none ∧
    ∃ s t as bs, indirectGraph.visit.1.ActorAt 0 s as ∧ indirectGraph.visit.1.ActorAt 2 t bs ∧
      t.baseActor = some 0 ∧ (indirectGraph.visit.1.target 2).isCore = false ∧
      ¬ t.Overrides s := by
  have hacyclic : indirectTypes.Acyclic := Compilation.acyclic_of_rank
    (fun name => if name = "Discord.Rest.RestThreadActor" then 2
      else if name = "Discord.Rest.RestTextChannelActor" then 1 else 0) (by decide)
  obtain ⟨hquiet, _, _, _, _, hchannel, hthread, hchild, hcore⟩ := indirectGraph_symbols
  obtain ⟨hok, hvisited⟩ : indirectGraph.visit.2 = none ∧ indirectGraph.visit.1.isVisited = true :=
    visited_of_quiet hquiet
  have hv : Visits indirectGraph indirectGraph.visit.1 := .again .refl
  have hprogress : Progress indirectGraph [] indirectGraph.visit.1 := hv.progress
  rw [actor?, ← hprogress.actors_eq] at hchannel hthread
  obtain ⟨t, bs, hb⟩ := exists_actorAt hv hvisited hthread
  obtain ⟨s, as, ha⟩ := exists_actorAt hv hvisited hchannel
  have htbase := (hv.recorded.root_eq hb).1
  obtain ⟨hsbase, hschild, _⟩ := hv.recorded.root_eq ha
  rw [hprogress.baseTarget?_eq, baseTarget?_indirectGraph.2] at htbase
  rw [hprogress.baseTarget?_eq, baseTarget?_indirectGraph.1] at hsbase
  rw [hprogress.hasChildTarget_eq, hchild] at hschild
  rw [← hprogress.target_eq] at hcore
  refine ⟨hacyclic, hok, s, t, as, bs, ha, hb, htbase, hcore, fun h => ?_⟩
  obtain ⟨_, hvirtual, _⟩ := (overrides_iff_of_recorded hv.recorded ha hb hcore htbase).mp h
  simp [hsbase, hschild] at hvirtual

end

end LinkGraph

end ActorLinks
