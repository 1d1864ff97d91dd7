import ActorLinks.Proofs.Build.Overrides

/-! # Constructors

A constructor asks for what the classes of its chain ask for, the base class first. Of several that
ask for one name the first decides on the type, and a property is set from the parameter of its
name, whatever class asked for that. So an actor with a base sets its provider of actors from the
provider of another actor.
-/
namespace ActorLinks

def ImplParameter.decl (p : ImplParameter) : Decl.Parameter where
  typeName := p.typeName
  name := p.name

/-- The line of a constructor that sets the property. -/
def ImplProperty.assignment (p : ImplProperty) : String := p.name ++ " = " ++ p.parameterName ++ ";"

namespace ConstructorChain

/-- What the classes of a chain ask for, the base class first. -/
def asked (chain : ConstructorChain) : List ImplParameter := chain.reverse.flatMap (·.parameters)

/-- The type with which a name is first asked for. -/
def firstType? (chain : ConstructorChain) (name : String) : Option String :=
  (chain.asked.find? fun p => p.name == name).map (·.typeName)

theorem asked_cons (layer : ConstructorLayer) (base : ConstructorChain) :
    asked (layer :: base) = base.asked ++ layer.parameters := by simp [asked]

theorem parameters_eq (chain : ConstructorChain) :
    chain.parameters = chain.asked.foldl addParameter [] := by
  induction chain with
  | nil => rfl
  | cons layer base ih => rw [parameters, ih, asked_cons, List.foldl_append]

theorem mem_addParameter {ps : List Decl.Parameter} {p : ImplParameter} {q : Decl.Parameter} :
    q ∈ addParameter ps p ↔ q ∈ ps ∨ (∀ r ∈ ps, r.name ≠ p.name) ∧ q = p.decl := by
  have hnone : (∀ r ∈ ps, r.name ≠ p.name) ↔ ¬ (ps.any fun r => r.name == p.name) = true := by
    simp
  rw [hnone, addParameter]
  split
  · next hany => simp [hany]
  · next hany => simp [hany, ImplParameter.decl]

theorem exists_mem_addParameter (ps : List Decl.Parameter) (p : ImplParameter) :
    ∃ r ∈ addParameter ps p, r.name = p.name := by
  by_cases h : ∃ r ∈ ps, r.name = p.name
  · obtain ⟨r, hr, hname⟩ := h
    exact ⟨r, mem_addParameter.mpr (Or.inl hr), hname⟩
  · exact ⟨p.decl, mem_addParameter.mpr (Or.inr ⟨fun r hr hname => h ⟨r, hr, hname⟩, rfl⟩), rfl⟩

/-- Of several with one name the first one is taken in. -/
theorem mem_foldl_addParameter {xs : List ImplParameter} {ps : List Decl.Parameter}
    {q : Decl.Parameter} : q ∈ xs.foldl addParameter ps ↔
      q ∈ ps ∨ (∀ r ∈ ps, r.name ≠ q.name) ∧
        (xs.find? fun p => p.name == q.name).map ImplParameter.decl = some q := by
  induction xs generalizing ps with
  | nil => simp
  | cons x xs ih =>
    rw [List.foldl_cons, ih, List.find?_cons]
    by_cases hx : x.name = q.name
    · have htaken : ¬ ∀ r ∈ addParameter ps x, r.name ≠ q.name := fun h =>
        let ⟨r, hr, hname⟩ := exists_mem_addParameter ps x
        h r hr (hname.trans hx)
      rw [or_iff_left fun h => htaken h.1, mem_addParameter, hx, beq_self_eq_true, Option.map_some,
        Option.some_inj, eq_comm]
    · have hsame : q ∈ addParameter ps x ↔ q ∈ ps :=
        mem_addParameter.trans (or_iff_left fun h => hx (h.2 ▸ rfl))
      have hnew : (∀ r ∈ addParameter ps x, r.name ≠ q.name) ↔ ∀ r ∈ ps, r.name ≠ q.name := by
        refine ⟨fun h r hr => h r (mem_addParameter.mpr (Or.inl hr)), fun h r hr => ?_⟩
        rcases mem_addParameter.mp hr with hr | ⟨_, rfl⟩
        · exact h r hr
        · exact hx
      rw [hsame, hnew, beq_eq_false_iff_ne.mpr hx]

theorem nodup_names_addParameter {ps : List Decl.Parameter} (h : (ps.map (·.name)).Nodup)
    (p : ImplParameter) : ((addParameter ps p).map (·.name)).Nodup := by
  unfold addParameter
  split
  · exact h
  · next hany =>
    have hfresh : p.name ∉ ps.map (·.name) := by
      simpa [List.any_eq_true, List.mem_map] using hany
    rw [List.map_append, List.map_singleton]
    exact (List.perm_append_singleton _ _).nodup_iff.mpr (List.nodup_cons.mpr ⟨hfresh, h⟩)

theorem nodup_names_foldl {xs : List ImplParameter} {ps : List Decl.Parameter}
    (h : (ps.map (·.name)).Nodup) : ((xs.foldl addParameter ps).map (·.name)).Nodup := by
  induction xs generalizing ps with
  | nil => exact h
  | cons x xs ih => exact ih (nodup_names_addParameter h x)

theorem nodup_names (chain : ConstructorChain) : (chain.parameters.map (·.name)).Nodup := by
  rw [parameters_eq]
  exact nodup_names_foldl List.nodup_nil

/-- A parameter has the type with which its name is first asked for. -/
theorem mem_parameters_iff {chain : ConstructorChain} {typeName name : String} :
    ({ typeName := typeName, name := name } : Decl.Parameter) ∈ chain.parameters ↔
      chain.firstType? name = some typeName := by
  rw [parameters_eq, mem_foldl_addParameter, firstType?]
  constructor
  · rintro (h | ⟨_, h⟩)
    · exact absurd h List.not_mem_nil
    · obtain ⟨p, hp, hdecl⟩ := Option.map_eq_some_iff.mp h
      rw [hp, Option.map_some, show p.typeName = typeName from congrArg (·.typeName) hdecl]
  · intro h
    obtain ⟨p, hp, rfl⟩ := Option.map_eq_some_iff.mp h
    have hname : p.name = name := by simpa using List.find?_some hp
    refine Or.inr ⟨fun _ hnil => absurd hnil List.not_mem_nil, ?_⟩
    rw [hp, Option.map_some, ImplParameter.decl, hname]

/-- Whatever is asked for is passed. -/
theorem exists_parameter_iff {chain : ConstructorChain} {name : String} :
    (∃ q ∈ chain.parameters, q.name = name) ↔ ∃ p ∈ chain.asked, p.name = name := by
  rw [parameters_eq]
  constructor
  · rintro ⟨q, hq, rfl⟩
    rcases mem_foldl_addParameter.mp hq with hnil | ⟨_, h⟩
    · exact absurd hnil List.not_mem_nil
    · obtain ⟨p, hp, hdecl⟩ := Option.map_eq_some_iff.mp h
      exact ⟨p, List.mem_of_find?_eq_some hp, congrArg (·.name) hdecl⟩
  · rintro ⟨p, hp, hname⟩
    obtain ⟨first, hfirst⟩ : ∃ first, chain.asked.find? (fun p => p.name == name) = some first :=
      Option.isSome_iff_exists.mp (List.find?_isSome.mpr ⟨p, hp, beq_iff_eq.mpr hname⟩)
    have hname : first.name = name := by simpa using List.find?_some hfirst
    refine ⟨first.decl, mem_foldl_addParameter.mpr (Or.inr ⟨?_, ?_⟩), hname⟩
    · exact fun _ hnil => absurd hnil List.not_mem_nil
    · rw [show first.decl.name = name from hname, hfirst, Option.map_some]

theorem foldl_addParameter_of_taken {xs : List ImplParameter} {ps : List Decl.Parameter}
    (h : ∀ p ∈ xs, ∃ q ∈ ps, q.name = p.name) : xs.foldl addParameter ps = ps := by
  induction xs with
  | nil => rfl
  | cons x xs ih =>
    obtain ⟨q, hq, hname⟩ := h x List.mem_cons_self
    have htaken : (ps.any fun r => r.name == x.name) = true :=
      List.any_eq_true.mpr ⟨q, hq, beq_iff_eq.mpr hname⟩
    rw [List.foldl_cons, addParameter, if_pos htaken]
    exact ih fun p hp => h p (List.mem_cons_of_mem _ hp)

theorem map_name_addParameter (ps : List Decl.Parameter) (p : ImplParameter) :
    (addParameter ps p).map (·.name)
      = if p.name ∈ ps.map (·.name) then ps.map (·.name) else ps.map (·.name) ++ [p.name] := by
  have htaken : (ps.any fun q => q.name == p.name) = true ↔ p.name ∈ ps.map (·.name) := by
    simp [List.any_eq_true]
  simp only [addParameter, htaken]
  split
  · rfl
  · rw [List.map_append, List.map_singleton]

/-- Of what a class asks for, the names that its base does not take are put at the end. -/
theorem argumentNames_cons (layer : ConstructorLayer) (base : ConstructorChain) :
    argumentNames (layer :: base) = layer.parameters.foldl
      (fun names p => if p.name ∈ names then names else names ++ [p.name]) base.argumentNames := by
  show (layer.parameters.foldl addParameter base.parameters).map (·.name) = _
  exact (List.foldl_hom _ fun ps p => (map_name_addParameter ps p).symm).symm

/-- A class takes what its base takes if it asks for nothing new. -/
theorem argumentNames_cons_eq_iff {layer : ConstructorLayer} {base : ConstructorChain} :
    argumentNames (layer :: base) = base.argumentNames ↔
      ∀ p ∈ layer.parameters, ∃ q ∈ base.asked, q.name = p.name := by
  constructor
  · intro h p hp
    have hmem : p.name ∈ argumentNames (layer :: base) := by
      refine List.mem_map.mpr (exists_parameter_iff.mpr ⟨p, ?_, rfl⟩)
      rw [asked_cons]
      exact List.mem_append_right _ hp
    rw [h] at hmem
    exact exists_parameter_iff.mp (List.mem_map.mp hmem)
  · intro h
    refine congrArg (List.map (·.name)) (foldl_addParameter_of_taken fun p hp => ?_)
    exact exists_parameter_iff.mpr (h p hp)

theorem foldl_addParameter_of_fresh {xs : List ImplParameter} {ps : List Decl.Parameter}
    (h : (ps.map (·.name) ++ xs.map (·.name)).Nodup) :
    xs.foldl addParameter ps = ps ++ xs.map ImplParameter.decl := by
  induction xs generalizing ps with
  | nil => simp
  | cons x xs ih =>
    have hfresh : ¬ (ps.any fun q => q.name == x.name) = true := by
      intro hany
      obtain ⟨q, hq, hname⟩ := List.any_eq_true.mp hany
      exact (List.nodup_append.mp h).2.2 _ (List.mem_map_of_mem hq) _ List.mem_cons_self
        (beq_iff_eq.mp hname)
    rw [List.foldl_cons, addParameter, if_neg hfresh, ih]
    · simp [ImplParameter.decl]
    · simpa using h

/-- A class takes each parameter that it asks for where no name is asked for twice. -/
theorem parameters_cons_eq_append_iff {layer : ConstructorLayer} {base : ConstructorChain} :
    parameters (layer :: base) = base.parameters ++ layer.parameters.map ImplParameter.decl ↔
      (base.argumentNames ++ layer.parameters.map (·.name)).Nodup := by
  constructor
  · intro h
    have hnames := nodup_names (layer :: base)
    rw [h, List.map_append, List.map_map] at hnames
    exact hnames
  · exact foldl_addParameter_of_fresh

theorem parameters_of_decl? {chain : ConstructorChain} {d : Decl.Constructor}
    (hd : chain.decl? = some d) : d.parameters = chain.parameters := by
  cases chain with
  | nil => cases hd
  | cons layer base =>
    cases hd
    rfl

end ConstructorChain

namespace LinkGraph

theorem parameterNames :
    Text.parameterName "Client" = "client" ∧ Text.parameterName "ActorProvider" = "actorProvider" ∧
      Text.parameterName "EntityProvider" = "entityProvider" := by
  decide +kernel

theorem parameters_rootLayer (g : LinkGraph) (i : NodeId) : (g.rootLayer i).parameters
    = [⟨(g.target i).clientType, "client", some "Client"⟩,
        ⟨(g.target i).actorProvider, "actorProvider", some "ActorProvider"⟩]
      ++ if g.modelHasId i then []
        else [⟨(g.target i).entityProvider, "entityProvider", some "EntityProvider"⟩] := by
  have htype (p : ImplProperty) (hasBase hasChild : Bool) :
      (p.overridable hasBase hasChild).typeName = p.typeName ∧
        (p.overridable hasBase hasChild).name = p.name := by
    cases hasBase <;> cases hasChild <;> exact ⟨rfl, rfl⟩
  obtain ⟨hclient, hactor, hentity⟩ := parameterNames
  unfold rootLayer ConstructorChain.layerOf rootPropertiesOf rootProperties
  cases g.modelHasId i <;>
    simp [ImplProperty.parameterName, htype, hclient, hactor, hentity]

theorem exists_actorProvider (g : LinkGraph) (i : NodeId) : ∃ p ∈ g.rootPropertiesOf i,
    p.name = "ActorProvider" ∧ p.typeName = (g.target i).actorProvider := by
  refine ⟨_, List.mem_append_left _ (List.mem_cons_of_mem _ List.mem_cons_self), ?_⟩
  cases (g.baseTarget? i).isSome <;> cases g.hasChildTarget i <;> exact ⟨rfl, rfl⟩

section
variable {g : LinkGraph} {l : List NodeId}

theorem asked_rootLayers : ConstructorChain.asked (l.map g.rootLayer)
    = l.reverse.flatMap fun n => (g.rootLayer n).parameters := by
  rw [ConstructorChain.asked, ← List.map_reverse, List.flatMap_map]

/-- The last of a lineage is the first to ask for a provider of actors. -/
theorem firstType?_actorProvider :
    ConstructorChain.firstType? (l.map g.rootLayer) "actorProvider"
      = l.getLast?.map fun n => (g.target n).actorProvider := by
  rw [ConstructorChain.firstType?, asked_rootLayers, ← List.head?_reverse]
  cases l.reverse with
  | nil => rfl
  | cons n ns => simp [parameters_rootLayer]

/-- The last of a lineage whose model does not carry its own id is the first to ask for a provider
of entities. -/
theorem firstType?_entityProvider :
    ConstructorChain.firstType? (l.map g.rootLayer) "entityProvider"
      = (l.reverse.find? fun n => !g.modelHasId n).map fun n => (g.target n).entityProvider := by
  rw [ConstructorChain.firstType?, asked_rootLayers]
  induction l.reverse with
  | nil => rfl
  | cons n ns ih =>
    cases hid : g.modelHasId n with
    | true => simpa [parameters_rootLayer, hid] using ih
    | false => simp [parameters_rootLayer, hid]

/-- What the root classes of a lineage take. -/
def rootArguments (g : LinkGraph) (l : List NodeId) : List String :=
  ["client", "actorProvider"] ++ if l.all g.modelHasId then [] else ["entityProvider"]

theorem argumentNames_rootLayers (hl : l ≠ []) :
    ConstructorChain.argumentNames (l.map g.rootLayer) = g.rootArguments l := by
  induction l with
  | nil => exact absurd rfl hl
  | cons n l ih =>
    rw [List.map_cons, ConstructorChain.argumentNames_cons, parameters_rootLayer]
    by_cases hnil : l = []
    · subst hnil
      cases hid : g.modelHasId n <;>
        simp [rootArguments, hid, ConstructorChain.argumentNames, ConstructorChain.parameters]
    · rw [ih hnil]
      cases hid : g.modelHasId n <;> cases hall : l.all g.modelHasId <;>
        simp [rootArguments, hid, hall]

end

/-- How the constructor of a node's class sets the properties of the class. -/
structure Initializes (g : LinkGraph) (i : NodeId) (v : NodeState) (d : Decl.Constructor) :
    Prop where
  body_eq : d.body = v.detail.implementation.properties.map (·.assignment)
  nodup_names : (d.parameters.map (·.name)).Nodup
  exists_parameter : ∀ p ∈ v.detail.implementation.properties,
    ∃ q ∈ d.parameters, q.name = p.parameterName
  /-- It has the property's type where no class further down the chain asks for the name with
  another one. -/
  own_type_iff : ∀ p ∈ v.detail.implementation.properties,
    ({ typeName := p.typeName, name := p.parameterName } : Decl.Parameter) ∈ d.parameters ↔
      v.detail.implementation.constructors.firstType? p.parameterName = some p.typeName
  /-- The providers of a root class are those of the actors of its lineage that are last. -/
  providers : ∀ s, v.detail = .actor s → ∃ l, g.Lineage (i :: l) ∧
    ∀ typeName,
      (({ typeName := typeName, name := "actorProvider" } : Decl.Parameter) ∈ d.parameters ↔
        (i :: l).getLast?.map (fun n => (g.target n).actorProvider) = some typeName) ∧
      (({ typeName := typeName, name := "entityProvider" } : Decl.Parameter) ∈ d.parameters ↔
        ((i :: l).reverse.find? fun n => !g.modelHasId n).map
          (fun n => (g.target n).entityProvider) = some typeName)

section
variable {c : Compilation} {sch : Schematic} {targets : List Target} {g : LinkGraph} {i : NodeId}
  {v : NodeState} {d : Decl.Constructor}

theorem assignments_layerOf (name : String) (properties : List ImplProperty) :
    ConstructorChain.assignments (ConstructorChain.layerOf name properties)
      = properties.map (·.assignment) := by
  simp [ConstructorChain.assignments, ConstructorChain.layerOf, ImplProperty.assignment,
    List.filterMap_map]

/-- A constructor stands on the layer of the properties of its class. -/
theorem Recorded.exists_chain (h : g.Recorded) (hi : g.state? i = some v)
    (hd : v.detail.implementation.constructors.decl? = some d) : ∃ name base,
      v.detail.implementation.constructors
        = ConstructorChain.layerOf name v.detail.implementation.properties :: base := by
  obtain ⟨states, _, hvisit⟩ := h i v hi
  obtain ⟨name, properties, himplementation⟩ := implementation_of_visitNode hvisit
  split at himplementation
  · rw [himplementation]
    exact ⟨name, _, rfl⟩
  · rw [himplementation] at hd
    cases hd

theorem Recorded.body_eq (h : g.Recorded) (hi : g.state? i = some v)
    (hd : v.detail.implementation.constructors.decl? = some d) :
    d.body = v.detail.implementation.properties.map (·.assignment) := by
  obtain ⟨name, base, hchain⟩ := h.exists_chain hi hd
  rw [hchain] at hd
  rw [← assignments_layerOf name]
  cases hd
  rfl

theorem constructor_initializes (hv : Visits (ofTargets c sch targets) g)
    (hi : g.state? i = some v)
    (hd : v.detail.implementation.constructors.decl? = some d) : g.Initializes i v d := by
  obtain ⟨name, base, hchain⟩ := hv.recorded.exists_chain hi hd
  have hparameters := ConstructorChain.parameters_of_decl? hd
  refine ⟨hv.recorded.body_eq hi hd, ?_, fun p hp => ?_, fun p _ => ?_, fun s hs => ?_⟩
  · rw [hparameters]
    exact ConstructorChain.nodup_names _
  · rw [hparameters, ConstructorChain.exists_parameter_iff, hchain, ConstructorChain.asked_cons]
    refine ⟨⟨p.typeName, p.parameterName, some p.name⟩, List.mem_append_right _ ?_, rfl⟩
    exact List.mem_map_of_mem hp
  · rw [hparameters]
    exact ConstructorChain.mem_parameters_iff
  · have hroot := hv.rootChains i s (actorState?_eq_some.mpr ⟨v, hi, hs⟩)
    rw [hparameters, show v.detail.implementation = s.implementation from hs ▸ rfl] at *
    split at hroot
    · rw [hroot] at hchain
      cases hchain
    · obtain ⟨l, hl, hconstructors⟩ := hroot
      refine ⟨l, hl, fun typeName => ⟨?_, ?_⟩⟩
      · rw [hconstructors, ConstructorChain.mem_parameters_iff, firstType?_actorProvider]
      · rw [hconstructors, ConstructorChain.mem_parameters_iff, firstType?_entityProvider]

end

/-- The constructor of the thread goes on top of that of the channel. -/
theorem constructors_pairGraph : ∃ s t as bs, (pairGraph .rest).visit.1.ActorAt 0 s as ∧
    (pairGraph .rest).visit.1.ActorAt 2 t bs ∧
    s.implementation.constructors = [0].map (pairGraph .rest).visit.1.rootLayer ∧
    t.implementation.constructors = [2, 0].map (pairGraph .rest).visit.1.rootLayer := by
  have hv : Visits (pairGraph .rest) (pairGraph .rest).visit.1 := .again .refl
  have hprogress : Progress (pairGraph .rest) [] (pairGraph .rest).visit.1 := hv.progress
  have hsettled : (pairGraph .rest).visit.1.Settled := hv.settled (acyclic_pairTypes .rest)
  obtain ⟨s, t, as, bs, ha, hb⟩ := exists_actorAt_pairGraph .rest
  obtain ⟨_, hchannel, hthread⟩ := pairGraph_actors .rest
  obtain ⟨hroot, hbase, _⟩ := baseTarget?_pairGraph .rest
  have hs := hsettled.constructors_actor ha (by rw [hprogress.target_eq, hchannel]; rfl)
  have ht := hsettled.constructors_actor hb (by rw [hprogress.target_eq, hthread]; rfl)
  rw [hprogress.baseTarget?_eq, hroot] at hs
  rw [hprogress.baseTarget?_eq, hbase, baseConstructors_of_actorAt ha, hs] at ht
  exact ⟨s, t, as, bs, ha, hb, hs, ht⟩

theorem actorProvider_pairGraph :
    ((pairGraph .rest).visit.1.target 0).actorProvider
      = "Discord.IActorProvider<Discord.Rest.RestChannelActor, ulong>" ∧
    ((pairGraph .rest).visit.1.target 2).actorProvider
      = "Discord.IActorProvider<Discord.Rest.RestThreadActor, ulong>" := by
  have hprogress : Progress (pairGraph .rest) [] (pairGraph .rest).visit.1 :=
    Visits.progress (.again .refl)
  rw [hprogress.target_eq, hprogress.target_eq]
  decide +kernel

/-- The channel, which has no base, sets its provider of actors from one of its own type. -/
theorem constructor_initializes_sample : ∃ v d, (pairGraph .rest).visit.1.state? 0 = some v ∧
    v.detail.implementation.constructors.decl? = some d ∧
    ({ typeName := "Discord.IActorProvider<Discord.Rest.RestChannelActor, ulong>"
       name := "actorProvider" } : Decl.Parameter) ∈ d.parameters := by
  have hv : Visits (pairGraph .rest) (pairGraph .rest).visit.1 := .again .refl
  have hprogress : Progress (pairGraph .rest) [] (pairGraph .rest).visit.1 := hv.progress
  obtain ⟨s, _, _, _, ⟨v, hstate, hdetail, _⟩, _, hs, _⟩ := constructors_pairGraph
  obtain ⟨d, hd⟩ : ∃ d, v.detail.implementation.constructors.decl? = some d := by
    rw [hdetail, NodeDetail.implementation, hs]
    exact ⟨_, rfl⟩
  obtain ⟨l, hl, hproviders⟩ := (constructor_initializes hv hstate hd).providers s hdetail
  have hnone : l = [] := by
    cases l with
    | nil => rfl
    | cons n _ =>
      have hbase := (List.isChain_cons_cons.mp hl.1).1
      rw [hprogress.baseTarget?_eq, (baseTarget?_pairGraph .rest).1] at hbase
      cases hbase
  refine ⟨v, d, hstate, hd, (hproviders _).1.mpr ?_⟩
  rw [hnone, List.getLast?_singleton, Option.map_some, actorProvider_pairGraph.1]

/-- The thread sets its provider of actors from one for channels. -/
theorem provider_set_from_base : (pairGraph .rest).visit.2 = none ∧
    ∃ v d p, (pairGraph .rest).visit.1.state? 2 = some v ∧
      v.detail.implementation.constructors.decl? = some d ∧
      p ∈ v.detail.implementation.properties ∧
      p.typeName = "Discord.IActorProvider<Discord.Rest.RestThreadActor, ulong>" ∧
      p.parameterName = "actorProvider" ∧ p.assignment ∈ d.body ∧
      ∀ typeName,
        (({ typeName := typeName, name := "actorProvider" } : Decl.Parameter) ∈ d.parameters ↔
          typeName = "Discord.IActorProvider<Discord.Rest.RestChannelActor, ulong>") := by
  have hv : Visits (pairGraph .rest) (pairGraph .rest).visit.1 := .again .refl
  have hprogress : Progress (pairGraph .rest) [] (pairGraph .rest).visit.1 := hv.progress
  obtain ⟨_, t, _, _, _, ⟨v, hstate, hdetail, hancestors⟩, _, ht⟩ := constructors_pairGraph
  have hproperties : v.detail.implementation.properties
      = (pairGraph .rest).visit.1.rootPropertiesOf 2 := by
    have hroot := (hv.recorded.root_eq ⟨v, hstate, hdetail, hancestors⟩).2.2.2
    rw [hprogress.target_eq, (pairGraph_actors .rest).2.2, if_neg (by decide)] at hroot
    rw [hdetail]
    exact hroot
  obtain ⟨p, hp, hname, htype⟩ := exists_actorProvider (pairGraph .rest).visit.1 2
  rw [← hproperties] at hp
  have hparameter : p.parameterName = "actorProvider" := by
    rw [ImplProperty.parameterName, hname, parameterNames.2.1]
  obtain ⟨d, hd⟩ : ∃ d, v.detail.implementation.constructors.decl? = some d := by
    rw [hdetail, NodeDetail.implementation, ht]
    exact ⟨_, rfl⟩
  refine ⟨(visited_of_quiet (quiet_pairGraph .rest)).1, v, d, p, hstate, hd, hp,
    htype.trans actorProvider_pairGraph.2, hparameter, ?_, fun typeName => ?_⟩
  · rw [hv.recorded.body_eq hstate hd]
    exact List.mem_map_of_mem hp
  · rw [ConstructorChain.parameters_of_decl? hd, hdetail, NodeDetail.implementation, ht,
      ConstructorChain.mem_parameters_iff, firstType?_actorProvider]
    simp [actorProvider_pairGraph.1, eq_comm]

end LinkGraph

end ActorLinks
