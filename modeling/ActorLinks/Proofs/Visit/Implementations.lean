import ActorLinks.Proofs.Visit.Records

/-! # What implementation classes are made from

The properties of an actor's root class depend on the graph alone: on the base, on the classes that
derive from the actor's own, and on whether the model carries its own id. The constructor of every
class is its own layer on a chain that is read from another node, the base actor, the actor above or
the nearest implemented parent. For an actor the whole chain is known: the layers of its lineage.
-/
namespace ActorLinks.LinkGraph

/-- The model carries its own id. -/
def modelHasId (g : LinkGraph) (i : NodeId) : Bool :=
  g.compilation.implementsSimple (g.target i).model "IEntityModel"

def rootPropertiesOf (g : LinkGraph) (i : NodeId) : List ImplProperty :=
  rootProperties (g.target i) (g.modelHasId i) (g.baseTarget? i).isSome (g.hasChildTarget i)

def rootLayer (g : LinkGraph) (i : NodeId) : ConstructorLayer :=
  ConstructorChain.layerOf linkBaseName (g.rootPropertiesOf i)

/-- The chain that the constructor of a node's class is put on. -/
def chainBelow (g : LinkGraph) (i : NodeId) : ConstructorChain :=
  match g.arena.category i with
  | .actor => g.baseConstructors (g.baseTarget? i)
  | .linkType => g.rootConstructors i
  | .extension | .hierarchy | .backLink => g.parentConstructors i

theorem implementation_visitActor (g : LinkGraph) (i : NodeId) (ancestors : List NodeId) :
    (g.visitActor i ancestors).implementation
      = if (g.target i).isCore then {}
        else .ofProperties linkBaseName (g.rootPropertiesOf i)
          (g.baseConstructors (g.baseTarget? i)) := rfl

section
variable {g : LinkGraph} {i a b : NodeId} {v : NodeState} {s t : ActorState} {as bs : List NodeId}

/-- Only implemented nodes have an implementation. -/
theorem implementation_of_visitNode (hv : g.visitNode i = .ok v) :
    ∃ name properties, v.detail.implementation
      = if g.arena.isImplemented i then .ofProperties name properties (g.chainBelow i)
        else {} := by
  obtain ⟨detail, hdetail, rfl⟩ := Failure.map_eq_ok_iff.mp hv
  unfold visitAs at hdetail
  unfold chainBelow
  cases hk : g.arena.category i with
  | actor =>
    rw [hk] at hdetail
    cases hdetail
    -- of an actor both tests only ask for the assembly
    have himplemented : g.arena.isImplemented i = !(g.target i).isCore := by
      unfold Arena.isImplemented
      cases hkind : g.arena.kind i with
      | actor symbol => simp [Arena.isCore, target]
      | _ => simp [Arena.category, hkind, NodeKind.category] at hk
    refine ⟨linkBaseName, g.rootPropertiesOf i, ?_⟩
    show (g.visitActor i _).implementation = _
    rw [implementation_visitActor, himplemented]
    cases (g.target i).isCore <;> rfl
  | linkType =>
    rw [hk] at hdetail
    cases hdetail
    exact ⟨_, _, rfl⟩
  | extension =>
    rw [hk] at hdetail
    obtain ⟨state, hstate, rfl⟩ := Failure.map_eq_ok_iff.mp hdetail
    unfold visitExtension at hstate
    split at hstate
    · cases hstate
    · cases hstate
      exact ⟨_, _, rfl⟩
  | hierarchy =>
    rw [hk] at hdetail
    obtain ⟨state, hstate, rfl⟩ := Failure.map_eq_ok_iff.mp hdetail
    obtain ⟨members, _, rfl⟩ := Failure.map_eq_ok_iff.mp hstate
    exact ⟨_, _, rfl⟩
  | backLink =>
    rw [hk] at hdetail
    obtain ⟨state, hstate, rfl⟩ := Failure.map_eq_ok_iff.mp hdetail
    obtain ⟨parent, _, rfl⟩ := Failure.map_eq_ok_iff.mp hstate
    exact ⟨_, _, rfl⟩

theorem Progress.baseTarget?_eq {top : LinkGraph} {done : List NodeId} (h : Progress top done g)
    (i : NodeId) : g.baseTarget? i = top.baseTarget? i := by
  rw [h.same]
  rfl

theorem Progress.hasChildTarget_eq {top : LinkGraph} {done : List NodeId}
    (h : Progress top done g) (i : NodeId) : g.hasChildTarget i = top.hasChildTarget i := by
  rw [h.same]
  rfl

theorem Progress.modelHasId_eq {top : LinkGraph} {done : List NodeId} (h : Progress top done g)
    (i : NodeId) : g.modelHasId i = top.modelHasId i := by
  rw [h.same]
  rfl

theorem Progress.actorSymbol?_eq {top : LinkGraph} {done : List NodeId} (h : Progress top done g)
    (i : NodeId) : g.actorSymbol? i = top.actorSymbol? i := by
  rw [h.same]
  rfl

/-- What an actor was made from is there in the graph as it is now. -/
theorem Recorded.root_eq (h : g.Recorded) (hi : g.ActorAt i s as) :
    s.baseActor = g.baseTarget? i ∧ s.hasChildTarget = g.hasChildTarget i ∧
      s.modelHasId = g.modelHasId i ∧
      s.implementation.properties
        = if (g.target i).isCore then [] else g.rootPropertiesOf i := by
  obtain ⟨v, hv, hdetail, _⟩ := hi
  obtain ⟨states, _, hvisit⟩ := h i v hv
  rw [actor_of_visitNode hvisit hdetail]
  refine ⟨rfl, rfl, rfl, ?_⟩
  rw [implementation_visitActor]
  show _ = if ((g.withStates states).target i).isCore then _ else _
  split
  · rfl
  · rfl

theorem Settled.implementation_actor (h : g.Settled) (hi : g.ActorAt i s as) :
    s.implementation = if (g.target i).isCore then {}
      else .ofProperties linkBaseName (g.rootPropertiesOf i)
        (g.baseConstructors (g.baseTarget? i)) := by
  obtain ⟨v, hv, hdetail, _⟩ := hi
  rw [actor_of_visitNode (h hv).1 hdetail, implementation_visitActor]

theorem Settled.constructors_actor (h : g.Settled) (hi : g.ActorAt i s as)
    (hcore : (g.target i).isCore = false) :
    s.implementation.constructors = g.rootLayer i :: g.baseConstructors (g.baseTarget? i) := by
  rw [h.implementation_actor hi, hcore, if_neg Bool.false_ne_true]
  rfl

theorem baseConstructors_of_actorAt (hb : g.ActorAt b t bs) :
    g.baseConstructors (some b) = t.implementation.constructors := by
  rw [baseConstructors, Option.bind_some, hb.actorState?_eq]

theorem baseTarget?_eq (g : LinkGraph) (i : NodeId) : g.baseTarget? i =
    (g.compilation.chain (·.baseType) ((g.actorSymbol? i).bind (·.baseType))).findSome?
      g.actor? := by
  unfold baseTarget?
  cases g.actorSymbol? i with
  | none => simp [Compilation.chain, Compilation.chainAfter]
  | some symbol => rfl

theorem baseTarget?_of_none (h : (g.actorSymbol? i).bind (·.baseType) = none) :
    g.baseTarget? i = none := by
  rw [baseTarget?_eq, h, Compilation.chain, Compilation.chainAfter, List.findSome?_nil]

/-- An actor whose class an actor derives from directly is its base. -/
theorem baseTarget?_of_direct {name : String}
    (h : (g.actorSymbol? i).bind (·.baseType) = some name) (hb : g.actor? name = some b) :
    g.baseTarget? i = some b := by
  rw [baseTarget?_eq, h, Compilation.chain_some, List.findSome?_cons, hb]

/-- A base is an actor of the graph. -/
theorem exists_actor_of_base (h : g.baseTarget? i = some b) :
    ∃ name, g.actor? name = some b := by
  rw [baseTarget?_eq] at h
  obtain ⟨name, _, hname⟩ := List.exists_of_findSome?_eq_some h
  exact ⟨name, hname⟩

/-- Actors outside the core assembly, each but the last with the next one as its base. -/
def Lineage (g : LinkGraph) (l : List NodeId) : Prop :=
  l.IsChain (fun m n => g.baseTarget? m = some n) ∧ ∀ n ∈ l, (g.target n).isCore = false

/-- The constructor of every root class is a chain of the layers of a lineage. -/
def RootChains (g : LinkGraph) : Prop :=
  ∀ (i : NodeId) (s : ActorState), g.actorState? i = some s →
    if (g.target i).isCore then s.implementation.constructors = []
    else ∃ l, g.Lineage (i :: l) ∧ s.implementation.constructors = (i :: l).map g.rootLayer

theorem RootChains.baseConstructors (h : g.RootChains) (hi : (g.target i).isCore = false) :
    ∃ l, g.Lineage (i :: l) ∧
      g.baseConstructors (g.baseTarget? i) = l.map g.rootLayer := by
  have halone : g.Lineage [i] := ⟨List.isChain_singleton i, by simpa using hi⟩
  unfold LinkGraph.baseConstructors
  split
  · next s hs =>
    obtain ⟨b, hb, hstate⟩ := Option.bind_eq_some_iff.mp hs
    have hbase := h b s hstate
    split at hbase
    · exact ⟨[], halone, hbase⟩
    · obtain ⟨l, ⟨hchain, hcore⟩, hconstructors⟩ := hbase
      refine ⟨b :: l, ⟨List.isChain_cons_cons.mpr ⟨hb, hchain⟩, fun n hn => ?_⟩, hconstructors⟩
      rcases List.mem_cons.mp hn with rfl | hn
      · exact hi
      · exact hcore n hn
  · exact ⟨[], halone, rfl⟩

theorem RootChains.withState (h : g.RootChains) (hi : i < g.states.size)
    (hv : g.visitNode i = .ok v) : (g.withState i v).RootChains := by
  intro j s hs
  obtain ⟨w, hw, hdetail⟩ := actorState?_eq_some.mp hs
  rw [state?_withState hi] at hw
  split at hw
  · next hj =>
    cases hw
    subst hj
    rw [actor_of_visitNode hv hdetail, implementation_visitActor]
    show if (g.target j).isCore then _ else _
    cases hcore : (g.target j).isCore with
    | true => rfl
    | false =>
      obtain ⟨l, hl, hbase⟩ := h.baseConstructors hcore
      exact ⟨l, hl, congrArg (g.rootLayer j :: ·) hbase⟩
  · exact h j s (actorState?_eq_some.mpr ⟨w, hw, hdetail⟩)

end

section
variable {c : Compilation} {sch : Schematic} {targets : List Target} {g : LinkGraph} {i : NodeId}

theorem Visits.rootChains (hv : Visits (ofTargets c sch targets) g) : g.RootChains := by
  have hstep : Preserved (ofTargets c sch targets)
      (fun i => ((ofTargets c sch targets).arena.parent? i).toList) RootChains :=
    fun hprogress hi _ hvisit h => h.withState (hprogress.size_eq ▸ hi) hvisit
  refine (hv.preserves_ofTargets hstep grounded_ofTargets.supported_parent ?_).2
  intro i s hs
  obtain ⟨w, hw, _⟩ := actorState?_eq_some.mp hs
  rw [state?_ofTargets] at hw
  cases hw

theorem exists_actorAt (hv : Visits (ofTargets c sch targets) g) (hvisited : g.isVisited = true)
    {name : String} (hi : g.actor? name = some i) : ∃ s as, g.ActorAt i s as := by
  obtain ⟨_, hshows⟩ := hv.grounded.root_of_actor hi
  have hkind := hshows.kind_eq
  obtain ⟨v, hstate⟩ :=
    (isVisited_iff.mp hvisited).2 i (hv.progress.size_eq ▸ hshows.lt_size)
  have hcategory := (hv.fitting hstate).1
  rw [Arena.category, hkind] at hcategory
  cases hd : v.detail with
  | actor s => exact ⟨s, v.ancestors, v, hstate, hd, rfl⟩
  | _ => simp [hd, NodeDetail.category, LinkTree.ofTarget, LinkTree.kind, NodeKind.category]
           at hcategory

end

end ActorLinks.LinkGraph
