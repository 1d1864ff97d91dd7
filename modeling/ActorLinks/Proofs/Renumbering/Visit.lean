import ActorLinks.Proofs.Build.Explicit
import ActorLinks.Proofs.Renumbering.Graph

/-! # Renumbered states

Where the ancestors of all actors correspond in order, and the states so far correspond, the next
state does too. So a whole visit of a renumbered graph stores the renumbered states.
-/
namespace ActorLinks

section States
variable (σ : NodeId → NodeId)

def ActorState.renumber (s : ActorState) : ActorState :=
  { s with
    baseActor := s.baseActor.map σ
    additionalRelationships := s.additionalRelationships.mapValues (List.map σ) }

def LinkTypeState.renumber (s : LinkTypeState) : LinkTypeState :=
  { s with implementationBase := s.implementationBase.map σ }

def ExtensionProperty.renumber (p : ExtensionProperty) : ExtensionProperty :=
  { p with target := p.target.map σ, overloadedBase := p.overloadedBase.map σ }

def ExtensionState.renumber (s : ExtensionState) : ExtensionState :=
  { s with properties := s.properties.map (·.renumber σ) }

def Delimiter.renumber (d : Delimiter) : Delimiter :=
  { d with cases := d.cases.map fun c => (c.1, σ c.2) }

def HierarchyState.renumber (s : HierarchyState) : HierarchyState :=
  { s with members := s.members.map σ, delimiters := s.delimiters.map (·.renumber σ) }

def NodeDetail.renumber : NodeDetail → NodeDetail
  | actor s => actor (s.renumber σ)
  | linkType s => linkType (s.renumber σ)
  | extension s => extension (s.renumber σ)
  | hierarchy s => hierarchy (s.renumber σ)
  | backLink s => backLink s

theorem NodeDetail.implementation_renumber (d : NodeDetail) :
    (d.renumber σ).implementation = d.implementation := by
  cases d <;> rfl

/-- The second state is the first one under other ids. -/
structure NodeState.Renumbers (v w : NodeState) : Prop where
  ancestors_eq : w.ancestors = v.ancestors.map σ
  implicitComposition : v.implicitComposition.Renumbers σ w.implicitComposition
  composition : v.composition.Renumbers σ w.composition
  detail_eq : w.detail = v.detail.renumber σ

end States

namespace LinkGraph.Renumbers
variable {σ : NodeId → NodeId} {g g' : LinkGraph} (h : Renumbers σ g g')
include h

theorem classify_eq (i : NodeId) (p : Symbol.Property) :
    g'.classify (σ i) p = (g.classify i p).renumber σ := by
  have hbase : p.explicitInterface.bind g'.templateExtension?
      = (p.explicitInterface.bind g.templateExtension?).map σ := by
    cases p.explicitInterface with
    | none => rfl
    | some name => exact h.templateExtension?_eq name
  simp only [classify, ExtensionProperty.renumber, hbase, h.propertyTarget?_eq, Option.isNone_map]

theorem propertyType_eq (p : ExtensionProperty) (owner : NodeId) (backLink useCore : Bool) :
    g'.propertyType (p.renumber σ) (σ owner) backLink useCore
      = g.propertyType p owner backLink useCore := by
  have htarget : (p.renumber σ).target.filter (fun _ => (p.renumber σ).isLinkMirror)
      = (p.target.filter fun _ => p.isLinkMirror).map σ := by
    show (p.target.map σ).filter (fun _ => p.isLinkMirror) = _
    cases p.target with
    | none => rfl
    | some n => cases p.isLinkMirror <;> rfl
  have hpath := h.arena.relativePathOver_eq (fun n => (g.arena.kind n).isLinkType)
    (fun n => (g'.arena.kind n).isLinkType) (fun n => by rw [h.arena.kind_eq]) owner
  rw [propertyType, propertyType, htarget]
  cases p.target.filter fun _ => p.isLinkMirror with
  | none => rfl
  | some n =>
    simp only [Option.map_some, h.target_eq, h.arena.isTemplate_eq, hpath]
    rfl

theorem listedMembers_eq (t : Target) (cs : List Constant) :
    g'.listedMembers t cs = (g.listedMembers t cs).map (List.map σ) := by
  induction cs with
  | nil => rfl
  | cons c cs ih =>
    rw [listedMembers, listedMembers]
    cases c.type? with
    | none => rfl
    | some name =>
      simp only [ih, h.memberByCore?_eq, Option.toList_map]
      cases g.listedMembers t cs with
      | error e => rfl
      | ok ms => simp [Except.map]

theorem membersOf_eq (t : Target) (v : Option Constant) :
    g'.membersOf t v = (g.membersOf t v).map (List.map σ) := by
  unfold membersOf
  split
  · exact congrArg Except.ok (h.specializingMembers_eq t)
  · exact congrArg Except.ok (h.specializingMembers_eq t)
  · simp only [h.memberByCore?_eq, Option.toList_map]
    rfl
  · exact h.listedMembers_eq t _
  · rfl

theorem hierarchyMembers_ok {i : NodeId} {members : List NodeId}
    (hmembers : g.hierarchyMembers i = .ok members) :
    g'.hierarchyMembers (σ i) = .ok (members.map σ) := by
  rw [hierarchyMembers] at hmembers ⊢
  rw [h.arena.kind_eq, h.target_eq]
  split at hmembers
  · rw [h.membersOf_eq, hmembers]
    rfl
  · cases hmembers

theorem fieldMember?_eq (members : List NodeId) (f : Symbol.Field) :
    g'.fieldMember? (members.map σ) f = (g.fieldMember? members f).map σ := by
  unfold fieldMember?
  split
  · simp only [List.find?_map, Function.comp_def, h.target_eq]
  · rfl

theorem delimiter?_eq (members : List NodeId) (p : Symbol.Property) :
    g'.delimiter? (members.map σ) p = (g.delimiter? members p).map (·.renumber σ) := by
  rw [delimiter?, delimiter?, h.compilation_eq]
  cases g.compilation.type? p.typeName with
  | none => rfl
  | some enum =>
    have hcases : (enum.fields.filterMap fun f =>
          (g'.fieldMember? (members.map σ) f).map fun m => (enum.name ++ "." ++ f.name, m))
        = (enum.fields.filterMap fun f =>
          (g.fieldMember? members f).map fun m => (enum.name ++ "." ++ f.name, m)).map
            fun c => (c.1, σ c.2) := by
      simp only [h.fieldMember?_eq, List.map_filterMap, Option.map_map, Function.comp_def]
    simp only [hcases, List.isEmpty_map]
    split
    · rfl
    · split <;> rfl

theorem delimiters_eq (i : NodeId) (members : List NodeId) :
    g'.delimiters (σ i) (members.map σ) = (g.delimiters i members).map (·.renumber σ) := by
  simp only [delimiters, entityTypes, h.compilation_eq, h.target_eq, List.map_filterMap,
    h.delimiter?_eq]

theorem backLinkParent_ok {i p : NodeId} (hp : g.backLinkParent i = .ok p) :
    g'.backLinkParent (σ i) = .ok (σ p) := by
  rw [backLinkParent] at hp ⊢
  rw [h.arena.parent_eq]
  split at hp
  · next hparent =>
    cases hp
    rw [hparent]
    rfl
  · cases hp

end LinkGraph.Renumbers

/-- The trees, the ancestors of the actors, and the states of `g'` are those of `g` under other
ids. -/
structure LinkGraph.Matches (σ : NodeId → NodeId) (g g' : LinkGraph) : Prop
    extends LinkGraph.Renumbers σ g g' where
  ancestors_eq : ∀ i < g.arena.size, g'.ancestors (σ i) = (g.ancestors i).map σ
  states : ∀ i, Option.Rel (NodeState.Renumbers σ) (g.state? i) (g'.state? (σ i))

namespace LinkGraph.Matches
variable {σ : NodeId → NodeId} {g g' : LinkGraph} (h : Matches σ g g')
include h

section Details

theorem state_of_some {i : NodeId} {v : NodeState} (hv : g.state? i = some v) :
    ∃ w, g'.state? (σ i) = some w ∧ v.Renumbers σ w := by
  have hrel := h.states i
  rw [hv] at hrel
  cases hw : g'.state? (σ i) with
  | none =>
    rw [hw] at hrel
    cases hrel
  | some w =>
    rw [hw] at hrel
    cases hrel with
    | some hvw => exact ⟨w, rfl, hvw⟩

theorem state_of_none {i : NodeId} (hv : g.state? i = none) : g'.state? (σ i) = none := by
  have hrel := h.states i
  rw [hv] at hrel
  cases hw : g'.state? (σ i) with
  | none => rfl
  | some w =>
    rw [hw] at hrel
    cases hrel

theorem detail?_eq (i : NodeId) : g'.detail? (σ i) = (g.detail? i).map (·.renumber σ) := by
  cases hv : g.state? i with
  | none =>
    rw [detail?, detail?, hv, h.state_of_none hv]
    rfl
  | some v =>
    obtain ⟨w, hw, hvw⟩ := h.state_of_some hv
    rw [detail?, detail?, hv, hw, Option.map_some, Option.map_some, Option.map_some,
      hvw.detail_eq]

theorem actorState?_eq (i : NodeId) :
    g'.actorState? (σ i) = (g.actorState? i).map (·.renumber σ) := by
  rw [actorState?, actorState?, h.detail?_eq]
  rcases g.detail? i with _ | _ | _ | _ | _ | _ <;> rfl

theorem linkTypeState?_eq (i : NodeId) :
    g'.linkTypeState? (σ i) = (g.linkTypeState? i).map (·.renumber σ) := by
  rw [linkTypeState?, linkTypeState?, h.detail?_eq]
  rcases g.detail? i with _ | _ | _ | _ | _ | _ <;> rfl

theorem extensionState?_eq (i : NodeId) :
    g'.extensionState? (σ i) = (g.extensionState? i).map (·.renumber σ) := by
  rw [extensionState?, extensionState?, h.detail?_eq]
  rcases g.detail? i with _ | _ | _ | _ | _ | _ <;> rfl

theorem hierarchyState?_eq (i : NodeId) :
    g'.hierarchyState? (σ i) = (g.hierarchyState? i).map (·.renumber σ) := by
  rw [hierarchyState?, hierarchyState?, h.detail?_eq]
  rcases g.detail? i with _ | _ | _ | _ | _ | _ <;> rfl

theorem backLinkState?_eq (i : NodeId) : g'.backLinkState? (σ i) = g.backLinkState? i := by
  rw [backLinkState?, backLinkState?, h.detail?_eq]
  rcases g.detail? i with _ | _ | _ | _ | _ | _ <;> rfl

theorem parentConstructors_eq (i : NodeId) :
    g'.parentConstructors (σ i) = g.parentConstructors i := by
  have hbind : (g'.arena.implementedParent? (σ i)).bind g'.detail?
      = ((g.arena.implementedParent? i).bind g.detail?).map (·.renumber σ) := by
    rw [h.arena.implementedParent?_eq]
    cases g.arena.implementedParent? i with
    | none => rfl
    | some p => exact h.detail?_eq p
  rw [parentConstructors, parentConstructors, hbind]
  cases (g.arena.implementedParent? i).bind g.detail? with
  | none => rfl
  | some d => exact congrArg Implementation.constructors (d.implementation_renumber σ)

end Details

section Actors

theorem ancestorsOfRoot_eq {i : NodeId} (hi : i < g.arena.size) :
    g'.ancestorsOfRoot (σ i) = (g.ancestorsOfRoot i).map σ := by
  rw [ancestorsOfRoot, ancestorsOfRoot, h.actorRoot?_eq]
  cases hroot : g.actorRoot? i with
  | none => rfl
  | some root =>
    refine h.ancestors_eq root ?_
    rw [actorRoot?] at hroot
    split at hroot
    · cases hroot
      exact hi
    · exact Arena.lt_size_of_mem_parents (List.mem_of_find?_eq_some hroot)

theorem derivedRelationshipName_eq {i : NodeId} (hi : i < g.arena.size) :
    g'.derivedRelationshipName (σ i) = g.derivedRelationshipName i := by
  simp only [derivedRelationshipName, h.userRelationshipName?_eq, h.ancestors_eq i hi,
    List.findSome?_map, Function.comp_def, h.actorSymbol?_eq, h.target_eq]

theorem relationshipName_eq {i : NodeId} (hi : i < g.arena.size) :
    g'.relationshipName (σ i) = g.relationshipName i := by
  rw [relationshipName, relationshipName, h.actorState?_eq, h.derivedRelationshipName_eq hi]
  cases g.actorState? i <;> rfl

theorem addRelated_eq (found : Dict (List NodeId)) (name : String) (n : NodeId) :
    addRelated (found.mapValues (List.map σ)) name (σ n)
      = (addRelated found name n).mapValues (List.map σ) := by
  have hnodes : ((found.mapValues (List.map σ)).get? name).getD []
      = ((found.get? name).getD []).map σ := by
    rw [Dict.get?_mapValues]
    cases found.get? name <;> rfl
  simp only [addRelated, hnodes, List.mem_map_of_injective h.arena.injective]
  split
  · rfl
  · rw [Dict.mapValues_insert, List.map_append, List.map_singleton]

theorem collectRelated_eq (actor : NodeId) (found : Dict (List NodeId))
    (interfaces : List String) :
    g'.collectRelated (σ actor) (found.mapValues (List.map σ)) interfaces
      = (g.collectRelated actor found interfaces).mapValues (List.map σ) := by
  have related {interface : String} {n : NodeId} (hn : g.canonicallyRelated? interface = some n) :
      g'.canonicallyRelated? interface = some (σ n) ∧
        g'.relationshipName (σ n) = g.relationshipName n := by
    refine ⟨by rw [h.canonicallyRelated?_eq, hn, Option.map_some], h.relationshipName_eq ?_⟩
    exact h.lt_of_mem_roots n (mem_roots_of_related hn)
  fun_induction g.collectRelated actor found interfaces with
  | case1 found => rw [collectRelated]
  | case2 found interface rest hrel ih =>
    rw [collectRelated_of_none (by rw [h.canonicallyRelated?_eq, hrel, Option.map_none]), ih]
  | case3 found interface rest hrel ih =>
    rw [collectRelated_of_some (related hrel).1, if_pos rfl, ih]
  | case4 found interface rest n hrel hne hmem ih =>
    obtain ⟨hrel', hname⟩ := related hrel
    rw [collectRelated_of_some hrel', hname, if_neg (h.arena.injective.ne hne),
      Dict.keys_mapValues, if_pos hmem, h.addRelated_eq, ih]
  | case5 found interface rest n hrel hne hmem ih =>
    obtain ⟨hrel', hname⟩ := related hrel
    rw [collectRelated_of_some hrel', hname, if_neg (h.arena.injective.ne hne),
      Dict.keys_mapValues, if_neg hmem, h.interfacesOf_eq, ← ih, Dict.mapValues_insert,
      List.map_singleton]

theorem additionalRelationships_eq (i : NodeId) : g'.additionalRelationships (σ i)
    = (g.additionalRelationships i).mapValues (List.map σ) := by
  rw [additionalRelationships, additionalRelationships, h.compilation_eq, h.target_eq]
  cases g.compilation.type? (g.target i).coreActor with
  | none => rfl
  | some core => exact h.collectRelated_eq i ∅ core.interfaces

theorem baseConstructors_eq (base : Option NodeId) :
    g'.baseConstructors (base.map σ) = g.baseConstructors base := by
  cases base with
  | none => rfl
  | some n =>
    simp only [baseConstructors, Option.map_some, Option.bind_some, h.actorState?_eq]
    cases g.actorState? n <;> rfl

/-- The ancestors of an actor are actors of the graph. -/
theorem lt_of_mem_ancestors {i n : NodeId} (hn : n ∈ g.ancestors i) : n < g.arena.size := by
  obtain ⟨⟨name, _, hactor⟩, _⟩ := mem_ancestors_iff.mp hn
  exact h.lt_of_mem_roots n (mem_roots_iff.mpr ⟨name, hactor⟩)

theorem visitActor_eq {i : NodeId} {ancestors : List NodeId} (hi : i < g.arena.size)
    (hancestors : ∀ n ∈ ancestors, n < g.arena.size) :
    g'.visitActor (σ i) (ancestors.map σ) = (g.visitActor i ancestors).renumber σ := by
  have hnames : (ancestors.any fun n => g'.relationshipName (σ n) == g.derivedRelationshipName i)
      = ancestors.any fun n => g.relationshipName n == g.derivedRelationshipName i := by
    rw [Bool.eq_iff_iff, List.any_eq_true, List.any_eq_true]
    exact exists_congr fun n => and_congr_right fun hn => by
      rw [h.relationshipName_eq (hancestors n hn)]
  simp only [visitActor, ActorState.renumber, h.target_eq, h.derivedRelationshipName_eq hi,
    h.baseTarget?_eq, h.hasChildTarget_eq, h.compilation_eq, h.additionalRelationships_eq,
    List.isEmpty_map, Dict.contains_mapValues, List.any_map, Function.comp_def, hnames,
    Option.isSome_map, h.baseConstructors_eq]

end Actors

section Below

theorem rootActorState?_eq (i : NodeId) :
    g'.rootActorState? (σ i) = (g.rootActorState? i).map (·.renumber σ) := by
  rw [rootActorState?, rootActorState?, h.arena.rootActor?_eq]
  cases g.arena.rootActor? i with
  | none => rfl
  | some root => exact h.actorState?_eq root

theorem implementationBase?_eq (i : NodeId) :
    g'.implementationBase? (σ i) = (g.implementationBase? i).map σ := by
  simp only [implementationBase?, h.rootActorState?_eq]
  cases g.rootActorState? i with
  | none => rfl
  | some s =>
    cases hb : s.baseActor with
    | none => simp [ActorState.renumber, hb]
    | some base =>
      cases hn : g.arena.equivalent? i base with
      | none => simp [ActorState.renumber, hb, h.arena.equivalent?_eq, hn]
      | some n =>
        simp only [Option.map_some, bind, Option.bind, ActorState.renumber, hb,
          h.arena.equivalent?_eq, hn, h.arena.kind_eq, h.arena.isImplemented_eq]
        split <;> rfl

theorem rootConstructors_eq (i : NodeId) : g'.rootConstructors (σ i) = g.rootConstructors i := by
  rw [rootConstructors, rootConstructors, h.rootActorState?_eq]
  cases g.rootActorState? i <;> rfl

theorem visitLinkType_eq (i : NodeId) (ancestors : List NodeId) :
    g'.visitLinkType (σ i) (ancestors.map σ) = (g.visitLinkType i ancestors).renumber σ := by
  simp only [visitLinkType, LinkTypeState.renumber, h.arena.isCore_eq, h.implementationBase?_eq,
    List.isEmpty_map, h.redeclares_eq, h.arena.isImplemented_eq, h.arena.className_eq,
    h.rootConstructors_eq]
  split <;> rfl

theorem visitExtension_ok {i : NodeId} {s : ExtensionState} (hs : g.visitExtension i = .ok s) :
    g'.visitExtension (σ i) = .ok (s.renumber σ) := by
  rw [visitExtension] at hs ⊢
  rw [h.extensionSymbol?_eq]
  cases hsymbol : g.extensionSymbol? i with
  | none =>
    rw [hsymbol] at hs
    cases hs
  | some symbol =>
    rw [hsymbol] at hs
    obtain rfl := Except.ok.inj hs
    have hproperties : symbol.properties.map (g'.classify (σ i))
        = (symbol.properties.map (g.classify i)).map (·.renumber σ) := by
      rw [List.map_map]
      exact List.map_congr_left fun p _ => h.classify_eq i p
    have hown (p : ExtensionProperty) :
        (p.renumber σ).isValid = p.isValid ∧ (p.renumber σ).isOverload = p.isOverload ∧
          (p.renumber σ).name = p.name := ⟨rfl, rfl, rfl⟩
    simp only [ExtensionState.renumber, hproperties, List.filter_map, Function.comp_def, hown,
      List.map_map, h.propertyType_eq, h.arena.backLinkOf?_eq, Option.isSome_map,
      h.arena.isImplemented_eq, h.arena.className_eq, h.parentConstructors_eq]

theorem visitHierarchy_ok {i : NodeId} {s : HierarchyState} (hs : g.visitHierarchy i = .ok s) :
    g'.visitHierarchy (σ i) = .ok (s.renumber σ) := by
  obtain ⟨members, hmembers, rfl⟩ := Failure.map_eq_ok_iff.mp hs
  rw [visitHierarchy, h.hierarchyMembers_ok hmembers]
  simp only [Except.map, HierarchyState.renumber, List.map_map, Function.comp_def,
    h.memberName_eq, h.memberType_eq, h.arena.isTemplate_eq, h.arena.backLinkOf?_eq,
    Option.isSome_map, h.delimiters_eq, h.arena.isImplemented_eq, h.arena.className_eq,
    h.parentConstructors_eq]

theorem hasBackLinkMirror_eq (i : NodeId) :
    g'.hasBackLinkMirror (σ i) = g.hasBackLinkMirror i := by
  rw [hasBackLinkMirror, hasBackLinkMirror, h.extensionState?_eq]
  cases g.extensionState? i with
  | none => rfl
  | some s =>
    show (s.properties.map (·.renumber σ)).any _ = _
    rw [List.any_map]
    rfl

theorem visitBackLink_ok {i : NodeId} {s : BackLinkState} (hs : g.visitBackLink i = .ok s) :
    g'.visitBackLink (σ i) = .ok s := by
  obtain ⟨parent, hparent, rfl⟩ := Failure.map_eq_ok_iff.mp hs
  rw [visitBackLink, h.backLinkParent_ok hparent]
  simp only [Except.map, h.arena.isCore_eq, h.arena.kind_eq, h.hasBackLinkMirror_eq,
    h.arena.isImplemented_eq, h.arena.className_eq, h.parentConstructors_eq]

end Below

section Run

theorem visitAs_ok {i : NodeId} (hi : i < g.arena.size) {category : Category} {d : NodeDetail}
    (hd : g.visitAs category i = .ok d) : g'.visitAs category (σ i) = .ok (d.renumber σ) := by
  unfold visitAs at hd ⊢
  rw [h.ancestorsOfRoot_eq hi]
  cases category with
  | actor =>
    obtain rfl := Except.ok.inj hd
    refine congrArg (Except.ok <| NodeDetail.actor ·) (h.visitActor_eq hi fun n hn => ?_)
    rw [ancestorsOfRoot] at hn
    split at hn
    · exact h.lt_of_mem_ancestors hn
    · cases hn
  | linkType =>
    obtain rfl := Except.ok.inj hd
    exact congrArg (Except.ok <| NodeDetail.linkType ·) (h.visitLinkType_eq i _)
  | extension =>
    obtain ⟨s, hs, rfl⟩ := Failure.map_eq_ok_iff.mp hd
    simp only [h.visitExtension_ok hs, Except.map]
    rfl
  | hierarchy =>
    obtain ⟨s, hs, rfl⟩ := Failure.map_eq_ok_iff.mp hd
    simp only [h.visitHierarchy_ok hs, Except.map]
    rfl
  | backLink =>
    obtain ⟨s, hs, rfl⟩ := Failure.map_eq_ok_iff.mp hd
    simp only [h.visitBackLink_ok hs, Except.map]
    rfl

theorem implicitComposition_renumbers (hg : g.arena.Nested) (hg' : g'.arena.Nested) (i : NodeId) :
    (g.implicitComposition i).Renumbers σ (g'.implicitComposition (σ i)) := by
  rw [implicitComposition, implicitComposition, h.arena.kind_eq]
  split
  · exact .empty
  · exact h.arena.composition_renumbers hg hg' i

theorem parentComposition_renumbers (i : NodeId) :
    (g.parentComposition i).Renumbers σ (g'.parentComposition (σ i)) := by
  rw [parentComposition, parentComposition, h.arena.parent_eq]
  cases g.arena.parent? i with
  | none => exact .empty
  | some p =>
    rw [Option.map_some, Option.bind_some, Option.bind_some]
    cases hv : g.state? p with
    | none =>
      rw [h.state_of_none hv]
      exact .empty
    | some v =>
      obtain ⟨w, hw, hvw⟩ := h.state_of_some hv
      rw [hw]
      exact hvw.implicitComposition

theorem visitNode_ok (hg : g.arena.Nested) (hg' : g'.arena.Nested) {i : NodeId}
    (hi : i < g.arena.size) {v : NodeState} (hv : g.visitNode i = .ok v) :
    ∃ w, g'.visitNode (σ i) = .ok w ∧ v.Renumbers σ w := by
  obtain ⟨d, hd, rfl⟩ := Failure.map_eq_ok_iff.mp hv
  rw [visitNode, h.arena.category_eq, h.visitAs_ok hi hd]
  have himplicit := h.implicitComposition_renumbers hg hg' i
  exact ⟨_, rfl, h.ancestorsOfRoot_eq hi, himplicit,
    himplicit.diff (h.parentComposition_renumbers i) h.arena.injective, rfl⟩

/-- One more state on both sides. -/
theorem withState {i : NodeId} {v w : NodeState} (hi : i < g.states.size)
    (hi' : σ i < g'.states.size) (hvw : v.Renumbers σ w) :
    Matches σ (g.withState i v) (g'.withState (σ i) w) where
  arena := h.arena
  compilation_eq := h.compilation_eq
  actors_eq := h.actors_eq
  lt_of_mem_roots := h.lt_of_mem_roots
  ancestors_eq := h.ancestors_eq
  states j := by
    rw [state?_withState hi, state?_withState hi']
    by_cases hj : j = i
    · rw [if_pos hj, if_pos (congrArg σ hj)]
      exact .some hvw
    · rw [if_neg hj, if_neg (h.arena.injective.ne hj)]
      exact h.states j

/-- Where no state fails to be made, those on the other side do not fail either. -/
theorem visitNodes_ok (hg : g.arena.Nested) (hg' : g'.arena.Nested)
    (hsize : g.states.size = g.arena.size) (hsize' : g'.states.size = g'.arena.size)
    {ids : List NodeId} (hids : ∀ i ∈ ids, i < g.arena.size) (hok : (g.visitNodes ids).2 = none) :
    Matches σ (g.visitNodes ids).1 (g'.visitNodes (ids.map σ)).1 := by
  induction ids generalizing g g' with
  | nil => exact h
  | cons i ids ih =>
    have hi := hids i List.mem_cons_self
    rw [visitNodes] at hok
    cases hv : g.visitNode i with
    | error e =>
      rw [hv] at hok
      cases hok
    | ok v =>
      rw [hv] at hok
      obtain ⟨w, hw, hvw⟩ := h.visitNode_ok hg hg' hi hv
      have hnext := h.withState (hsize ▸ hi) (hsize' ▸ h.arena.lt_size i hi) hvw
      rw [List.map_cons, visitNodes, visitNodes, hv, hw]
      refine ih hnext hg hg' ?_ ?_ (fun j hj => hids j (List.mem_cons_of_mem _ hj)) hok
      · simpa [LinkGraph.withState] using hsize
      · simpa [LinkGraph.withState] using hsize'

end Run

end LinkGraph.Matches

end ActorLinks
