import ActorLinks.Proofs.Build.Total
import ActorLinks.Proofs.Composition.Bases
import ActorLinks.Proofs.Reach
import ActorLinks.Proofs.Renumbering.Visit

/-! # Renumbered parts

What a node below an actor contributes does not depend on its id. Composed nodes are either put in
the order of ids inside one tree, or only the texts made from them are, so that the order of the
ids does not matter.
-/
namespace ActorLinks.LinkGraph

/-- A property together with the extension that defines it, under other ids. -/
def renumberOwned (σ : NodeId → NodeId) (e : NodeId × ExtensionProperty) :
    NodeId × ExtensionProperty := (σ e.1, e.2.renumber σ)

/-- The extensions that a visited node inherits properties from. -/
def implicitExtensions (g : LinkGraph) (i : NodeId) : List NodeId :=
  (g.state? i).elim [] fun v => v.implicitComposition.toList.filter g.isExtensionNode

/-- The properties that an extension defines for those that inherit from it. -/
def definitions (g : LinkGraph) (n : NodeId) : List (NodeId × ExtensionProperty) :=
  (g.extensionState? n).elim [] fun s =>
    (s.properties.filter fun p => p.isDefinedOnPath (g.arena.isTemplate n)).map fun p => (n, p)

theorem inheritedProperties_eq_foldl (g : LinkGraph) (i : NodeId) : g.inheritedProperties i
    = ((g.implicitExtensions i).flatMap g.definitions).foldl
      (fun d e => d.append e.2.name e) ∅ := by
  unfold inheritedProperties implicitExtensions
  refine congrArg (List.foldl _ ∅) ?_
  cases g.state? i with
  | none => rfl
  | some v =>
    refine List.flatMap_congr fun n _ => ?_
    rw [definitions]
    cases g.extensionState? n <;> rfl

theorem mem_inheritedBackLinks_iff {g : LinkGraph} {i n : NodeId} :
    n ∈ g.inheritedBackLinks i ↔ ((n ∈ g.ownComposition i ∧ (g.arena.kind n).isBackLink = true) ∨
      ∃ p, g.arena.parent? i = some p ∧ ∃ m ∈ g.ownComposition p,
        g.arena.backLinkOf? m = some n) ∧ n ≠ i := by
  rw [inheritedBackLinks, SortedSet.mem_filter, SortedSet.mem_ofList, List.mem_append,
    decide_eq_true_eq]
  refine and_congr_left fun _ => or_congr ?_ ?_
  · unfold ownComposition
    cases g.state? i with
    | none => simp
    | some v => exact List.mem_filter
  · unfold ownComposition
    cases g.arena.parent? i with
    | none => simp
    | some p => cases hv : g.state? p <;> simp [hv]

namespace Renumbers
variable {σ : NodeId → NodeId} {g g' : LinkGraph} (h : Renumbers σ g g')
include h

section Classes

theorem implementationClass_eq (i : NodeId) (first : Option String) :
    g'.implementationClass (σ i) first = g.implementationClass i first := by
  simp only [implementationClass, h.arena.implementationType_eq, h.arena.fullPath_eq,
    h.arena.generics_eq]

theorem implementedParentType?_eq (i : NodeId) :
    g'.implementedParentType? (σ i) = g.implementedParentType? i := by
  simp only [implementedParentType?, h.arena.implementedParent?_eq, Option.map_map,
    Function.comp_def, h.target_eq, h.arena.implementationType_eq]

theorem createMethod_eq (i : NodeId) (s : Implementation) (modifiers : List Modifier) :
    g'.createMethod (σ i) s modifiers = g.createMethod i s modifiers := by
  simp only [createMethod, h.arena.fullPath_eq, h.target_eq, h.arena.implementationType_eq]

theorem withImplementation_eq (i : NodeId) (decl implementing : TypeDecl)
    (create : Decl.Method) : g'.withImplementation (σ i) decl implementing create
      = g.withImplementation i decl implementing create := by
  simp only [withImplementation, h.arena.isImplemented_eq, h.arena.rootActor?_eq,
    Option.isSome_map]

end Classes

section LinkTypes

theorem ancestorPath_eq (i ancestor : NodeId) :
    g'.ancestorPath (σ i) (σ ancestor) = g.ancestorPath i ancestor := by
  simp only [ancestorPath, h.target_eq, h.arena.relativePath_eq, h.arena.typeName_eq]

theorem equivalentAncestors_eq (i : NodeId) (ancestors : List NodeId) :
    g'.equivalentAncestors (σ i) (ancestors.map σ)
      = (g.equivalentAncestors i ancestors).map σ := by
  simp only [equivalentAncestors, List.filter_map, Function.comp_def, h.arena.equivalent?_eq,
    Option.isSome_map]

theorem linkTypeMembers_eq (i : NodeId) (k : LinkKind) (e : Schematic.Entry) (redefines : Bool)
    (ancestors : List NodeId) : g'.linkTypeMembers (σ i) k e redefines (ancestors.map σ)
      = g.linkTypeMembers i k e redefines ancestors := by
  have hforwarded : g'.forwarded (σ i) e (ancestors.map σ) = g.forwarded i e ancestors := by
    simp only [forwarded, h.target_eq, h.equivalentAncestors_eq, List.map_map, Function.comp_def,
      h.ancestorPath_eq]
  simp only [linkTypeMembers, hforwarded, indexableMembers, h.target_eq, h.arena.relativePath_eq,
    h.arena.typeName_eq]

theorem linkTypeBases_eq (i : NodeId) {v w : NodeState} (hvw : v.Renumbers σ w) :
    g'.linkTypeBases (σ i) w = g.linkTypeBases i v := by
  have hcomposition : w.composition.toList = v.composition.toList.map σ := hvw.composition
  simp only [linkTypeBases, h.target_eq, h.arena.relativePath_eq, h.arena.typeName_eq,
    h.arena.isTemplate_eq, hcomposition, List.filter_map, Function.comp_def, h.arena.kind_eq,
    List.map_map, h.arena.fullPath_eq, hvw.ancestors_eq, h.equivalentAncestors_eq,
    h.ancestorPath_eq]

theorem linkTypeFirstBase_eq (i : NodeId) (s : LinkTypeState) :
    g'.linkTypeFirstBase (σ i) (s.renumber σ) = g.linkTypeFirstBase i s := by
  unfold linkTypeFirstBase LinkTypeState.renumber
  cases s.implementationBase with
  | some base => simp only [Option.map_some, h.target_eq, h.arena.implementationType_eq]
  | none =>
    simp only [Option.map_none, h.arena.rootActor?_eq]
    cases g.arena.rootActor? i with
    | none => exact congrArg (·.actor ++ ".__LinkBase") (h.target_eq i)
    | some root => exact congrArg (·.actor ++ ".__LinkBase") (h.target_eq root)

end LinkTypes

section Extensions

theorem explicitProperty_eq (n : NodeId) (p : ExtensionProperty) :
    g'.explicitProperty (σ n) (p.renumber σ) = g.explicitProperty n p := by
  simp only [explicitProperty, h.propertyType_eq, h.arena.fullPath_eq]
  rfl

theorem corePath_eq (i : NodeId) : g'.corePath (σ i) = g.corePath i := by
  simp only [corePath, h.target_eq, h.arena.relativePath_eq, h.arena.typeName_eq]

theorem declaredProperty_eq (i : NodeId) (p : ExtensionProperty)
    (existing : Option (List (NodeId × ExtensionProperty))) :
    g'.declaredProperty (σ i) (p.renumber σ) (existing.map (List.map (renumberOwned σ)))
      = g.declaredProperty i p existing := by
  have hexisting : ((existing.map (List.map (renumberOwned σ))).getD []).map
        (fun e => (g'.explicitProperty e.1 e.2 : Member))
      = (existing.getD []).map fun e => (g.explicitProperty e.1 e.2 : Member) := by
    cases existing with
    | none => rfl
    | some es =>
      simp only [Option.map_some, Option.getD_some, List.map_map, Function.comp_def,
        renumberOwned, h.explicitProperty_eq]
  simp only [declaredProperty, hexisting, h.arena.isCore_eq, Option.isSome_map,
    h.propertyType_eq, h.corePath_eq]
  rfl

theorem extensionMembers_eq (i : NodeId) (s : ExtensionState)
    (inherited : Dict (List (NodeId × ExtensionProperty))) :
    g'.extensionMembers (σ i) (s.renumber σ) (inherited.mapValues (List.map (renumberOwned σ)))
      = g.extensionMembers i s inherited := by
  simp only [extensionMembers, ExtensionState.renumber, List.flatMap_map, Dict.get?_mapValues,
    h.arena.isTemplate_eq, h.declaredProperty_eq]
  rfl

theorem extensionBases_eq (i : NodeId) (symbol : TypeSymbol) {v w : NodeState}
    (hvw : v.Renumbers σ w) (s : ExtensionState) :
    g'.extensionBases (σ i) symbol w (s.renumber σ) = g.extensionBases i symbol v s := by
  have hcomposition : w.composition.toList = v.composition.toList.map σ := hvw.composition
  have hcomposed (n : NodeId) :
      g'.composedExtensionBases (σ i) (σ n) = g.composedExtensionBases i n := by
    simp only [composedExtensionBases, h.arena.fullPath_eq, h.arena.isCore_eq, h.target_eq,
      h.arena.relativePath_eq, h.arena.typeName_eq]
  have hextended : g'.extendedBases symbol (s.renumber σ) = (g.extendedBases symbol s).map σ := by
    simp only [extendedBases, ExtensionState.renumber, List.filterMap_map, List.map_append,
      List.map_filterMap, Function.comp_def, ← h.templateExtension?_eq]
    rfl
  simp only [extensionBases, h.arena.isCore_eq, h.corePath_eq, h.arena.isTemplate_eq,
    h.arena.path_eq, hcomposition, List.filter_map, Function.comp_def, isExtensionNode,
    h.arena.kind_eq, List.flatMap_map, hcomposed, hextended, List.map_map, h.arena.fullPath_eq]
  rfl

theorem nearestDefinition_eq (i : NodeId) (p : ExtensionProperty)
    (inherited : Dict (List (NodeId × ExtensionProperty))) :
    g'.nearestDefinition (σ i) (p.renumber σ) (inherited.mapValues (List.map (renumberOwned σ)))
      = (g.nearestDefinition i p inherited).map (renumberOwned σ) := by
  have hhead (es : Option (List (NodeId × ExtensionProperty))) :
      (es.map (List.map (renumberOwned σ))).bind List.head?
        = (es.bind List.head?).map (renumberOwned σ) := by
    cases es with
    | none => rfl
    | some es => exact List.head?_map
  have hdefined : (p.renumber σ).isDefinedOnPath (g'.arena.isTemplate (σ i))
      = p.isDefinedOnPath (g.arena.isTemplate i) := by
    rw [h.arena.isTemplate_eq]
    rfl
  rw [nearestDefinition, nearestDefinition, hdefined, Dict.get?_mapValues, hhead]
  split <;> rfl

theorem extensionClass_eq (i : NodeId) (s : ExtensionState)
    (inherited : Dict (List (NodeId × ExtensionProperty))) :
    g'.extensionClass (σ i) (s.renumber σ) (inherited.mapValues (List.map (renumberOwned σ)))
      = g.extensionClass i s inherited := by
  have hown : ownProperties (s.renumber σ) = (ownProperties s).map (·.renumber σ) := by
    simp only [ownProperties, ExtensionState.renumber, List.filter_map, Function.comp_def]
    rfl
  have hanswers : ((ownProperties (s.renumber σ)).filterMap fun p =>
        (g'.nearestDefinition (σ i) p (inherited.mapValues (List.map (renumberOwned σ)))).map
          fun e => (g'.explicitProperty e.1 e.2 : Member))
      = (ownProperties s).filterMap fun p =>
        (g.nearestDefinition i p inherited).map fun e => (g.explicitProperty e.1 e.2 : Member) := by
    simp only [hown, List.filterMap_map, Function.comp_def, h.nearestDefinition_eq,
      Option.map_map, renumberOwned, h.explicitProperty_eq]
  simp only [extensionClass, h.implementationClass_eq, h.implementedParentType?_eq, hanswers]
  rfl

end Extensions

section Hierarchies

theorem coreHierarchy_eq (i : NodeId) : g'.coreHierarchy (σ i) = g.coreHierarchy i := by
  simp only [coreHierarchy, h.target_eq, h.arena.relativePath_eq]

theorem ownerType_eq (i : NodeId) : g'.ownerType (σ i) = g.ownerType i := by
  simp only [ownerType, h.arena.isTemplate_eq, h.target_eq, h.arena.relativePath_eq]

theorem memberProperties_eq (i m : NodeId) :
    g'.memberProperties (σ i) (σ m) = g.memberProperties i m := by
  simp only [memberProperties, h.arena.isCore_eq, h.memberName_eq, h.arena.isTemplate_eq,
    h.memberType_eq, h.coreHierarchy_eq]

theorem hierarchyBases_eq (i : NodeId) (relatives : List NodeId) :
    g'.hierarchyBases (σ i) (relatives.map σ) = g.hierarchyBases i relatives := by
  simp only [hierarchyBases, h.arena.isCore_eq, h.coreHierarchy_eq, h.arena.isTemplate_eq,
    h.target_eq, List.map_map, Function.comp_def, h.arena.fullPath_eq]

theorem hierarchyClass_eq (i : NodeId) (s : HierarchyState) :
    g'.hierarchyClass (σ i) (s.renumber σ) = g.hierarchyClass i s := by
  simp only [hierarchyClass, h.arena.fullPath_eq, h.implementationClass_eq,
    h.implementedParentType?_eq]
  rfl

end Hierarchies

section BackLinks

theorem equivalents_eq (i : NodeId) (ancestors : List NodeId) :
    g'.equivalents (σ i) (ancestors.map σ) = (g.equivalents i ancestors).map σ := by
  simp only [equivalents, List.filterMap_map, List.map_filterMap, Function.comp_def,
    h.arena.equivalent?_eq]

theorem redeclaredExtensionProperty_eq (parent : NodeId) (p : ExtensionProperty) :
    g'.redeclaredExtensionProperty (σ parent) (p.renumber σ)
      = g.redeclaredExtensionProperty parent p := by
  have hfields : (p.renumber σ).isBackLinkMirror = p.isBackLinkMirror ∧
      (p.renumber σ).target.isNone = p.target.isNone ∧ (p.renumber σ).name = p.name ∧
      ∀ isTemplate, (p.renumber σ).isDefinedOnPath isTemplate = p.isDefinedOnPath isTemplate :=
    ⟨rfl, Option.isNone_map, rfl, fun _ => rfl⟩
  simp only [redeclaredExtensionProperty, hfields, h.propertyType_eq, h.arena.isTemplate_eq,
    h.arena.fullPath_eq]

theorem redeclaredHierarchyMember_eq (parent m : NodeId) :
    g'.redeclaredHierarchyMember (σ parent) (σ m) = g.redeclaredHierarchyMember parent m := by
  simp only [redeclaredHierarchyMember, h.memberName_eq, h.target_eq, h.arena.isTemplate_eq,
    h.arena.relativePath_eq, h.memberType_eq, h.arena.fullPath_eq]

theorem backLinkClass_eq (i : NodeId) (s : BackLinkState) :
    g'.backLinkClass (σ i) s = g.backLinkClass i s := by
  simp only [backLinkClass, h.target_eq, h.arena.path_eq]

theorem backLinkImplementation_eq (i : NodeId) (s : BackLinkState) :
    g'.backLinkImplementation (σ i) s = g.backLinkImplementation i s := by
  simp only [backLinkImplementation, h.implementationClass_eq, h.implementedParentType?_eq,
    h.arena.fullPath_eq]

end BackLinks

end Renumbers

namespace Matches
variable {σ : NodeId → NodeId} {g g' : LinkGraph} (h : Matches σ g g')
include h

theorem expectState_ok {i : NodeId} {v : NodeState} (hv : g.expectState i = .ok v) :
    ∃ w, g'.expectState (σ i) = .ok w ∧ v.Renumbers σ w := by
  rw [expectState] at hv
  cases hs : g.state? i with
  | none =>
    rw [hs] at hv
    cases hv
  | some u =>
    rw [hs] at hv
    obtain rfl := Except.ok.inj hv
    obtain ⟨w, hw, hvw⟩ := h.state_of_some hs
    exact ⟨w, by rw [expectState, hw], hvw⟩

section Composed

theorem ownComposition_eq (i : NodeId) : g'.ownComposition (σ i) = (g.ownComposition i).map σ := by
  rw [ownComposition, ownComposition]
  cases hv : g.state? i with
  | none =>
    rw [h.state_of_none hv]
    rfl
  | some v =>
    obtain ⟨w, hw, hvw⟩ := h.state_of_some hv
    rw [hw]
    exact hvw.composition

theorem definitions_eq (n : NodeId) :
    g'.definitions (σ n) = (g.definitions n).map (renumberOwned σ) := by
  rw [definitions, definitions, h.extensionState?_eq, h.arena.isTemplate_eq]
  cases g.extensionState? n with
  | none => rfl
  | some s =>
    simp only [Option.map_some, Option.elim_some, ExtensionState.renumber, List.filter_map,
      List.map_map]
    rfl

/-- The extensions that define something stand in one tree, so they come in the same order. -/
theorem inheritedProperties_eq (i : NodeId) : g'.inheritedProperties (σ i)
    = (g.inheritedProperties i).mapValues (List.map (renumberOwned σ)) := by
  have hnodes : g'.implicitExtensions (σ i) = (g.implicitExtensions i).map σ := by
    rw [implicitExtensions, implicitExtensions]
    cases hv : g.state? i with
    | none =>
      rw [h.state_of_none hv]
      rfl
    | some v =>
      obtain ⟨w, hw, hvw⟩ := h.state_of_some hv
      have himplicit : w.implicitComposition.toList = v.implicitComposition.toList.map σ :=
        hvw.implicitComposition
      simp only [hw, Option.elim_some, himplicit, List.filter_map, Function.comp_def,
        isExtensionNode, h.arena.kind_eq]
      rfl
  rw [inheritedProperties_eq_foldl, inheritedProperties_eq_foldl, hnodes]
  simp only [List.flatMap_map, h.definitions_eq]
  rw [← List.map_flatMap]
  exact Dict.mapValues_foldl_append (fun _ => rfl) ∅ _

theorem composedMembers_eq (n : NodeId) : g'.composedMembers (σ n) = g.composedMembers n := by
  rw [composedMembers, composedMembers, h.hierarchyState?_eq]
  cases g.hierarchyState? n with
  | none => rfl
  | some s =>
    simp only [Option.map_some, HierarchyState.renumber, List.map_map, Function.comp_def,
      h.memberType_eq, h.arena.fullPath_eq, h.memberName_eq]

theorem delimits_eq (enumType : String) (n : NodeId) :
    g'.delimits enumType (σ n) = g.delimits enumType n := by
  rw [delimits, delimits, h.hierarchyState?_eq]
  cases g.hierarchyState? n with
  | none => rfl
  | some s =>
    simp only [Option.map_some, HierarchyState.renumber, List.any_map, Function.comp_def,
      Delimiter.renumber]

theorem delimiterMethods_eq (i : NodeId) (relatives : List NodeId) (d : Delimiter) :
    g'.delimiterMethods (σ i) (relatives.map σ) (d.renumber σ)
      = g.delimiterMethods i relatives d := by
  have hrelatives : (relatives.map σ).filter (g'.delimits d.enumType)
      = (relatives.filter (g.delimits d.enumType)).map σ := by
    rw [List.filter_map]
    exact congrArg (List.map σ) (List.filter_congr fun n _ => h.delimits_eq d.enumType n)
  simp only [delimiterMethods, hrelatives, Delimiter.renumber, List.map_map, Function.comp_def,
    h.memberName_eq, h.arena.isCore_eq, List.isEmpty_map, h.ownerType_eq, h.arena.fullPath_eq]

end Composed

section BackLinks

/-- The same back links are inherited, in whatever order. -/
theorem mem_inheritedBackLinks_iff (i n : NodeId) :
    n ∈ g'.inheritedBackLinks (σ i) ↔ ∃ m ∈ g.inheritedBackLinks i, σ m = n := by
  simp only [LinkGraph.mem_inheritedBackLinks_iff, h.ownComposition_eq, h.arena.parent_eq,
    List.mem_map, Option.map_eq_some_iff]
  constructor
  · rintro ⟨⟨⟨m, hm, rfl⟩, hk⟩ | ⟨_, ⟨p, hp, rfl⟩, _, hmem, hn⟩, hne⟩
    · rw [h.arena.kind_eq] at hk
      exact ⟨m, ⟨Or.inl ⟨hm, hk⟩, fun he => hne (he ▸ rfl)⟩, rfl⟩
    · rw [h.ownComposition_eq, List.mem_map] at hmem
      obtain ⟨k, hk, rfl⟩ := hmem
      rw [h.arena.backLinkOf?_eq, Option.map_eq_some_iff] at hn
      obtain ⟨m, hm, rfl⟩ := hn
      exact ⟨m, ⟨Or.inr ⟨p, hp, k, hk, hm⟩, fun he => hne (he ▸ rfl)⟩, rfl⟩
  · rintro ⟨m, ⟨⟨hm, hk⟩ | ⟨p, hp, k, hk, hm⟩, hne⟩, rfl⟩
    · refine ⟨Or.inl ⟨⟨m, hm, rfl⟩, ?_⟩, h.arena.injective.ne hne⟩
      rwa [h.arena.kind_eq]
    · refine ⟨Or.inr ⟨σ p, ⟨p, hp, rfl⟩, σ k, ?_, ?_⟩, h.arena.injective.ne hne⟩
      · rw [h.ownComposition_eq]
        exact List.mem_map_of_mem hk
      · rw [h.arena.backLinkOf?_eq, hm, Option.map_some]

/-- So are the back links that are inherited over any number of steps. -/
theorem reflTransGen_iff (i n : NodeId) :
    Relation.ReflTransGen (Next fun m => (g'.inheritedBackLinks m).toList) (σ i) n ↔
      ∃ m, Relation.ReflTransGen (Next fun m => (g.inheritedBackLinks m).toList) i m ∧
        σ m = n := by
  constructor
  · intro hreach
    induction hreach with
    | refl => exact ⟨i, .refl, rfl⟩
    | tail _ hstep ih =>
      obtain ⟨m, hm, rfl⟩ := ih
      obtain ⟨k, hk, rfl⟩ := (h.mem_inheritedBackLinks_iff m _).mp hstep
      exact ⟨k, hm.tail hk, rfl⟩
  · rintro ⟨m, hreach, rfl⟩
    exact hreach.lift σ fun m k hk => (h.mem_inheritedBackLinks_iff m _).mpr ⟨k, hk, rfl⟩

theorem changesSource_eq (i : NodeId) : g'.changesSource (σ i) = g.changesSource i := by
  rw [changesSource, changesSource, h.arena.isCore_eq]
  cases hv : g.state? i with
  | none => rw [h.state_of_none hv]
  | some v =>
    obtain ⟨w, hw, hvw⟩ := h.state_of_some hv
    have hredeclares : g'.redeclares (σ i) w.ancestors = g.redeclares i v.ancestors := by
      rw [hvw.ancestors_eq, h.redeclares_eq]
    rw [hw]
    exact congrArg (!g.arena.isCore i || ·) hredeclares

theorem redefinesSource_eq (i : NodeId) : g'.redefinesSource (σ i) = g.redefinesSource i := by
  rw [Bool.eq_iff_iff, redefinesSource, redefinesSource, seek_iff, seek_iff]
  simp only [List.mem_singleton, exists_eq_left, h.reflTransGen_iff]
  constructor
  · rintro ⟨_, ⟨m, hreach, rfl⟩, hm⟩
    exact ⟨m, hreach, by rwa [h.changesSource_eq] at hm⟩
  · rintro ⟨m, hreach, hm⟩
    exact ⟨σ m, ⟨m, hreach, rfl⟩, by rwa [h.changesSource_eq]⟩

theorem redeclaredMembers_eq (parent : NodeId) :
    g'.redeclaredMembers (σ parent) = g.redeclaredMembers parent := by
  unfold redeclaredMembers
  rw [h.arena.kind_eq]
  split
  · rw [h.extensionState?_eq]
    cases g.extensionState? parent with
    | none => rfl
    | some s =>
      have hown : ownProperties (s.renumber σ) = (ownProperties s).map (·.renumber σ) := by
        simp only [ownProperties, ExtensionState.renumber, List.filter_map, Function.comp_def]
        rfl
      simp only [Option.map_some, hown, List.flatMap_map, h.redeclaredExtensionProperty_eq]
  · rw [h.hierarchyState?_eq]
    cases g.hierarchyState? parent with
    | none => rfl
    | some s =>
      simp only [Option.map_some, HierarchyState.renumber, List.flatMap_map,
        h.redeclaredHierarchyMember_eq]
  · rfl

/-- The paths of the back links that are inherited from, as a set. -/
theorem mem_inherited_iff (i : NodeId) (ancestors : List NodeId) (path : String) :
    path ∈ ((g'.inheritedBackLinks (σ i)).toList
        ++ g'.equivalents (σ i) (ancestors.map σ)).map g'.arena.fullPath ↔
      path ∈ ((g.inheritedBackLinks i).toList ++ g.equivalents i ancestors).map
        g.arena.fullPath := by
  simp only [List.map_append, h.equivalents_eq, List.map_map, List.mem_append, List.mem_map,
    Function.comp_apply, h.arena.fullPath_eq, ← SortedSet.mem_iff, h.mem_inheritedBackLinks_iff]
  refine or_congr_left ⟨?_, ?_⟩
  · rintro ⟨_, ⟨m, hm, rfl⟩, rfl⟩
    exact ⟨m, hm, (h.arena.fullPath_eq m).symm⟩
  · rintro ⟨m, hm, rfl⟩
    exact ⟨σ m, ⟨m, hm, rfl⟩, h.arena.fullPath_eq m⟩

theorem backLinkBases_eq (i parent : NodeId) (ancestors : List NodeId) :
    g'.backLinkBases (σ i) (σ parent) (ancestors.map σ) = g.backLinkBases i parent ancestors := by
  refine SortedSet.ext fun base => ?_
  simp only [backLinkBases, SortedSet.mem_ofList, List.mem_cons, List.mem_append,
    h.mem_inherited_iff, h.arena.path_eq, h.arena.kind_eq, h.target_eq, h.arena.relativePath_eq]

theorem sourceMembers_eq (i parent : NodeId) (ancestors : List NodeId) :
    g'.sourceMembers (σ i) (σ parent) (ancestors.map σ) = g.sourceMembers i parent ancestors := by
  have hinterfaces : (SortedSet.ofList (((g'.inheritedBackLinks (σ i)).toList
          ++ g'.equivalents (σ i) (ancestors.map σ)).map g'.arena.fullPath
          ++ if (g'.arena.kind (σ parent)).isActor then [(g'.target (σ i)).backLinkType] else []))
      = SortedSet.ofList (((g.inheritedBackLinks i).toList
          ++ g.equivalents i ancestors).map g.arena.fullPath
          ++ if (g.arena.kind parent).isActor then [(g.target i).backLinkType] else []) := by
    refine SortedSet.ext fun interface => ?_
    simp only [SortedSet.mem_ofList, List.mem_append, h.mem_inherited_iff, h.arena.kind_eq,
      h.target_eq]
  rw [sourceMembers, sourceMembers, hinterfaces]

end BackLinks

section Parts
variable {i : NodeId} {part : Part}

theorem linkTypePart_ok (hpart : g.linkTypePart i = .ok part) :
    g'.linkTypePart (σ i) = .ok part := by
  obtain ⟨v, hv, hrest⟩ := Failure.bind_eq_ok_iff.mp hpart
  obtain ⟨w, hw, hvw⟩ := h.expectState_ok hv
  rw [linkTypePart, hw, h.linkTypeState?_eq, h.arena.kind_eq]
  simp only [bind, Except.bind, h.target_eq]
  cases hs : g.linkTypeState? i with
  | none => simp [hs] at hrest
  | some s =>
    cases hk : g.arena.kind i with
    | linkType k e =>
      simp only [hs, hk] at hrest
      simp only [Option.map_some, hvw.ancestors_eq, h.arena.typeName_eq, h.linkTypeBases_eq i hvw,
        h.linkTypeFirstBase_eq, h.implementationClass_eq, h.withImplementation_eq,
        h.createMethod_eq]
      simp only [LinkTypeState.renumber, h.linkTypeMembers_eq]
      exact hrest
    | _ => simp [hs, hk] at hrest

theorem extensionPart_ok (hpart : g.extensionPart i = .ok part) :
    g'.extensionPart (σ i) = .ok part := by
  obtain ⟨v, hv, hrest⟩ := Failure.bind_eq_ok_iff.mp hpart
  obtain ⟨w, hw, hvw⟩ := h.expectState_ok hv
  rw [extensionPart, hw, h.extensionState?_eq, h.extensionSymbol?_eq]
  simp only [bind, Except.bind]
  cases hs : g.extensionState? i with
  | none => simp [hs] at hrest
  | some s =>
    cases hsymbol : g.extensionSymbol? i with
    | none => simp [hs, hsymbol] at hrest
    | some symbol =>
      simp only [hs, hsymbol] at hrest
      simp only [Option.map_some, hvw.ancestors_eq, h.redeclares_eq, h.arena.typeName_eq,
        h.inheritedProperties_eq, h.extensionMembers_eq, h.extensionBases_eq i symbol hvw,
        h.extensionClass_eq, h.withImplementation_eq, h.createMethod_eq]
      exact hrest

theorem hierarchyPart_ok (hpart : g.hierarchyPart i = .ok part) :
    g'.hierarchyPart (σ i) = .ok part := by
  obtain ⟨v, hv, hrest⟩ := Failure.bind_eq_ok_iff.mp hpart
  obtain ⟨w, hw, hvw⟩ := h.expectState_ok hv
  have hrelatives : w.composition.toList.filter g'.isHierarchyNode
      = (v.composition.toList.filter g.isHierarchyNode).map σ := by
    rw [show w.composition.toList = v.composition.toList.map σ from hvw.composition,
      List.filter_map]
    exact congrArg (List.map σ) (List.filter_congr fun n _ =>
      congrArg NodeKind.isHierarchy (h.arena.kind_eq n))
  rw [hierarchyPart, hw, h.hierarchyState?_eq]
  simp only [bind, Except.bind]
  cases hs : g.hierarchyState? i with
  | none => simp [hs] at hrest
  | some s =>
    simp only [hs] at hrest
    simp only [Option.map_some, hrelatives, hvw.ancestors_eq, h.redeclares_eq,
      h.arena.isTemplate_eq, h.hierarchyBases_eq, h.hierarchyClass_eq, h.withImplementation_eq,
      List.flatMap_map, h.composedMembers_eq]
    simp only [HierarchyState.renumber, List.isEmpty_map, List.flatMap_map, h.memberProperties_eq,
      h.delimiterMethods_eq, h.createMethod_eq]
    exact hrest

theorem backLinkPart_ok (hpart : g.backLinkPart i = .ok part) :
    g'.backLinkPart (σ i) = .ok part := by
  obtain ⟨v, hv, hrest⟩ := Failure.bind_eq_ok_iff.mp hpart
  obtain ⟨w, hw, hvw⟩ := h.expectState_ok hv
  rw [backLinkPart, hw, h.backLinkState?_eq]
  simp only [bind, Except.bind]
  cases hs : g.backLinkState? i with
  | none => simp [hs] at hrest
  | some s =>
    simp only [hs] at hrest
    obtain ⟨p, hp, hrest⟩ := Failure.bind_eq_ok_iff.mp hrest
    simp only [h.backLinkParent_ok hp, h.backLinkClass_eq, h.redefinesSource_eq,
      hvw.ancestors_eq, h.sourceMembers_eq, h.equivalents_eq, List.isEmpty_map,
      h.redeclaredMembers_eq, h.backLinkBases_eq, h.backLinkImplementation_eq,
      h.withImplementation_eq, h.createMethod_eq]
    exact hrest

end Parts

end Matches

end ActorLinks.LinkGraph
