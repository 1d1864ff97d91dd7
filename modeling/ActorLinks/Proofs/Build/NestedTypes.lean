import ActorLinks.Proofs.Build.BackLinks
import ActorLinks.Proofs.Build.Hoisted
import ActorLinks.Proofs.Decl.Drafts

/-! # Nested types

The only types that stand in the declaration of a node are those of the nodes below it, and they are
interfaces; hoisted classes stand in the declaration of the actor. So a class stands nowhere else,
and an interface stands for the actor itself, for its links and relationships, or for a node.
-/
namespace ActorLinks

theorem TypeDecl.Contains.trans {d e t : TypeDecl} (h : d.Contains e) (ht : e.Contains t) :
    d.Contains t := by
  induction h with
  | refl => exact ht
  | nested hinner _ ih => exact .nested hinner (ih ht)

theorem TypeDecl.Draft.eq_of_contains {d t : TypeDecl} {kind : TypeKind} (h : d.Draft kind)
    (ht : d.Contains t) : t = d := by
  cases ht with
  | refl => rfl
  | nested hinner _ => exact absurd hinner h.leaves.not_mem

theorem Implementation.leaves_propertyMembers (i : Implementation) : Leaves i.propertyMembers := by
  simp [propertyMembers]

theorem Implementation.leaves_constructorMembers (i : Implementation) :
    Leaves i.constructorMembers := by
  simp [constructorMembers]

namespace LinkGraph
variable {g : LinkGraph} {i p : NodeId}

section Actors
variable {s : ActorState} {ancestors : List NodeId}

theorem append_dot_ne_empty (qualifier name : String) : qualifier ++ "." ++ name ≠ "" := by
  simp

theorem draft_linkInterface : (g.linkInterface i s ancestors).Draft .interface := by
  have hown : Leaves (ownLinkMembers (g.target i) s.redefinesRootMembers) := by
    unfold ownLinkMembers
    split <;> simp
  have hproviders : Leaves (providerMembers (g.target i)) := by simp [providerMembers]
  have hancestors (a : NodeId) : Leaves (g.ancestorLinkMembers a) := by simp [ancestorLinkMembers]
  simp [linkInterface, hown, hproviders, hancestors]

theorem draft_linkBase : (g.linkBase i s).Draft .classType := by
  have hproperties := s.implementation.leaves_propertyMembers
  have hconstructors := s.implementation.leaves_constructorMembers
  have hclass := (TypeDecl.draft_classNamed linkBaseName).restyle .privateProtectedAccess
    (.ofList [.abstract]) (by simp)
  have hown (isNew : Bool) (base : String) :
      ((({ TypeDecl.classNamed linkBaseName with
        accessibility := .privateProtectedAccess
        modifiers := .ofList [.abstract] }).markNew isNew).addBase base).Draft .classType := by
    simpa using hclass
  unfold linkBase
  cases s.baseActor with
  | none => simp [hown, hproperties, hconstructors]
  | some base =>
    simp [(hown _ _).insertBase 0 (append_dot_ne_empty _ linkBaseName), hproperties,
      hconstructors]

theorem draft_relationshipInterface {t : Target} {name : String} {isNew : Bool} :
    (relationshipInterface t name isNew).Draft .interface := by
  simp [relationshipInterface]

theorem draft_canonicalRelationship :
    (g.canonicalRelationship i s ancestors).Draft .interface := by
  have hshared : Leaves (g.sharedEntities (g.target i) (ancestors ++ [i])) := by
    intro m hm
    obtain ⟨e, _, he⟩ := List.mem_filterMap.mp hm
    split at he
    · cases he
      rfl
    · cases he
  simp [canonicalRelationship, hshared, inheritedRelationship, redefinedRelationship,
    relatedRelationship]

theorem leaves_providerFactories : Leaves (g.providerFactories i s) := by
  unfold providerFactories
  split
  · simp
  · simp [Factory.members]

end Actors

section Nodes

theorem leaves_linkTypeMembers {k : LinkKind} {e : Schematic.Entry} {redefines : Bool}
    {ancestors : List NodeId} : Leaves (g.linkTypeMembers i k e redefines ancestors) := by
  cases k with
  | indexable => simp [linkTypeMembers, indexableMembers]
  | enumerable => simp [linkTypeMembers, enumerableMembers]
  | defined => simp [linkTypeMembers, definedMembers]
  | paged => simp [linkTypeMembers, pagedMembers]

theorem leaves_extensionMembers {s : ExtensionState}
    {inherited : Dict (List (NodeId × ExtensionProperty))} :
    Leaves (g.extensionMembers i s inherited) := by
  simp [extensionMembers, Member.comment, declaredProperty]

theorem leaves_memberProperties (m : NodeId) : Leaves (g.memberProperties i m) := by
  simp [memberProperties]

theorem leaves_composedMembers (n : NodeId) : Leaves (g.composedMembers n) := by
  unfold composedMembers
  split <;> simp

theorem leaves_redeclaredMembers : Leaves (g.redeclaredMembers p) := by
  have hextension (property : ExtensionProperty) :
      Leaves (g.redeclaredExtensionProperty p property) := by
    simp [redeclaredExtensionProperty]
  have hhierarchy (m : NodeId) : Leaves (g.redeclaredHierarchyMember p m) := by
    simp [redeclaredHierarchyMember]
  unfold redeclaredMembers
  split
  · split <;> simp [hextension]
  · split <;> simp [hhierarchy]
  · simp

theorem leaves_sourceMembers {ancestors : List NodeId} :
    Leaves (g.sourceMembers i p ancestors) := by
  simp [sourceMembers]

/-- A class that no type stands in. -/
def Plain (d : TypeDecl) : Prop := d.kind = .classType ∧ Leaves d.members

theorem implementedParentType?_ne_empty : g.implementedParentType? i ≠ some "" := by
  intro h
  obtain ⟨p, _, hp⟩ := Option.map_eq_some_iff.mp h
  exact append_dot_ne_empty _ _ hp

theorem linkTypeFirstBase_ne_empty (s : LinkTypeState) : g.linkTypeFirstBase i s ≠ "" := by
  unfold linkTypeFirstBase
  cases s.implementationBase with
  | none =>
    dsimp only
    simp
  | some base => exact append_dot_ne_empty _ _

theorem draft_implementationClass {first : Option String} (h : first ≠ some "") :
    (g.implementationClass i first).Draft .classType := by
  have hown : (({ TypeDecl.classNamed (g.arena.implementationType i) with
      accessibility := .privateProtectedAccess } : TypeDecl).addBase
        (g.arena.fullPath i)).Draft .classType :=
    TypeDecl.draft_addBase.mpr
      ((TypeDecl.draft_classNamed _).restyle .privateProtectedAccess ∅ (by simp))
  unfold implementationClass
  cases first with
  | none => exact TypeDecl.draft_addConstraints.mpr hown
  | some base =>
    have hbase : base ≠ "" := fun hempty => h (congrArg some hempty)
    exact TypeDecl.draft_addConstraints.mpr (hown.insertBase 0 hbase)

theorem draft_backLinkClass {s : BackLinkState} : (g.backLinkClass i s).Draft .classType := by
  simp [backLinkClass]

/-- What is made of a node: nothing, the class of a back link, or a draft of its interface with one of
the class that implements it. -/
inductive Draws (g : LinkGraph) (i : NodeId) : Part → Prop
  | nothing : Draws g i .nothing
  | closed {s : BackLinkState} : g.arena.category i = .backLink → g.backLinkState? i = some s →
      s.isClass = true → Draws g i (.closed (g.backLinkClass i s))
  | implemented {face implementing : TypeDecl} {create : Decl.Method} : face.Draft .interface →
      implementing.Draft .classType →
      Draws g i (g.withImplementation i face implementing create)

theorem draft_parentClass :
    (g.implementationClass i (g.implementedParentType? i)).Draft .classType :=
  draft_implementationClass implementedParentType?_ne_empty

theorem draws_of_linkTypePart {part : Part} (h : g.linkTypePart i = .ok part) :
    g.Draws i part := by
  obtain ⟨v, _, hrest⟩ := Failure.bind_eq_ok_iff.mp h
  split at hrest
  · next s k e _ _ =>
    simp only at hrest
    split at hrest
    · cases hrest
      exact .nothing
    · have hclass : (g.implementationClass i (some (g.linkTypeFirstBase i s))).Draft .classType :=
        draft_implementationClass fun hempty =>
          linkTypeFirstBase_ne_empty s (Option.some.inj hempty)
      cases hrest
      refine .implemented ?_ ?_
      · simp [leaves_linkTypeMembers]
      · simp [hclass, s.implementation.leaves_propertyMembers,
          s.implementation.leaves_constructorMembers]
  · cases hrest

theorem draws_of_extensionPart {part : Part} (h : g.extensionPart i = .ok part) :
    g.Draws i part := by
  obtain ⟨v, _, hrest⟩ := Failure.bind_eq_ok_iff.mp h
  split at hrest
  · next s symbol _ _ =>
    have hanswers : Leaves ((ownProperties s).filterMap fun p =>
        (g.nearestDefinition i p (g.inheritedProperties i)).map fun e =>
          (g.explicitProperty e.1 e.2 : Member)) := by
      intro m hm
      obtain ⟨_, _, hp⟩ := List.mem_filterMap.mp hm
      obtain ⟨_, _, rfl⟩ := Option.map_eq_some_iff.mp hp
      rfl
    cases hrest
    refine .implemented ?_ ?_
    · simp [leaves_extensionMembers]
    · simp [extensionClass, draft_parentClass, hanswers, s.implementation.leaves_propertyMembers,
        s.implementation.leaves_constructorMembers]
  · cases hrest

theorem draws_of_hierarchyPart {part : Part} (h : g.hierarchyPart i = .ok part) :
    g.Draws i part := by
  obtain ⟨v, _, hrest⟩ := Failure.bind_eq_ok_iff.mp h
  split at hrest
  · cases hrest
  · next s _ =>
    split at hrest
    · cases hrest
      exact .nothing
    · cases hrest
      refine .implemented ?_ ?_
      · simp [leaves_memberProperties, leaves_composedMembers, delimiterMethods]
      · simp [hierarchyClass, draft_parentClass, s.implementation.leaves_constructorMembers]

theorem draws_of_backLinkPart (hk : g.arena.category i = .backLink) {part : Part}
    (h : g.backLinkPart i = .ok part) : g.Draws i part := by
  obtain ⟨v, _, hrest⟩ := Failure.bind_eq_ok_iff.mp h
  split at hrest
  · cases hrest
  · next s hs =>
    obtain ⟨parent, _, hrest⟩ := Failure.bind_eq_ok_iff.mp hrest
    split at hrest
    · next hclass =>
      cases hrest
      exact .closed hk hs hclass
    · have hsealed :=
        (draft_parentClass (g := g) (i := i)).restyle .privateAccess (.ofList [.sealed]) (by simp)
      cases hrest
      refine .implemented ?_ ?_
      · simp [leaves_sourceMembers, leaves_redeclaredMembers]
      · simpa [backLinkImplementation, s.implementation.leaves_propertyMembers,
          s.implementation.leaves_constructorMembers] using hsealed

theorem draws_of_partAs {part : Part} (h : g.partAs (g.arena.category i) i = .ok part) :
    g.Draws i part := by
  cases hk : g.arena.category i with
  | actor =>
    rw [hk] at h
    cases h
  | linkType =>
    rw [hk] at h
    exact draws_of_linkTypePart h
  | extension =>
    rw [hk] at h
    exact draws_of_extensionPart h
  | hierarchy =>
    rw [hk] at h
    exact draws_of_hierarchyPart h
  | backLink =>
    rw [hk] at h
    exact draws_of_backLinkPart hk h

/-- A part that takes in the children is drawn up as an interface, and what is hoisted out of it as
classes. -/
theorem draft_of_partAs {decl : TypeDecl} {hoisted : List TypeDecl}
    (h : g.partAs (g.arena.category i) i = .ok (.spread decl hoisted)) :
    decl.Draft .interface ∧ ∀ d ∈ hoisted, d.Draft .classType := by
  generalize hpart : Part.spread decl hoisted = part at h
  cases draws_of_partAs h with
  | nothing => cases hpart
  | closed _ _ _ => cases hpart
  | implemented hface hclass =>
    unfold withImplementation at hpart
    split at hpart
    · cases hpart
      exact ⟨TypeDecl.draft_addMember.mpr ⟨hface, rfl⟩,
        fun d hd => List.mem_singleton.mp hd ▸ hclass⟩
    · cases hpart
      exact ⟨hface, fun d hd => nomatch hd⟩

end Nodes

section Built
variable {d t : TypeDecl} {b : Built}

/-- What the node declares, with everything that stands below it. -/
def DeclaredAs (g : LinkGraph) (i : NodeId) (d : TypeDecl) : Prop :=
  ∃ hoisted, g.buildNode i = .ok ⟨some d, hoisted⟩

/-- Only the class of a back link does not take in children. -/
theorem exists_of_closed {decl : TypeDecl}
    (h : g.partAs (g.arena.category i) i = .ok (.closed decl)) :
    g.arena.category i = .backLink ∧ ∃ s, g.backLinkState? i = some s ∧ s.isClass = true ∧
      decl = g.backLinkClass i s := by
  generalize hpart : Part.closed decl = part at h
  cases draws_of_partAs h with
  | nothing => cases hpart
  | closed hk hs hclass => exact ⟨hk, _, hs, hclass, Part.closed.inj hpart⟩
  | implemented _ _ =>
    obtain ⟨_, _, hspread⟩ := exists_withImplementation hpart.symm
    cases hspread

theorem mem_builtMembers {below : List Built} :
    Member.type t ∈ Built.members below ↔ ∃ b ∈ below, b.decl = some t := by
  simp [Built.members]

/-- A node declares the class of a back link, or an interface with the declarations of its children
in it. -/
theorem DeclaredAs.closed_or_spread (h : g.DeclaredAs i d) :
    (g.partAs (g.arena.category i) i = .ok (.closed d) ∧ g.arena.category i = .backLink ∧
      ∃ s, g.backLinkState? i = some s ∧ s.isClass = true ∧ d = g.backLinkClass i s) ∨
    ∃ decl hoisted below, g.partAs (g.arena.category i) i = .ok (.spread decl hoisted) ∧
      (g.arena.children i).mapM g.buildNode = .ok below ∧
      d = decl.addMembers (Built.members below) := by
  obtain ⟨hoisted, hbuilt⟩ := h
  obtain ⟨part, hpart, hrest⟩ := exists_of_buildNode hbuilt
  cases part with
  | nothing => cases hrest
  | closed decl =>
    cases hrest
    exact Or.inl ⟨hpart, exists_of_closed hpart⟩
  | spread decl classes =>
    obtain ⟨below, hbelow, heq⟩ := hrest
    cases heq
    exact Or.inr ⟨decl, classes, below, hpart, hbelow, rfl⟩

/-- In the declaration of a node stand those of its children. -/
theorem DeclaredAs.exists_child (h : g.DeclaredAs i d) (ht : Member.type t ∈ d.members) :
    ∃ n, g.arena.parent? n = some i ∧ g.DeclaredAs n t := by
  obtain ⟨_, _, _, _, _, rfl⟩ | ⟨decl, _, below, hpart, hbelow, rfl⟩ := h.closed_or_spread
  · exact absurd ht draft_backLinkClass.leaves.not_mem
  · have hleaves := (draft_of_partAs hpart).1.leaves
    rw [TypeDecl.mem_members_addMembers, or_iff_right hleaves.not_mem, mem_builtMembers] at ht
    obtain ⟨⟨_, classes⟩, hb, rfl⟩ := ht
    obtain ⟨n, hn, hbuilt⟩ := (Failure.mem_mapM_iff hbelow).mp hb
    exact ⟨n, Arena.mem_children_iff.mp hn, classes, hbuilt⟩

theorem DeclaredAs.grown (h : g.DeclaredAs i d) : d.Grown := by
  obtain ⟨_, _, _, _, _, rfl⟩ | ⟨decl, _, below, hpart, _, rfl⟩ := h.closed_or_spread
  · exact draft_backLinkClass.grown
  · exact ⟨.interface, decl, Built.members below, (draft_of_partAs hpart).1, rfl⟩

theorem not_isActor_of_buildNode (h : g.buildNode i = .ok b) :
    (g.arena.kind i).isActor = false := by
  obtain ⟨part, hpart, _⟩ := exists_of_buildNode h
  rw [Bool.eq_false_iff]
  intro hactor
  rw [show g.arena.category i = .actor from beq_iff_eq.mp hactor] at hpart
  cases hpart

/-- What stands in the declaration of a node at any depth, a node below the same actor declares. -/
theorem DeclaredAs.exists_of_contains (h : g.DeclaredAs i d) (ht : d.Contains t) :
    ∃ n, g.arena.rootActor? n = g.arena.rootActor? i ∧ g.DeclaredAs n t := by
  induction ht generalizing i with
  | refl d => exact ⟨i, rfl, h⟩
  | nested hinner _ ih =>
    obtain ⟨c, hc, hdeclared⟩ := h.exists_child hinner
    obtain ⟨n, hn, hfound⟩ := ih hdeclared
    obtain ⟨hoisted, hbuilt⟩ := h
    exact ⟨n, hn.trans (Arena.rootActor?_of_parent hc (not_isActor_of_buildNode hbuilt)), hfound⟩

theorem draft_of_buildNode (h : g.buildNode i = .ok b) :
    ∀ d ∈ b.hoisted, d.Draft .classType := by
  induction i using Arena.children_induction (a := g.arena) generalizing b with
  | node i ih =>
    obtain ⟨part, hpart, hrest⟩ := exists_of_buildNode h
    cases part with
    | nothing =>
      obtain rfl := hrest
      exact fun d hd => nomatch hd
    | closed decl =>
      obtain rfl := hrest
      exact fun d hd => nomatch hd
    | spread decl hoisted =>
      obtain ⟨below, hbelow, rfl⟩ := hrest
      intro d hd
      rcases List.mem_append.mp hd with hd | hd
      · exact (draft_of_partAs hpart).2 d hd
      · obtain ⟨b, hb, hdb⟩ := List.mem_flatMap.mp hd
        obtain ⟨n, hn, hbuilt⟩ := (Failure.mem_mapM_iff hbelow).mp hb
        exact ih n hn hbuilt d hdb

theorem draft_of_mem_classes {below : List Built}
    (h : (g.arena.children i).mapM g.buildNode = .ok below) :
    ∀ d ∈ Built.classes below, d.Draft .classType := by
  intro d hd
  obtain ⟨b, hb, hdb⟩ := List.mem_flatMap.mp hd
  obtain ⟨n, _, hbuilt⟩ := (Failure.mem_mapM_iff h).mp hb
  exact draft_of_buildNode hbuilt d hdb

variable {c : Compilation} {sch : Schematic} {targets : List Target}

/-- A node declares an interface, unless it is the back link of an actor outside the core
assembly. -/
theorem Visits.kind_of_declaredAs (hv : Visits (ofTargets c sch targets) g)
    (h : g.DeclaredAs i d) : d.kind = .interface ∨ Plain d ∧ d.name = "BackLink<TSource>" ∧
      ∃ root, g.arena.backLinkOf? root = some i ∧ (g.arena.kind root).isActor = true ∧
        g.arena.isCore i = false := by
  obtain ⟨hpart, hk, s, hs, hclass, rfl⟩ | ⟨decl, _, below, hpart, _, rfl⟩ := h.closed_or_spread
  · refine Or.inr ⟨⟨draft_backLinkClass.kind_eq, draft_backLinkClass.leaves⟩,
      by simp [backLinkClass, TypeDecl.classNamed], ?_⟩
    rw [hk] at hpart
    obtain ⟨_, _, p, _, _, hp, _⟩ := hv.exists_of_backLinkPart hpart
    rw [(hv.marked hs hp).1, Bool.and_eq_true, Bool.not_eq_true'] at hclass
    exact ⟨p, hv.grounded.backLinkOf?_eq_some.mpr ⟨hp, hk⟩, hclass.2, hclass.1⟩
  · exact Or.inl ((decl.kind_addMembers _).trans (draft_of_partAs hpart).1.kind_eq)

end Built

section Own
variable {root : NodeId} {own d : TypeDecl} {below : List Built} {s : ActorState}
  {ancestors : List NodeId}

/-- The declaration of the actor itself, without the types that contain it. -/
def DeclaresItself (g : LinkGraph) (root : NodeId) (own : TypeDecl) : Prop :=
  ∃ symbol treeView, g.actorSymbol? root = some symbol ∧
    g.buildActor root treeView = .ok (wrapInContainers g.compilation symbol own)

/-- A type that stands directly in the declaration of the actor. -/
inductive StandsIn (g : LinkGraph) (root : NodeId) (s : ActorState) (ancestors : List NodeId)
    (below : List Built) : TypeDecl → Prop
  | link : StandsIn g root s ancestors below (g.linkInterface root s ancestors)
  | linkBase : (g.target root).assembly = .rest →
      StandsIn g root s ancestors below (g.linkBase root s)
  | relationship : (g.target root).isCore = true → StandsIn g root s ancestors below
      (relationshipInterface (g.target root) s.relationshipName (!ancestors.isEmpty))
  | canonical : (g.target root).isCore = true →
      StandsIn g root s ancestors below (g.canonicalRelationship root s ancestors)
  | node {i : NodeId} {d : TypeDecl} : g.arena.parent? i = some root → g.DeclaredAs i d →
      StandsIn g root s ancestors below d
  | hoisted {d : TypeDecl} : d ∈ Built.classes below → StandsIn g root s ancestors below d

theorem wrapInContainers_inj {c : Compilation} {symbol : TypeSymbol} {d e : TypeDecl}
    (h : wrapInContainers c symbol d = wrapInContainers c symbol e) : d = e := by
  unfold wrapInContainers at h
  generalize c.chain (·.containingType) symbol.containingType = names at h
  induction names generalizing d e with
  | nil => exact h
  | cons name names ih =>
    have hinner := congrArg TypeDecl.members (ih h)
    exact Member.type.inj (List.singleton_injective hinner)

theorem mem_actorDecl {symbol : TypeSymbol} {treeView : Bool} :
    Member.type d ∈ (g.actorDecl root symbol s ancestors treeView).members ↔
      d = g.linkInterface root s ancestors ∨
      (g.target root).assembly = .rest ∧ d = g.linkBase root s ∨
      (g.target root).isCore = true ∧
        (d = relationshipInterface (g.target root) s.relationshipName (!ancestors.isEmpty) ∨
          d = g.canonicalRelationship root s ancestors) := by
  have hfactories : Member.type d ∉ g.providerFactories root s := leaves_providerFactories.not_mem
  have hbase : Member.type d ∈ (if (g.target root).assembly = .rest then
      [(g.linkBase root s : Member)] else []) ↔
      (g.target root).assembly = .rest ∧ d = g.linkBase root s := by
    split <;> simp [*]
  have hrelationships : Member.type d ∈ (if (g.target root).isCore then
      g.relationships root s ancestors else g.providerFactories root s) ↔
      (g.target root).isCore = true ∧
        (d = relationshipInterface (g.target root) s.relationshipName (!ancestors.isEmpty) ∨
          d = g.canonicalRelationship root s ancestors) := by
    split <;> simp [*, relationships]
  simp only [actorDecl, TypeDecl.mem_members_addMembers, TypeDecl.mem_members_addMember,
    TypeDecl.members_addConstraints, List.not_mem_nil, false_or, Member.type.injEq, hbase,
    hrelationships, or_assoc]

/-- It is drawn up from the symbol and takes in what is built of the nodes below. -/
theorem DeclaresItself.exists_actorDecl (h : g.DeclaresItself root own) :
    ∃ symbol s ancestors treeView below, g.actorSymbol? root = some symbol ∧
      g.ActorAt root s ancestors ∧ (g.arena.children root).mapM g.buildNode = .ok below ∧
      own = (g.actorDecl root symbol s ancestors treeView).addMembers
        (Built.members below ++ (Built.classes below).map Member.type) := by
  obtain ⟨symbol, treeView, hsymbol, hdecl⟩ := h
  obtain ⟨s, ancestors, symbol', below, hat, hsymbol', hbelow, heq⟩ := exists_of_buildActor hdecl
  obtain rfl := Option.some.inj (hsymbol.symm.trans hsymbol')
  exact ⟨symbol, s, ancestors, treeView, below, hsymbol, hat, hbelow, wrapInContainers_inj heq⟩

theorem DeclaresItself.exists_standsIn (h : g.DeclaresItself root own) :
    ∃ symbol s ancestors below, g.actorSymbol? root = some symbol ∧ own.kind = symbol.kind ∧
      own.bases = [] ∧ g.ActorAt root s ancestors ∧
      (g.arena.children root).mapM g.buildNode = .ok below ∧
      ∀ d, Member.type d ∈ own.members ↔ g.StandsIn root s ancestors below d := by
  obtain ⟨symbol, s, ancestors, treeView, below, hsymbol, hat, hbelow, rfl⟩ := h.exists_actorDecl
  refine ⟨symbol, s, ancestors, below, hsymbol, by simp [actorDecl], by simp [actorDecl], hat,
    hbelow, fun d => ?_⟩
  rw [TypeDecl.mem_members_addMembers, List.mem_append, mem_actorDecl, mem_builtMembers,
    List.mem_map_of_injective fun _ _ => Member.type.inj]
  constructor
  · rintro ((rfl | ⟨hrest, rfl⟩ | ⟨hcore, rfl | rfl⟩) | ⟨⟨_, classes⟩, hb, rfl⟩ | hclass)
    · exact .link
    · exact .linkBase hrest
    · exact .relationship hcore
    · exact .canonical hcore
    · obtain ⟨n, hn, hbuilt⟩ := (Failure.mem_mapM_iff hbelow).mp hb
      exact .node (Arena.mem_children_iff.mp hn) ⟨classes, hbuilt⟩
    · exact .hoisted hclass
  · rintro (_ | hrest | hcore | hcore | ⟨hp, classes, hbuilt⟩ | hclass)
    · exact Or.inl (Or.inl rfl)
    · exact Or.inl (Or.inr (Or.inl ⟨hrest, rfl⟩))
    · exact Or.inl (Or.inr (Or.inr ⟨hcore, Or.inl rfl⟩))
    · exact Or.inl (Or.inr (Or.inr ⟨hcore, Or.inr rfl⟩))
    · exact Or.inr (Or.inl ⟨_, (Failure.mem_mapM_iff hbelow).mpr
        ⟨_, Arena.mem_children_iff.mpr hp, hbuilt⟩, rfl⟩)
    · exact Or.inr (Or.inr hclass)

theorem exists_declaresItself {decl : TypeDecl} {treeView : Bool}
    (h : g.buildActor root treeView = .ok decl) : ∃ symbol own, g.actorSymbol? root = some symbol ∧
      decl = wrapInContainers g.compilation symbol own ∧ g.DeclaresItself root own := by
  obtain ⟨_, _, symbol, _, _, hsymbol, _, rfl⟩ := exists_of_buildActor h
  exact ⟨symbol, _, hsymbol, rfl, symbol, treeView, hsymbol, h⟩

/-- Around the declaration of an actor stand only the types that contain it. -/
theorem contains_or_of_wrapInContainers {c : Compilation} {symbol : TypeSymbol}
    (h : (wrapInContainers c symbol own).Contains d) :
    own.Contains d ∨ ∃ name inner, d = containerDecl c name inner := by
  unfold wrapInContainers at h
  refine List.foldlRecOn (motive := fun outer : TypeDecl =>
    outer.Contains d → own.Contains d ∨ ∃ name inner, d = containerDecl c name inner) _ _ Or.inl
    (fun outer ih name _ h => ?_) h
  cases h with
  | refl => exact Or.inr ⟨name, outer, rfl⟩
  | nested hinner hcontains =>
    obtain rfl := Member.type.inj (List.mem_singleton.mp hinner)
    exact ih hcontains

/-- All that stands in the declaration of an actor are drafts that have taken in members. -/
theorem DeclaresItself.grown_of_contains {inner : TypeDecl} (h : g.DeclaresItself root own)
    (hinner : Member.type inner ∈ own.members) (hd : inner.Contains d) : d.Grown := by
  obtain ⟨_, s, ancestors, below, _, _, _, _, hbelow, hmembers⟩ := h.exists_standsIn
  have hdraft {kind : TypeKind} (hinner : inner.Draft kind) : d.Grown :=
    hinner.eq_of_contains hd ▸ hinner.grown
  cases (hmembers inner).mp hinner with
  | link => exact hdraft draft_linkInterface
  | linkBase => exact hdraft draft_linkBase
  | relationship => exact hdraft draft_relationshipInterface
  | canonical => exact hdraft draft_canonicalRelationship
  | node _ hdeclared =>
    obtain ⟨n, _, hfound⟩ := hdeclared.exists_of_contains hd
    exact hfound.grown
  | hoisted hclass => exact hdraft (draft_of_mem_classes hbelow inner hclass)

/-- An interface in the declaration of an actor has no bases, or else stands for the links or the
relationships of the actor, or is declared by a node below it. -/
theorem exists_of_contains {decl : TypeDecl} {treeView : Bool}
    (hroot : (g.arena.kind root).isActor = true) (h : g.buildActor root treeView = .ok decl)
    (hd : decl.Contains d) (hk : d.kind = .interface) : d.bases = [] ∨
      (∃ s ancestors, g.ActorAt root s ancestors ∧ (d = g.linkInterface root s ancestors ∨
        d = relationshipInterface (g.target root) s.relationshipName (!ancestors.isEmpty) ∨
        d = g.canonicalRelationship root s ancestors)) ∨
      ∃ i, g.arena.rootActor? i = some root ∧ g.DeclaredAs i d := by
  obtain ⟨_, own, _, rfl, hown⟩ := exists_declaresItself h
  obtain ⟨_, s, ancestors, below, _, _, hbases, hat, hbelow, hmembers⟩ := hown.exists_standsIn
  rcases contains_or_of_wrapInContainers hd with hcontains | ⟨name, inner, rfl⟩
  · cases hcontains with
    | refl => exact Or.inl hbases
    | nested hinner hcontains =>
      rcases (hmembers _).mp hinner with _ | hrest | hcore | hcore | ⟨hp, hdeclared⟩ | hclass
      · obtain rfl := draft_linkInterface.eq_of_contains hcontains
        exact Or.inr (Or.inl ⟨s, ancestors, hat, Or.inl rfl⟩)
      · obtain rfl := draft_linkBase.eq_of_contains hcontains
        rw [draft_linkBase.kind_eq] at hk
        cases hk
      · obtain rfl := draft_relationshipInterface.eq_of_contains hcontains
        exact Or.inr (Or.inl ⟨s, ancestors, hat, Or.inr (Or.inl rfl)⟩)
      · obtain rfl := draft_canonicalRelationship.eq_of_contains hcontains
        exact Or.inr (Or.inl ⟨s, ancestors, hat, Or.inr (Or.inr rfl)⟩)
      · obtain ⟨n, hn, hfound⟩ := hdeclared.exists_of_contains hcontains
        exact Or.inr (Or.inr ⟨n, hn.trans (Arena.rootActor?_of_actor hp hroot), hfound⟩)
      · have hdraft := draft_of_mem_classes hbelow _ hclass
        obtain rfl := hdraft.eq_of_contains hcontains
        rw [hdraft.kind_eq] at hk
        cases hk
  · exact Or.inl rfl

/-- What a node declares stands in the declaration of the actor, if all above it takes in its
children. -/
theorem Complete.contains_of_declaredAs (hg : g.Complete) {decl : TypeDecl} {treeView : Bool}
    (hroot : g.arena.rootActor? i = some root) (h : g.buildActor root treeView = .ok decl)
    (habove : ∀ n ∈ g.arena.parents i, (g.arena.kind n).isActor = false → g.Spreads n)
    (hd : g.DeclaredAs i d) : decl.Contains d := by
  -- upwards: what stands in the declaration of the parent stands in that of the actor
  induction i using Nat.strongRecOn generalizing d with
  | ind i ih =>
    obtain ⟨p, hp⟩ := Arena.exists_parent_of_rootActor? hroot
    have hparent := Arena.mem_parents_of_parent hp
    cases hk : (g.arena.kind p).isActor with
    | true =>
      obtain rfl := Option.some.inj ((Arena.rootActor?_of_actor hp hk).symm.trans hroot)
      obtain ⟨symbol, own, _, rfl, hown⟩ := exists_declaresItself h
      obtain ⟨_, _, _, _, _, _, _, _, _, hmembers⟩ := hown.exists_standsIn
      have hmember : Member.type d ∈ own.members := (hmembers d).mpr (.node hp hd)
      exact (contains_wrapInContainers _ symbol own).trans (.nested hmember (.refl d))
    | false =>
      rw [Arena.rootActor?_of_parent hp hk] at hroot
      obtain ⟨q, hq⟩ := Arena.exists_parent_of_rootActor? hroot
      obtain ⟨b, hb⟩ := hg.exists_buildNode hq
      obtain ⟨face, classes, hspread⟩ := habove p hparent hk
      obtain ⟨part, hpart, hrest⟩ := exists_of_buildNode hb
      cases hspread.symm.trans hpart
      obtain ⟨below, hbelow, rfl⟩ := hrest
      obtain ⟨hoisted, hbuilt⟩ := hd
      have hmember : Member.type d ∈ (face.addMembers (Built.members below)).members := by
        rw [TypeDecl.mem_members_addMembers, mem_builtMembers]
        exact Or.inr ⟨_, (Failure.mem_mapM_iff hbelow).mpr
          ⟨i, Arena.mem_children_iff.mpr hp, hbuilt⟩, rfl⟩
      rw [Arena.parents_of_some hp] at habove
      have houter := ih p (Arena.lt_of_parent hp) hroot
        (fun n hn => habove n (List.mem_cons_of_mem _ hn)) ⟨_, hb⟩
      exact houter.trans (.nested hmember (.refl d))

end Own

end LinkGraph

end ActorLinks
