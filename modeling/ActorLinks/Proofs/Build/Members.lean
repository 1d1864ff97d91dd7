import ActorLinks.Actor.Declaration

/-! # What declarations offer

A member stands in a declaration under the declaration's own name, or answers for an interface.
For each kind of declaration it is said which names stand where. Interfaces that are not made
here end in a type argument list, and so are never taken for one that is.
-/
namespace ActorLinks

/-- What a member of an interface is found by. -/
inductive MemberName where
  | indexer
  | named (name : String)
  deriving DecidableEq

namespace Member

/-- Only what can be a member of an interface has a name. -/
@[simp] def name? : Member → Option MemberName
  | leaf (.property d) => some (.named d.name)
  | leaf (.method d) => some (.named d.name)
  | leaf (.indexer _) => some .indexer
  | _ => none

@[simp] def interface? : Member → Option String
  | leaf (.property d) => d.explicitInterface
  | leaf (.method d) => d.explicitInterface
  | leaf (.indexer d) => d.explicitInterface
  | _ => none

end Member

/-- Some member answers for the interface, or stands for itself, under the name. -/
def Offers (ms : List Member) (interface : Option String) (name : MemberName) : Prop :=
  ∃ m ∈ ms, interface = m.interface? ∧ some name = m.name?

section Offers
variable {α : Type} {interface : Option String} {name : MemberName}

@[simp] theorem not_offers_nil : ¬ Offers [] interface name := by simp [Offers]

@[simp] theorem offers_cons {m : Member} {ms : List Member} :
    Offers (m :: ms) interface name ↔
      (interface = m.interface? ∧ some name = m.name?) ∨ Offers ms interface name := by
  simp [Offers]

@[simp] theorem offers_append {ms ns : List Member} :
    Offers (ms ++ ns) interface name ↔ Offers ms interface name ∨ Offers ns interface name := by
  simp [Offers, or_and_right, exists_or]

@[simp] theorem offers_map {xs : List α} {f : α → Member} : Offers (xs.map f) interface name ↔
    ∃ x ∈ xs, interface = (f x).interface? ∧ some name = (f x).name? := by
  constructor
  · rintro ⟨m, hm, hname⟩
    obtain ⟨x, hx, rfl⟩ := List.mem_map.mp hm
    exact ⟨x, hx, hname⟩
  · rintro ⟨x, hx, hname⟩
    exact ⟨f x, List.mem_map_of_mem hx, hname⟩

@[simp] theorem offers_flatMap {xs : List α} {f : α → List Member} :
    Offers (xs.flatMap f) interface name ↔ ∃ x ∈ xs, Offers (f x) interface name := by
  constructor
  · rintro ⟨m, hm, hname⟩
    obtain ⟨x, hx, hmx⟩ := List.mem_flatMap.mp hm
    exact ⟨x, hx, m, hmx, hname⟩
  · rintro ⟨x, hx, m, hmx, hname⟩
    exact ⟨m, List.mem_flatMap.mpr ⟨x, hx, hmx⟩, hname⟩

end Offers

namespace TypeDecl
variable {d : TypeDecl} {interface : Option String} {name : MemberName}

def Declares (d : TypeDecl) (name : MemberName) : Prop := Offers d.members none name

def Implements (d : TypeDecl) (interface : String) (name : MemberName) : Prop :=
  Offers d.members (some interface) name

/-- One declaration stands in another one at some depth. -/
inductive Contains : TypeDecl → TypeDecl → Prop
  | refl (d : TypeDecl) : Contains d d
  | nested {outer inner d : TypeDecl} :
      Member.type inner ∈ outer.members → Contains inner d → Contains outer d

@[simp] theorem name_interfaceNamed (name : String) : (interfaceNamed name).name = name := rfl

@[simp] theorem members_interfaceNamed (name : String) : (interfaceNamed name).members = [] := rfl

@[simp] theorem offers_addMembers {ms : List Member} :
    Offers (d.addMembers ms).members interface name ↔
      Offers d.members interface name ∨ Offers ms interface name := by
  rw [← offers_append]
  simp [Offers]

@[simp] theorem offers_addMember {m : Member} : Offers (d.addMember m).members interface name ↔
    Offers d.members interface name ∨ (interface = m.interface? ∧ some name = m.name?) := by
  simp [Offers, or_and_right, exists_or]

end TypeDecl

theorem contains_wrapInContainers (c : Compilation) (symbol : TypeSymbol) (d : TypeDecl) :
    (LinkGraph.wrapInContainers c symbol d).Contains d := by
  unfold LinkGraph.wrapInContainers
  refine List.foldlRecOn (motive := fun outer : TypeDecl => outer.Contains d) _ _ (.refl d)
    (fun outer houter name _ => .nested ?_ houter)
  exact List.mem_singleton.mpr rfl

/-- The interface is a generic one, with its type arguments. -/
def Applied (interface : Option String) : Prop := ∃ front, interface = some (front ++ ">")

theorem not_applied_none : ¬ Applied none := fun ⟨_, h⟩ => nomatch h

theorem not_applied_append {front last : String} (hne : last ≠ "")
    (hlast : last.toList.getLast? ≠ some '>') : ¬ Applied (some (front ++ last)) := by
  rintro ⟨start, h⟩
  have hend := congrArg (fun text => text.toList.getLast?) (Option.some.inj h)
  have hlist : last.toList ≠ [] := by simpa using hne
  simp only [String.toList_append, List.getLast?_append,
    Option.or_of_isSome (List.getLast?_isSome.mpr hlist)] at hend
  exact hlast (hend.trans rfl)

namespace LinkGraph
variable {g : LinkGraph} {interface : Option String} {name : MemberName}

section Link

/-- The members through which the link interface of an actor makes actors and entities. -/
def linkNames : List MemberName := [.named "GetActor", .named "CreateEntity"]

theorem offers_ownLinkMembers {t : Target} {redefines : Bool} :
    Offers (ownLinkMembers t redefines) interface name ↔ interface = none ∧ name ∈ linkNames ∧
      (t.assembly = .rest ∨ t.assembly = .core ∧ redefines = true) := by
  have hpair : (interface = none ∧ name = .named "GetActor" ∨
      interface = none ∧ name = .named "CreateEntity") ↔ interface = none ∧ name ∈ linkNames := by
    simp [linkNames, and_or_left]
  cases ht : t.assembly with
  | gateway => simp [ownLinkMembers, ht]
  | rest =>
    simpa [ownLinkMembers, ht, Decl.Method.internal, Target.getActor, Target.createEntity]
      using hpair
  | core =>
    cases redefines with
    | false => simp [ownLinkMembers, ht]
    | true =>
      simpa [ownLinkMembers, ht, Decl.Method.internal, Target.getActor, Target.createEntity]
        using hpair

theorem applied_of_offers_providerMembers {t : Target}
    (h : Offers (providerMembers t) interface name) : Applied interface := by
  obtain ⟨m, hm, rfl, _⟩ := h
  unfold providerMembers at hm
  split at hm
  all_goals
    simp only [List.append_nil, List.cons_append, List.nil_append, List.mem_cons,
      List.not_mem_nil, or_false] at hm
  · rcases hm with rfl | rfl
    all_goals exact ⟨_, rfl⟩
  · rcases hm with rfl | rfl | rfl | rfl
    all_goals exact ⟨_, rfl⟩

theorem offers_ancestorLinkMembers {a : NodeId}
    (h : Offers (g.ancestorLinkMembers a) interface name) : name ∈ linkNames ∧
      ((∃ s, g.actorState? a = some s ∧ s.redefinesRootMembers = true) ∧
          interface = some ((g.target a).actor ++ ".Link") ∨
        Applied interface) := by
  obtain ⟨m, hm, rfl, hname⟩ := h
  simp only [ancestorLinkMembers, List.mem_cons, List.not_mem_nil, or_false] at hm
  cases hs : ((g.actorState? a).map (·.redefinesRootMembers)).getD false with
  | true =>
    have hstate : ∃ s, g.actorState? a = some s ∧ s.redefinesRootMembers = true := by
      cases ha : g.actorState? a with
      | none => simp [ha] at hs
      | some s => exact ⟨s, rfl, by simpa [ha] using hs⟩
    rw [hs] at hm
    rcases hm with rfl | rfl
    all_goals
      cases hname
      exact ⟨by simp [linkNames, Decl.Method.implementing, Target.getActor, Target.createEntity],
        Or.inl ⟨hstate, rfl⟩⟩
  | false =>
    rw [hs] at hm
    rcases hm with rfl | rfl
    all_goals
      cases hname
      exact ⟨by simp [linkNames, Decl.Method.implementing, Target.getActor, Target.createEntity],
        Or.inr ⟨_, rfl⟩⟩

/-- An ancestor that redefines its members is implemented through its link interface. -/
theorem offers_ancestorLinkMembers_of_redefines {a : NodeId} {s : ActorState}
    (ha : g.actorState? a = some s) (hs : s.redefinesRootMembers = true)
    (hname : name ∈ linkNames) :
    Offers (g.ancestorLinkMembers a) (some ((g.target a).actor ++ ".Link")) name := by
  simp only [linkNames, List.mem_cons, List.not_mem_nil, or_false] at hname
  simpa [ancestorLinkMembers, ha, hs, Decl.Method.implementing, Target.getActor,
    Target.createEntity] using hname

theorem offers_linkInterface {id : NodeId} {s : ActorState} {ancestors : List NodeId} :
    Offers (g.linkInterface id s ancestors).members interface name ↔
      Offers (ownLinkMembers (g.target id) s.redefinesRootMembers) interface name ∨
      ((s.redefinesRootMembers || !ancestors.isEmpty) = true ∧
        Offers (providerMembers (g.target id)) interface name) ∨
      ∃ a ∈ ancestors, Offers (g.ancestorLinkMembers a) interface name := by
  have hproviders : Offers (if s.redefinesRootMembers || !ancestors.isEmpty then
        providerMembers (g.target id) else []) interface name ↔
      (s.redefinesRootMembers || !ancestors.isEmpty) = true ∧
        Offers (providerMembers (g.target id)) interface name := by
    split
    · next h => simp [h]
    · next h => simp [h]
  simp only [linkInterface, TypeDecl.offers_addMembers, TypeDecl.members_addBases,
    TypeDecl.members_markNew, TypeDecl.members_interfaceNamed, not_offers_nil, false_or,
    offers_flatMap, hproviders, or_assoc]

theorem declares_linkInterface {id : NodeId} {s : ActorState} {ancestors : List NodeId} :
    (g.linkInterface id s ancestors).Declares name ↔ name ∈ linkNames ∧
      ((g.target id).assembly = .rest ∨
        (g.target id).assembly = .core ∧ s.redefinesRootMembers = true) := by
  rw [TypeDecl.Declares, offers_linkInterface, offers_ownLinkMembers]
  constructor
  · rintro (⟨_, hown⟩ | ⟨_, hprovider⟩ | ⟨a, _, hancestor⟩)
    · exact hown
    · exact absurd (applied_of_offers_providerMembers hprovider) not_applied_none
    · obtain ⟨_, ⟨_, hnone⟩ | happlied⟩ := offers_ancestorLinkMembers hancestor
      · cases hnone
      · exact absurd happlied not_applied_none
  · exact fun hown => Or.inl ⟨rfl, hown⟩

/-- What is implemented under the name of a link interface is so for an ancestor of that name. -/
theorem implements_linkInterface {id : NodeId} {s : ActorState} {ancestors : List NodeId}
    {actor : String} (h : (g.linkInterface id s ancestors).Implements (actor ++ ".Link") name) :
    name ∈ linkNames ∧ ∃ a ∈ ancestors, (g.target a).actor = actor ∧
      ∃ s, g.actorState? a = some s ∧ s.redefinesRootMembers = true := by
  have hnot : ¬ Applied (some (actor ++ ".Link")) := not_applied_append (by decide) (by decide)
  rcases offers_linkInterface.mp h with hown | ⟨_, hprovider⟩ | ⟨a, ha, hancestor⟩
  · cases (offers_ownLinkMembers.mp hown).1
  · exact absurd (applied_of_offers_providerMembers hprovider) hnot
  · obtain ⟨hname, ⟨hstate, heq⟩ | hprovider⟩ := offers_ancestorLinkMembers hancestor
    · have hactor := (String.append_left_inj ".Link").mp (Option.some.inj heq)
      exact ⟨hname, a, ha, hactor.symm, hstate⟩
    · exact absurd hprovider hnot

end Link

section LinkType

/-- The members that a link type declares anew where it redefines them. -/
def operations : LinkKind → List MemberName
  | .indexable => [.indexer, .named "Specifically"]
  | .enumerable => [.named "AllAsync"]
  | .defined => [.named "Ids"]
  | .paged => [.named "PagedAsync"]

/-- No interface, or one whose operations are forwarded. -/
def Forwards (fs : List Forwarded) (interface : Option String) : Prop :=
  interface = none ∨ ∃ f ∈ fs, interface = some f.interface

variable {id : NodeId} {k : LinkKind} {e : Schematic.Entry} {redefines : Bool}
  {fs : List Forwarded} {ancestors : List NodeId}

theorem offers_enumerableMembers {t : Target} : Offers (enumerableMembers t fs) interface name ↔
    Forwards fs interface ∧ name ∈ operations .enumerable := by
  simp [enumerableMembers, Forwards, operations, or_and_right, ← exists_and_right, and_assoc]

theorem offers_definedMembers {t : Target} : Offers (definedMembers t fs) interface name ↔
    Forwards fs interface ∧ name ∈ operations .defined := by
  simp [definedMembers, Decl.Property.explicit, Forwards, operations, or_and_right,
    ← exists_and_right, and_assoc]

theorem offers_pagedMembers : Offers (pagedMembers e fs) interface name ↔
    Forwards fs interface ∧ name ∈ operations .paged := by
  simp [pagedMembers, Forwards, operations, or_and_right, ← exists_and_right, and_assoc]

theorem offers_indexableMembers : Offers (g.indexableMembers id redefines fs) interface name ↔
    (interface = none ∨ (g.target id).isCore = false ∧ interface = some (g.corePath id)) ∧
        name = .indexer ∨
      redefines = true ∧ Forwards fs interface ∧ name ∈ operations .indexable := by
  refine offers_append.trans (or_congr ?_ ?_)
  · cases hcore : (g.target id).isCore with
    | true => simp
    | false => simp [corePath, or_and_right]
  · cases redefines with
    | false => simp
    | true =>
      have hoperations (i : Option String) :
          (interface = i ∧ name = .indexer ∨ interface = i ∧ name = .named "Specifically") ↔
            interface = i ∧ name ∈ operations .indexable := by
        simp [operations, and_or_left]
      simp [hoperations, ← or_assoc, Forwards, or_and_right, ← exists_and_right, and_assoc]

theorem offers_linkTypeMembers {k : LinkKind} :
    Offers (g.linkTypeMembers id k e redefines ancestors) interface name ↔
      k = .indexable ∧
          (interface = none ∨ (g.target id).isCore = false ∧ interface = some (g.corePath id)) ∧
          name = .indexer ∨
        redefines = true ∧ Forwards (g.forwarded id e ancestors) interface ∧
          name ∈ operations k := by
  cases k with
  | indexable => simp [linkTypeMembers, offers_indexableMembers]
  | enumerable => cases redefines <;> simp [linkTypeMembers, offers_enumerableMembers]
  | defined => cases redefines <;> simp [linkTypeMembers, offers_definedMembers]
  | paged => cases redefines <;> simp [linkTypeMembers, offers_pagedMembers]

theorem mem_operations_of_offers {k : LinkKind}
    (h : Offers (g.linkTypeMembers id k e redefines ancestors) interface name) :
    name ∈ operations k := by
  rcases offers_linkTypeMembers.mp h with ⟨rfl, _, rfl⟩ | ⟨_, _, hname⟩
  · simp [operations]
  · exact hname

theorem declares_linkTypeMembers {k : LinkKind} (hname : name ∈ operations k) :
    Offers (g.linkTypeMembers id k e redefines ancestors) none name ↔
      redefines = true ∨ name = .indexer := by
  rw [offers_linkTypeMembers]
  constructor
  · rintro (⟨_, _, hindexer⟩ | ⟨hredefines, _⟩)
    · exact Or.inr hindexer
    · exact Or.inl hredefines
  · rintro (hredefines | rfl)
    · exact Or.inr ⟨hredefines, Or.inl rfl, hname⟩
    · -- only an indexable link type has an indexer among its operations
      cases k with
      | indexable => exact Or.inl ⟨rfl, Or.inl rfl, rfl⟩
      | _ => simp [operations] at hname

end LinkType

section Relationship
variable {id : NodeId} {s : ActorState} {ancestors : List NodeId}

theorem declares_relationshipInterface {t : Target} {own : String} {isNew : Bool} :
    (relationshipInterface t own isNew).Declares (.named own) := by
  simp [relationshipInterface, TypeDecl.Declares, Decl.Property.explicit]

theorem applied_of_offers_sharedEntities {t : Target} {nodes : List NodeId}
    (h : Offers (g.sharedEntities t nodes) interface name) : Applied interface := by
  obtain ⟨m, hm, rfl, _⟩ := h
  obtain ⟨e, _, hm⟩ := List.mem_filterMap.mp hm
  split at hm
  · cases hm
    exact ⟨_, rfl⟩
  · cases hm

/-- Only what redefines its relationship is implemented through the canonical one. -/
theorem relationshipOwner_eq (g : LinkGraph) (n : NodeId) :
    g.relationshipOwner n = (g.target n).actor ++ ".Relationship" ∨
      g.relationshipOwner n = (g.target n).actor ++ ".CanonicalRelationship" ∧
        ∃ s, g.actorState? n = some s ∧ s.canonicalRelationshipRedefined = true := by
  unfold relationshipOwner
  cases hs : g.actorState? n with
  | none => exact Or.inl rfl
  | some s =>
    cases hredefined : s.canonicalRelationshipRedefined with
    | false => simp [hredefined]
    | true => exact Or.inr ⟨by simp [hredefined], s, rfl, hredefined⟩

theorem offers_canonicalRelationship :
    Offers (g.canonicalRelationship id s ancestors).members interface name ↔
      (∃ a ∈ ancestors, interface = some ((g.target a).actor ++ ".Relationship") ∧
        name = .named (g.relationshipName a)) ∨
      Offers (g.sharedEntities (g.target id) (ancestors ++ [id])) interface name ∨
      s.canonicalRelationshipRedefined = true ∧
        ((interface = none ∨ interface = some ((g.target id).actor ++ ".Relationship")) ∧
            name = .named s.relationshipName ∨
          ∃ e ∈ g.relatedActors s, interface = some (g.relationshipOwner e.2) ∧
            name = .named e.1) := by
  cases hs : s.canonicalRelationshipRedefined with
  | false =>
    simp [canonicalRelationship, hs, inheritedRelationship, Decl.Property.explicit]
  | true =>
    simp [canonicalRelationship, hs, inheritedRelationship, redefinedRelationship,
      relatedRelationship, Decl.Property.explicit, or_assoc, or_and_right]

end Relationship

section Hierarchy
variable {id m : NodeId}

theorem offers_memberProperties : Offers (g.memberProperties id m) interface name ↔
    (interface = none ∨ g.arena.isCore id = false ∧ interface = some (g.coreHierarchy id)) ∧
      name = .named (g.memberName id m) := by
  cases hcore : g.arena.isCore id with
  | true => simp [memberProperties, hcore]
  | false => simp [memberProperties, hcore, Decl.Property.explicit, or_and_right]

theorem offers_composedMembers {n : NodeId} : Offers (g.composedMembers n) interface name ↔
    ∃ s, g.hierarchyState? n = some s ∧ ∃ m ∈ s.members,
      interface = some (g.arena.fullPath n) ∧ name = .named (g.memberName n m) := by
  cases hs : g.hierarchyState? n with
  | none => simp [composedMembers, hs]
  | some s => simp [composedMembers, hs, Decl.Property.explicit]

theorem offers_delimiterMethods {relatives : List NodeId} {d : Delimiter} :
    Offers (g.delimiterMethods id relatives d) interface name ↔
      (interface = none ∨ ∃ r ∈ relatives, g.delimits d.enumType r = true ∧
        interface = some (g.arena.fullPath r)) ∧ name = .named "OfType" := by
  simp [delimiterMethods, or_and_right, ← exists_and_right, and_assoc]

end Hierarchy

section Part

theorem withImplementation_spread (i : NodeId) (decl implementing : TypeDecl)
    (create : Decl.Method) : ∃ full hoisted,
      g.withImplementation i decl implementing create = .spread full hoisted ∧
        full.bases = decl.bases := by
  unfold withImplementation
  split
  · exact ⟨_, _, rfl, TypeDecl.bases_addMember _ _⟩
  · exact ⟨_, _, rfl, rfl⟩

/-- The method that creates a node changes neither the name of its declaration nor its bases. -/
theorem exists_face {i : NodeId} {decl implementing : TypeDecl} {create : Decl.Method}
    {part : Part} (h : g.withImplementation i decl implementing create = part) :
    ∃ full hoisted, part = .spread full hoisted ∧ full.name = decl.name ∧
      full.bases = decl.bases := by
  unfold withImplementation at h
  split at h
  · exact ⟨_, _, h.symm, rfl, rfl⟩
  · exact ⟨_, _, h.symm, rfl, rfl⟩

variable {i : NodeId} {decl implementing full : TypeDecl} {hoisted : List TypeDecl}

/-- The node is created through a method of its own. -/
def Creates (g : LinkGraph) (i : NodeId) (interface : Option String) (name : MemberName) : Prop :=
  (g.arena.isImplemented i && (g.arena.rootActor? i).isSome) = true ∧ interface = none ∧
    name = .named "Create"

theorem offers_withImplementation {implementation : Implementation} {modifiers : List Modifier}
    (h : g.withImplementation i decl implementing (g.createMethod i implementation modifiers) =
      .spread full hoisted) :
    Offers full.members interface name ↔
      Offers decl.members interface name ∨ g.Creates i interface name := by
  unfold withImplementation at h
  unfold Creates
  split at h
  · next himplemented =>
    cases h
    simp [himplemented, createMethod]
  · next himplemented =>
    cases h
    simp [himplemented]

end Part

end LinkGraph

end ActorLinks
