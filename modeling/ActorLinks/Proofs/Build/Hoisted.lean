import ActorLinks.Proofs.Build.Explicit
import Mathlib.Data.List.Flatten

/-! # Hoisted classes

The implementation classes below an actor are hoisted to its level, in the order of the nodes. A
node's class has the constructor that the node's state records, and goes below the class of another
node: that of a link type below the same place of the base actor or else below the root class, any
other below that of the nearest implemented parent.
-/
namespace ActorLinks

def Member.constructor? : Member → Option Decl.Constructor
  | leaf (.constructor d) => some d
  | _ => none

namespace TypeDecl

def constructors (d : TypeDecl) : List Decl.Constructor := d.members.filterMap Member.constructor?

theorem constructors_addMember (d : TypeDecl) (m : Member) :
    (d.addMember m).constructors = m.constructor?.toList.foldl appendNew d.constructors := by
  unfold constructors addMember
  have hmem (c : Decl.Constructor) : c ∈ d.members.filterMap Member.constructor? ↔
      Member.leaf (.constructor c) ∈ d.members := by
    rw [List.mem_filterMap]
    constructor
    · rintro ⟨k, hk, hc⟩
      unfold Member.constructor? at hc
      split at hc
      · cases hc
        exact hk
      · cases hc
    · exact fun h => ⟨_, h, rfl⟩
  cases hc : m.constructor? with
  | none =>
    unfold appendNew
    split
    · rfl
    · simp [hc]
  | some c =>
    have hm : m = .leaf (.constructor c) := by
      unfold Member.constructor? at hc
      split at hc
      · cases hc
        rfl
      · cases hc
    unfold appendNew
    simp only [Option.toList_some, List.foldl_cons, List.foldl_nil, hmem, hm]
    split
    · rfl
    · simp [Member.constructor?]

theorem constructors_addMembers (d : TypeDecl) (ms : List Member) :
    (d.addMembers ms).constructors
      = (ms.filterMap Member.constructor?).foldl appendNew d.constructors := by
  induction ms generalizing d with
  | nil => rfl
  | cons m ms ih =>
    refine (ih (d.addMember m)).trans ?_
    rw [constructors_addMember, ← List.foldl_append, List.filterMap_cons]
    cases m.constructor? <;> rfl

theorem constructors_addMembers_of_none {d : TypeDecl} {ms : List Member}
    (h : ∀ m ∈ ms, m.constructor? = none) : (d.addMembers ms).constructors = d.constructors := by
  rw [constructors_addMembers, List.filterMap_eq_nil_iff.mpr h, List.foldl_nil]

theorem constructors_addMembers_constructorMembers {d : TypeDecl} (h : d.constructors = [])
    (i : Implementation) :
    (d.addMembers i.constructorMembers).constructors = i.constructors.decl?.toList := by
  rw [constructors_addMembers, h, Implementation.constructorMembers]
  cases i.constructors.decl? <;> simp [Member.constructor?, appendNew]

end TypeDecl

theorem Implementation.constructor?_of_mem_propertyMembers {i : Implementation} {m : Member}
    (h : m ∈ i.propertyMembers) : m.constructor? = none := by
  obtain ⟨p, _, rfl⟩ := List.mem_map.mp h
  rfl

namespace LinkGraph

/-- The node whose class the class of a node goes below. -/
def classBase? (g : LinkGraph) (i : NodeId) : Option NodeId :=
  match g.arena.category i with
  | .actor => (g.actorState? i).bind (·.baseActor)
  | .linkType => (g.linkTypeState? i).bind fun s => s.implementationBase.or (g.arena.rootActor? i)
  | .extension | .hierarchy | .backLink => g.arena.implementedParent? i

/-- The class of the node is hoisted, if its part takes in the children. -/
def hoists (g : LinkGraph) (i : NodeId) : Bool :=
  g.arena.isImplemented i && (g.arena.rootActor? i).isSome

/-- How the class of a node is referred to. -/
def classPath (g : LinkGraph) (i : NodeId) : String :=
  (g.target i).actor ++ "." ++ g.arena.implementationType i

/-- The node's class, with the constructor of the node's state. -/
structure ImplementationClass (g : LinkGraph) (i : NodeId) (d : TypeDecl) : Prop where
  name_eq : d.name = g.arena.implementationType i
  head_bases : ∀ b, g.classBase? i = some b → d.bases.head? = some (g.classPath b)
  constructors_eq : ∃ v, g.state? i = some v ∧
    d.constructors = v.detail.implementation.constructors.decl?.toList

section
variable {g : LinkGraph} {i : NodeId} {decl : TypeDecl} {hoisted : List TypeDecl}

@[simp] theorem name_implementationClass (first : Option String) :
    (g.implementationClass i first).name = g.arena.implementationType i := by
  unfold implementationClass
  cases first <;> simp [TypeDecl.classNamed]

@[simp] theorem constructors_implementationClass (first : Option String) :
    (g.implementationClass i first).constructors = [] := by
  unfold implementationClass TypeDecl.constructors
  cases first <;> simp [TypeDecl.classNamed]

theorem head_bases_implementationClass (base : String) :
    (g.implementationClass i (some base)).bases.head? = some base := by
  unfold implementationClass
  rw [TypeDecl.bases_addConstraints]
  rfl

theorem hoisted_of_withImplementation {implementing full : TypeDecl} {create : Decl.Method}
    (h : g.withImplementation i decl implementing create = .spread full hoisted) :
    hoisted = if g.hoists i then [implementing] else [] := by
  unfold withImplementation at h
  split at h
  · next hhoists =>
    cases h
    exact (if_pos hhoists).symm
  · next hhoists =>
    cases h
    exact (if_neg hhoists).symm

theorem exists_withImplementation {implementing : TypeDecl} {create : Decl.Method} {part : Part}
    (h : g.withImplementation i decl implementing create = part) :
    ∃ full hoisted, part = .spread full hoisted := by
  unfold withImplementation at h
  split at h
  · exact ⟨_, _, h.symm⟩
  · exact ⟨_, _, h.symm⟩

section Parts
variable {c : Compilation} {sch : Schematic} {targets : List Target} (hg : Grounded c sch targets g)
include hg

theorem Grounded.isActor_of_actor {name : String} (hi : g.actor? name = some i) :
    i < g.arena.size ∧ (g.arena.kind i).isActor = true := by
  obtain ⟨hp, hshows⟩ := hg.root_of_actor hi
  exact ⟨hshows.lt_size, (hg.nested.isActor_iff hshows.lt_size).mpr hp⟩

theorem Grounded.isActor_of_mem_roots (hi : i ∈ g.roots) :
    i < g.arena.size ∧ (g.arena.kind i).isActor = true := by
  obtain ⟨name, hname⟩ := mem_roots_iff.mp hi
  exact hg.isActor_of_actor hname

theorem Grounded.implementationType_of_actor (hi : i < g.arena.size)
    (hk : (g.arena.kind i).isActor = true) : g.arena.implementationType i = linkBaseName := by
  have hparents := Arena.parents_of_none ((hg.nested.isActor_iff hi).mp hk)
  cases hkind : g.arena.kind i with
  | actor symbol =>
    simp [Arena.implementationType, Arena.withGenerics, Arena.generics, Arena.className, hparents,
      hkind, withTypeParameters, linkBaseName]
  | _ => simp [hkind, NodeKind.isActor, NodeKind.category] at hk

theorem Grounded.classPath_of_rootActor? {root : NodeId} (h : g.arena.rootActor? i = some root) :
    g.classPath root = (g.target root).actor ++ ".__LinkBase" := by
  have hk : (g.arena.kind root).isActor = true :=
    List.find?_some (p := fun p => (g.arena.kind p).isActor) h
  rw [classPath, hg.implementationType_of_actor
    (Arena.lt_size_of_mem_parents (List.mem_of_find?_eq_some h)) hk, String.append_assoc]
  rfl

theorem Grounded.hoisted_of_linkTypePart (hk : g.arena.category i = .linkType)
    (h : g.linkTypePart i = .ok (.spread decl hoisted)) : ∃ d, g.ImplementationClass i d ∧
      hoisted = if g.hoists i then [d] else [] := by
  obtain ⟨v, hv, hrest⟩ := Failure.bind_eq_ok_iff.mp h
  split at hrest
  · next s k e hs _ =>
    simp only at hrest
    split at hrest
    · cases hrest
    · refine ⟨_, ?_, hoisted_of_withImplementation (Except.ok.inj hrest)⟩
      obtain ⟨w, hw, hdetail⟩ := linkTypeState?_eq_some.mp hs
      refine ⟨by simp, fun b hb => ?_, w, hw, ?_⟩
      · rw [classBase?, hk] at hb
        simp only [hs, Option.bind_some] at hb
        simp only [TypeDecl.bases_addMembers, head_bases_implementationClass, linkTypeFirstBase]
        cases hbase : s.implementationBase with
        | some base =>
          rw [hbase] at hb
          cases hb
          rfl
        | none =>
          rw [hbase, Option.none_or] at hb
          rw [hg.classPath_of_rootActor? hb, hb]
          rfl
      · rw [hdetail]
        refine TypeDecl.constructors_addMembers_constructorMembers ?_ _
        rw [TypeDecl.constructors_addMembers_of_none fun _ =>
          Implementation.constructor?_of_mem_propertyMembers, constructors_implementationClass]
  · cases hrest

theorem Grounded.implementedParentType?_eq :
    g.implementedParentType? i = (g.arena.implementedParent? i).map g.classPath := by
  unfold implementedParentType?
  refine Option.map_congr fun p hp => ?_
  rw [classPath, hg.target_of_mem_parents (List.mem_of_find?_eq_some hp)]

/-- The class of an extension, a hierarchy or a back link. -/
theorem Grounded.implementationClass_of_parent {d : TypeDecl} {v : NodeState}
    (hk : g.classBase? i = g.arena.implementedParent? i)
    (hname : d.name = g.arena.implementationType i)
    (hbases : d.bases = (g.implementationClass i (g.implementedParentType? i)).bases)
    (hv : g.state? i = some v)
    (hconstructors : d.constructors = v.detail.implementation.constructors.decl?.toList) :
    g.ImplementationClass i d := by
  refine ⟨hname, fun b hb => ?_, v, hv, hconstructors⟩
  rw [hbases, hg.implementedParentType?_eq, ← hk, hb, Option.map_some,
    head_bases_implementationClass]

theorem Grounded.hoisted_of_extensionPart (hk : g.arena.category i = .extension)
    (h : g.extensionPart i = .ok (.spread decl hoisted)) : ∃ d, g.ImplementationClass i d ∧
      hoisted = if g.hoists i then [d] else [] := by
  obtain ⟨v, hv, hrest⟩ := Failure.bind_eq_ok_iff.mp h
  split at hrest
  · next s symbol hs _ =>
    refine ⟨_, ?_, hoisted_of_withImplementation (Except.ok.inj hrest)⟩
    obtain ⟨w, hw, hdetail⟩ := extensionState?_eq_some.mp hs
    refine hg.implementationClass_of_parent (by rw [classBase?, hk]) ?_ ?_ hw ?_
    · simp [extensionClass]
    · simp [extensionClass]
    · have hanswers : ∀ m ∈ (ownProperties s).filterMap fun p =>
          (g.nearestDefinition i p (g.inheritedProperties i)).map fun e =>
            (g.explicitProperty e.1 e.2 : Member), m.constructor? = none := by
        intro m hm
        obtain ⟨p, _, hp⟩ := List.mem_filterMap.mp hm
        obtain ⟨e, _, rfl⟩ := Option.map_eq_some_iff.mp hp
        rfl
      rw [hdetail]
      refine TypeDecl.constructors_addMembers_constructorMembers ?_ _
      rw [TypeDecl.constructors_addMembers_of_none hanswers,
        TypeDecl.constructors_addMembers_of_none fun _ =>
          Implementation.constructor?_of_mem_propertyMembers, constructors_implementationClass]
  · cases hrest

theorem Grounded.hoisted_of_hierarchyPart (hk : g.arena.category i = .hierarchy)
    (h : g.hierarchyPart i = .ok (.spread decl hoisted)) : ∃ d, g.ImplementationClass i d ∧
      hoisted = if g.hoists i then [d] else [] := by
  obtain ⟨v, hv, hrest⟩ := Failure.bind_eq_ok_iff.mp h
  split at hrest
  · cases hrest
  · next s hs =>
    split at hrest
    · cases hrest
    · refine ⟨_, ?_, hoisted_of_withImplementation (Except.ok.inj hrest)⟩
      obtain ⟨w, hw, hdetail⟩ := hierarchyState?_eq_some.mp hs
      refine hg.implementationClass_of_parent (by rw [classBase?, hk]) ?_ ?_ hw ?_
      · simp [hierarchyClass]
      · simp [hierarchyClass]
      · rw [hdetail]
        refine TypeDecl.constructors_addMembers_constructorMembers ?_ _
        rw [TypeDecl.constructors_addMembers_of_none ?_, constructors_implementationClass]
        intro m hm
        obtain ⟨p, _, hp⟩ := List.mem_flatMap.mp hm
        simp only [List.mem_cons, List.not_mem_nil, or_false] at hp
        rcases hp with rfl | rfl
        · rfl
        · rfl

theorem Grounded.hoisted_of_backLinkPart (hk : g.arena.category i = .backLink)
    (h : g.backLinkPart i = .ok (.spread decl hoisted)) : ∃ d, g.ImplementationClass i d ∧
      hoisted = if g.hoists i then [d] else [] := by
  obtain ⟨v, hv, hrest⟩ := Failure.bind_eq_ok_iff.mp h
  split at hrest
  · cases hrest
  · next s hs =>
    obtain ⟨parent, _, hrest⟩ := Failure.bind_eq_ok_iff.mp hrest
    split at hrest
    · cases hrest
    · refine ⟨_, ?_, hoisted_of_withImplementation (Except.ok.inj hrest)⟩
      obtain ⟨w, hw, hdetail⟩ := backLinkState?_eq_some.mp hs
      refine hg.implementationClass_of_parent (by rw [classBase?, hk]) ?_ ?_ hw ?_
      · simp [backLinkImplementation]
      · simp [backLinkImplementation]
      · rw [hdetail]
        refine TypeDecl.constructors_addMembers_constructorMembers ?_ _
        refine (TypeDecl.constructors_addMembers_of_none (List.forall_mem_singleton.mpr ?_)).trans ?_
        · rfl
        · rw [TypeDecl.constructors_addMembers_of_none fun _ =>
            Implementation.constructor?_of_mem_propertyMembers]
          exact constructors_implementationClass _

/-- A part that takes in its children hoists the class of its node, if that is implemented. -/
theorem Grounded.hoisted_of_partAs
    (h : g.partAs (g.arena.category i) i = .ok (.spread decl hoisted)) :
    ∃ d, g.ImplementationClass i d ∧ hoisted = if g.hoists i then [d] else [] := by
  cases hk : g.arena.category i with
  | actor =>
    rw [hk] at h
    cases h
  | linkType =>
    rw [hk] at h
    exact hg.hoisted_of_linkTypePart hk h
  | extension =>
    rw [hk] at h
    exact hg.hoisted_of_extensionPart hk h
  | hierarchy =>
    rw [hk] at h
    exact hg.hoisted_of_hierarchyPart hk h
  | backLink =>
    rw [hk] at h
    exact hg.hoisted_of_backLinkPart hk h

end Parts

end

/-- The nodes from `i` down whose parts take in their children. -/
def spreadNodes (g : LinkGraph) (i : NodeId) : List NodeId :=
  match g.partAs (g.arena.category i) i with
  | .ok (.spread _ _) => i :: (g.arena.children i).attach.flatMap fun c => g.spreadNodes c.1
  | _ => []
  termination_by g.arena.size - i
  decreasing_by have := Arena.lt_of_mem_children c.2; omega

/-- The nodes below an actor whose classes are hoisted to its level. -/
def classNodes (g : LinkGraph) (root : NodeId) : List NodeId :=
  ((g.arena.children root).flatMap g.spreadNodes).filter g.hoists

section
variable {g : LinkGraph} {i : NodeId}

theorem spreadNodes_of_spread {decl : TypeDecl} {hoisted : List TypeDecl}
    (h : g.partAs (g.arena.category i) i = .ok (.spread decl hoisted)) :
    g.spreadNodes i = i :: (g.arena.children i).flatMap g.spreadNodes := by
  rw [spreadNodes, h]
  simp only
  rw [List.flatMap_subtype (g := g.spreadNodes) (by intros; rfl), List.unattach_attach]

/-- The part of the node is declared and takes in its children. -/
def Spreads (g : LinkGraph) (i : NodeId) : Prop :=
  ∃ decl hoisted, g.partAs (g.arena.category i) i = .ok (.spread decl hoisted)

theorem mem_spreadNodes_iff {n : NodeId} : n ∈ g.spreadNodes i ↔
    g.Spreads i ∧ (n = i ∨ ∃ c ∈ g.arena.children i, n ∈ g.spreadNodes c) := by
  by_cases hspreads : g.Spreads i
  · obtain ⟨_, _, hpart⟩ := id hspreads
    rw [spreadNodes_of_spread hpart, List.mem_cons, List.mem_flatMap, and_iff_right hspreads]
  · have hnil : g.spreadNodes i = [] := by
      rw [spreadNodes]
      split
      · next decl hoisted hpart => exact absurd ⟨decl, hoisted, hpart⟩ hspreads
      · rfl
    simp [hnil, hspreads]

theorem mem_spreadNodes_self (h : g.Spreads i) : i ∈ g.spreadNodes i :=
  mem_spreadNodes_iff.mpr ⟨h, Or.inl rfl⟩

theorem mem_spreadNodes_child {j n : NodeId} (h : j ∈ g.spreadNodes i)
    (hp : g.arena.parent? n = some j) (hn : g.Spreads n) : n ∈ g.spreadNodes i := by
  induction i using Arena.children_induction (a := g.arena) with
  | node i ih =>
    obtain ⟨hi, hcase⟩ := mem_spreadNodes_iff.mp h
    refine mem_spreadNodes_iff.mpr ⟨hi, Or.inr ?_⟩
    rcases hcase with rfl | ⟨c, hc, hj⟩
    · exact ⟨n, Arena.mem_children_iff.mpr hp, mem_spreadNodes_self hn⟩
    · exact ⟨c, hc, ih c hc hj⟩

/-- Above a node that takes in its children stand, down from where one starts, only such nodes. -/
theorem spreads_of_mem_spreadNodes {n : NodeId} (h : n ∈ g.spreadNodes i) :
    g.Spreads n ∧ (n = i ∨ ∃ p, g.arena.parent? n = some p ∧ p ∈ g.spreadNodes i) := by
  induction i using Arena.children_induction (a := g.arena) with
  | node i ih =>
    obtain ⟨hi, rfl | ⟨c, hc, hn⟩⟩ := mem_spreadNodes_iff.mp h
    · exact ⟨hi, Or.inl rfl⟩
    · obtain ⟨hspreads, hcase⟩ := ih c hc hn
      refine ⟨hspreads, Or.inr ?_⟩
      rcases hcase with rfl | ⟨p, hp, hmem⟩
      · exact ⟨i, Arena.mem_children_iff.mp hc, mem_spreadNodes_self hi⟩
      · exact ⟨p, hp, mem_spreadNodes_iff.mpr ⟨hi, Or.inr ⟨c, hc, hmem⟩⟩⟩

theorem spreadNodes_sublist (g : LinkGraph) (i : NodeId) :
    (g.spreadNodes i).Sublist (g.arena.descendants i) := by
  induction i using Arena.children_induction (a := g.arena) with
  | node i ih =>
    cases hpart : g.partAs (g.arena.category i) i with
    | error e => simp [spreadNodes, hpart]
    | ok part =>
      cases part with
      | nothing => simp [spreadNodes, hpart]
      | closed decl => simp [spreadNodes, hpart]
      | spread decl hoisted =>
        rw [spreadNodes_of_spread hpart, Arena.descendants_eq]
        exact .cons_cons i (List.Sublist.flatMap_right _ ih)

theorem classNodes_sublist (g : LinkGraph) (root : NodeId) : (g.classNodes root).Sublist
    ((g.arena.children root).flatMap g.arena.descendants) :=
  List.filter_sublist.trans (List.Sublist.flatMap_right _ fun n _ => g.spreadNodes_sublist n)

/-- The class of a node is hoisted, if everything on the way from the actor is declared. -/
theorem mem_classNodes {root : NodeId} (hn : g.arena.Nested)
    (hroot : g.arena.rootActor? i = some root) (hhoists : g.hoists i = true)
    (h : ∀ n ∈ i :: g.arena.parents i, (g.arena.kind n).isActor = false → g.Spreads n) :
    i ∈ g.classNodes root := by
  refine List.mem_filter.mpr ⟨?_, hhoists⟩
  clear hhoists
  induction i using Nat.strongRecOn with
  | ind i ih =>
    have hi : g.Spreads i := h i List.mem_cons_self (hn.isActor_of_rootActor? hroot)
    cases hp : g.arena.parent? i with
    | none => simp [Arena.rootActor?, Arena.parents_of_none hp] at hroot
    | some p =>
      rw [Arena.parents_of_some hp] at h
      cases hk : (g.arena.kind p).isActor with
      | true =>
        obtain rfl := Option.some.inj ((Arena.rootActor?_of_actor hp hk).symm.trans hroot)
        exact List.mem_flatMap.mpr ⟨i, Arena.mem_children_iff.mpr hp, mem_spreadNodes_self hi⟩
      | false =>
        rw [Arena.rootActor?_of_parent hp hk] at hroot
        obtain ⟨c, hc, hmem⟩ := List.mem_flatMap.mp (ih p (Arena.lt_of_parent hp) hroot
          fun n hmem => h n (List.mem_cons_of_mem _ hmem))
        exact List.mem_flatMap.mpr ⟨c, hc, mem_spreadNodes_child hmem hp hi⟩

/-- The class of no other node is hoisted. -/
theorem spreads_of_mem_classNodes {root : NodeId} (hk : (g.arena.kind root).isActor = true)
    (hn : g.arena.Nested) (h : i ∈ g.classNodes root) : g.arena.rootActor? i = some root ∧
      g.hoists i = true ∧
        ∀ n ∈ i :: g.arena.parents i, (g.arena.kind n).isActor = false → g.Spreads n := by
  obtain ⟨hbelow, hhoists⟩ := List.mem_filter.mp h
  obtain ⟨c, hc, hmem⟩ := List.mem_flatMap.mp hbelow
  have hcp := Arena.mem_children_iff.mp hc
  suffices hspine : g.arena.rootActor? i = some root ∧
      ∀ n ∈ i :: g.arena.parents i, (g.arena.kind n).isActor = false → g.Spreads n from
    ⟨hspine.1, hhoists, hspine.2⟩
  -- that the node itself is hoisted does not hold of the nodes above, so it stays out of the
  -- induction
  clear h hhoists hbelow
  induction i using Nat.strongRecOn with
  | ind i ih =>
    obtain ⟨hspreads, rfl | ⟨p, hp, hpmem⟩⟩ := spreads_of_mem_spreadNodes hmem
    · have horphan : g.arena.parent? root = none := (hn.isActor_iff
        (Nat.lt_trans (Arena.lt_of_parent hcp) (Arena.lt_size_of_parent hcp))).mp hk
      refine ⟨Arena.rootActor?_of_actor hcp hk, fun n hn hactor => ?_⟩
      rw [Arena.parents_of_some hcp, Arena.parents_of_none horphan] at hn
      simp only [List.mem_cons, List.not_mem_nil, or_false] at hn
      rcases hn with rfl | rfl
      · exact hspreads
      · rw [hk] at hactor
        cases hactor
    · obtain ⟨hroot, habove⟩ := ih p (Arena.lt_of_parent hp) hpmem
      refine ⟨(Arena.rootActor?_of_parent hp (hn.isActor_of_rootActor? hroot)).trans hroot,
        fun n hn hactor => ?_⟩
      rw [Arena.parents_of_some hp] at hn
      rcases List.mem_cons.mp hn with rfl | hn
      · exact hspreads
      · exact habove n hn hactor

/-- A link type is declared where its assembly has an interface for it. -/
theorem Complete.spreads_linkType (h : g.Complete) (hi : i < g.arena.size)
    (hk : g.arena.category i = .linkType)
    (ht : (!(g.target i).isCore && (g.target i).assemblyLinkType.isNone) = false) :
    g.Spreads i := by
  obtain ⟨part, hpart⟩ := h.exists_linkTypePart hi hk
  obtain ⟨v, _, hrest⟩ := Failure.bind_eq_ok_iff.mp (id hpart)
  split at hrest
  · simp only [ht, Bool.false_eq_true, if_false] at hrest
    obtain ⟨decl, hoisted, hspread⟩ := exists_withImplementation (Except.ok.inj hrest)
    exact ⟨decl, hoisted, by rw [hk, ← hspread]; exact hpart⟩
  · cases hrest

theorem not_spreads_linkType (hk : g.arena.category i = .linkType)
    (ht : (!(g.target i).isCore && (g.target i).assemblyLinkType.isNone) = true) :
    ¬ g.Spreads i := by
  rintro ⟨decl, hoisted, hpart⟩
  rw [hk] at hpart
  obtain ⟨v, _, hrest⟩ := Failure.bind_eq_ok_iff.mp hpart
  split at hrest
  · simp only [ht, if_true] at hrest
    cases hrest
  · cases hrest

theorem Complete.spreads_extension (h : g.Complete) (hi : i < g.arena.size)
    (hk : g.arena.category i = .extension) : g.Spreads i := by
  obtain ⟨part, hpart⟩ := h.exists_extensionPart hi hk
  obtain ⟨v, _, hrest⟩ := Failure.bind_eq_ok_iff.mp (id hpart)
  split at hrest
  · obtain ⟨decl, hoisted, hspread⟩ := exists_withImplementation (Except.ok.inj hrest)
    exact ⟨decl, hoisted, by rw [hk, ← hspread]; exact hpart⟩
  · cases hrest

variable {c : Compilation} {sch : Schematic} {targets : List Target}

/-- The classes of several nodes stand one after the other. -/
theorem forall₂_classes {ids : List NodeId} {below : List Built}
    (hbelow : List.Forall₂ (fun n b => g.buildNode n = .ok b) ids below)
    (h : ∀ n ∈ ids, ∀ b, g.buildNode n = .ok b →
      List.Forall₂ g.ImplementationClass ((g.spreadNodes n).filter g.hoists) b.hoisted) :
    List.Forall₂ g.ImplementationClass ((ids.flatMap g.spreadNodes).filter g.hoists)
      (Built.classes below) := by
  induction hbelow with
  | nil => exact .nil
  | cons hb _ ih =>
    rw [List.flatMap_cons, List.filter_append]
    exact List.rel_append (h _ List.mem_cons_self _ hb)
      (ih fun n hn => h n (List.mem_cons_of_mem _ hn))

/-- A node is built from its part, and if that takes in the children, from what is built of them. -/
theorem exists_of_buildNode {b : Built} (h : g.buildNode i = .ok b) :
    ∃ part, g.partAs (g.arena.category i) i = .ok part ∧
      match part with
      | .nothing => b = ⟨none, []⟩
      | .closed decl => b = ⟨some decl, []⟩
      | .spread decl hoisted => ∃ below, (g.arena.children i).mapM g.buildNode = .ok below ∧
        b = ⟨some (decl.addMembers (Built.members below)), hoisted ++ Built.classes below⟩ := by
  unfold buildNode buildChildAs at h
  obtain ⟨part, hpart, hrest⟩ := Failure.bind_eq_ok_iff.mp h
  refine ⟨part, hpart, ?_⟩
  cases part with
  | nothing => exact (Except.ok.inj hrest).symm
  | closed decl => exact (Except.ok.inj hrest).symm
  | spread decl hoisted =>
    obtain ⟨below, hbelow, hb⟩ := Failure.bind_eq_ok_iff.mp hrest
    refine ⟨below, ?_, (Except.ok.inj hb).symm⟩
    rw [← List.unattach_attach (l := g.arena.children i), List.mapM_unattach]
    exact hbelow

/-- What is hoisted are the classes of the nodes whose parts are built, in order. -/
theorem Grounded.hoisted_of_buildNode (hg : Grounded c sch targets g) {b : Built}
    (h : g.buildNode i = .ok b) :
    List.Forall₂ g.ImplementationClass ((g.spreadNodes i).filter g.hoists) b.hoisted := by
  induction i using Arena.children_induction (a := g.arena) generalizing b with
  | node i ih =>
    obtain ⟨part, hpart, hrest⟩ := exists_of_buildNode h
    cases part with
    | nothing =>
      obtain rfl := hrest
      rw [spreadNodes, hpart]
      exact .nil
    | closed decl =>
      obtain rfl := hrest
      rw [spreadNodes, hpart]
      exact .nil
    | spread decl hoisted =>
      obtain ⟨below, hchildren, rfl⟩ := hrest
      obtain ⟨d, hd, rfl⟩ := hg.hoisted_of_partAs hpart
      have hbelow := forall₂_classes (Failure.forall₂_of_mapM hchildren) fun n hn b hb => ih n hn hb
      rw [spreadNodes_of_spread hpart, List.filter_cons]
      show List.Forall₂ _ _ ((if g.hoists i then [d] else []) ++ Built.classes below)
      split
      · exact .cons hd hbelow
      · exact hbelow

theorem Grounded.classes_of_children (hg : Grounded c sch targets g) {root : NodeId}
    {below : List Built} (h : (g.arena.children root).mapM g.buildNode = .ok below) :
    List.Forall₂ g.ImplementationClass (g.classNodes root) (Built.classes below) :=
  forall₂_classes (Failure.forall₂_of_mapM h) fun _ _ _ hb => hg.hoisted_of_buildNode hb

theorem Grounded.exists_class (hg : Grounded c sch targets g) {root : NodeId} {below : List Built}
    (h : (g.arena.children root).mapM g.buildNode = .ok below) (hi : i ∈ g.classNodes root) :
    ∃ d, (i, d) ∈ (g.classNodes root).zip (Built.classes below) := by
  obtain ⟨n, hn, rfl⟩ := List.getElem_of_mem hi
  have hn' : n < (Built.classes below).length := (hg.classes_of_children h).length_eq ▸ hn
  refine ⟨(Built.classes below)[n], List.mem_iff_getElem.mpr ⟨n, ?_, List.getElem_zip⟩⟩
  rw [List.length_zip]
  exact Nat.lt_min.mpr ⟨hn, hn'⟩

/-- The declaration of an actor takes in its root class and the hoisted ones. -/
theorem exists_own_of_buildActor {decl : TypeDecl} {treeView : Bool}
    (h : g.buildActor i treeView = .ok decl) : ∃ s as own below, g.ActorAt i s as ∧
      (g.arena.children i).mapM g.buildNode = .ok below ∧ decl.Contains own ∧
      ((g.target i).assembly = .rest → Member.type (g.linkBase i s) ∈ own.members) ∧
      ∀ d ∈ Built.classes below, Member.type d ∈ own.members := by
  obtain ⟨s, as, symbol, below, hat, _, hbelow, rfl⟩ := exists_of_buildActor h
  refine ⟨s, as, _, below, hat, hbelow, contains_wrapInContainers _ _ _, fun hrest => ?_,
    fun d hd => ?_⟩
  · simp [actorDecl, hrest]
  · simp [hd]

end

end LinkGraph

end ActorLinks
