import ActorLinks.Proofs.Build.BaseCalls
import ActorLinks.Proofs.Build.HoistedNames
import ActorLinks.Proofs.Build.NestedTypes

/-! # Emitted classes

Classes stand directly in the declaration of an actor: its root class, those that are hoisted out of
the nodes below it, and its back link outside the core assembly. Further classes may be the
declaration of the actor itself and the types around it. All others are interfaces.
-/
namespace ActorLinks

namespace TypeDecl

/-- Declared with the keyword of classes. -/
def IsClass (d : TypeDecl) : Prop := d.kind.keyword = "class"

theorem isClass_of_kind {d : TypeDecl} (h : d.kind = .classType) : d.IsClass := by
  rw [IsClass, h]
  rfl

theorem not_isClass_of_kind {d : TypeDecl} (h : d.kind = .interface) : ¬ d.IsClass := by
  simp [IsClass, h, TypeKind.keyword]

/-- A type that stands in the declaration at any depth, with its path from there. -/
inductive HoldsAt : TypeDecl → String → TypeDecl → Prop
  | self (d : TypeDecl) : HoldsAt d "" d
  | nested {d e t : TypeDecl} {path : String} : Member.type e ∈ d.members → HoldsAt e path t →
      HoldsAt d ("." ++ e.name ++ path) t

end TypeDecl

theorem TypeDecl.Draft.eq_of_holdsAt {d t : TypeDecl} {kind : TypeKind} {path : String}
    (h : d.Draft kind) (ht : d.HoldsAt path t) : t = d ∧ path = "" := by
  cases ht with
  | self d => exact ⟨rfl, rfl⟩
  | nested hinner _ => exact absurd hinner h.leaves.not_mem

namespace LinkGraph

/-- In the declaration of the actor stands a class of this name. -/
def DeclaresClass (g : LinkGraph) (actor name : String) : Prop :=
  ∃ root ∈ g.roots, (g.target root).actor = actor ∧ ∃ own d, g.DeclaresItself root own ∧
    Member.type d ∈ own.members ∧ d.IsClass ∧ d.name = name

/-- The type of that path is declared as a class: an actor, what stands in its declaration, or a
type around that. -/
def EmitsClass (g : LinkGraph) (path : String) : Prop :=
  ∃ root ∈ g.roots, ∃ symbol own, g.actorSymbol? root = some symbol ∧ g.DeclaresItself root own ∧
    ((∃ rest d, own.HoldsAt rest d ∧ d.IsClass ∧ path = (g.target root).actor ++ rest) ∨
      ∃ name ∈ g.compilation.chain (·.containingType) symbol.containingType,
        (containerDecl g.compilation name own).IsClass ∧ path = name)

section
variable {c : Compilation} {sch : Schematic} {targets : List Target} {g : LinkGraph}
  {i root : NodeId} {d t : TypeDecl} {below : List Built} {name path : String}

theorem Grounded.exists_node_of_mem_classes (hg : Grounded c sch targets g)
    (h : (g.arena.children root).mapM g.buildNode = .ok below) (hd : d ∈ Built.classes below) :
    ∃ i ∈ g.classNodes root, g.ImplementationClass i d := by
  have hclasses := hg.classes_of_children h
  obtain ⟨n, hn, rfl⟩ := List.getElem_of_mem hd
  have hn' : n < (g.classNodes root).length := hclasses.length_eq ▸ hn
  exact ⟨(g.classNodes root)[n], List.getElem_mem hn', hclasses.get hn' hn⟩

theorem Grounded.exists_backLink (hg : Grounded c sch targets g) (hroot : root ∈ g.roots) :
    ∃ i, g.arena.backLinkOf? root = some i ∧ g.arena.parent? i = some root ∧
      g.arena.category i = .backLink := by
  obtain ⟨hlt, hk⟩ := hg.isActor_of_mem_roots hroot
  have hcategory : g.arena.category root ≠ .backLink := by
    rw [show g.arena.category root = .actor from beq_iff_eq.mp hk]
    simp
  obtain ⟨i, hi⟩ := hg.exists_backLinkOf? hlt hcategory
  exact ⟨i, hi, hg.backLinkOf?_eq_some.mp hi⟩

/-- The back link of an actor outside the core assembly is a class. -/
theorem Visits.exists_backLinkClass (hv : Visits (ofTargets c sch targets) g)
    (hvisited : g.isVisited = true) (hroot : root ∈ g.roots)
    (hcore : (g.target root).isCore = false) : ∃ i d, g.arena.parent? i = some root ∧
      g.DeclaredAs i d ∧ d.IsClass ∧ d.name = "BackLink<TSource>" := by
  obtain ⟨_, hk⟩ := hv.grounded.isActor_of_mem_roots hroot
  obtain ⟨i, _, hp, hback⟩ := hv.grounded.exists_backLink hroot
  obtain ⟨built, hbuilt⟩ := (hv.complete_of_isVisited hvisited).exists_buildNode hp
  obtain ⟨part, hpart, hrest⟩ := exists_of_buildNode hbuilt
  rw [hback] at hpart
  obtain ⟨_, s, q, _, _, hq, _, hcase⟩ := hv.exists_of_backLinkPart hpart
  obtain rfl := Option.some.inj (hp.symm.trans hq)
  have hclass : (!g.arena.isCore i && (g.arena.kind root).isActor) = true := by
    have hicore : g.arena.isCore i = false := by
      rw [← hv.grounded.target_of_parent hp] at hcore
      exact hcore
    rw [hicore, hk]
    rfl
  rcases hcase with ⟨_, rfl⟩ | ⟨hno, _⟩
  · obtain rfl := hrest
    exact ⟨i, _, hp, ⟨[], hbuilt⟩, TypeDecl.isClass_of_kind draft_backLinkClass.kind_eq,
      by simp [backLinkClass, TypeDecl.classNamed]⟩
  · rw [hclass] at hno
    cases hno

/-- The classes that stand in the declaration of an actor. -/
theorem Visits.declaresClass_iff (hv : Visits (ofTargets c sch targets) g)
    (hvisited : g.isVisited = true) (hroot : root ∈ g.roots) :
    g.DeclaresClass (g.target root).actor name ↔
      (g.target root).assembly = .rest ∧ name = linkBaseName ∨
      (∃ i ∈ g.classNodes root, name = g.arena.implementationType i) ∨
      (g.target root).isCore = false ∧ name = "BackLink<TSource>" := by
  have hg := hv.grounded
  obtain ⟨hlt, hk⟩ := hg.isActor_of_mem_roots hroot
  have hbase {s : ActorState} {as : List NodeId} (hat : g.ActorAt root s as) :
      (g.linkBase root s).name = linkBaseName :=
    (hv.implementationClass_linkBase hat).name_eq.trans (hg.implementationType_of_actor hlt hk)
  constructor
  · rintro ⟨root', hroot', hsame, own, d, hown, hd, hkind, rfl⟩
    obtain rfl := hg.eq_of_mem_roots hroot' hroot hsame
    obtain ⟨_, s, as, below, _, _, _, hat, hbelow, hmembers⟩ := hown.exists_standsIn
    -- the interfaces of the link and of its relationships are no classes
    rcases (hmembers d).mp hd with _ | hrest | _ | _ | ⟨hp, hdeclared⟩ | hclass
    · exact absurd hkind (TypeDecl.not_isClass_of_kind (by simp [linkInterface,
        TypeDecl.interfaceNamed]))
    · exact Or.inl ⟨hrest, hbase hat⟩
    · exact absurd hkind (TypeDecl.not_isClass_of_kind (by simp [relationshipInterface,
        TypeDecl.interfaceNamed]))
    · exact absurd hkind (TypeDecl.not_isClass_of_kind (by simp [canonicalRelationship,
        TypeDecl.interfaceNamed]))
    · rcases hv.kind_of_declaredAs hdeclared with hface | ⟨_, hname, _, _, _, hcore⟩
      · exact absurd hkind (TypeDecl.not_isClass_of_kind hface)
      · rw [← hg.target_of_parent hp]
        exact Or.inr (Or.inr ⟨hcore, hname⟩)
    · obtain ⟨i, hi, himplements⟩ := hg.exists_node_of_mem_classes hbelow hclass
      exact Or.inr (Or.inl ⟨i, hi, himplements.name_eq⟩)
  · obtain ⟨decl, hdecl⟩ :=
      (hv.complete_of_isVisited hvisited).exists_buildActor_of_mem_roots hg hroot false
    obtain ⟨_, own, _, _, hown⟩ := exists_declaresItself hdecl
    obtain ⟨_, s, as, below, _, _, _, hat, hbelow, hmembers⟩ := hown.exists_standsIn
    rintro (⟨hrest, rfl⟩ | ⟨i, hi, rfl⟩ | ⟨hcore, rfl⟩)
    · exact ⟨root, hroot, rfl, own, _, hown, (hmembers _).mpr (.linkBase hrest),
        TypeDecl.isClass_of_kind draft_linkBase.kind_eq, hbase hat⟩
    · obtain ⟨d, hd⟩ := hg.exists_class hbelow hi
      have hclass := (List.of_mem_zip hd).2
      exact ⟨root, hroot, rfl, own, d, hown, (hmembers d).mpr (.hoisted hclass),
        TypeDecl.isClass_of_kind (draft_of_mem_classes hbelow d hclass).kind_eq,
        ((List.forall₂_iff_zip.mp (hg.classes_of_children hbelow)).2 hd).name_eq⟩
    · obtain ⟨i, d, hp, hdeclared, hkind, hname⟩ := hv.exists_backLinkClass hvisited hroot hcore
      exact ⟨root, hroot, rfl, own, d, hown, (hmembers d).mpr (.node hp hdeclared), hkind, hname⟩

/-- Below a node no class is nested. -/
theorem Visits.eq_of_holdsAt (hv : Visits (ofTargets c sch targets) g) (h : g.DeclaredAs i d)
    (ht : d.HoldsAt path t) (hclass : t.IsClass) : t = d ∧ path = "" := by
  induction ht generalizing i with
  | self d => exact ⟨rfl, rfl⟩
  | nested hinner _ ih =>
    obtain ⟨n, hp, hdeclared⟩ := h.exists_child hinner
    obtain ⟨rfl, _⟩ := ih hdeclared hclass
    rcases hv.kind_of_declaredAs hdeclared with hface | ⟨_, _, p, hback, hactor, _⟩
    · exact absurd hclass (TypeDecl.not_isClass_of_kind hface)
    · obtain ⟨_, hbuilt⟩ := h
      obtain rfl := Option.some.inj ((hv.grounded.backLinkOf?_eq_some.mp hback).1.symm.trans hp)
      rw [not_isActor_of_buildNode hbuilt] at hactor
      cases hactor

/-- A class in the declaration of an actor is that itself, or stands directly in it. -/
theorem Visits.holdsAt_cases (hv : Visits (ofTargets c sch targets) g) {own : TypeDecl}
    (hown : g.DeclaresItself root own) (ht : own.HoldsAt path t) (hclass : t.IsClass) :
    path = "" ∨ Member.type t ∈ own.members ∧ path = "." ++ t.name := by
  cases ht with
  | self => exact Or.inl rfl
  | nested hinner hholds =>
    obtain ⟨_, s, as, below, _, _, _, _, hbelow, hmembers⟩ := hown.exists_standsIn
    suffices hsame : ∀ {e rest}, g.StandsIn root s as below e → e.HoldsAt rest t →
        t = e ∧ rest = "" by
      obtain ⟨rfl, rfl⟩ := hsame ((hmembers _).mp hinner) hholds
      exact Or.inr ⟨hinner, String.append_empty⟩
    intro e rest hstands hholds
    cases hstands with
    | link => exact draft_linkInterface.eq_of_holdsAt hholds
    | linkBase => exact draft_linkBase.eq_of_holdsAt hholds
    | relationship => exact draft_relationshipInterface.eq_of_holdsAt hholds
    | canonical => exact draft_canonicalRelationship.eq_of_holdsAt hholds
    | node _ hdeclared => exact hv.eq_of_holdsAt hdeclared hholds hclass
    | hoisted hmem => exact (draft_of_mem_classes hbelow _ hmem).eq_of_holdsAt hholds

theorem DeclaresClass.emitsClass {actor : String} (h : g.DeclaresClass actor name) :
    g.EmitsClass (actor ++ "." ++ name) := by
  obtain ⟨root, hroot, rfl, own, d, hown, hmember, hclass, rfl⟩ := h
  obtain ⟨symbol, _, _, _, hsymbol, _⟩ := hown.exists_standsIn
  refine ⟨root, hroot, symbol, own, hsymbol, hown, Or.inl ⟨"." ++ d.name, d, ?_, hclass, ?_⟩⟩
  · have hholds := TypeDecl.HoldsAt.nested hmember (.self d)
    rwa [String.append_empty] at hholds
  · rw [String.append_assoc]

/-- An emitted class has the name of an actor, of a type around one, or stands in the declaration of
an actor. -/
theorem Visits.emitsClass_cases (hv : Visits (ofTargets c sch targets) g)
    (h : g.EmitsClass path) : ∃ root ∈ g.roots, path = (g.target root).actor ∨
      (∃ symbol, g.actorSymbol? root = some symbol ∧
        path ∈ g.compilation.chain (·.containingType) symbol.containingType) ∨
      ∃ name, g.DeclaresClass (g.target root).actor name ∧
        path = (g.target root).actor ++ "." ++ name := by
  obtain ⟨root, hroot, symbol, own, hsymbol, hown, ⟨rest, d, hholds, hclass, rfl⟩ |
    ⟨name, hname, _, rfl⟩⟩ := h
  · refine ⟨root, hroot, ?_⟩
    rcases hv.holdsAt_cases hown hholds hclass with rfl | ⟨hmember, rfl⟩
    · exact Or.inl String.append_empty
    · refine Or.inr (Or.inr ⟨d.name, ⟨root, hroot, rfl, own, d, hown, hmember, hclass, rfl⟩, ?_⟩)
      rw [String.append_assoc]
  · exact ⟨root, hroot, Or.inr (Or.inl ⟨symbol, hsymbol, hname⟩)⟩

end

end LinkGraph

end ActorLinks
