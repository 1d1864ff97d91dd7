import ActorLinks.Proofs.Decl.Edits

/-! # Drafts

Before it takes in the types that stand in it, a declaration is a draft: an empty declaration that
is not partial, edited by bases, constraints and members without any type among them. Whatever the
edits are, nothing is listed twice, and no base is empty.
-/
namespace ActorLinks

/-- No type stands among the members. -/
def Leaves (ms : List Member) : Prop := ∀ m ∈ ms, m.type? = none

section Leaves
variable {α : Type} {ms ns : List Member} {d : TypeDecl}

theorem Leaves.not_mem (h : Leaves ms) : Member.type d ∉ ms := fun hd => nomatch h _ hd

@[simp] theorem leaves_nil : Leaves [] := fun _ hm => nomatch hm

@[simp] theorem leaves_cons {m : Member} : Leaves (m :: ms) ↔ m.type? = none ∧ Leaves ms :=
  List.forall_mem_cons

@[simp] theorem leaves_append : Leaves (ms ++ ns) ↔ Leaves ms ∧ Leaves ns :=
  List.forall_mem_append

@[simp] theorem leaves_map {xs : List α} {f : α → Member} :
    Leaves (xs.map f) ↔ ∀ x ∈ xs, (f x).type? = none :=
  List.forall_mem_map

@[simp] theorem leaves_flatMap {xs : List α} {f : α → List Member} :
    Leaves (xs.flatMap f) ↔ ∀ x ∈ xs, Leaves (f x) := by
  simp only [Leaves, List.mem_flatMap, forall_exists_index, and_imp]
  exact ⟨fun h x hx m hm => h m x hx hm, fun h m x hx hm => h x hx m hm⟩

@[simp] theorem leaves_ite {c : Prop} [Decidable c] :
    Leaves (if c then ms else ns) ↔ (c → Leaves ms) ∧ (¬c → Leaves ns) := by
  split <;> simp [*]

@[simp] theorem type?_leaf (l : Decl.Leaf) : (Member.leaf l).type? = none := rfl

namespace TypeDecl

@[simp] theorem leaves_addMember {m : Member} :
    Leaves (d.addMember m).members ↔ Leaves d.members ∧ m.type? = none := by
  simp [Leaves, or_imp, forall_and]

@[simp] theorem leaves_addMembers :
    Leaves (d.addMembers ms).members ↔ Leaves d.members ∧ Leaves ms := by
  simp [Leaves, or_imp, forall_and]

end TypeDecl

end Leaves

namespace TypeDecl
variable {d : TypeDecl} {kind : TypeKind}

/-- Nothing is listed twice, and no base is empty. -/
structure Clean (d : TypeDecl) : Prop extends d.Tidy where
  named : "" ∉ d.bases

section Clean

theorem clean_iff : d.Clean ↔
    d.bases.Nodup ∧ d.constraints.Nodup ∧ d.members.Nodup ∧ "" ∉ d.bases :=
  ⟨fun h => ⟨h.nodup_bases, h.nodup_constraints, h.nodup_members, h.named⟩,
    fun ⟨hbases, hconstraints, hmembers, hnamed⟩ =>
      ⟨⟨hbases, hconstraints, hmembers⟩, hnamed⟩⟩

/-- Only the three lists matter. -/
@[simp] theorem clean_mk {comments : List String} {access : Accessibility} {modifiers : Modifiers}
    {name : String} {bases constraints : List String} {members : List Member} :
    (⟨comments, access, modifiers, kind, name, bases, constraints, members⟩ : TypeDecl).Clean ↔
      bases.Nodup ∧ constraints.Nodup ∧ members.Nodup ∧ "" ∉ bases := clean_iff

@[simp] theorem clean_markNew {isNew : Bool} : (d.markNew isNew).Clean ↔ d.Clean := by
  cases isNew <;> simp [markNew, clean_iff]

@[simp] theorem clean_addBase {base : String} : (d.addBase base).Clean ↔ d.Clean := by
  simp [clean_iff, mem_bases_addBase]

@[simp] theorem clean_addBases {bases : List String} : (d.addBases bases).Clean ↔ d.Clean := by
  induction bases generalizing d with
  | nil => rfl
  | cons base bases ih => exact (ih (d := d.addBase base)).trans clean_addBase

@[simp] theorem clean_addConstraint {clause : String} :
    (d.addConstraint clause).Clean ↔ d.Clean := by
  simp [clean_iff, addConstraint]

@[simp] theorem clean_addConstraints {clauses : List String} :
    (d.addConstraints clauses).Clean ↔ d.Clean := by
  induction clauses generalizing d with
  | nil => rfl
  | cons clause clauses ih => exact (ih (d := d.addConstraint clause)).trans clean_addConstraint

@[simp] theorem clean_addMember {m : Member} : (d.addMember m).Clean ↔ d.Clean := by
  simp [clean_iff]

@[simp] theorem clean_addMembers {ms : List Member} : (d.addMembers ms).Clean ↔ d.Clean := by
  simp [clean_iff]

theorem Clean.insertBase (h : d.Clean) (index : Nat) {base : String} (hbase : base ≠ "") :
    (d.insertBase index base).Clean where
  toTidy := h.toTidy.edit (.insertBase index base)
  named := by
    have hmem := mem_bases_edit (d := d) (.insertBase index base) (b := "")
    rw [Edit.base?, Option.some.injEq] at hmem
    exact fun hempty => (hmem.mp hempty).elim h.named hbase

end Clean

/-- A declaration of the kind before it takes in types. -/
structure Draft (kind : TypeKind) (d : TypeDecl) : Prop extends d.Clean where
  kind_eq : d.kind = kind
  leaves : Leaves d.members
  whole : .partialType ∉ d.modifiers

section Draft

theorem draft_iff : d.Draft kind ↔
    d.Clean ∧ d.kind = kind ∧ Leaves d.members ∧ .partialType ∉ d.modifiers :=
  ⟨fun h => ⟨h.toClean, h.kind_eq, h.leaves, h.whole⟩,
    fun ⟨hclean, hkind, hleaves, hwhole⟩ => ⟨hclean, hkind, hleaves, hwhole⟩⟩

@[simp] theorem draft_interfaceNamed (name : String) : (interfaceNamed name).Draft .interface := by
  simp [draft_iff, interfaceNamed]

@[simp] theorem draft_classNamed (name : String) : (classNamed name).Draft .classType := by
  simp [draft_iff, classNamed]

theorem Draft.restyle (h : d.Draft kind) (access : Accessibility) (modifiers : Modifiers)
    (hwhole : .partialType ∉ modifiers) :
    TypeDecl.Draft kind { d with accessibility := access, modifiers := modifiers } :=
  draft_iff.mpr ⟨clean_mk.mpr (clean_iff.mp h.toClean), h.kind_eq, h.leaves, hwhole⟩

@[simp] theorem draft_markNew {isNew : Bool} : (d.markNew isNew).Draft kind ↔ d.Draft kind := by
  simp [draft_iff]

@[simp] theorem draft_addBase {base : String} : (d.addBase base).Draft kind ↔ d.Draft kind := by
  simp [draft_iff]

@[simp] theorem draft_addBases {bases : List String} :
    (d.addBases bases).Draft kind ↔ d.Draft kind := by
  simp [draft_iff]

@[simp] theorem draft_addConstraint {clause : String} :
    (d.addConstraint clause).Draft kind ↔ d.Draft kind := by
  simp [draft_iff]

@[simp] theorem draft_addConstraints {clauses : List String} :
    (d.addConstraints clauses).Draft kind ↔ d.Draft kind := by
  simp [draft_iff]

@[simp] theorem draft_addMember {m : Member} :
    (d.addMember m).Draft kind ↔ d.Draft kind ∧ m.type? = none := by
  simp only [draft_iff, clean_addMember, kind_addMember, leaves_addMember, modifiers_addMember]
  grind

@[simp] theorem draft_addMembers {ms : List Member} :
    (d.addMembers ms).Draft kind ↔ d.Draft kind ∧ Leaves ms := by
  simp only [draft_iff, clean_addMembers, kind_addMembers, leaves_addMembers,
    modifiers_addMembers]
  grind

theorem Draft.insertBase (h : d.Draft kind) (index : Nat) {base : String} (hbase : base ≠ "") :
    (d.insertBase index base).Draft kind :=
  draft_iff.mpr ⟨h.toClean.insertBase index hbase, h.kind_eq, h.leaves, h.whole⟩

/-- The declaration was a draft before it took in members, types among them. -/
def Grown (d : TypeDecl) : Prop :=
  ∃ kind draft ms, TypeDecl.Draft kind draft ∧ d = draft.addMembers ms

theorem Draft.grown (h : d.Draft kind) : d.Grown := ⟨kind, d, [], h, rfl⟩

theorem Grown.clean (h : d.Grown) : d.Clean := by
  obtain ⟨_, _, _, hdraft, rfl⟩ := h
  exact clean_addMembers.mpr hdraft.toClean

theorem Grown.whole (h : d.Grown) : .partialType ∉ d.modifiers := by
  obtain ⟨_, draft, ms, hdraft, rfl⟩ := h
  rw [modifiers_addMembers]
  exact hdraft.whole

end Draft

end TypeDecl

end ActorLinks
