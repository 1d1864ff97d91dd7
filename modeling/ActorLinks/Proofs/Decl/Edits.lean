import ActorLinks.Decl.Type
import Mathlib.Data.List.Infix
import Mathlib.Data.List.Nodup

/-! # Rows of edits

A declaration is built by edits that add an entry or move a base. Each of them keeps the entries
apart, drops none, and leaves the entries that it does not move in their order; so a row of edits
does.
-/
namespace ActorLinks

section
variable {α : Type} [DecidableEq α] {items : List α} {item x : α}

theorem prefix_appendNew (items : List α) (item : α) : items <+: appendNew items item := by
  unfold appendNew
  split
  · exact List.prefix_rfl
  · exact List.prefix_append _ _

@[simp] theorem nodup_appendNew : (appendNew items item).Nodup ↔ items.Nodup := by
  refine ⟨fun h => h.sublist (prefix_appendNew items item).sublist, fun h => ?_⟩
  unfold appendNew
  split
  · exact h
  · next hitem =>
    exact (List.perm_append_singleton _ _).nodup_iff.mpr (List.nodup_cons.mpr ⟨hitem, h⟩)

theorem moveTo_perm (items : List α) (index : Nat) (item : α) :
    (moveTo items index item).Perm (item :: items.filter (· ≠ item)) := by
  refine List.perm_middle.trans (List.Perm.cons _ ?_)
  rw [List.take_append_drop]

theorem mem_moveTo {index : Nat} : x ∈ moveTo items index item ↔ x ∈ items ∨ x = item := by
  rw [(moveTo_perm items index item).mem_iff, List.mem_cons, List.mem_filter, decide_eq_true_iff]
  by_cases hx : x = item <;> simp [hx]

theorem nodup_moveTo (h : items.Nodup) (index : Nat) (item : α) :
    (moveTo items index item).Nodup := by
  rw [(moveTo_perm items index item).nodup_iff, List.nodup_cons]
  exact ⟨by simp, h.filter _⟩

/-- All but the moved entry stay as they are. -/
theorem filter_moveTo {keep : α → Bool} (h : keep item = false) (items : List α) (index : Nat) :
    (moveTo items index item).filter keep = items.filter keep := by
  have hothers : (items.filter (· ≠ item)).filter keep = items.filter keep := by
    rw [List.filter_filter]
    refine List.filter_congr fun x _ => ?_
    by_cases hx : x = item <;> simp [hx, h]
  rw [moveTo, List.filter_append, List.filter_cons, h, if_neg Bool.false_ne_true,
    ← List.filter_append, List.take_append_drop, hothers]

/-- The moved entry stands at its index, or last if there are fewer others. -/
theorem idxOf_moveTo (items : List α) (index : Nat) (item : α) :
    (moveTo items index item).idxOf item = min index (items.filter (· ≠ item)).length := by
  have hfront : item ∉ (items.filter (· ≠ item)).take index := fun hmem => by
    simpa using List.mem_of_mem_take hmem
  rw [moveTo, List.idxOf_append_of_notMem hfront, List.idxOf_cons_self, Nat.add_zero,
    List.length_take]

end

/-- A call that changes the bases, the constraints or the members of a declaration. -/
inductive Edit where
  | addBase (base : String)
  | insertBase (index : Nat) (base : String)
  | addConstraint (clause : String)
  | addMember (m : Member)
  | addMembers (ms : List Member)

namespace Edit

/-- The base that is accepted. -/
def base? : Edit → Option String
  | addBase base => if base.isEmpty then none else some base
  | insertBase _ base => some base
  | _ => none

def constraint? : Edit → Option String
  | addConstraint clause => some clause
  | _ => none

def members : Edit → List Member
  | addMember m => [m]
  | addMembers ms => ms
  | _ => []

/-- Whether the edit leaves a base at its place among the others. -/
def leaves : Edit → String → Bool
  | insertBase _ moved, base => moved ≠ base
  | _, _ => true

end Edit

namespace TypeDecl
variable {d : TypeDecl}

def edit (d : TypeDecl) : Edit → TypeDecl
  | .addBase base => d.addBase base
  | .insertBase index base => d.insertBase index base
  | .addConstraint clause => d.addConstraint clause
  | .addMember m => d.addMember m
  | .addMembers ms => d.addMembers ms

def edits (d : TypeDecl) (es : List Edit) : TypeDecl := es.foldl edit d

/-- Nothing is listed twice. -/
structure Tidy (d : TypeDecl) : Prop where
  nodup_bases : d.bases.Nodup
  nodup_constraints : d.constraints.Nodup
  nodup_members : d.members.Nodup

@[simp] theorem constraints_addBase (base : String) :
    (d.addBase base).constraints = d.constraints := by
  unfold addBase
  split <;> rfl

@[simp] theorem constraints_addMember (m : Member) :
    (d.addMember m).constraints = d.constraints := rfl

@[simp] theorem constraints_addMembers (ms : List Member) :
    (d.addMembers ms).constraints = d.constraints := by
  induction ms generalizing d with
  | nil => rfl
  | cons m ms ih => exact ih (d := d.addMember m)

theorem prefix_bases_addBase (base : String) : d.bases <+: (d.addBase base).bases := by
  unfold addBase
  split
  · exact List.prefix_rfl
  · exact prefix_appendNew d.bases base

theorem prefix_members_addMembers (ms : List Member) : d.members <+: (d.addMembers ms).members := by
  induction ms generalizing d with
  | nil => exact List.prefix_rfl
  | cons m ms ih => exact (prefix_appendNew d.members m).trans (ih (d := d.addMember m))

@[simp] theorem nodup_bases_addBase {base : String} :
    (d.addBase base).bases.Nodup ↔ d.bases.Nodup := by
  unfold addBase
  split
  · exact Iff.rfl
  · exact nodup_appendNew

@[simp] theorem nodup_addMember {m : Member} : (d.addMember m).members.Nodup ↔ d.members.Nodup :=
  nodup_appendNew

@[simp] theorem nodup_addMembers {ms : List Member} :
    (d.addMembers ms).members.Nodup ↔ d.members.Nodup := by
  induction ms generalizing d with
  | nil => exact Iff.rfl
  | cons m ms ih => exact (ih (d := d.addMember m)).trans nodup_addMember

section Step
variable (e : Edit)

theorem Tidy.edit (h : d.Tidy) : (d.edit e).Tidy := by
  obtain ⟨hbases, hconstraints, hmembers⟩ := h
  cases e with
  | addBase base =>
    exact ⟨nodup_bases_addBase.mpr hbases, (constraints_addBase base).symm ▸ hconstraints,
      (members_addBase d base).symm ▸ hmembers⟩
  | insertBase index base => exact ⟨nodup_moveTo hbases index base, hconstraints, hmembers⟩
  | addConstraint clause => exact ⟨hbases, nodup_appendNew.mpr hconstraints, hmembers⟩
  | addMember m => exact ⟨hbases, hconstraints, nodup_addMember.mpr hmembers⟩
  | addMembers ms =>
    exact ⟨(bases_addMembers d ms).symm ▸ hbases, (constraints_addMembers ms).symm ▸ hconstraints,
      nodup_addMembers.mpr hmembers⟩

theorem mem_bases_edit {b : String} :
    b ∈ (d.edit e).bases ↔ b ∈ d.bases ∨ e.base? = some b := by
  cases e with
  | addBase base =>
    have haccepted : (Edit.addBase base).base? = some b ↔ b = base ∧ b ≠ "" := by
      by_cases hb : base = ""
      · subst hb
        simp [Edit.base?]
      · simp [Edit.base?, hb, eq_comm (a := base)]
        rintro rfl
        exact hb
    exact (mem_bases_addBase d).trans (or_congr_right haccepted.symm)
  | insertBase index base => simp [TypeDecl.edit, insertBase, mem_moveTo, Edit.base?, eq_comm]
  | addConstraint clause => simp [TypeDecl.edit, Edit.base?]
  | addMember m => simp [TypeDecl.edit, Edit.base?]
  | addMembers ms => simp [TypeDecl.edit, Edit.base?]

theorem mem_constraints_edit {clause : String} :
    clause ∈ (d.edit e).constraints ↔ clause ∈ d.constraints ∨ e.constraint? = some clause := by
  cases e with
  | addConstraint other =>
    simp [TypeDecl.edit, addConstraint, Edit.constraint?, eq_comm]
  | insertBase index base => simp [TypeDecl.edit, insertBase, Edit.constraint?]
  | _ => simp [TypeDecl.edit, Edit.constraint?]

theorem mem_members_edit {m : Member} :
    m ∈ (d.edit e).members ↔ m ∈ d.members ∨ m ∈ e.members := by
  cases e with
  | _ => simp [TypeDecl.edit, Edit.members]

/-- The bases that the edit does not move stay in their order, and more may follow them. -/
theorem filter_bases_edit {keep : String → Bool} (h : ∀ b, keep b = true → e.leaves b = true) :
    d.bases.filter keep <+: (d.edit e).bases.filter keep := by
  cases e with
  | addBase base => exact (prefix_bases_addBase base).filter keep
  | insertBase index base =>
    have hmoved : keep base = false := by
      by_contra hkeep
      simpa [Edit.leaves] using h base (by simpa using hkeep)
    exact (filter_moveTo hmoved d.bases index).symm ▸ List.prefix_rfl
  | addConstraint clause => exact List.prefix_rfl
  | addMember m => exact List.prefix_rfl
  | addMembers ms => exact (bases_addMembers d ms).symm ▸ List.prefix_rfl

theorem prefix_constraints_edit : d.constraints <+: (d.edit e).constraints := by
  cases e with
  | addConstraint clause => exact prefix_appendNew d.constraints clause
  | addBase base => exact (constraints_addBase base).symm ▸ List.prefix_rfl
  | insertBase index base => exact List.prefix_rfl
  | addMember m => exact List.prefix_rfl
  | addMembers ms => exact (constraints_addMembers ms).symm ▸ List.prefix_rfl

theorem prefix_members_edit : d.members <+: (d.edit e).members := by
  cases e with
  | addMember m => exact prefix_appendNew d.members m
  | addMembers ms => exact prefix_members_addMembers ms
  | addBase base => exact (members_addBase d base).symm ▸ List.prefix_rfl
  | insertBase index base => exact List.prefix_rfl
  | addConstraint clause => exact List.prefix_rfl

end Step

section Run
variable (es : List Edit)

theorem Tidy.edits (h : d.Tidy) : (d.edits es).Tidy :=
  List.foldlRecOn (motive := Tidy) es TypeDecl.edit h fun _ ih e _ => ih.edit e

theorem mem_bases_edits {b : String} :
    b ∈ (d.edits es).bases ↔ b ∈ d.bases ∨ ∃ e ∈ es, e.base? = some b := by
  induction es generalizing d with
  | nil => simp [edits]
  | cons e es ih =>
    have hrest := ih (d := d.edit e)
    rw [mem_bases_edit, or_assoc] at hrest
    rw [List.exists_mem_cons_iff]
    exact hrest

theorem mem_constraints_edits {clause : String} :
    clause ∈ (d.edits es).constraints ↔
      clause ∈ d.constraints ∨ ∃ e ∈ es, e.constraint? = some clause := by
  induction es generalizing d with
  | nil => simp [edits]
  | cons e es ih =>
    have hrest := ih (d := d.edit e)
    rw [mem_constraints_edit, or_assoc] at hrest
    rw [List.exists_mem_cons_iff]
    exact hrest

theorem mem_members_edits {m : Member} :
    m ∈ (d.edits es).members ↔ m ∈ d.members ∨ ∃ e ∈ es, m ∈ e.members := by
  induction es generalizing d with
  | nil => simp [edits]
  | cons e es ih =>
    have hrest := ih (d := d.edit e)
    rw [mem_members_edit, or_assoc] at hrest
    rw [List.exists_mem_cons_iff]
    exact hrest

theorem filter_bases_edits {keep : String → Bool}
    (h : ∀ e ∈ es, ∀ b, keep b = true → e.leaves b = true) :
    d.bases.filter keep <+: (d.edits es).bases.filter keep := by
  induction es generalizing d with
  | nil => exact List.prefix_rfl
  | cons e es ih =>
    exact (filter_bases_edit e (h e List.mem_cons_self)).trans
      (ih fun e' he' => h e' (List.mem_cons_of_mem _ he'))

theorem prefix_constraints_edits : d.constraints <+: (d.edits es).constraints := by
  induction es generalizing d with
  | nil => exact List.prefix_rfl
  | cons e es ih => exact (prefix_constraints_edit e).trans ih

theorem prefix_members_edits : d.members <+: (d.edits es).members := by
  induction es generalizing d with
  | nil => exact List.prefix_rfl
  | cons e es ih => exact (prefix_members_edit e).trans ih

end Run

end TypeDecl

end ActorLinks
