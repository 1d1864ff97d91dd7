import ActorLinks.Composition
import Mathlib.Data.List.Forall2

/-! # Choices by masks

The masks below a power of two choose the sublists of a list, the mask zero the empty one. A
choice of groups with a non-empty sublist of each is the same as one non-empty sublist of the
groups in a row.
-/
namespace ActorLinks
variable {α : Type}

theorem selectBits_sublist (mask : Nat) (items : List α) :
    (selectBits mask items).Sublist items := by
  induction items generalizing mask with
  | nil => exact List.Sublist.refl []
  | cons x xs ih =>
    simp only [selectBits]
    split
    · exact (ih (mask / 2)).cons_cons x
    · exact (ih (mask / 2)).cons x

theorem exists_selectBits {items s : List α} (h : s.Sublist items) :
    ∃ mask < 1 <<< items.length, selectBits mask items = s := by
  induction h with
  | slnil => exact ⟨0, by simp, rfl⟩
  | cons x _ ih =>
    obtain ⟨mask, hlt, hs⟩ := ih
    refine ⟨2 * mask, ?_, ?_⟩
    · simp only [List.length_cons, Nat.shiftLeft_succ]
      omega
    · have hodd : ¬ 2 * mask % 2 = 1 := by omega
      have hhalf : 2 * mask / 2 = mask := by omega
      rw [selectBits, if_neg hodd, hhalf, hs]
  | cons_cons x _ ih =>
    obtain ⟨mask, hlt, hs⟩ := ih
    refine ⟨2 * mask + 1, ?_, ?_⟩
    · simp only [List.length_cons, Nat.shiftLeft_succ]
      omega
    · have hodd : (2 * mask + 1) % 2 = 1 := by omega
      have hhalf : (2 * mask + 1) / 2 = mask := by omega
      rw [selectBits, if_pos hodd, hhalf, hs]

theorem selectBits_zero (items : List α) : selectBits 0 items = [] := by
  induction items with
  | nil => rfl
  | cons x xs ih => simpa [selectBits] using ih

theorem selectBits_ne_nil {mask : Nat} {items : List α} (hpos : 0 < mask)
    (hlt : mask < 1 <<< items.length) : selectBits mask items ≠ [] := by
  induction items generalizing mask with
  | nil =>
    simp only [List.length_nil, Nat.shiftLeft_zero] at hlt
    omega
  | cons x xs ih =>
    simp only [List.length_cons, Nat.shiftLeft_succ] at hlt
    rw [selectBits]
    split
    · exact List.cons_ne_nil _ _
    · exact ih (by omega) (by omega)

/-- The masks above zero choose the non-empty sublists. -/
theorem exists_mask_iff {items s : List α} :
    (∃ i < 1 <<< items.length - 1, selectBits (i + 1) items = s) ↔ s ≠ [] ∧ s.Sublist items := by
  constructor
  · rintro ⟨i, hi, rfl⟩
    exact ⟨selectBits_ne_nil (by omega) (by omega), selectBits_sublist _ _⟩
  · rintro ⟨hne, hs⟩
    obtain ⟨mask, hlt, rfl⟩ := exists_selectBits hs
    have hpos : mask ≠ 0 := by
      rintro rfl
      exact hne (selectBits_zero items)
    exact ⟨mask - 1, by omega, by rw [Nat.sub_add_cancel (Nat.pos_of_ne_zero hpos)]⟩

theorem mem_choices {items s : List α} :
    s ∈ choices items false ↔ s ≠ [] ∧ s.Sublist items := by
  rw [← exists_mask_iff, choices]
  cases items with
  | nil => simp
  | cons x xs => simp

/-- Whatever is put together from members of some of the groups, in order, is a sublist of the
groups in a row, and the other way round. -/
theorem exists_parts_iff {groups : List (List α)} {expand : List α → List (List α)}
    (hexpand : ∀ g ∈ groups, ∀ s, s ∈ expand g ↔ s ≠ [] ∧ s.Sublist g) {s : List α} :
    (∃ chosen parts, chosen.Sublist (groups.map expand) ∧ List.Forall₂ (· ∈ ·) parts chosen ∧
      parts.flatten = s) ↔ s.Sublist groups.flatten := by
  induction groups generalizing s with
  | nil =>
    constructor
    · rintro ⟨chosen, parts, hc, hp, rfl⟩
      cases hc
      cases hp
      exact List.Sublist.refl []
    · intro hs
      exact ⟨[], [], List.Sublist.refl [], .nil, (List.sublist_nil.mp hs).symm⟩
  | cons g gs ih =>
    have ih' {s : List α} := ih (fun g hg => hexpand g (List.mem_cons_of_mem _ hg)) (s := s)
    have hg := hexpand g List.mem_cons_self
    constructor
    · rintro ⟨chosen, parts, hc, hp, rfl⟩
      cases hc with
      | cons _ hc =>
        exact (ih'.mp ⟨chosen, parts, hc, hp, rfl⟩).trans (List.sublist_append_right _ _)
      | cons_cons _ hc =>
        cases hp with
        | cons hmem hp => exact List.Sublist.append ((hg _).mp hmem).2 (ih'.mp ⟨_, _, hc, hp, rfl⟩)
    · intro hs
      obtain ⟨s₁, s₂, rfl, h₁, h₂⟩ := List.sublist_append_iff.mp hs
      obtain ⟨chosen, parts, hc, hp, rfl⟩ := ih'.mpr h₂
      -- a group of which nothing is taken is left out, since no part is empty
      by_cases hnil : s₁ = []
      · subst hnil
        exact ⟨chosen, parts, hc.cons _, hp, rfl⟩
      · have hmem := (hg s₁).mpr ⟨hnil, h₁⟩
        exact ⟨expand g :: chosen, s₁ :: parts, hc.cons_cons _, .cons hmem hp, rfl⟩

end ActorLinks
