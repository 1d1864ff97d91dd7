/-! # Finite sets in ascending order

A set is the list of its members, each once and in ascending order, so two sets with the
same members are equal. Node ids and base names are kept in this form because they are
written out in it.
-/
namespace ActorLinks

def insertAscending {α : Type} [LT α] [DecidableLT α] (x : α) : List α → List α
  | [] => [x]
  | y :: ys => if x < y then x :: y :: ys else if y < x then y :: insertAscending x ys else y :: ys

section
variable {α : Type} [LE α] [LT α] [Std.IsLinearOrder α] [Std.LawfulOrderLT α]

theorem eq_of_not_lt {x y : α} (hxy : ¬ x < y) (hyx : ¬ y < x) : x = y :=
  Std.le_antisymm (Std.not_lt.mp hyx) (Std.not_lt.mp hxy)

theorem eq_of_mem_iff {xs ys : List α} (hx : xs.Pairwise (· < ·)) (hy : ys.Pairwise (· < ·))
    (h : ∀ a, a ∈ xs ↔ a ∈ ys) : xs = ys := by
  induction xs generalizing ys with
  | nil =>
    cases ys with
    | nil => rfl
    | cons y ys => exact absurd ((h y).mpr List.mem_cons_self) List.not_mem_nil
  | cons x xs ih =>
    cases ys with
    | nil => exact absurd ((h x).mp List.mem_cons_self) List.not_mem_nil
    | cons y ys =>
      have hx' := List.pairwise_cons.mp hx
      have hy' := List.pairwise_cons.mp hy
      have hxy : x = y := by
        rcases List.mem_cons.mp ((h x).mp List.mem_cons_self) with e | hm
        · exact e
        · rcases List.mem_cons.mp ((h y).mpr List.mem_cons_self) with e | hm'
          · exact e.symm
          · exact absurd (Std.lt_trans (hy'.1 x hm) (hx'.1 y hm')) Std.lt_irrefl
      subst hxy
      rw [ih hx'.2 hy'.2]
      intro a
      constructor
      · intro ha
        rcases List.mem_cons.mp ((h a).mp (List.mem_cons_of_mem _ ha)) with rfl | hm
        · exact absurd (hx'.1 a ha) Std.lt_irrefl
        · exact hm
      · intro ha
        rcases List.mem_cons.mp ((h a).mpr (List.mem_cons_of_mem _ ha)) with rfl | hm
        · exact absurd (hy'.1 a ha) Std.lt_irrefl
        · exact hm

variable [DecidableLT α]

theorem mem_insertAscending {x a : α} {l : List α} :
    a ∈ insertAscending x l ↔ a = x ∨ a ∈ l := by
  induction l with
  | nil => simp [insertAscending]
  | cons y ys ih =>
    simp only [insertAscending]
    split
    · simp
    · split
      · simp only [List.mem_cons, ih]
        constructor
        · rintro (h | h | h) <;> simp [h]
        · rintro (h | h | h) <;> simp [h]
      · next hxy hyx =>
        have := eq_of_not_lt hxy hyx
        subst this
        simp

theorem insertAscending_pairwise {x : α} {l : List α} (h : l.Pairwise (· < ·)) :
    (insertAscending x l).Pairwise (· < ·) := by
  induction l with
  | nil => simp [insertAscending]
  | cons y ys ih =>
    have hy := List.pairwise_cons.mp h
    simp only [insertAscending]
    split
    · next hxy =>
      refine List.pairwise_cons.mpr ⟨?_, h⟩
      intro a ha
      rcases List.mem_cons.mp ha with rfl | ha
      · exact hxy
      · exact Std.lt_trans hxy (hy.1 a ha)
    · split
      · next hyx =>
        refine List.pairwise_cons.mpr ⟨?_, ih hy.2⟩
        intro a ha
        rcases mem_insertAscending.mp ha with rfl | ha
        · exact hyx
        · exact hy.1 a ha
      · exact h

end

structure SortedSet (α : Type) [LT α] where
  toList : List α
  ascending : toList.Pairwise (· < ·)
  deriving DecidableEq

namespace SortedSet

section
variable {α : Type} [LT α]

instance : Membership α (SortedSet α) := ⟨fun s a => a ∈ s.toList⟩

instance [DecidableEq α] (a : α) (s : SortedSet α) : Decidable (a ∈ s) :=
  inferInstanceAs (Decidable (a ∈ s.toList))

theorem mem_iff {a : α} {s : SortedSet α} : a ∈ s ↔ a ∈ s.toList := Iff.rfl

def empty : SortedSet α := ⟨[], List.Pairwise.nil⟩

instance : EmptyCollection (SortedSet α) := ⟨empty⟩

instance : Inhabited (SortedSet α) := ⟨empty⟩

def isEmpty (s : SortedSet α) : Bool := s.toList.isEmpty

def size (s : SortedSet α) : Nat := s.toList.length

def filter (p : α → Bool) (s : SortedSet α) : SortedSet α :=
  ⟨s.toList.filter p, s.ascending.filter p⟩

@[simp] theorem mem_filter {p : α → Bool} {s : SortedSet α} {a : α} :
    a ∈ s.filter p ↔ a ∈ s ∧ p a = true := List.mem_filter

@[simp] theorem not_mem_empty {a : α} : a ∉ (∅ : SortedSet α) := List.not_mem_nil

def diff [DecidableEq α] (s t : SortedSet α) : SortedSet α := s.filter fun a => a ∉ t

@[simp] theorem mem_diff [DecidableEq α] {s t : SortedSet α} {a : α} :
    a ∈ s.diff t ↔ a ∈ s ∧ a ∉ t := by simp [diff]

end

section
variable {α : Type} [LE α] [LT α] [DecidableLT α] [Std.IsLinearOrder α] [Std.LawfulOrderLT α]

def insert (x : α) (s : SortedSet α) : SortedSet α :=
  ⟨insertAscending x s.toList, insertAscending_pairwise s.ascending⟩

@[simp] theorem mem_insert {x a : α} {s : SortedSet α} : a ∈ s.insert x ↔ a = x ∨ a ∈ s :=
  mem_insertAscending

def insertAll (xs : List α) (s : SortedSet α) : SortedSet α := xs.foldl (fun t x => t.insert x) s

@[simp] theorem mem_insertAll {xs : List α} {a : α} {s : SortedSet α} :
    a ∈ s.insertAll xs ↔ a ∈ xs ∨ a ∈ s := by
  induction xs generalizing s with
  | nil => simp [insertAll]
  | cons x xs ih =>
    simp only [insertAll, List.foldl_cons] at ih ⊢
    rw [ih, mem_insert, List.mem_cons]
    constructor
    · rintro (h | h | h) <;> simp [h]
    · rintro ((h | h) | h) <;> simp [h]

def ofList (xs : List α) : SortedSet α := empty.insertAll xs

@[simp] theorem mem_ofList {xs : List α} {a : α} : a ∈ ofList xs ↔ a ∈ xs := by
  simp only [ofList, mem_insertAll]
  exact or_iff_left List.not_mem_nil

def union (s t : SortedSet α) : SortedSet α := s.insertAll t.toList

@[simp] theorem mem_union {s t : SortedSet α} {a : α} : a ∈ s.union t ↔ a ∈ s ∨ a ∈ t := by
  rw [union, mem_insertAll]
  exact or_comm

omit [DecidableLT α] in
theorem ext {s t : SortedSet α} (h : ∀ a, a ∈ s ↔ a ∈ t) : s = t := by
  obtain ⟨xs, hx⟩ := s
  obtain ⟨ys, hy⟩ := t
  simpa only [mk.injEq] using eq_of_mem_iff hx hy h

end

end SortedSet

end ActorLinks
