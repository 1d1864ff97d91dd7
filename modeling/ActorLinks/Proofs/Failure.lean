import ActorLinks.Failure
import Mathlib.Data.List.Forall2

/-! # Results that may fail -/
namespace ActorLinks.Failure
variable {α β : Type} {f : α → β} {r : Except Failure α}

/-- The failure that a result is, if it is one. -/
def of? : Except Failure α → Option Failure
  | .ok _ => none
  | .error e => some e

theorem of?_map : of? (r.map f) = of? r := by
  cases r with
  | error e => rfl
  | ok a => rfl

theorem map_eq_ok_iff {b : β} : r.map f = .ok b ↔ ∃ a, r = .ok a ∧ f a = b := by
  cases r with
  | error e => simp [Except.map]
  | ok a => simp [Except.map]

theorem bind_eq_ok_iff {ε : Type} {r : Except ε α} {f : α → Except ε β} {b : β} :
    (r >>= f) = .ok b ↔ ∃ a, r = .ok a ∧ f a = .ok b := by
  cases r with
  | error e => simp [bind, Except.bind]
  | ok a => simp [bind, Except.bind]

theorem exists_mapM {xs : List α} {f : α → Except Failure β} (h : ∀ x ∈ xs, ∃ y, f x = .ok y) :
    ∃ ys, xs.mapM f = .ok ys := by
  induction xs with
  | nil => exact ⟨[], rfl⟩
  | cons x xs ih =>
    obtain ⟨y, hy⟩ := h x List.mem_cons_self
    obtain ⟨ys, hys⟩ := ih fun z hz => h z (List.mem_cons_of_mem _ hz)
    refine ⟨y :: ys, ?_⟩
    rw [List.mapM_cons, hy, hys]
    rfl

/-- What each result keeps of its item, the list of results keeps of the items. -/
theorem map_of_mapM {γ : Type} {xs : List α} {ys : List β} {f : α → Except Failure β} {p : α → γ}
    {q : β → γ} (hf : ∀ x y, f x = .ok y → q y = p x) (h : xs.mapM f = .ok ys) :
    ys.map q = xs.map p := by
  induction xs generalizing ys with
  | nil =>
    cases h
    rfl
  | cons x xs ih =>
    rw [List.mapM_cons] at h
    obtain ⟨y, hy, hrest⟩ := bind_eq_ok_iff.mp h
    obtain ⟨zs, hzs, hpure⟩ := bind_eq_ok_iff.mp hrest
    cases hpure
    rw [List.map_cons, List.map_cons, hf x y hy, ih hzs]

theorem forall₂_of_mapM {xs : List α} {ys : List β} {f : α → Except Failure β}
    (h : xs.mapM f = .ok ys) : List.Forall₂ (fun x y => f x = .ok y) xs ys := by
  induction xs generalizing ys with
  | nil =>
    cases h
    exact .nil
  | cons x xs ih =>
    rw [List.mapM_cons] at h
    obtain ⟨y, hy, hrest⟩ := bind_eq_ok_iff.mp h
    obtain ⟨zs, hzs, hpure⟩ := bind_eq_ok_iff.mp hrest
    cases hpure
    exact .cons hy (ih hzs)

theorem mem_mapM_iff {xs : List α} {ys : List β} {f : α → Except Failure β} {y : β}
    (h : xs.mapM f = .ok ys) : y ∈ ys ↔ ∃ x ∈ xs, f x = .ok y := by
  have hrelated := forall₂_of_mapM h
  clear h
  induction hrelated with
  | nil => simp
  | cons hx _ ih => simp [ih, hx, eq_comm]

end ActorLinks.Failure
