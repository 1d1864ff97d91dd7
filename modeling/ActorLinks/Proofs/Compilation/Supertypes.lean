import ActorLinks.Compilation
import ActorLinks.Proofs.Reach
import Mathlib.Data.List.Perm.Subperm

/-! # Supertypes

The supertypes of a name are the other names above it. Where nothing is above itself, a name
has more supertypes than any name above it.
-/
namespace ActorLinks

theorem SortedSet.nodup {α : Type} [LE α] [LT α] [Std.IsLinearOrder α] [Std.LawfulOrderLT α]
    (s : SortedSet α) : s.toList.Nodup := by
  refine s.ascending.imp ?_
  rintro x y h rfl
  exact Std.lt_irrefl h

namespace Compilation
variable {c : Compilation}

/-- A direct or indirect supertype. -/
def Above (c : Compilation) : String → String → Prop := Relation.TransGen (Next c.parents)

/-- No name is above itself. -/
def Acyclic (c : Compilation) : Prop := ∀ name, ¬ c.Above name name

theorem mem_supertypes_iff {name other : String} :
    other ∈ c.supertypes name ↔ other ≠ name ∧ c.Above name other := by
  rw [supertypes, SortedSet.mem_filter, SortedSet.mem_ofList, mem_explore_iff, and_comm, Above,
    Relation.TransGen.head'_iff, decide_eq_true_iff]
  rfl

/-- The search for one supertype agrees with the search for all of them. -/
theorem implements_iff {name other : String} :
    c.implements name other = true ↔ other ∈ c.supertypes name := by
  rw [implements, supertypes, SortedSet.mem_filter, SortedSet.mem_ofList, Bool.and_eq_true,
    meets_iff List.not_mem_nil, decide_eq_true_iff, decide_eq_true_iff, and_comm, ne_comm]

theorem implementsSimple_of_orphan {name : String} (h : c.parents name = []) (simple : String) :
    c.implementsSimple name simple = false := by
  have hnone : (c.supertypes name).toList = [] := by
    refine List.eq_nil_iff_forall_not_mem.mpr fun other hother => ?_
    obtain ⟨_, habove⟩ := mem_supertypes_iff.mp (SortedSet.mem_iff.mpr hother)
    obtain ⟨next, hnext, _⟩ := Relation.TransGen.head'_iff.mp habove
    exact List.ne_nil_of_mem hnext h
  rw [implementsSimple, hnone, List.any_nil]

theorem acyclic_of_shallow
    (h : ∀ e ∈ c.types.entries, ∀ other ∈ e.2.parents, c.parents other = []) : c.Acyclic := by
  intro name habove
  obtain ⟨other, hother, hrest⟩ := Relation.TransGen.head'_iff.mp habove
  have hnone : c.parents other = [] := by
    unfold Next parents at hother
    cases ht : c.type? name with
    | none => simp [ht] at hother
    | some t =>
      rw [ht] at hother
      exact h (name, t) (Dict.mem_entries_iff.mpr ht) other hother
  rcases Relation.ReflTransGen.cases_head hrest with rfl | ⟨next, hnext, _⟩
  · exact List.ne_nil_of_mem hother hnone
  · exact List.ne_nil_of_mem hnext hnone

/-- Names that go down from a type to its direct supertypes never come back. -/
theorem acyclic_of_rank (rank : String → Nat)
    (h : ∀ e ∈ c.types.entries, ∀ other ∈ e.2.parents, rank other < rank e.1) : c.Acyclic := by
  have hlt {name other : String} (habove : c.Above name other) : rank other < rank name := by
    refine Relation.TransGen.trans_induction_on habove ?_ fun _ _ hxy hyz => Nat.lt_trans hyz hxy
    intro name other hother
    unfold Next parents at hother
    cases ht : c.type? name with
    | none => simp [ht] at hother
    | some t =>
      rw [ht] at hother
      exact h (name, t) (Dict.mem_entries_iff.mpr ht) other hother
  exact fun name habove => Nat.lt_irrefl _ (hlt habove)

/-- A name that is not above a name above it has more supertypes than that one. -/
theorem size_supertypes_lt_of_not_above {name other : String} (hab : c.Above name other)
    (hback : ¬ c.Above other name) : (c.supertypes other).size < (c.supertypes name).size := by
  have hself : other ∉ c.supertypes other := fun hmem => (mem_supertypes_iff.mp hmem).1 rfl
  have hnodup : (other :: (c.supertypes other).toList).Nodup :=
    List.nodup_cons.mpr ⟨hself, SortedSet.nodup _⟩
  have hsub : (other :: (c.supertypes other).toList) ⊆ (c.supertypes name).toList := by
    intro n hn
    rcases List.mem_cons.mp hn with rfl | hn
    · refine SortedSet.mem_iff.mp (mem_supertypes_iff.mpr ⟨?_, hab⟩)
      rintro rfl
      exact hback hab
    · obtain ⟨_, hn⟩ := mem_supertypes_iff.mp hn
      refine SortedSet.mem_iff.mp (mem_supertypes_iff.mpr ⟨?_, hab.trans hn⟩)
      rintro rfl
      exact hback hn
  exact (List.subperm_of_subset hnodup hsub).length_le

theorem size_supertypes_lt (h : c.Acyclic) {name other : String} (hab : c.Above name other) :
    (c.supertypes other).size < (c.supertypes name).size :=
  size_supertypes_lt_of_not_above hab fun hback => h name (hab.trans hback)

theorem chain_some (next : TypeSymbol → Option String) (name : String) :
    c.chain next (some name) = name :: c.chainAfter next [name] ((c.type? name).bind next) := by
  rw [chain, chainAfter, if_neg List.not_mem_nil]

/-- Following base types from type to type leads to names above. -/
theorem above_of_mem_chainAfter {name base : String} {seen : List String} {start : Option String}
    (hstart : ∀ n ∈ start, n ∈ c.parents name) (h : base ∈ c.chainAfter (·.baseType) seen start) :
    c.Above name base := by
  fun_induction c.chainAfter (·.baseType) seen start generalizing name with
  | case1 => cases h
  | case2 => cases h
  | case3 seen n hn ih =>
    have hfirst : c.Above name n := .single (hstart n rfl)
    rcases List.mem_cons.mp h with rfl | h
    · exact hfirst
    · refine hfirst.trans (ih (fun m hm => ?_) h)
      obtain ⟨t, ht, hb⟩ := Option.bind_eq_some_iff.mp hm
      rw [parents, ht]
      exact List.mem_append_left _ (Option.mem_toList.mpr hb)

theorem above_of_mem_baseChain {name base : String} {t : TypeSymbol} (ht : c.type? name = some t)
    (h : base ∈ c.chain (·.baseType) t.baseType) : c.Above name base := by
  refine above_of_mem_chainAfter (fun n hn => ?_) h
  rw [parents, ht]
  exact List.mem_append_left _ (Option.mem_toList.mpr hn)

end Compilation

end ActorLinks
