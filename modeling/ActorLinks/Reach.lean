/-! # Reachability

Depth-first search along a successor function that is empty outside a finite universe.
-/
namespace ActorLinks

section
variable {α : Type} [DecidableEq α]

def countUnseen (whole seen : List α) : Nat := whole.countP (· ∉ seen)

theorem countUnseen_cons_lt {whole seen : List α} {x : α} (hw : x ∈ whole) (hs : x ∉ seen) :
    countUnseen whole (x :: seen) < countUnseen whole seen := by
  have hrest : countUnseen whole (x :: seen)
      = (whole.filter (· ∉ seen)).countP (· ≠ x) := by
    rw [countUnseen, List.countP_filter]
    apply List.countP_congr
    intro y _
    simp [not_or]
  rw [hrest, countUnseen, List.countP_eq_length_filter, List.countP_eq_length_filter,
    List.length_filter_lt_length_iff_exists]
  exact ⟨x, List.mem_filter.mpr ⟨hw, by simpa using hs⟩, by simp⟩

theorem countUnseen_cons_of_not_mem {whole seen : List α} {x : α} (hw : x ∉ whole) :
    countUnseen whole (x :: seen) = countUnseen whole seen := by
  apply List.countP_congr
  intro y hy
  have : y ≠ x := by rintro rfl; exact hw hy
  simp [this]

theorem countUnseen_le {whole seen more : List α} (h : seen ⊆ more) :
    countUnseen whole more ≤ countUnseen whole seen := by
  apply List.countP_mono_left
  intro x _ hx
  simp only [decide_eq_true_eq] at hx ⊢
  exact fun hmem => hx (h hmem)

theorem lex_countUnseen {whole seen rest : List α} {next : α → List α}
    (outside : ∀ x, x ∉ whole → next x = []) {x : α} (hs : x ∉ seen) :
    Prod.Lex (· < ·) (· < ·) (countUnseen whole (x :: seen), (next x ++ rest).length)
      (countUnseen whole seen, (x :: rest).length) := by
  by_cases hw : x ∈ whole
  · exact Prod.Lex.left _ _ (countUnseen_cons_lt hw hs)
  · rw [outside x hw, countUnseen_cons_of_not_mem hw]
    exact Prod.Lex.right _ (by simp)

/-- What was seen before and what can be reached from the list without passing through it. -/
def explore (whole : List α) (next : α → List α) (outside : ∀ x, x ∉ whole → next x = [])
    (seen : List α) : List α → List α
  | [] => seen
  | x :: rest =>
    if x ∈ seen then explore whole next outside seen rest
    else explore whole next outside (x :: seen) (next x ++ rest)
  termination_by todo => (countUnseen whole seen, todo.length)
  decreasing_by
    · exact Prod.Lex.right _ (by simp)
    · exact lex_countUnseen outside ‹_›

/-- Whether a goal can be reached in this way; the search ends where the goal is met. -/
def meets (whole : List α) (next : α → List α) (outside : ∀ x, x ∉ whole → next x = [])
    (goal : α) (seen : List α) : List α → Bool
  | [] => false
  | x :: rest =>
    if x = goal then true
    else if x ∈ seen then meets whole next outside goal seen rest
    else meets whole next outside goal (x :: seen) (next x ++ rest)
  termination_by todo => (countUnseen whole seen, todo.length)
  decreasing_by
    · exact Prod.Lex.right _ (by simp)
    · exact lex_countUnseen outside ‹_›

/-- Whether a search has found something, and what it has seen by its end. -/
structure Sought (before : List α) where
  found : Bool
  seen : List α
  grown : before ⊆ seen

/-- Whether something that passes a test can be reached from the list. The branches of the search
share what was seen and pass over it; the search ends with the first find. -/
def seek (whole : List α) (next : α → List α) (outside : ∀ x, x ∉ whole → next x = [])
    (test : α → Bool) (seen : List α) : List α → Sought seen
  | [] => ⟨false, seen, List.Subset.refl seen⟩
  | x :: rest =>
    if x ∈ seen then seek whole next outside test seen rest
    else if test x then ⟨true, x :: seen, List.subset_cons_self x seen⟩
    else
      let below := seek whole next outside test (x :: seen) (next x)
      have hbelow := List.Subset.trans (List.subset_cons_self x seen) below.grown
      if below.found then ⟨true, below.seen, hbelow⟩
      else
        let beside := seek whole next outside test below.seen rest
        ⟨beside.found, beside.seen, List.Subset.trans hbelow beside.grown⟩
  termination_by todo => (countUnseen whole seen, todo.length)
  decreasing_by
    · exact Prod.Lex.right _ (by simp)
    · by_cases hw : x ∈ whole
      · exact Prod.Lex.left _ _ (countUnseen_cons_lt hw ‹_›)
      · rw [outside x hw, countUnseen_cons_of_not_mem hw]
        exact Prod.Lex.right _ (by simp)
    · have hle : countUnseen whole below.seen ≤ countUnseen whole seen := countUnseen_le hbelow
      rcases Nat.lt_or_eq_of_le hle with hlt | heq
      · exact Prod.Lex.left _ _ hlt
      · rw [heq]
        exact Prod.Lex.right _ (by simp)

end

end ActorLinks
