import ActorLinks.Reach
import Mathlib.Logic.Relation

/-! # What an exploration finds

An exploration that starts from nothing finds exactly what can be reached from its list, and a
search for one goal meets it exactly then. A search by a test that shares among its branches what
was seen answers for all that can be reached, because what was passed over had failed on its first
visit together with everything below it.
-/
namespace ActorLinks

section
variable {α : Type} [DecidableEq α] {whole : List α} {next : α → List α}
variable {outside : ∀ x, x ∉ whole → next x = []}

/-- One step along the successor function. -/
def Next (next : α → List α) (x y : α) : Prop := y ∈ next x

theorem mem_explore_sound {seen todo : List α} {x : α}
    (h : x ∈ explore whole next outside seen todo) :
    x ∈ seen ∨ ∃ t ∈ todo, Relation.ReflTransGen (Next next) t x := by
  fun_induction explore whole next outside seen todo with
  | case1 seen => exact Or.inl h
  | case2 seen y rest hy ih =>
    rcases ih h with hseen | ⟨t, ht, hreach⟩
    · exact Or.inl hseen
    · exact Or.inr ⟨t, List.mem_cons_of_mem _ ht, hreach⟩
  | case3 seen y rest hy ih =>
    rcases ih h with hseen | ⟨t, ht, hreach⟩
    · rcases List.mem_cons.mp hseen with rfl | hseen
      · exact Or.inr ⟨x, List.mem_cons_self, .refl⟩
      · exact Or.inl hseen
    · rcases List.mem_append.mp ht with ht | ht
      · exact Or.inr ⟨y, List.mem_cons_self, .head ht hreach⟩
      · exact Or.inr ⟨t, List.mem_cons_of_mem _ ht, hreach⟩

/-- If all successors of what was seen were seen too or are still to do, the result is closed
under successors. -/
theorem explore_closed {seen todo : List α}
    (h : ∀ x ∈ seen, ∀ y ∈ next x, y ∈ seen ∨ y ∈ todo) :
    (∀ x, x ∈ seen ∨ x ∈ todo → x ∈ explore whole next outside seen todo) ∧
      ∀ x ∈ explore whole next outside seen todo, ∀ y ∈ next x,
        y ∈ explore whole next outside seen todo := by
  fun_induction explore whole next outside seen todo with
  | case1 seen => simpa using h
  | case2 seen y rest hy ih =>
    -- `y` was seen before, so that nothing is lost with it
    obtain ⟨hmem, hclosed⟩ := ih fun x hx z hz => by
      rcases h x hx z hz with hz | hz
      · exact Or.inl hz
      · rcases List.mem_cons.mp hz with rfl | hz
        · exact Or.inl hy
        · exact Or.inr hz
    refine ⟨fun x hx => hmem x ?_, hclosed⟩
    rcases hx with hx | hx
    · exact Or.inl hx
    · rcases List.mem_cons.mp hx with rfl | hx
      · exact Or.inl hy
      · exact Or.inr hx
  | case3 seen y rest hy ih =>
    -- `y` is seen now, and its successors are to do
    obtain ⟨hmem, hclosed⟩ := ih fun x hx z hz => by
      rw [List.mem_cons, List.mem_append]
      rcases List.mem_cons.mp hx with rfl | hx
      · exact Or.inr (Or.inl hz)
      · rcases h x hx z hz with hz | hz
        · exact Or.inl (Or.inr hz)
        · rcases List.mem_cons.mp hz with rfl | hz
          · exact Or.inl (Or.inl rfl)
          · exact Or.inr (Or.inr hz)
    refine ⟨fun x hx => hmem x ?_, hclosed⟩
    rw [List.mem_cons, List.mem_append]
    rcases hx with hx | hx
    · exact Or.inl (Or.inr hx)
    · rcases List.mem_cons.mp hx with rfl | hx
      · exact Or.inl (Or.inl rfl)
      · exact Or.inr (Or.inr hx)

theorem mem_explore_iff {todo : List α} {x : α} :
    x ∈ explore whole next outside [] todo ↔
      ∃ t ∈ todo, Relation.ReflTransGen (Next next) t x := by
  constructor
  · intro h
    exact (mem_explore_sound h).resolve_left List.not_mem_nil
  · rintro ⟨t, ht, hreach⟩
    have hrun : (∀ x, x ∈ [] ∨ x ∈ todo → x ∈ explore whole next outside [] todo) ∧
        ∀ x ∈ explore whole next outside [] todo, ∀ y ∈ next x,
          y ∈ explore whole next outside [] todo := explore_closed (by simp)
    induction hreach with
    | refl => exact hrun.1 t (Or.inr ht)
    | tail _ hstep ih => exact hrun.2 _ ih _ hstep

theorem seen_subset_explore {seen todo : List α} : seen ⊆ explore whole next outside seen todo := by
  fun_induction explore whole next outside seen todo with
  | case1 seen => exact fun x hx => hx
  | case2 seen y rest hy ih => exact ih
  | case3 seen y rest hy ih => exact fun x hx => ih (List.mem_cons_of_mem y hx)

/-- A search with a goal ends early just where the whole exploration finds the goal. -/
theorem meets_iff {goal : α} {seen todo : List α} (hgoal : goal ∉ seen) :
    meets whole next outside goal seen todo = true ↔
      goal ∈ explore whole next outside seen todo := by
  fun_induction meets whole next outside goal seen todo with
  | case1 seen =>
    rw [explore]
    exact iff_of_false Bool.false_ne_true hgoal
  | case2 seen rest =>
    rw [explore, if_neg hgoal]
    exact iff_of_true rfl (seen_subset_explore List.mem_cons_self)
  | case3 seen y rest hne hy ih =>
    rw [explore, if_pos hy]
    exact ih hgoal
  | case4 seen y rest hne hy ih =>
    rw [explore, if_neg hy]
    exact ih fun hmem => (List.mem_cons.mp hmem).elim (fun heq => hne heq.symm) hgoal

end

section Seek
variable {α : Type} [DecidableEq α] {whole : List α} {next : α → List α}
  {outside : ∀ x, x ∉ whole → next x = []} {test : α → Bool}

theorem exists_of_seek {seen todo : List α}
    (h : (seek whole next outside test seen todo).found = true) :
    ∃ t ∈ todo, ∃ x, Relation.ReflTransGen (Next next) t x ∧ test x = true := by
  fun_induction seek whole next outside test seen todo with
  | case1 seen => cases h
  | case2 seen x rest hx ih =>
    obtain ⟨t, ht, hreach⟩ := ih h
    exact ⟨t, List.mem_cons_of_mem _ ht, hreach⟩
  | case3 seen x rest hx htest => exact ⟨x, List.mem_cons_self, x, .refl, htest⟩
  | case4 seen x rest hx htest below hbelow hfound ih =>
    obtain ⟨t, ht, y, hreach, hy⟩ := ih hfound
    exact ⟨x, List.mem_cons_self, y, .head ht hreach, hy⟩
  | case5 seen x rest hx htest below hbelow hfound beside ihbelow ihbeside =>
    obtain ⟨t, ht, hreach⟩ := ihbeside h
    exact ⟨t, List.mem_cons_of_mem _ ht, hreach⟩

/-- Where nothing is found, all that was newly seen fails the test, and its successors were seen.
So a branch that passes over what another branch has seen misses nothing. -/
theorem settled_of_seek {seen todo : List α}
    (h : (seek whole next outside test seen todo).found = false) :
    todo ⊆ (seek whole next outside test seen todo).seen ∧
      ∀ x ∈ (seek whole next outside test seen todo).seen, x ∈ seen ∨
        test x = false ∧ next x ⊆ (seek whole next outside test seen todo).seen := by
  fun_induction seek whole next outside test seen todo with
  | case1 seen => exact ⟨List.nil_subset _, fun x hx => Or.inl hx⟩
  | case2 seen x rest hx ih =>
    obtain ⟨htodo, hsettled⟩ := ih h
    have hmem := (seek whole next outside test seen rest).grown hx
    exact ⟨List.cons_subset.mpr ⟨hmem, htodo⟩, hsettled⟩
  | case3 seen x rest hx htest => cases h
  | case4 seen x rest hx htest below hbelow hfound ih => cases h
  | case5 seen x rest hx htest below hbelow hfound beside ihbelow ihbeside =>
    obtain ⟨hnext, hinner⟩ := ihbelow (Bool.eq_false_iff.mpr hfound)
    obtain ⟨hrest, houter⟩ := ihbeside h
    have hmem : x ∈ below.seen := below.grown List.mem_cons_self
    refine ⟨List.cons_subset.mpr ⟨beside.grown hmem, hrest⟩, fun y hy => ?_⟩
    rcases houter y hy with hy | hy
    · rcases hinner y hy with hy | ⟨hno, hsub⟩
      · rcases List.mem_cons.mp hy with rfl | hy
        · exact Or.inr ⟨Bool.eq_false_iff.mpr htest, List.Subset.trans hnext beside.grown⟩
        · exact Or.inl hy
      · exact Or.inr ⟨hno, List.Subset.trans hsub beside.grown⟩
    · exact Or.inr hy

/-- A search that starts from nothing finds something exactly where it can be reached, so that the
order of the successors does not matter. -/
theorem seek_iff {todo : List α} : (seek whole next outside test [] todo).found = true ↔
    ∃ t ∈ todo, ∃ x, Relation.ReflTransGen (Next next) t x ∧ test x = true := by
  refine ⟨exists_of_seek, fun ⟨t, ht, x, hreach, hx⟩ => ?_⟩
  cases hfound : (seek whole next outside test [] todo).found with
  | true => rfl
  | false =>
    obtain ⟨htodo, hsettled⟩ := settled_of_seek hfound
    have hseen {y : α} (hy : Relation.ReflTransGen (Next next) t y) :
        y ∈ (seek whole next outside test [] todo).seen := by
      induction hy with
      | refl => exact htodo ht
      | tail _ hstep ih => exact ((hsettled _ ih).resolve_left List.not_mem_nil).2 hstep
    have hno := ((hsettled x (hseen hreach)).resolve_left List.not_mem_nil).1
    rw [hx] at hno
    cases hno

end Seek

end ActorLinks
