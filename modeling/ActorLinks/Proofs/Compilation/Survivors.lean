import ActorLinks.Proofs.Compilation.Supertypes
import Mathlib.Data.List.Induction

/-! # Supertypes of listed symbols

Of the symbols with one name the last one survives. The supertypes of a name can be read off the
survivors: they are the other names to which base types and interfaces lead from it. Names on the
way need not be declared, and the links may run in cycles, also through the name itself.
-/
namespace ActorLinks.Compilation
variable {symbols : List TypeSymbol} {s t : TypeSymbol} {name other : String}

/-- The symbol is listed, and no later one has its name. -/
def Survives (symbols : List TypeSymbol) (t : TypeSymbol) : Prop :=
  ∃ before after, symbols = before ++ t :: after ∧ ∀ s ∈ after, s.name ≠ t.name

/-- The surviving symbol with the first name has the second as base type or as interface. -/
def Derives (symbols : List TypeSymbol) (name other : String) : Prop :=
  ∃ t, Survives symbols t ∧ t.name = name ∧ (t.baseType = some other ∨ other ∈ t.interfaces)

theorem survives_concat_iff :
    Survives (symbols ++ [s]) t ↔ t = s ∨ Survives symbols t ∧ s.name ≠ t.name := by
  constructor
  · rintro ⟨before, after, hsplit, hafter⟩
    rcases List.eq_nil_or_concat after with rfl | ⟨rest, last, rfl⟩
    · exact Or.inl (List.singleton_inj.mp (List.append_inj_right' hsplit rfl)).symm
    · rw [List.concat_eq_append] at hsplit hafter
      rw [← List.cons_append, ← List.append_assoc] at hsplit
      obtain ⟨rfl, hlast⟩ := List.append_inj' hsplit rfl
      obtain rfl := List.singleton_inj.mp hlast
      exact Or.inr ⟨⟨before, rest, rfl, fun u hu => hafter u (List.mem_append_left _ hu)⟩,
        hafter s (List.mem_append_right _ List.mem_cons_self)⟩
  · rintro (rfl | ⟨⟨before, after, rfl, hafter⟩, hne⟩)
    · exact ⟨symbols, [], rfl, fun u hu => nomatch hu⟩
    · refine ⟨before, after ++ [s], by simp, fun u hu => ?_⟩
      rcases List.mem_append.mp hu with hu | hu
      · exact hafter u hu
      · rwa [List.mem_singleton.mp hu]

theorem type?_concat : (ofTypes (symbols ++ [s])).type? name
    = if name = s.name then some s else (ofTypes symbols).type? name := by
  simp only [type?, ofTypes, Dict.ofList, List.map_append, List.foldl_append, List.map_cons,
    List.map_nil, List.foldl_cons, List.foldl_nil, Dict.get?_insert]

/-- A name is looked up among the survivors. -/
theorem type?_ofTypes_iff :
    (ofTypes symbols).type? name = some t ↔ Survives symbols t ∧ t.name = name := by
  induction symbols using List.reverseRecOn with
  | nil =>
    refine iff_of_false (fun h => nomatch h) ?_
    rintro ⟨⟨before, after, hsplit, _⟩, _⟩
    simp at hsplit
  | append_singleton symbols s ih =>
    rw [type?_concat, survives_concat_iff]
    by_cases hname : name = s.name
    · rw [if_pos hname, Option.some.injEq]
      constructor
      · rintro rfl
        exact ⟨Or.inl rfl, hname.symm⟩
      · rintro ⟨rfl | ⟨_, hne⟩, ht⟩
        · rfl
        · exact absurd (hname.symm.trans ht.symm) hne
    · rw [if_neg hname, ih]
      constructor
      · rintro ⟨hsurvives, rfl⟩
        exact ⟨Or.inr ⟨hsurvives, fun h => hname h.symm⟩, rfl⟩
      · rintro ⟨rfl | ⟨hsurvives, _⟩, ht⟩
        · exact absurd ht.symm hname
        · exact ⟨hsurvives, ht⟩

theorem next_parents_ofTypes : Next (ofTypes symbols).parents name other ↔
    Derives symbols name other := by
  have hparents (t : TypeSymbol) :
      other ∈ t.parents ↔ t.baseType = some other ∨ other ∈ t.interfaces := by
    rw [TypeSymbol.parents, List.mem_append, Option.mem_toList]
  unfold Next parents Derives
  simp only [← and_assoc, ← type?_ofTypes_iff]
  cases (ofTypes symbols).type? name with
  | none => simp
  | some t => simp [hparents]

/-- The supertypes of a name are the other names that the surviving symbols lead to from it, and a
name implements just those. -/
theorem supertypes_of_survivors (symbols : List TypeSymbol) (name other : String) :
    (other ∈ (ofTypes symbols).supertypes name ↔
      other ≠ name ∧ Relation.TransGen (Derives symbols) name other) ∧
    ((ofTypes symbols).implements name other = true ↔
      other ∈ (ofTypes symbols).supertypes name) := by
  have hsteps : Next (ofTypes symbols).parents = Derives symbols := by
    funext a b
    exact propext next_parents_ofTypes
  refine ⟨?_, implements_iff⟩
  rw [mem_supertypes_iff, Above, hsteps]

end ActorLinks.Compilation
