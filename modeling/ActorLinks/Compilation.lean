import ActorLinks.Reach
import ActorLinks.Symbol.Type

/-! # Compilations

The declared types by name and the relation "is a supertype of". The relation follows base
types and interfaces through declared types only, may reach names that no symbol declares,
and may run in cycles.
-/
namespace ActorLinks

structure Compilation where
  types : Dict TypeSymbol := ∅

namespace Compilation

/-- Of two symbols with one name the later one is kept. -/
def ofTypes (symbols : List TypeSymbol) : Compilation :=
  ⟨Dict.ofList (symbols.map fun t => (t.name, t))⟩

def type? (c : Compilation) (name : String) : Option TypeSymbol := c.types.get? name

/-- The types declared directly inside `container`, in name order. -/
def nestedTypes (c : Compilation) (container : String) : List TypeSymbol :=
  c.types.values.filter fun t => t.containingType == some container

/-- The types of a compilation stand in name order. -/
theorem pairwise_values_ofTypes (symbols : List TypeSymbol) :
    (ofTypes symbols).types.values.Pairwise fun s t => s.name < t.name := by
  have hname (key : String) (symbol : TypeSymbol)
      (h : (key, symbol) ∈ (ofTypes symbols).types.entries) : symbol.name = key := by
    refine Dict.forall_ofList (P := fun k s => s.name = k) ?_ (Dict.mem_entries_iff.mp h)
    intro e he
    obtain ⟨s, _, rfl⟩ := List.mem_map.mp he
    rfl
  have hkeys := List.pairwise_map.mp (ofTypes symbols).types.ascending
  rw [Dict.values, List.pairwise_map]
  refine hkeys.imp_of_mem fun {e f} he hf hlt => ?_
  rw [hname e.1 e.2 he, hname f.1 f.2 hf]
  exact hlt

def parents (c : Compilation) (name : String) : List String :=
  match c.type? name with
  | some t => t.parents
  | none => []

theorem type?_eq_none {c : Compilation} {name : String} (h : name ∉ c.types.keys) :
    c.type? name = none := by
  simp only [type?, Dict.get?, List.lookup_eq_none_iff]
  intro e he
  rw [bne_iff_ne]
  rintro rfl
  exact h (List.mem_map_of_mem he)

theorem parents_eq_nil (c : Compilation) (name : String) (h : name ∉ c.types.keys) :
    c.parents name = [] := by
  simp [parents, type?_eq_none h]

/-- Every other name that can be reached from `name` by steps to direct supertypes. -/
def supertypes (c : Compilation) (name : String) : SortedSet String :=
  (SortedSet.ofList (explore c.types.keys c.parents c.parents_eq_nil [] (c.parents name))).filter
    (· ≠ name)

/-- Whether `other` is met on the way up from `name`. No name implements itself. -/
def implements (c : Compilation) (name other : String) : Bool :=
  name ≠ other && meets c.types.keys c.parents c.parents_eq_nil other [] (c.parents name)

def implementsSimple (c : Compilation) (name simple : String) : Bool :=
  (c.supertypes name).toList.any fun parent => Text.simpleName parent == simple

/-- The names met by following one link from type to type; ends before a name that repeats. -/
def chainAfter (c : Compilation) (next : TypeSymbol → Option String) (seen : List String) :
    Option String → List String
  | none => []
  | some name =>
    if name ∈ seen then []
    else name :: c.chainAfter next (name :: seen) ((c.type? name).bind next)
  termination_by start => (countUnseen c.types.keys seen, if start.isSome then 1 else 0)
  decreasing_by
    by_cases hk : name ∈ c.types.keys
    · exact Prod.Lex.left _ _ (countUnseen_cons_lt hk ‹_›)
    · rw [type?_eq_none hk, countUnseen_cons_of_not_mem hk]
      exact Prod.Lex.right _ (by simp)

def chain (c : Compilation) (next : TypeSymbol → Option String) (start : Option String) :
    List String := c.chainAfter next [] start

end Compilation

end ActorLinks
