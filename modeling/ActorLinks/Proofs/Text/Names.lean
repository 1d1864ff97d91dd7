import ActorLinks.Symbol.Type
import Mathlib.Data.List.TakeWhile

/-! # Dotted names

Without its type arguments a name splits at its last dot into a qualifier and a segment. The name
that a type is declared by is its last segment, followed by type parameters if there are any.
-/
namespace ActorLinks.Text
variable {cs front last : List Char} {name qualifier segment : String}

theorem lt_not_mem_unboundChars (cs : List Char) : '<' ∉ unboundChars cs :=
  fun h => by simpa using List.mem_takeWhile_imp h

theorem unboundChars_eq_self (h : '<' ∉ cs) : unboundChars cs = cs := by
  refine List.takeWhile_eq_self_iff.mpr fun c hc => ?_
  simpa using ne_of_mem_of_not_mem hc h

theorem unboundChars_append (h : '<' ∉ cs) (rest : List Char) :
    unboundChars (cs ++ '<' :: rest) = cs := by
  have hall : ∀ c ∈ cs, decide (c ≠ '<') = true := fun c hc => by
    simpa using ne_of_mem_of_not_mem hc h
  rw [unboundChars, List.takeWhile_append_of_pos hall]
  simp

/-- A scan from the end stops at the last dot. -/
theorem reverse_append_dot (h : '.' ∉ last) :
    (front ++ '.' :: last).reverse.takeWhile (· ≠ '.') = last.reverse ∧
    (front ++ '.' :: last).reverse.dropWhile (· ≠ '.') = '.' :: front.reverse := by
  have hall : ∀ c ∈ last.reverse, decide (c ≠ '.') = true := fun c hc => by
    simpa using ne_of_mem_of_not_mem (List.mem_reverse.mp hc) h
  rw [List.reverse_append, List.reverse_cons, List.append_assoc, List.takeWhile_append_of_pos hall,
    List.dropWhile_append_of_pos hall]
  simp

theorem lastSegment_eq_self (h : '.' ∉ cs) : lastSegment cs = cs := by
  have hall : cs.reverse.takeWhile (· ≠ '.') = cs.reverse := by
    refine List.takeWhile_eq_self_iff.mpr fun c hc => ?_
    simpa using ne_of_mem_of_not_mem (List.mem_reverse.mp hc) h
  rw [lastSegment, hall, List.reverse_reverse]

theorem lastSegment_append (h : '.' ∉ last) : lastSegment (front ++ '.' :: last) = last := by
  rw [lastSegment, (reverse_append_dot h).1, List.reverse_reverse]

theorem qualifier?_append (h : '.' ∉ last) :
    qualifier? (front ++ '.' :: last) = some front := by
  rw [qualifier?, (reverse_append_dot h).2]
  exact congrArg some front.reverse_reverse

theorem lt_not_mem_simpleName (name : String) : '<' ∉ (simpleName name).toList := by
  rw [simpleName, String.toList_ofList, lastSegment, List.mem_reverse]
  exact fun h => lt_not_mem_unboundChars name.toList
    (List.mem_reverse.mp ((List.takeWhile_sublist _).subset h))

/-- One part of a dotted name. -/
structure IsSegment (segment : String) : Prop where
  dotless : '.' ∉ segment.toList
  unbound : '<' ∉ segment.toList

theorem toList_dotted (qualifier segment : String) :
    (qualifier ++ "." ++ segment).toList = qualifier.toList ++ '.' :: segment.toList := by
  rw [String.toList_append, String.toList_append, List.append_assoc]
  rfl

theorem lt_not_mem_dotted (hqualifier : '<' ∉ qualifier.toList) (hsegment : IsSegment segment) :
    '<' ∉ (qualifier ++ "." ++ segment).toList := by
  rw [toList_dotted, List.mem_append, List.mem_cons]
  rintro (h | h | h)
  · exact hqualifier h
  · cases h
  · exact hsegment.unbound h

theorem simpleName_dotted (hqualifier : '<' ∉ qualifier.toList) (hsegment : IsSegment segment) :
    simpleName (qualifier ++ "." ++ segment) = segment := by
  rw [simpleName, unboundChars_eq_self (lt_not_mem_dotted hqualifier hsegment), toList_dotted,
    lastSegment_append hsegment.dotless, String.ofList_toList]

@[simp] theorem unbound_simpleName (name : String) :
    unbound (simpleName name) = simpleName name := by
  rw [unbound, unboundChars_eq_self (lt_not_mem_simpleName name), String.ofList_toList]

theorem unbound_declaredName (s : TypeSymbol) : unbound s.declaredName = simpleName s.name := by
  rw [TypeSymbol.declaredName, withTypeParameters]
  split
  · exact unbound_simpleName s.name
  · rw [unbound, String.toList_append, String.toList_append, String.toList_append,
      List.append_assoc, List.append_assoc]
    exact (congrArg String.ofList (unboundChars_append (lt_not_mem_simpleName s.name) _)).trans
      String.ofList_toList

end ActorLinks.Text
