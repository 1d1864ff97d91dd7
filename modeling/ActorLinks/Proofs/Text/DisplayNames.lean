import ActorLinks.Proofs.Text.Names

/-! # Display names

The display name of a type is made of identifiers joined with dots, each of which may be followed by
a list of type arguments, display names themselves. The simple name is read up to the first such
list, so it is the identifier before that: the last one where only the last has type arguments.
-/
namespace ActorLinks

/-- What stands between the dots and brackets of a display name. -/
structure Identifier where
  text : String
  ne_empty : text ≠ "" := by decide
  plain : ∀ c ∈ text.toList, c ≠ '.' ∧ c ≠ '<' ∧ c ≠ '>' := by simp

/-- An identifier, with type arguments or without, alone or in the type or name space that another
display name stands for. -/
inductive DisplayName where
  | alone (name : Identifier) (arguments : Option (List DisplayName))
  | within (outer : DisplayName) (name : Identifier) (arguments : Option (List DisplayName))

namespace DisplayName

mutual

/-- The display name as a text, in which `separator` stands between type arguments. -/
def text (separator : String) : DisplayName → String
  | alone name arguments => name.text ++ argumentText separator arguments
  | within outer name arguments =>
    outer.text separator ++ "." ++ name.text ++ argumentText separator arguments

def argumentText (separator : String) : Option (List DisplayName) → String
  | none => ""
  | some arguments => "<" ++ separator.intercalate (argumentTexts separator arguments) ++ ">"

def argumentTexts (separator : String) : List DisplayName → List String
  | [] => []
  | argument :: arguments => argument.text separator :: argumentTexts separator arguments

end

/-- The identifier of the last segment. -/
def name : DisplayName → Identifier
  | alone name _ | within _ name _ => name

/-- All but the last segment. -/
def outer? : DisplayName → Option DisplayName
  | alone _ _ => none
  | within outer _ _ => some outer

/-- The identifier of the first segment that has type arguments. -/
def firstGeneric? : DisplayName → Option Identifier
  | alone name arguments => arguments.map fun _ => name
  | within outer name arguments => outer.firstGeneric?.or (arguments.map fun _ => name)

open Text

theorem isSegment_text (n : Identifier) : IsSegment n.text where
  dotless h := (n.plain _ h).1 rfl
  unbound h := (n.plain _ h).2.1 rfl

section Text
variable (separator : String)

theorem exists_argumentText (arguments : List DisplayName) :
    ∃ rest, (argumentText separator (some arguments)).toList = '<' :: rest :=
  ⟨(separator.intercalate (argumentTexts separator arguments) ++ ">").toList, by
    rw [argumentText, String.append_assoc, String.toList_append]
    rfl⟩

/-- A display name without type arguments ends in its last identifier. -/
theorem text_of_plain : ∀ {d : DisplayName}, d.firstGeneric? = none →
    '<' ∉ (d.text separator).toList ∧ lastSegment (d.text separator).toList = d.name.text.toList
  | alone name arguments, h => by
    obtain rfl := Option.map_eq_none_iff.mp h
    have hname := isSegment_text name
    rw [text, argumentText, String.append_empty]
    exact ⟨hname.unbound, lastSegment_eq_self hname.dotless⟩
  | within outer name arguments, h => by
    obtain ⟨houter, harguments⟩ := Option.or_eq_none_iff.mp h
    obtain rfl := Option.map_eq_none_iff.mp harguments
    have hname := isSegment_text name
    rw [text, argumentText, String.append_empty]
    refine ⟨lt_not_mem_dotted (text_of_plain houter).1 hname, ?_⟩
    rw [toList_dotted, lastSegment_append hname.dotless]
    rfl

/-- The first bracket stands after the first identifier with type arguments. -/
theorem exists_text_of_generic : ∀ {d : DisplayName} {n : Identifier}, d.firstGeneric? = some n →
    ∃ front rest, (d.text separator).toList = front ++ '<' :: rest ∧ '<' ∉ front ∧
      lastSegment front = n.text.toList
  | alone name arguments, n, h => by
    obtain ⟨arguments, rfl, rfl⟩ := Option.map_eq_some_iff.mp h
    obtain ⟨rest, hrest⟩ := exists_argumentText separator arguments
    have hname := isSegment_text name
    refine ⟨name.text.toList, rest, ?_, hname.unbound, lastSegment_eq_self hname.dotless⟩
    rw [text, String.toList_append, hrest]
  | within outer name arguments, n, h => by
    have hname := isSegment_text name
    rw [text, String.toList_append, toList_dotted]
    rcases Option.or_eq_some_iff.mp h with houter | ⟨houter, harguments⟩
    · obtain ⟨front, rest, htext, hfront, hlast⟩ := exists_text_of_generic houter
      rw [htext, List.append_assoc, List.append_assoc]
      exact ⟨front, _, rfl, hfront, hlast⟩
    · obtain ⟨arguments, rfl, rfl⟩ := Option.map_eq_some_iff.mp harguments
      obtain ⟨rest, hrest⟩ := exists_argumentText separator arguments
      have hplain := lt_not_mem_dotted (text_of_plain separator houter).1 hname
      rw [toList_dotted] at hplain
      exact ⟨_, rest, by rw [hrest], hplain, lastSegment_append hname.dotless⟩

theorem simpleName_text (d : DisplayName) :
    simpleName (d.text separator) = (d.firstGeneric?.getD d.name).text := by
  rw [simpleName]
  cases h : d.firstGeneric? with
  | none =>
    obtain ⟨hplain, hlast⟩ := text_of_plain separator h
    rw [unboundChars_eq_self hplain, hlast, String.ofList_toList]
    rfl
  | some n =>
    obtain ⟨front, rest, htext, hfront, hlast⟩ := exists_text_of_generic separator h
    rw [htext, unboundChars_append hfront, hlast, String.ofList_toList]
    rfl

end Text

/-- The last segment counts only where no outer one has type arguments. -/
theorem getD_firstGeneric? (d : DisplayName) :
    d.firstGeneric?.getD d.name = (d.outer?.bind firstGeneric?).getD d.name := by
  cases d with
  | alone name arguments => cases arguments <;> rfl
  | within outer name arguments =>
    change (outer.firstGeneric?.or _).getD name = outer.firstGeneric?.getD name
    cases outer.firstGeneric? with
    | none => cases arguments <;> rfl
    | some n => rfl

/-- The simple name is the identifier of the first segment with type arguments, and the last one
where no segment has any. So it is the last one just where no outer segment has type arguments, or
the first that has them is named alike. -/
theorem simpleName_text_iff (separator : String) (d : DisplayName) :
    simpleName (d.text separator) = (d.firstGeneric?.getD d.name).text ∧
    (simpleName (d.text separator) = d.name.text ↔
      ∀ generic ∈ d.outer?.bind firstGeneric?, generic.text = d.name.text) := by
  refine ⟨simpleName_text separator d, ?_⟩
  rw [simpleName_text, getD_firstGeneric?]
  cases d.outer?.bind firstGeneric? with
  | none => simp
  | some n => simp

/-- A type that stands in a generic one. -/
def keyCollection : DisplayName :=
  let arguments := [.alone { text := "ulong" } none,
    .within (.alone { text := "Discord" } none) { text := "IGuild" } none]
  let dictionary := .within (.alone { text := "Collections" } none) { text := "Dictionary" }
    (some arguments)
  .within dictionary { text := "KeyCollection" } none

theorem keyCollection_misnamed :
    keyCollection.text ", " = "Collections.Dictionary<ulong, Discord.IGuild>.KeyCollection" ∧
    keyCollection.name.text = "KeyCollection" ∧
    simpleName (keyCollection.text ", ") = "Dictionary" ∧ "Dictionary" ≠ "KeyCollection" := by
  decide +kernel

end DisplayName

end ActorLinks
