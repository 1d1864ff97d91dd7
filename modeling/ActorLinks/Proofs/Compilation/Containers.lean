import ActorLinks.Proofs.Compilation.Supertypes
import ActorLinks.Proofs.Text.Names

/-! # Containing types

A type that is named in the usual way stands in a type whose name is its own without the last
segment, and so on up to a type that stands directly in the name space. Then the names get shorter
on the way up, so none comes twice, and the chain of containing types breaks off nowhere.
-/
namespace ActorLinks.Compilation

/-- The type that a declared type stands in. -/
def container? (c : Compilation) (name : String) : Option String :=
  (c.type? name).bind (·.containingType)

/-- The names of the types around a type, from the inside out. -/
def containers (c : Compilation) (name : String) : List String :=
  c.chain (·.containingType) (c.container? name)

/-- The type and all types around it are named by a segment after what they stand in, the outermost
one after the name space. -/
inductive NamedIn (c : Compilation) (space : String) : String → Prop
  | outermost {segment : String} : Text.IsSegment segment →
      c.container? (space ++ "." ++ segment) = none → NamedIn c space (space ++ "." ++ segment)
  | inside {outer segment : String} : NamedIn c space outer → Text.IsSegment segment →
      c.container? (outer ++ "." ++ segment) = some outer →
      NamedIn c space (outer ++ "." ++ segment)

variable {c : Compilation} {space outer name segment : String}

theorem length_lt_dotted (outer segment : String) :
    outer.length < (outer ++ "." ++ segment).length := by
  rw [String.length_append, String.length_append]
  have hdot : ".".length = 1 := rfl
  omega

theorem containers_of_none (h : c.container? name = none) : c.containers name = [] := by
  rw [containers, h, chain, chainAfter]

namespace NamedIn

theorem lt_not_mem (h : c.NamedIn space name) (hspace : '<' ∉ space.toList) :
    '<' ∉ name.toList := by
  induction h with
  | outermost hsegment _ => exact Text.lt_not_mem_dotted hspace hsegment
  | inside _ hsegment _ ih => exact Text.lt_not_mem_dotted ih hsegment

theorem ne_of_dotless (h : c.NamedIn space name) {other : String} (hother : '.' ∉ other.toList) :
    name ≠ other := by
  rintro rfl
  cases h with
  | outermost _ _ => simp at hother
  | inside _ _ _ => simp at hother

/-- No name on the way up is as long as one that was met before. -/
theorem chainAfter_eq (h : c.NamedIn space name) {seen : List String}
    (hseen : ∀ s ∈ seen, name.length ≤ s.length) :
    c.chainAfter (·.containingType) seen (c.container? name) = c.containers name := by
  induction h generalizing seen with
  | outermost _ hnone => rw [containers_of_none hnone, hnone, chainAfter]
  | @inside outer segment _ _ hc ih =>
    have hlt := length_lt_dotted outer segment
    have hnew : outer ∉ seen := fun hmem => absurd (hseen outer hmem) (Nat.not_le.mpr hlt)
    have hlater : ∀ s ∈ outer :: seen, outer.length ≤ s.length :=
      List.forall_mem_cons.mpr ⟨Nat.le_refl _, fun s hs => hlt.le.trans (hseen s hs)⟩
    have hfirst : ∀ s ∈ [outer], outer.length ≤ s.length :=
      List.forall_mem_singleton.mpr (Nat.le_refl _)
    rw [containers, hc, chain_some, chainAfter, if_neg hnew]
    exact congrArg (outer :: ·) ((ih hlater).trans (ih hfirst).symm)

theorem containers_eq_cons (h : c.NamedIn space outer) (hc : c.container? name = some outer) :
    c.containers name = outer :: c.containers outer := by
  rw [containers, hc, chain_some]
  exact congrArg (outer :: ·)
    (h.chainAfter_eq (List.forall_mem_singleton.mpr (Nat.le_refl outer.length)))

end NamedIn

end ActorLinks.Compilation
