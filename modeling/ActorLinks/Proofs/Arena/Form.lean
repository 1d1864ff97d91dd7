import ActorLinks.Proofs.Arena.Growth

/-! # Forms of link trees

Whatever occurs within the tree of a target is one of five forms, and the form of a tree
determines the forms of its branches. In particular only some categories stand below others:
nothing below a back link, and neither link types nor hierarchies below an extension or a
hierarchy.
-/
namespace ActorLinks

/-- The categories that may stand directly below a category. -/
def Category.admits : Category → List Category
  | .actor | .linkType => [.backLink, .extension, .hierarchy, .linkType]
  | .extension | .hierarchy => [.backLink, .extension]
  | .backLink => []

theorem Category.actor_not_mem_admits (k : Category) : Category.actor ∉ k.admits := by
  cases k <;> simp [admits]

/-- Of one category with their parent are only link types and extensions. -/
theorem Category.eq_of_mem_admits {k : Category} (h : k ∈ k.admits) :
    k = .linkType ∨ k = .extension := by
  cases k <;> simp [admits] at h ⊢

namespace LinkTree
variable {c : Compilation} {s : Schematic} {t : Target}

inductive Form (c : Compilation) (s : Schematic) (t : Target) : LinkTree → Prop
  | actor : Form c s t (ofTarget c s t)
  | linkType (k : LinkKind) (e : Schematic.Entry) :
    Form c s t (node (.linkType k e)
      (trimmings c t ++ entryTrees (trimmings c t) (some k) e.children))
  | extension (symbol : TypeSymbol) (others : List TypeSymbol) :
    Form c s t (node (.extension symbol) (backLink :: extensions others))
  | hierarchy {marker : Attribute} (h : hierarchyMarker? c t = some marker) :
    Form c s t (node (.hierarchy marker) (backLink :: extensionsOf c t))
  | backLink : Form c s t backLink

theorem exists_of_mem_extensions {symbols : List TypeSymbol} {b : LinkTree}
    (h : b ∈ extensions symbols) :
    ∃ symbol others, b = node (.extension symbol) (backLink :: extensions others) := by
  rw [extensions] at h
  obtain ⟨p, _, rfl⟩ := List.mem_map.mp h
  exact ⟨p.1.1, p.1.2, rfl⟩

theorem exists_of_mem_entryTrees {extras : List LinkTree} {within : Option LinkKind}
    {es : List Schematic.Entry} {b : LinkTree} (h : b ∈ entryTrees extras within es) :
    ∃ k e, b = node (.linkType k e) (extras ++ entryTrees extras (some k) e.children) := by
  induction es with
  | nil => simp [entryTrees] at h
  | cons e es ih =>
    rw [entryTrees] at h
    rcases List.mem_append.mp h with h | h
    · obtain ⟨symbol, parameters, clauses, children⟩ := e
      rw [Option.mem_toList, entryTree?] at h
      cases hk : LinkKind.ofSymbol? symbol with
      | none => simp [hk] at h
      | some k =>
        simp only [hk] at h
        split at h
        · cases h
          exact ⟨k, ⟨symbol, parameters, clauses, children⟩, rfl⟩
        · cases h
    · exact ih h

theorem hierarchyOf?_eq_some {b : LinkTree} (h : hierarchyOf? c t = some b) :
    ∃ marker, hierarchyMarker? c t = some marker ∧
      b = node (.hierarchy marker) (backLink :: extensionsOf c t) := by
  obtain ⟨marker, hm, rfl⟩ := Option.map_eq_some_iff.mp h
  exact ⟨marker, hm, rfl⟩

theorem form_of_mem_extensions {symbols : List TypeSymbol} {b : LinkTree}
    (h : b ∈ backLink :: extensions symbols) :
    Form c s t b ∧ b.kind.category ∈ [Category.backLink, .extension] := by
  rcases List.mem_cons.mp h with rfl | h
  · exact ⟨.backLink, List.mem_cons_self⟩
  · obtain ⟨symbol, others, rfl⟩ := exists_of_mem_extensions h
    exact ⟨.extension symbol others, by simp [kind, NodeKind.category]⟩

theorem form_of_mem_trimmings {b : LinkTree} (h : b ∈ trimmings c t) :
    Form c s t b ∧ b.kind.category ∈ [Category.backLink, .extension, .hierarchy] := by
  rcases List.mem_append.mp h with h | h
  · obtain ⟨hform, hcat⟩ := form_of_mem_extensions (c := c) (s := s) (t := t) h
    exact ⟨hform, List.mem_append_left [Category.hierarchy] hcat⟩
  · obtain ⟨marker, hm, rfl⟩ := hierarchyOf?_eq_some (Option.mem_toList.mp h)
    exact ⟨.hierarchy hm, by simp [kind, NodeKind.category]⟩

theorem form_of_mem_branches {within : Option LinkKind} {es : List Schematic.Entry} {b : LinkTree}
    (h : b ∈ trimmings c t ++ entryTrees (trimmings c t) within es) :
    Form c s t b ∧ b.kind.category ∈ [Category.backLink, .extension, .hierarchy, .linkType] := by
  rcases List.mem_append.mp h with h | h
  · obtain ⟨hform, hcat⟩ := form_of_mem_trimmings (s := s) h
    exact ⟨hform, List.mem_append_left [Category.linkType] hcat⟩
  · obtain ⟨k, e, rfl⟩ := exists_of_mem_entryTrees h
    exact ⟨.linkType k e, by simp [kind, NodeKind.category]⟩

theorem Form.branch {tree b : LinkTree} (h : Form c s t tree) (hb : b ∈ tree.branches) :
    Form c s t b ∧ b.kind.category ∈ tree.kind.category.admits := by
  cases h with
  | actor => exact form_of_mem_branches hb
  | linkType k e => exact form_of_mem_branches hb
  | extension symbol others => exact form_of_mem_extensions hb
  | hierarchy hm => exact form_of_mem_extensions hb
  | backLink => cases hb

/-- Every tree of a target has its hierarchy directly below the actor, if it has one at all. -/
theorem hierarchy_mem_branches {marker : Attribute} (h : hierarchyMarker? c t = some marker) :
    node (.hierarchy marker) (backLink :: extensionsOf c t) ∈ (ofTarget c s t).branches := by
  simp [ofTarget, branches, trimmings, hierarchyOf?, h]

end LinkTree

end ActorLinks
