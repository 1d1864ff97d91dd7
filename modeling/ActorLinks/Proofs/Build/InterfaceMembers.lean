import ActorLinks.Proofs.Build.NestedTypes

/-! # Members of the interfaces of nodes

The declaration of a node is the interface that its part gives, with a method that creates the node
and with the declarations of the nodes below it. So every other member is one of that interface.
-/
namespace ActorLinks.LinkGraph
variable {g : LinkGraph} {i n p : NodeId} {d t face implementing : TypeDecl} {create : Decl.Method}

section Face
variable (hpart : g.partAs (g.arena.category i) i =
  .ok (g.withImplementation i face implementing create))
include hpart

/-- What is declared for a node with an interface. -/
theorem DeclaredAs.exists_below (h : g.DeclaredAs i d) : ∃ below,
    (g.arena.children i).mapM g.buildNode = .ok below ∧
      (d = face.addMembers (Built.members below) ∨
        d = (face.addMember create).addMembers (Built.members below)) := by
  obtain ⟨hoisted, hbuilt⟩ := h
  obtain ⟨part, hpart', hrest⟩ := exists_of_buildNode hbuilt
  obtain rfl := Except.ok.inj (hpart.symm.trans hpart')
  cases himplemented : g.arena.isImplemented i && (g.arena.rootActor? i).isSome with
  | true =>
    rw [withImplementation, if_pos himplemented] at hrest
    obtain ⟨below, hbelow, heq⟩ := hrest
    cases heq
    exact ⟨below, hbelow, Or.inr rfl⟩
  | false =>
    rw [withImplementation, if_neg (by simp [himplemented])] at hrest
    obtain ⟨below, hbelow, heq⟩ := hrest
    cases heq
    exact ⟨below, hbelow, Or.inl rfl⟩

theorem DeclaredAs.mem_members_iff (h : g.DeclaredAs i d) {m : Member} (hm : m.type? = none)
    (hcreate : m ≠ create) : m ∈ d.members ↔ m ∈ face.members := by
  obtain ⟨below, _, hd⟩ := h.exists_below hpart
  have hbelow : m ∉ Built.members below := by
    intro hmem
    obtain ⟨b, _, hb⟩ := List.mem_filterMap.mp hmem
    obtain ⟨_, _, rfl⟩ := Option.map_eq_some_iff.mp hb
    cases hm
  rcases hd with rfl | rfl
  · simp [hbelow]
  · simp [hbelow, hcreate]

/-- The declaration of a node takes in those of its children. -/
theorem DeclaredAs.mem_of_child (h : g.DeclaredAs i d) (hn : g.arena.parent? n = some i)
    (ht : g.DeclaredAs n t) : Member.type t ∈ d.members := by
  obtain ⟨below, hbelow, hd⟩ := h.exists_below hpart
  obtain ⟨classes, hbuilt⟩ := ht
  have hmem : Member.type t ∈ Built.members below := mem_builtMembers.mpr
    ⟨_, (Failure.mem_mapM_iff hbelow).mpr ⟨n, Arena.mem_children_iff.mpr hn, hbuilt⟩, rfl⟩
  rcases hd with rfl | rfl
  all_goals exact (TypeDecl.mem_members_addMembers _).mpr (Or.inr hmem)

theorem Complete.exists_declaredAs (h : g.Complete) (hp : g.arena.parent? i = some p) :
    ∃ d, g.DeclaredAs i d := by
  obtain ⟨decl, hoisted, hspread⟩ : ∃ decl hoisted,
      g.withImplementation i face implementing create = .spread decl hoisted :=
    exists_withImplementation rfl
  rw [hspread] at hpart
  obtain ⟨d, classes, hbuilt, _⟩ := h.exists_decl hp hpart
  exact ⟨d, classes, hbuilt⟩

end Face

end ActorLinks.LinkGraph
