import ActorLinks.Proofs.Build.Inheritance
import ActorLinks.Proofs.Build.Explicit

/-! # Inherited back links

Every node but a back link has one back link, which is its first child. A walk takes a back link as
its last step only, so a back link inherits those of the actor and of all that its parent composes,
and its equivalents in other trees are back links as well. Whether it is covariant depends on its
own parent alone: a property of that extension may mirror back links only.
-/
namespace ActorLinks

namespace LinkTree
variable {c : Compilation} {s : Schematic} {t : Target}

/-- A tree begins with its back link and has no other at its top. -/
theorem Form.branches_eq {tree : LinkTree} (h : Form c s t tree)
    (hk : tree.kind.category ≠ .backLink) : ∃ rest, tree.branches = LinkTree.backLink :: rest ∧
      ∀ b ∈ rest, b.kind.category ≠ .backLink := by
  have hextensions {symbols : List TypeSymbol} {b : LinkTree} (hb : b ∈ extensions symbols) :
      b.kind.category ≠ .backLink := by
    obtain ⟨symbol, others, rfl⟩ := exists_of_mem_extensions hb
    exact nofun
  have hentries {extras : List LinkTree} {within : Option LinkKind} {es : List Schematic.Entry}
      {b : LinkTree} (hb : b ∈ entryTrees extras within es) : b.kind.category ≠ .backLink := by
    obtain ⟨k, e, rfl⟩ := exists_of_mem_entryTrees hb
    exact nofun
  have htop {within : Option LinkKind} {es : List Schematic.Entry} {b : LinkTree}
      (hb : b ∈ extensionsOf c t ++ (hierarchyOf? c t).toList
        ++ entryTrees (trimmings c t) within es) : b.kind.category ≠ .backLink := by
    rcases List.mem_append.mp hb with hb | hb
    · rcases List.mem_append.mp hb with hb | hb
      · exact hextensions hb
      · obtain ⟨marker, _, rfl⟩ := hierarchyOf?_eq_some (Option.mem_toList.mp hb)
        exact nofun
    · exact hentries hb
  cases h with
  | actor => exact ⟨_, rfl, fun b hb => htop hb⟩
  | linkType k e => exact ⟨_, rfl, fun b hb => htop hb⟩
  | extension symbol others => exact ⟨_, rfl, fun b hb => hextensions hb⟩
  | hierarchy => exact ⟨_, rfl, fun b hb => hextensions hb⟩
  | backLink => exact absurd rfl hk

end LinkTree

namespace Arena
variable {a : Arena}

theorem traits_of_backLink {n : NodeId} (h : a.category n = .backLink) :
    a.traits n = (.backLink, "BackLink<TSource>", a.isImplemented n) := by
  unfold category at h
  unfold traits typeName
  cases hk : a.kind n with
  | backLink => rfl
  | _ => simp [hk, NodeKind.category] at h

theorem traits_eq_of_backLinks {m n : NodeId} (hm : a.category m = .backLink)
    (hn : a.category n = .backLink) (h : a.isImplemented m = a.isImplemented n) :
    a.traits m = a.traits n := by
  rw [traits_of_backLink hm, traits_of_backLink hn, h]

theorem isImplemented_of_traits {m n : NodeId} (hm : a.category m = .backLink)
    (h : a.traits m = a.traits n) : a.isImplemented m = a.isImplemented n := by
  have hn : a.category n = .backLink := by rw [← traits_fst, ← h, traits_fst, hm]
  rw [traits_of_backLink hm, traits_of_backLink hn] at h
  exact (Prod.mk.inj (Prod.mk.inj h).2).2

/-- Below an actor, a back link is implemented outside the core assembly. -/
theorem isImplemented_of_backLink {i root : NodeId} (hk : a.category i = .backLink)
    (hroot : a.rootActor? i = some root) : a.isImplemented i = !a.isCore i := by
  unfold category at hk
  cases hkind : a.kind i with
  | backLink => simp [isImplemented, hkind, hroot]
  | _ => simp [hkind, NodeKind.category] at hk

theorem pathBelow_eq {i p : NodeId} (hp : a.parent? i = some p) :
    a.pathBelow i = (if (a.kind p).isActor then [] else a.pathBelow p) ++ [i] := by
  cases hk : (a.kind p).isActor with
  | true => simp [pathBelow_of_actor hp hk]
  | false => simp [pathBelow_of_parent hp hk]

/-- No back link stands above the end of a path. -/
theorem Nested.eq_of_backLink_mem_pathBelow (h : a.Nested) {i q : NodeId} (hq : q ∈ a.pathBelow i)
    (hk : a.category q = .backLink) : q = i := by
  induction i using Nat.strongRecOn with
  | ind i ih =>
    cases hp : a.parent? i with
    | none => simpa [pathBelow, parents_of_none hp] using hq
    | some p =>
      rw [pathBelow_eq hp] at hq
      rcases List.mem_append.mp hq with hq | hq
      · split at hq
        · cases hq
        · obtain rfl := ih p (lt_of_parent hp) hq
          exact absurd hk (h.category_ne_backLink hp)
      · exact List.mem_singleton.mp hq

end Arena

namespace LinkGraph
variable {c : Compilation} {sch : Schematic} {targets : List Target} {g : LinkGraph}
  {i m n p : NodeId}

/-- Below an actor, a node composes the other nodes that choices from its path lead to. -/
theorem mem_implicitComposition_iff_reaches (h : g.arena.Nested) {root : NodeId}
    (hroot : g.arena.rootActor? i = some root) : n ∈ g.implicitComposition i ↔
      g.arena.Reaches root (g.arena.pathBelow i) n ∧ n ≠ i := by
  rw [implicitComposition, h.isActor_of_rootActor? hroot, if_neg Bool.false_ne_true,
    h.mem_composition_true_iff]
  constructor
  · rintro ⟨root', hroot', _, _, hreaches, hne⟩
    obtain rfl := Option.some.inj (hroot'.symm.trans hroot)
    exact ⟨hreaches, hne⟩
  · rintro ⟨hreaches, hne⟩
    obtain ⟨root', hroot', hactor, hpath⟩ :=
      h.exists_root (Arena.lt_size_of_rootActor? hroot) (h.isActor_of_rootActor? hroot)
    obtain rfl := Option.some.inj (hroot'.symm.trans hroot)
    exact ⟨root', hroot', hactor, hpath, hreaches, hne⟩

theorem lt_size_of_mem_implicitComposition (h : g.arena.Nested) (hm : m ∈ g.implicitComposition p) :
    m < g.arena.size := by
  obtain ⟨q, hq⟩ := exists_parent_of_mem hm
  obtain ⟨root, hroot, hactor, _⟩ :=
    h.exists_root (Arena.lt_size_of_parent hq) (h.isActor_of_parent hq)
  obtain ⟨⟨_, _, _, hwalk⟩, _⟩ := (mem_implicitComposition_iff_reaches h hroot).mp hm
  by_cases hmroot : m = root
  · rw [hmroot]
    exact Arena.lt_size_of_mem_parents (List.mem_of_find?_eq_some hroot)
  · exact Arena.lt_size_of_rootActor? (h.rootActor?_of_walk? hactor hwalk hmroot)

theorem ne_of_mem_implicitComposition (h : g.arena.Nested) (hm : m ∈ g.implicitComposition p) :
    m ≠ p := by
  obtain ⟨q, hq⟩ := exists_parent_of_mem hm
  obtain ⟨root, hroot, _⟩ := h.exists_root (Arena.lt_size_of_parent hq) (h.isActor_of_parent hq)
  exact ((mem_implicitComposition_iff_reaches h hroot).mp hm).2

/-- The parent of another node composes no back links. -/
theorem not_backLink_of_mem (h : g.arena.Nested) (hp : g.arena.parent? i = some p)
    (hm : m ∈ g.implicitComposition p) : g.arena.category m ≠ .backLink := by
  intro hk
  obtain ⟨q, hq⟩ := exists_parent_of_mem hm
  obtain ⟨root, hroot, _, _⟩ := h.exists_root (Arena.lt_size_of_parent hq) (h.isActor_of_parent hq)
  obtain ⟨segment, hsegment, hcategory⟩ :=
    ((mem_implicitComposition_iff_reaches h hroot).mp hm).1.exists_segment
  obtain rfl := h.eq_of_backLink_mem_pathBelow hsegment (hcategory.trans hk)
  exact h.category_ne_backLink hp (hcategory.trans hk)

section Grounded
variable (hg : Grounded c sch targets g)
include hg

theorem Grounded.children_eq (hi : i < g.arena.size) (hk : g.arena.category i ≠ .backLink) :
    ∃ b rest, g.arena.children i = b :: rest ∧ g.arena.category b = .backLink ∧
      ∀ n ∈ rest, g.arena.category n ≠ .backLink := by
  obtain ⟨tree, hform, hshows⟩ := hg.exists_form hi
  have hkind : tree.kind.category ≠ .backLink := by rwa [← hshows.kind_eq]
  obtain ⟨rest, hbranches, hothers⟩ := hform.branches_eq hkind
  have hchildren := hshows.children
  rw [hbranches] at hchildren
  cases hids : g.arena.children i with
  | nil =>
    rw [hids] at hchildren
    exact hchildren.elim
  | cons b ids =>
    rw [hids] at hchildren
    refine ⟨b, ids, rfl, ?_, fun n hn => ?_⟩
    · rw [Arena.category, hchildren.1.kind_eq]
      rfl
    · obtain ⟨t, ht, hshow⟩ := hchildren.2.exists_branch hn
      rw [Arena.category, hshow.kind_eq]
      exact hothers t ht

theorem Grounded.exists_backLinkOf? (hi : i < g.arena.size)
    (hk : g.arena.category i ≠ .backLink) : ∃ n, g.arena.backLinkOf? i = some n := by
  obtain ⟨b, rest, hchildren, hb, _⟩ := hg.children_eq hi hk
  refine ⟨b, ?_⟩
  rw [Arena.backLinkOf?, Arena.childOf?, hchildren]
  exact List.find?_cons_of_pos (by simpa using hb)

/-- A node has one back link. -/
theorem Grounded.backLinkOf?_eq_some : g.arena.backLinkOf? m = some n ↔
    g.arena.parent? n = some m ∧ g.arena.category n = .backLink := by
  have hfound {k : NodeId} (hk : g.arena.backLinkOf? m = some k) :
      g.arena.parent? k = some m ∧ g.arena.category k = .backLink :=
    ⟨Arena.mem_children_iff.mp (List.mem_of_find?_eq_some hk),
      by simpa using List.find?_some (show (g.arena.children m).find? _ = some k from hk)⟩
  refine ⟨hfound, fun ⟨hp, hk⟩ => ?_⟩
  have hm : m < g.arena.size := Nat.lt_trans (Arena.lt_of_parent hp) (Arena.lt_size_of_parent hp)
  have hkm := hg.nested.category_ne_backLink hp
  obtain ⟨b, hb⟩ := hg.exists_backLinkOf? hm hkm
  obtain ⟨first, rest, hchildren, _, hothers⟩ := hg.children_eq hm hkm
  have honly {k : NodeId} (hk : g.arena.parent? k = some m) (hkk : g.arena.category k = .backLink) :
      k = first := by
    have hmem : k ∈ first :: rest := hchildren ▸ Arena.mem_children_iff.mpr hk
    exact (List.mem_cons.mp hmem).resolve_right fun hrest => hothers k hrest hkk
  rw [hb, honly hp hk, honly (hfound hb).1 (hfound hb).2]

theorem Grounded.isCore_of_rootActor? {root : NodeId} (hroot : g.arena.rootActor? i = some root) :
    g.arena.isCore i = g.arena.isCore root := by
  show (g.target i).isCore = (g.target root).isCore
  rw [hg.target_of_mem_parents (List.mem_of_find?_eq_some hroot)]

/-- From a node, a back link leads to that of the node. -/
theorem Grounded.step?_eq_some {root : NodeId} (hk : g.arena.category i = .backLink)
    (hi : g.arena.rootActor? i = some root) (hn : g.arena.rootActor? n = some root)
    (hm : g.arena.backLinkOf? m = some n) : g.arena.step? m i = some n := by
  obtain ⟨hp, hkn⟩ := hg.backLinkOf?_eq_some.mp hm
  have himplemented : g.arena.isImplemented n = g.arena.isImplemented i := by
    rw [Arena.isImplemented_of_backLink hk hi, Arena.isImplemented_of_backLink hkn hn,
      hg.isCore_of_rootActor? hi, hg.isCore_of_rootActor? hn]
  have hagrees : g.arena.semanticEq n i = true :=
    Arena.semanticEq_iff.mpr (Arena.traits_eq_of_backLinks hkn hk himplemented)
  have hsome : (g.arena.step? m i).isSome = true :=
    List.find?_isSome.mpr ⟨n, Arena.mem_children_iff.mpr hp, hagrees⟩
  obtain ⟨k, hstep⟩ := Option.isSome_iff_exists.mp hsome
  have hcategory := congrArg Prod.fst (Arena.traits_of_step? hstep)
  rw [Arena.traits_fst, Arena.traits_fst, hk] at hcategory
  have hsame := hg.backLinkOf?_eq_some.mpr ⟨Arena.parent_of_step? hstep, hcategory⟩
  rw [hstep, ← hm, hsame]

/-- What a walk leads to has its back link below the same actor. -/
theorem Grounded.rootActor?_backLink {root : NodeId} {segments : List NodeId}
    (hroot : (g.arena.kind root).isActor = true) (hwalk : g.arena.walk? root segments = some m)
    (hp : g.arena.parent? n = some m) : g.arena.rootActor? n = some root := by
  by_cases hmroot : m = root
  · subst hmroot
    exact Arena.rootActor?_of_actor hp hroot
  · have hrootm := hg.nested.rootActor?_of_walk? hroot hwalk hmroot
    rw [Arena.rootActor?_of_parent hp (hg.nested.isActor_of_rootActor? hrootm), hrootm]

/-- A walk that ends at a back link takes the step to it from what the parent composes, or from the
actor. -/
theorem Grounded.exists_backLinkOf?_of_reaches {root : NodeId} (hp : g.arena.parent? i = some p)
    (hk : g.arena.category i = .backLink) (hroot : g.arena.rootActor? i = some root)
    (hn : g.arena.Reaches root (g.arena.pathBelow i) n) (hkn : g.arena.category n = .backLink)
    (hne : n ≠ i) : ∃ m, g.arena.backLinkOf? m = some n ∧
      (root = m ∨ m ∈ g.implicitComposition p) := by
  obtain ⟨segments, hnil, hsub, hwalk⟩ := hn
  obtain ⟨front, q, rfl⟩ : ∃ front q, segments = front ++ [q] :=
    ⟨_, _, (List.dropLast_append_getLast hnil).symm⟩
  rw [Arena.walk?_append] at hwalk
  obtain ⟨m, hm, hstep⟩ := Option.bind_eq_some_iff.mp hwalk
  obtain ⟨_, hq, hlast⟩ := Option.bind_eq_some_iff.mp hstep
  cases hlast
  have hkq : g.arena.category q = .backLink := by
    rw [← Arena.traits_fst, ← Arena.traits_of_step? hq, Arena.traits_fst, hkn]
  obtain rfl := hg.nested.eq_of_backLink_mem_pathBelow (hsub.subset (by simp)) hkq
  have hbackLink := hg.backLinkOf?_eq_some.mpr ⟨Arena.parent_of_step? hq, hkn⟩
  refine ⟨m, hbackLink, ?_⟩
  rw [Arena.pathBelow_eq hp, List.append_sublist_append_right] at hsub
  cases front with
  | nil =>
    cases hm
    exact Or.inl rfl
  | cons x xs =>
    cases hkp : (g.arena.kind p).isActor with
    | true => simp [hkp] at hsub
    | false =>
      rw [Arena.rootActor?_of_parent hp hkp] at hroot
      refine Or.inr ((mem_implicitComposition_iff_reaches hg.nested hroot).mpr
        ⟨⟨x :: xs, List.cons_ne_nil _ _, by simpa [hkp] using hsub, hm⟩, ?_⟩)
      -- the parent has no other back link than the node itself
      rintro rfl
      have hself := hg.backLinkOf?_eq_some.mpr ⟨hp, hk⟩
      exact hne (Option.some.inj (hbackLink.symm.trans hself))

/-- A back link composes those of the actor and of what its parent composes. -/
theorem Grounded.mem_composition_backLink (hp : g.arena.parent? i = some p)
    (hk : g.arena.category i = .backLink) :
    n ∈ g.implicitComposition i ∧ g.arena.category n = .backLink ↔
      n ≠ i ∧ ∃ m, g.arena.backLinkOf? m = some n ∧
        (g.arena.rootActor? i = some m ∨ m ∈ g.implicitComposition p) := by
  obtain ⟨root, hroot, hactor, _⟩ :=
    hg.nested.exists_root (Arena.lt_size_of_parent hp) (hg.nested.isActor_of_parent hp)
  rw [mem_implicitComposition_iff_reaches hg.nested hroot, hroot]
  simp only [Option.some_inj]
  constructor
  · rintro ⟨⟨hreaches, hne⟩, hkn⟩
    exact ⟨hne, hg.exists_backLinkOf?_of_reaches hp hk hroot hreaches hkn hne⟩
  · rintro ⟨hne, m, hm, habove⟩
    obtain ⟨hpn, hkn⟩ := hg.backLinkOf?_eq_some.mp hm
    refine ⟨⟨?_, hne⟩, hkn⟩
    have hreaches {front : List NodeId}
        (hsub : front.Sublist (if (g.arena.kind p).isActor then [] else g.arena.pathBelow p))
        (hwalk : g.arena.walk? root front = some m) :
        g.arena.Reaches root (g.arena.pathBelow i) n := by
      have hstep := hg.step?_eq_some hk hroot (hg.rootActor?_backLink hactor hwalk hpn) hm
      refine ⟨front ++ [i], by simp, ?_, ?_⟩
      · rw [Arena.pathBelow_eq hp]
        exact hsub.append (List.Sublist.refl _)
      · rw [Arena.walk?_append, hwalk, Option.bind_some, Arena.walk?, hstep]
        rfl
    rcases habove with rfl | hmem
    · exact hreaches (List.nil_sublist _) rfl
    · cases hkp : (g.arena.kind p).isActor with
      | true => simp [implicitComposition, hkp] at hmem
      | false =>
        rw [Arena.rootActor?_of_parent hp hkp] at hroot
        obtain ⟨⟨front, _, hsub, hwalk⟩, _⟩ :=
          (mem_implicitComposition_iff_reaches hg.nested hroot).mp hmem
        exact hreaches (by simpa [hkp] using hsub) hwalk

/-- What a node composes stands below the same actor. -/
theorem Grounded.isCore_of_mem_implicitComposition (hn : n ∈ g.implicitComposition i) :
    g.arena.isCore n = g.arena.isCore i := by
  obtain ⟨q, hq⟩ := exists_parent_of_mem hn
  obtain ⟨root, hroot, hactor, _⟩ :=
    hg.nested.exists_root (Arena.lt_size_of_parent hq) (hg.nested.isActor_of_parent hq)
  obtain ⟨⟨_, _, _, hwalk⟩, _⟩ := (mem_implicitComposition_iff_reaches hg.nested hroot).mp hn
  rw [hg.isCore_of_rootActor? hroot]
  by_cases hne : n = root
  · rw [hne]
  · exact hg.isCore_of_rootActor? (hg.nested.rootActor?_of_walk? hactor hwalk hne)

end Grounded

section Visited
variable (hv : Visits (ofTargets c sch targets) g)
include hv

/-- A back link inherits that of the actor and those of all that its parent composes. -/
theorem Visits.mem_inheritedBackLinks_iff {v : NodeState} (hstate : g.state? i = some v)
    (hp : g.arena.parent? i = some p) (hk : g.arena.category i = .backLink) :
    n ∈ g.inheritedBackLinks i ↔ n ≠ i ∧ ∃ m, g.arena.backLinkOf? m = some n ∧
      (g.arena.rootActor? i = some m ∨ m ∈ g.implicitComposition p) := by
  have hg := hv.grounded
  have hown : v.composition = g.exclusiveComposition i := (hv.composed hstate).2
  rw [← hg.mem_composition_backLink hp hk, inheritedBackLinks, SortedSet.mem_filter,
    SortedSet.mem_ofList, List.mem_append, hstate, decide_eq_true_iff]
  constructor
  · rintro ⟨hmem | hmem, hne⟩
    · obtain ⟨hmem, hkn⟩ := List.mem_filter.mp hmem
      rw [hown] at hmem
      exact ⟨(SortedSet.mem_diff.mp hmem).1, beq_iff_eq.mp hkn⟩
    · -- what the parent composes it composes in full
      rw [hp, Option.bind_some] at hmem
      cases hw : g.state? p with
      | none => simp [hw] at hmem
      | some w =>
        rw [hw] at hmem
        obtain ⟨m, hm, hbackLink⟩ := List.mem_filterMap.mp hmem
        rw [(hv.composed hw).2] at hm
        refine (hg.mem_composition_backLink hp hk).mpr ⟨hne, m, hbackLink, Or.inr ?_⟩
        exact (SortedSet.mem_diff.mp hm).1
  · rintro ⟨hmem, hkn⟩
    have hne : n ≠ i := ((hg.mem_composition_backLink hp hk).mp ⟨hmem, hkn⟩).1
    refine ⟨Or.inl (List.mem_filter.mpr ⟨?_, beq_iff_eq.mpr hkn⟩), hne⟩
    rw [hown, exclusiveComposition, inheritedComposition, hp]
    exact SortedSet.mem_diff.mpr ⟨hmem, fun habove => not_backLink_of_mem hg.nested hp habove hkn⟩

end Visited

section Equivalents

/-- The equivalent of a node is walked to by the node itself in the last step. -/
theorem parent_of_equivalent? {start j : NodeId} (hp : g.arena.parent? i = some p)
    (h : g.arena.equivalent? i start = some j) :
    ∃ m, g.arena.parent? j = some m ∧ g.arena.traits j = g.arena.traits i := by
  rw [Arena.equivalent?_of_parent hp] at h
  obtain ⟨m, _, hj⟩ := Option.bind_eq_some_iff.mp h
  exact ⟨m, Arena.parent_of_step? hj, Arena.traits_of_step? hj⟩

theorem Grounded.equivalent_backLink (hg : Grounded c sch targets g) {start j : NodeId}
    (hp : g.arena.parent? i = some p) (hk : g.arena.category i = .backLink)
    (h : g.arena.equivalent? i start = some j) :
    ∃ m, g.arena.backLinkOf? m = some j ∧ g.arena.isCore j = g.arena.isCore i := by
  obtain ⟨m, hm, htraits⟩ := parent_of_equivalent? hp h
  have hkj : g.arena.category j = .backLink := by
    rw [← Arena.traits_fst, htraits, Arena.traits_fst, hk]
  have hroot {n q : NodeId} (hq : g.arena.parent? n = some q) :
      ∃ root, g.arena.rootActor? n = some root := by
    obtain ⟨root, hroot, _⟩ :=
      hg.nested.exists_root (Arena.lt_size_of_parent hq) (hg.nested.isActor_of_parent hq)
    exact ⟨root, hroot⟩
  obtain ⟨_, hrooti⟩ := hroot hp
  obtain ⟨_, hrootj⟩ := hroot hm
  refine ⟨m, hg.backLinkOf?_eq_some.mpr ⟨hm, hkj⟩, ?_⟩
  have himplemented := Arena.isImplemented_of_traits hkj htraits
  rw [Arena.isImplemented_of_backLink hkj hrootj, Arena.isImplemented_of_backLink hk hrooti]
    at himplemented
  simpa using himplemented

end Equivalents

section Variance

/-- A property of the extension mirrors back links only. -/
def mirrorsBackLinks (g : LinkGraph) (n : NodeId) : Bool :=
  match g.extensionSymbol? n with
  | some symbol => symbol.properties.any fun p => (g.classify n p).isBackLinkMirror
  | none => false

theorem Recorded.hasBackLinkMirror_eq (h : g.Recorded) {v : NodeState} (hv : g.state? n = some v) :
    g.hasBackLinkMirror n = g.mirrorsBackLinks n := by
  unfold hasBackLinkMirror mirrorsBackLinks
  cases hs : g.extensionState? n with
  | some s =>
    obtain ⟨symbol, hsymbol, hproperties⟩ := h.exists_extensionSymbol hs
    simp only [hsymbol, hproperties, List.any_map]
    rfl
  | none =>
    obtain ⟨states, _, hvisit⟩ := h n v hv
    have hcategory : v.detail.category = g.arena.category n := by
      obtain ⟨detail, hdetail, rfl⟩ := Failure.map_eq_ok_iff.mp hvisit
      exact category_of_visitAs hdetail
    cases hkind : g.arena.kind n with
    | extension symbol =>
      -- an extension has the state of one
      rw [Arena.category, hkind] at hcategory
      cases hd : v.detail with
      | extension s =>
        rw [extensionState?_eq_some.mpr ⟨v, hv, hd⟩] at hs
        cases hs
      | _ =>
        rw [hd] at hcategory
        cases hcategory
    | _ => simp [extensionSymbol?, hkind]

/-- Each back link is a class directly below an actor that is not core, and elsewhere covariant
unless its parent mirrors back links. -/
def Marked (g : LinkGraph) : Prop :=
  ∀ {i p : NodeId} {s : BackLinkState}, g.backLinkState? i = some s →
    g.arena.parent? i = some p →
      s.isClass = (!g.arena.isCore i && (g.arena.kind p).isActor) ∧
      s.isCovariant = (g.arena.isCore i || !g.mirrorsBackLinks p)

theorem marked_preserved (top : LinkGraph) :
    Preserved top (fun i => (top.arena.parent? i).toList) fun g => g.Recorded ∧ g.Marked := by
  intro g done i v hprogress hi hreads hvisit ⟨hrecorded, hmarked⟩
  refine ⟨hrecorded.withState (hprogress.size_eq ▸ hi) hvisit, fun {j q s} hs hq => ?_⟩
  obtain ⟨w, hw, hdetail⟩ := backLinkState?_eq_some.mp hs
  rw [state?_withState (hprogress.size_eq ▸ hi)] at hw
  split at hw
  · next hj =>
    cases hw
    subst hj
    obtain ⟨_, hback⟩ := visitAs_of_visitNode hvisit
    rw [hdetail] at hback
    obtain ⟨_, hstate, heq⟩ := Failure.map_eq_ok_iff.mp hback
    cases heq
    have hq : g.arena.parent? j = some q := hq
    obtain ⟨parent, hparent, rfl⟩ := Failure.map_eq_ok_iff.mp hstate
    rw [backLinkParent, hq] at hparent
    cases hparent
    -- the parent is among what the node reads, so it has been visited and tells the same mark
    have hdone : (g.state? q).isSome := by
      refine hprogress.isSome q (hreads ?_)
      rw [hprogress.arena_eq] at hq
      exact Option.mem_toList.mpr hq
    obtain ⟨u, hu⟩ := Option.isSome_iff_exists.mp hdone
    refine ⟨rfl, ?_⟩
    simp only [hrecorded.hasBackLinkMirror_eq hu]
    rfl
  · exact hmarked (backLinkState?_eq_some.mpr ⟨w, hw, hdetail⟩) hq

theorem Visits.marked (hv : Visits (ofTargets c sch targets) g) : g.Marked :=
  (hv.preserves_ofTargets (marked_preserved _) grounded_ofTargets.supported_parent
    ⟨by simp [Recorded, state?_ofTargets],
      fun hs => by simp [backLinkState?, detail?, state?_ofTargets] at hs⟩).2.2

/-- The declaration of a back link as a class, or else as an interface. -/
theorem Visits.exists_of_backLinkPart (hv : Visits (ofTargets c sch targets) g) {part : Part}
    (h : g.backLinkPart i = .ok part) : ∃ v s p, g.state? i = some v ∧ v.detail = .backLink s ∧
      g.arena.parent? i = some p ∧ v.ancestors = g.ancestorsOfRoot i ∧
      ((!g.arena.isCore i && (g.arena.kind p).isActor) = true ∧
          part = .closed (g.backLinkClass i s) ∨
        (!g.arena.isCore i && (g.arena.kind p).isActor) = false ∧
          ∃ decl hoisted, part = .spread decl hoisted ∧
            decl.name = (if g.arena.isCore i || !g.mirrorsBackLinks p then "BackLink<out TSource>"
              else "BackLink<TSource>") ∧
            ∀ b, b ∈ decl.bases ↔ b ∈ g.backLinkBases i p v.ancestors ∧ b ≠ "") := by
  obtain ⟨v, hexpect, hrest⟩ := Failure.bind_eq_ok_iff.mp h
  have hstate := expectState_eq_ok_iff.mp hexpect
  split at hrest
  · cases hrest
  · next s hs =>
    obtain ⟨p, hparent, hrest⟩ := Failure.bind_eq_ok_iff.mp hrest
    have hp : g.arena.parent? i = some p := by
      unfold backLinkParent at hparent
      split at hparent
      · next q hq =>
        cases hparent
        exact hq
      · cases hparent
    obtain ⟨w, hw, hdetail⟩ := backLinkState?_eq_some.mp hs
    obtain rfl := Option.some.inj (hstate.symm.trans hw)
    obtain ⟨hclass, hcovariant⟩ := hv.marked hs hp
    refine ⟨v, s, p, hstate, hdetail, hp, hv.recorded.ancestors_eq hstate, ?_⟩
    rw [← hclass, ← hcovariant]
    split at hrest
    · next hisClass =>
      cases hrest
      exact Or.inl ⟨hisClass, rfl⟩
    · next hisClass =>
      rw [Bool.not_eq_true] at hisClass
      obtain ⟨full, hoisted, hpart, hname, hbases⟩ := exists_face (Except.ok.inj hrest)
      refine Or.inr ⟨hisClass, full, hoisted, hpart, ?_, fun b => ?_⟩
      · simp [hname]
      · simp [hbases, TypeDecl.interfaceNamed, SortedSet.mem_iff, and_comm]

end Variance

end LinkGraph

end ActorLinks
