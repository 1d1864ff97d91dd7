import ActorLinks.Proofs.Composition.Order

/-! # Renumbered arenas

Two arenas may hold the same trees under other ids. What is read off a node is then the same under
both ids, and the nodes found from it correspond. Only where nodes are put in the order of their
ids it matters that inside each tree the renumbering keeps that order.
-/
namespace ActorLinks

/-- The nodes of `b` are those of `a` under other ids, in the same order inside each tree. -/
structure Arena.Renumbers (σ : NodeId → NodeId) (a b : Arena) : Prop where
  injective : Function.Injective σ
  lt_size : ∀ i < a.size, σ i < b.size
  kind_eq : ∀ i, b.kind (σ i) = a.kind i
  target_eq : ∀ i, b.target (σ i) = a.target i
  parent_eq : ∀ i, b.parent? (σ i) = (a.parent? i).map σ
  children_eq : ∀ i, b.children (σ i) = (a.children i).map σ
  ascending : ∀ {top i j : NodeId}, top ∈ a.spine i → top ∈ a.spine j → i < j → σ i < σ j

/-- The members of `t` are those of `s` under other ids, in the same order. -/
def SortedSet.Renumbers (σ : NodeId → NodeId) (s t : SortedSet NodeId) : Prop :=
  t.toList = s.toList.map σ

namespace SortedSet.Renumbers
variable {σ : NodeId → NodeId} {s t : SortedSet NodeId}

theorem mem_iff (h : s.Renumbers σ t) {n : NodeId} : n ∈ t ↔ ∃ m ∈ s, σ m = n := by
  rw [SortedSet.mem_iff, h, List.mem_map]
  rfl

theorem apply_mem_iff (h : s.Renumbers σ t) (hσ : Function.Injective σ) {n : NodeId} :
    σ n ∈ t ↔ n ∈ s := by
  rw [h.mem_iff]
  constructor
  · rintro ⟨m, hm, he⟩
    rwa [← hσ he]
  · exact fun hn => ⟨n, hn, rfl⟩

/-- Sets correspond whose members do, if the order of these is kept. -/
theorem of_mem_iff (h : ∀ n, n ∈ t ↔ ∃ m ∈ s, σ m = n)
    (hlt : ∀ {m n : NodeId}, m ∈ s → n ∈ s → m < n → σ m < σ n) : s.Renumbers σ t := by
  refine eq_of_mem_iff t.ascending ?_ fun n => ?_
  · rw [List.pairwise_map]
    exact s.ascending.imp_of_mem fun hm hn hmn => hlt hm hn hmn
  · rw [List.mem_map]
    exact h n

theorem empty : (∅ : SortedSet NodeId).Renumbers σ ∅ := rfl

theorem diff {s' t' : SortedSet NodeId} (h : s.Renumbers σ t) (h' : s'.Renumbers σ t')
    (hσ : Function.Injective σ) : (s.diff s').Renumbers σ (t.diff t') := by
  show t.toList.filter _ = (s.toList.filter _).map σ
  simp only [show t.toList = s.toList.map σ from h, List.filter_map, Function.comp_def,
    h'.apply_mem_iff hσ]

end SortedSet.Renumbers

namespace Arena.Renumbers
variable {σ : NodeId → NodeId} {a b : Arena} (h : Renumbers σ a b)
include h

theorem apply_inj {i j : NodeId} : σ i = σ j ↔ i = j := h.injective.eq_iff

theorem category_eq (i : NodeId) : b.category (σ i) = a.category i := by
  rw [category, category, h.kind_eq]

theorem isCore_eq (i : NodeId) : b.isCore (σ i) = a.isCore i := by
  rw [isCore, isCore, h.target_eq]

section Paths

theorem parents_eq (i : NodeId) : b.parents (σ i) = (a.parents i).map σ := by
  induction i using Nat.strongRecOn with
  | ind i ih =>
    have hparent := h.parent_eq i
    cases hp : a.parent? i with
    | none =>
      rw [hp, Option.map_none] at hparent
      rw [parents_of_none hp, parents_of_none hparent, List.map_nil]
    | some p =>
      rw [hp, Option.map_some] at hparent
      rw [parents_of_some hp, parents_of_some hparent, ih p (lt_of_parent hp), List.map_cons]

theorem rootActor?_eq (i : NodeId) : b.rootActor? (σ i) = (a.rootActor? i).map σ := by
  simp only [rootActor?, h.parents_eq, List.find?_map, Function.comp_def, h.kind_eq]

theorem descendants_eq (i : NodeId) : b.descendants (σ i) = (a.descendants i).map σ := by
  induction i using children_induction (a := a) with
  | node i ih =>
    rw [Arena.descendants_eq, Arena.descendants_eq, h.children_eq, List.map_cons,
      List.flatMap_map, List.map_flatMap]
    exact congrArg (σ i :: ·) (List.flatMap_congr fun n hn => ih n hn)

theorem backLinkOf?_eq (i : NodeId) : b.backLinkOf? (σ i) = (a.backLinkOf? i).map σ := by
  simp only [backLinkOf?, childOf?, h.children_eq, List.find?_map, Function.comp_def,
    h.category_eq]

theorem isImplemented_eq (i : NodeId) : b.isImplemented (σ i) = a.isImplemented i := by
  simp only [isImplemented, h.isCore_eq, h.kind_eq, h.rootActor?_eq, Option.isSome_map]

theorem implementedParent?_eq (i : NodeId) :
    b.implementedParent? (σ i) = (a.implementedParent? i).map σ := by
  simp only [implementedParent?, h.parents_eq, List.find?_map, Function.comp_def,
    h.isImplemented_eq]

theorem isTemplate_eq (i : NodeId) : b.isTemplate (σ i) = a.isTemplate i := by
  rw [isTemplate, isTemplate, h.parent_eq]
  cases a.parent? i with
  | none => rfl
  | some p => exact congrArg NodeKind.isActor (h.kind_eq p)

end Paths

section Names

theorem typeName_eq (i : NodeId) : b.typeName (σ i) = a.typeName i := by
  simp only [typeName, h.kind_eq, h.target_eq]

theorem pathOver_eq (keep keep' : NodeId → Bool) (hkeep : ∀ n, keep' (σ n) = keep n)
    (i : NodeId) : b.pathOver keep' (σ i) = a.pathOver keep i := by
  simp only [pathOver, h.parents_eq, List.filter_map, ← List.map_reverse, List.map_map,
    Function.comp_def, hkeep, h.typeName_eq]

theorem path_eq (i : NodeId) : b.path (σ i) = a.path i := h.pathOver_eq _ _ (fun _ => rfl) i

theorem fullPath_eq (i : NodeId) : b.fullPath (σ i) = a.fullPath i := by
  simp only [fullPath, h.path_eq, h.typeName_eq]

theorem relativePathOver_eq (keep keep' : NodeId → Bool) (hkeep : ∀ n, keep' (σ n) = keep n)
    (i : NodeId) : b.relativePathOver keep' (σ i) = a.relativePathOver keep i := by
  have hpath := h.pathOver_eq (fun p => !(a.kind p).isActor && keep p)
    (fun p => !(b.kind p).isActor && keep' p) (fun n => by rw [h.kind_eq, hkeep]) i
  simp only [relativePathOver, hpath]

theorem relativePath_eq (i : NodeId) : b.relativePath (σ i) = a.relativePath i :=
  h.relativePathOver_eq _ _ (fun _ => rfl) i

theorem generics_eq (i : NodeId) : b.generics (σ i) = a.generics i := by
  simp only [generics, h.parents_eq, ← List.map_cons, List.map_map, Function.comp_def, h.kind_eq]

theorem classSegments_eq (path : List NodeId) (keep : NodeKind → Bool) :
    b.classSegments (path.map σ) keep = a.classSegments path keep := by
  simp only [classSegments, List.filter_map, List.map_map, Function.comp_def, h.kind_eq,
    h.typeName_eq]

theorem className_eq (i : NodeId) : b.className (σ i) = a.className i := by
  have hself : [σ i] = [i].map σ := rfl
  simp only [className, h.kind_eq, h.target_eq, h.parents_eq, ← List.map_reverse, hself,
    ← List.map_append, h.classSegments_eq, h.typeName_eq]

theorem implementationType_eq (i : NodeId) :
    b.implementationType (σ i) = a.implementationType i := by
  simp only [implementationType, withGenerics, h.generics_eq, h.className_eq]

theorem outlineAt_eq (depth : Nat) (i : NodeId) :
    outlineAt depth b (σ i) = outlineAt depth a i := by
  induction i using children_induction (a := a) generalizing depth with
  | node i ih =>
    have hdescribe : b.describe (σ i) = a.describe i := by
      simp only [describe, h.kind_eq, h.typeName_eq]
    rw [outlineAt_eq_cons, outlineAt_eq_cons, hdescribe, h.children_eq, List.flatMap_map]
    exact congrArg (_ :: ·) (List.flatMap_congr fun n hn => ih n hn (depth + 1))

theorem outline_eq (i : NodeId) : b.outline (σ i) = a.outline i := h.outlineAt_eq 0 i

end Names

section Walks

theorem semanticEq_eq (m n : NodeId) : b.semanticEq (σ m) (σ n) = a.semanticEq m n := by
  have hbeq : (σ m == σ n) = (m == n) := by
    rw [Bool.eq_iff_iff, beq_iff_eq, beq_iff_eq, h.apply_inj]
  simp only [semanticEq, hbeq, h.kind_eq, h.isImplemented_eq, h.typeName_eq]

theorem step?_eq (start segment : NodeId) :
    b.step? (σ start) (σ segment) = (a.step? start segment).map σ := by
  simp only [step?, h.children_eq, List.find?_map, Function.comp_def, h.semanticEq_eq]

theorem walk?_eq (start : NodeId) (segments : List NodeId) :
    b.walk? (σ start) (segments.map σ) = (a.walk? start segments).map σ := by
  induction segments generalizing start with
  | nil => rfl
  | cons x xs ih =>
    rw [List.map_cons, walk?, walk?, h.step?_eq]
    cases a.step? start x with
    | none => rfl
    | some n => exact ih n

theorem equivalent?_eq (i start : NodeId) :
    b.equivalent? (σ i) (σ start) = (a.equivalent? i start).map σ := by
  have hpath : ((b.parents (σ i)).reverse ++ [σ i]).drop 1
      = (((a.parents i).reverse ++ [i]).drop 1).map σ := by
    rw [h.parents_eq, ← List.map_reverse, List.map_drop, List.map_append, List.map_singleton]
  rw [equivalent?, equivalent?, hpath, h.walk?_eq]

theorem pathBelow_eq (i : NodeId) : b.pathBelow (σ i) = (a.pathBelow i).map σ := by
  simp only [pathBelow, h.parents_eq, List.takeWhile_map, Function.comp_def, h.kind_eq,
    ← List.map_cons, List.map_reverse]

theorem descends_iff {start : NodeId} {path : List NodeId} :
    b.Descends (σ start) (path.map σ) ↔ a.Descends start path := by
  rw [Descends, Descends, ← List.map_cons, List.isChain_map]
  refine iff_of_eq (congrArg (List.IsChain · _) ?_)
  funext m n
  rw [h.parent_eq, Option.map_eq_some_iff, eq_iff_iff]
  constructor
  · rintro ⟨p, hp, he⟩
    rwa [← h.injective he]
  · exact fun hp => ⟨m, hp, rfl⟩

theorem reaches_iff {start : NodeId} {path : List NodeId} {n : NodeId} :
    b.Reaches (σ start) (path.map σ) n ↔ ∃ m, a.Reaches start path m ∧ σ m = n := by
  constructor
  · rintro ⟨_, hne, hmap, hwalk⟩
    obtain ⟨segments, hsub, rfl⟩ := List.sublist_map_iff.mp hmap
    rw [h.walk?_eq, Option.map_eq_some_iff] at hwalk
    obtain ⟨m, hm, rfl⟩ := hwalk
    exact ⟨m, ⟨segments, fun hnil => hne (List.map_eq_nil_iff.mpr hnil), hsub, hm⟩, rfl⟩
  · rintro ⟨m, ⟨segments, hne, hsub, hwalk⟩, rfl⟩
    exact ⟨segments.map σ, fun hnil => hne (List.map_eq_nil_iff.mp hnil), hsub.map σ, by
      rw [h.walk?_eq, hwalk, Option.map_some]⟩

/-- A node composes the nodes that correspond to those its counterpart composes. -/
theorem composition_renumbers (ha : a.Nested) (hb : b.Nested) (i : NodeId) :
    (a.composition i true none).Renumbers σ (b.composition (σ i) true none) := by
  refine .of_mem_iff (fun n => ?_) fun hm hn hmn => ?_
  · rw [hb.mem_composition_true_iff, h.rootActor?_eq, h.pathBelow_eq]
    constructor
    · rintro ⟨_, hroot', hactor, hpath, hreach', hne⟩
      obtain ⟨root, hroot, rfl⟩ := Option.map_eq_some_iff.mp hroot'
      obtain ⟨m, hreach, rfl⟩ := h.reaches_iff.mp hreach'
      refine ⟨m, ha.mem_composition_true_iff.mpr ⟨root, hroot, ?_, h.descends_iff.mp hpath, hreach,
        fun he => hne (he ▸ rfl)⟩, rfl⟩
      rwa [h.kind_eq] at hactor
    · rintro ⟨m, hm, rfl⟩
      obtain ⟨root, hroot, hactor, hpath, hreach, hne⟩ := ha.mem_composition_true_iff.mp hm
      refine ⟨σ root, by rw [hroot, Option.map_some], by rwa [h.kind_eq], h.descends_iff.mpr hpath,
        h.reaches_iff.mpr ⟨m, hreach, rfl⟩, fun he => hne (h.injective he)⟩
  · obtain ⟨root, hroot, _, _, ⟨_, _, _, hwalk⟩, _⟩ := ha.mem_composition_true_iff.mp hm
    obtain ⟨root', hroot', _, _, ⟨_, _, _, hwalk'⟩, _⟩ := ha.mem_composition_true_iff.mp hn
    obtain rfl := Option.some.inj (hroot.symm.trans hroot')
    exact h.ascending (start_mem_spine_of_walk? hwalk) (start_mem_spine_of_walk? hwalk') hmn

end Walks

end Arena.Renumbers

end ActorLinks
