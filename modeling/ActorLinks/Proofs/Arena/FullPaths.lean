import ActorLinks.Proofs.Arena.Paths

/-! # Full paths

Where everything has a name, the path down to a node is the name of its actor, the way from there
and the name of the node. If names have no dots, the names on the way are read off the path again;
if no two siblings are named alike, they lead back to the node.
-/
namespace ActorLinks

/-- Names without dots are read off what they are joined to. -/
theorem intercalate_dot_inj {ps qs : List String} (hp : ∀ p ∈ ps, '.' ∉ p.toList)
    (hq : ∀ q ∈ qs, '.' ∉ q.toList) (hps : ps ≠ []) (hqs : qs ≠ [])
    (h : ".".intercalate ps = ".".intercalate qs) : ps = qs := by
  have hsplit {ss : List String} (hs : ∀ s ∈ ss, '.' ∉ s.toList) (hne : ss ≠ []) :
      (".".intercalate ss).toList.splitOn '.' = ss.map String.toList := by
    rw [String.toList_intercalate]
    exact List.splitOn_intercalate '.' (List.forall_mem_map.mpr hs) (by simpa using hne)
  refine List.map_injective_iff.mpr (fun _ _ => String.toList_inj.mp) ?_
  rw [← hsplit hp hps, ← hsplit hq hqs, h]

namespace Arena

/-- The names on the way from the actor down to a node. -/
def namesBelow (a : Arena) (i : NodeId) : List String := a.namesAbove i ++ [a.typeName i]

/-- In the tree below `root` no two siblings have the same type name. -/
def NamedApartBelow (a : Arena) (root : NodeId) : Prop :=
  ∀ p ∈ a.descendants root, ∀ x ∈ a.children p, ∀ y ∈ a.children p,
    a.typeName x = a.typeName y → x = y

instance (a : Arena) (root : NodeId) : Decidable (a.NamedApartBelow root) :=
  inferInstanceAs (Decidable (∀ p ∈ a.descendants root, ∀ x ∈ a.children p, ∀ y ∈ a.children p,
    a.typeName x = a.typeName y → x = y))

variable {a : Arena} {i j p q root : NodeId}

theorem empty_not_mem_namesAbove (hnamed : ∀ i < a.size, a.typeName i ≠ "") :
    "" ∉ a.namesAbove i := by
  intro hempty
  obtain ⟨n, hn, hname⟩ := List.mem_map.mp hempty
  have hparent := (List.mem_filter.mp (List.mem_reverse.mp hn)).1
  exact hnamed n (lt_size_of_mem_parents hparent) hname

/-- The path of a node is the name of its actor, followed by the names on the way. -/
theorem Nested.fullPath_eq_names (h : a.Nested) (hnames : "" ∉ a.namesAbove i)
    (hroot : a.rootActor? i = some root) (hne : (a.target root).actor ≠ "") :
    a.fullPath i = (a.target root).actor ++ ("." ++ ".".intercalate (a.namesBelow i)) := by
  rw [h.fullPath_of_named hnames hroot hne, relativePath_of_named hnames, namesBelow]
  split
  · next hnil => rw [hnil, List.nil_append, String.intercalate_singleton, String.empty_append]
  · next hsome =>
    rw [String.intercalate_append_of_ne_nil hsome (List.cons_ne_nil _ _),
      String.intercalate_singleton]
    simp only [String.append_assoc]

theorem Nested.fullPath_of_isActor (h : a.Nested) (hk : (a.kind i).isActor = true) :
    a.fullPath i = "" := by
  simp [fullPath, path, pathOver, parents_of_none (h.orphan_of_isActor hk)]

theorem mem_parents_of_rootActor? (hroot : a.rootActor? i = some root) : root ∈ a.parents i :=
  List.mem_of_find?_eq_some hroot

/-- A node strictly below an actor has it for its root. -/
theorem Nested.rootActor?_of_mem (h : a.Nested) (hroot : (a.kind root).isActor = true)
    (hi : root ∈ a.parents i) : a.rootActor? i = some root := by
  induction i using Nat.strongRecOn with
  | ind i ih =>
    obtain ⟨p, hp⟩ := exists_parent_of_mem_parents hi
    rw [parents_of_some hp] at hi
    rcases List.mem_cons.mp hi with rfl | hi
    · exact rootActor?_of_actor hp hroot
    · obtain ⟨q, hq⟩ := exists_parent_of_mem_parents hi
      rw [rootActor?_of_parent hp (h.isActor_of_parent hq), ih p (lt_of_parent hp) hi]

/-- The names on the way down lead to one node at most. -/
theorem Nested.eq_of_namesBelow (h : a.Nested) (hapart : a.NamedApartBelow root)
    (hi : a.rootActor? i = some root) (hj : a.rootActor? j = some root)
    (hnames : a.namesBelow i = a.namesBelow j) : i = j := by
  induction i using Nat.strongRecOn generalizing j with
  | ind i ih =>
    obtain ⟨p, hp⟩ := exists_parent_of_rootActor? hi
    obtain ⟨q, hq⟩ := exists_parent_of_rootActor? hj
    obtain ⟨habove, hlast⟩ := List.append_inj' hnames rfl
    have hbelow : root ∈ a.spine p := by
      have hmem := mem_parents_of_rootActor? hi
      rwa [parents_of_some hp] at hmem
    -- no names stand above a node just where its parent is the actor
    have hkind : (a.kind p).isActor = (a.kind q).isActor := by
      rw [Bool.eq_iff_iff, ← namesAbove_eq_nil_iff h hp, ← namesAbove_eq_nil_iff h hq, habove]
    have hparents : p = q := by
      cases hkp : (a.kind p).isActor with
      | true =>
        rw [rootActor?_of_actor hp hkp] at hi
        rw [rootActor?_of_actor hq (hkind ▸ hkp)] at hj
        exact Option.some.inj (hi.trans hj.symm)
      | false =>
        have hkq := hkind ▸ hkp
        rw [rootActor?_of_parent hp hkp] at hi
        rw [rootActor?_of_parent hq hkq] at hj
        rw [namesAbove_of_parent hp hkp, namesAbove_of_parent hq hkq] at habove
        exact ih p (lt_of_parent hp) hi hj habove
    subst hparents
    exact hapart p (mem_descendants_iff.mpr hbelow) i (mem_children_iff.mpr hp) j
      (mem_children_iff.mpr hq) (List.cons.inj hlast).1

theorem Nested.dot_not_mem_namesBelow (h : a.Nested)
    (hdotless : ∀ n ∈ a.descendants root, n ≠ root → '.' ∉ (a.typeName n).toList)
    (hi : a.rootActor? i = some root) : ∀ name ∈ a.namesBelow i, '.' ∉ name.toList := by
  induction i using Nat.strongRecOn with
  | ind i ih =>
    obtain ⟨p, hp⟩ := exists_parent_of_rootActor? hi
    have hmem := mem_parents_of_rootActor? hi
    intro name hname
    rcases List.mem_append.mp hname with hname | hname
    · cases hkp : (a.kind p).isActor with
      | true =>
        rw [(namesAbove_eq_nil_iff h hp).mpr hkp] at hname
        cases hname
      | false =>
        rw [namesAbove_of_parent hp hkp] at hname
        rw [rootActor?_of_parent hp hkp] at hi
        exact ih p (lt_of_parent hp) hi name hname
    · rw [List.mem_singleton.mp hname]
      exact hdotless i (mem_descendants_iff.mpr (List.mem_cons_of_mem _ hmem))
        (Nat.ne_of_gt (lt_of_mem_parents hmem))

/-- Of nodes of one tree that are named, without dots and apart, no two have the same path. -/
theorem Nested.eq_of_fullPath (h : a.Nested) (hnamed : ∀ i < a.size, a.typeName i ≠ "")
    (hroot : (a.kind root).isActor = true)
    (hdotless : ∀ n ∈ a.descendants root, n ≠ root → '.' ∉ (a.typeName n).toList)
    (hapart : a.NamedApartBelow root) (hi : i ∈ a.descendants root) (hj : j ∈ a.descendants root)
    (hpath : a.fullPath i = a.fullPath j) : i = j := by
  have names {n : NodeId} (hn : root ∈ a.parents n) : a.fullPath n
      = (a.target root).actor ++ ("." ++ ".".intercalate (a.namesBelow n)) := by
    refine h.fullPath_eq_names (empty_not_mem_namesAbove hnamed) (h.rootActor?_of_mem hroot hn) ?_
    rw [← typeName_actor hroot]
    exact hnamed root (lt_size_of_mem_parents hn)
  -- the actor has no path, and what stands below it has one
  have hempty : a.fullPath root = "" := h.fullPath_of_isActor hroot
  have hsome {n : NodeId} (hn : root ∈ a.parents n) : a.fullPath n ≠ "" := by
    rw [names hn, Ne, String.append_eq_empty_iff, String.append_eq_empty_iff]
    exact fun hnone => absurd hnone.2.1 (by decide)
  rcases List.mem_cons.mp (mem_descendants_iff.mp hi) with rfl | hi
  · rcases List.mem_cons.mp (mem_descendants_iff.mp hj) with rfl | hj
    · rfl
    · exact absurd (hpath.symm.trans hempty) (hsome hj)
  · rcases List.mem_cons.mp (mem_descendants_iff.mp hj) with rfl | hj
    · exact absurd (hpath.trans hempty) (hsome hi)
    · rw [names hi, names hj, String.append_right_inj, String.append_right_inj] at hpath
      have hi' := h.rootActor?_of_mem hroot hi
      have hj' := h.rootActor?_of_mem hroot hj
      exact h.eq_of_namesBelow hapart hi' hj' (intercalate_dot_inj
        (h.dot_not_mem_namesBelow hdotless hi') (h.dot_not_mem_namesBelow hdotless hj')
        (by simp [namesBelow]) (by simp [namesBelow]) hpath)

end Arena

namespace LinkGraph

/-- Where everything has a name, the path of a node below an actor is the name of the actor, followed
by the way from there, a dot and the name of the node. If moreover no name below an actor has a dot
and no two siblings have the same name, no two nodes of its tree have the same path. -/
theorem fullPath_spelled (c : Compilation) (s : Schematic) (targets : List Target)
    (hnamed : ∀ i < (ofTargets c s targets).arena.size,
      (ofTargets c s targets).arena.typeName i ≠ "") :
    (∀ i < (ofTargets c s targets).arena.size,
      ((ofTargets c s targets).arena.kind i).isActor = false →
      (ofTargets c s targets).arena.fullPath i
        = ((ofTargets c s targets).target i).actor ++ (ofTargets c s targets).arena.relativePath i
          ++ "." ++ (ofTargets c s targets).arena.typeName i) ∧
    ∀ root, ((ofTargets c s targets).arena.kind root).isActor = true →
      (∀ n ∈ (ofTargets c s targets).arena.descendants root, n ≠ root →
        '.' ∉ ((ofTargets c s targets).arena.typeName n).toList) →
      (ofTargets c s targets).arena.NamedApartBelow root →
      ∀ i ∈ (ofTargets c s targets).arena.descendants root,
        ∀ j ∈ (ofTargets c s targets).arena.descendants root,
          (ofTargets c s targets).arena.fullPath i = (ofTargets c s targets).arena.fullPath j →
            i = j := by
  have hground : Grounded c s targets (ofTargets c s targets) := grounded_ofTargets
  have hnested := hground.nested
  constructor
  · intro i hi hk
    obtain ⟨root, hroot, hactor, _⟩ := hnested.exists_root hi hk
    have hmem := Arena.mem_parents_of_rootActor? hroot
    have hne : ((ofTargets c s targets).target root).actor ≠ "" := by
      rw [target, ← Arena.typeName_actor hactor]
      exact hnamed root (Arena.lt_size_of_mem_parents hmem)
    rw [hnested.fullPath_of_named (Arena.empty_not_mem_namesAbove hnamed) hroot hne,
      ← hground.target_of_mem_parents hmem]
    simp only [String.append_assoc, target]
  · intro root hroot hdotless hapart i hi j hj
    exact hnested.eq_of_fullPath hnamed hroot hdotless hapart hi hj

/-- The actor of the sample with one link type. -/
def markedGraph : LinkGraph := ofTargets sampleTypes indexedLinks [sampleTarget]

/-- The same extension stands below the hierarchy of the actor and of its link type. -/
theorem fullPath_spelled_sample :
    markedGraph.arena.fullPath 14
      = (markedGraph.target 14).actor ++ markedGraph.arena.relativePath 14 ++ "."
        ++ markedGraph.arena.typeName 14 ∧
    markedGraph.arena.fullPath 14 ≠ markedGraph.arena.fullPath 6 := by
  obtain ⟨hspelled, happart⟩ := fullPath_spelled sampleTypes indexedLinks [sampleTarget]
    (by decide +kernel)
  refine ⟨hspelled 14 (by decide +kernel) (by decide +kernel), fun hpath => ?_⟩
  have hsame := happart 0 (by decide +kernel) (by decide +kernel) (by decide +kernel) 14
    (by decide +kernel) 6 (by decide +kernel) hpath
  cases hsame

end LinkGraph

end ActorLinks
