import ActorLinks.Proofs.Arena.Chain
import ActorLinks.Proofs.Composition.Choices
import Mathlib.Data.List.SplitBy

/-! # What the composition search finds

The search by groups, masks and frontiers finds the ends of all walks along choices from the
path below the actor, and nothing else. Leaving out the node itself on the way costs no walk,
because every walk that passes it ends there.
-/
namespace ActorLinks

namespace Arena

/-- Some non-empty choice of segments from the path, in order, leads from `start` to `n`. -/
def Reaches (a : Arena) (start : NodeId) (path : List NodeId) (n : NodeId) : Prop :=
  ∃ segments, segments ≠ [] ∧ segments.Sublist path ∧ a.walk? start segments = some n

/-- A walk in parts, each of which ends at a node that is kept. -/
def WalksThrough (a : Arena) (keep : NodeId → Bool) : NodeId → List (List NodeId) → NodeId → Prop
  | start, [], n => start = n
  | start, part :: parts, n =>
    ∃ m, a.walk? start part = some m ∧ keep m = true ∧ WalksThrough a keep m parts n

section Frontier
variable {a : Arena} {keep : NodeId → Bool}

theorem sweep_eq_foldl (mask : Nat) (groups : List (List (List NodeId)))
    (frontier : SortedSet NodeId) :
    a.sweep keep mask groups frontier
      = (selectBits mask groups).foldl (fun f group => a.advance keep group f) frontier := by
  induction groups generalizing mask frontier with
  | nil => rfl
  | cons group groups ih =>
    rw [sweep, selectBits]
    split
    · rw [ih, List.foldl_cons]
    · rw [ih]

theorem mem_advance {group : List (List NodeId)} {frontier : SortedSet NodeId} {n : NodeId} :
    n ∈ a.advance keep group frontier ↔
      ∃ start ∈ frontier, ∃ part ∈ group, a.walk? start part = some n ∧ keep n = true := by
  rw [advance, SortedSet.mem_ofList]
  simp only [List.mem_flatMap, List.mem_filter, List.mem_filterMap]
  constructor
  · rintro ⟨start, hstart, ⟨part, hpart, hwalk⟩, hkeep⟩
    exact ⟨start, hstart, part, hpart, hwalk, hkeep⟩
  · rintro ⟨start, hstart, part, hpart, hwalk, hkeep⟩
    exact ⟨start, hstart, ⟨part, hpart, hwalk⟩, hkeep⟩

theorem mem_foldl_advance {chosen : List (List (List NodeId))} {frontier : SortedSet NodeId}
    {n : NodeId} :
    n ∈ chosen.foldl (fun f group => a.advance keep group f) frontier ↔
      ∃ start ∈ frontier, ∃ parts, List.Forall₂ (· ∈ ·) parts chosen ∧
        a.WalksThrough keep start parts n := by
  induction chosen generalizing frontier with
  | nil =>
    constructor
    · intro hn
      exact ⟨n, hn, [], .nil, rfl⟩
    · rintro ⟨start, hstart, parts, hparts, hwalk⟩
      cases hparts
      cases hwalk
      exact hstart
  | cons group chosen ih =>
    rw [List.foldl_cons, ih]
    constructor
    · rintro ⟨m, hm, parts, hparts, hwalk⟩
      obtain ⟨start, hstart, part, hpart, hstep, hkeep⟩ := mem_advance.mp hm
      exact ⟨start, hstart, part :: parts, .cons hpart hparts, m, hstep, hkeep, hwalk⟩
    · rintro ⟨start, hstart, _, hparts, hwalk⟩
      cases hparts with
      | cons hpart hparts =>
        obtain ⟨m, hstep, hkeep, hwalk⟩ := hwalk
        exact ⟨m, mem_advance.mpr ⟨start, hstart, _, hpart, hstep, hkeep⟩, _, hparts, hwalk⟩

/-- What the masks find from a start are the ends of the walks through parts of some groups. -/
theorem exists_sweep_iff {groups : List (List (List NodeId))} {start n : NodeId} :
    (∃ k < 1 <<< groups.length - 1,
      n ∈ a.sweep keep (k + 1) groups (SortedSet.ofList [start])) ↔
      ∃ chosen parts, chosen ≠ [] ∧ chosen.Sublist groups ∧ List.Forall₂ (· ∈ ·) parts chosen ∧
        a.WalksThrough keep start parts n := by
  constructor
  · rintro ⟨k, hk, hn⟩
    rw [sweep_eq_foldl] at hn
    obtain ⟨hne, hc⟩ := exists_mask_iff.mp ⟨k, hk, rfl⟩
    obtain ⟨first, hfirst, parts, hp, hwalk⟩ := mem_foldl_advance.mp hn
    obtain rfl : first = start := by simpa using hfirst
    exact ⟨_, parts, hne, hc, hp, hwalk⟩
  · rintro ⟨chosen, parts, hne, hc, hp, hwalk⟩
    obtain ⟨k, hk, rfl⟩ := exists_mask_iff.mpr ⟨hne, hc⟩
    refine ⟨k, hk, ?_⟩
    rw [sweep_eq_foldl]
    exact mem_foldl_advance.mpr ⟨start, by simp, parts, hp, hwalk⟩

/-- A node composes the ends of the walks through parts of some of its groups. -/
theorem mem_composition_iff_walks {i root n : NodeId} (hroot : a.rootActor? i = some root)
    {excludeSelf : Bool} {exclude : Option (SortedSet NodeId)} :
    n ∈ a.composition i excludeSelf exclude ↔
      ∃ chosen parts, chosen ≠ [] ∧ chosen.Sublist (a.searchProduct i) ∧
        List.Forall₂ (· ∈ ·) parts chosen ∧ a.WalksThrough
          (fun m => !(exclude.any fun x => m ∈ x) && !(excludeSelf && m == i)) root parts n := by
  rw [← exists_sweep_iff]
  simp only [composition, hroot, SortedSet.mem_ofList, List.mem_flatMap, List.mem_range]
  rfl

/-- A walk that does not go below depth `d` meets a node of that depth at its end only. -/
theorem walksThrough_iff {d : Nat} (hkeep : ∀ m, a.depth m < d → keep m = true)
    {start n : NodeId} {parts : List (List NodeId)} (hne : ∀ part ∈ parts, part ≠ [])
    (hd : a.depth start + parts.flatten.length ≤ d) :
    a.WalksThrough keep start parts n ↔
      a.walk? start parts.flatten = some n ∧ (parts = [] ∨ keep n = true) := by
  induction parts generalizing start with
  | nil => simp [WalksThrough, walk?]
  | cons part parts ih =>
    have hne' : ∀ q ∈ parts, q ≠ [] := fun q hq => hne q (List.mem_cons_of_mem _ hq)
    have hrest {m : NodeId} (hm : a.walk? start part = some m) :
        a.depth m + parts.flatten.length ≤ d := by
      have hdepth := depth_of_walk? hm
      simp only [List.flatten_cons, List.length_append] at hd
      omega
    rw [WalksThrough, List.flatten_cons, walk?_append]
    constructor
    · rintro ⟨m, hm, hkm, hwalk⟩
      obtain ⟨hwalk, hlast⟩ := (ih hne' (hrest hm)).mp hwalk
      rw [hm, Option.bind_some]
      refine ⟨hwalk, Or.inr ?_⟩
      rcases hlast with rfl | hlast
      · cases hwalk
        exact hkm
      · exact hlast
    · rintro ⟨hwalk, hlast⟩
      obtain ⟨m, hm, hwalk⟩ := Option.bind_eq_some_iff.mp hwalk
      have hkn : keep n = true := hlast.resolve_left (List.cons_ne_nil _ _)
      refine ⟨m, hm, ?_, (ih hne' (hrest hm)).mpr ⟨hwalk, Or.inr hkn⟩⟩
      cases parts with
      | nil =>
        cases hwalk
        exact hkn
      | cons q qs =>
        -- something is left to walk, so the part ended above depth `d`
        have hpos : 0 < q.length := List.length_pos_of_ne_nil (hne' q List.mem_cons_self)
        have hbound := hrest hm
        simp only [List.flatten_cons, List.length_append] at hbound
        exact hkeep m (by omega)

end Frontier

section Groups
variable {a : Arena} (h : a.Nested)
include h

theorem Nested.eq_singleton {init : List NodeId} {last : NodeId}
    (hchain : (init ++ [last]).IsChain fun m n => a.parent? n = some m)
    (hsame : (init ++ [last]).IsChain fun m n => (a.category m == a.category n) = true)
    (hcat : a.category last ≠ .linkType ∧ a.category last ≠ .extension) : init = [] := by
  rcases List.eq_nil_or_concat init with rfl | ⟨front, m, rfl⟩
  · rfl
  · rw [List.concat_eq_append, List.append_assoc] at hchain hsame
    have hp := List.isChain_pair.mp (List.isChain_append.mp hchain).2.1
    have hk : (a.category m == a.category last) = true :=
      List.isChain_cons_cons.mp (List.isChain_append.mp hsame).2.1 |>.1
    have hadmits := h.admits hp
    rw [beq_iff_eq.mp hk] at hadmits
    rcases Category.eq_of_mem_admits hadmits with he | he
    · exact absurd he hcat.1
    · exact absurd he hcat.2

/-- Where a group is taken whole, it consists of one node. -/
theorem Nested.mem_expandGroup {start : NodeId} {path group : List NodeId}
    (hpath : a.Descends start path)
    (hg : group ∈ path.splitBy fun m n => a.category m == a.category n) (s : List NodeId) :
    s ∈ a.expandGroup group ↔ s ≠ [] ∧ s.Sublist group := by
  obtain ⟨before, after, hsplit⟩ : group <:+: path := by
    have hflat := List.infix_of_mem_flatten hg
    rwa [List.flatten_splitBy] at hflat
  have hchain := List.IsChain.tail hpath
  rw [List.tail_cons, ← hsplit] at hchain
  replace hchain := (List.isChain_append.mp (List.isChain_append.mp hchain).1).2.1
  have hsame := List.isChain_of_mem_splitBy hg
  rcases List.eq_nil_or_concat group with rfl | ⟨init, last, rfl⟩
  · exact absurd rfl (List.ne_nil_of_mem_splitBy hg)
  · rw [List.concat_eq_append] at hchain hsame ⊢
    have whole (hcat : a.category last ≠ .linkType ∧ a.category last ≠ .extension) :
        s ∈ [init ++ [last]] ↔ s ≠ [] ∧ s.Sublist (init ++ [last]) := by
      rw [h.eq_singleton hchain hsame hcat, List.nil_append, List.mem_singleton,
        List.sublist_singleton]
      constructor
      · rintro rfl
        exact ⟨List.cons_ne_nil _ _, Or.inr rfl⟩
      · rintro ⟨hne, hs⟩
        exact hs.resolve_left hne
    rw [expandGroup, List.getLast?_concat, Option.map_some]
    -- only link types and extensions stand in groups of more than one node
    cases hcat : a.category last with
    | linkType => exact mem_choices
    | extension => exact mem_choices
    | actor => exact whole (by simp [hcat])
    | hierarchy => exact whole (by simp [hcat])
    | backLink => exact whole (by simp [hcat])

omit h in
theorem forall_mem_of_forall₂ {P : List NodeId → Prop} {parts : List (List NodeId)}
    {chosen : List (List (List NodeId))} (hp : List.Forall₂ (· ∈ ·) parts chosen)
    (hc : ∀ group ∈ chosen, ∀ part ∈ group, P part) : ∀ part ∈ parts, P part := by
  induction hp with
  | nil => simp
  | cons hmem _ ih =>
    intro part hpart
    rcases List.mem_cons.mp hpart with rfl | hpart
    · exact hc _ List.mem_cons_self _ hmem
    · exact ih (fun group hg => hc group (List.mem_cons_of_mem _ hg)) part hpart

theorem Nested.searchGroups_eq (i : NodeId) :
    a.searchGroups i = (a.pathBelow i).splitBy fun m n => a.category m == a.category n := by
  rw [searchGroups, h.reverse_searchChain]

theorem Nested.ne_nil_of_mem_searchProduct {start : NodeId} (i : NodeId)
    (hpath : a.Descends start (a.pathBelow i)) {group : List (List NodeId)}
    (hg : group ∈ a.searchProduct i) : ∀ part ∈ group, part ≠ [] := by
  obtain ⟨g, hmem, rfl⟩ := List.mem_map.mp hg
  rw [h.searchGroups_eq] at hmem
  intro part hpart
  exact ((h.mem_expandGroup hpath hmem part).mp hpart).1

/-- What can be put together from the groups of the search are the choices from the path. -/
theorem Nested.exists_chosen_iff {start : NodeId} (i : NodeId)
    (hpath : a.Descends start (a.pathBelow i)) {s : List NodeId} :
    (∃ chosen parts, chosen.Sublist (a.searchProduct i) ∧ List.Forall₂ (· ∈ ·) parts chosen ∧
      parts.flatten = s) ↔ s.Sublist (a.pathBelow i) := by
  rw [searchProduct, h.searchGroups_eq, exists_parts_iff fun g hg => h.mem_expandGroup hpath hg,
    List.flatten_splitBy]

/-- The nodes that are found when only such are passed over as lie no higher than `i` itself. -/
theorem Nested.mem_sweep_iff {start i n : NodeId} {keep : NodeId → Bool}
    (hpath : a.Descends start (a.pathBelow i))
    (hkeep : ∀ m, a.depth m < a.depth i → keep m = true) :
    (∃ k < 1 <<< (a.searchProduct i).length - 1,
      n ∈ a.sweep keep (k + 1) (a.searchProduct i) (SortedSet.ofList [start])) ↔
      a.Reaches start (a.pathBelow i) n ∧ keep n = true := by
  have hdepth := hpath.depth_getLast (getLast?_pathBelow i)
  -- what is passed on the way lies higher than `i` and is kept, so only the end is put to the test
  have through {chosen : List (List (List NodeId))} {parts : List (List NodeId)}
      (hc : chosen.Sublist (a.searchProduct i)) (hp : List.Forall₂ (· ∈ ·) parts chosen) :
      (∀ part ∈ parts, part ≠ []) ∧ (a.WalksThrough keep start parts n ↔
        a.walk? start parts.flatten = some n ∧ (parts = [] ∨ keep n = true)) := by
    have hne : ∀ part ∈ parts, part ≠ [] := forall_mem_of_forall₂ hp fun group hg =>
      h.ne_nil_of_mem_searchProduct i hpath (hc.subset hg)
    have hlen := ((h.exists_chosen_iff i hpath).mp ⟨chosen, parts, hc, hp, rfl⟩).length_le
    exact ⟨hne, walksThrough_iff hkeep hne (by omega)⟩
  rw [exists_sweep_iff]
  constructor
  · rintro ⟨chosen, parts, hne, hc, hp, hwalk⟩
    obtain ⟨hnil, hiff⟩ := through hc hp
    obtain ⟨hwalk, hlast⟩ := hiff.mp hwalk
    have hparts : parts ≠ [] := by
      rintro rfl
      exact hne (List.forall₂_nil_left_iff.mp hp)
    refine ⟨⟨parts.flatten, ?_, ?_, hwalk⟩, hlast.resolve_left hparts⟩
    · intro hflat
      obtain ⟨part, hpart⟩ := List.exists_mem_of_ne_nil _ hparts
      exact hnil part hpart (List.flatten_eq_nil_iff.mp hflat part hpart)
    · exact (h.exists_chosen_iff i hpath).mp ⟨_, parts, hc, hp, rfl⟩
  · rintro ⟨⟨segments, hne, hsub, hwalk⟩, hkn⟩
    obtain ⟨chosen, parts, hc, hp, rfl⟩ := (h.exists_chosen_iff i hpath).mpr hsub
    have hchosen : chosen ≠ [] := by
      rintro rfl
      cases hp
      exact hne rfl
    exact ⟨chosen, parts, hchosen, hc, hp, (through hc hp).2.mpr ⟨hwalk, Or.inr hkn⟩⟩

/-- The composition of a node, with or without the node itself. -/
theorem Nested.mem_composition_iff {root i n : NodeId} (hroot : a.rootActor? i = some root)
    (hpath : a.Descends root (a.pathBelow i)) (excludeSelf : Bool) :
    n ∈ a.composition i excludeSelf none ↔
      a.Reaches root (a.pathBelow i) n ∧ (excludeSelf = true → n ≠ i) := by
  have hkeep : ∀ m, a.depth m < a.depth i →
      (!((none : Option (SortedSet NodeId)).any fun x => m ∈ x) && !(excludeSelf && m == i))
        = true := by
    intro m hm
    have hmi : m ≠ i := by
      rintro rfl
      exact Nat.lt_irrefl _ hm
    simp [hmi]
  have hfound := h.mem_sweep_iff (n := n) hpath hkeep
  simp only [composition, hroot, SortedSet.mem_ofList, List.mem_flatMap, List.mem_range]
  refine hfound.trans (and_congr_right fun _ => ?_)
  cases excludeSelf <;> simp

end Groups

end Arena

namespace LinkGraph

end LinkGraph

end ActorLinks
