import ActorLinks.Proofs.Arena.Branches
import ActorLinks.Proofs.Arena.Preorder
import Mathlib.Data.List.Nodup

/-! # The layout of a graph

Every kept target has one tree, which fills one stretch of ids. The paths below its root are those
that the schematic and the core actor let occur; each leads to one node, and the ids ascend with
the paths in lexicographic order, a node before all that stands below it.
-/
namespace ActorLinks

namespace Arena

theorem ShowsAll.length_eq {a : Arena} {t : Target} {ts : List LinkTree} {ids : List NodeId}
    (h : ShowsAll a t ts ids) : ts.length = ids.length := by
  induction ts generalizing ids with
  | nil =>
    cases ids with
    | nil => rfl
    | cons => exact h.elim
  | cons tree ts ih =>
    cases ids with
    | nil => exact h.elim
    | cons i ids => exact congrArg Nat.succ (ih h.2)

theorem ShowsAll.getElem? {a : Arena} {t : Target} {ts : List LinkTree} {ids : List NodeId}
    (h : ShowsAll a t ts ids) {j : Nat} {tree : LinkTree} {i : NodeId} (hj : ts[j]? = some tree)
    (hi : ids[j]? = some i) : Shows a t tree i := by
  induction ts generalizing ids j with
  | nil => cases hj
  | cons tree ts ih =>
    cases ids with
    | nil => cases hi
    | cons i ids =>
      cases j with
      | zero =>
        cases hj
        cases hi
        exact h.1
      | succ j => exact ih h.2 hj hi

theorem lt_of_children_index {a : Arena} {i : NodeId} {j k m n : Nat}
    (hm : (a.children i)[j]? = some m) (hn : (a.children i)[k]? = some n) (hjk : j < k) :
    m < n := by
  obtain ⟨hj, rfl⟩ := List.getElem?_eq_some_iff.mp hm
  obtain ⟨hk, rfl⟩ := List.getElem?_eq_some_iff.mp hn
  exact List.pairwise_iff_getElem.mp (a.children_ascending i) j k hj hk hjk

/-- The children of the node show the trees below the spot. -/
def Carries (a : Arena) (c : Compilation) (t : Target) (spot : Spot) (i : NodeId) : Prop :=
  a.ShowsAll t (spot.trees c t) (a.children i)

/-- From branch to branch the path leads from one node to another, each time to the child that
stands where the branch does. -/
def Leads (a : Arena) (c : Compilation) (t : Target) :
    Spot → NodeId → List Segment → NodeId → Prop
  | _, i, [], n => n = i
  | spot, i, x :: rest, n => ∃ (j : Nat) (b : Branch) (m : NodeId),
      (spot.branches c t)[j]? = some b ∧ b.segment = x ∧
        (a.children i)[j]? = some m ∧ a.Leads c t b.below m rest n

section Carries
variable {a : Arena} {c : Compilation} {t : Target} {spot : Spot} {i : NodeId}
  (h : a.Carries c t spot i)
include h

theorem Carries.length_eq : (spot.branches c t).length = (a.children i).length := by
  have hlength := ShowsAll.length_eq h
  rwa [spot.trees_eq, List.length_map] at hlength

theorem Carries.child {j : Nat} {b : Branch} {m : NodeId}
    (hb : (spot.branches c t)[j]? = some b) (hm : (a.children i)[j]? = some m) :
    a.kind m = b.kind ∧ a.target m = t ∧ a.Carries c t b.below m := by
  rw [Carries, spot.trees_eq] at h
  have hshow := ShowsAll.getElem? h (by rw [List.getElem?_map, hb, Option.map_some]) hm
  exact ⟨hshow.kind_eq, hshow.target_eq, hshow.children⟩

/-- Every path that a spot allows leads somewhere. -/
theorem Carries.exists_leads {path : List Segment} (hpath : spot.Allows c t path) :
    ∃ n, a.Leads c t spot i path n := by
  induction path generalizing spot i with
  | nil => exact ⟨i, rfl⟩
  | cons x rest ih =>
    obtain ⟨b, hb, hx, hrest⟩ := hpath
    obtain ⟨j, hj, hbj⟩ := List.getElem_of_mem hb
    have hb' : (spot.branches c t)[j]? = some b := List.getElem?_eq_some_iff.mpr ⟨hj, hbj⟩
    have hm := List.getElem?_eq_getElem (h.length_eq ▸ hj)
    obtain ⟨n, hn⟩ := ih (h.child hb' hm).2.2 hrest
    exact ⟨n, j, b, _, hb', hx, hm, hn⟩

/-- Every node below is reached along a path. -/
theorem Carries.exists_path {n : NodeId} (hn : n ∈ a.descendants i) :
    ∃ path, a.Leads c t spot i path n := by
  induction i using children_induction (a := a) generalizing spot with
  | node i ih =>
    rw [descendants_eq] at hn
    rcases List.mem_cons.mp hn with rfl | hn
    · exact ⟨[], rfl⟩
    · obtain ⟨m, hm, hnm⟩ := List.mem_flatMap.mp hn
      obtain ⟨j, hj, hmj⟩ := List.getElem_of_mem hm
      have hm' : (a.children i)[j]? = some m := List.getElem?_eq_some_iff.mpr ⟨hj, hmj⟩
      have hb := List.getElem?_eq_getElem (h.length_eq ▸ hj : j < (spot.branches c t).length)
      obtain ⟨path, hpath⟩ := ih m hm (h.child hb hm').2.2 hnm
      exact ⟨_ :: path, j, _, m, hb, rfl, hm', hpath⟩

theorem Carries.kind_eq {path : List Segment} {n : NodeId} (hn : a.Leads c t spot i path n) :
    LinkTree.kindAt? c t (a.kind i) spot.entries path = some (a.kind n) := by
  induction path generalizing spot i with
  | nil =>
    obtain rfl : n = i := hn
    rfl
  | cons x rest ih =>
    obtain ⟨j, b, m, hb, rfl, hm, hrest⟩ := hn
    obtain ⟨hkind, _, hcarries⟩ := h.child hb hm
    rw [Spot.kindAt?_of_mem_branches (List.mem_of_getElem? hb), ← hkind]
    exact ih hcarries hrest

theorem Carries.target_eq {path : List Segment} {n : NodeId} (ht : a.target i = t)
    (hn : a.Leads c t spot i path n) : a.target n = t := by
  induction path generalizing spot i with
  | nil =>
    obtain rfl : n = i := hn
    exact ht
  | cons x rest ih =>
    obtain ⟨j, b, m, hb, _, hm, hrest⟩ := hn
    obtain ⟨_, htarget, hcarries⟩ := h.child hb hm
    exact ih hcarries htarget hrest

end Carries

section Leads
variable {a : Arena} {c : Compilation} {t : Target} {spot : Spot} {i n m : NodeId}
  {path other : List Segment}

theorem Leads.allows (h : a.Leads c t spot i path n) : spot.Allows c t path := by
  induction path generalizing spot i with
  | nil => trivial
  | cons x rest ih =>
    obtain ⟨j, b, m, hb, hx, _, hrest⟩ := h
    exact ⟨b, List.mem_of_getElem? hb, hx, ih hrest⟩

theorem Leads.mem_spine (h : a.Leads c t spot i path n) : i ∈ a.spine n := by
  induction path generalizing spot i with
  | nil =>
    obtain rfl : n = i := h
    exact self_mem_spine
  | cons x rest ih =>
    obtain ⟨j, b, m, _, _, hm, hrest⟩ := h
    exact parent_mem_spine (mem_children_iff.mp (List.mem_of_getElem? hm)) (ih hrest)

theorem Leads.lt_of_cons {x : Segment} (h : a.Leads c t spot i (x :: path) n) :
    (i : Nat) < n := by
  obtain ⟨j, b, m, _, _, hm, hrest⟩ := h
  exact Nat.lt_of_lt_of_le (lt_of_mem_children (List.mem_of_getElem? hm)).1
    (le_of_mem_spine hrest.mem_spine)

/-- The last segment of a path leads to a child of the node before. -/
theorem Leads.parent {x : Segment} (h : a.Leads c t spot i (path ++ [x]) n) :
    ∃ m, a.Leads c t spot i path m ∧ a.parent? n = some m := by
  induction path generalizing spot i with
  | nil =>
    obtain ⟨j, b, m, _, _, hm, rfl⟩ := h
    exact ⟨i, rfl, mem_children_iff.mp (List.mem_of_getElem? hm)⟩
  | cons y rest ih =>
    obtain ⟨j, b, m, hb, hy, hm, hrest⟩ := h
    obtain ⟨p, hp, hparent⟩ := ih hrest
    exact ⟨p, ⟨j, b, m, hb, hy, hm, hp⟩, hparent⟩

variable (hsymbols : (Spot.extended (LinkTree.extensionSymbols c t)).Ordered)
  (hspot : spot.Ordered)
include hsymbols hspot

theorem Leads.node_eq (hn : a.Leads c t spot i path n) (hm : a.Leads c t spot i path m) :
    n = m := by
  induction path generalizing spot i with
  | nil => exact Eq.trans hn (Eq.symm hm)
  | cons x rest ih =>
    obtain ⟨j, b, p, hb, hx, hp, hrest⟩ := hn
    obtain ⟨k, d, q, hd, hy, hq, hrest'⟩ := hm
    obtain rfl := (Spot.index_of_segments hsymbols hspot hb hd).2 (hx.trans hy.symm)
    obtain rfl := Option.some.inj (hb.symm.trans hd)
    obtain rfl := Option.some.inj (hp.symm.trans hq)
    exact ih (Spot.ordered_of_mem_branches hsymbols hspot (List.mem_of_getElem? hb)) hrest hrest'

variable (hpre : a.Preordered)
include hpre

omit hsymbols hspot in
/-- What stands at or below a child comes before the later children. -/
theorem Preordered.lt_of_children_index {j k p q : Nat} (hp : (a.children i)[j]? = some p)
    (hq : (a.children i)[k]? = some q) (hjk : j < k) (hn : p ∈ a.spine n)
    (hm : q ∈ a.spine m) : (n : Nat) < m := by
  have hlt := hpre.lt_of_siblings (mem_children_iff.mp (List.mem_of_getElem? hp))
    (mem_children_iff.mp (List.mem_of_getElem? hq)) (Arena.lt_of_children_index hp hq hjk) hn
  exact Nat.lt_of_lt_of_le hlt (le_of_mem_spine hm)

/-- What a path leads to comes before what a later path leads to. -/
theorem Leads.lt_of_lex (hn : a.Leads c t spot i path n) (hm : a.Leads c t spot i other m)
    (hlex : List.Lex Segment.Before path other) : (n : Nat) < m := by
  induction hlex generalizing spot i with
  | nil =>
    obtain rfl : n = i := hn
    exact Leads.lt_of_cons hm
  | rel hbefore =>
    obtain ⟨j, b, p, hb, rfl, hp, hrest⟩ := hn
    obtain ⟨k, d, q, hd, rfl, hq, hrest'⟩ := hm
    have hjk := (Spot.index_of_segments hsymbols hspot hb hd).1 hbefore
    exact hpre.lt_of_children_index hp hq hjk hrest.mem_spine hrest'.mem_spine
  | cons _ ih =>
    obtain ⟨j, b, p, hb, hx, hp, hrest⟩ := hn
    obtain ⟨k, d, q, hd, hy, hq, hrest'⟩ := hm
    obtain rfl := (Spot.index_of_segments hsymbols hspot hb hd).2 (hx.trans hy.symm)
    obtain rfl := Option.some.inj (hb.symm.trans hd)
    obtain rfl := Option.some.inj (hp.symm.trans hq)
    exact ih (Spot.ordered_of_mem_branches hsymbols hspot (List.mem_of_getElem? hb)) hrest hrest'

omit hsymbols hspot in
/-- Different paths lead to different nodes. -/
theorem Leads.path_eq (hn : a.Leads c t spot i path n) (hm : a.Leads c t spot i other n) :
    path = other := by
  induction path generalizing spot i other with
  | nil =>
    obtain rfl : n = i := hn
    cases other with
    | nil => rfl
    | cons => exact (Nat.lt_irrefl _ (Leads.lt_of_cons hm)).elim
  | cons x rest ih =>
    cases other with
    | nil =>
      obtain rfl : n = i := hm
      exact (Nat.lt_irrefl _ (Leads.lt_of_cons hn)).elim
    | cons y more =>
      obtain ⟨j, b, p, hb, rfl, hp, hrest⟩ := hn
      obtain ⟨k, d, q, hd, rfl, hq, hmore⟩ := hm
      -- the children of a node have their trees one after the other, so `n` stands below one of
      -- them only
      have apart {j k p q : Nat} (hp : (a.children i)[j]? = some p)
          (hq : (a.children i)[k]? = some q) (hn : p ∈ a.spine n) (hm : q ∈ a.spine n) : ¬ j < k :=
        fun hjk => Nat.lt_irrefl _ (hpre.lt_of_children_index hp hq hjk hn hm)
      have hjk : j = k := Nat.le_antisymm
        (Nat.le_of_not_lt (apart hq hp hmore.mem_spine hrest.mem_spine))
        (Nat.le_of_not_lt (apart hp hq hrest.mem_spine hmore.mem_spine))
      subst hjk
      obtain rfl := Option.some.inj (hb.symm.trans hd)
      obtain rfl := Option.some.inj (hp.symm.trans hq)
      exact congrArg (b.segment :: ·) (ih hrest hmore)

end Leads

/-- The paths that occur lead from the root of a tree to all its nodes, each to one of its own. -/
structure Lays (a : Arena) (c : Compilation) (s : Schematic) (t : Target) (root : NodeId)
    (node : List Segment → NodeId) : Prop where
  root_eq : node [] = root
  mem_iff : ∀ i, i ∈ a.descendants root ↔ ∃ path, LinkTree.Occurs c s t path ∧ node path = i
  injective : ∀ p q, LinkTree.Occurs c s t p → LinkTree.Occurs c s t q → node p = node q → p = q
  parent_eq : ∀ path x, LinkTree.Occurs c s t (path ++ [x]) →
    LinkTree.Occurs c s t path ∧ a.parent? (node (path ++ [x])) = some (node path)
  kind_eq : ∀ path, LinkTree.Occurs c s t path →
    LinkTree.kindAt? c t (.actor (LinkTree.actorSymbol c t)) s.root.children path
      = some (a.kind (node path))
  target_eq : ∀ path, LinkTree.Occurs c s t path → a.target (node path) = t
  ascending : ∀ p q, LinkTree.Occurs c s t p → LinkTree.Occurs c s t q →
    List.Lex Segment.Before p q → (node p : Nat) < node q

/-- Where the tree of a target is shown, it is laid out by its paths. -/
theorem Shows.exists_lays {a : Arena} {c : Compilation} {s : Schematic} {t : Target}
    {root : NodeId} (h : a.Shows t (.ofTarget c s t) root) (hpre : a.Preordered)
    (hsymbols : (Spot.extended (LinkTree.extensionSymbols c t)).Ordered) :
    ∃ node, a.Lays c s t root node := by
  have hcarries : a.Carries c t (.position none s.root.children) root := h.children
  have hspot : (Spot.position none s.root.children).Ordered := trivial
  have hnodup : (LinkTree.extensionSymbols c t).Nodup :=
    List.Nodup.of_map _ (Spot.nodup_names_of_ordered hsymbols)
  have hoccurs {path : List Segment} :
      (Spot.position none s.root.children).Allows c t path ↔ LinkTree.Occurs c s t path :=
    Spot.allows_position_iff hnodup
  -- a path that does not occur has to lead somewhere too, for `node` to be a function
  have hexists (path : List Segment) : ∃ n, LinkTree.Occurs c s t path →
      a.Leads c t (.position none s.root.children) root path n := by
    by_cases hpath : LinkTree.Occurs c s t path
    · obtain ⟨n, hn⟩ := hcarries.exists_leads (hoccurs.mpr hpath)
      exact ⟨n, fun _ => hn⟩
    · exact ⟨root, fun h => absurd h hpath⟩
  choose node hnode using hexists
  have hnode_eq {path : List Segment} {n : NodeId}
      (hn : a.Leads c t (.position none s.root.children) root path n) :
      LinkTree.Occurs c s t path ∧ node path = n := by
    have hpath := hoccurs.mp hn.allows
    exact ⟨hpath, (hnode path hpath).node_eq hsymbols hspot hn⟩
  refine ⟨node, ?_, fun i => ⟨fun hi => ?_, ?_⟩, fun p q hp hq heq => ?_, fun path x hpath => ?_,
    fun path hpath => ?_, fun path hpath => ?_, fun p q hp hq hlex => ?_⟩
  · have hroot : a.Leads c t (.position none s.root.children) root [] root := rfl
    exact (hnode_eq hroot).2
  · obtain ⟨path, hpath⟩ := hcarries.exists_path hi
    exact ⟨path, hnode_eq hpath⟩
  · rintro ⟨path, hpath, rfl⟩
    exact mem_descendants_iff.mpr (hnode path hpath).mem_spine
  · exact (hnode p hp).path_eq hpre (heq ▸ hnode q hq)
  · obtain ⟨m, hm, hparent⟩ := (hnode _ hpath).parent
    obtain ⟨hoccurs, rfl⟩ := hnode_eq hm
    exact ⟨hoccurs, hparent⟩
  · rw [← hcarries.kind_eq (hnode path hpath), h.kind_eq]
    rfl
  · exact hcarries.target_eq h.target_eq (hnode path hpath)
  · exact (hnode p hp).lt_of_lex hsymbols hspot hpre (hnode q hq) hlex

theorem eq_of_orphans {a : Arena} {i m n : NodeId} (hm : m ∈ a.spine i) (hn : n ∈ a.spine i)
    (hmp : a.parent? m = none) (hnp : a.parent? n = none) : m = n := by
  induction i using Nat.strongRecOn with
  | ind i ih =>
    cases hp : a.parent? i with
    | none =>
      rw [spine, parents_of_none hp, List.mem_singleton] at hm hn
      rw [hm, hn]
    | some p =>
      have above {k : NodeId} (hk : k ∈ a.spine i) (hkp : a.parent? k = none) : k ∈ a.spine p := by
        refine ((mem_spine_iff_of_parent hp).mp hk).resolve_left ?_
        rintro rfl
        rw [hp] at hkp
        cases hkp
      exact ih p (lt_of_parent hp) (above hm hmp) (above hn hnp)

end Arena

namespace LinkGraph

theorem ordered_extensionSymbols (types : List TypeSymbol) (t : Target) :
    (Spot.extended (LinkTree.extensionSymbols (.ofTypes types) t)).Ordered :=
  ((Compilation.pairwise_values_ofTypes types).filter _).filter _

theorem isSome_keptTarget?_iff {targets : List Target} {name : String} :
    (keptTarget? targets name).isSome = true ↔ ∃ t ∈ targets, t.actor = name := by
  simp [keptTarget?, List.find?_isSome]

theorem Grounded.existsUnique_root {c : Compilation} {s : Schematic} {targets : List Target}
    {g : LinkGraph} (h : Grounded c s targets g) {i : NodeId} (hi : i < g.arena.size) :
    ∃! root, (∃ name, g.actor? name = some root) ∧ i ∈ g.arena.descendants root := by
  obtain ⟨top, htop, hmem⟩ := h.exists_top hi
  have hname := mem_visitOrder_iff.mp htop
  refine ⟨top, ⟨hname, hmem⟩, ?_⟩
  rintro root ⟨⟨name, hroot⟩, hbelow⟩
  exact Arena.eq_of_orphans (Arena.mem_descendants_iff.mp hbelow)
    (Arena.mem_descendants_iff.mp hmem) (h.root_of_actor hroot).1
    (h.orphan_of_mem_visitOrder htop)

end LinkGraph

end ActorLinks
