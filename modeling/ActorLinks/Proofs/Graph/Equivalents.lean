import ActorLinks.Proofs.Arena.Paths
import ActorLinks.Proofs.Composition.Order
import ActorLinks.Proofs.Graph.Layout

/-! # Equivalent link types

The trees of all actors have the same link types: the same entries of the schematic lead down to
them. Where no two entries below one parent share a symbol, a step from node to node by a link type
leads to the one child of the same entry, whatever else stands there. So each link type has its
counterpart below every actor as its equivalent, and is the equivalent of that in turn.
-/
namespace ActorLinks

/-- At every place within an entry the symbols of the children differ. -/
inductive Schematic.Entry.Distinct : Schematic.Entry → Prop
  | intro {e : Schematic.Entry} (apart : (e.children.map symbol).Nodup)
    (below : ∀ f ∈ e.children, Distinct f) : Distinct e

/-- No entry of one symbol stands behind both. -/
def NodeKind.Apart (x y : NodeKind) : Prop :=
  ∀ e ∈ x.entry?, ∀ f ∈ y.entry?, e.symbol ≠ f.symbol

theorem NodeKind.Apart.symm {x y : NodeKind} (h : x.Apart y) : y.Apart x :=
  fun e he f hf heq => h f hf e he heq.symm

namespace Spot
open LinkTree
variable {c : Compilation} {t : Target} {within : Option LinkKind} {es : List Schematic.Entry}

theorem mem_branches_linkType {k : LinkKind} {e : Schematic.Entry} {b : Branch}
    (hb : b ∈ (position within es).branches c t) (hk : b.kind = .linkType k e) :
    e ∈ es ∧ accepted? within e = some k := by
  rcases mem_branches_position.mp hb with hb | hb | hb
  · rcases List.mem_cons.mp hb with rfl | hb
    · cases hk
    · obtain ⟨p, _, rfl⟩ := mem_extensionBranches.mp hb
      cases hk
  · obtain ⟨marker, _, rfl⟩ := mem_hierarchyBranch?.mp hb
    cases hk
  · obtain ⟨j, f, l, hf, hl, hw, rfl⟩ := mem_entryBranches.mp hb
    cases hk
    exact ⟨List.mem_of_getElem? hf, accepted?_eq_some.mpr ⟨hl, hw⟩⟩

theorem exists_branch_linkType {k : LinkKind} {e : Schematic.Entry} (he : e ∈ es)
    (hk : accepted? within e = some k) :
    ∃ b ∈ (position within es).branches c t, b.kind = .linkType k e := by
  obtain ⟨j, hj⟩ := List.getElem?_of_mem he
  obtain ⟨hkind, hw⟩ := accepted?_eq_some.mp hk
  have hb := mem_entryBranches.mpr ⟨j, e, k, hj, hkind, hw, rfl⟩
  exact ⟨_, mem_branches_position.mpr (Or.inr (Or.inr hb)), rfl⟩

/-- Where the symbols of the entries differ, those of the branches do. -/
theorem pairwise_apart (h : (es.map Schematic.Entry.symbol).Nodup) :
    ((position within es).branches c t).Pairwise fun b d => b.kind.Apart d.kind := by
  have hindexed : es.zipIdx.Pairwise fun e f => e.1.symbol ≠ f.1.symbol := by
    have hpairwise : es.Pairwise fun e f => e.symbol ≠ f.symbol := List.pairwise_map.mp h
    rwa [← List.zipIdx_map_fst 0 es, List.pairwise_map] at hpairwise
  have hentries : (es.zipIdx.filterMap (entryBranch? within)).Pairwise
      fun b d => b.kind.Apart d.kind := by
    refine hindexed.filterMap _ fun x y hxy b hb d hd e he f hf => ?_
    obtain ⟨k, _, rfl⟩ := Option.map_eq_some_iff.mp hb
    obtain ⟨l, _, rfl⟩ := Option.map_eq_some_iff.mp hd
    cases he
    cases hf
    exact hxy
  -- branches that are no entries differ from all others in this sense
  have hnone : ∀ b ∈ backLinkBranch :: extensionBranches (extensionSymbols c t)
      ++ (hierarchyBranch? c t).toList, b.kind.entry? = none := by
    intro b hb
    rcases List.mem_append.mp hb with hb | hb
    · rcases List.mem_cons.mp hb with rfl | hb
      · rfl
      · obtain ⟨p, _, rfl⟩ := mem_extensionBranches.mp hb
        rfl
    · obtain ⟨marker, _, rfl⟩ := mem_hierarchyBranch?.mp (Option.mem_toList.mp hb)
      rfl
  rw [branches, List.pairwise_append]
  refine ⟨List.pairwise_of_forall_mem_list fun b hb d _ e he => ?_, hentries,
    fun b hb d _ e he => ?_⟩
  all_goals
    rw [hnone b hb] at he
    cases he

end Spot

namespace Arena
variable {a : Arena} {c : Compilation} {t u : Target} {i j m n p q r s : NodeId}

theorem isActor_of_linkType {k : LinkKind} {e : Schematic.Entry} (hk : a.kind i = .linkType k e) :
    (a.kind i).isActor = false := by
  rw [hk]
  rfl

theorem linkKind?_eq_some {k : LinkKind} :
    a.linkKind? i = some k ↔ ∃ e, a.kind i = .linkType k e := by
  unfold linkKind?
  cases a.kind i <;> simp

theorem traits_linkType {k : LinkKind} {e : Schematic.Entry} (hk : a.kind i = .linkType k e) :
    a.traits i = (.linkType, e.symbol, true) := by
  rw [traits, hk]

theorem exists_of_traits_linkType {symbol : String} {flag : Bool}
    (h : a.traits i = (.linkType, symbol, flag)) :
    ∃ k e, a.kind i = .linkType k e ∧ e.symbol = symbol := by
  unfold traits at h
  cases hk : a.kind i with
  | linkType k e =>
    rw [hk] at h
    exact ⟨k, e, rfl, (Prod.mk.inj (Prod.mk.inj h).2).1⟩
  | _ =>
    rw [hk] at h
    cases (Prod.mk.inj h).1

section Position
variable {within : Option LinkKind} {es : List Schematic.Entry} {k l : LinkKind}
  {e f : Schematic.Entry} (h : a.Carries c t (.position within es) i)
include h

theorem Carries.entry_of_child (hp : a.parent? n = some i) (hk : a.kind n = .linkType k e) :
    e ∈ es ∧ LinkTree.accepted? within e = some k := by
  obtain ⟨x, hx⟩ := List.getElem?_of_mem (mem_children_iff.mpr hp)
  have hlt : x < ((Spot.position within es).branches c t).length :=
    h.length_eq ▸ (List.getElem?_eq_some_iff.mp hx).1
  obtain ⟨hkind, _, _⟩ := h.child (List.getElem?_eq_getElem hlt) hx
  exact Spot.mem_branches_linkType (List.getElem_mem hlt) (hkind ▸ hk)

theorem Carries.exists_child (he : e ∈ es) (hk : LinkTree.accepted? within e = some k) :
    ∃ n, a.parent? n = some i ∧ a.kind n = .linkType k e := by
  obtain ⟨b, hb, hkind⟩ := Spot.exists_branch_linkType (c := c) (t := t) he hk
  obtain ⟨x, hx⟩ := List.getElem?_of_mem hb
  have hlt : x < (a.children i).length := h.length_eq ▸ (List.getElem?_eq_some_iff.mp hx).1
  have hn := List.getElem?_eq_getElem hlt
  obtain ⟨hsame, _, _⟩ := h.child hx hn
  exact ⟨_, mem_children_iff.mp (List.getElem_mem hlt), hsame.trans hkind⟩

/-- Where symbols differ, one child comes of the entry with a symbol. -/
theorem Carries.child_eq (hes : (es.map Schematic.Entry.symbol).Nodup)
    (hm : a.parent? m = some i) (hn : a.parent? n = some i) (hkm : a.kind m = .linkType k e)
    (hkn : a.kind n = .linkType l f) (hsymbol : e.symbol = f.symbol) : m = n := by
  have hkinds : (a.children i).map a.kind
      = ((Spot.position within es).branches c t).map Branch.kind := by
    refine List.ext_getElem (by simpa using h.length_eq.symm) fun x hx hx' => ?_
    rw [List.length_map] at hx hx'
    rw [List.getElem_map, List.getElem_map]
    exact (h.child (List.getElem?_eq_getElem hx') (List.getElem?_eq_getElem hx)).1
  have hapart : (a.children i).Pairwise fun x y => (a.kind x).Apart (a.kind y) := by
    have hpairwise : (((Spot.position within es).branches c t).map Branch.kind).Pairwise
        NodeKind.Apart := List.pairwise_map.mpr (Spot.pairwise_apart hes)
    rwa [← hkinds, List.pairwise_map] at hpairwise
  have hsymm : Std.Symm fun x y => (a.kind x).Apart (a.kind y) := ⟨fun _ _ => .symm⟩
  by_contra hne
  refine hapart.forall (mem_children_iff.mpr hm) (mem_children_iff.mpr hn) hne e ?_ f ?_ hsymbol
  · rw [hkm]
    rfl
  · rw [hkn]
    rfl

/-- A step by a link type leads to the child of the same entry. -/
theorem Carries.step?_eq (hes : (es.map Schematic.Entry.symbol).Nodup)
    (hn : a.parent? n = some i) (hkn : a.kind n = .linkType k e) (hkm : a.kind m = .linkType k e) :
    a.step? i m = some n := by
  have hagrees : a.semanticEq n m = true :=
    semanticEq_iff.mpr ((traits_linkType hkn).trans (traits_linkType hkm).symm)
  have hsome : (a.step? i m).isSome = true :=
    List.find?_isSome.mpr ⟨n, mem_children_iff.mpr hn, hagrees⟩
  obtain ⟨x, hx⟩ := Option.isSome_iff_exists.mp hsome
  obtain ⟨l, f, hkx, hsymbol⟩ :=
    exists_of_traits_linkType ((traits_of_step? hx).trans (traits_linkType hkm))
  rw [hx, h.child_eq hes (parent_of_step? hx) hn hkx hkn hsymbol]

end Position

/-- The same entries of the schematic lead from `r` down to one node and from `s` to the other. -/
inductive Corresponds (a : Arena) (r s : NodeId) : NodeId → NodeId → Prop
  | root : Corresponds a r s r s
  | link {p q m n : NodeId} {k : LinkKind} {e : Schematic.Entry} (above : Corresponds a r s p q)
    (hm : a.parent? m = some p) (hn : a.parent? n = some q) (hkm : a.kind m = .linkType k e)
    (hkn : a.kind n = .linkType k e) : Corresponds a r s m n

namespace Corresponds

theorem symm (h : a.Corresponds r s m n) : a.Corresponds s r n m := by
  induction h with
  | root => exact .root
  | link _ hm hn hkm hkn ih => exact .link ih hn hm hkn hkm

theorem kind_eq (h : a.Corresponds r s m n) {k : LinkKind} {e : Schematic.Entry}
    (hk : a.kind m = .linkType k e) (hr : (a.kind r).isActor = true) :
    a.kind n = .linkType k e := by
  cases h with
  | root =>
    rw [hk] at hr
    cases hr
  | link _ _ _ hkm hkn => rw [hkn, ← hkm, hk]

/-- The names of what stands above the two nodes agree, but for the roots. -/
theorem namesAbove_eq (h : a.Corresponds r s m n) (hr : (a.kind r).isActor = true)
    (hs : (a.kind s).isActor = true) (hpr : a.parent? r = none) (hps : a.parent? s = none) :
    a.namesAbove m = a.namesAbove n := by
  induction h with
  | root => simp [namesAbove, parents_of_none hpr, parents_of_none hps]
  | @link p q m n k e above hm hn _ _ ih =>
    cases above with
    | root =>
      simp [namesAbove, parents_of_some hm, parents_of_some hn, parents_of_none hpr,
        parents_of_none hps, hr, hs]
    | link _ _ _ hkp hkq =>
      rw [namesAbove_of_parent hm (isActor_of_linkType hkp),
        namesAbove_of_parent hn (isActor_of_linkType hkq), ih, typeName_linkType hkp,
        typeName_linkType hkq]

theorem rootActor?_eq (h : a.Corresponds r s m n) (hs : (a.kind s).isActor = true)
    {q : NodeId} (hq : a.parent? n = some q) (hps : a.parent? s = none) :
    a.rootActor? n = some s := by
  induction h generalizing q with
  | root =>
    rw [hps] at hq
    cases hq
  | @link p q' m n k e above _ hn _ _ ih =>
    cases above with
    | root => exact rootActor?_of_actor hn hs
    | link _ _ hq' _ hkq => rw [rootActor?_of_parent hn (isActor_of_linkType hkq), ih hq']

end Corresponds

end Arena

namespace LinkGraph
variable {c : Compilation} {sch : Schematic} {targets : List Target} {g : LinkGraph}
  {i m n p r s : NodeId} {k : LinkKind} {e : Schematic.Entry}

theorem lt_size_of_linkType (hk : g.arena.kind i = .linkType k e) : i < g.arena.size := by
  by_contra hge
  rw [Arena.kind, Arena.node, Array.getElem?_eq_none (Nat.le_of_not_lt hge)] at hk
  cases hk

theorem IsRootOf.isActor {a : Arena} (h : IsRootOf c sch a r) : (a.kind r).isActor = true := by
  rw [h.2.kind_eq]
  rfl

section Grounded
variable (hg : Grounded c sch targets g)
include hg

theorem Grounded.isRootOf_rootActor? (h : g.arena.rootActor? i = some r) :
    IsRootOf c sch g.arena r := by
  have hlt := Arena.lt_size_of_mem_parents (List.mem_of_find?_eq_some h)
  have hactor : (g.arena.kind r).isActor = true :=
    List.find?_some (p := fun p => (g.arena.kind p).isActor) h
  exact hg.isRoot_of_orphan hlt ((hg.nested.isActor_iff hlt).mp hactor)

theorem Grounded.carries_linkType (hk : g.arena.kind i = .linkType k e) :
    g.arena.Carries c (g.target i) (.position (some k) e.children) i := by
  obtain ⟨tree, hform, hshows⟩ := hg.exists_form (lt_size_of_linkType hk)
  have hkind := hshows.kind_eq.symm.trans hk
  have hchildren := hshows.children
  cases hform with
  | linkType l f =>
    cases hkind
    exact hchildren
  | _ => cases hkind

/-- A link type stands below an actor or another link type, at one of the entries there. -/
theorem Grounded.exists_position (hk : g.arena.kind i = .linkType k e) :
    ∃ p within f, g.arena.parent? i = some p ∧
      g.arena.Carries c (g.target p) (.position within f.children) p ∧ e ∈ f.children ∧
      LinkTree.accepted? within e = some k ∧
      (IsRootOf c sch g.arena p ∧ within = none ∧ f = sch.root ∨
        ∃ l, within = some l ∧ g.arena.kind p = .linkType l f) := by
  have hi := lt_size_of_linkType hk
  cases hp : g.arena.parent? i with
  | none =>
    have hactor := (hg.nested.isActor_iff hi).mpr hp
    rw [hk] at hactor
    cases hactor
  | some p =>
    -- an actor and a link type are all that admits link types
    have hadmits := hg.nested.admits hp
    rw [Arena.category, Arena.category, hk] at hadmits
    cases hkp : g.arena.kind p with
    | actor symbol =>
      have hactor : (g.arena.kind p).isActor = true := by
        rw [hkp]
        rfl
      have hlt := Nat.lt_trans (Arena.lt_of_parent hp) hi
      have hroot := hg.isRoot_of_orphan hlt ((hg.nested.isActor_iff hlt).mp hactor)
      have hcarries : g.arena.Carries c (g.target p) (.position none sch.root.children) p :=
        hroot.2.children
      obtain ⟨he, haccepted⟩ := hcarries.entry_of_child hp hk
      exact ⟨p, none, sch.root, rfl, hcarries, he, haccepted, Or.inl ⟨hroot, rfl, rfl⟩⟩
    | linkType l f =>
      have hcarries := hg.carries_linkType hkp
      obtain ⟨he, haccepted⟩ := hcarries.entry_of_child hp hk
      exact ⟨p, some l, f, rfl, hcarries, he, haccepted, Or.inr ⟨l, rfl, hkp⟩⟩
    | _ => simp [hkp, NodeKind.category, Category.admits] at hadmits

theorem Grounded.distinct_of_linkType (hd : sch.root.Distinct)
    (hk : g.arena.kind i = .linkType k e) : e.Distinct := by
  induction i using Nat.strongRecOn generalizing k e with
  | ind i ih =>
    obtain ⟨p, within, f, hp, _, he, _, ⟨_, _, rfl⟩ | ⟨l, _, hkp⟩⟩ := hg.exists_position hk
    · obtain ⟨_, hbelow⟩ := hd
      exact hbelow e he
    · obtain ⟨_, hbelow⟩ := ih p (Arena.lt_of_parent hp) hkp
      exact hbelow e he

/-- The names of what stands above a link type are those of link types. -/
theorem Grounded.startsPlain_of_mem_namesAbove (hk : g.arena.kind i = .linkType k e) :
    ∀ name ∈ g.arena.namesAbove i, startsPlain name = true := by
  induction i using Nat.strongRecOn generalizing k e with
  | ind i ih =>
    obtain ⟨p, within, f, hp, _, _, _, ⟨hroot, _⟩ | ⟨l, _, hkp⟩⟩ := hg.exists_position hk
    · rw [(Arena.namesAbove_eq_nil_iff hg.nested hp).mpr hroot.isActor]
      simp
    · intro name hname
      rw [Arena.namesAbove_of_parent hp (Arena.isActor_of_linkType hkp)] at hname
      rcases List.mem_append.mp hname with hname | hname
      · exact ih p (Arena.lt_of_parent hp) hkp name hname
      · obtain ⟨_, _, _, _, _, _, haccepted, _⟩ := hg.exists_position hkp
        rw [List.mem_singleton.mp hname, Arena.typeName_linkType hkp]
        exact (Arena.namesNoClass_of_kind? (Spot.accepted?_eq_some.mp haccepted).1).1

/-- Below every root stands what corresponds to a link type. -/
theorem Grounded.exists_corresponding (hr : g.arena.rootActor? i = some r)
    (hs : IsRootOf c sch g.arena s) (hk : g.arena.kind i = .linkType k e) :
    ∃ n, g.arena.Corresponds r s i n := by
  induction i using Nat.strongRecOn generalizing k e with
  | ind i ih =>
    obtain ⟨p, within, f, hp, _, he, haccepted, hcases⟩ := hg.exists_position hk
    rcases hcases with ⟨hroot, rfl, rfl⟩ | ⟨l, rfl, hkp⟩
    · obtain rfl := Option.some.inj ((Arena.rootActor?_of_actor hp hroot.isActor).symm.trans hr)
      have hcarries : g.arena.Carries c (g.target s) (.position none sch.root.children) s :=
        hs.2.children
      obtain ⟨n, hn, hkn⟩ := hcarries.exists_child he haccepted
      exact ⟨n, .link .root hp hn hk hkn⟩
    · rw [Arena.rootActor?_of_parent hp (Arena.isActor_of_linkType hkp)] at hr
      obtain ⟨q, hq⟩ := ih p (Arena.lt_of_parent hp) hr hkp
      have hkq := hq.kind_eq hkp (hg.isRootOf_rootActor? hr).isActor
      obtain ⟨n, hn, hkn⟩ := (hg.carries_linkType hkq).exists_child he haccepted
      exact ⟨n, .link hq hp hn hk hkn⟩

/-- Where symbols differ, what corresponds to a node is its equivalent. -/
theorem Grounded.equivalent?_of_corresponds (hd : sch.root.Distinct)
    (hr : IsRootOf c sch g.arena r) (h : g.arena.Corresponds r s m n) :
    g.arena.equivalent? m s = some n := by
  induction h with
  | root => exact Arena.equivalent?_of_orphan hr.1 s
  | @link p q m n k e above hm hn hkm hkn ih =>
    obtain ⟨q', within, f, hq, hcarries, _, _, hcases⟩ := hg.exists_position hkn
    obtain rfl := Option.some.inj (hn.symm.trans hq)
    have hentries : f.Distinct := by
      rcases hcases with ⟨_, _, rfl⟩ | ⟨l, _, hkq⟩
      · exact hd
      · exact hg.distinct_of_linkType hd hkq
    obtain ⟨hapart, _⟩ := hentries
    rw [Arena.equivalent?_of_parent hm, ih, Option.bind_some]
    exact hcarries.step?_eq hapart hn hkn hkm

/-- Below every root a link type has an equivalent, whose equivalent it is. -/
theorem Grounded.exists_equivalent (hd : sch.root.Distinct) (hr : g.arena.rootActor? i = some r)
    (hs : IsRootOf c sch g.arena s) (hk : g.arena.kind i = .linkType k e) :
    ∃ n, g.arena.equivalent? i s = some n ∧ g.arena.equivalent? n r = some i ∧
      g.arena.kind n = .linkType k e ∧ g.arena.rootActor? n = some s ∧
      g.arena.namesAbove n = g.arena.namesAbove i := by
  have hroot := hg.isRootOf_rootActor? hr
  obtain ⟨n, hn⟩ := hg.exists_corresponding hr hs hk
  have hkn := hn.kind_eq hk hroot.isActor
  obtain ⟨q, hq⟩ : ∃ q, g.arena.parent? n = some q := by
    cases hn with
    | root =>
      have hactor := hroot.isActor
      rw [hk] at hactor
      cases hactor
    | link _ _ hn _ _ => exact ⟨_, hn⟩
  exact ⟨n, hg.equivalent?_of_corresponds hd hroot hn,
    hg.equivalent?_of_corresponds hd hs hn.symm, hkn, hn.rootActor?_eq hs.isActor hq hs.1,
    (hn.namesAbove_eq hroot.isActor hs.isActor hroot.1 hs.1).symm⟩

end Grounded

end LinkGraph

end ActorLinks
