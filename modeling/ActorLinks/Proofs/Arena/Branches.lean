import ActorLinks.Arena.Planting

/-! # Branches of link trees

What stands below a node of a link tree depends on its spot: a position of the schematic carries
the trimmings and the entries that are accepted there, a hierarchy or an extension the extensions
that are left, a back link nothing. Every branch is told from its siblings by a segment, so a node
is named by a path of segments, and which paths occur is read off the schematic and the core actor.
-/
namespace ActorLinks

theorem perm_of_mem_picks {α : Type} {xs : List α} {p : α × List α} (h : p ∈ picks xs) :
    (p.1 :: p.2).Perm xs := by
  induction xs generalizing p with
  | nil => cases h
  | cons x xs ih =>
    rcases List.mem_cons.mp h with rfl | h
    · exact List.Perm.refl _
    · obtain ⟨q, hq, rfl⟩ := List.mem_map.mp h
      exact (List.Perm.swap x q.1 q.2).trans ((ih hq).cons x)

theorem sublist_of_mem_picks {α : Type} {xs : List α} {p : α × List α} (h : p ∈ picks xs) :
    p.2.Sublist xs := by
  induction xs generalizing p with
  | nil => cases h
  | cons x xs ih =>
    rcases List.mem_cons.mp h with rfl | h
    · exact List.sublist_cons_self x xs
    · obtain ⟨q, hq, rfl⟩ := List.mem_map.mp h
      exact (ih hq).cons_cons x

@[simp] theorem map_fst_picks {α : Type} (xs : List α) : (picks xs).map Prod.fst = xs := by
  induction xs with
  | nil => rfl
  | cons x xs ih =>
    rw [picks, List.map_cons, List.map_map]
    exact congrArg (x :: ·) ih

/-- One step down a link tree. Equal entries of a schematic are told apart by their index. -/
inductive Segment where
  | backLink
  | extension (symbol : TypeSymbol)
  | hierarchy
  | link (index : Nat)

/-- Siblings stand in this order: the back link, extensions by name, the hierarchy, and entries of
the schematic by index. -/
def Segment.Before : Segment → Segment → Prop
  | backLink, extension _ | backLink, hierarchy | backLink, link _ => True
  | extension s, extension t => s.name < t.name
  | extension _, hierarchy | extension _, link _ | hierarchy, link _ => True
  | link i, link j => i < j
  | _, _ => False

theorem Segment.Before.asymm {x y : Segment} (h : x.Before y) : ¬ y.Before x := by
  cases x <;> cases y <;> simp only [Before, not_false_eq_true] at h ⊢
  · exact String.lt_asymm h
  · exact Nat.lt_asymm h

/-- What decides on the branches below a node. -/
inductive Spot where
  | position (within : Option LinkKind) (entries : List Schematic.Entry)
  | extended (others : List TypeSymbol)
  | closed

structure Branch where
  segment : Segment
  kind : NodeKind
  below : Spot

namespace LinkTree

/-- The kind of link type that an entry becomes below a node of kind `within`, if it fits. -/
def accepted? (within : Option LinkKind) (e : Schematic.Entry) : Option LinkKind :=
  e.kind?.filter fun k => within.all fun w => w.accepts.contains k

/-- From entry to entry down a schematic, each of a known kind that the one above accepts. -/
def Follows : Option LinkKind → List Schematic.Entry → List Nat → Prop
  | _, _, [] => True
  | within, es, i :: rest => ∃ e k, es[i]? = some e ∧ e.kind? = some k ∧
      (∀ w ∈ within, k ∈ w.accepts) ∧ Follows (some k) e.children rest

/-- Extensions among `others`, none of them twice, and a back link or none. -/
def Extends (others : List TypeSymbol) (path : List Segment) : Prop :=
  ∃ (chosen : List TypeSymbol) (below : List Segment),
    path = chosen.map .extension ++ below ∧ chosen.Nodup ∧ (∀ e ∈ chosen, e ∈ others) ∧
      (below = [] ∨ below = [.backLink])

/-- The paths that occur below a position: down the schematic to another one, then its extensions
and a back link, or the same below its hierarchy, where the core actor is marked for one. -/
def OccursBelow (c : Compilation) (t : Target) (within : Option LinkKind)
    (es : List Schematic.Entry) (path : List Segment) : Prop :=
  ∃ (links : List Nat) (rest : List Segment),
    path = links.map .link ++ rest ∧ Follows within es links ∧
      (Extends (extensionSymbols c t) rest ∨ (hierarchyMarker? c t).isSome = true ∧
        ∃ more, rest = .hierarchy :: more ∧ Extends (extensionSymbols c t) more)

/-- The paths that occur in the tree of a target. -/
def Occurs (c : Compilation) (s : Schematic) (t : Target) (path : List Segment) : Prop :=
  OccursBelow c t none s.root.children path

/-- The kind of node that a path leads to from a node of kind `above` with the entries `es` below
it. -/
def kindAt? (c : Compilation) (t : Target) :
    NodeKind → List Schematic.Entry → List Segment → Option NodeKind
  | above, _, [] => some above
  | _, _, .backLink :: rest => kindAt? c t .backLink [] rest
  | _, _, .extension symbol :: rest => kindAt? c t (.extension symbol) [] rest
  | _, _, .hierarchy :: rest =>
    (hierarchyMarker? c t).bind fun marker => kindAt? c t (.hierarchy marker) [] rest
  | _, es, .link i :: rest =>
    es[i]?.bind fun e => e.kind?.bind fun k => kindAt? c t (.linkType k e) e.children rest

end LinkTree

namespace Spot
open LinkTree

def extensionBranches (others : List TypeSymbol) : List Branch :=
  (picks others).map fun p => ⟨.extension p.1, .extension p.1, .extended p.2⟩

def backLinkBranch : Branch := ⟨.backLink, .backLink, .closed⟩

def entryBranch? (within : Option LinkKind) (e : Schematic.Entry × Nat) : Option Branch :=
  (accepted? within e.1).map fun k =>
    ⟨.link e.2, .linkType k e.1, .position (some k) e.1.children⟩

variable (c : Compilation) (t : Target)

def hierarchyBranch? : Option Branch :=
  (hierarchyMarker? c t).map fun marker =>
    ⟨.hierarchy, .hierarchy marker, .extended (extensionSymbols c t)⟩

def branches : Spot → List Branch
  | position within es =>
    backLinkBranch :: extensionBranches (extensionSymbols c t) ++ (hierarchyBranch? c t).toList
      ++ es.zipIdx.filterMap (entryBranch? within)
  | extended others => backLinkBranch :: extensionBranches others
  | closed => []

/-- The trees below a spot. -/
def trees : Spot → List LinkTree
  | position within es => trimmings c t ++ entryTrees (trimmings c t) within es
  | extended others => backLink :: extensions others
  | closed => []

/-- The entries of the schematic below a spot. -/
def entries : Spot → List Schematic.Entry
  | position _ es => es
  | extended _ | closed => []

/-- A path leads from branch to branch. -/
def Allows : Spot → List Segment → Prop
  | _, [] => True
  | spot, x :: rest => ∃ b ∈ spot.branches c t, b.segment = x ∧ Allows b.below rest

/-- The extensions that are left stand in name order. -/
def Ordered : Spot → Prop
  | extended others => others.Pairwise fun x y => x.name < y.name
  | position _ _ | closed => True

variable {c : Compilation} {t : Target}

section Trees

theorem entryTree?_eq (extras : List LinkTree) (within : Option LinkKind) (e : Schematic.Entry) :
    entryTree? extras within e = (accepted? within e).map fun k =>
      node (.linkType k e) (extras ++ entryTrees extras (some k) e.children) := by
  obtain ⟨symbol, parameters, clauses, children⟩ := e
  simp only [entryTree?, accepted?, Schematic.Entry.kind?]
  cases LinkKind.ofSymbol? symbol with
  | none => rfl
  | some k =>
    simp only [Option.filter_some]
    split
    · rfl
    · rfl

theorem entryTrees_eq (extras : List LinkTree) (within : Option LinkKind)
    (es : List Schematic.Entry) : entryTrees extras within es
      = es.filterMap (entryTree? extras within) := by
  induction es with
  | nil => rw [entryTrees, List.filterMap_nil]
  | cons e es ih =>
    rw [entryTrees, ih, List.filterMap_cons]
    cases entryTree? extras within e <;> rfl

theorem extensions_eq (others : List TypeSymbol) : extensions others
    = (extensionBranches others).map fun b => node b.kind (b.below.trees c t) := by
  rw [extensions, extensionBranches, List.map_map,
    List.map_subtype (g := fun p => node (.extension p.1) (backLink :: extensions p.2))
      (by intros; rfl), List.unattach_attach]
  rfl

theorem hierarchyOf?_eq : hierarchyOf? c t
    = (hierarchyBranch? c t).map fun b => node b.kind (b.below.trees c t) := by
  rw [hierarchyOf?, hierarchyBranch?, Option.map_map]
  rfl

theorem trimmings_eq : trimmings c t =
    (backLinkBranch :: extensionBranches (extensionSymbols c t)
      ++ (hierarchyBranch? c t).toList).map fun b => node b.kind (b.below.trees c t) := by
  rw [trimmings, extensionsOf, extensions_eq (c := c) (t := t), hierarchyOf?_eq, List.map_append,
    List.map_cons, Option.toList_map]
  rfl

/-- The trees below a spot are those of its branches. -/
theorem trees_eq (spot : Spot) : spot.trees c t
    = (spot.branches c t).map fun b => node b.kind (b.below.trees c t) := by
  cases spot with
  | closed => rfl
  | extended others =>
    rw [trees, branches, List.map_cons, ← extensions_eq]
    rfl
  | position within es =>
    have hentry (e : Schematic.Entry × Nat) :
        (entryBranch? within e).map (fun b => node b.kind (b.below.trees c t))
          = entryTree? (trimmings c t) within e.1 := by
      rw [entryTree?_eq, entryBranch?, Option.map_map]
      rfl
    have hindexed := calc
      es.filterMap (entryTree? (trimmings c t) within)
      _ = (es.zipIdx.map Prod.fst).filterMap (entryTree? (trimmings c t) within) := by
        rw [List.zipIdx_map_fst]
      _ = es.zipIdx.filterMap fun e => entryTree? (trimmings c t) within e.1 := by
        rw [List.filterMap_map]
        rfl
    rw [trees, branches, List.map_append, ← trimmings_eq, List.map_filterMap, entryTrees_eq,
      hindexed]
    simp only [hentry]

end Trees

section Paths

theorem accepted?_eq_some {within : Option LinkKind} {e : Schematic.Entry} {k : LinkKind} :
    accepted? within e = some k ↔ e.kind? = some k ∧ ∀ w ∈ within, k ∈ w.accepts := by
  rw [accepted?, Option.filter_eq_some_iff]
  refine and_congr_right fun _ => ?_
  cases within <;> simp

theorem mem_extensionBranches {others : List TypeSymbol} {b : Branch} :
    b ∈ extensionBranches others ↔ ∃ p ∈ picks others,
      b = ⟨.extension p.1, .extension p.1, .extended p.2⟩ := by
  simp only [extensionBranches, List.mem_map, eq_comm]

theorem mem_hierarchyBranch? {b : Branch} : b ∈ hierarchyBranch? c t ↔
    ∃ marker, hierarchyMarker? c t = some marker ∧
      b = ⟨.hierarchy, .hierarchy marker, .extended (extensionSymbols c t)⟩ := by
  rw [hierarchyBranch?, Option.mem_def, Option.map_eq_some_iff]
  exact exists_congr fun _ => and_congr_right fun _ => eq_comm

theorem mem_entryBranches {within : Option LinkKind} {es : List Schematic.Entry} {b : Branch} :
    b ∈ es.zipIdx.filterMap (entryBranch? within) ↔
      ∃ i e k, es[i]? = some e ∧ e.kind? = some k ∧ (∀ w ∈ within, k ∈ w.accepts) ∧
        b = ⟨.link i, .linkType k e, .position (some k) e.children⟩ := by
  simp only [List.mem_filterMap, entryBranch?, Option.map_eq_some_iff, accepted?_eq_some,
    Prod.exists, List.mem_zipIdx_iff_getElem?]
  constructor
  · rintro ⟨e, i, he, k, ⟨hk, hw⟩, rfl⟩
    exact ⟨i, e, k, he, hk, hw, rfl⟩
  · rintro ⟨i, e, k, he, hk, hw, rfl⟩
    exact ⟨e, i, he, k, ⟨hk, hw⟩, rfl⟩

theorem allows_closed_iff {path : List Segment} : closed.Allows c t path ↔ path = [] := by
  cases path <;> simp [Allows, branches]

/-- Of extensions without repetitions, a pick leaves all but the one that is picked. -/
theorem nodup_of_mem_picks {others : List TypeSymbol} (h : others.Nodup)
    {p : TypeSymbol × List TypeSymbol} (hp : p ∈ picks others) :
    p.1 ∉ p.2 ∧ p.2.Nodup ∧ ∀ e, e ∈ others ↔ e = p.1 ∨ e ∈ p.2 := by
  have hperm := perm_of_mem_picks hp
  obtain ⟨hnot, hnodup⟩ := List.nodup_cons.mp (hperm.nodup_iff.mpr h)
  exact ⟨hnot, hnodup, fun e => hperm.mem_iff.symm.trans List.mem_cons⟩

theorem allows_extended_iff {others : List TypeSymbol} (h : others.Nodup) {path : List Segment} :
    (extended others).Allows c t path ↔ Extends others path := by
  induction path generalizing others with
  | nil => exact iff_of_true trivial ⟨[], [], rfl, List.nodup_nil, by simp, Or.inl rfl⟩
  | cons x rest ih =>
    constructor
    · rintro ⟨b, hb, rfl, hrest⟩
      rcases List.mem_cons.mp hb with rfl | hb
      · obtain rfl := allows_closed_iff.mp hrest
        exact ⟨[], [.backLink], rfl, List.nodup_nil, by simp, Or.inr rfl⟩
      · obtain ⟨p, hp, rfl⟩ := mem_extensionBranches.mp hb
        obtain ⟨hnot, hnodup, hmem⟩ := nodup_of_mem_picks h hp
        obtain ⟨chosen, below, rfl, hchosen, hsub, hbelow⟩ := (ih hnodup).mp hrest
        refine ⟨p.1 :: chosen, below, rfl, List.nodup_cons.mpr ⟨?_, hchosen⟩, ?_, hbelow⟩
        · exact fun hp1 => hnot (hsub p.1 hp1)
        · intro e he
          exact (hmem e).mpr ((List.mem_cons.mp he).imp_right (hsub e))
    · rintro ⟨chosen, below, hpath, hchosen, hsub, hbelow⟩
      cases chosen with
      | nil =>
        rcases hbelow with rfl | rfl
        · cases hpath
        · cases hpath
          exact ⟨backLinkBranch, List.mem_cons_self, rfl, trivial⟩
      | cons e chosen =>
        cases hpath
        obtain ⟨hnot, hothers⟩ := List.nodup_cons.mp hchosen
        have he : e ∈ (picks others).map Prod.fst := by
          rw [map_fst_picks]
          exact hsub e List.mem_cons_self
        obtain ⟨p, hp, rfl⟩ := List.mem_map.mp he
        obtain ⟨_, hnodup, hmem⟩ := nodup_of_mem_picks h hp
        refine ⟨_, List.mem_cons_of_mem _ (mem_extensionBranches.mpr ⟨p, hp, rfl⟩), rfl, ?_⟩
        refine (ih hnodup).mpr ⟨chosen, below, rfl, hothers, fun d hd => ?_, hbelow⟩
        refine ((hmem d).mp (hsub d (List.mem_cons_of_mem _ hd))).resolve_left ?_
        rintro rfl
        exact hnot hd

/-- A position has the branches of its extensions, a hierarchy and entries. -/
theorem mem_branches_position {within : Option LinkKind} {es : List Schematic.Entry} {b : Branch} :
    b ∈ (position within es).branches c t ↔ b ∈ (extended (extensionSymbols c t)).branches c t ∨
      b ∈ hierarchyBranch? c t ∨ b ∈ es.zipIdx.filterMap (entryBranch? within) := by
  rw [branches, branches, List.mem_append, List.mem_append, Option.mem_toList, or_assoc]
  rfl

theorem allows_position_iff (h : (extensionSymbols c t).Nodup) {within : Option LinkKind}
    {es : List Schematic.Entry} {path : List Segment} :
    (position within es).Allows c t path ↔ OccursBelow c t within es path := by
  -- links lead from position to position, which is the induction; an extension or the hierarchy
  -- leaves positions for good, and the rest of the path lies below an extended spot
  induction path generalizing within es with
  | nil =>
    exact iff_of_true trivial
      ⟨[], [], rfl, trivial, Or.inl ⟨[], [], rfl, List.nodup_nil, by simp, Or.inl rfl⟩⟩
  | cons x rest ih =>
    constructor
    · rintro ⟨b, hb, hx, hrest⟩
      rcases mem_branches_position.mp hb with hb | hb | hb
      · have hallows : (extended (extensionSymbols c t)).Allows c t (x :: rest) :=
          ⟨b, hb, hx, hrest⟩
        exact ⟨[], _, rfl, trivial, Or.inl ((allows_extended_iff h).mp hallows)⟩
      · obtain ⟨marker, hmarker, rfl⟩ := mem_hierarchyBranch?.mp hb
        have hextends := (allows_extended_iff h).mp hrest
        exact ⟨[], _, rfl, trivial, Or.inr ⟨by rw [hmarker]; rfl, rest, by rw [← hx], hextends⟩⟩
      · obtain ⟨i, e, k, he, hk, hw, rfl⟩ := mem_entryBranches.mp hb
        obtain ⟨links, below, rfl, hfollows, hbelow⟩ := ih.mp hrest
        exact ⟨i :: links, below, by rw [← hx]; rfl, ⟨e, k, he, hk, hw, hfollows⟩, hbelow⟩
    · rintro ⟨links, below, hpath, hfollows, hbelow⟩
      cases links with
      | nil =>
        obtain rfl : x :: rest = below := hpath
        rcases hbelow with hextends | ⟨hmarker, more, hmore, hextends⟩
        · obtain ⟨b, hb, hx, hrest⟩ := (allows_extended_iff (c := c) (t := t) h).mpr hextends
          exact ⟨b, mem_branches_position.mpr (Or.inl hb), hx, hrest⟩
        · obtain ⟨marker, hmarker⟩ := Option.isSome_iff_exists.mp hmarker
          cases hmore
          have hb := mem_hierarchyBranch?.mpr ⟨marker, hmarker, rfl⟩
          exact ⟨_, mem_branches_position.mpr (Or.inr (Or.inl hb)), rfl,
            (allows_extended_iff h).mpr hextends⟩
      | cons i links =>
        cases hpath
        obtain ⟨e, k, he, hk, hw, hfollows⟩ := hfollows
        have hb := mem_entryBranches.mpr ⟨i, e, k, he, hk, hw, rfl⟩
        exact ⟨_, mem_branches_position.mpr (Or.inr (Or.inr hb)), rfl,
          ih.mpr ⟨links, below, rfl, hfollows, hbelow⟩⟩

/-- A branch has the kind that its segment names. -/
theorem kindAt?_of_mem_branches {spot : Spot} {b : Branch} (hb : b ∈ spot.branches c t)
    (above : NodeKind) (rest : List Segment) :
    kindAt? c t above spot.entries (b.segment :: rest)
      = kindAt? c t b.kind b.below.entries rest := by
  have extended {others : List TypeSymbol} {es : List Schematic.Entry}
      (hb : b ∈ (extended others).branches c t) :
      kindAt? c t above es (b.segment :: rest) = kindAt? c t b.kind b.below.entries rest := by
    rcases List.mem_cons.mp hb with rfl | hb
    · rfl
    · obtain ⟨p, _, rfl⟩ := mem_extensionBranches.mp hb
      rfl
  cases spot with
  | closed => cases hb
  | extended others => exact extended hb
  | position within es =>
    rcases mem_branches_position.mp hb with hb | hb | hb
    · exact extended hb
    · obtain ⟨marker, hmarker, rfl⟩ := mem_hierarchyBranch?.mp hb
      rw [kindAt?, hmarker]
      rfl
    · obtain ⟨i, e, k, he, hk, _, rfl⟩ := mem_entryBranches.mp hb
      simp only [kindAt?, entries, he, hk, Option.bind_some]

end Paths

section Order

/-- Extensions in name order are told apart by their names. -/
theorem nodup_names_of_ordered {others : List TypeSymbol} (h : (extended others).Ordered) :
    (others.map TypeSymbol.name).Nodup := by
  refine List.pairwise_map.mpr (List.Pairwise.imp (fun {x y} hlt => ?_) h)
  exact fun heq => String.lt_irrefl _ (heq ▸ hlt)

theorem ordered_of_mem_branches (h : (extended (extensionSymbols c t)).Ordered) {spot : Spot}
    (hspot : spot.Ordered) {b : Branch} (hb : b ∈ spot.branches c t) : b.below.Ordered := by
  have extended {others : List TypeSymbol} (hothers : (extended others).Ordered)
      (hb : b ∈ (extended others).branches c t) : b.below.Ordered := by
    rcases List.mem_cons.mp hb with rfl | hb
    · trivial
    · obtain ⟨p, hp, rfl⟩ := mem_extensionBranches.mp hb
      exact List.Pairwise.sublist (sublist_of_mem_picks hp) hothers
  cases spot with
  | closed => cases hb
  | extended others => exact extended hspot hb
  | position within es =>
    rcases mem_branches_position.mp hb with hb | hb | hb
    · exact extended h hb
    · obtain ⟨marker, _, rfl⟩ := mem_hierarchyBranch?.mp hb
      exact h
    · obtain ⟨i, e, k, _, _, _, rfl⟩ := mem_entryBranches.mp hb
      trivial

theorem pairwise_extended {others : List TypeSymbol} (h : (extended others).Ordered) :
    ((extended others).branches c t).Pairwise fun b d => b.segment.Before d.segment := by
  refine List.pairwise_cons.mpr ⟨fun b hb => ?_, ?_⟩
  · obtain ⟨p, _, rfl⟩ := mem_extensionBranches.mp hb
    trivial
  · have hfst : ((picks others).map Prod.fst).Pairwise fun x y => x.name < y.name := by
      rw [map_fst_picks]
      exact h
    have hpicks := List.pairwise_map.mp hfst
    rw [extensionBranches, List.pairwise_map]
    exact hpicks

theorem pairwise_entryBranches (within : Option LinkKind) (es : List Schematic.Entry) :
    (es.zipIdx.filterMap (entryBranch? within)).Pairwise
      fun b d => b.segment.Before d.segment := by
  have hindexes : (es.zipIdx.map Prod.snd).Pairwise (· < ·) := by
    rw [List.zipIdx_map_snd]
    exact List.pairwise_lt_range'
  refine (List.pairwise_map.mp hindexes).filterMap _ fun e f hef b hb d hd => ?_
  obtain ⟨k, _, rfl⟩ := Option.map_eq_some_iff.mp hb
  obtain ⟨l, _, rfl⟩ := Option.map_eq_some_iff.mp hd
  exact hef

/-- Branches stand in the order of their segments. -/
theorem pairwise_branches (h : (extended (extensionSymbols c t)).Ordered) {spot : Spot}
    (hspot : spot.Ordered) :
    (spot.branches c t).Pairwise fun b d => b.segment.Before d.segment := by
  cases spot with
  | closed => exact List.Pairwise.nil
  | extended others => exact pairwise_extended hspot
  | position within es =>
    rw [branches, List.pairwise_append, List.pairwise_append]
    -- each part is in order, and segments of different parts compare by their kinds alone
    refine ⟨⟨pairwise_extended (c := c) (t := t) h, ?_, ?_⟩, pairwise_entryBranches within es, ?_⟩
    · cases hierarchyBranch? c t with
      | none => exact List.Pairwise.nil
      | some b => exact List.pairwise_singleton _ b
    · intro b hb d hd
      obtain ⟨marker, _, rfl⟩ := mem_hierarchyBranch?.mp (Option.mem_toList.mp hd)
      rcases List.mem_cons.mp hb with rfl | hb
      · trivial
      · obtain ⟨p, _, rfl⟩ := mem_extensionBranches.mp hb
        trivial
    · intro b hb d hd
      obtain ⟨i, e, k, _, _, _, rfl⟩ := mem_entryBranches.mp hd
      rcases List.mem_append.mp hb with hb | hb
      · rcases List.mem_cons.mp hb with rfl | hb
        · trivial
        · obtain ⟨p, _, rfl⟩ := mem_extensionBranches.mp hb
          trivial
      · obtain ⟨marker, _, rfl⟩ := mem_hierarchyBranch?.mp (Option.mem_toList.mp hb)
        trivial

/-- Where branches stand follows from their segments. -/
theorem index_of_segments (h : (extended (extensionSymbols c t)).Ordered) {spot : Spot}
    (hspot : spot.Ordered) {j k : Nat} {b d : Branch} (hj : (spot.branches c t)[j]? = some b)
    (hk : (spot.branches c t)[k]? = some d) :
    (b.segment.Before d.segment → j < k) ∧ (b.segment = d.segment → j = k) := by
  obtain ⟨hjlt, rfl⟩ := List.getElem?_eq_some_iff.mp hj
  obtain ⟨hklt, rfl⟩ := List.getElem?_eq_some_iff.mp hk
  have hpairwise := List.pairwise_iff_getElem.mp (pairwise_branches h hspot)
  rcases Nat.lt_trichotomy j k with hlt | rfl | hgt
  · have hbefore := hpairwise j k hjlt hklt hlt
    refine ⟨fun _ => hlt, fun heq => ?_⟩
    rw [heq] at hbefore
    exact absurd hbefore hbefore.asymm
  · exact ⟨fun hbefore => absurd hbefore hbefore.asymm, fun _ => rfl⟩
  · have hbefore := hpairwise k j hklt hjlt hgt
    refine ⟨fun hlt => absurd hlt hbefore.asymm, fun heq => ?_⟩
    rw [heq] at hbefore
    exact absurd hbefore hbefore.asymm

end Order

end Spot

end ActorLinks
