import ActorLinks.Proofs.Composition.Bases

/-! # Compositions with exclusions

The search leaves out excluded nodes at the end of every part of a walk, not only at the end of the
walk. The groups of a search differ in their categories, so that the parts of a walk can be told
from where it ends: they end where the category changes on the path down to that node. A node is
therefore lost together with any of these turns, also where it is not excluded itself.
-/
namespace ActorLinks

/-- Categories in the order in which they can follow one another down a path. -/
def Category.rank : Category → Nat
  | .actor => 0
  | .linkType => 1
  | .hierarchy => 2
  | .extension => 3
  | .backLink => 4

theorem Category.rank_injective : Function.Injective Category.rank := by
  intro j k h
  cases j <;> cases k <;> simp [rank] at h ⊢

theorem Category.rank_le_of_mem_admits {j k : Category} (h : k ∈ j.admits) : j.rank ≤ k.rank := by
  cases j <;> cases k <;> simp [admits, rank] at h ⊢

namespace Arena
variable {a : Arena} {i k m n p root t : NodeId} {part path : List NodeId}

/-- On the path down to `n`, what comes after `m` is of another category. -/
def Turns (a : Arena) (n m : NodeId) : Prop :=
  m ∈ a.pathBelow n ∧ ∀ k ∈ a.pathBelow n, a.parent? k = some m → a.category k ≠ a.category m

theorem turns_self : a.Turns n n := by
  refine ⟨List.mem_of_getLast? (getLast?_pathBelow n), fun k hk hp => ?_⟩
  exact absurd (le_of_mem_pathBelow hk) (Nat.not_le_of_lt (lt_of_parent hp))

theorem turns_of_actor (hp : a.parent? n = some p) (hk : (a.kind p).isActor = true) :
    a.Turns n t ↔ t = n := by
  refine ⟨fun h => ?_, fun h => h ▸ turns_self⟩
  have hmem := h.1
  rw [pathBelow_of_actor hp hk] at hmem
  exact List.mem_singleton.mp hmem

theorem turns_of_parent (hp : a.parent? n = some p) (hk : (a.kind p).isActor = false) :
    a.Turns n t ↔ t = n ∨ a.Turns p t ∧ (t = p → a.category n ≠ a.category p) := by
  have hpath := pathBelow_of_parent hp hk
  constructor
  · rintro ⟨hmem, hbelow⟩
    rw [hpath] at hmem hbelow
    rcases List.mem_append.mp hmem with hmem | hmem
    · refine Or.inr ⟨⟨hmem, fun k hk' => hbelow k (List.mem_append_left _ hk')⟩, ?_⟩
      rintro rfl
      exact hbelow n (List.mem_append_right _ List.mem_cons_self) hp
    · exact Or.inl (List.mem_singleton.mp hmem)
  · rintro (rfl | ⟨⟨hmem, hbelow⟩, hlast⟩)
    · exact turns_self
    · refine ⟨by rw [hpath]; exact List.mem_append_left _ hmem, fun k hk' hkt => ?_⟩
      rw [hpath] at hk'
      rcases List.mem_append.mp hk' with hk' | hk'
      · exact hbelow k hk' hkt
      · obtain rfl := List.mem_singleton.mp hk'
        obtain rfl := Option.some.inj (hp.symm.trans hkt)
        exact hlast rfl

theorem lt_of_walk? (hne : part ≠ []) (h : a.walk? m part = some n) : (m : Nat) < n := by
  refine Nat.lt_of_le_of_ne (le_of_mem_spine (start_mem_spine_of_walk? h)) ?_
  rintro rfl
  have hdepth := depth_of_walk? h
  have hpos := List.length_pos_iff.mpr hne
  omega

theorem category_of_walk? (hne : part ≠ []) (h : a.walk? m part = some n) :
    ∃ x ∈ part, a.category x = a.category n :=
  Reaches.exists_segment ⟨part, hne, List.Sublist.refl part, h⟩

section Nested
variable (h : a.Nested)
include h

/-- A walk by segments of one category, from a node of another, adds one turn. -/
theorem Nested.turns_of_walk? {j : Category} (hne : part ≠ []) (hwalk : a.walk? m part = some n)
    (hsame : ∀ x ∈ part, a.category x = j) (hm : a.category m ≠ j) :
    a.Turns n t ↔ t = n ∨ (a.kind m).isActor = false ∧ a.Turns m t := by
  induction part using List.reverseRecOn generalizing n with
  | nil => exact absurd rfl hne
  | append_singleton xs x ih =>
    obtain ⟨y, hy, hcategory⟩ := category_of_walk? hne hwalk
    have hn : a.category n = j := hcategory.symm.trans (hsame y hy)
    rw [walk?_append] at hwalk
    obtain ⟨q, hq, hstep⟩ := Option.bind_eq_some_iff.mp hwalk
    obtain ⟨_, hx, hlast⟩ := Option.bind_eq_some_iff.mp hstep
    cases hlast
    have hp := parent_of_step? hx
    -- the first segment turns at `m`; each later one stands below a node of its own category
    rcases eq_or_ne xs [] with rfl | hxs
    · cases hq
      cases hk : (a.kind m).isActor with
      | true => simp [turns_of_actor hp hk]
      | false => simp [turns_of_parent hp hk, hn, hm.symm]
    · have hrest : ∀ z ∈ xs, a.category z = j := fun z hz =>
        hsame z (List.mem_append_left _ hz)
      obtain ⟨z, hz, hcategory'⟩ := category_of_walk? hxs hq
      have hqj : a.category q = a.category n := by rw [← hcategory', hrest z hz, hn]
      obtain ⟨_, habove⟩ := exists_parent_of_walk? hq hxs
      rw [turns_of_parent hp (h.isActor_of_parent habove), ih hxs hq hrest]
      refine or_congr_right ⟨fun ⟨hturn, hother⟩ => ?_, fun hturn => ⟨Or.inr hturn, ?_⟩⟩
      · exact hturn.resolve_left fun heq => hother heq hqj.symm
      · rintro rfl
        exact absurd (le_of_mem_pathBelow hturn.2.1) (Nat.not_le_of_lt (lt_of_walk? hxs hq))

end Nested

theorem walksThrough_concat {keep : NodeId → Bool} {start : NodeId} {parts : List (List NodeId)} :
    a.WalksThrough keep start (parts ++ [part]) n ↔
      ∃ m, a.WalksThrough keep start parts m ∧ a.walk? m part = some n ∧ keep n = true := by
  induction parts generalizing start with
  | nil => simp [WalksThrough]
  | cons q qs ih =>
    simp only [List.cons_append, WalksThrough, ih]
    constructor
    · rintro ⟨m, hm, hkeep, r, hr, hrest⟩
      exact ⟨r, ⟨m, hm, hkeep, hr⟩, hrest⟩
    · rintro ⟨r, ⟨m, hm, hkeep, hr⟩, hrest⟩
      exact ⟨m, hm, hkeep, r, hr, hrest⟩

/-- Each part is of one category, and no two parts are of the same. -/
structure Staged (a : Arena) (parts : List (List NodeId)) : Prop where
  ne_nil : ∀ part ∈ parts, part ≠ []
  same : ∀ part ∈ parts, ∃ j, ∀ x ∈ part, a.category x = j
  apart : parts.Pairwise fun p q => ∀ x ∈ p, ∀ y ∈ q, a.category x ≠ a.category y

theorem Staged.front {parts : List (List NodeId)} (hs : a.Staged (parts ++ [part])) :
    a.Staged parts where
  ne_nil q hq := hs.ne_nil q (List.mem_append_left _ hq)
  same q hq := hs.same q (List.mem_append_left _ hq)
  apart := (List.pairwise_append.mp hs.apart).1

section Stages
variable (h : a.Nested) (hroot : (a.kind root).isActor = true)
include h hroot

/-- A walk comes to its last part from the actor or from the end of another part, so that this adds
one turn. -/
theorem Nested.turns_of_stage {parts : List (List NodeId)} (hs : a.Staged (parts ++ [part]))
    (hm : a.walk? root parts.flatten = some m) (hwalk : a.walk? m part = some n) :
    a.Turns n t ↔ t = n ∨ (a.kind m).isActor = false ∧ a.Turns m t := by
  have hmem : part ∈ parts ++ [part] := List.mem_append_right _ List.mem_cons_self
  have hne := hs.ne_nil part hmem
  obtain ⟨j, hj⟩ := hs.same part hmem
  obtain ⟨x, hx, hxn⟩ := category_of_walk? hne hwalk
  refine h.turns_of_walk? hne hwalk hj ?_
  rw [← hj x hx]
  rcases eq_or_ne parts.flatten [] with hflat | hflat
  · rw [hflat] at hm
    cases hm
    obtain ⟨_, hp⟩ := exists_parent_of_walk? hwalk hne
    have hactor : a.category m = .actor := beq_iff_eq.mp hroot
    rw [hactor, hxn]
    exact (h.category_ne_actor hp).symm
  · obtain ⟨y, hy, hym⟩ := category_of_walk? hflat hm
    obtain ⟨q, hq, hyq⟩ := List.mem_flatten.mp hy
    rw [← hym]
    exact (List.pairwise_append.mp hs.apart).2.2 q hq part List.mem_cons_self y hyq x hx

/-- A walk in stages is kept where all turns on the way to its end are. -/
theorem Nested.walksThrough_iff_turns {keep : NodeId → Bool} {parts : List (List NodeId)}
    (hs : a.Staged parts) (hne : parts ≠ []) : a.WalksThrough keep root parts n ↔
      a.walk? root parts.flatten = some n ∧ ∀ t, a.Turns n t → keep t = true := by
  induction parts using List.reverseRecOn generalizing n with
  | nil => exact absurd rfl hne
  | append_singleton parts part ih =>
    have hturns {m t : NodeId} (hm : a.walk? root parts.flatten = some m)
        (hwalk : a.walk? m part = some n) := h.turns_of_stage (t := t) hroot hs hm hwalk
    rw [walksThrough_concat, List.flatten_append, List.flatten_singleton, walk?_append,
      Option.bind_eq_some_iff, ← exists_and_right]
    refine exists_congr fun m => ?_
    -- the walk turns at its end and at the ends of the parts before, but not at the root
    rcases eq_or_ne parts [] with rfl | hparts
    · constructor
      · rintro ⟨rfl, hwalk, hkeep⟩
        refine ⟨⟨rfl, hwalk⟩, fun t ht => ?_⟩
        rcases (hturns rfl hwalk).mp ht with rfl | ⟨hbelow, _⟩
        · exact hkeep
        · rw [hroot] at hbelow
          cases hbelow
      · rintro ⟨⟨hm, hwalk⟩, hkeep⟩
        cases hm
        exact ⟨rfl, hwalk, hkeep n turns_self⟩
    · have hflat : parts.flatten ≠ [] := by
        obtain ⟨q, hq⟩ := List.exists_mem_of_ne_nil _ hparts
        exact fun hflat => hs.front.ne_nil q hq (List.flatten_eq_nil_iff.mp hflat q hq)
      rw [ih hs.front hparts]
      constructor
      · rintro ⟨⟨hm, hkeepm⟩, hwalk, hkeep⟩
        refine ⟨⟨hm, hwalk⟩, fun t ht => ?_⟩
        rcases (hturns hm hwalk).mp ht with rfl | ⟨_, ht⟩
        · exact hkeep
        · exact hkeepm t ht
      · rintro ⟨⟨hm, hwalk⟩, hkeep⟩
        obtain ⟨_, habove⟩ := exists_parent_of_walk? hm hflat
        have hbelow := h.isActor_of_parent habove
        exact ⟨⟨hm, fun t ht => hkeep t ((hturns hm hwalk).mpr (Or.inr ⟨hbelow, ht⟩))⟩, hwalk,
          hkeep n turns_self⟩

end Stages

section Groups

/-- Lists of one category each, in which ranks never fall, are of different categories if
neighbours are. -/
theorem pairwise_of_neighbours {groups : List (List NodeId)}
    (hsame : ∀ g ∈ groups, ∀ x ∈ g, ∀ y ∈ g, a.category x = a.category y)
    (hle : groups.Pairwise fun g g' =>
      ∀ x ∈ g, ∀ y ∈ g', (a.category x).rank ≤ (a.category y).rank)
    (hnext : groups.IsChain fun g g' => ∃ x ∈ g, ∃ y ∈ g', a.category x ≠ a.category y) :
    groups.Pairwise fun g g' => ∀ x ∈ g, ∀ y ∈ g', a.category x ≠ a.category y := by
  induction groups with
  | nil => exact List.Pairwise.nil
  | cons g groups ih =>
    obtain ⟨hfirst, hrest⟩ := List.pairwise_cons.mp hle
    refine List.pairwise_cons.mpr ⟨fun g' hg' x hx y hy heq => ?_,
      ih (fun g' hg' => hsame g' (List.mem_cons_of_mem _ hg')) hrest hnext.tail⟩
    cases groups with
    | nil => cases hg'
    | cons next groups =>
      obtain ⟨⟨w, hw, z, hz, hne⟩, _⟩ := List.isChain_cons_cons.mp hnext
      -- the rank rises from the first list to the next and does not fall after that
      have hxz : (a.category x).rank < (a.category z).rank := by
        rw [hsame g List.mem_cons_self x hx w hw]
        exact Nat.lt_of_le_of_ne (hfirst next List.mem_cons_self w hw z hz)
          fun hrank => hne (Category.rank_injective hrank)
      have hzy : (a.category z).rank ≤ (a.category y).rank := by
        rcases List.mem_cons.mp hg' with rfl | hg'
        · rw [hsame g' (List.mem_cons_of_mem _ List.mem_cons_self) z hz y hy]
        · exact (List.pairwise_cons.mp hrest).1 g' hg' z hz y hy
      rw [heq] at hxz
      exact absurd hxz (Nat.not_lt_of_le hzy)

theorem Nested.pairwise_rank (h : a.Nested) {start : NodeId} (hpath : a.Descends start path) :
    path.Pairwise fun m n => (a.category m).rank ≤ (a.category n).rank := by
  have hchain : path.IsChain fun m n => (a.category m).rank ≤ (a.category n).rank :=
    (List.IsChain.tail hpath).imp fun _ _ hp => Category.rank_le_of_mem_admits (h.admits hp)
  have htrans : Trans (fun m n => (a.category m).rank ≤ (a.category n).rank)
      (fun m n => (a.category m).rank ≤ (a.category n).rank)
      (fun m n => (a.category m).rank ≤ (a.category n).rank) := ⟨Nat.le_trans⟩
  exact List.isChain_iff_pairwise.mp hchain

theorem Nested.same_of_mem_searchGroups (h : a.Nested) {g : List NodeId}
    (hg : g ∈ a.searchGroups i) : ∀ x ∈ g, ∀ y ∈ g, a.category x = a.category y := by
  intro x hx y hy
  rw [h.searchGroups_eq] at hg
  have hchain : g.IsChain fun m n => a.category m = a.category n :=
    (List.isChain_of_mem_splitBy hg).imp fun _ _ heq => beq_iff_eq.mp heq
  have htrans : Trans (fun m n => a.category m = a.category n)
      (fun m n => a.category m = a.category n) (fun m n => a.category m = a.category n) :=
    ⟨Eq.trans⟩
  have hsymm : Std.Symm fun m n => a.category m = a.category n := ⟨fun _ _ => Eq.symm⟩
  exact List.Pairwise.forall_of_forall (R := fun m n => a.category m = a.category n)
    (fun _ _ => rfl) (List.isChain_iff_pairwise.mp hchain) hx hy

/-- The groups of a search are of different categories. -/
theorem Nested.pairwise_searchGroups (h : a.Nested) {start : NodeId}
    (hpath : a.Descends start (a.pathBelow i)) : (a.searchGroups i).Pairwise fun g g' =>
      ∀ x ∈ g, ∀ y ∈ g', a.category x ≠ a.category y := by
  refine pairwise_of_neighbours (fun g hg => h.same_of_mem_searchGroups hg) ?_ ?_
  · have hrank := h.pairwise_rank hpath
    rw [← List.flatten_splitBy (fun m n => a.category m == a.category n) (a.pathBelow i),
      ← h.searchGroups_eq, List.pairwise_flatten] at hrank
    exact hrank.2
  · rw [h.searchGroups_eq]
    refine (List.isChain_getLast_head_splitBy _ _).imp fun g g' ⟨hg, hg', hne⟩ => ?_
    exact ⟨_, List.getLast_mem hg, _, List.head_mem hg', beq_eq_false_iff_ne.mp hne⟩

theorem Nested.staged_of_chosen (h : a.Nested) {start : NodeId}
    (hpath : a.Descends start (a.pathBelow i)) {chosen : List (List (List NodeId))}
    {parts : List (List NodeId)} (hc : chosen.Sublist (a.searchProduct i))
    (hp : List.Forall₂ (· ∈ ·) parts chosen) : a.Staged parts := by
  have hapart := h.pairwise_searchGroups hpath
  obtain ⟨groups, hgroups, rfl⟩ := List.sublist_map_iff.mp hc
  replace hapart := hapart.sublist hgroups
  have hsub : ∀ g ∈ groups, g ∈ a.searchGroups i := fun g hg => hgroups.subset hg
  -- the induction takes the groups one by one, so what is kept of them holds of each alone
  clear hgroups hc
  rw [List.forall₂_map_right_iff] at hp
  have hpart {part g : List NodeId} (hg : g ∈ a.searchGroups i) (hmem : part ∈ a.expandGroup g) :
      part ≠ [] ∧ part ⊆ g := by
    rw [h.searchGroups_eq] at hg
    obtain ⟨hne, hpart⟩ := (h.mem_expandGroup hpath hg part).mp hmem
    exact ⟨hne, hpart.subset⟩
  induction hp with
  | nil => exact ⟨by simp, by simp, List.Pairwise.nil⟩
  | @cons part g parts groups hmem hrest ih =>
    obtain ⟨hfirst, hothers⟩ := List.pairwise_cons.mp hapart
    obtain ⟨hnil, hstages, hpairs⟩ := ih hothers fun g' hg' => hsub g' (List.mem_cons_of_mem _ hg')
    have hg := hsub g List.mem_cons_self
    obtain ⟨hne, hpart'⟩ := hpart hg hmem
    refine ⟨List.forall_mem_cons.mpr ⟨hne, hnil⟩, List.forall_mem_cons.mpr ⟨?_, hstages⟩,
      List.pairwise_cons.mpr ⟨fun q hq x hx y hy => ?_, hpairs⟩⟩
    · obtain ⟨w, hw⟩ := List.exists_mem_of_ne_nil _ hne
      exact ⟨_, fun x hx => h.same_of_mem_searchGroups hg x (hpart' hx) w (hpart' hw)⟩
    · have hwithin : ∃ g' ∈ groups, q ⊆ g' := by
        refine forall_mem_of_forall₂ (P := fun q => ∃ g' ∈ groups, q ⊆ g')
          (List.forall₂_map_right_iff.mpr hrest) ?_ q hq
        rintro _ hexpand q hq
        obtain ⟨g', hg', rfl⟩ := List.mem_map.mp hexpand
        exact ⟨g', hg', (hpart (hsub g' (List.mem_cons_of_mem _ hg')) hq).2⟩
      obtain ⟨g', hg', hsubset⟩ := hwithin
      exact hfirst g' hg' x (hpart' hx) y (hsubset hy)

end Groups

/-- A composition has the ends of the walks that have no turn at a node to be left out. -/
theorem Nested.mem_composition_iff_turns (h : a.Nested) (hroot : a.rootActor? i = some root)
    {excludeSelf : Bool} {exclude : Option (SortedSet NodeId)} :
    n ∈ a.composition i excludeSelf exclude ↔
      (∃ chosen parts, chosen ≠ [] ∧ chosen.Sublist (a.searchProduct i) ∧
        List.Forall₂ (· ∈ ·) parts chosen ∧ a.walk? root parts.flatten = some n) ∧
      ∀ t, a.Turns n t → (∀ x ∈ exclude, t ∉ x) ∧ (excludeSelf = true → t ≠ i) := by
  obtain ⟨_, hroot', hactor, hpath⟩ :=
    h.exists_root (lt_size_of_rootActor? hroot) (h.isActor_of_rootActor? hroot)
  obtain rfl := Option.some.inj (hroot'.symm.trans hroot)
  have hkeep (t : NodeId) : (!(exclude.any fun x => t ∈ x) && !(excludeSelf && t == i)) = true ↔
      (∀ x ∈ exclude, t ∉ x) ∧ (excludeSelf = true → t ≠ i) := by
    cases exclude <;> cases excludeSelf <;> simp
  simp only [mem_composition_iff_walks hroot, ← exists_and_right, and_assoc]
  refine exists_congr fun chosen => exists_congr fun parts => and_congr_right fun hne =>
    and_congr_right fun hc => and_congr_right fun hp => ?_
  have hparts : parts ≠ [] := by
    rintro rfl
    exact hne (List.forall₂_nil_left_iff.mp hp)
  rw [h.walksThrough_iff_turns hactor (h.staged_of_chosen hpath hc hp) hparts]
  simp only [hkeep]

/-- With an exclusion, a composition loses every node that has an excluded turn on the way. -/
theorem Nested.mem_composition_some_iff (h : a.Nested) {excludeSelf : Bool}
    {exclude : SortedSet NodeId} : n ∈ a.composition i excludeSelf (some exclude) ↔
      n ∈ a.composition i excludeSelf none ∧ ∀ t, a.Turns n t → t ∉ exclude := by
  cases hroot : a.rootActor? i with
  | none => simp [composition, hroot]
  | some root =>
    rw [h.mem_composition_iff_turns hroot, h.mem_composition_iff_turns hroot, and_assoc]
    refine and_congr_right fun _ => ?_
    constructor
    · intro hturns
      exact ⟨fun t ht => ⟨by simp, (hturns t ht).2⟩, fun t ht => (hturns t ht).1 exclude rfl⟩
    · rintro ⟨hself, hnone⟩ t ht
      refine ⟨fun x hx => ?_, (hself t ht).2⟩
      cases hx
      exact hnone t ht

end Arena

namespace LinkGraph
variable {c : Compilation} {sch : Schematic} {targets : List Target} {g : LinkGraph}

theorem Composed.exclusive_eq (h : g.Composed) {i p : NodeId} {own above : NodeState}
    (hp : g.arena.parent? i = some p) (hown : g.state? i = some own)
    (habove : g.state? p = some above) :
    own.composition = own.implicitComposition.diff above.implicitComposition := by
  rw [(h hown).1, (h hown).2, (h habove).1, exclusiveComposition, inheritedComposition, hp]

/-- In every graph, visited or not, a composition with an exclusion is the one without it, less the
nodes that have an excluded turn on the way. So it is the difference exactly where all of these are
excluded themselves; and it is the composition of a node of its own exactly where what turns at a
node that the parent composes is composed by the parent too. -/
theorem composition_with_exclusion (hv : Visits (ofTargets c sch targets) g) :
    (∀ i excludeSelf exclude n, n ∈ g.arena.composition i excludeSelf (some exclude) ↔
      n ∈ g.arena.composition i excludeSelf none ∧ ∀ t, g.arena.Turns n t → t ∉ exclude) ∧
    (∀ i excludeSelf exclude, g.arena.composition i excludeSelf (some exclude)
        = (g.arena.composition i excludeSelf none).diff exclude ↔
      ∀ n ∈ g.arena.composition i excludeSelf none, ∀ t, g.arena.Turns n t → t ∈ exclude →
        n ∈ exclude) ∧
    ∀ i p own above, g.arena.parent? i = some p → g.state? i = some own →
      g.state? p = some above →
      own.composition = own.implicitComposition.diff above.implicitComposition ∧
      (g.arena.composition i true (some above.implicitComposition) = own.composition ↔
        ∀ n ∈ own.implicitComposition, ∀ t, g.arena.Turns n t →
          t ∈ above.implicitComposition → n ∈ above.implicitComposition) := by
  have hmem : ∀ i excludeSelf exclude n, n ∈ g.arena.composition i excludeSelf (some exclude) ↔
      n ∈ g.arena.composition i excludeSelf none ∧ ∀ t, g.arena.Turns n t → t ∉ exclude :=
    fun _ _ _ _ => hv.grounded.nested.mem_composition_some_iff
  have hdiff : ∀ i excludeSelf exclude, g.arena.composition i excludeSelf (some exclude)
        = (g.arena.composition i excludeSelf none).diff exclude ↔
      ∀ n ∈ g.arena.composition i excludeSelf none, ∀ t, g.arena.Turns n t → t ∈ exclude →
        n ∈ exclude := by
    intro i excludeSelf exclude
    constructor
    · intro heq n hn t ht hexcluded
      by_contra hkept
      have hdiff : n ∈ (g.arena.composition i excludeSelf none).diff exclude :=
        SortedSet.mem_diff.mpr ⟨hn, hkept⟩
      rw [← heq, hmem] at hdiff
      exact hdiff.2 t ht hexcluded
    · intro hclosed
      refine SortedSet.ext fun n => ?_
      rw [hmem, SortedSet.mem_diff]
      exact and_congr_right fun hn => ⟨fun hturns => hturns n Arena.turns_self,
        fun hkept t ht hexcluded => hkept (hclosed n hn t ht hexcluded)⟩
  refine ⟨hmem, hdiff, fun i p own above hp hown habove => ?_⟩
  have hexclusive := Composed.exclusive_eq hv.composed hp hown habove
  have himplicit : own.implicitComposition = g.arena.composition i true none := by
    rw [(hv.composed hown).1, implicitComposition, hv.grounded.nested.isActor_of_parent hp,
      if_neg Bool.false_ne_true]
  rw [hexclusive, himplicit]
  exact ⟨rfl, hdiff i true above.implicitComposition⟩

/-- Node 2 is the link type below the actor and node 4 the one below that; 1, 3 and 5 are the back
links of the actor and of these. -/
def nestedGraph : LinkGraph := ofTargets (.ofTypes []) nestedLinks
  [channelModelTarget "Discord.IChannelActor" "Discord.IChannel"]

/-- To leave out the inner link type costs its back link nothing else. -/
theorem composition_with_exclusion_inner :
    nestedGraph.visit.1.arena.composition 5 true (some (SortedSet.ofList [4]))
      = (nestedGraph.visit.1.arena.composition 5 true none).diff (SortedSet.ofList [4]) := by
  have hv : Visits nestedGraph nestedGraph.visit.1 := .again .refl
  have harena : nestedGraph.visit.1.arena = nestedGraph.arena := hv.progress.arena_eq
  obtain ⟨_, hdiff, _⟩ := composition_with_exclusion hv
  refine (hdiff 5 true _).mpr fun n hn t ht hexcluded => ?_
  have hle : ∀ n ∈ nestedGraph.arena.composition 5 true none, 4 ≤ n → n = 4 := by decide +kernel
  rw [SortedSet.mem_ofList, List.mem_singleton] at hexcluded ⊢
  rw [harena] at hn
  exact hle n hn (hexcluded ▸ Arena.le_of_mem_pathBelow ht.1)

/-- Without what the inner link type composes, its back link loses that of the outer one too, which
is neither excluded nor composed by the inner link type. -/
theorem back_link_lost_with_turn : nestedGraph.visit.1.isVisited = true ∧
    nestedGraph.visit.1.arena.parent? 5 = some 4 ∧
    ∃ own above, nestedGraph.visit.1.state? 5 = some own ∧
      nestedGraph.visit.1.state? 4 = some above ∧ above.implicitComposition.toList = [2] ∧
      own.composition.toList = [1, 3, 4] ∧
      ((nestedGraph.visit.1.arena.composition 5 true none).diff
        above.implicitComposition).toList = [1, 3, 4] ∧
      (nestedGraph.visit.1.arena.composition 5 true
        (some above.implicitComposition)).toList = [1, 4] := by
  have hv : Visits nestedGraph nestedGraph.visit.1 := .again .refl
  have hprogress : Progress nestedGraph [] nestedGraph.visit.1 := hv.progress
  have hvisited : nestedGraph.visit.1.isVisited = true := by decide +kernel
  have hstates := (isVisited_iff.mp hvisited).2
  rw [hprogress.size_eq] at hstates
  obtain ⟨own, hown⟩ := hstates 5 (by decide +kernel)
  obtain ⟨above, habove⟩ := hstates 4 (by decide +kernel)
  have hparent : nestedGraph.arena.parent? 5 = some 4 := by decide +kernel
  have hactor : (nestedGraph.arena.kind 5).isActor = false ∧
      (nestedGraph.arena.kind 4).isActor = false := by
    decide +kernel
  have hlists : nestedGraph.arena.composition 4 true none = SortedSet.ofList [2] ∧
      nestedGraph.arena.composition 5 true none = SortedSet.ofList [1, 2, 3, 4] ∧
      nestedGraph.arena.composition 5 true (some (SortedSet.ofList [2]))
        = SortedSet.ofList [1, 4] := by
    decide +kernel
  rw [← hprogress.arena_eq] at hparent hactor hlists
  have himplicit : above.implicitComposition = SortedSet.ofList [2] := by
    rw [(hv.composed habove).1, implicitComposition, hactor.2, if_neg Bool.false_ne_true, hlists.1]
  have hexclusive := Composed.exclusive_eq hv.composed hparent hown habove
  rw [himplicit, (hv.composed hown).1, implicitComposition, hactor.1, if_neg Bool.false_ne_true]
    at hexclusive
  refine ⟨hvisited, hparent, own, above, hown, habove, ?_⟩
  rw [hexclusive, himplicit, hlists.2.1, hlists.2.2]
  decide

end LinkGraph

end ActorLinks
