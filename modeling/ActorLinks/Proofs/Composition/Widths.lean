import ActorLinks.Proofs.Composition.Exclusion
import ActorLinks.Proofs.Graph.Layout

/-! # Widths of a search

Whatever the schematic nests, a link type stands only in one with more room, so no more than three
stand in one another. Below them come a hierarchy or none, extensions of different types and a back
link or none, so a path falls into four stretches of one category. The groups of a search are these
stretches, and the masks over them and over their nodes fit in a machine word, unless a core actor
has as many extensions as the word has bits.
-/
namespace ActorLinks

/-- How deep link types can nest inside one of this kind. -/
def LinkKind.room : LinkKind → Nat
  | defined => 2
  | enumerable | paged => 1
  | indexable => 0

theorem LinkKind.room_lt_of_mem_accepts {k w : LinkKind} (h : k ∈ w.accepts) :
    k.room < w.room := by
  cases w <;> cases k <;> simp [accepts, room] at h ⊢

theorem LinkKind.room_lt_three (k : LinkKind) : k.room < 3 := by cases k <;> decide

theorem LinkTree.Follows.length_le {within : Option LinkKind} {es : List Schematic.Entry}
    {links : List Nat} (h : LinkTree.Follows within es links) :
    links.length ≤ within.elim 3 LinkKind.room := by
  induction links generalizing within es with
  | nil => exact Nat.zero_le _
  | cons i rest ih =>
    obtain ⟨e, k, _, _, hwithin, hrest⟩ := h
    have hroom : k.room < within.elim 3 LinkKind.room := by
      cases within with
      | none => exact k.room_lt_three
      | some w => exact LinkKind.room_lt_of_mem_accepts (hwithin w rfl)
    exact Nat.lt_of_le_of_lt (ih hrest) hroom

def Segment.category : Segment → Category
  | backLink => .backLink
  | extension _ => .extension
  | hierarchy => .hierarchy
  | link _ => .linkType

/-- The segment leads to nodes of this kind. -/
inductive Segment.Names : Segment → NodeKind → Prop
  | backLink : Names .backLink .backLink
  | extension (symbol : TypeSymbol) : Names (.extension symbol) (.extension symbol)
  | hierarchy (marker : Attribute) : Names .hierarchy (.hierarchy marker)
  | link (i : Nat) (k : LinkKind) (e : Schematic.Entry) : Names (.link i) (.linkType k e)

theorem Segment.Names.category_eq {x : Segment} {k : NodeKind} (h : x.Names k) :
    k.category = x.category := by cases h <;> rfl

theorem Segment.Names.eq_extension {symbol : TypeSymbol} {k : NodeKind}
    (h : (Segment.extension symbol).Names k) : k = .extension symbol := by
  cases h
  rfl

theorem Spot.names_of_mem_branches {c : Compilation} {t : Target} {spot : Spot} {b : Branch}
    (hb : b ∈ spot.branches c t) : b.segment.Names b.kind := by
  have extended {others : List TypeSymbol} (hb : b ∈ (Spot.extended others).branches c t) :
      b.segment.Names b.kind := by
    rcases List.mem_cons.mp hb with rfl | hb
    · exact .backLink
    · obtain ⟨p, _, rfl⟩ := mem_extensionBranches.mp hb
      exact .extension p.1
  cases spot with
  | closed => cases hb
  | extended others => exact extended hb
  | position within es =>
    rcases mem_branches_position.mp hb with hb | hb | hb
    · exact extended hb
    · obtain ⟨marker, _, rfl⟩ := mem_hierarchyBranch?.mp hb
      exact .hierarchy marker
    · obtain ⟨i, e, k, _, _, _, rfl⟩ := mem_entryBranches.mp hb
      exact .link i k e

/-- How many nodes of a category the path of a node can have, by the number of extensions. That of an
actor is the actor itself. -/
def Category.width (extensions : Nat) : Category → Nat
  | actor | hierarchy | backLink => 1
  | linkType => 3
  | extension => extensions

theorem Category.width_mono {m n : Nat} (h : m ≤ n) (j : Category) : j.width m ≤ j.width n := by
  cases j <;> simp [width, h]

theorem Category.width_lt {n bound : Nat} (hn : n < bound) (hbound : 3 < bound) (j : Category) :
    j.width n < bound := by
  cases j <;> simp only [width] <;> omega

/-- A shift by fewer places than a word has bits stays in the word. -/
theorem shiftLeft_lt_size {n : Nat} (h : n < 64) : 1 <<< n < UInt64.size := by
  rw [Nat.one_shiftLeft]
  exact Nat.pow_lt_pow_right (by decide) h

namespace Arena
variable {a : Arena} {i m n root start : NodeId} {c : Compilation} {t : Target}

/-- Every node is of a kind that its segment leads to. -/
def Marked (a : Arena) (ids : List NodeId) (path : List Segment) : Prop :=
  List.Forall₂ (fun n x => x.Names (a.kind n)) ids path

section Marked
variable {ids : List NodeId} {path rest : List Segment}

theorem Marked.exists_split (h : a.Marked ids (path ++ rest)) :
    ∃ upper lower, ids = upper ++ lower ∧ a.Marked upper path ∧ a.Marked lower rest :=
  ⟨ids.take path.length, ids.drop path.length, (List.take_append_drop _ _).symm,
    List.forall₂_take_append _ _ _ h, List.forall₂_drop_append _ _ _ h⟩

theorem Marked.map_category (h : a.Marked ids path) :
    ids.map a.category = path.map Segment.category := by
  induction h with
  | nil => rfl
  | cons hnames _ ih => rw [List.map_cons, List.map_cons, ih, category, hnames.category_eq]

theorem Marked.category_eq {k : Category} (h : a.Marked ids path)
    (hpath : ∀ x ∈ path, x.category = k) : ∀ n ∈ ids, a.category n = k := by
  intro n hn
  have hmem := List.mem_map_of_mem (f := a.category) hn
  rw [h.map_category] at hmem
  obtain ⟨x, hx, hcategory⟩ := List.mem_map.mp hmem
  rw [← hcategory, hpath x hx]

/-- Where a segment stands or none, so does a node of its category. -/
theorem Marked.of_optional {x : Segment} (h : a.Marked ids path)
    (hpath : path = [] ∨ path = [x]) :
    (∀ n ∈ ids, a.category n = x.category) ∧ ids.length ≤ 1 := by
  refine ⟨h.category_eq fun y hy => ?_, ?_⟩
  · rcases hpath with rfl | rfl
    · cases hy
    · rw [List.mem_singleton.mp hy]
  · rw [h.length_eq]
    rcases hpath with rfl | rfl <;> simp

theorem Marked.map_kind {chosen : List TypeSymbol} (h : a.Marked ids (chosen.map .extension)) :
    ids.map a.kind = chosen.map .extension := by
  have hmarked := List.forall₂_map_right_iff.mp h
  clear h
  induction hmarked with
  | nil => rfl
  | cons hnames _ ih => rw [List.map_cons, List.map_cons, ih, hnames.eq_extension]

end Marked

/-- A path leads down through nodes that stand at its segments. -/
theorem Carries.exists_descends {spot : Spot} {path : List Segment} (h : a.Carries c t spot i)
    (hn : a.Leads c t spot i path n) :
    ∃ ids, a.Descends i ids ∧ (i :: ids).getLast? = some n ∧ a.Marked ids path := by
  induction path generalizing spot i with
  | nil =>
    obtain rfl : n = i := hn
    exact ⟨[], List.isChain_singleton _, rfl, .nil⟩
  | cons x rest ih =>
    obtain ⟨j, b, m, hb, rfl, hm, hrest⟩ := hn
    obtain ⟨hkind, _, hcarries⟩ := h.child hb hm
    obtain ⟨ids, hdown, hlast, hmarked⟩ := ih hcarries hrest
    have hnames : b.segment.Names (a.kind m) :=
      hkind ▸ Spot.names_of_mem_branches (List.mem_of_getElem? hb)
    exact ⟨m :: ids, .cons_cons (mem_children_iff.mp (List.mem_of_getElem? hm)) hdown, hlast,
      .cons hnames hmarked⟩

theorem Descends.spine_eq {path : List NodeId} (h : a.Descends start path)
    (hlast : (start :: path).getLast? = some n) : a.spine n = path.reverse ++ a.spine start := by
  induction path generalizing start with
  | nil =>
    cases hlast
    rfl
  | cons x xs ih =>
    obtain ⟨hx, hxs⟩ := List.isChain_cons_cons.mp h
    rw [ih hxs hlast, spine_of_parent hx, List.reverse_cons, List.append_assoc]
    rfl

/-- From an orphan the nodes above a node, read from the top, are the path to it. -/
theorem Descends.reverse_spine {path : List NodeId} (h : a.Descends start path)
    (hlast : (start :: path).getLast? = some n) (hstart : a.parent? start = none) :
    (a.spine n).reverse = start :: path := by
  rw [h.spine_eq hlast, spine, parents_of_none hstart, List.reverse_append, List.reverse_reverse]
  rfl

theorem pathBelow_of_orphan (hn : a.parent? n = none) : a.pathBelow n = [n] := by
  simp [pathBelow, parents_of_none hn]

/-- From the one orphan above a node, what leads down to it is the path below the actor. -/
theorem Nested.pathBelow_eq_of_spine (h : a.Nested) (hn : n < a.size)
    (hk : (a.kind n).isActor = false) {path : List NodeId}
    (hpath : (a.spine n).reverse = root :: path) : a.pathBelow n = path := by
  obtain ⟨top, _, hactor, hdown⟩ := h.exists_root hn hk
  have hspine := hdown.reverse_spine (getLast?_cons_pathBelow top n) (h.orphan_of_isActor hactor)
  exact (List.cons.inj (hspine.symm.trans hpath)).2

/-- The nodes of a path in four stretches, the third with an extension of each chosen type. -/
structure Layered (a : Arena) (chosen : List TypeSymbol)
    (links hierarchies extensions backLinks : List NodeId) : Prop where
  category_links : ∀ n ∈ links, a.category n = .linkType
  links_le : links.length ≤ 3
  category_hierarchies : ∀ n ∈ hierarchies, a.category n = .hierarchy
  hierarchies_le : hierarchies.length ≤ 1
  kind_extensions : extensions.map a.kind = chosen.map .extension
  distinct : (chosen.map TypeSymbol.name).Nodup
  category_backLinks : ∀ n ∈ backLinks, a.category n = .backLink
  backLinks_le : backLinks.length ≤ 1

/-- The nodes on a path that occurs are layered, by extensions of the core actor. -/
theorem Marked.exists_layered {ids : List NodeId} {path : List Segment}
    {es : List Schematic.Entry} (h : a.Marked ids path)
    (hpath : LinkTree.OccursBelow c t none es path)
    (hsymbols : (Spot.extended (LinkTree.extensionSymbols c t)).Ordered) :
    ∃ chosen links hierarchies extensions backLinks,
      ids = links ++ hierarchies ++ extensions ++ backLinks ∧
      a.Layered chosen links hierarchies extensions backLinks ∧
      chosen ⊆ LinkTree.extensionSymbols c t := by
  obtain ⟨indexes, rest, rfl, hfollows, hrest⟩ := hpath
  -- the parts of the path, from the root down, cut the ids into layers of the same lengths
  obtain ⟨top, more, htop, rfl, hextends⟩ : ∃ top more, (top = [] ∨ top = [Segment.hierarchy]) ∧
      rest = top ++ more ∧ LinkTree.Extends (LinkTree.extensionSymbols c t) more := by
    rcases hrest with hextends | ⟨_, more, rfl, hextends⟩
    · exact ⟨[], rest, Or.inl rfl, rfl, hextends⟩
    · exact ⟨[.hierarchy], more, Or.inr rfl, rfl, hextends⟩
  obtain ⟨chosen, bottom, rfl, hchosen, hsub, hbottom⟩ := hextends
  obtain ⟨links, _, rfl, hlinks, h⟩ := h.exists_split
  obtain ⟨hierarchies, _, rfl, hhierarchies, h⟩ := h.exists_split
  obtain ⟨extensions, backLinks, rfl, hextensions, hbackLinks⟩ := h.exists_split
  refine ⟨chosen, links, hierarchies, extensions, backLinks, by simp only [List.append_assoc], ?_,
    hsub⟩
  obtain ⟨hcategory, hle⟩ := hhierarchies.of_optional htop
  obtain ⟨hcategory', hle'⟩ := hbackLinks.of_optional hbottom
  constructor
  case category_links =>
    refine hlinks.category_eq fun x hx => ?_
    obtain ⟨i, _, rfl⟩ := List.mem_map.mp hx
    rfl
  case links_le =>
    rw [hlinks.length_eq, List.length_map]
    exact hfollows.length_le
  case category_hierarchies => exact hcategory
  case hierarchies_le => exact hle
  case kind_extensions => exact hextensions.map_kind
  case distinct =>
    exact hchosen.map_on fun x hx y hy heq =>
      List.inj_on_of_nodup_map (Spot.nodup_names_of_ordered hsymbols) (hsub x hx) (hsub y hy) heq
  case category_backLinks => exact hcategory'
  case backLinks_le => exact hle'

section Groups
variable {ns : List NodeId}

theorem countP_category {j k : Category} (h : ∀ n ∈ ns, a.category n = k) :
    ns.countP (a.category · == j) = if k = j then ns.length else 0 := by
  split
  · next heq => exact List.countP_eq_length.mpr fun n hn => beq_iff_eq.mpr ((h n hn).trans heq)
  · next hne =>
    refine List.countP_eq_zero.mpr fun n hn heq => hne ?_
    rw [← h n hn]
    exact beq_iff_eq.mp heq

/-- A layered path has no more nodes of a category than the stretch of that category can hold. -/
theorem Layered.countP_le {chosen : List TypeSymbol}
    {links hierarchies extensions backLinks : List NodeId}
    (h : a.Layered chosen links hierarchies extensions backLinks) (j : Category) :
    (links ++ hierarchies ++ extensions ++ backLinks).countP (a.category · == j)
      ≤ j.width chosen.length := by
  have hlength : extensions.length = chosen.length := by
    simpa using congrArg List.length h.kind_extensions
  have hextensions : ∀ n ∈ extensions, a.category n = .extension := by
    intro n hn
    have hkind : a.kind n ∈ chosen.map .extension := h.kind_extensions ▸ List.mem_map_of_mem hn
    obtain ⟨symbol, _, hsymbol⟩ := List.mem_map.mp hkind
    rw [category, ← hsymbol]
    rfl
  simp only [List.countP_append, countP_category h.category_links,
    countP_category h.category_hierarchies, countP_category hextensions,
    countP_category h.category_backLinks]
  cases j with
  | actor => simp [Category.width]
  | linkType => simpa [Category.width] using h.links_le
  | hierarchy => simpa [Category.width] using h.hierarchies_le
  | extension => simp [Category.width, hlength]
  | backLink => simpa [Category.width] using h.backLinks_le

theorem Descends.exists_parent (h : a.Descends start ns) : ∀ n ∈ ns, ∃ p, a.parent? n = some p := by
  induction ns generalizing start with
  | nil => simp
  | cons x xs ih =>
    obtain ⟨hx, hxs⟩ := List.isChain_cons_cons.mp h
    exact List.forall_mem_cons.mpr ⟨⟨start, hx⟩, ih hxs⟩

theorem Nested.sublist_of_mem_searchGroups (h : a.Nested) {group : List NodeId}
    (hgroup : group ∈ a.searchGroups i) : group ≠ [] ∧ group.Sublist (a.pathBelow i) := by
  rw [h.searchGroups_eq] at hgroup
  have hsub := List.sublist_flatten_of_mem hgroup
  rw [List.flatten_splitBy] at hsub
  exact ⟨List.ne_nil_of_mem_splitBy hgroup, hsub⟩

/-- All nodes of a group are of one category, and on the path. -/
theorem Nested.length_le_countP (h : a.Nested) {group : List NodeId}
    (hgroup : group ∈ a.searchGroups i) (hn : n ∈ group) :
    group.length ≤ (a.pathBelow i).countP (a.category · == a.category n) := by
  have hall := countP_category (j := a.category n) fun m hm =>
    h.same_of_mem_searchGroups hgroup m hm n hn
  rw [if_pos rfl] at hall
  rw [← hall]
  exact (h.sublist_of_mem_searchGroups hgroup).2.countP_le

/-- There are no more groups than categories below an actor. -/
theorem Nested.length_searchGroups_le (h : a.Nested) (hi : i < a.size) :
    (a.searchGroups i).length ≤ 4 := by
  cases hk : (a.kind i).isActor with
  | true =>
    rw [h.searchGroups_eq, pathBelow_of_orphan (h.orphan_of_isActor hk)]
    exact Nat.le_of_ble_eq_true rfl
  | false =>
    obtain ⟨root, _, _, hpath⟩ := h.exists_root hi hk
    have hhead {group : List NodeId} (hgroup : group ∈ a.searchGroups i) :
        group.headD i ∈ group ∧ group.headD i ∈ a.pathBelow i := by
      obtain ⟨hne, hsub⟩ := h.sublist_of_mem_searchGroups hgroup
      obtain ⟨n, ns, rfl⟩ := List.exists_cons_of_ne_nil hne
      exact ⟨List.mem_cons_self, hsub.subset List.mem_cons_self⟩
    have hnodup : ((a.searchGroups i).map fun group => a.category (group.headD i)).Nodup :=
      List.pairwise_map.mpr ((h.pairwise_searchGroups hpath).imp_of_mem fun hg hg' hne =>
        hne _ (hhead hg).1 _ (hhead hg').1)
    have hsub : ((a.searchGroups i).map fun group => a.category (group.headD i))
        ⊆ [.linkType, .hierarchy, .extension, .backLink] := by
      intro k hk
      obtain ⟨group, hgroup, rfl⟩ := List.mem_map.mp hk
      obtain ⟨p, hp⟩ := hpath.exists_parent _ (hhead hgroup).2
      have hactor := h.category_ne_actor hp
      generalize a.category (group.headD i) = k at hactor ⊢
      cases k <;> simp at hactor ⊢
    simpa using (hnodup.subperm hsub).length_le

end Groups

end Arena

namespace LinkGraph
variable {types : List TypeSymbol} {s : Schematic} {targets : List Target} {g : LinkGraph}
  {i : NodeId}

/-- What leads from the actor down to a node is layered. -/
theorem Grounded.exists_layered (hg : Grounded (.ofTypes types) s targets g)
    (hi : i < g.arena.size) :
    ∃ root chosen links hierarchies extensions backLinks,
      (g.arena.spine i).reverse = root :: (links ++ hierarchies ++ extensions ++ backLinks) ∧
      g.arena.category root = .actor ∧
      g.arena.Layered chosen links hierarchies extensions backLinks ∧
      chosen ⊆ LinkTree.extensionSymbols (.ofTypes types) (g.target i) := by
  obtain ⟨root, ⟨⟨name, hname⟩, hbelow⟩, _⟩ := hg.existsUnique_root hi
  obtain ⟨horphan, hshow⟩ := hg.root_of_actor hname
  have hcarries : g.arena.Carries (.ofTypes types) (g.target root) (.position none s.root.children)
      root := hshow.children
  have hsymbols := ordered_extensionSymbols types (g.target root)
  obtain ⟨path, hleads⟩ := hcarries.exists_path hbelow
  have hoccurs := (Spot.allows_position_iff
    (List.Nodup.of_map _ (Spot.nodup_names_of_ordered hsymbols))).mp hleads.allows
  obtain ⟨ids, hdown, hlast, hmarked⟩ := hcarries.exists_descends hleads
  obtain ⟨chosen, links, hierarchies, extensions, backLinks, rfl, hlayered, hchosen⟩ :=
    hmarked.exists_layered hoccurs hsymbols
  have htarget : g.target i = g.target root := hcarries.target_eq rfl hleads
  exact ⟨root, chosen, links, hierarchies, extensions, backLinks,
    hdown.reverse_spine hlast horphan, hg.nested.actor_of_orphan root hshow.lt_size horphan,
    hlayered, htarget ▸ hchosen⟩

theorem Grounded.countP_pathBelow_le (hg : Grounded (.ofTypes types) s targets g)
    (hi : i < g.arena.size) (j : Category) :
    (g.arena.pathBelow i).countP (g.arena.category · == j)
      ≤ j.width (LinkTree.extensionSymbols (.ofTypes types) (g.target i)).length := by
  cases hk : (g.arena.kind i).isActor with
  | true =>
    have hcategory : ∀ n ∈ [i], g.arena.category n = .actor :=
      List.forall_mem_singleton.mpr (beq_iff_eq.mp hk)
    rw [Arena.pathBelow_of_orphan (hg.nested.orphan_of_isActor hk),
      Arena.countP_category hcategory]
    cases j <;> simp [Category.width]
  | false =>
    obtain ⟨root, chosen, links, hierarchies, extensions, backLinks, hspine, _, hlayered, hsub⟩ :=
      hg.exists_layered hi
    rw [hg.nested.pathBelow_eq_of_spine hi hk hspine]
    have hchosen := ((List.Nodup.of_map _ hlayered.distinct).subperm hsub).length_le
    exact (hlayered.countP_le j).trans (Category.width_mono hchosen j)

/-- On the way from an actor to a node stand three link types at most, then a hierarchy or none,
then extensions of different types, then a back link or none. So a search has four groups at most,
three link types at most in a group, and its masks fit in a word of the machine, where no core actor
has as many extensions as the word has bits. -/
theorem search_widths (hv : Visits (ofTargets (.ofTypes types) s targets) g)
    (hi : i < g.arena.size) :
    (∃ root chosen links hierarchies extensions backLinks,
      (g.arena.spine i).reverse = root :: (links ++ hierarchies ++ extensions ++ backLinks) ∧
      g.arena.category root = .actor ∧
      g.arena.Layered chosen links hierarchies extensions backLinks ∧
      chosen ⊆ LinkTree.extensionSymbols (.ofTypes types) (g.target i)) ∧
    (g.arena.searchProduct i).length ≤ 4 ∧
    (∀ group ∈ g.arena.searchGroups i, ∀ n ∈ group, g.arena.category n = .linkType →
      group.length ≤ 3) ∧
    ((∀ t ∈ targets, (LinkTree.extensionSymbols (.ofTypes types) t).length < 64) →
      1 <<< (g.arena.searchProduct i).length < UInt64.size ∧
      ∀ group ∈ g.arena.searchGroups i, 1 <<< group.length < UInt64.size) := by
  have hg := hv.grounded
  have hlength {group : List NodeId} (hgroup : group ∈ g.arena.searchGroups i) {n : NodeId}
      (hn : n ∈ group) : group.length ≤ (g.arena.category n).width
        (LinkTree.extensionSymbols (.ofTypes types) (g.target i)).length :=
    (hg.nested.length_le_countP hgroup hn).trans (hg.countP_pathBelow_le hi _)
  have hproduct : (g.arena.searchProduct i).length ≤ 4 := by
    rw [Arena.searchProduct, List.length_map]
    exact hg.nested.length_searchGroups_le hi
  refine ⟨hg.exists_layered hi, hproduct, fun group hgroup n hn hlink => ?_, fun hfew => ⟨?_, ?_⟩⟩
  · have hle := hlength hgroup hn
    rwa [hlink] at hle
  · exact shiftLeft_lt_size (by omega)
  · intro group hgroup
    obtain ⟨n, hn⟩ := List.exists_mem_of_ne_nil _
      (hg.nested.sublist_of_mem_searchGroups hgroup).1
    have htarget := hfew _ (List.mem_of_find?_eq_some (hg.keptTarget?_of_lt hi))
    exact shiftLeft_lt_size
      (Nat.lt_of_le_of_lt (hlength hgroup hn) (Category.width_lt htarget (by decide) _))

/-- The back link of the extension of the hierarchy below `Defined.Enumerable.Indexable` has the
four groups that there can be, the first with three link types. -/
theorem search_widths_deepest :
    sampleGraph.arena.searchGroups 31 = [[8, 16, 24], [28], [30], [31]] ∧
      (sampleGraph.arena.searchProduct 31).length ≤ 4 ∧
      1 <<< (sampleGraph.arena.searchProduct 31).length < UInt64.size ∧
      ∀ group ∈ sampleGraph.arena.searchGroups 31, 1 <<< group.length < UInt64.size := by
  have hfew : ∀ t ∈ [sampleTarget], (LinkTree.extensionSymbols sampleTypes t).length < 64 := by
    decide +kernel
  obtain ⟨_, hproduct, _, hwords⟩ :=
    search_widths (i := 31) (.refl : Visits sampleGraph sampleGraph) (by decide +kernel)
  exact ⟨by decide +kernel, hproduct, hwords hfew⟩

end LinkGraph

end ActorLinks
