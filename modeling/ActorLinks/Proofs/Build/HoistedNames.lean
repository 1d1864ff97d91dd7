import ActorLinks.Proofs.Arena.ClassNames
import ActorLinks.Proofs.Build.Hoisted

/-! # Names of hoisted classes

The classes that are hoisted to the level of an actor are members of one type, so their names should
differ. They do among nodes with no extension at or above them. But every extension occurs below
every other one, and its class is named as if it stood above: with two extensions, two classes have
the same name.
-/
namespace ActorLinks

namespace LinkTree

theorem kind?_of_mem_entryTrees {extras : List LinkTree} {within : Option LinkKind}
    {es : List Schematic.Entry} {b : LinkTree} (hb : b ∈ entryTrees extras within es)
    {k : LinkKind} {e : Schematic.Entry} (hk : b.kind = .linkType k e) : e.kind? = some k := by
  rw [Spot.entryTrees_eq] at hb
  obtain ⟨f, _, hf⟩ := List.mem_filterMap.mp hb
  rw [Spot.entryTree?_eq] at hf
  obtain ⟨l, hl, rfl⟩ := Option.map_eq_some_iff.mp hf
  cases hk
  exact (Spot.accepted?_eq_some.mp hl).1

theorem kind?_of_mem_branches {c : Compilation} {t : Target} {within : Option LinkKind}
    {es : List Schematic.Entry} {b : LinkTree}
    (hb : b ∈ trimmings c t ++ entryTrees (trimmings c t) within es) {k : LinkKind}
    {e : Schematic.Entry} (hk : b.kind = .linkType k e) : e.kind? = some k := by
  rcases List.mem_append.mp hb with hb | hb
  · have hcategory := (form_of_mem_trimmings (s := ⟨e⟩) hb).2
    simp [hk, NodeKind.category] at hcategory
  · exact kind?_of_mem_entryTrees hb hk

/-- Below an extension stand all the others. -/
theorem exists_mem_extensions {symbols : List TypeSymbol} {e : TypeSymbol} (he : e ∈ symbols) :
    ∃ others, node (.extension e) (backLink :: extensions others) ∈ extensions symbols ∧
      ∀ f ∈ symbols, f ≠ e → f ∈ others := by
  rw [← map_fst_picks symbols] at he
  obtain ⟨p, hp, rfl⟩ := List.mem_map.mp he
  refine ⟨p.2, ?_, fun f hf hne => ?_⟩
  · rw [extensions]
    exact List.mem_map.mpr ⟨⟨p, hp⟩, List.mem_attach _ _, rfl⟩
  · exact (List.mem_cons.mp ((perm_of_mem_picks hp).mem_iff.mpr hf)).resolve_left hne

end LinkTree

namespace LinkGraph

/-- How the classes are named that are hoisted to the level of an actor. -/
structure HoistedNames (g : LinkGraph) (root : NodeId) (below : List Built) : Prop where
  names_eq : (Built.classes below).map (·.name)
    = (g.classNodes root).map g.arena.implementationType
  nodup : (g.classNodes root).Nodup
  /-- The name tells which node it is, but for nodes at or below an extension. -/
  unextended : g.arena.PlainParameters → ∀ i ∈ g.classNodes root, ∀ j ∈ g.classNodes root,
    g.arena.Unextended i → g.arena.Unextended j →
      g.arena.implementationType i = g.arena.implementationType j → i = j
  extension_ne : ∀ i ∈ g.classNodes root, ∀ j ∈ g.classNodes root,
    g.arena.category i = .extension → g.arena.Unextended j →
      g.arena.implementationType i ≠ g.arena.implementationType j
  extension : ∀ i ∈ g.classNodes root, ∀ j ∈ g.classNodes root, g.arena.category i = .extension →
    g.arena.category j = .extension → g.arena.seat? i = g.arena.seat? j →
      (g.arena.implementationType i = g.arena.implementationType j ↔
        g.arena.typeName i = g.arena.typeName j)
  backLink : ∀ i ∈ g.classNodes root, ∀ j ∈ g.classNodes root, g.arena.category i = .backLink →
    g.arena.category j = .backLink → g.arena.seat? i = g.arena.seat? j →
      (g.arena.implementationType i = g.arena.implementationType j ↔
        g.arena.extensionNames i = g.arena.extensionNames j)
  /-- Two extensions are one below the other. -/
  repeated : (g.target root).isCore = false →
    ∀ e ∈ LinkTree.extensionSymbols g.compilation (g.target root),
      ∀ f ∈ LinkTree.extensionSymbols g.compilation (g.target root), e ≠ f →
        ∃ d ∈ Built.classes below, ∃ d' ∈ Built.classes below, d ≠ d' ∧ d.name = d'.name

section
variable {c : Compilation} {sch : Schematic} {targets : List Target} {g : LinkGraph}
  {i root : NodeId} {below : List Built}

theorem Grounded.kinded (hg : Grounded c sch targets g) : g.arena.Kinded := by
  intro i k e hk
  cases hp : g.arena.parent? i with
  | none =>
    have hi : i < g.arena.size := by
      by_contra hi
      rw [Arena.kind, Arena.node, Array.getElem?_eq_none (Nat.le_of_not_lt hi)] at hk
      cases hk
    have hcategory := hg.nested.actor_of_orphan i hi hp
    rw [Arena.category, hk] at hcategory
    cases hcategory
  | some p =>
    obtain ⟨tree, hform, hs⟩ := hg.exists_form
      (Nat.lt_trans (Arena.lt_of_parent hp) (Arena.lt_size_of_parent hp))
    obtain ⟨b, hb, hsb⟩ := hs.exists_branch hp
    rw [hsb.kind_eq] at hk
    have hnone {symbols : List TypeSymbol}
        (h : b ∈ LinkTree.backLink :: LinkTree.extensions symbols) : e.kind? = some k := by
      have hext := (LinkTree.form_of_mem_extensions (c := c) (s := sch) (t := g.target p) h).2
      simp [hk, NodeKind.category] at hext
    cases hform with
    | actor => exact LinkTree.kind?_of_mem_branches hb hk
    | linkType => exact LinkTree.kind?_of_mem_branches hb hk
    | extension => exact hnone hb
    | hierarchy => exact hnone hb
    | backLink => cases hb

theorem mem_parents_of_mem_classNodes (hi : i ∈ g.classNodes root) : root ∈ g.arena.parents i := by
  obtain ⟨n, hn, hin⟩ := List.mem_flatMap.mp ((g.classNodes_sublist root).subset hi)
  have hspine := Arena.mem_descendants_iff.mp hin
  have hp := Arena.mem_children_iff.mp hn
  have hroot := Arena.parent_mem_spine hp hspine
  refine (List.mem_cons.mp hroot).resolve_left ?_
  rintro rfl
  exact absurd (Arena.le_of_mem_spine hspine) (Nat.not_le_of_lt (Arena.lt_of_parent hp))

theorem nodup_classNodes (h : g.arena.Preordered) : (g.classNodes root).Nodup := by
  have hascending := h.pairwise_descendants root
  rw [Arena.descendants_eq] at hascending
  exact ((List.pairwise_cons.mp hascending).2.imp Nat.ne_of_lt).sublist (g.classNodes_sublist root)

theorem Grounded.names_eq (hg : Grounded c sch targets g)
    (h : (g.arena.children root).mapM g.buildNode = .ok below) :
    (Built.classes below).map (·.name)
      = (g.classNodes root).map g.arena.implementationType := by
  have hclasses := hg.classes_of_children h
  rw [← List.forall₂_eq_eq_eq, List.forall₂_map_left_iff, List.forall₂_map_right_iff]
  exact (hclasses.imp fun _ _ hd => hd.name_eq).flip

/-- Where a core actor has two extensions, one stands below the actor and again below the other
one. -/
theorem Grounded.exists_nested_extension (hg : Grounded c sch targets g) (hroot : root ∈ g.roots)
    {e f : TypeSymbol} (he : e ∈ LinkTree.extensionSymbols c (g.target root))
    (hf : f ∈ LinkTree.extensionSymbols c (g.target root)) (hne : f ≠ e) :
    ∃ m i j, g.arena.parent? m = some root ∧ g.arena.kind m = .extension e ∧
      g.arena.parent? i = some m ∧ g.arena.kind i = .extension f ∧
      g.arena.parent? j = some root ∧ g.arena.kind j = .extension f := by
  obtain ⟨actor, hactor⟩ := mem_roots_iff.mp hroot
  obtain ⟨_, hshows⟩ := hg.root_of_actor hactor
  have hbranch {b : LinkTree} (hb : b ∈ LinkTree.extensions
      (LinkTree.extensionSymbols c (g.target root))) :
      ∃ n ∈ g.arena.children root, g.arena.Shows (g.target root) b n :=
    hshows.children.exists_node (List.mem_append_left _ (List.mem_append_left _
      (List.mem_cons_of_mem _ hb)))
  obtain ⟨others, hnested, hothers⟩ := LinkTree.exists_mem_extensions he
  obtain ⟨_, hdirect, _⟩ := LinkTree.exists_mem_extensions hf
  obtain ⟨_, hbelow, _⟩ := LinkTree.exists_mem_extensions (hothers f hf hne)
  obtain ⟨m, hm, hms⟩ := hbranch hnested
  obtain ⟨j, hj, hjs⟩ := hbranch hdirect
  obtain ⟨i, hi, his⟩ := hms.children.exists_node (List.mem_cons_of_mem _ hbelow)
  exact ⟨m, i, j, Arena.mem_children_iff.mp hm, hms.kind_eq, Arena.mem_children_iff.mp hi,
    his.kind_eq, Arena.mem_children_iff.mp hj, hjs.kind_eq⟩

theorem seat?_of_parent {p : NodeId} (hp : g.arena.parent? i = some p)
    (hk : (g.arena.kind p).isExtension = false) : g.arena.seat? i = some p := by
  rw [Arena.seat?, Arena.parents_of_some hp, List.find?_cons_of_pos (by simp [hk])]

theorem seat?_of_extension {p : NodeId} (hp : g.arena.parent? i = some p)
    (hk : (g.arena.kind p).isExtension = true) : g.arena.seat? i = g.arena.seat? p := by
  rw [Arena.seat?, Arena.parents_of_some hp, List.find?_cons_of_neg (by simp [hk]), Arena.seat?]

theorem Grounded.implementationType_ne_linkBase (hg : Grounded c sch targets g) {p : NodeId}
    (hp : g.arena.parent? i = some p) : g.arena.implementationType i ≠ linkBaseName := by
  obtain ⟨rest, hrest⟩ := hg.nested.exists_implementationType hp
  intro hname
  rw [hrest] at hname
  replace hname := congrArg String.toList hname
  simp only [String.toList_append] at hname
  cases hassembly : (g.arena.target i).assembly <;> rw [hassembly] at hname <;> cases hname

theorem isImplemented_of_category
    (hk : g.arena.category i = .actor ∨ g.arena.category i = .extension)
    (hcore : (g.target i).isCore = false) : g.arena.isImplemented i = true := by
  have hicore : g.arena.isCore i = false := hcore
  rw [Arena.isImplemented, hicore]
  cases hkind : g.arena.kind i with
  | actor symbol => rfl
  | extension symbol => rfl
  | _ => simp [Arena.category, hkind, NodeKind.category] at hk

/-- Extensions below extensions only are always declared. -/
theorem Complete.mem_classNodes_of_extensions (h : g.Complete)
    (hroot : g.arena.rootActor? i = some root) (hcore : (g.target i).isCore = false)
    (hext : ∀ n ∈ g.arena.spine i, (g.arena.kind n).isActor = false →
      g.arena.category n = .extension) : i ∈ g.classNodes root := by
  have hi : i < g.arena.size := Arena.lt_size_of_rootActor? hroot
  have hk : g.arena.category i = .extension :=
    hext i Arena.self_mem_spine (h.nested.isActor_of_rootActor? hroot)
  have himplemented := isImplemented_of_category (Or.inr hk) hcore
  refine mem_classNodes h.nested hroot ?_ fun n hn hactor => ?_
  · rw [hoists, himplemented, hroot]
    rfl
  · exact h.spreads_extension (Nat.lt_of_le_of_lt (Arena.le_of_mem_spine hn) hi) (hext n hn hactor)

/-- Below an actor or another extension, the class of an extension derives from that of its
parent. -/
theorem classBase?_of_extension {p : NodeId} {e : TypeSymbol} (hp : g.arena.parent? i = some p)
    (hi : g.arena.kind i = .extension e)
    (hk : g.arena.category p = .actor ∨ g.arena.category p = .extension)
    (hcore : (g.target p).isCore = false) : g.classBase? i = some p := by
  rw [classBase?, Arena.category, hi]
  show g.arena.implementedParent? i = some p
  rw [Arena.implementedParent?, Arena.parents_of_some hp,
    List.find?_cons_of_pos (isImplemented_of_category hk hcore)]

/-- One of two extensions has a class below the actor and one below the other extension. -/
theorem Visits.exists_nested_class (hv : Visits (ofTargets c sch targets) g)
    (hvisited : g.isVisited = true) (hroot : root ∈ g.roots)
    (hcore : (g.target root).isCore = false) {e f : TypeSymbol}
    (he : e ∈ LinkTree.extensionSymbols g.compilation (g.target root))
    (hf : f ∈ LinkTree.extensionSymbols g.compilation (g.target root)) (hne : f ≠ e) :
    ∃ m, g.arena.parent? m = some root ∧ g.arena.kind m = .extension e ∧
      ∃ i ∈ g.classNodes root, g.arena.parent? i = some m ∧ g.arena.kind i = .extension f ∧
      ∃ j ∈ g.classNodes root, g.arena.parent? j = some root ∧ g.arena.kind j = .extension f := by
  have hg := hv.grounded
  have hcomplete := hv.complete_of_isVisited hvisited
  rw [hg.compilation_eq] at he hf
  obtain ⟨m, i, j, hm, hmk, hi, hik, hj, hjk⟩ := hg.exists_nested_extension hroot he hf hne
  obtain ⟨actor, hactor⟩ := mem_roots_iff.mp hroot
  obtain ⟨_, hrootk⟩ := hg.isActor_of_actor hactor
  have hspine : g.arena.spine root = [root] := by
    rw [Arena.spine, Arena.parents_of_none (hg.root_of_actor hactor).1]
  have hcategory {n : NodeId} {s : TypeSymbol} (hn : g.arena.kind n = .extension s) :
      g.arena.category n = .extension := by
    rw [Arena.category, hn]
    rfl
  have hmem {n : NodeId} (hr : g.arena.rootActor? n = some root)
      (hn : ∀ x ∈ g.arena.spine n, x = root ∨ g.arena.category x = .extension) :
      n ∈ g.classNodes root := by
    have htarget := hg.target_of_mem_parents (List.mem_of_find?_eq_some hr)
    refine hcomplete.mem_classNodes_of_extensions hr (by rw [← htarget, hcore]) fun x hx hk => ?_
    refine (hn x hx).resolve_left ?_
    rintro rfl
    rw [hrootk] at hk
    cases hk
  refine ⟨m, hm, hmk, i, hmem ?_ fun x hx => ?_, hi, hik, j, hmem ?_ fun x hx => ?_, hj, hjk⟩
  · exact (Arena.rootActor?_of_parent hi (by rw [hmk]; rfl)).trans
      (Arena.rootActor?_of_actor hm hrootk)
  · rw [Arena.spine_of_parent hi, Arena.spine_of_parent hm, hspine] at hx
    simp only [List.mem_cons, List.not_mem_nil, or_false] at hx
    rcases hx with rfl | rfl | rfl
    · exact Or.inr (hcategory hik)
    · exact Or.inr (hcategory hmk)
    · exact Or.inl rfl
  · exact Arena.rootActor?_of_actor hj hrootk
  · rw [Arena.spine_of_parent hj, hspine] at hx
    simp only [List.mem_cons, List.not_mem_nil, or_false] at hx
    rcases hx with rfl | rfl
    · exact Or.inr (hcategory hjk)
    · exact Or.inl rfl

/-- The class of an extension below another one has the name of the class of the one below the
actor, but not its base. -/
theorem Visits.exists_repeated (hv : Visits (ofTargets c sch targets) g)
    (hvisited : g.isVisited = true) (hroot : root ∈ g.roots)
    (h : (g.arena.children root).mapM g.buildNode = .ok below)
    (hcore : (g.target root).isCore = false) {e f : TypeSymbol}
    (he : e ∈ LinkTree.extensionSymbols g.compilation (g.target root))
    (hf : f ∈ LinkTree.extensionSymbols g.compilation (g.target root)) (hne : f ≠ e) :
    ∃ d ∈ Built.classes below, ∃ d' ∈ Built.classes below, d ≠ d' ∧ d.name = d'.name := by
  have hg := hv.grounded
  obtain ⟨m, hm, hmk, i, himem, hi, hik, j, hjmem, hj, hjk⟩ :=
    hv.exists_nested_class hvisited hroot hcore he hf hne
  obtain ⟨actor, hactor⟩ := mem_roots_iff.mp hroot
  obtain ⟨hlt, hrootk⟩ := hg.isActor_of_actor hactor
  have hplain : (g.arena.kind root).isExtension = false := by
    rw [NodeKind.isExtension, beq_iff_eq.mp hrootk]
    rfl
  have hmc : g.arena.category m = .extension := by rw [Arena.category, hmk]; rfl
  have hms := seat?_of_parent hm hplain
  have hjs := seat?_of_parent hj hplain
  have his : g.arena.seat? i = some root := (seat?_of_extension hi (by rw [hmk]; rfl)).trans hms
  have hmt : g.target m = g.target root := hg.target_of_parent hm
  have hit : g.target i = g.target root := (hg.target_of_parent hi).trans hmt
  have hjt : g.target j = g.target root := hg.target_of_parent hj
  have hname : g.arena.implementationType i = g.arena.implementationType j := by
    refine (Arena.implementationType_extension_iff (by rw [Arena.category, hik]; rfl)
      (by rw [Arena.category, hjk]; rfl) his hjs (hit.trans hjt.symm)).mpr ?_
    rw [Arena.typeName, Arena.typeName, hik, hjk]
  have hclasses := List.forall₂_iff_zip.mp (hg.classes_of_children h)
  obtain ⟨d, hd⟩ := hg.exists_class h himem
  obtain ⟨d', hd'⟩ := hg.exists_class h hjmem
  refine ⟨d, (List.of_mem_zip hd).2, d', (List.of_mem_zip hd').2, ?_, ?_⟩
  -- one class would have the class of the extension and that of the actor as its first base
  · rintro rfl
    have hibase : g.classBase? i = some m :=
      classBase?_of_extension hi hik (Or.inr hmc) (by rw [hmt, hcore])
    have hjbase : g.classBase? j = some root :=
      classBase?_of_extension hj hjk (Or.inl (beq_iff_eq.mp hrootk)) hcore
    have hpaths := ((hclasses.2 hd).head_bases m hibase).symm.trans
      ((hclasses.2 hd').head_bases root hjbase)
    rw [Option.some_inj, classPath, classPath, hmt, String.append_right_inj,
      hg.implementationType_of_actor hlt hrootk] at hpaths
    exact hg.implementationType_ne_linkBase hm hpaths
  · rw [(hclasses.2 hd).name_eq, (hclasses.2 hd').name_eq, hname]

theorem hoisted_class_names (hv : Visits (ofTargets c sch targets) g)
    (hvisited : g.isVisited = true) (hapart : g.arena.NamedApart) (hroot : root ∈ g.roots)
    (h : (g.arena.children root).mapM g.buildNode = .ok below) :
    g.HoistedNames root below := by
  have hg := hv.grounded
  have hnested := hg.nested
  obtain ⟨actor, hactor⟩ := mem_roots_iff.mp hroot
  obtain ⟨_, hrootk⟩ := hg.isActor_of_actor hactor
  have htarget {i j : NodeId} (hi : i ∈ g.classNodes root) (hj : j ∈ g.classNodes root) :
      g.arena.target i = g.arena.target j :=
    (hg.target_of_mem_parents (mem_parents_of_mem_classNodes hi)).symm.trans
      (hg.target_of_mem_parents (mem_parents_of_mem_classNodes hj))
  have hseat {i : NodeId} (hi : i ∈ g.classNodes root) : ∃ s, g.arena.seat? i = some s := by
    obtain ⟨p, hp⟩ := Arena.exists_parent_of_mem_parents (mem_parents_of_mem_classNodes hi)
    exact hnested.exists_seat? hp
  refine ⟨hg.names_eq h, ?_, fun hplain i hi j hj hui huj => ?_, fun i hi j hj hik huj => ?_,
    fun i hi j hj hik hjk hs => ?_, fun i hi j hj hik hjk hs => ?_, fun hcore e he f hf hne => ?_⟩
  · exact nodup_classNodes (hv.progress.arena_eq ▸ preordered_ofTargets)
  · exact hnested.eq_of_implementationType hg.kinded hapart hplain (beq_iff_eq.mp hrootk)
      (mem_parents_of_mem_classNodes hi) (mem_parents_of_mem_classNodes hj) hui huj (htarget hi hj)
  · obtain ⟨s, hs⟩ := hseat hi
    obtain ⟨q, hq⟩ := Arena.exists_parent_of_mem_parents (mem_parents_of_mem_classNodes hj)
    exact hnested.implementationType_extension_ne hg.kinded hik hs hq huj (htarget hi hj)
  · obtain ⟨s, his⟩ := hseat hi
    exact Arena.implementationType_extension_iff hik hjk his (hs ▸ his) (htarget hi hj)
  · obtain ⟨s, his⟩ := hseat hi
    exact hnested.implementationType_backLink_iff hik hjk his (hs ▸ his) (htarget hi hj)
  · exact hv.exists_repeated hvisited hroot h hcore he hf hne.symm

end

/-- A core actor with two extensions. -/
def twinTypes : Compilation := .ofTypes
  [{ name := "Discord.IChannelActor"
     kind := .interface },
   { name := "Discord.IChannelActor.Pins"
     kind := .interface
     containingType := some "Discord.IChannelActor"
     attributes := [{ className := "Discord.LinkExtensionAttribute" }] },
   { name := "Discord.IChannelActor.Webhooks"
     kind := .interface
     containingType := some "Discord.IChannelActor"
     attributes := [{ className := "Discord.LinkExtensionAttribute" }] }]

def twinGraph : LinkGraph :=
  ofTargets twinTypes ⟨⟨"Discord.ILinkType", [], [], [Schematic.linkEntry "Indexable" []]⟩⟩
    [pairTarget .rest "Channel"]

theorem twinGraph_names :
    (0 < twinGraph.arena.size ∧ ∀ i < twinGraph.arena.size, twinGraph.complaint? i = none) ∧
    twinGraph.actor? "Discord.Rest.RestChannelActor" = some 0 ∧
    twinGraph.arena.NamedApart ∧ twinGraph.arena.PlainParameters ∧
    (twinGraph.target 0).isCore = false ∧
    ∃ e ∈ LinkTree.extensionSymbols twinTypes (twinGraph.target 0),
      ∃ f ∈ LinkTree.extensionSymbols twinTypes (twinGraph.target 0), f ≠ e := by
  decide +kernel

/-- The actor is built after a visit, and no siblings have the same name. -/
theorem build_twinGraph : twinGraph.visit.2 = none ∧ twinGraph.visit.1.isVisited = true ∧
    twinGraph.visit.1.arena.NamedApart ∧ 0 ∈ twinGraph.visit.1.roots ∧ ∃ decl own below,
      twinGraph.visit.1.buildActor 0 false = .ok decl ∧ decl.Contains own ∧
      (twinGraph.visit.1.arena.children 0).mapM twinGraph.visit.1.buildNode = .ok below ∧
      ∀ d ∈ Built.classes below, Member.type d ∈ own.members := by
  have hv : Visits twinGraph twinGraph.visit.1 := .again .refl
  have hprogress : Progress twinGraph [] twinGraph.visit.1 := hv.progress
  obtain ⟨hquiet, hactor, hapart, _⟩ := twinGraph_names
  obtain ⟨hok, hvisited⟩ : twinGraph.visit.2 = none ∧ twinGraph.visit.1.isVisited = true :=
    visited_of_quiet hquiet
  rw [actor?, ← hprogress.actors_eq] at hactor
  rw [← hprogress.arena_eq] at hapart
  obtain ⟨hp, hshows⟩ := hv.grounded.root_of_actor hactor
  obtain ⟨decl, hdecl⟩ :=
    (hv.complete_of_isVisited hvisited).exists_buildActor hshows.lt_size hp false
  obtain ⟨_, _, own, below, _, hbelow, hown, _, hclasses⟩ := exists_own_of_buildActor hdecl
  exact ⟨hok, hvisited, hapart, mem_roots_iff.mpr ⟨_, hactor⟩, decl, own, below, hdecl, hown,
    hbelow, hclasses⟩

theorem hoisted_class_names_sample : ∃ below,
    (twinGraph.visit.1.arena.children 0).mapM twinGraph.visit.1.buildNode = .ok below ∧
      twinGraph.visit.1.HoistedNames 0 below ∧ twinGraph.visit.1.arena.PlainParameters := by
  have hv : Visits twinGraph twinGraph.visit.1 := .again .refl
  have hprogress : Progress twinGraph [] twinGraph.visit.1 := hv.progress
  obtain ⟨_, hvisited, hapart, hroot, _, _, below, _, _, hbelow, _⟩ := build_twinGraph
  refine ⟨below, hbelow, hoisted_class_names hv hvisited hapart hroot hbelow, ?_⟩
  rw [hprogress.arena_eq]
  exact twinGraph_names.2.2.2.1

/-- Of the classes that are hoisted into the declaration of the actor, two different ones have the
same name. -/
theorem nested_extension_named_again : twinGraph.visit.2 = none ∧
    twinGraph.visit.1.arena.NamedApart ∧ ∃ decl own below d d',
      twinGraph.visit.1.buildActor 0 false = .ok decl ∧ decl.Contains own ∧
      (twinGraph.visit.1.arena.children 0).mapM twinGraph.visit.1.buildNode = .ok below ∧
      d ∈ Built.classes below ∧ d' ∈ Built.classes below ∧
      Member.type d ∈ own.members ∧ Member.type d' ∈ own.members ∧ d ≠ d' ∧ d.name = d'.name := by
  have hv : Visits twinGraph twinGraph.visit.1 := .again .refl
  have hprogress : Progress twinGraph [] twinGraph.visit.1 := hv.progress
  obtain ⟨hok, hvisited, hapart, hroot, decl, own, below, hdecl, hown, hbelow, hclasses⟩ :=
    build_twinGraph
  obtain ⟨_, _, _, _, hsymbols⟩ := twinGraph_names
  rw [← hprogress.target_eq, ← hv.grounded.compilation_eq] at hsymbols
  obtain ⟨hcore, e, he, f, hf, hne⟩ := hsymbols
  obtain ⟨d, hd, d', hd', hdiffer, hname⟩ :=
    hv.exists_repeated hvisited hroot hbelow hcore he hf hne
  exact ⟨hok, hapart, decl, own, below, d, d', hdecl, hown, hbelow, hd, hd', hclasses d hd,
    hclasses d' hd', hdiffer, hname⟩

end LinkGraph

end ActorLinks
