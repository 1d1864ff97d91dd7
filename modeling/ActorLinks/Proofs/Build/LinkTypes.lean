import ActorLinks.Proofs.Build.Hoisted
import ActorLinks.Proofs.Graph.Equivalents

/-! # Link types over those of ancestors

Where the symbols of the schematic differ from sibling to sibling, a link type has an equivalent
below every ancestor of its actor. So it is declared `new` as soon as there are ancestors, and has
one base for each. The base is the path of the equivalent, unless that stands directly below an
actor without a name: the path of such a node is empty, as if nothing stood above it.
-/
namespace ActorLinks.LinkGraph

section
variable {c : Compilation} {sch : Schematic} {targets : List Target} {g : LinkGraph}
  {i n r s : NodeId} {k : LinkKind} {e : Schematic.Entry} {v : NodeState}

theorem mem_linkTypeBases_of_equivalent {a : NodeId} (ha : a ∈ v.ancestors)
    (hn : g.arena.equivalent? i a = some n) : g.ancestorPath i a ∈ g.linkTypeBases i v := by
  have hmem : a ∈ g.equivalentAncestors i v.ancestors :=
    List.mem_filter.mpr ⟨ha, by rw [hn]; rfl⟩
  rw [linkTypeBases, SortedSet.mem_ofList, List.mem_append]
  exact Or.inr (List.mem_map.mpr ⟨a, hmem, rfl⟩)

theorem ancestorPath_ne_empty (a : NodeId) : g.ancestorPath i a ≠ "" := by
  intro hempty
  have hdot : '.' ∈ (g.ancestorPath i a).toList := by simp [ancestorPath]
  rw [hempty] at hdot
  cases hdot

/-- Outside the gateway assembly a link type is declared, `new` if its state says so. -/
theorem exists_linkTypeDecl {state : LinkTypeState} (hstate : g.state? i = some v)
    (hdetail : v.detail = .linkType state) (hk : g.arena.kind i = .linkType k e)
    (hassembly : (g.target i).assembly ≠ .gateway) :
    ∃ decl hoisted, g.linkTypePart i = .ok (.spread decl hoisted) ∧
      (.new ∈ decl.modifiers ↔ state.shouldDeclareNew = true) ∧
      ∀ b, b ∈ decl.bases ↔ b ∈ g.linkTypeBases i v ∧ b ≠ "" := by
  have hlink : g.linkTypeState? i = some state := linkTypeState?_eq_some.mpr ⟨v, hstate, hdetail⟩
  have hdeclared : (!(g.target i).isCore && (g.target i).assemblyLinkType.isNone) = false := by
    unfold Target.isCore Target.assemblyLinkType
    cases hassembly' : (g.target i).assembly with
    | gateway => exact absurd hassembly' hassembly
    | _ => rfl
  simp only [linkTypePart, expectState_eq_ok_iff.mpr hstate, hlink, hk, hdeclared, bind,
    Except.bind, pure, Except.pure, withImplementation, Bool.false_eq_true, if_false]
  split
  all_goals
    refine ⟨_, _, rfl, ?_, fun b => ?_⟩
    · simp [TypeDecl.interfaceNamed]
    · simp [TypeDecl.interfaceNamed, SortedSet.mem_iff]

theorem Complete.exists_linkTypeState (h : g.Complete) (hk : g.arena.kind i = .linkType k e) :
    ∃ v state, g.state? i = some v ∧ v.detail = .linkType state := by
  obtain ⟨v, hstate⟩ := h.exists_state i (lt_size_of_linkType hk)
  have hcategory := h.category_eq hstate
  rw [Arena.category, hk] at hcategory
  cases hdetail : v.detail with
  | linkType state => exact ⟨v, state, hstate, hdetail⟩
  | _ => simp [hdetail, NodeDetail.category, NodeKind.category] at hcategory

theorem ancestorsOfRoot_of_rootActor? (hk : (g.arena.kind i).isActor = false)
    (hr : g.arena.rootActor? i = some r) : g.ancestorsOfRoot i = g.ancestors r := by
  rw [ancestorsOfRoot, actorRoot?, hk, if_neg Bool.false_ne_true, hr]

variable (hv : Visits (ofTargets c sch targets) g)
include hv

/-- What corresponds to a link type has the path at its place, unless that is directly below an
actor without a name. -/
theorem fullPath_eq_ancestorPath_iff (hk : g.arena.kind i = .linkType k e)
    (hkn : g.arena.kind n = .linkType k e) (hs : g.arena.rootActor? n = some s)
    (hnames : g.arena.namesAbove n = g.arena.namesAbove i)
    (hr : g.arena.rootActor? i = some r) :
    g.arena.fullPath n = g.ancestorPath i s ↔
      ¬ ((g.target s).actor = "" ∧ g.arena.isTemplate i = true) := by
  have hg := hv.grounded
  have hnamed := empty_not_mem_of_startsPlain (hg.startsPlain_of_mem_namesAbove hkn)
  have hpath : g.arena.path n = (g.target s).actor ++ g.arena.relativePath n :=
    hg.nested.path_of_named hnamed hs
  have htemplate : g.arena.isTemplate i = true ↔ g.arena.namesAbove n = [] := by
    obtain ⟨p, hp⟩ := Arena.exists_parent_of_rootActor? hr
    rw [hnames, Arena.namesAbove_eq_nil_iff hg.nested hp, Arena.isTemplate, hp]
  have hrelative : g.arena.relativePath n = "" ↔ g.arena.namesAbove n = [] := by
    rw [Arena.relativePath_of_named hnamed]
    split
    · next hnil => simp [hnil]
    · next hne =>
      refine iff_of_false (fun hempty => ?_) hne
      exact absurd (String.append_eq_empty_iff.mp hempty).1 (by decide)
  have htarget : g.ancestorPath i s = g.arena.path n ++ "." ++ g.arena.typeName n := by
    rw [ancestorPath, hpath, ← Arena.relativePath_congr hnames, Arena.typeName_linkType hk,
      Arena.typeName_linkType hkn]
  rw [htarget, Arena.fullPath_eq_iff, hpath, htemplate, ← hrelative, Ne,
    String.append_eq_empty_iff]

/-- In a visited graph a link type has an equivalent below every actor, of the same kind and at the
same place, and is the equivalent of that. So its declaration is `new` where its actor has
ancestors, and has a base for each of them. The base is the path of the equivalent there, unless
that stands directly below an actor without a name. -/
theorem equivalent_linkTypes (hvisited : g.isVisited = true) (hd : sch.root.Distinct)
    (hk : g.arena.kind i = .linkType k e) :
    ∃ r v state, g.arena.rootActor? i = some r ∧ g.state? i = some v ∧
      v.detail = .linkType state ∧ v.ancestors = g.ancestors r ∧
      (∀ s ∈ g.ancestors r, s ∈ g.roots) ∧
      (∀ s ∈ g.roots, ∃ n, g.arena.equivalent? i s = some n ∧ g.arena.equivalent? n r = some i ∧
        g.arena.kind n = .linkType k e ∧ g.arena.rootActor? n = some s ∧
        g.arena.relativePath n = g.arena.relativePath i ∧
        (g.arena.fullPath n = g.ancestorPath i s ↔
          ¬ ((g.target s).actor = "" ∧ g.arena.isTemplate i = true))) ∧
      (state.shouldDeclareNew = true ↔ g.ancestors r ≠ []) ∧
      ((g.target i).assembly ≠ .gateway → ∃ decl hoisted,
        g.linkTypePart i = .ok (.spread decl hoisted) ∧
        (.new ∈ decl.modifiers ↔ g.ancestors r ≠ []) ∧
        ∀ s ∈ g.ancestors r, g.ancestorPath i s ∈ decl.bases) := by
  have hg := hv.grounded
  have hcomplete := hv.complete_of_isVisited hvisited
  have hi := lt_size_of_linkType hk
  obtain ⟨r, hr, hactor, _⟩ := hg.nested.exists_root hi (Arena.isActor_of_linkType hk)
  obtain ⟨v, state, hstate, hdetail⟩ := hcomplete.exists_linkTypeState hk
  have hancestors : v.ancestors = g.ancestors r := by
    rw [hv.recorded.ancestors_eq hstate,
      ancestorsOfRoot_of_rootActor? (Arena.isActor_of_linkType hk) hr]
  have hequivalent : ∀ s ∈ g.roots, ∃ n, g.arena.equivalent? i s = some n ∧
      g.arena.equivalent? n r = some i ∧ g.arena.kind n = .linkType k e ∧
      g.arena.rootActor? n = some s ∧ g.arena.namesAbove n = g.arena.namesAbove i := by
    intro s hs
    obtain ⟨name, hname⟩ := mem_roots_iff.mp hs
    exact hg.exists_equivalent hd hr (hg.root_of_actor hname) hk
  have hroots : ∀ s ∈ g.ancestors r, s ∈ g.roots := by
    intro s hs
    rw [← hancestors, hv.recorded.ancestors_eq hstate] at hs
    exact mem_roots_of_mem_ancestors hs
  have habove : ∀ s ∈ g.ancestors r, ∃ n, g.arena.equivalent? i s = some n := by
    intro s hs
    obtain ⟨n, hn, _⟩ := hequivalent s (hroots s hs)
    exact ⟨n, hn⟩
  have hnew : state.shouldDeclareNew = true ↔ g.ancestors r ≠ [] := by
    rw [hv.recorded.shouldDeclareNew_eq hstate hdetail, hancestors, redeclares, List.any_eq_true]
    constructor
    · rintro ⟨s, hs, _⟩
      exact List.ne_nil_of_mem hs
    · intro hne
      obtain ⟨s, hs⟩ := List.exists_mem_of_ne_nil _ hne
      obtain ⟨n, hn⟩ := habove s hs
      exact ⟨s, hs, by rw [hn]; rfl⟩
  refine ⟨r, v, state, hr, hstate, hdetail, hancestors, hroots, fun s hs => ?_, hnew,
    fun hassembly => ?_⟩
  · obtain ⟨n, hin, hni, hkn, hs', hnames⟩ := hequivalent s hs
    exact ⟨n, hin, hni, hkn, hs', Arena.relativePath_congr hnames,
      fullPath_eq_ancestorPath_iff hv hk hkn hs' hnames hr⟩
  · obtain ⟨decl, hoisted, hpart, hdecl, hbases⟩ :=
      exists_linkTypeDecl hstate hdetail hk hassembly
    refine ⟨decl, hoisted, hpart, hdecl.trans hnew, fun s hs => ?_⟩
    obtain ⟨n, hn⟩ := habove s hs
    exact (hbases _).mpr
      ⟨mem_linkTypeBases_of_equivalent (hancestors ▸ hs) hn, ancestorPath_ne_empty s⟩

end

section Samples

/-- A thread is a channel, and has an extension that channels do not have. -/
def pinnedThreadTypes : Compilation := .ofTypes
  [{ name := "Discord.IChannelActor", kind := .interface },
   { name := "Discord.IThreadActor"
     kind := .interface
     interfaces := ["Discord.IChannelActor"] },
   { name := "Discord.IThreadActor.Pins"
     kind := .interface
     containingType := some "Discord.IThreadActor"
     attributes := [{ className := "Discord.LinkExtensionAttribute" }] },
   { name := "Discord.IThread", kind := .interface, interfaces := ["Discord.IChannel"] }]

def threadLinks : LinkGraph := ofTargets pinnedThreadTypes nestedLinks
  [channelModelTarget "Discord.IChannelActor" "Discord.IChannel",
   channelModelTarget "Discord.IThreadActor" "Discord.IThread"]

/-- A thread is a channel, the actor of channels being nameless. -/
def namelessGraph : LinkGraph := ofTargets
  (.ofTypes [{ name := "Discord.IThreadActor", kind := .interface, interfaces := [""] }])
  indexedLinks
  [channelModelTarget "" "Discord.IChannel",
   channelModelTarget "Discord.IThreadActor" "Discord.IChannel"]

theorem distinct_indexedLinks : indexedLinks.root.Distinct := by
  refine .intro (by decide) fun f hf => ?_
  rw [List.mem_singleton.mp hf]
  exact .intro (by decide) (by simp [Schematic.linkEntry])

theorem distinct_nestedLinks : nestedLinks.root.Distinct := by
  obtain ⟨hapart, hbelow⟩ := distinct_indexedLinks
  refine .intro (by decide) fun f hf => ?_
  rw [List.mem_singleton.mp hf]
  exact .intro hapart hbelow

theorem quiet_threadLinks : 0 < threadLinks.arena.size ∧
    ∀ i < threadLinks.arena.size, threadLinks.complaint? i = none := by
  decide +kernel

theorem quiet_namelessGraph : 0 < namelessGraph.arena.size ∧
    ∀ i < namelessGraph.arena.size, namelessGraph.complaint? i = none := by
  decide +kernel

theorem mem_ancestors_threadLinks : 0 ∈ threadLinks.ancestors 6 :=
  mem_ancestors_of_parents (by decide +kernel) (by decide +kernel) (by decide +kernel)
    (by decide +kernel)

theorem mem_ancestors_namelessGraph : 0 ∈ namelessGraph.ancestors 4 :=
  mem_ancestors_of_parents (by decide +kernel) (by decide +kernel) (by decide +kernel)
    (by decide +kernel)

/-- A link type of the thread is declared `new`, over that of the channel. -/
theorem equivalent_linkTypes_thread : ∃ k e decl hoisted,
    threadLinks.visit.1.arena.kind 14 = .linkType k e ∧
    threadLinks.visit.1.arena.kind 4 = .linkType k e ∧
    threadLinks.visit.1.arena.equivalent? 14 0 = some 4 ∧
    threadLinks.visit.1.arena.equivalent? 4 6 = some 14 ∧
    threadLinks.visit.1.linkTypePart 14 = .ok (.spread decl hoisted) ∧
    .new ∈ decl.modifiers ∧ threadLinks.visit.1.arena.fullPath 4 ∈ decl.bases := by
  have hv : Visits threadLinks threadLinks.visit.1 := .again .refl
  have hvisited := (visited_of_quiet quiet_threadLinks).2
  have hprogress : Progress threadLinks [] threadLinks.visit.1 := hv.progress
  have hfacts : threadLinks.arena.linkKind? 14 = some .indexable ∧
      threadLinks.arena.rootActor? 14 = some 6 ∧ threadLinks.arena.equivalent? 14 0 = some 4 ∧
      threadLinks.arena.isTemplate 14 = false ∧ 0 ∈ threadLinks.roots ∧
      (threadLinks.target 14).assembly = .core := by
    decide +kernel
  have habove := mem_ancestors_threadLinks
  rw [← hprogress.arena_eq, ← hprogress.target_eq, roots, ← hprogress.actors_eq] at hfacts
  rw [← hprogress.ancestors_eq] at habove
  obtain ⟨hlink, hroot, hchannel, htemplate, hmem, hassembly⟩ := hfacts
  obtain ⟨e, hk⟩ := Arena.linkKind?_eq_some.mp hlink
  obtain ⟨r, v, state, hr, _, _, _, _, hequivalent, _, hpart⟩ :=
    equivalent_linkTypes hv hvisited distinct_nestedLinks hk
  obtain rfl := Option.some.inj (hr.symm.trans hroot)
  obtain ⟨n, hn, hback, hkn, _, _, hpath⟩ := hequivalent 0 hmem
  obtain rfl := Option.some.inj (hn.symm.trans hchannel)
  obtain ⟨decl, hoisted, hdecl, hnew, hbases⟩ := hpart (by rw [hassembly]; decide)
  refine ⟨_, e, decl, hoisted, hk, hkn, hn, hback, hdecl,
    hnew.mpr (List.ne_nil_of_mem habove), ?_⟩
  rw [hpath.mpr (by simp [htemplate])]
  exact hbases 0 habove

/-- Over a nameless actor, the link type of the thread has a base that no node is reached by. -/
theorem nameless_base_without_node : namelessGraph.visit.2 = none ∧
    namelessGraph.visit.1.isVisited = true ∧ indexedLinks.root.Distinct ∧
    0 ∈ namelessGraph.visit.1.ancestors 4 ∧ ∃ decl hoisted,
      namelessGraph.visit.1.linkTypePart 6 = .ok (.spread decl hoisted) ∧
      namelessGraph.visit.1.ancestorPath 6 0 = ".Indexable" ∧ ".Indexable" ∈ decl.bases ∧
      ∀ n ∈ namelessGraph.visit.1.arena.descendants 0,
        namelessGraph.visit.1.arena.fullPath n ≠ ".Indexable" := by
  have hv : Visits namelessGraph namelessGraph.visit.1 := .again .refl
  obtain ⟨hok, hvisited⟩ := visited_of_quiet quiet_namelessGraph
  have hprogress : Progress namelessGraph [] namelessGraph.visit.1 := hv.progress
  have hfacts : namelessGraph.arena.linkKind? 6 = some .indexable ∧
      namelessGraph.arena.rootActor? 6 = some 4 ∧ namelessGraph.arena.equivalent? 6 0 = some 2 ∧
      (namelessGraph.target 6).assembly = .core ∧ namelessGraph.ancestorPath 6 0 = ".Indexable" ∧
      ∀ n ∈ namelessGraph.arena.descendants 0,
        namelessGraph.arena.fullPath n ≠ ".Indexable" := by
    decide +kernel
  have habove := mem_ancestors_namelessGraph
  rw [ancestorPath, ← hprogress.arena_eq, ← hprogress.target_eq, ← hprogress.target_eq] at hfacts
  rw [← hprogress.ancestors_eq] at habove
  obtain ⟨hlink, hroot, hequivalent, hassembly, hpath, hnone⟩ := hfacts
  obtain ⟨e, hk⟩ := Arena.linkKind?_eq_some.mp hlink
  obtain ⟨v, state, hstate, hdetail⟩ := (hv.complete_of_isVisited hvisited).exists_linkTypeState hk
  obtain ⟨decl, hoisted, hdecl, _, hbases⟩ :=
    exists_linkTypeDecl hstate hdetail hk (by rw [hassembly]; decide)
  have hmem : 0 ∈ v.ancestors := by
    rwa [hv.recorded.ancestors_eq hstate,
      ancestorsOfRoot_of_rootActor? (Arena.isActor_of_linkType hk) hroot]
  have hbase := (hbases _).mpr
    ⟨mem_linkTypeBases_of_equivalent hmem hequivalent, ancestorPath_ne_empty 0⟩
  exact ⟨hok, hvisited, distinct_indexedLinks, habove, decl, hoisted, hdecl, hpath, hpath ▸ hbase,
    hnone⟩

end Samples

end ActorLinks.LinkGraph
