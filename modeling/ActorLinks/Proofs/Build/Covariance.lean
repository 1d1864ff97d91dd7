import ActorLinks.Proofs.Build.NestedTypes

/-! # Covariance of back links

A back link is covariant unless the extension that it stands below mirrors back links. But it has
bases from all over the tree and from other trees, and these answer to their own parents: outside
the core assembly, a back link below an extension without mirrors is covariant, and one of its bases
is not, if an extension that the parent composes has a mirror.
-/
namespace ActorLinks.LinkGraph

/-- The back links of the graph that a back link has as bases. -/
def listedBackLinks (g : LinkGraph) (i : NodeId) : List NodeId :=
  (g.inheritedBackLinks i).toList ++ g.equivalents i (g.ancestorsOfRoot i)

section
variable {c : Compilation} {sch : Schematic} {targets : List Target} {g : LinkGraph}
  {i j m p : NodeId} {decl : TypeDecl} {hoisted : List TypeDecl}

theorem category_of_backLinkPart (hv : Visits (ofTargets c sch targets) g) {part : Part}
    (h : g.backLinkPart i = .ok part) : g.arena.category i = .backLink := by
  obtain ⟨v, s, _, hstate, hdetail, _⟩ := hv.exists_of_backLinkPart h
  rw [← (hv.fitting hstate).1, hdetail]
  rfl

theorem name_of_backLinkPart (hv : Visits (ofTargets c sch targets) g)
    (hp : g.arena.parent? i = some p) (h : g.backLinkPart i = .ok (.spread decl hoisted)) :
    decl.name = if g.arena.isCore i || !g.mirrorsBackLinks p then "BackLink<out TSource>"
      else "BackLink<TSource>" := by
  obtain ⟨_, _, q, _, _, hq, _, hface⟩ := hv.exists_of_backLinkPart h
  obtain rfl := Option.some.inj (hp.symm.trans hq)
  rcases hface with ⟨_, hclosed⟩ | ⟨_, _, _, hspread, hname, _⟩
  · cases hclosed
  · cases hspread
    exact hname

/-- A back link is covariant in the core assembly, and elsewhere below a parent that does not mirror
back links. -/
theorem covariant_iff (hv : Visits (ofTargets c sch targets) g)
    (hp : g.arena.parent? i = some p) (h : g.backLinkPart i = .ok (.spread decl hoisted)) :
    decl.name = "BackLink<out TSource>" ↔
      g.arena.isCore i = true ∨ g.mirrorsBackLinks p = false := by
  rw [name_of_backLinkPart hv hp h]
  cases g.arena.isCore i <;> cases g.mirrorsBackLinks p <;> simp

/-- Where a listed back link stands. -/
theorem exists_of_mem_listedBackLinks (hv : Visits (ofTargets c sch targets) g) {v : NodeState}
    (hstate : g.state? i = some v) (hp : g.arena.parent? i = some p)
    (hk : g.arena.category i = .backLink) (hj : j ∈ g.listedBackLinks i) :
    ∃ m, g.arena.backLinkOf? m = some j ∧ g.arena.isCore j = g.arena.isCore i ∧
      (g.arena.rootActor? i = some m ∨ m ∈ g.implicitComposition p ∨
        j ∈ g.equivalents i (g.ancestorsOfRoot i)) := by
  rcases List.mem_append.mp hj with hinherited | hequivalent
  · obtain ⟨hne, m, hm, habove⟩ :=
      (hv.mem_inheritedBackLinks_iff hstate hp hk).mp (SortedSet.mem_iff.mpr hinherited)
    have hmem := (hv.grounded.mem_composition_backLink hp hk).mpr ⟨hne, m, hm, habove⟩
    refine ⟨m, hm, hv.grounded.isCore_of_mem_implicitComposition hmem.1, ?_⟩
    exact habove.imp_right Or.inl
  · obtain ⟨a, _, ha⟩ := List.mem_filterMap.mp hequivalent
    obtain ⟨m, hm, hcore⟩ := hv.grounded.equivalent_backLink hp hk ha
    exact ⟨m, hm, hcore, Or.inr (Or.inr hequivalent)⟩

theorem mirrorsBackLinks_of_isActor (hk : (g.arena.kind m).isActor = true) :
    g.mirrorsBackLinks m = false := by
  unfold mirrorsBackLinks extensionSymbol?
  cases hkind : g.arena.kind m with
  | extension symbol => simp [hkind, NodeKind.isActor, NodeKind.category] at hk
  | _ => rfl

theorem backLinkOf?_mem_listed (hv : Visits (ofTargets c sch targets) g) {v : NodeState}
    (hstate : g.state? i = some v) (hp : g.arena.parent? i = some p)
    (hk : g.arena.category i = .backLink) (hm : m ∈ g.implicitComposition p) :
    ∃ j ∈ g.listedBackLinks i, g.arena.parent? j = some m := by
  have hg := hv.grounded
  obtain ⟨j, hj⟩ := hg.exists_backLinkOf? (lt_size_of_mem_implicitComposition hg.nested hm)
    (not_backLink_of_mem hg.nested hp hm)
  have hparent := (hg.backLinkOf?_eq_some.mp hj).1
  refine ⟨j, List.mem_append_left _ ?_, hparent⟩
  refine (hv.mem_inheritedBackLinks_iff hstate hp hk).mpr ⟨?_, m, hj, Or.inr hm⟩
  rintro rfl
  obtain rfl := Option.some.inj (hparent.symm.trans hp)
  exact ne_of_mem_implicitComposition hg.nested hm rfl

theorem fullPath_mem_bases (hv : Visits (ofTargets c sch targets) g)
    (h : g.backLinkPart i = .ok (.spread decl hoisted)) (hj : j ∈ g.listedBackLinks i)
    (hne : g.arena.fullPath j ≠ "") : g.arena.fullPath j ∈ decl.bases := by
  obtain ⟨_, _, _, _, _, _, hancestors, hface⟩ := hv.exists_of_backLinkPart h
  rcases hface with ⟨_, hclosed⟩ | ⟨_, _, _, hspread, _, hbases⟩
  · cases hclosed
  · cases hspread
    rw [hbases, hancestors]
    refine ⟨?_, hne⟩
    rw [backLinkBases, SortedSet.mem_ofList]
    exact List.mem_append_right _ (List.mem_map_of_mem hj)

/-- A back link names those that it inherits and its equivalents below the ancestors. If it is
covariant, they are too, exactly where no extension above one of them mirrors back links. -/
theorem covariant_bases_iff (hv : Visits (ofTargets c sch targets) g)
    (hvisited : g.isVisited = true) (hp : g.arena.parent? i = some p)
    (h : g.backLinkPart i = .ok (.spread decl hoisted)) :
    (∀ j ∈ g.listedBackLinks i, g.arena.fullPath j ≠ "" → g.arena.fullPath j ∈ decl.bases) ∧
    ((decl.name = "BackLink<out TSource>" → ∀ j ∈ g.listedBackLinks i, ∀ other classes,
        g.backLinkPart j = .ok (.spread other classes) → other.name = "BackLink<out TSource>") ↔
      g.arena.isCore i = true ∨ g.mirrorsBackLinks p = true ∨
        ∀ m, (m ∈ g.implicitComposition p ∨
          ∃ j ∈ g.equivalents i (g.ancestorsOfRoot i), g.arena.parent? j = some m) →
            g.mirrorsBackLinks m = false) := by
  have hk := category_of_backLinkPart hv h
  have hown := covariant_iff hv hp h
  obtain ⟨v, _, _, hstate, _⟩ := hv.exists_of_backLinkPart h
  have hlisted {j : NodeId} := exists_of_mem_listedBackLinks (j := j) hv hstate hp hk
  refine ⟨fun j hj hne => fullPath_mem_bases hv h hj hne, ?_⟩
  constructor
  · intro hall
    by_cases hcovariant : decl.name = "BackLink<out TSource>"
    · by_cases hcore : g.arena.isCore i = true
      · exact Or.inl hcore
      · refine Or.inr (Or.inr fun m hm => ?_)
        obtain ⟨j, hj, hparent⟩ : ∃ j ∈ g.listedBackLinks i, g.arena.parent? j = some m := by
          rcases hm with hm | ⟨j, hj, hparent⟩
          · exact backLinkOf?_mem_listed hv hstate hp hk hm
          · exact ⟨j, List.mem_append_right _ hj, hparent⟩
        obtain ⟨_, hj', hsame, _⟩ := hlisted hj
        obtain ⟨part, hpart⟩ := (hv.complete_of_isVisited hvisited).exists_backLinkPart hparent
          (hv.grounded.backLinkOf?_eq_some.mp hj').2
        obtain ⟨_, _, r, _, _, hr, _, hother⟩ := hv.exists_of_backLinkPart hpart
        obtain rfl := Option.some.inj (hparent.symm.trans hr)
        rcases hother with ⟨hclass, _⟩ | ⟨_, other, classes, rfl, _⟩
        · exact mirrorsBackLinks_of_isActor (Bool.and_eq_true_iff.mp hclass).2
        · refine ((covariant_iff hv hparent hpart).mp
            (hall hcovariant j hj other classes hpart)).resolve_left ?_
          rwa [hsame]
    · rw [hown, not_or, Bool.not_eq_false] at hcovariant
      exact Or.inr (Or.inl hcovariant.2)
  · intro hplain hcovariant j hj other classes hother
    obtain ⟨m, hm, hsame, habove⟩ := hlisted hj
    have hparent := (hv.grounded.backLinkOf?_eq_some.mp hm).1
    rw [covariant_iff hv hparent hother, hsame]
    rcases hown.mp hcovariant with hcore | hnone
    · exact Or.inl hcore
    · refine hplain.imp_right fun hplain => ?_
      rw [hnone, or_iff_right Bool.false_ne_true] at hplain
      rcases habove with hroot | hcomposed | hequivalent
      · exact mirrorsBackLinks_of_isActor
          (List.find?_some (p := fun n => (g.arena.kind n).isActor) hroot)
      · exact hplain m (Or.inl hcomposed)
      · exact hplain m (Or.inr ⟨j, hequivalent, hparent⟩)

/-- A back link that is not directly below an actor is declared as an interface. -/
theorem exists_interface (hv : Visits (ofTargets c sch targets) g) (hvisited : g.isVisited = true)
    (hp : g.arena.parent? i = some p) (hk : g.arena.category i = .backLink)
    (hactor : (g.arena.kind p).isActor = false) :
    ∃ decl hoisted, g.backLinkPart i = .ok (.spread decl hoisted) ∧
      ∃ d, g.DeclaredAs i d ∧ d.name = decl.name ∧ d.bases = decl.bases := by
  have hcomplete := hv.complete_of_isVisited hvisited
  obtain ⟨part, hpart⟩ := hcomplete.exists_backLinkPart hp hk
  obtain ⟨_, _, q, _, _, hq, _, hface⟩ := hv.exists_of_backLinkPart hpart
  obtain rfl := Option.some.inj (hp.symm.trans hq)
  rcases hface with ⟨hclass, _⟩ | ⟨_, decl, hoisted, rfl, _⟩
  · simp [hactor] at hclass
  · obtain ⟨d, classes, hbuilt, hname, hbases⟩ := hcomplete.exists_decl hp (by rw [hk]; exact hpart)
    exact ⟨decl, hoisted, hpart, d, ⟨classes, hbuilt⟩, hname, hbases⟩

end

/-- A channel with two extensions; the first may have a property that mirrors back links. -/
def mirrorTypes (mirrors : Bool) : Compilation :=
  let mirror : Symbol.Property :=
    { name := "Parent"
      typeName := "Discord.IChannelActor"
      attributes := [{ className := "Discord.LinkMirrorAttribute"
                       named := .ofList [("OnlyBackLinks", .bool true)] }] }
  .ofTypes
    [{ name := "Discord.IChannelActor"
       kind := .interface },
     { name := "Discord.IChannelActor.Pins"
       kind := .interface
       containingType := some "Discord.IChannelActor"
       attributes := [{ className := "Discord.LinkExtensionAttribute" }]
       properties := if mirrors then [mirror] else [] },
     { name := "Discord.IChannelActor.Webhooks"
       kind := .interface
       containingType := some "Discord.IChannelActor"
       attributes := [{ className := "Discord.LinkExtensionAttribute" }] }]

def mirrorGraph (mirrors : Bool) : LinkGraph :=
  ofTargets (mirrorTypes mirrors) ⟨⟨"Discord.ILinkType", [], [], []⟩⟩ [pairTarget .rest "Channel"]

/-- Node 2 is the first extension, node 4 the second one below it; nodes 3 and 5 are their back
links. -/
theorem mirrorGraph_nodes (mirrors : Bool) :
    (0 < (mirrorGraph mirrors).arena.size ∧
      ∀ i < (mirrorGraph mirrors).arena.size, (mirrorGraph mirrors).complaint? i = none) ∧
    (mirrorGraph mirrors).actor? "Discord.Rest.RestChannelActor" = some 0 ∧
    [3, 5].map (mirrorGraph mirrors).arena.parent? = [some 2, some 4] ∧
    [3, 5].map (mirrorGraph mirrors).arena.rootActor? = [some 0, some 0] ∧
    [2, 3, 4, 5].map (mirrorGraph mirrors).arena.category
      = [.extension, .backLink, .extension, .backLink] ∧
    (∀ n ∈ (mirrorGraph mirrors).arena.parents 3 ++ (mirrorGraph mirrors).arena.parents 5,
      ((mirrorGraph mirrors).arena.kind n).isActor = false →
        n < (mirrorGraph mirrors).arena.size ∧
          (mirrorGraph mirrors).arena.category n = .extension) ∧
    (mirrorGraph mirrors).arena.isCore 5 = false ∧
    (mirrorGraph mirrors).arena.fullPath 3
      = "Discord.Rest.RestChannelActor.Pins.BackLink<TSource>" := by
  cases mirrors <;> decide +kernel

theorem mirrors_mirrorGraph (mirrors : Bool) :
    2 ∈ (mirrorGraph mirrors).implicitComposition 4 ∧
    (mirrorGraph mirrors).mirrorsBackLinks 2 = mirrors ∧
    (mirrorGraph mirrors).mirrorsBackLinks 4 = false ∧
    (mirrors = false → ∀ m < (mirrorGraph mirrors).arena.size,
      (mirrorGraph mirrors).mirrorsBackLinks m = false) := by
  cases mirrors <;> decide +kernel

/-- The back link of the second extension lists that of the first. -/
theorem exists_mirrorGraph {mirrors : Bool} {g : LinkGraph} (hv : Visits (mirrorGraph mirrors) g)
    (hvisited : g.isVisited = true) : 3 ∈ g.listedBackLinks 5 ∧
      ∃ decl hoisted own other classes base, g.backLinkPart 5 = .ok (.spread decl hoisted) ∧
      g.DeclaredAs 5 own ∧ own.name = decl.name ∧ own.bases = decl.bases ∧
      g.backLinkPart 3 = .ok (.spread other classes) ∧ g.DeclaredAs 3 base ∧
      base.name = other.name := by
  have hprogress : Progress (mirrorGraph mirrors) [] g := hv.progress
  obtain ⟨_, _, hparents, _, hcategories, _⟩ := mirrorGraph_nodes mirrors
  obtain ⟨hmem, _⟩ := mirrors_mirrorGraph mirrors
  rw [← hprogress.arena_eq] at hparents hcategories
  have hcomposed : 2 ∈ g.implicitComposition 4 := by
    rw [hprogress.same]
    exact hmem
  simp only [List.map_cons, List.map_nil, List.cons.injEq] at hparents hcategories
  obtain ⟨hp3, hp5, _⟩ := hparents
  obtain ⟨hk2, hk3, hk4, hk5, _⟩ := hcategories
  have hextension {m : NodeId} (hk : g.arena.category m = .extension) :
      (g.arena.kind m).isActor = false := by
    rw [NodeKind.isActor, ← Arena.category, hk]
    rfl
  obtain ⟨decl, hoisted, hown, own, hdeclared, hname, hbases⟩ :=
    exists_interface hv hvisited hp5 hk5 (hextension hk4)
  obtain ⟨other, classes, hother, base, hbase, hname', _⟩ :=
    exists_interface hv hvisited hp3 hk3 (hextension hk2)
  obtain ⟨v, hstate⟩ :=
    (hv.complete_of_isVisited hvisited).exists_state 5 (Arena.lt_size_of_parent hp5)
  have hlink := hv.grounded.backLinkOf?_eq_some.mpr ⟨hp3, hk3⟩
  have hinherited := (hv.mem_inheritedBackLinks_iff hstate hp5 hk5).mpr
    ⟨by decide, 2, hlink, Or.inr hcomposed⟩
  exact ⟨List.mem_append_left _ hinherited, decl, hoisted, own, other, classes, base, hown,
    hdeclared, hname, hbases, hother, hbase, hname'⟩

/-- Where no extension mirrors back links, the one base is covariant as well. -/
theorem covariant_bases_iff_sample : ∃ decl hoisted other classes,
    (mirrorGraph false).visit.1.backLinkPart 5 = .ok (.spread decl hoisted) ∧
    (mirrorGraph false).visit.1.backLinkPart 3 = .ok (.spread other classes) ∧
    "Discord.Rest.RestChannelActor.Pins.BackLink<TSource>" ∈ decl.bases ∧
    decl.name = "BackLink<out TSource>" ∧ other.name = "BackLink<out TSource>" := by
  obtain ⟨hquiet, _, hparents, _, _, _, _, hpath⟩ := mirrorGraph_nodes false
  obtain ⟨_, _, _, hnone⟩ := mirrors_mirrorGraph false
  have hvisited : (mirrorGraph false).visit.1.isVisited = true := (visited_of_quiet hquiet).2
  have hv : Visits (mirrorGraph false) (mirrorGraph false).visit.1 := .again .refl
  have hprogress : Progress (mirrorGraph false) [] (mirrorGraph false).visit.1 := hv.progress
  rw [← hprogress.arena_eq] at hparents hpath
  obtain ⟨hlisted, decl, hoisted, _, other, classes, _, hown, _, _, _, hother, _⟩ :=
    exists_mirrorGraph hv hvisited
  have hmirrors : ∀ m < (mirrorGraph false).visit.1.arena.size,
      (mirrorGraph false).visit.1.mirrorsBackLinks m = false := by
    rw [hprogress.same]
    exact hnone rfl
  simp only [List.map_cons, List.map_nil, List.cons.injEq] at hparents
  obtain ⟨_, hp5, _⟩ := hparents
  obtain ⟨hbases, hiff⟩ := covariant_bases_iff hv hvisited hp5 hown
  have hcovariant := (covariant_iff hv hp5 hown).mpr (Or.inr (hmirrors 4
    (Nat.lt_trans (Arena.lt_of_parent hp5) (Arena.lt_size_of_parent hp5))))
  refine ⟨decl, hoisted, other, classes, hown, hother, ?_, hcovariant, ?_⟩
  · rw [← hpath]
    exact hbases 3 hlisted (by rw [hpath]; decide)
  · refine hiff.mpr (Or.inr (Or.inr fun m hm => hmirrors m ?_)) hcovariant 3 hlisted other classes
      hother
    rcases hm with hm | ⟨j, _, hparent⟩
    · exact lt_size_of_mem_implicitComposition hv.grounded.nested hm
    · exact Nat.lt_trans (Arena.lt_of_parent hparent) (Arena.lt_size_of_parent hparent)

/-- Where the first extension does, a covariant back link has an invariant one as a base. -/
theorem invariant_base_listed : (mirrorGraph true).visit.2 = none ∧
    (mirrorGraph true).visit.1.isVisited = true ∧
    ∃ decl own base, (mirrorGraph true).visit.1.buildActor 0 false = .ok decl ∧
      decl.Contains own ∧ decl.Contains base ∧
      (mirrorGraph true).visit.1.DeclaredAs 5 own ∧ (mirrorGraph true).visit.1.DeclaredAs 3 base ∧
      3 ∈ (mirrorGraph true).visit.1.listedBackLinks 5 ∧
      (mirrorGraph true).visit.1.arena.fullPath 3 ∈ own.bases ∧
      own.name = "BackLink<out TSource>" ∧ base.name = "BackLink<TSource>" := by
  obtain ⟨hquiet, hactor, hparents, hroots, _, habove, hcore, hpath⟩ := mirrorGraph_nodes true
  obtain ⟨_, hmirror, hplain, _⟩ := mirrors_mirrorGraph true
  obtain ⟨hok, hvisited⟩ : (mirrorGraph true).visit.2 = none ∧
      (mirrorGraph true).visit.1.isVisited = true := visited_of_quiet hquiet
  have hv : Visits (mirrorGraph true) (mirrorGraph true).visit.1 := .again .refl
  have hprogress : Progress (mirrorGraph true) [] (mirrorGraph true).visit.1 := hv.progress
  have hsame (m : NodeId) : (mirrorGraph true).visit.1.mirrorsBackLinks m
      = (mirrorGraph true).mirrorsBackLinks m := by
    rw [hprogress.same]
    rfl
  rw [← hsame] at hmirror hplain
  rw [← hprogress.arena_eq] at hparents hroots habove hcore hpath
  rw [actor?, ← hprogress.actors_eq] at hactor
  obtain ⟨hlisted, decl, hoisted, own, other, classes, base, hown, hdeclared, hname, hbases, hother,
    hbase, hname'⟩ := exists_mirrorGraph hv hvisited
  generalize (mirrorGraph true).visit.1 = g at *
  have hcomplete := hv.complete_of_isVisited hvisited
  obtain ⟨actor, hbuilt⟩ :=
    hcomplete.exists_buildActor_of_mem_roots hv.grounded (mem_roots_iff.mpr ⟨_, hactor⟩) false
  simp only [List.map_cons, List.map_nil, List.cons.injEq] at hparents hroots
  obtain ⟨hp3, hp5, _⟩ := hparents
  obtain ⟨hroot3, hroot5, _⟩ := hroots
  have hspreads {n : NodeId} (hn : n ∈ g.arena.parents 3 ++ g.arena.parents 5)
      (hk : (g.arena.kind n).isActor = false) : g.Spreads n :=
    hcomplete.spreads_extension (habove n hn hk).1 (habove n hn hk).2
  have hcore3 : g.arena.isCore 3 = false := by
    rw [hv.grounded.isCore_of_rootActor? hroot3, ← hv.grounded.isCore_of_rootActor? hroot5, hcore]
  refine ⟨hok, hvisited, actor, own, base, hbuilt, ?_, ?_, hdeclared, hbase, hlisted, ?_, ?_, ?_⟩
  · exact hcomplete.contains_of_declaredAs hroot5 hbuilt
      (fun n hn => hspreads (List.mem_append_right _ hn)) hdeclared
  · exact hcomplete.contains_of_declaredAs hroot3 hbuilt
      (fun n hn => hspreads (List.mem_append_left _ hn)) hbase
  · rw [hbases]
    exact fullPath_mem_bases hv hown hlisted (by rw [hpath]; decide)
  · rw [hname, covariant_iff hv hp5 hown]
    exact Or.inr hplain
  · rw [hname', name_of_backLinkPart hv hp3 hother, hcore3, hmirror]
    rfl

end ActorLinks.LinkGraph
