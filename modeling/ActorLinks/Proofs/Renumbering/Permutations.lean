import ActorLinks.Proofs.Renumbering.Targets
import ActorLinks.Proofs.TreeView
import Mathlib

/-! # Generating from targets in another order

Another order of the targets never changes whether a generation fails, the failure, or the names
of the sources. It changes texts only where an actor has two ancestors that are equally near: of
these, the one whose target stands first comes first, although actors are otherwise put in the
order of their names.
-/
namespace ActorLinks

namespace LinkGraph
variable {σ : NodeId → NodeId} {g g' : LinkGraph} {c : Compilation} {s : Schematic}
  {targets others : List Target}

/-- Corresponding nodes are visited in the same order and misdeclared alike. -/
theorem Renumbers.failure_visit (h : Renumbers σ g g') (hg : Grounded c s targets g)
    (hg' : Grounded c s others g') : g'.visit.2 = g.visit.2 := by
  rw [hg'.failure_visit, hg.failure_visit, h.visitList_eq, List.findSome?_map]
  exact congrArg (List.findSome? · g.visitList) (funext h.complaint?_eq)

theorem Matches.sources_eq (h : Matches σ g g') (hg : Grounded c s targets g)
    (hcomplete : g.Complete) (hcomplete' : g'.Complete) (hrec : g.Recorded) (o : Config.Output) :
    g'.sources o = g.sources o := by
  have hbuild : g'.build o.emitTreeView = g.build o.emitTreeView := by
    obtain ⟨built, hbuilt, _⟩ := hcomplete.exists_build hg o.emitTreeView
    rw [hbuilt, hcomplete'.build_eq, h.actors_eq, Dict.mapValues, List.mapM_map]
    rw [hcomplete.build_eq] at hbuilt
    refine Failure.mapM_ok_of_imp (fun e he b hb => ?_) hbuilt
    obtain ⟨decl, hdecl, rfl⟩ := Failure.map_eq_ok_iff.mp hb
    have hi := (hg.root_of_actor (Dict.mem_entries_iff.mp he)).2.lt_size
    rw [Function.comp_apply, h.buildActor_ok hrec hi hdecl, Except.map]
  have htargets : g'.targets = g.targets := by
    rw [LinkGraph.targets, LinkGraph.targets, h.roots_eq, List.map_map]
    exact congrArg (List.map · g.roots) (funext h.target_eq)
  have htext (actor : String) (decl : TypeDecl) :
      g'.sourceText o actor decl = g.sourceText o actor decl := by
    rw [sourceText, sourceText, h.compilation_eq]
  have haliases : g'.aliasSources = g.aliasSources := by
    rw [aliasSources, aliasSources, htargets, h.compilation_eq]
  simp only [LinkGraph.sources, hbuild, htext, haliases]

section Fresh

/-- The graph of targets in another order. -/
theorem renumbers_ofTargets (hdistinct : (targets.map (·.actor)).Nodup)
    (hperm : others.Perm targets) : (ofTargets c s targets).Renumbers
      (transfer (ofTargets c s targets) (ofTargets c s others)) (ofTargets c s others) := by
  have hdistinct' : (others.map (·.actor)).Nodup := (hperm.map _).nodup_iff.mpr hdistinct
  exact (inRow_ofTargets hdistinct).renumbers grounded_ofTargets (inRow_ofTargets hdistinct')
    (fun t ht => hperm.mem_iff.mpr ht) grounded_ofTargets fun t ht => hperm.mem_iff.mp ht

/-- Where no tie is ordered otherwise, the graphs match before any visit. -/
theorem matches_ofTargets (hdistinct : (targets.map (·.actor)).Nodup)
    (hperm : others.Perm targets)
    (hties : targets.Pairwise fun x y => c.Ties targets x y → [x, y].Sublist others) :
    (ofTargets c s targets).Matches
      (transfer (ofTargets c s targets) (ofTargets c s others)) (ofTargets c s others) := by
  have hdistinct' : (others.map (·.actor)).Nodup := (hperm.map _).nodup_iff.mpr hdistinct
  refine { renumbers_ofTargets hdistinct hperm with ancestors_eq := ?_, states := ?_ }
  · intro i hi
    exact (inRow_ofTargets hdistinct).ancestors_eq grounded_ofTargets grounded_ofTargets
      (inRow_ofTargets hdistinct') (fun t ht => hperm.mem_iff.mpr ht)
      (fun t ht => hperm.mem_iff.mp ht) hties hi
  · intro i
    rw [state?_ofTargets, state?_ofTargets]
    exact .none

theorem generate_eq_of_ties (hdistinct : (targets.map (·.actor)).Nodup)
    (hperm : others.Perm targets)
    (hties : targets.Pairwise fun x y => c.Ties targets x y → [x, y].Sublist others)
    (o : Config.Output) :
    ((ofTargets c s others).generate o).2 = ((ofTargets c s targets).generate o).2 := by
  have hmatches := matches_ofTargets (s := s) hdistinct hperm hties
  have hfailure := hmatches.failure_visit grounded_ofTargets grounded_ofTargets
  cases hvisit : (ofTargets c s targets).visit.2 with
  | some e =>
    rw [Visits.generate_eq_error .refl (hfailure.trans hvisit),
      Visits.generate_eq_error .refl hvisit]
  | none =>
    have hground : Grounded c s targets (ofTargets c s targets) := grounded_ofTargets
    have hground' : Grounded c s others (ofTargets c s others) := grounded_ofTargets
    have hvisited := hmatches.visitNodes_ok hground.nested hground'.nested size_states_ofTargets
      size_states_ofTargets (fun i hi => hground.mem_visitList_iff.mp hi) hvisit
    rw [← hmatches.visitList_eq] at hvisited
    have hstart : Visits (ofTargets c s targets) (ofTargets c s targets) := .refl
    have hstart' : Visits (ofTargets c s others) (ofTargets c s others) := .refl
    rw [generate_ofTargets_of_ok hvisit, generate_ofTargets_of_ok (hfailure.trans hvisit)]
    exact hvisited.sources_eq hstart.again.grounded (hstart.complete_visit hvisit)
      (hstart'.complete_visit (hfailure.trans hvisit)) hstart.again.recorded o

/-- Another order that fails alike gives sources of the same names. -/
theorem generate_alike (hperm : others.Perm targets)
    (hfailure : (ofTargets c s others).visit.2 = (ofTargets c s targets).visit.2)
    (o : Config.Output) :
    (∀ e, ((ofTargets c s others).generate o).2 = .error e ↔
      ((ofTargets c s targets).generate o).2 = .error e) ∧
    ∀ sources, ((ofTargets c s targets).generate o).2 = .ok sources →
      ∃ sources', ((ofTargets c s others).generate o).2 = .ok sources' ∧
        sources'.map (·.name) = sources.map (·.name) := by
  cases hvisit : (ofTargets c s targets).visit.2 with
  | some e =>
    have herror := Visits.generate_eq_error .refl hvisit o
    have herror' := Visits.generate_eq_error .refl (hfailure.trans hvisit) o
    refine ⟨fun e' => by rw [herror, herror'], fun sources hok => ?_⟩
    rw [herror] at hok
    cases hok
  | none =>
    obtain ⟨found, hfound, hnames⟩ := Visits.generate_succeeds .refl hvisit o
    obtain ⟨sources', hok', hnames'⟩ :=
      Visits.generate_succeeds .refl (hfailure.trans hvisit) o
    refine ⟨fun e' => by rw [hfound, hok']; simp, fun sources hok => ⟨sources', hok', ?_⟩⟩
    obtain rfl := Except.ok.inj (hfound.symm.trans hok)
    rw [hnames', hnames, sourceNames_perm hperm]

end Fresh

end LinkGraph

namespace Manifest

/-- In another order, targets with different actors give the same failure or sources of the same
names; and where no two targets that are tied change places, the same sources. -/
theorem generate_perm (m : Manifest) {targets : List Target} (hperm : targets.Perm m.targets)
    (hdistinct : (m.targets.map (·.actor)).Nodup) (o : Config.Output) :
    (∀ e, ({ m with targets := targets }.graph.generate o).2 = .error e ↔
      (m.graph.generate o).2 = .error e) ∧
    (∀ sources, (m.graph.generate o).2 = .ok sources →
      ∃ sources', ({ m with targets := targets }.graph.generate o).2 = .ok sources' ∧
        sources'.map (·.name) = sources.map (·.name)) ∧
    ((m.targets.Pairwise fun x y => m.compilation.Ties m.targets x y → [x, y].Sublist targets) →
      ({ m with targets := targets }.graph.generate o).2 = (m.graph.generate o).2) := by
  have hrenumbers := LinkGraph.renumbers_ofTargets (c := m.compilation) (s := m.schematic)
    hdistinct hperm
  have hfailure := hrenumbers.failure_visit LinkGraph.grounded_ofTargets
    LinkGraph.grounded_ofTargets
  obtain ⟨herrors, hnames⟩ := LinkGraph.generate_alike hperm hfailure o
  exact ⟨herrors, hnames, fun hties => LinkGraph.generate_eq_of_ties hdistinct hperm hties o⟩

def channelTarget (name : String) : Target where
  actor := s!"Discord.I{name}ChannelActor"
  entity := "Discord.IChannel"
  id := "ulong"
  model := "Discord.Models.IChannelModel"

/-- A text channel is a guild channel and a message channel, and each of these has a name of its
own for relationships. -/
def channelTypes : List TypeSymbol :=
  let named (name : String) : Attribute :=
    { className := "Discord.RelationshipNameAttribute", arguments := [.primitive name] }
  [{ name := "Discord.IGuildChannelActor", kind := .interface, attributes := [named "Guild"] },
   { name := "Discord.IMessageChannelActor", kind := .interface, attributes := [named "Message"] },
   { name := "Discord.ITextChannelActor"
     kind := .interface
     interfaces := ["Discord.IGuildChannelActor", "Discord.IMessageChannelActor"] }]

def channels (names : List String) : Manifest where
  schematic := { root := { symbol := "Discord.ILinkType" } }
  targets := names.map channelTarget
  types := channelTypes

theorem supertypes_channels :
    ((Compilation.ofTypes channelTypes).supertypes (channelTarget "Text").actor).toList
      = ["Discord.IGuildChannelActor", "Discord.IMessageChannelActor"] ∧
    ((Compilation.ofTypes channelTypes).supertypes (channelTarget "Guild").actor).size = 0 ∧
    ((Compilation.ofTypes channelTypes).supertypes (channelTarget "Message").actor).size = 0 := by
  refine ⟨?_, ?_, ?_⟩ <;> cbv

/-- A guild channel and a message channel are equally near to a text channel, and nothing else is
tied. -/
theorem generate_perm_channels : ((channels ["Text", "Guild", "Message"]).graph.generate {}).2
    = ((channels ["Guild", "Message", "Text"]).graph.generate {}).2 := by
  obtain ⟨htext, hguild, hmessage⟩ := supertypes_channels
  have hsize : ((Compilation.ofTypes channelTypes).supertypes (channelTarget "Text").actor).size
      = 2 := congrArg List.length htext
  have hperm : (["Text", "Guild", "Message"].map channelTarget).Perm
      (channels ["Guild", "Message", "Text"]).targets := by decide +kernel
  refine (generate_perm _ hperm (by decide +kernel) {}).2.2 (.cons ?_ (.cons ?_ (.cons ?_ .nil)))
  · rintro t ht htie
    rcases List.mem_cons.mp ht with rfl | ht
    · decide +kernel
    · obtain rfl := List.mem_singleton.mp ht
      exact absurd (hguild.symm.trans (htie.1.trans hsize)) (by decide)
  · rintro t ht htie
    obtain rfl := List.mem_singleton.mp ht
    exact absurd (hmessage.symm.trans (htie.1.trans hsize)) (by decide)
  · exact fun t ht => absurd ht List.not_mem_nil

/-- The equally near ancestors stand in the order of their ids. -/
theorem ancestors_channels {g : LinkGraph} {a b i : NodeId}
    (hcompilation : g.compilation = .ofTypes channelTypes)
    (hgraph : g.actor? "Discord.IGuildChannelActor" = some a ∧
      g.actor? "Discord.IMessageChannelActor" = some b ∧ g.target a = channelTarget "Guild" ∧
      g.target b = channelTarget "Message" ∧ g.target i = channelTarget "Text") :
    g.ancestors i = ([(0, a), (0, b)].mergeSort LinkGraph.isNearer).map Prod.snd := by
  obtain ⟨ha, hb, hguild, hmessage, htext⟩ := hgraph
  obtain ⟨hsupertypes, hnone, hnone'⟩ := supertypes_channels
  have hcount : g.supertypeCount a = 0 ∧ g.supertypeCount b = 0 := by
    rw [LinkGraph.supertypeCount, LinkGraph.supertypeCount, hcompilation, hguild, hmessage]
    exact ⟨hnone, hnone'⟩
  have hactors : g.supertypeActors i
      = ([(0, a), (0, b)].mergeSort LinkGraph.isNearer).map Prod.snd := by
    rw [LinkGraph.supertypeActors, hcompilation, htext, hsupertypes]
    simp only [List.filterMap_cons, List.filterMap_nil, ha, hb, List.map_cons, List.map_nil,
      hcount.1, hcount.2]
  rw [LinkGraph.ancestors, hactors, htext]
  refine List.filter_eq_self.mpr fun n hn => ?_
  obtain ⟨e, he, rfl⟩ := List.mem_map.mp hn
  rcases List.mem_pair.mp (List.mem_mergeSort.mp he) with rfl | rfl
  · rw [hguild]
    rfl
  · rw [hmessage]
    rfl

/-- Whichever ancestor's target stands first is the first in the tree view of the text channel. -/
theorem exists_channel_source (first second : String)
    (h : (first, second) = ("Guild", "Message") ∨ (first, second) = ("Message", "Guild")) :
    ∃ sources tail, ((channels [first, second, "Text"]).graph.generate {}).2 = .ok sources ∧
      (sources.map (·.name)).Nodup ∧
      ⟨"Discord.ITextChannelActor",
        LinkGraph.sourceHead (.ofTypes channelTypes) {} "Discord.ITextChannelActor"
          ++ (LinkGraph.treeTextHead {} (channelTarget "Text")
            ++ ("// " ++ ("  - " ++ ((channelTarget first).actor ++ tail))))⟩ ∈ sources := by
  obtain ⟨hquiet, hactor, hsymbol, hfirst, htext⟩ :
      (0 < (channels [first, second, "Text"]).graph.arena.size ∧
        ∀ i < (channels [first, second, "Text"]).graph.arena.size,
          (channels [first, second, "Text"]).graph.complaint? i = none) ∧
      (channels [first, second, "Text"]).graph.actor? "Discord.ITextChannelActor" = some 4 ∧
      (channels [first, second, "Text"]).graph.actorSymbol? 4 = channelTypes[2]? ∧
      (channels [first, second, "Text"]).graph.target 0 = channelTarget first ∧
      (channels [first, second, "Text"]).graph.target 4 = channelTarget "Text" := by
    rcases h with h | h <;> cases h <;> decide +kernel
  have hdistinct : (LinkGraph.sourceNames (channels [first, second, "Text"]).targets).Nodup := by
    rcases h with h | h <;> cases h <;> decide +kernel
  have hancestors : (channels [first, second, "Text"]).graph.ancestors 4 = [0, 2] := by
    have hcompilation : (channels [first, second, "Text"]).graph.compilation
        = .ofTypes channelTypes := LinkGraph.grounded_ofTargets.compilation_eq
    rcases h with h | h <;> cases h
    · rw [@ancestors_channels _ 0 2 4 hcompilation (by decide +kernel)]
      cbv
    · rw [@ancestors_channels _ 2 0 4 hcompilation (by decide +kernel)]
      cbv
  obtain ⟨sources, tail, hsources, hnames, hmem⟩ := LinkGraph.exists_headed_source (o := {})
    (LinkGraph.visited_of_quiet hquiet).1 hactor hsymbol rfl rfl
  obtain ⟨rest, hrest⟩ := LinkGraph.exists_treeText_eq hancestors {}
  refine ⟨sources, rest ++ tail, hsources, hnames ▸ hdistinct, ?_⟩
  rw [hfirst, htext] at hrest
  have htree : (channels [first, second, "Text"]).graph.treeText {} 4 ++ tail
      = LinkGraph.treeTextHead {} (channelTarget "Text")
        ++ ("// " ++ ("  - " ++ ((channelTarget first).actor ++ (rest ++ tail)))) := by
    simp only [hrest, String.append_assoc]
  exact htree ▸ hmem

theorem generate_swapped_channels :
    (channels ["Message", "Guild", "Text"]).targets.Perm
      (channels ["Guild", "Message", "Text"]).targets ∧
    ((channels ["Guild", "Message", "Text"]).targets.map (·.actor)).Nodup ∧
    ((channels ["Message", "Guild", "Text"]).graph.generate {}).2
      ≠ ((channels ["Guild", "Message", "Text"]).graph.generate {}).2 := by
  refine ⟨by decide +kernel, by decide +kernel, fun heq => ?_⟩
  obtain ⟨sources, tail, hsources, hnames, hmem⟩ :=
    exists_channel_source "Guild" "Message" (.inl rfl)
  obtain ⟨sources', tail', hsources', _, hmem'⟩ :=
    exists_channel_source "Message" "Guild" (.inr rfl)
  obtain rfl : sources' = sources := Except.ok.inj (hsources'.symm.trans (heq.trans hsources))
  have htexts := congrArg Source.text (List.inj_on_of_nodup_map hnames hmem hmem' rfl)
  simp only [String.append_right_inj] at htexts
  have hactors : (channelTarget "Guild").actor.toList
      <+: (channelTarget "Message").actor.toList ++ tail'.toList :=
    ⟨tail.toList, by rw [← String.toList_append, htexts, String.toList_append]⟩
  rcases List.prefix_or_prefix_of_prefix hactors (List.prefix_append _ _) with hle | hle
  · exact absurd hle (by decide +kernel)
  · exact absurd hle (by decide +kernel)

end Manifest

end ActorLinks
