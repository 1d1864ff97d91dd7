import ActorLinks.Proofs.Build.Total
import ActorLinks.Source

/-! # Generations

A generation fails for one reason only: some target that is kept has a core actor whose
hierarchy lists something that is no type. Then no later generation and no build succeeds. Any
other generation makes one source for each actor and, if there are any, one for the aliases.
-/
namespace ActorLinks

namespace LinkGraph
variable {c : Compilation} {s : Schematic} {targets : List Target} {g : LinkGraph}

theorem Grounded.keys_eq (h : Grounded c s targets g) :
    g.actors.keys = (SortedSet.ofList (targets.map (·.actor))).toList := by
  refine eq_of_mem_iff g.actors.ascending (SortedSet.ascending _) fun name => ?_
  rw [← SortedSet.mem_iff, SortedSet.mem_ofList, List.mem_map]
  constructor
  · intro hname
    have hkept := h.kept name
    obtain ⟨⟨_, i⟩, hmem, rfl⟩ := List.mem_map.mp hname
    rw [actor?, Dict.mem_entries_iff.mp hmem, Option.map_some] at hkept
    exact ⟨_, List.mem_of_find?_eq_some hkept.symm, by simpa using List.find?_some hkept.symm⟩
  · rintro ⟨t, ht, rfl⟩
    obtain ⟨i, hi⟩ := h.exists_actor ht
    exact List.mem_map.mpr ⟨(t.actor, i), Dict.mem_entries_iff.mpr hi, rfl⟩

theorem Complete.build_eq (h : g.Complete) (treeView : Bool) : g.build treeView
    = g.actors.entries.mapM fun e => (g.buildActor e.2 treeView).map fun d => (e.1, d) := by
  have hready : ¬ (!g.isVisited && decide (g.arena.size ≠ 0)) = true := by
    rw [Bool.and_eq_true, Bool.not_eq_true', Bool.eq_false_iff, decide_eq_true_iff, ne_eq,
      h.isVisited_iff, Nat.pos_iff_ne_zero]
    exact fun hne => hne.1 hne.2
  rw [build, if_neg hready]

/-- A complete graph is built of the declarations of its actors. -/
theorem Complete.mem_built_iff (h : g.Complete) {treeView : Bool} {built : List (String × TypeDecl)}
    (hbuilt : g.build treeView = .ok built) {name : String} {decl : TypeDecl} :
    (name, decl) ∈ built ↔ ∃ i, g.actor? name = some i ∧ g.buildActor i treeView = .ok decl := by
  rw [h.build_eq] at hbuilt
  rw [Failure.mem_mapM_iff hbuilt]
  constructor
  · rintro ⟨⟨actor, i⟩, hi, hentry⟩
    obtain ⟨d, hd, heq⟩ := Failure.map_eq_ok_iff.mp hentry
    cases heq
    exact ⟨i, Dict.mem_entries_iff.mp hi, hd⟩
  · rintro ⟨i, hi, hdecl⟩
    exact ⟨(name, i), Dict.mem_entries_iff.mpr hi, Failure.map_eq_ok_iff.mpr ⟨decl, hdecl, rfl⟩⟩

theorem Complete.exists_build (h : g.Complete) (hg : Grounded c s targets g) (treeView : Bool) :
    ∃ built, g.build treeView = .ok built ∧ built.map Prod.fst = g.actors.keys := by
  have hbuilds : ∀ e ∈ g.actors.entries,
      ∃ b, (g.buildActor e.2 treeView).map (fun d => (e.1, d)) = .ok b := by
    intro e he
    obtain ⟨hp, hshows⟩ := hg.root_of_actor (Dict.mem_entries_iff.mp he)
    obtain ⟨decl, hdecl⟩ := h.exists_buildActor hshows.lt_size hp treeView
    exact ⟨(e.1, decl), by rw [hdecl, Except.map]⟩
  obtain ⟨built, hbuilt⟩ := Failure.exists_mapM hbuilds
  refine ⟨built, by rw [h.build_eq, hbuilt], Failure.map_of_mapM (fun e b hb => ?_) hbuilt⟩
  obtain ⟨decl, _, rfl⟩ := Failure.map_eq_ok_iff.mp hb
  rfl

theorem Grounded.names_aliasSources (h : Grounded c s targets g) :
    g.aliasSources.map (·.name) = if targets.isEmpty then [] else ["LinkAliases"] := by
  have hentries : g.actors.entries = [] ↔ targets = [] := by
    have hkeys := h.keys_eq
    constructor
    · intro hnil
      cases targets with
      | nil => rfl
      | cons t ts =>
        have hmem : t.actor ∈ g.actors.keys := by
          rw [hkeys, ← SortedSet.mem_iff, SortedSet.mem_ofList]
          exact List.mem_cons_self
        simp [Dict.keys, hnil] at hmem
    · rintro rfl
      exact List.map_eq_nil_iff.mp hkeys
  have hempty : g.targets.isEmpty = targets.isEmpty := by
    rw [Bool.eq_iff_iff, List.isEmpty_iff, List.isEmpty_iff, ← hentries]
    simp [LinkGraph.targets, roots, Dict.values]
  rw [aliasSources, hempty]
  split
  · rfl
  · rfl

/-- The names of the sources that are made for targets. -/
def sourceNames (targets : List Target) : List String :=
  (SortedSet.ofList (targets.map (·.actor))).toList
    ++ if targets.isEmpty then [] else ["LinkAliases"]

theorem sourceNames_perm {others : List Target} (h : others.Perm targets) :
    sourceNames others = sourceNames targets := by
  have hnames : SortedSet.ofList (others.map (·.actor)) = .ofList (targets.map (·.actor)) := by
    refine SortedSet.ext fun name => ?_
    rw [SortedSet.mem_ofList, SortedSet.mem_ofList, (h.map _).mem_iff]
  rw [sourceNames, sourceNames, hnames, h.isEmpty_eq]

theorem Complete.exists_sources (h : g.Complete) (hg : Grounded c s targets g)
    (o : Config.Output) :
    ∃ sources, g.sources o = .ok sources ∧ sources.map (·.name) = sourceNames targets := by
  obtain ⟨built, hbuilt, hnames⟩ := h.exists_build hg o.emitTreeView
  refine ⟨_, by rw [LinkGraph.sources, hbuilt]; rfl, ?_⟩
  rw [sourceNames, ← hg.keys_eq, ← hnames, ← hg.names_aliasSources, List.map_append, List.map_map]
  rfl

section
variable (hv : Visits (ofTargets c s targets) g)
include hv

theorem Visits.visitOnce : Visits (ofTargets c s targets) g.visitOnce.1 := by
  unfold LinkGraph.visitOnce
  split
  · exact hv
  · exact hv.again

theorem Visits.generate (o : Config.Output) :
    Visits (ofTargets c s targets) (g.generate o).1 := by
  have hnext := hv.visitOnce
  unfold LinkGraph.generate
  split
  · next g' e he => rwa [he] at hnext
  · next g' he => rwa [he] at hnext

/-- Where the first visit fails, generations go on to fail with the same failure, and there is
nothing to be built. -/
theorem Visits.generate_eq_error {e : Failure} (he : (ofTargets c s targets).visit.2 = some e)
    (o : Config.Output) : (g.generate o).2 = .error e := by
  have honce : g.visitOnce = (g.visit.1, some e) := by
    rw [LinkGraph.visitOnce, hv.isVisited_eq_false he, ← he, ← hv.failure_visit]
    rfl
  rw [LinkGraph.generate, honce]

theorem Visits.build_fails {e : Failure} (he : (ofTargets c s targets).visit.2 = some e)
    (treeView : Bool) : ∃ e', g.build treeView = .error e' := by
  have hsize : g.arena.size ≠ 0 := by
    have hfound := he
    rw [← hv.failure_visit, hv.grounded.failure_visit] at hfound
    obtain ⟨i, hi, _⟩ := List.exists_of_findSome?_eq_some hfound
    exact Nat.ne_zero_of_lt (hv.grounded.mem_visitList_iff.mp hi)
  refine ⟨.emission "link graph has not been visited", ?_⟩
  rw [build, hv.isVisited_eq_false he, if_pos (by simpa using hsize)]

/-- Where the first visit succeeds, so does each visit, and what is generated is made of a complete
graph. -/
theorem Visits.generate_eq_sources (hok : (ofTargets c s targets).visit.2 = none)
    (o : Config.Output) :
    (g.generate o).1.Complete ∧ (g.generate o).2 = (g.generate o).1.sources o := by
  have honce : g.visitOnce.2 = none ∧ g.visitOnce.1.Complete := by
    unfold LinkGraph.visitOnce
    split
    · next hvisited => exact ⟨rfl, hv.complete_of_isVisited hvisited⟩
    · have hnone : g.visit.2 = none := hv.failure_visit.trans hok
      exact ⟨hnone, hv.complete_visit hnone⟩
  rw [LinkGraph.generate, show g.visitOnce = (g.visitOnce.1, none) from Prod.ext rfl honce.1]
  exact ⟨honce.2, rfl⟩

theorem Visits.generate_succeeds (hok : (ofTargets c s targets).visit.2 = none)
    (o : Config.Output) :
    ∃ sources, (g.generate o).2 = .ok sources ∧ sources.map (·.name) = sourceNames targets := by
  obtain ⟨hcomplete, hsources⟩ := hv.generate_eq_sources hok o
  rw [hsources]
  exact hcomplete.exists_sources (hv.generate o).grounded o

theorem Visits.sources_of_generate {o : Config.Output} {sources : List Source}
    (h : (g.generate o).2 = .ok sources) :
    (g.generate o).1.Complete ∧ (g.generate o).1.sources o = .ok sources := by
  cases hvisit : (ofTargets c s targets).visit.2 with
  | none =>
    obtain ⟨hcomplete, hsources⟩ := hv.generate_eq_sources hvisit o
    exact ⟨hcomplete, hsources ▸ h⟩
  | some e =>
    rw [hv.generate_eq_error hvisit o] at h
    cases h

end

section Fresh

theorem isVisited_ofTargets : (ofTargets c s targets).isVisited = false := by
  rw [Bool.eq_false_iff, ne_eq, isVisited_iff]
  rintro ⟨hpos, hall⟩
  obtain ⟨v, hv⟩ := hall 0 hpos
  rw [state?_ofTargets] at hv
  cases hv

theorem generate_ofTargets_of_ok (hok : (ofTargets c s targets).visit.2 = none)
    (o : Config.Output) : ((ofTargets c s targets).generate o).2
      = (ofTargets c s targets).visit.1.sources o := by
  have honce : (ofTargets c s targets).visitOnce = ((ofTargets c s targets).visit.1, none) := by
    rw [visitOnce, isVisited_ofTargets, ← hok]
    rfl
  rw [LinkGraph.generate, honce]

end Fresh

/-- The graph after one generation for each configuration. -/
def generations (g : LinkGraph) (os : List Config.Output) : LinkGraph :=
  os.foldl (fun g o => (g.generate o).1) g

theorem Visits.generations (hv : Visits (ofTargets c s targets) g) (os : List Config.Output) :
    Visits (ofTargets c s targets) (g.generations os) := by
  induction os generalizing g with
  | nil => exact hv
  | cons o os ih => exact ih (hv.generate o)

end LinkGraph

namespace Manifest

/-- The target is the first for its actor, and its core actor is misdeclared. -/
def Misdeclares (m : Manifest) (t : Target) : Prop :=
  LinkGraph.keptTarget? m.targets t.actor = some t ∧ t.Misdeclared m.compilation

/-- A generation fails just where a target is misdeclared, with a schema failure on its core
actor, and then so does whatever follows; otherwise it makes the sources of all actors and one
for the aliases. -/
theorem generate_outcome (m : Manifest) (o : Config.Output) :
    ((∃ e, (m.graph.generate o).2 = .error e) ↔ ∃ t, m.Misdeclares t) ∧
    (∀ e, (m.graph.generate o).2 = .error e →
      (∃ t detail, m.Misdeclares t ∧ e = .schema t.coreActor detail) ∧
      ∀ os : List Config.Output,
        (∀ o', ((m.graph.generations (o :: os)).generate o').2 = .error e) ∧
        ∀ treeView, ∃ e', (m.graph.generations (o :: os)).build treeView = .error e') ∧
    ∀ sources, (m.graph.generate o).2 = .ok sources →
      sources.map (·.name) = (SortedSet.ofList (m.targets.map (·.actor))).toList
        ++ if m.targets.isEmpty then [] else ["LinkAliases"] := by
  have hstart : m.graph.Visits m.graph := .refl
  have hground : LinkGraph.Grounded m.compilation m.schematic m.targets m.graph :=
    LinkGraph.grounded_ofTargets
  have hfails := hground.visit_fails_iff
  cases hvisit : m.graph.visit.2 with
  | some e =>
    have herror := LinkGraph.Visits.generate_eq_error hstart hvisit o
    refine ⟨⟨fun _ => hfails.mp ⟨e, hvisit⟩, fun _ => ⟨e, herror⟩⟩, ?_, ?_⟩
    · intro e' he'
      obtain rfl : e = e' := Except.error.inj (herror.symm.trans he')
      refine ⟨?_, fun os => ?_⟩
      · rw [hground.failure_visit] at hvisit
        obtain ⟨i, hi, hcomplaint⟩ := List.exists_of_findSome?_eq_some hvisit
        obtain ⟨t, detail, ht, hm, he⟩ :=
          hground.misdeclared_of_complaint (hground.mem_visitList_iff.mp hi) hcomplaint
        exact ⟨t, detail, ⟨ht, hm⟩, he⟩
      · have hlater := LinkGraph.Visits.generations hstart (o :: os)
        exact ⟨hlater.generate_eq_error hvisit, hlater.build_fails hvisit⟩
    · intro sources hok
      rw [herror] at hok
      cases hok
  | none =>
    obtain ⟨sources, hok, hnames⟩ := LinkGraph.Visits.generate_succeeds hstart hvisit o
    refine ⟨⟨?_, ?_⟩, ?_, ?_⟩
    · rintro ⟨e, he⟩
      rw [hok] at he
      cases he
    · intro hm
      obtain ⟨e, he⟩ := hfails.mpr hm
      rw [hvisit] at he
      cases he
    · intro e he
      rw [hok] at he
      cases he
    · intro sources' hok'
      obtain rfl : sources = sources' := Except.ok.inj (hok.symm.trans hok')
      exact hnames

/-- A hierarchical root that lists a text where types belong. -/
def sampleMisdeclaring : Manifest where
  targets := [LinkGraph.sampleTarget]
  types :=
    [{ name := "Discord.IUserActor"
       attributes :=
        [{ className := "Discord.LinkHierarchicalRootAttribute"
           named := .ofList [("Types", .primitive "IUser")] }] }]

theorem generate_outcome_sample :
    (∃ detail, ∀ os o', ((sampleMisdeclaring.graph.generations ({} :: os)).generate o').2
      = .error (.schema "Discord.IUserActor" detail)) ∧
    ∃ sources, (({ targets := [LinkGraph.sampleTarget] } : Manifest).graph.generate {}).2
        = .ok sources ∧
      sources.map (·.name) = ["Discord.IUserActor", "LinkAliases"] := by
  constructor
  · obtain ⟨hiff, hfails, _⟩ := generate_outcome sampleMisdeclaring {}
    obtain ⟨e, he⟩ := hiff.mpr ⟨LinkGraph.sampleTarget, by decide +kernel,
      { className := "Discord.LinkHierarchicalRootAttribute"
        named := .ofList [("Types", .primitive "IUser")] }, .primitive "IUser",
      by decide +kernel, by decide +kernel, by simp [Constant.ListsTypes]⟩
    obtain ⟨⟨t, detail, ht, rfl⟩, hlater⟩ := hfails e he
    obtain rfl : t = LinkGraph.sampleTarget :=
      List.mem_singleton.mp (List.mem_of_find?_eq_some ht.1)
    exact ⟨detail, fun os => (hlater os).1⟩
  · obtain ⟨hiff, _, hnames⟩ := generate_outcome { targets := [LinkGraph.sampleTarget] } {}
    cases hr : (({ targets := [LinkGraph.sampleTarget] } : Manifest).graph.generate {}).2 with
    | error e =>
      obtain ⟨t, ht, marker, _, hm, _⟩ := hiff.mp ⟨e, hr⟩
      obtain rfl : t = LinkGraph.sampleTarget :=
        List.mem_singleton.mp (List.mem_of_find?_eq_some ht)
      cases hm
    | ok sources =>
      refine ⟨sources, rfl, (hnames sources hr).trans ?_⟩
      decide +kernel

end Manifest

end ActorLinks
