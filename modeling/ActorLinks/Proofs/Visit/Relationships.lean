import ActorLinks.Proofs.Visit.Selections
import Mathlib.Data.List.Nodup

/-! # Related actors

The actors related to an actor are searched for call by call: an actor under a new name is entered
at once, before the interfaces that are left are worked through. The search comes to an end on every
graph. What it finds is kept under its own names, each actor once, and is closed under the canonical
relationships of the actors that were entered.
-/
namespace ActorLinks.LinkGraph
variable {g : LinkGraph} {actor n : NodeId} {found result : Dict (List NodeId)}
  {interfaces : List String}

/-- One call of the search, with what is found before it, the interfaces that it follows, and what
is found after it. -/
inductive Search (g : LinkGraph) (actor : NodeId) :
    Dict (List NodeId) → List String → Dict (List NodeId) → Prop
  | finished {found : Dict (List NodeId)} : Search g actor found [] found
  | passed {found result : Dict (List NodeId)} {interface : String} {rest : List String} :
    (∀ n, g.canonicallyRelated? interface = some n → n = actor) →
    Search g actor found rest result → Search g actor found (interface :: rest) result
  | added {found result : Dict (List NodeId)} {interface : String} {rest : List String}
      {n : NodeId} :
    g.canonicallyRelated? interface = some n → n ≠ actor → g.relationshipName n ∈ found.keys →
    Search g actor (addRelated found (g.relationshipName n) n) rest result →
    Search g actor found (interface :: rest) result
  | entered {found inner result : Dict (List NodeId)} {interface : String} {rest : List String}
      {n : NodeId} :
    g.canonicallyRelated? interface = some n → n ≠ actor → g.relationshipName n ∉ found.keys →
    Search g actor (found.insert (g.relationshipName n) [n]) (g.interfacesOf n) inner →
    Search g actor inner rest result → Search g actor found (interface :: rest) result

namespace Search

/-- A call goes through the first interfaces and then through the others. -/
theorem exists_of_append {before after : List String}
    (h : g.Search actor found (before ++ after) result) :
    ∃ middle, g.Search actor found before middle ∧ g.Search actor middle after result := by
  induction before generalizing found with
  | nil => exact ⟨found, .finished, h⟩
  | cons interface before ih =>
    cases h with
    | passed hpass hrest =>
      obtain ⟨middle, hbefore, hafter⟩ := ih hrest
      exact ⟨middle, .passed hpass hbefore, hafter⟩
    | added hrel hne hname hrest =>
      obtain ⟨middle, hbefore, hafter⟩ := ih hrest
      exact ⟨middle, .added hrel hne hname hbefore, hafter⟩
    | entered hrel hne hname hinner hrest =>
      obtain ⟨middle, hbefore, hafter⟩ := ih hrest
      exact ⟨middle, .entered hrel hne hname hinner hbefore, hafter⟩

/-- The calls are made by working through one list, to which the entered interfaces are put in
front. -/
theorem of_collectRelated (g : LinkGraph) (actor : NodeId) (found : Dict (List NodeId))
    (interfaces : List String) :
    g.Search actor found interfaces (g.collectRelated actor found interfaces) := by
  fun_induction g.collectRelated actor found interfaces with
  | case1 found => exact .finished
  | case2 found interface rest hrel ih =>
    refine .passed (fun n hn => ?_) ih
    rw [hrel] at hn
    cases hn
  | case3 found interface rest hrel ih =>
    exact .passed (fun n hn => Option.some.inj (hn.symm.trans hrel)) ih
  | case4 found interface rest n hrel hne hname ih => exact .added hrel hne hname ih
  | case5 found interface rest n hrel hne hname ih =>
    obtain ⟨inner, hinner, hrest⟩ := ih.exists_of_append
    exact .entered hrel hne hname hinner hrest

theorem unique {other : Dict (List NodeId)} (h : g.Search actor found interfaces result)
    (h' : g.Search actor found interfaces other) : other = result := by
  -- the state tells which rule applies, so that the two searches take the same steps
  induction h generalizing other with
  | finished =>
    cases h'
    rfl
  | passed hpass _ ih =>
    cases h' with
    | passed _ hrest => exact ih hrest
    | added hrel hne => exact absurd (hpass _ hrel) hne
    | entered hrel hne => exact absurd (hpass _ hrel) hne
  | added hrel hne hname _ ih =>
    cases h' with
    | passed hpass => exact absurd (hpass _ hrel) hne
    | added hrel' _ _ hrest =>
      obtain rfl := Option.some.inj (hrel.symm.trans hrel')
      exact ih hrest
    | entered hrel' _ hname' =>
      obtain rfl := Option.some.inj (hrel.symm.trans hrel')
      exact absurd hname hname'
  | entered hrel hne hname _ _ ihinner ihrest =>
    cases h' with
    | passed hpass => exact absurd (hpass _ hrel) hne
    | added hrel' _ hname' =>
      obtain rfl := Option.some.inj (hrel.symm.trans hrel')
      exact absurd hname' hname
    | entered hrel' _ _ hinner hrest =>
      obtain rfl := Option.some.inj (hrel.symm.trans hrel')
      obtain rfl := ihinner hinner
      exact ihrest hrest

/-- No list holds an actor twice, if none did before the call. -/
theorem nodup (h : g.Search actor found interfaces result)
    (hfound : ∀ key nodes, found.get? key = some nodes → nodes.Nodup) :
    ∀ key nodes, result.get? key = some nodes → nodes.Nodup := by
  induction h with
  | finished => exact hfound
  | passed _ _ ih => exact ih hfound
  | @added found _ _ _ n _ _ _ _ ih =>
    refine ih fun key nodes hget => ?_
    rw [get?_addRelated] at hget
    split at hget
    · next hkey =>
      obtain ⟨rfl, hn⟩ := hkey
      cases hget
      refine List.nodup_append_comm.mp (List.nodup_cons.mpr ⟨hn, ?_⟩)
      cases hold : found.get? (g.relationshipName n) with
      | none => exact List.nodup_nil
      | some nodes => exact hfound _ nodes hold
    · exact hfound key nodes hget
  | entered _ _ _ _ _ ihinner ihrest =>
    refine ihrest (ihinner fun key nodes hget => ?_)
    rw [Dict.get?_insert] at hget
    split at hget
    · cases hget
      exact List.nodup_singleton _
    · exact hfound key nodes hget

/-- What leads from followed interfaces to actors, and from these to their interfaces, holds of all
that is found. -/
theorem forall_found {P : NodeId → Prop} {Q : String → Prop}
    (hP : ∀ interface n, Q interface → g.canonicallyRelated? interface = some n → P n)
    (hQ : ∀ n, P n → ∀ interface ∈ g.interfacesOf n, Q interface)
    (h : g.Search actor found interfaces result) (hinterfaces : ∀ i ∈ interfaces, Q i)
    (hfound : ∀ n, FoundIn found n → P n) : ∀ n, FoundIn result n → P n := by
  induction h with
  | finished => exact hfound
  | passed _ _ ih => exact ih (List.forall_mem_cons.mp hinterfaces).2 hfound
  | added hrel _ _ _ ih =>
    obtain ⟨hfirst, hrest⟩ := List.forall_mem_cons.mp hinterfaces
    refine ih hrest fun m hm => ?_
    rcases foundIn_addRelated.mp hm with hm | rfl
    · exact hfound m hm
    · exact hP _ m hfirst hrel
  | @entered _ _ _ _ _ n hrel _ hname _ _ ihinner ihrest =>
    obtain ⟨hfirst, hrest⟩ := List.forall_mem_cons.mp hinterfaces
    have hn : P n := hP _ n hfirst hrel
    refine ihrest hrest (ihinner (hQ n hn) fun m hm => ?_)
    rcases (foundIn_insert hname).mp hm with hm | rfl
    · exact hfound m hm
    · exact hn

end Search

/-- The interfaces of the core actor, if it is declared. -/
def coreInterfaces (g : LinkGraph) (actor : NodeId) : List String :=
  match g.compilation.type? (g.target actor).coreActor with
  | some core => core.interfaces
  | none => []

theorem additionalRelationships_eq_collectRelated (g : LinkGraph) (actor : NodeId) :
    g.additionalRelationships actor = g.collectRelated actor ∅ (g.coreInterfaces actor) := by
  cases hcore : g.compilation.type? (g.target actor).coreActor with
  | none => simp only [additionalRelationships, coreInterfaces, hcore, collectRelated]
  | some core => simp only [additionalRelationships, coreInterfaces, hcore]

/-- Some of the interfaces is the canonical relationship of the actor. -/
def Relates (g : LinkGraph) (interfaces : List String) (n : NodeId) : Prop :=
  ∃ core, core ++ ".CanonicalRelationship" ∈ interfaces ∧ g.actorByCore? core = some n

/-- The actor is reached through canonical relationships, first of the core actor and then of one
actor after the other. -/
inductive ReachedFrom (g : LinkGraph) (actor : NodeId) : NodeId → Prop
  | start {n : NodeId} : g.Relates (g.coreInterfaces actor) n → ReachedFrom g actor n
  | step {m n : NodeId} : ReachedFrom g actor m → g.Relates (g.interfacesOf m) n →
    ReachedFrom g actor n

theorem canonicallyRelated?_eq_some_iff {interface : String} :
    g.canonicallyRelated? interface = some n ↔
      ∃ core, interface = core ++ ".CanonicalRelationship" ∧ g.actorByCore? core = some n := by
  simp only [canonicallyRelated?, Option.bind_eq_some_iff, Text.stripSuffix?_eq_some]

theorem reachedFrom_of_foundIn (hn : FoundIn (g.additionalRelationships actor) n) :
    g.ReachedFrom actor n := by
  rw [additionalRelationships_eq_collectRelated] at hn
  refine Search.forall_found
    (Q := fun i => i ∈ g.coreInterfaces actor ∨ ∃ m, g.ReachedFrom actor m ∧ i ∈ g.interfacesOf m)
    (fun interface m hinterface hrel => ?_) (fun m hm i hi => Or.inr ⟨m, hm, hi⟩)
    (.of_collectRelated g actor ∅ _) (fun i hi => Or.inl hi) ?_ n hn
  · obtain ⟨core, rfl, hcore⟩ := canonicallyRelated?_eq_some_iff.mp hrel
    rcases hinterface with hstart | ⟨k, hk, hinterface⟩
    · exact .start ⟨core, hstart, hcore⟩
    · exact .step hk ⟨core, hinterface, hcore⟩
  · rintro m ⟨_, _, hget, _⟩
    cases hget

/-- No actor is listed twice, be it under one name or under two. -/
theorem nodup_additionalRelationships (g : LinkGraph) (actor : NodeId) :
    ((g.additionalRelationships actor).entries.flatMap Prod.snd).Nodup := by
  refine List.nodup_flatMap.mpr ⟨fun e he => ?_, ?_⟩
  · refine Search.nodup (.of_collectRelated g actor ∅ (g.coreInterfaces actor))
      (fun _ _ hget => nomatch hget) e.1 e.2 ?_
    rw [← additionalRelationships_eq_collectRelated]
    exact Dict.mem_entries_iff.mp he
  · have hkeys := List.pairwise_map.mp (g.additionalRelationships actor).ascending
    refine hkeys.imp_of_mem fun {e f} he hf hlt n hn hn' => ?_
    have hnames := g.namesRelated_additionalRelationships actor
    have heq := (hnames e.1 e.2 (Dict.mem_entries_iff.mp he) n hn).2.symm.trans
      (hnames f.1 f.2 (Dict.mem_entries_iff.mp hf) n hn').2
    rw [heq] at hlt
    exact String.lt_irrefl _ hlt

theorem foundIn_of_relates (hne : n ≠ actor) (hn : g.Relates (g.coreInterfaces actor) n ∨
    ∃ key m nodes, (g.additionalRelationships actor).get? key = some (m :: nodes) ∧
      g.Relates (g.interfacesOf m) n) : FoundIn (g.additionalRelationships actor) n := by
  refine foundIn_additionalRelationships_iff.mpr ⟨hne, ?_⟩
  rcases hn with ⟨core, hmem, hcore⟩ | ⟨key, m, nodes, hget, core, hmem, hcore⟩
  · refine ⟨_, Or.inl ?_, canonicallyRelated?_eq_some_iff.mpr ⟨core, rfl, hcore⟩⟩
    unfold coreInterfaces at hmem
    split at hmem
    · next symbol hsymbol => exact ⟨symbol, hsymbol, hmem⟩
    · cases hmem
  · exact ⟨_, Or.inr ⟨key, m, nodes, hget, hmem⟩,
      canonicallyRelated?_eq_some_iff.mpr ⟨core, rfl, hcore⟩⟩

/-- The search for related actors ends, and with one result. Each actor there is another one, has
the name that it is kept under, is reached through canonical relationships, and is there once; and
no other actor is missing to which the core actor or the first actor under some name is related. -/
theorem related_actors_complete (g : LinkGraph) (actor : NodeId) :
    (∀ result, g.Search actor ∅ (g.coreInterfaces actor) result ↔
      result = g.additionalRelationships actor) ∧
    (∀ key nodes, (g.additionalRelationships actor).get? key = some nodes →
      ∀ n ∈ nodes, g.relationshipName n = key ∧ n ≠ actor ∧ g.ReachedFrom actor n) ∧
    ((g.additionalRelationships actor).entries.flatMap Prod.snd).Nodup ∧
    ∀ n, n ≠ actor →
      (g.Relates (g.coreInterfaces actor) n ∨
        ∃ key m nodes, (g.additionalRelationships actor).get? key = some (m :: nodes) ∧
          g.Relates (g.interfacesOf m) n) →
      FoundIn (g.additionalRelationships actor) n := by
  refine ⟨fun result => ?_, fun key nodes hget n hn => ⟨?_, ?_, ?_⟩,
    g.nodup_additionalRelationships actor, fun n hne hn => foundIn_of_relates hne hn⟩
  · have hsearch := Search.of_collectRelated g actor ∅ (g.coreInterfaces actor)
    rw [← additionalRelationships_eq_collectRelated] at hsearch
    exact ⟨hsearch.unique, fun heq => heq ▸ hsearch⟩
  · exact (g.namesRelated_additionalRelationships actor key nodes hget n hn).2
  · exact ne_of_mem_additionalRelationships hget hn
  · exact reachedFrom_of_foundIn ⟨key, nodes, hget, hn⟩

/-- A thread and a channel that have the canonical relationship of each other. -/
def crossedTypes : Compilation := .ofTypes
  [{ name := "Discord.IChannelActor"
     kind := .interface
     interfaces := ["Discord.IThreadActor.CanonicalRelationship"] },
   { name := "Discord.IThreadActor"
     kind := .interface
     interfaces := ["Discord.IChannelActor.CanonicalRelationship"] }]

def crossedGraph : LinkGraph :=
  ofTargets crossedTypes ⟨⟨"Discord.ILinkType", [], [], []⟩⟩ (["Channel", "Thread"].map fun name =>
    { actor := s!"Discord.I{name}Actor", entity := s!"Discord.I{name}", id := "ulong"
      model := s!"Discord.Models.I{name}Model" })

/-- The thread, which is node 2, finds the channel and does not come back to itself. -/
theorem related_actors_complete_crossed : crossedGraph.Relates (crossedGraph.coreInterfaces 2) 0 ∧
    FoundIn (crossedGraph.additionalRelationships 2) 0 ∧
    crossedGraph.Relates (crossedGraph.interfacesOf 0) 2 ∧
    ¬ FoundIn (crossedGraph.additionalRelationships 2) 2 := by
  obtain ⟨_, hlisted, _, hcomplete⟩ := related_actors_complete crossedGraph 2
  have hinterfaces :
      "Discord.IChannelActor" ++ ".CanonicalRelationship" ∈ crossedGraph.coreInterfaces 2 ∧
      crossedGraph.actorByCore? "Discord.IChannelActor" = some 0 ∧
      "Discord.IThreadActor" ++ ".CanonicalRelationship" ∈ crossedGraph.interfacesOf 0 ∧
      crossedGraph.actorByCore? "Discord.IThreadActor" = some 2 := by
    decide +kernel
  obtain ⟨hchannel, hchannel', hthread, hthread'⟩ := hinterfaces
  refine ⟨⟨_, hchannel, hchannel'⟩, hcomplete 0 (by decide) (Or.inl ⟨_, hchannel, hchannel'⟩),
    ⟨_, hthread, hthread'⟩, ?_⟩
  rintro ⟨key, nodes, hget, hn⟩
  exact (hlisted key nodes hget 2 hn).2.1 rfl

end ActorLinks.LinkGraph
