import ActorLinks.Proofs.Build.Explicit
import ActorLinks.Proofs.Decl.Edits
import ActorLinks.Proofs.Visit.Implementations

/-! # One answer to each relationship

A canonical relationship answers for the relationships of the actor, of its ancestors and of the
related actors, and for the entities that several of them share. An actor may be met both as an
ancestor and as a related actor. It is then answered for twice, unless it has a canonical
relationship of its own to be answered for in the second place.
-/
namespace ActorLinks

namespace TypeDecl
variable {d : TypeDecl} {interface : String} {name : MemberName}

/-- The members that answer for the interface under the name. -/
def answers (d : TypeDecl) (interface : String) (name : MemberName) : List Member :=
  d.members.filter fun m => m.interface? = some interface ∧ m.name? = some name

theorem mem_answers {m : Member} : m ∈ d.answers interface name ↔
    m ∈ d.members ∧ m.interface? = some interface ∧ m.name? = some name := by
  rw [answers, List.mem_filter, decide_eq_true_iff]

theorem length_answers_le_one_iff (h : d.members.Nodup) : (d.answers interface name).length ≤ 1 ↔
    ∀ m ∈ d.answers interface name, ∀ n ∈ d.answers interface name, m = n := by
  have hnodup : (d.answers interface name).Nodup := h.filter _
  generalize d.answers interface name = ms at hnodup
  constructor
  · intro hlength m hm n hn
    match ms with
    | [] => cases hm
    | [k] => rw [List.mem_singleton.mp hm, List.mem_singleton.mp hn]
    | _ :: _ :: _ => simp at hlength
  · intro hsame
    match ms with
    | [] => simp
    | [k] => simp
    | k :: l :: ms =>
      refine absurd (hsame k (by simp) l (by simp)) ?_
      rintro rfl
      simp at hnodup

end TypeDecl

namespace LinkGraph
variable {g : LinkGraph} {i : NodeId} {s : ActorState} {as : List NodeId} {m : Member}
  {interface : String} {name : MemberName}

theorem mem_canonicalRelationship : m ∈ (g.canonicalRelationship i s as).members ↔
    m ∈ as.map (g.inheritedRelationship s.relationshipName) ∨
      m ∈ g.sharedEntities (g.target i) (as ++ [i]) ∨
      s.canonicalRelationshipRedefined = true ∧
        (m ∈ redefinedRelationship (g.target i) s.relationshipName ∨
          m ∈ (g.relatedActors s).map (g.relatedRelationship s.relationshipName)) := by
  cases hs : s.canonicalRelationshipRedefined with
  | false => simp [canonicalRelationship, hs]
  | true => simp [canonicalRelationship, hs, or_assoc]

theorem nodup_canonicalRelationship : (g.canonicalRelationship i s as).members.Nodup := by
  simp [canonicalRelationship]

/-- Each entity is shared through an interface of its own. -/
theorem eq_of_mem_sharedEntities {t : Target} {nodes : List NodeId} {n : Member}
    (hm : m ∈ g.sharedEntities t nodes) (hn : n ∈ g.sharedEntities t nodes)
    (h : m.interface? = n.interface?) : m = n := by
  obtain ⟨e, he, hm⟩ := List.mem_filterMap.mp hm
  obtain ⟨f, hf, hn⟩ := List.mem_filterMap.mp hn
  split at hm
  · next first second more hnodes =>
    split at hn
    · next first' second' more' hnodes' =>
      cases hm
      cases hn
      have hkey : e.1 = f.1 := by
        have htext := Option.some.inj h
        simp only [toString, String.append_assoc, String.append_right_inj] at htext
        exact (String.append_left_inj _).mp htext
      have hvalue := (Dict.mem_entries_iff.mp he).symm.trans (hkey ▸ Dict.mem_entries_iff.mp hf)
      rw [hnodes, hnodes'] at hvalue
      cases hvalue
      rw [hkey]
    · cases hn
  · cases hm

/-- What a canonical relationship answers with for the relationship of an actor. -/
inductive AnswersFor (g : LinkGraph) (i : NodeId) (s : ActorState) (as : List NodeId)
    (r : NodeId) : Member → Prop
  | ancestor : r ∈ as → AnswersFor g i s as r (g.inheritedRelationship s.relationshipName r)
  | own : r = i → AnswersFor g i s as r
      (Decl.Property.explicit (g.target i).actor ((g.target i).actor ++ ".Relationship")
        s.relationshipName s.relationshipName)
  | related : s.canonicalRelationshipRedefined = true →
      (g.relationshipName r, r) ∈ g.relatedActors s →
      g.relationshipOwner r = (g.target r).actor ++ ".Relationship" →
      AnswersFor g i s as r
        (g.relatedRelationship s.relationshipName (g.relationshipName r, r))

section Visited
variable {c : Compilation} {sch : Schematic} {targets : List Target}
  (hv : Visits (ofTargets c sch targets) g) (hi : g.ActorAt i s as)
include hv hi

theorem relatedActor_ne {e : String × NodeId} (he : e ∈ g.relatedActors s) : e.2 ≠ i := by
  obtain ⟨nodes, hnodes, hmem⟩ := mem_entries_of_mem_relatedActors he
  rw [(hv.recorded.actorAt_eq hi).2.2] at hnodes
  exact ne_of_mem_additionalRelationships hnodes hmem

theorem ancestor_mem_roots {a : NodeId} (ha : a ∈ as) : a ∈ g.roots ∧ a ≠ i := by
  rw [hv.ancestors_of_actorAt (hi.mem_roots hv) hi] at ha
  obtain ⟨⟨actor, hactor, hroot⟩, _⟩ := mem_ancestors_iff.mp ha
  refine ⟨mem_roots_iff.mpr ⟨actor, hroot⟩, ?_⟩
  rintro rfl
  rw [hv.grounded.target_of_actor hroot] at hactor
  exact (Compilation.mem_supertypes_iff.mp hactor).1 rfl

/-- An answer is one for the relationship of some actor, for the canonical relationship of one that
redefines it, or for an entity. -/
theorem answer_cases (hm : m ∈ (g.canonicalRelationship i s as).answers interface name) :
    (∃ r ∈ g.roots, interface = (g.target r).actor ++ ".Relationship" ∧ g.AnswersFor i s as r m) ∨
    (∃ r ∈ g.roots, interface = (g.target r).actor ++ ".CanonicalRelationship" ∧
      m = g.relatedRelationship s.relationshipName (g.relationshipName r, r)) ∨
    Applied (some interface) ∧ m ∈ g.sharedEntities (g.target i) (as ++ [i]) := by
  obtain ⟨hm, hinterface, hname⟩ := TypeDecl.mem_answers.mp hm
  rcases mem_canonicalRelationship.mp hm with hancestor | hshared | ⟨hredefined, hown | hrelated⟩
  · obtain ⟨a, ha, rfl⟩ := List.mem_map.mp hancestor
    exact Or.inl ⟨a, (ancestor_mem_roots hv hi ha).1, (Option.some.inj hinterface).symm,
      .ancestor ha⟩
  · exact Or.inr (Or.inr ⟨applied_of_offers_sharedEntities
      ⟨m, hshared, hinterface.symm, hname.symm⟩, hshared⟩)
  · simp only [redefinedRelationship, List.mem_cons, List.not_mem_nil, or_false] at hown
    rcases hown with rfl | rfl
    · cases hinterface
    · exact Or.inl ⟨i, hi.mem_roots hv, (Option.some.inj hinterface).symm, .own rfl⟩
  · obtain ⟨⟨key, r⟩, he, rfl⟩ := List.mem_map.mp hrelated
    obtain ⟨hroot, hkey⟩ := related_of_mem_relatedActors hv hi he
    obtain rfl : g.relationshipName r = key := hkey
    have hinterface : interface = g.relationshipOwner r := (Option.some.inj hinterface).symm
    rcases relationshipOwner_eq g r with howner | ⟨howner, _⟩
    · exact Or.inl ⟨r, hroot, hinterface.trans howner, .related hredefined he howner⟩
    · exact Or.inr (Or.inl ⟨r, hroot, hinterface.trans howner, rfl⟩)

/-- Where no ancestor is related under its plain relationship, each actor has one answer. -/
theorem AnswersFor.eq {r : NodeId} {n : Member}
    (happart : s.canonicalRelationshipRedefined = true → ∀ e ∈ g.relatedActors s, e.2 ∈ as →
      g.relationshipOwner e.2 ≠ (g.target e.2).actor ++ ".Relationship")
    (hm : g.AnswersFor i s as r m) (hn : g.AnswersFor i s as r n) : m = n := by
  cases hm with
  | ancestor ha =>
    cases hn with
    | ancestor => rfl
    | own hown => exact absurd hown (ancestor_mem_roots hv hi ha).2
    | related hredefined he howner => exact absurd howner (happart hredefined _ he ha)
  | own hown =>
    cases hn with
    | ancestor ha => exact absurd hown (ancestor_mem_roots hv hi ha).2
    | own => rfl
    | related _ he => exact absurd hown (relatedActor_ne hv hi he)
  | related hredefined he howner =>
    cases hn with
    | ancestor ha => exact absurd howner (happart hredefined _ he ha)
    | own hown => exact absurd hown (relatedActor_ne hv hi he)
    | related => rfl

theorem eq_of_mem_answers {n : Member}
    (happart : s.canonicalRelationshipRedefined = true → ∀ e ∈ g.relatedActors s, e.2 ∈ as →
      g.relationshipOwner e.2 ≠ (g.target e.2).actor ++ ".Relationship")
    (hm : m ∈ (g.canonicalRelationship i s as).answers interface name)
    (hn : n ∈ (g.canonicalRelationship i s as).answers interface name) : m = n := by
  have hplain (actor : String) : ¬ Applied (some (actor ++ ".Relationship")) :=
    not_applied_append (by decide) (by decide)
  have hcanonical (actor : String) : ¬ Applied (some (actor ++ ".CanonicalRelationship")) :=
    not_applied_append (by decide) (by decide)
  have hsame := (TypeDecl.mem_answers.mp hm).2.1.trans (TypeDecl.mem_answers.mp hn).2.1.symm
  rcases answer_cases hv hi hm with ⟨r, hr, rfl, hfor⟩ | ⟨r, hr, rfl, rfl⟩ | ⟨happlied, hshared⟩
  · rcases answer_cases hv hi hn with ⟨r', hr', heq, hfor'⟩ | ⟨_, _, heq, _⟩ | ⟨happlied, _⟩
    · obtain rfl := hv.grounded.eq_of_mem_roots hr hr' ((String.append_left_inj _).mp heq)
      exact hfor.eq hv hi happart hfor'
    · exact absurd heq (relationship_ne_canonicalRelationship _ _)
    · exact absurd happlied (hplain _)
  · rcases answer_cases hv hi hn with ⟨_, _, heq, _⟩ | ⟨r', hr', heq, rfl⟩ | ⟨happlied, _⟩
    · exact absurd heq.symm (relationship_ne_canonicalRelationship _ _)
    · rw [hv.grounded.eq_of_mem_roots hr hr' ((String.append_left_inj _).mp heq)]
    · exact absurd happlied (hcanonical _)
  · rcases answer_cases hv hi hn with ⟨_, _, rfl, _⟩ | ⟨_, _, rfl, _⟩ | ⟨_, hshared'⟩
    · exact absurd happlied (hplain _)
    · exact absurd happlied (hcanonical _)
    · exact eq_of_mem_sharedEntities hshared hshared' hsame

/-- The two answers for an ancestor that is related differ in what they say, so both stand. -/
theorem answers_twice {e : String × NodeId} (hredefined : s.canonicalRelationshipRedefined = true)
    (he : e ∈ g.relatedActors s) (hmem : e.2 ∈ as)
    (howner : g.relationshipOwner e.2 = (g.target e.2).actor ++ ".Relationship") :
    1 < ((g.canonicalRelationship i s as).answers ((g.target e.2).actor ++ ".Relationship")
      (.named e.1)).length := by
  obtain ⟨_, hkey⟩ := related_of_mem_relatedActors hv hi he
  refine Nat.lt_of_not_le fun hle => ?_
  have hinherited : g.inheritedRelationship s.relationshipName e.2 ∈
      (g.canonicalRelationship i s as).answers ((g.target e.2).actor ++ ".Relationship")
        (.named e.1) :=
    TypeDecl.mem_answers.mpr ⟨mem_canonicalRelationship.mpr (Or.inl (List.mem_map_of_mem hmem)),
      rfl, by rw [← hkey]; rfl⟩
  have hrelated : g.relatedRelationship s.relationshipName e ∈
      (g.canonicalRelationship i s as).answers ((g.target e.2).actor ++ ".Relationship")
        (.named e.1) :=
    TypeDecl.mem_answers.mpr ⟨mem_canonicalRelationship.mpr
      (Or.inr (Or.inr ⟨hredefined, Or.inr (List.mem_map_of_mem he)⟩)),
      by rw [← howner]; rfl, rfl⟩
  have hsame := (TypeDecl.length_answers_le_one_iff nodup_canonicalRelationship).mp hle
    _ hinherited _ hrelated
  simp only [inheritedRelationship, relatedRelationship, Decl.Property.explicit,
    Member.leaf.injEq, Decl.Leaf.property.injEq, Decl.Property.mk.injEq,
    Decl.PropertyBody.expression.injEq] at hsame
  have hlength := congrArg String.length hsame.2.2.2.2.2
  simp only [String.length_append] at hlength
  have hdot : ".".length = 1 := by decide
  omega

theorem answers_once_iff :
    (∀ interface name,
      ((g.canonicalRelationship i s as).answers interface name).length ≤ 1) ↔
    (s.canonicalRelationshipRedefined = true → ∀ e ∈ g.relatedActors s, e.2 ∈ as →
      ∃ t, g.actorState? e.2 = some t ∧ t.canonicalRelationshipRedefined = true) := by
  constructor
  · intro honce hredefined e he hmem
    rcases relationshipOwner_eq g e.2 with howner | ⟨_, hstate⟩
    · exact absurd (honce _ _) (Nat.not_le_of_lt (answers_twice hv hi hredefined he hmem howner))
    · exact hstate
  · intro h interface name
    refine (TypeDecl.length_answers_le_one_iff nodup_canonicalRelationship).mpr
      fun m hm n hn => eq_of_mem_answers hv hi (fun hredefined e he hmem howner => ?_) hm hn
    obtain ⟨t, ht, ht'⟩ := h hredefined e he hmem
    refine relationship_ne_canonicalRelationship (g.target e.2).actor (g.target e.2).actor
      (howner.symm.trans ?_)
    simp [relationshipOwner, ht, ht']

end Visited

/-- Inside the types that contain the actor stands its declaration, and in it the canonical
relationship. -/
def HasCanonicalRelationship (g : LinkGraph) (i : NodeId) (decl canonical : TypeDecl) : Prop :=
  canonical.name = "CanonicalRelationship" ∧ ∃ symbol own, g.actorSymbol? i = some symbol ∧
    decl.Contains own ∧ own.name = symbol.declaredName ∧ Member.type canonical ∈ own.members

theorem hasCanonicalRelationship_of_buildActor {decl : TypeDecl} {treeView : Bool}
    (hcore : (g.target i).isCore = true) (h : g.buildActor i treeView = .ok decl) :
    ∃ s as, g.ActorAt i s as ∧
      g.HasCanonicalRelationship i decl (g.canonicalRelationship i s as) := by
  obtain ⟨s, as, symbol, below, hat, hsymbol, _, rfl⟩ := exists_of_buildActor h
  refine ⟨s, as, hat, ?_, symbol, _, hsymbol, contains_wrapInContainers _ _ _, ?_, ?_⟩
  · simp [canonicalRelationship]
  · simp [actorDecl]
  · simp [actorDecl, hcore, relationships]

/-- Two core actors: a thread is a channel, and has the canonical relationship of one. -/
def relatedTypes : Compilation := .ofTypes
  [{ name := "Discord.IChannelActor"
     kind := .interface
     attributes := [{ className := "Discord.RelationshipNameAttribute"
                      arguments := [.primitive "Channel"] }] },
   { name := "Discord.IThreadActor"
     kind := .interface
     interfaces := ["Discord.IChannelActor", "Discord.IChannelActor.CanonicalRelationship"] },
   { name := "Discord.IThread", kind := .interface, interfaces := ["Discord.IChannel"] }]

def relatedGraph : LinkGraph :=
  ofTargets relatedTypes ⟨⟨"Discord.ILinkType", [], [], []⟩⟩
    [{ actor := "Discord.IChannelActor", entity := "Discord.IChannel", id := "ulong"
       model := "Discord.Models.IChannelModel" },
     { actor := "Discord.IThreadActor", entity := "Discord.IThread", id := "ulong"
       model := "Discord.Models.IThreadModel" }]

/-- The channel is node 0, with its back link, and the thread node 2. -/
theorem relatedGraph_actors :
    (0 < relatedGraph.arena.size ∧
      ∀ i < relatedGraph.arena.size, relatedGraph.complaint? i = none) ∧
    relatedGraph.actors.entries = [("Discord.IChannelActor", 0), ("Discord.IThreadActor", 2)] ∧
    ((relatedGraph.target 0).actor, (relatedGraph.target 0).entity)
      = ("Discord.IChannelActor", "Discord.IChannel") ∧
    ((relatedGraph.target 2).actor, (relatedGraph.target 2).entity)
      = ("Discord.IThreadActor", "Discord.IThread") ∧
    (relatedGraph.target 0).isCore = true ∧ (relatedGraph.target 2).isCore = true := by
  decide +kernel

theorem ancestors_relatedGraph :
    relatedGraph.ancestors 0 = [] ∧ 0 ∈ relatedGraph.ancestors 2 ∧
      ∀ a ∈ relatedGraph.ancestors 2, a = 0 := by
  obtain ⟨_, hentries, hchannel, hthread, _⟩ := relatedGraph_actors
  have hparents : relatedTypes.parents "Discord.IChannelActor" = [] := by decide +kernel
  have hcompilation : relatedGraph.compilation = relatedTypes := grounded_ofTargets.compilation_eq
  have hroot {name : String} {a : NodeId} (h : relatedGraph.actor? name = some a) :
      name = "Discord.IChannelActor" ∧ a = 0 ∨ name = "Discord.IThreadActor" ∧ a = 2 := by
    have hmem := Dict.mem_entries_iff.mpr h
    rw [hentries] at hmem
    simpa using hmem
  simp only [Prod.mk.injEq] at hchannel hthread
  refine ⟨List.eq_nil_iff_forall_not_mem.mpr fun a ha => ?_, ?_, fun a ha => ?_⟩
  · obtain ⟨⟨name, hname, _⟩, _⟩ := mem_ancestors_iff.mp ha
    rw [hcompilation, hchannel.1] at hname
    obtain ⟨next, hnext, _⟩ :=
      Relation.TransGen.head'_iff.mp (Compilation.mem_supertypes_iff.mp hname).2
    exact List.ne_nil_of_mem hnext hparents
  · exact mem_ancestors_of_parents (by decide +kernel) (by decide +kernel) (by decide +kernel)
      (by decide +kernel)
  · obtain ⟨⟨name, hname, ha⟩, _⟩ := mem_ancestors_iff.mp ha
    rw [hcompilation, hthread.1] at hname
    rcases hroot ha with ⟨_, h0⟩ | ⟨rfl, _⟩
    · exact h0
    · exact absurd rfl (Compilation.mem_supertypes_iff.mp hname).1

theorem relationshipName_relatedGraph :
    relatedGraph.derivedRelationshipName 0 = "Channel" ∧
      relatedGraph.derivedRelationshipName 2 = "Channel" := by
  have hnames : relatedGraph.userRelationshipName? 0 = some "Channel" ∧
      relatedGraph.userRelationshipName? 2 = none := by decide +kernel
  obtain ⟨_, hmem, hall⟩ := ancestors_relatedGraph
  refine ⟨by rw [derivedRelationshipName, hnames.1], ?_⟩
  rw [derivedRelationshipName, hnames.2]
  cases hfirst : (relatedGraph.ancestors 2).findSome? relatedGraph.userRelationshipName? with
  | none =>
    have hnone := List.findSome?_eq_none_iff.mp hfirst 0 hmem
    rw [hnames.1] at hnone
    cases hnone
  | some name =>
    obtain ⟨a, ha, hname⟩ := List.exists_of_findSome?_eq_some hfirst
    rw [hall a ha, hnames.1] at hname
    exact (Option.some.inj hname).symm

theorem additionalRelationships_relatedGraph : relatedGraph.additionalRelationships 0 = ∅ ∧
    relatedGraph.additionalRelationships 2 = (∅ : Dict (List NodeId)).insert "Channel" [0] := by
  have hname : relatedGraph.relationshipName 0 = "Channel" :=
    (Visits.recorded (g := relatedGraph) .refl).relationshipName_eq 0 |>.trans
      relationshipName_relatedGraph.1
  have htypes :
      (relatedGraph.compilation.type? (relatedGraph.target 0).coreActor).map (·.interfaces)
        = some [] ∧
      (relatedGraph.compilation.type? (relatedGraph.target 2).coreActor).map (·.interfaces)
        = some ["Discord.IChannelActor", "Discord.IChannelActor.CanonicalRelationship"] ∧
      relatedGraph.interfacesOf 0 = [] ∧
      relatedGraph.canonicallyRelated? "Discord.IChannelActor" = none ∧
      relatedGraph.canonicallyRelated? "Discord.IChannelActor.CanonicalRelationship" = some 0 := by
    decide +kernel
  obtain ⟨hchannel, hthread, hinterfaces, hnone, hsome⟩ := htypes
  obtain ⟨channel, htype, hchannel⟩ := Option.map_eq_some_iff.mp hchannel
  obtain ⟨thread, htype', hthread⟩ := Option.map_eq_some_iff.mp hthread
  constructor
  · simp only [additionalRelationships, htype, hchannel]
    rw [collectRelated]
  · simp only [additionalRelationships, htype', hthread]
    rw [collectRelated_of_none hnone, collectRelated_of_some hsome, if_neg (by decide), hname,
      if_neg (by simp [Dict.keys, EmptyCollection.emptyCollection, Dict.empty]), hinterfaces,
      List.append_nil, collectRelated]

/-- The thread redefines its relationship, the channel does not, which is related to the thread. -/
theorem redefined_relatedGraph (hv : Visits relatedGraph g) {t : ActorState} {bs : List NodeId}
    (hs : g.ActorAt 0 s as) (ht : g.ActorAt 2 t bs) :
    s.canonicalRelationshipRedefined = false ∧ t.canonicalRelationshipRedefined = true ∧
      ("Channel", 0) ∈ g.relatedActors t ∧ 0 ∈ bs := by
  have hprogress : Progress relatedGraph [] g := hv.progress
  have hname (n : NodeId) :
      g.derivedRelationshipName n = relatedGraph.derivedRelationshipName n := by
    rw [hprogress.same]
    rfl
  have hrelated (n : NodeId) :
      g.additionalRelationships n = relatedGraph.additionalRelationships n := by
    have hinitial : Visits relatedGraph relatedGraph := .refl
    have hrecorded := hv.recorded
    rw [hprogress.same] at hrecorded ⊢
    refine additionalRelationships_withStates (fun m => ?_) n
    rw [hrecorded.relationshipName_eq, hinitial.recorded.relationshipName_eq]
    rfl
  obtain ⟨hnone, hmem, hall⟩ := ancestors_relatedGraph
  obtain ⟨hempty, hsingle⟩ := additionalRelationships_relatedGraph
  obtain ⟨hchannel, hthread⟩ := relationshipName_relatedGraph
  obtain rfl := hv.ancestors_of_actorAt (hs.mem_roots hv) hs
  obtain rfl := hv.ancestors_of_actorAt (ht.mem_roots hv) ht
  rw [(hv.recorded.redefined_eq hs).2, (hv.recorded.redefined_eq ht).2, relatedActors,
    (hv.recorded.actorAt_eq ht).2.2, hprogress.ancestors_eq, hprogress.ancestors_eq, hrelated,
    hrelated, hname, hname, hnone, hempty, hsingle, hchannel, hthread]
  exact ⟨rfl, rfl, List.mem_singleton.mpr rfl, hmem⟩

end LinkGraph

end ActorLinks
