import ActorLinks.Proofs.Arena.Words
import ActorLinks.Proofs.Build.BaseCalls
import ActorLinks.Proofs.Build.Selectors
import ActorLinks.Proofs.Text.NameParts

/-! # Names of members

The name of a member is made of the words of its actor's name that its owner does not have. The
words can be read off a name in which each of them starts with a capital, so members have names of
their own where the words that are left over differ. Two that are called alike are both declared,
and the constructor takes one parameter for both.
-/
namespace ActorLinks

namespace Text

theorem join_eq_empty_iff {ws : List String} (h : ∀ w ∈ ws, w ≠ "") :
    String.join ws = "" ↔ ws = [] := by
  rw [← String.toList_inj, String.toList_join]
  cases ws with
  | nil => simp
  | cons w ws => simp [h w List.mem_cons_self]

/-- There are no words where there is no letter and no digit. -/
theorem nameParts_eq_nil_iff {name : String} : nameParts name = [] ↔
    ∀ c ∈ name.toList, isWordStart c = false ∧ isWordRest c = false := by
  rw [← join_eq_empty_iff fun _ => ne_empty_of_mem_nameParts, ← String.toList_inj,
    toList_join_nameParts]
  refine List.filter_eq_nil_iff.trans (forall₂_congr fun c _ => ?_)
  rw [Bool.not_eq_true, isAlphanum_eq_false_iff]

end Text

namespace LinkGraph
variable {g : LinkGraph} {i m n : NodeId} {d : TypeDecl} {s : HierarchyState}
  {c : Compilation} {sch : Schematic} {targets : List Target}

/-- The words that the owner does not have, or all the words where there are no such. -/
def wordsApart (g : LinkGraph) (i m : NodeId) : List String :=
  if g.friendlyWords m ⊆ g.friendlyWords i then g.friendlyWords m
  else (g.friendlyWords m).filter (· ∉ g.friendlyWords i)

theorem mem_friendlyWords_of_mem_wordsApart {w : String} (h : w ∈ g.wordsApart i m) :
    w ∈ g.friendlyWords m := by
  unfold wordsApart at h
  split at h
  · exact h
  · exact List.mem_of_mem_filter h

theorem filter_apart_eq_nil_iff : (g.friendlyWords m).filter (· ∉ g.friendlyWords i) = [] ↔
    g.friendlyWords m ⊆ g.friendlyWords i := by
  simp [List.filter_eq_nil_iff, List.subset_def]

theorem wordsApart_eq_nil_iff : g.wordsApart i m = [] ↔ g.friendlyWords m = [] := by
  unfold wordsApart
  split
  · rfl
  · next h =>
    rw [filter_apart_eq_nil_iff]
    refine iff_of_false h fun hnil => h ?_
    rw [hnil]
    exact List.nil_subset _

theorem memberName_eq (g : LinkGraph) (i m : NodeId) :
    g.memberName i m = String.join (g.wordsApart i m) := by
  have hwords : ∀ w ∈ (g.friendlyWords m).filter (· ∉ g.friendlyWords i), w ≠ "" :=
    fun w hw => Text.ne_empty_of_mem_nameParts (List.mem_of_mem_filter hw)
  simp only [memberName, wordsApart, String.isEmpty_iff, Text.join_eq_empty_iff hwords,
    filter_apart_eq_nil_iff]
  split <;> rfl

theorem memberName_eq_empty_iff : g.memberName i m = "" ↔ g.friendlyWords m = [] := by
  rw [memberName_eq, Text.join_eq_empty_iff, wordsApart_eq_nil_iff]
  exact fun w hw => Text.ne_empty_of_mem_nameParts (mem_friendlyWords_of_mem_wordsApart hw)

/-- The words are read off the name where each of them starts with a capital. -/
theorem memberName_inj (hm : ∀ w ∈ g.friendlyWords m, isWord w = true)
    (hn : ∀ w ∈ g.friendlyWords n, isWord w = true) :
    g.memberName i m = g.memberName i n ↔ g.wordsApart i m = g.wordsApart i n := by
  rw [memberName_eq, memberName_eq]
  refine ⟨join_inj_of_words (fun w hw => ?_) (fun w hw => ?_), congrArg String.join⟩
  · exact hm w (mem_friendlyWords_of_mem_wordsApart hw)
  · exact hn w (mem_friendlyWords_of_mem_wordsApart hw)

theorem Progress.friendlyWords_eq {top : LinkGraph} {done : List NodeId}
    (h : Progress top done g) : g.friendlyWords = top.friendlyWords := by
  rw [h.same]
  rfl

theorem Progress.wordsApart_eq {top : LinkGraph} {done : List NodeId} (h : Progress top done g) :
    g.wordsApart = top.wordsApart := by
  rw [h.same]
  rfl

theorem Progress.memberType_eq {top : LinkGraph} {done : List NodeId} (h : Progress top done g) :
    g.memberType = top.memberType := by
  rw [h.same]
  rfl

/-- What a constructor asks for to set the property of a member. -/
def memberParameter (g : LinkGraph) (i m : NodeId) : ImplParameter where
  typeName := g.memberType i m false
  name := Text.parameterName (g.memberName i m)
  initializes := some (g.memberName i m)

theorem Recorded.hierarchyLayer_parameters (h : g.Recorded) (hs : g.hierarchyState? i = some s)
    {layer : ConstructorLayer} {base : ConstructorChain}
    (hchain : s.implementation.constructors = layer :: base) :
    layer.parameters = s.members.map (g.memberParameter i) := by
  obtain ⟨v, hv, hdetail⟩ := hierarchyState?_eq_some.mp hs
  obtain ⟨states, _, hvisit⟩ := h i v hv
  obtain ⟨members, _, rfl⟩ := Failure.map_eq_ok_iff.mp (hierarchy_of_visitNode hvisit hdetail)
  have hvirtual (p : ImplProperty) (b : Bool) :
      (p.virtualIf b).typeName = p.typeName ∧ (p.virtualIf b).name = p.name := by
    cases b <;> exact ⟨rfl, rfl⟩
  dsimp only at hchain
  split at hchain
  · obtain ⟨rfl, _⟩ := List.cons.inj hchain
    simp only [ConstructorChain.layerOf, List.map_map, Function.comp_def,
      ImplProperty.parameterName, hvirtual]
    rfl
  · cases hchain

/-- Members that are told apart have names, and different ones. -/
def TellsApart (g : LinkGraph) (i : NodeId) (members : List NodeId) : Prop :=
  (∀ m ∈ members, g.friendlyWords m ≠ []) ∧ (members.map (g.wordsApart i)).Nodup

theorem nodup_memberNames_iff {members : List NodeId}
    (h : ∀ m ∈ members, ∀ w ∈ g.friendlyWords m, isWord w = true) :
    (members.map (g.memberName i)).Nodup ↔ (members.map (g.wordsApart i)).Nodup := by
  rw [List.Nodup, List.Nodup, List.pairwise_map, List.pairwise_map]
  refine List.Pairwise.iff_of_mem fun hm hn => ?_
  rw [Ne, memberName_inj (h _ hm) (h _ hn)]

/-- A member has a property of its own, and the arms of the fields that stand for it name no other
member. -/
structure HasOwn (g : LinkGraph) (i : NodeId) (s : HierarchyState) (d : TypeDecl) (m : NodeId) :
    Prop where
  property_iff : ∀ q : Decl.Property, q.explicitInterface = none →
    ((q : Member) ∈ d.members ∧ q.name = g.memberName i m ↔ q = g.memberProperty i m)
  arm : ∀ f n, g.StandsFor s.members f n →
    (g.memberProperty i n).name = (g.memberProperty i m).name → n = m

theorem DeclaredAs.hasOwn (hk : g.arena.category i = .hierarchy)
    (hs : g.hierarchyState? i = some s) (h : g.DeclaredAs i d)
    (hnames : (s.members.map (g.memberName i)).Nodup) (hm : m ∈ s.members) :
    g.HasOwn i s d m := by
  have hsame : ∀ n ∈ s.members, (g.memberProperty i n).name = g.memberName i m → n = m := by
    intro n hn heq
    rw [memberProperty_name] at heq
    exact List.inj_on_of_nodup_map hnames hn hm heq
  constructor
  · intro q hq
    rw [h.memberProperty_mem_iff hk hs hq]
    constructor
    · rintro ⟨⟨n, hn, rfl⟩, hname⟩
      rw [hsame n hn hname]
    · rintro rfl
      exact ⟨⟨m, hm, rfl⟩, memberProperty_name g i m⟩
  · intro f n hn hname
    rw [memberProperty_name g i m] at hname
    exact hsame n hn.mem hname

/-- A member is called by the words that its owner does not have, and has no name if there is no
letter and no digit in that of its actor. Where all words start with capitals, the members have
names, and different ones, just if the words that they are called by differ. Then each has what is
its own. The constructor takes a parameter for each member if the parameters that it is asked for
differ from one another and from those of its base. -/
theorem member_names_apart (hv : Visits (ofTargets c sch targets) g)
    (hs : g.hierarchyState? i = some s) :
    (∀ m, g.memberName i m = String.join (g.wordsApart i m) ∧
      (g.memberName i m = "" ↔ ∀ c ∈ (friendlyName (g.target m).coreActor .interface).toList,
        Text.isWordStart c = false ∧ Text.isWordRest c = false)) ∧
    ((∀ m ∈ s.members, ∀ w ∈ g.friendlyWords m, isWord w = true) →
      ((s.members.map (g.memberName i)).Nodup ∧ (∀ m ∈ s.members, g.memberName i m ≠ "") ↔
        g.TellsApart i s.members)) ∧
    ((s.members.map (g.memberName i)).Nodup →
      ∀ d, g.DeclaredAs i d → ∀ m ∈ s.members, g.HasOwn i s d m) ∧
    ∀ layer base, s.implementation.constructors = layer :: base →
      (ConstructorChain.parameters (layer :: base) = ConstructorChain.parameters base
          ++ s.members.map (fun m => (g.memberParameter i m).decl) ↔
        (ConstructorChain.argumentNames base
          ++ s.members.map (fun m => (g.memberParameter i m).name)).Nodup) := by
  have hk := category_of_hierarchyState hv.fitting hs
  refine ⟨fun m => ⟨memberName_eq g i m, memberName_eq_empty_iff.trans Text.nameParts_eq_nil_iff⟩,
    fun hwords => ?_, fun hnames d hd m hm => hd.hasOwn hk hs hnames hm,
    fun layer base hchain => ?_⟩
  · simp only [TellsApart, nodup_memberNames_iff hwords, Ne, memberName_eq_empty_iff, and_comm]
  · have hasked := hv.recorded.hierarchyLayer_parameters hs hchain
    have hiff := @ConstructorChain.parameters_cons_eq_append_iff layer base
    rw [hasked, List.map_map, List.map_map] at hiff
    exact hiff

theorem memberGraph_words (apart : Bool) :
    (∀ e ∈ (memberTypes (apartNames apart)).types.entries, ∀ other ∈ e.2.parents,
      (memberTypes (apartNames apart)).parents other = []) ∧
    (memberGraph (apartNames apart)).actors.entries.head?
      = some ("Discord.Rest.RestChannelActor", 0) ∧
    ((memberGraph (apartNames apart)).actorSymbol? 0).bind (·.baseType) = none ∧
    (memberGraph (apartNames apart)).arena.isImplemented 2 = true ∧
    (memberGraph (apartNames apart)).arena.implementedParent? 2 = some 0 ∧
    ((memberGraph (apartNames apart)).target 0).isCore = false ∧
    [4, 6].map (memberGraph (apartNames apart)).friendlyWords
      = [["Guild", "Channel"], if apart then ["Thread", "Channel"] else ["Guild"]] ∧
    [4, 6].map ((memberGraph (apartNames apart)).wordsApart 2)
      = [["Guild"], if apart then ["Thread"] else ["Guild"]] := by
  cases apart <;> decide +kernel

/-- The constructor of the hierarchy stands on that of the channel alone. -/
theorem exists_memberChain (apart : Bool) : ∃ s d layer,
    (memberGraph (apartNames apart)).visit.1.hierarchyState? 2 = some s ∧ s.members = [4, 6] ∧
    (memberGraph (apartNames apart)).visit.1.DeclaredAs 2 d ∧
    s.implementation.constructors
      = layer :: [(memberGraph (apartNames apart)).visit.1.rootLayer 0] := by
  obtain ⟨_, hvisited, s, d, hs, hmembers, hd⟩ := exists_memberGraph apart
  obtain ⟨_, _, hk, _⟩ := memberGraph_nodes apart
  obtain ⟨hshallow, hentry, hroot, himplemented, hparent, hcore, _⟩ := memberGraph_words apart
  have hv : Visits (memberGraph (apartNames apart)) (memberGraph (apartNames apart)).visit.1 :=
    .again .refl
  have hprogress : Progress (memberGraph (apartNames apart)) []
    (memberGraph (apartNames apart)).visit.1 := hv.progress
  have hsettled : (memberGraph (apartNames apart)).visit.1.Settled :=
    hv.settled (Compilation.acyclic_of_shallow hshallow)
  rw [← hprogress.arena_eq] at hk himplemented hparent
  rw [← hprogress.actors_eq] at hentry
  obtain ⟨t, as, ht⟩ := exists_actorAt hv hvisited (i := 0)
    (Dict.mem_entries_iff.mp (List.mem_of_head? hentry))
  obtain ⟨v, hstate, hdetail⟩ := hierarchyState?_eq_some.mp hs
  obtain ⟨layer, hlayer⟩ := hsettled.exists_layer hstate himplemented
  obtain ⟨w, hw, hactor, _⟩ := id ht
  have hbase : (memberGraph (apartNames apart)).visit.1.baseTarget? 0 = none := by
    rw [hprogress.baseTarget?_eq]
    exact baseTarget?_of_none hroot
  have hclass : (memberGraph (apartNames apart)).visit.1.classBase? 2 = some 0 := by
    rw [classBase?, hk]
    exact hparent
  have hlink : ∀ l, (memberGraph (apartNames apart)).visit.1.linkTypeState? 2 = some l →
      l.implementationBase = none := by
    intro l hl
    rw [hv.category_of_linkTypeState? hl] at hk
    cases hk
  have hroot := hsettled.constructors_actor ht (by rw [hprogress.target_eq]; exact hcore)
  rw [hbase] at hroot
  rw [hdetail, hv.chainBelow_eq hclass hw hlink, hactor] at hlayer
  exact ⟨s, d, layer, hs, hmembers, hd, hlayer.trans (congrArg (layer :: ·) hroot)⟩

theorem memberNames_memberGraph (apart : Bool) :
    (memberGraph (apartNames apart)).visit.1.memberName 2 4 = "Guild" ∧
    (memberGraph (apartNames apart)).visit.1.memberName 2 6
      = if apart then "Thread" else "Guild" := by
  have hprogress : Progress (memberGraph (apartNames apart)) []
    (memberGraph (apartNames apart)).visit.1 := Visits.progress (.again .refl)
  obtain ⟨_, _, _, _, _, _, _, hwords⟩ := memberGraph_words apart
  obtain ⟨hguild, hother⟩ : (memberGraph (apartNames apart)).wordsApart 2 4 = ["Guild"] ∧
      (memberGraph (apartNames apart)).wordsApart 2 6
        = if apart then ["Thread"] else ["Guild"] := by simpa using hwords
  rw [memberName_eq, memberName_eq, hprogress.wordsApart_eq, hguild, hother]
  cases apart <;> decide

/-- Of a guild channel and a thread channel the names are those of the guild and the thread. -/
theorem member_names_apart_sample : ∃ s d layer base,
    (memberGraph (apartNames true)).visit.1.hierarchyState? 2 = some s ∧ s.members = [4, 6] ∧
    s.members.map ((memberGraph (apartNames true)).visit.1.memberName 2) = ["Guild", "Thread"] ∧
    (∀ m ∈ s.members, (memberGraph (apartNames true)).visit.1.HasOwn 2 s d m) ∧
    s.implementation.constructors = layer :: base ∧
    ConstructorChain.parameters (layer :: base) = ConstructorChain.parameters base
      ++ s.members.map fun m => ((memberGraph (apartNames true)).visit.1.memberParameter 2 m).decl
    := by
  have hv : Visits (memberGraph (apartNames true)) (memberGraph (apartNames true)).visit.1 :=
    .again .refl
  have hprogress : Progress (memberGraph (apartNames true)) []
    (memberGraph (apartNames true)).visit.1 := hv.progress
  obtain ⟨s, d, layer, hs, hmembers, hd, hchain⟩ := exists_memberChain true
  obtain ⟨hguild, hthread⟩ := memberNames_memberGraph true
  obtain ⟨_, _, _, _, _, _, hwords, hapart⟩ := memberGraph_words true
  obtain ⟨_, hnames, hown, hparameters⟩ := member_names_apart hv hs
  have hall : ∀ ws ∈ [4, 6].map (memberGraph (apartNames true)).visit.1.friendlyWords,
      ws ≠ [] ∧ ∀ w ∈ ws, isWord w = true := by
    rw [hprogress.friendlyWords_eq, hwords]
    decide
  rw [← hmembers] at hall
  have htells : (memberGraph (apartNames true)).visit.1.TellsApart 2 s.members := by
    refine ⟨fun m hm => (hall _ (List.mem_map_of_mem hm)).1, ?_⟩
    rw [hmembers, hprogress.wordsApart_eq, hapart]
    decide
  refine ⟨s, d, layer, _, hs, hmembers, ?_, hown ((hnames ?_).mpr htells).1 d hd, hchain,
    (hparameters _ _ hchain).mpr ?_⟩
  · rw [hmembers]
    simp [hguild, hthread]
  · exact fun m hm => (hall _ (List.mem_map_of_mem hm)).2
  · have hasked : [4, 6].map (fun m => ((memberGraph
        (apartNames true)).visit.1.memberParameter 2 m).name) = ["guild", "thread"] := by
      simp only [List.map_cons, memberParameter, hguild, hthread]
      decide +kernel
    rw [hmembers, hasked, ← List.map_singleton, argumentNames_rootLayers (List.cons_ne_nil _ _),
      rootArguments]
    cases List.all [0] (memberGraph (apartNames true)).visit.1.modelHasId <;> decide

theorem memberTypes_memberGraph (apart : Bool) :
    ((memberGraph (apartNames apart)).target 4).actor
      ≠ ((memberGraph (apartNames apart)).target 6).actor ∧
    ((memberGraph (apartNames apart)).target 4).coreActor
      ≠ ((memberGraph (apartNames apart)).target 6).coreActor ∧
    (memberGraph (apartNames apart)).memberType 2 4 false
      ≠ (memberGraph (apartNames apart)).memberType 2 6 false := by
  cases apart <;> decide +kernel

/-- A guild channel and a guild, among the channels, are both called guild: there are two properties
of this name, and one parameter. -/
theorem members_called_alike : (memberGraph (apartNames false)).visit.2 = none ∧
    (memberGraph (apartNames false)).visit.1.isVisited = true ∧
    ∃ s d, (memberGraph (apartNames false)).visit.1.hierarchyState? 2 = some s ∧
      (memberGraph (apartNames false)).visit.1.DeclaredAs 2 d ∧ s.members = [4, 6] ∧
      ((memberGraph (apartNames false)).visit.1.target 4).actor
        ≠ ((memberGraph (apartNames false)).visit.1.target 6).actor ∧
      ((memberGraph (apartNames false)).visit.1.target 4).coreActor
        ≠ ((memberGraph (apartNames false)).visit.1.target 6).coreActor ∧
      (memberGraph (apartNames false)).visit.1.memberName 2 4 = "Guild" ∧
      (memberGraph (apartNames false)).visit.1.memberName 2 6 = "Guild" ∧
      (∃ p q : Decl.Property, (p : Member) ∈ d.members ∧ (q : Member) ∈ d.members ∧
        p.explicitInterface = none ∧ q.explicitInterface = none ∧ p.name = "Guild" ∧
        q.name = "Guild" ∧ p ≠ q) ∧
      s.implementation.arguments
        = ConstructorChain.argumentNames s.implementation.constructors.tail ++ ["guild"] := by
  obtain ⟨hok, hvisited, _⟩ := exists_memberGraph false
  obtain ⟨s, d, layer, hs, hmembers, hd, hchain⟩ := exists_memberChain false
  obtain ⟨_, _, hk, _⟩ := memberGraph_nodes false
  obtain ⟨hguild, hother⟩ : (memberGraph (apartNames false)).visit.1.memberName 2 4 = "Guild" ∧
      (memberGraph (apartNames false)).visit.1.memberName 2 6 = "Guild" :=
    memberNames_memberGraph false
  obtain ⟨hactor, hcore, htype⟩ := memberTypes_memberGraph false
  have hv : Visits (memberGraph (apartNames false)) (memberGraph (apartNames false)).visit.1 :=
    .again .refl
  have hprogress : Progress (memberGraph (apartNames false)) []
    (memberGraph (apartNames false)).visit.1 := hv.progress
  rw [← hprogress.arena_eq] at hk
  have hproperty {m : NodeId} (hm : m ∈ s.members) :
      ((memberGraph (apartNames false)).visit.1.memberProperty 2 m : Member) ∈ d.members :=
    (hd.memberProperty_mem_iff hk hs rfl).mpr ⟨m, hm, rfl⟩
  refine ⟨hok, hvisited, s, d, hs, hd, hmembers, ?_, ?_, hguild, hother,
    ⟨_, _, hproperty (m := 4) ?_, hproperty (m := 6) ?_, rfl, rfl, ?_, ?_, ?_⟩, ?_⟩
  · rwa [hprogress.target_eq, hprogress.target_eq]
  · rwa [hprogress.target_eq, hprogress.target_eq]
  · simp [hmembers]
  · simp [hmembers]
  · rw [memberProperty_name, hguild]
  · rw [memberProperty_name, hother]
  · intro heq
    have hsame := congrArg Decl.Property.typeName heq
    simp only [memberProperty, hprogress.memberType_eq] at hsame
    exact htype hsame
  · have hasked := hv.recorded.hierarchyLayer_parameters hs hchain
    have hparameter : Text.parameterName "Guild" = "guild" := by decide +kernel
    rw [Implementation.arguments, hchain, ConstructorChain.argumentNames_cons, hasked, hmembers,
      List.tail_cons, ← List.map_singleton, argumentNames_rootLayers (List.cons_ne_nil _ _),
      rootArguments]
    simp only [List.map_cons, List.map_nil, memberParameter, hguild, hother, hparameter]
    cases List.all [0] (memberGraph (apartNames false)).visit.1.modelHasId <;> decide

end LinkGraph

end ActorLinks
