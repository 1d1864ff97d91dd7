import ActorLinks.Proofs.Build.InterfaceMembers
import ActorLinks.Proofs.Build.Relationships

/-! # Members of hierarchies

A hierarchy with members is an interface. Under its own name it declares a property for each of its
members, and the methods that select among them.
-/
namespace ActorLinks.LinkGraph
variable {g : LinkGraph} {i n p : NodeId} {d face implementing : TypeDecl} {create : Decl.Method}
  {s : HierarchyState} {v : NodeState}

theorem DeclaredAs.nodup_members (hpart : g.partAs (g.arena.category i) i =
      .ok (g.withImplementation i face implementing create)) (hface : face.members.Nodup)
    (h : g.DeclaredAs i d) : d.members.Nodup := by
  obtain ⟨below, _, hd⟩ := h.exists_below hpart
  rcases hd with rfl | rfl
  · exact TypeDecl.nodup_addMembers.mpr hface
  · exact TypeDecl.nodup_addMembers.mpr (TypeDecl.nodup_addMember.mpr hface)

section Own

/-- The property of a member, anew where it hides one. -/
def memberProperty (g : LinkGraph) (i m : NodeId) : Decl.Property where
  modifiers := .ofList (if !g.arena.isCore i || !g.arena.isTemplate i then [.new] else [])
  typeName := g.memberType i m false
  name := g.memberName i m

@[simp]
theorem memberProperty_name (g : LinkGraph) (i m : NodeId) :
    (g.memberProperty i m).name = g.memberName i m := by rw [memberProperty]

theorem property_mem_memberProperties {m : NodeId} {q : Decl.Property}
    (hq : q.explicitInterface = none) :
    (q : Member) ∈ g.memberProperties i m ↔ q = g.memberProperty i m := by
  have hexplicit (t n x : String) (interface : String) :
      q ≠ Decl.Property.explicit t interface n x := by
    rintro rfl
    cases hq
  cases hcore : g.arena.isCore i <;> simp [memberProperties, memberProperty, hcore, hexplicit]

theorem property_not_mem_composedMembers {q : Decl.Property} (hq : q.explicitInterface = none) :
    (q : Member) ∉ g.composedMembers n := by
  unfold composedMembers
  split
  · intro hmem
    obtain ⟨_, _, heq⟩ := List.mem_map.mp hmem
    simp only [Member.leaf.injEq, Decl.Leaf.property.injEq] at heq
    cases heq
    cases hq
  · exact List.not_mem_nil

theorem property_not_mem_delimiterMethods {q : Decl.Property} {relatives : List NodeId}
    {delimiter : Delimiter} : (q : Member) ∉ g.delimiterMethods i relatives delimiter := by
  simp [delimiterMethods]

theorem method_not_mem_memberProperties {m : NodeId} {q : Decl.Method} :
    (q : Member) ∉ g.memberProperties i m := by
  cases hcore : g.arena.isCore i <;> simp [memberProperties, hcore]

theorem method_not_mem_composedMembers {q : Decl.Method} : (q : Member) ∉ g.composedMembers n := by
  unfold composedMembers
  split <;> simp

end Own

section Face

theorem category_of_hierarchyState (hf : g.Fitting) (hs : g.hierarchyState? i = some s) :
    g.arena.category i = .hierarchy := by
  obtain ⟨v, hv, hdetail⟩ := hierarchyState?_eq_some.mp hs
  rw [← (hf hv).1, hdetail]
  rfl

/-- A hierarchy with members is an interface with what the members and delimiters give. -/
theorem exists_hierarchyFace (hv : g.state? i = some v) (hs : g.hierarchyState? i = some s)
    (hk : g.arena.category i = .hierarchy) (hne : s.members ≠ []) : ∃ face implementing,
      g.partAs (g.arena.category i) i = .ok (g.withImplementation i face implementing
        (g.createMethod i s.implementation [.static])) ∧
      face.members.Nodup ∧
      ∀ m, m ∈ face.members ↔ (∃ n ∈ s.members, m ∈ g.memberProperties i n) ∨
        (g.arena.isTemplate i = false ∧ ∃ n ∈ g.composedHierarchies v, m ∈ g.composedMembers n) ∨
        ∃ delimiter ∈ s.delimiters,
          m ∈ g.delimiterMethods i (g.composedHierarchies v) delimiter := by
  have hmembers : s.members.isEmpty = false := by simpa using hne
  rw [hk]
  simp only [partAs, hierarchyPart, expectState, hv, hs, hmembers, bind, Except.bind, pure,
    Except.pure]
  refine ⟨_, _, rfl, ?_, fun m => ?_⟩
  · simp
  · cases htemplate : g.arena.isTemplate i with
    | true => simp [composedHierarchies]
    | false => simp [composedHierarchies, or_assoc]

/-- A declared hierarchy has members. -/
theorem DeclaredAs.exists_hierarchyState (hk : g.arena.category i = .hierarchy)
    (h : g.DeclaredAs i d) : ∃ v s, g.state? i = some v ∧ g.hierarchyState? i = some s ∧
      s.members ≠ [] := by
  obtain ⟨_, hback, _⟩ | ⟨decl, hoisted, _, hpart, _, _⟩ := h.closed_or_spread
  · rw [hk] at hback
    cases hback
  · rw [hk] at hpart
    exact exists_of_hierarchyPart hpart

/-- A hierarchy declares a property for each member, and no other ones. -/
theorem DeclaredAs.memberProperty_mem_iff (hk : g.arena.category i = .hierarchy)
    (hs : g.hierarchyState? i = some s) (h : g.DeclaredAs i d) {q : Decl.Property}
    (hq : q.explicitInterface = none) :
    (q : Member) ∈ d.members ↔ ∃ m ∈ s.members, q = g.memberProperty i m := by
  obtain ⟨v, s', hv, hs', hne⟩ := h.exists_hierarchyState hk
  obtain rfl := Option.some.inj (hs.symm.trans hs')
  obtain ⟨face, _, hpart, _, hface⟩ := exists_hierarchyFace hv hs hk hne
  have hleaf := h.mem_members_iff hpart (m := q) rfl nofun
  simp [hleaf, hface, property_mem_memberProperties hq, property_not_mem_composedMembers hq,
    property_not_mem_delimiterMethods]

end Face

/-- What the state of a hierarchy records holds in the graph as it is now. -/
theorem Recorded.hierarchy_eq (h : g.Recorded) (hs : g.hierarchyState? i = some s) :
    g.hierarchyMembers i = .ok s.members ∧ s.delimiters = g.delimiters i s.members := by
  obtain ⟨v, hv, hdetail⟩ := hierarchyState?_eq_some.mp hs
  obtain ⟨states, _, hvisit⟩ := h i v hv
  obtain ⟨members, hmembers, rfl⟩ :=
    Failure.map_eq_ok_iff.mp (hierarchy_of_visitNode hvisit hdetail)
  exact ⟨(hierarchyMembers_withStates i).symm.trans hmembers, rfl⟩

/-- A hierarchy with members is declared. -/
theorem Complete.exists_declaredHierarchy (h : g.Complete) (hp : g.arena.parent? i = some p)
    (hk : g.arena.category i = .hierarchy) {members : List NodeId} (hr : g.Recorded)
    (hmembers : g.hierarchyMembers i = .ok members) (hne : members ≠ []) :
    ∃ s d, g.hierarchyState? i = some s ∧ s.members = members ∧ g.DeclaredAs i d := by
  obtain ⟨v, hv⟩ := h.exists_state i (Arena.lt_size_of_parent hp)
  have hcategory := h.category_eq hv
  rw [hk] at hcategory
  cases hdetail : v.detail with
  | hierarchy s =>
    have hs := hierarchyState?_eq_some.mpr ⟨v, hv, hdetail⟩
    have hsame : s.members = members :=
      Except.ok.inj ((hr.hierarchy_eq hs).1.symm.trans hmembers)
    obtain ⟨_, _, hpart, _⟩ := exists_hierarchyFace hv hs hk (hsame ▸ hne)
    obtain ⟨d, hd⟩ := h.exists_declaredAs hpart hp
    exact ⟨s, d, hs, hsame, hd⟩
  | _ => simp [hdetail, NodeDetail.category] at hcategory

/-- An enum with a field for each of these entities. -/
def channelEnum (names : List String) : TypeSymbol where
  name := "Discord.ChannelType"
  kind := .enum
  fields := names.map fun name =>
    { name := name
      attributes := [{ className := "Discord.TypeHeuristicAttribute"
                       typeArguments := ["Discord.I" ++ name] }] }

/-- A channel whose hierarchy lists the actors of these names, with two properties of the enum. -/
def memberTypes (names : List String) : Compilation := .ofTypes
  [{ name := "Discord.IChannelActor"
     kind := .interface
     attributes :=
       [{ className := "Discord.LinkHierarchicalRootAttribute"
          named := .ofList [("Types",
            .array (names.map fun name => .type ("Discord.I" ++ name ++ "Actor")))] }] },
   { name := "Discord.IChannel"
     kind := .interface
     properties := ["Kind", "Type"].map fun name =>
       { name := name
         typeName := "Discord.ChannelType"
         attributes := [{ className := "Discord.TypeHeuristicAttribute" }] } },
   channelEnum names]

def memberGraph (names : List String) : LinkGraph :=
  ofTargets (memberTypes names) ⟨⟨"Discord.ILinkType", [], [], []⟩⟩
    (("Channel" :: names).map (pairTarget .rest))

/-- Two actors with names of their own, or two that are called alike. -/
def apartNames (apart : Bool) : List String :=
  ["GuildChannel", if apart then "ThreadChannel" else "Guild"]

theorem memberGraph_nodes (apart : Bool) :
    (0 < (memberGraph (apartNames apart)).arena.size ∧
      ∀ i < (memberGraph (apartNames apart)).arena.size,
        (memberGraph (apartNames apart)).complaint? i = none) ∧
    (memberGraph (apartNames apart)).arena.parent? 2 = some 0 ∧
    (memberGraph (apartNames apart)).arena.category 2 = .hierarchy ∧
    (memberGraph (apartNames apart)).hierarchyMembers 2 = .ok [4, 6] := by
  cases apart <;> decide +kernel

theorem exists_memberGraph (apart : Bool) :
    (memberGraph (apartNames apart)).visit.2 = none ∧
    (memberGraph (apartNames apart)).visit.1.isVisited = true ∧
    ∃ s d, (memberGraph (apartNames apart)).visit.1.hierarchyState? 2 = some s ∧
      s.members = [4, 6] ∧ (memberGraph (apartNames apart)).visit.1.DeclaredAs 2 d := by
  obtain ⟨hquiet, hp, hk, hmembers⟩ := memberGraph_nodes apart
  obtain ⟨hok, hvisited⟩ : (memberGraph (apartNames apart)).visit.2 = none ∧
      (memberGraph (apartNames apart)).visit.1.isVisited = true := visited_of_quiet hquiet
  have hv : Visits (memberGraph (apartNames apart)) (memberGraph (apartNames apart)).visit.1 :=
    .again .refl
  have hprogress : Progress (memberGraph (apartNames apart)) []
    (memberGraph (apartNames apart)).visit.1 := hv.progress
  rw [← hprogress.arena_eq] at hp hk
  have hmembers' : (memberGraph (apartNames apart)).visit.1.hierarchyMembers 2 = .ok [4, 6] := by
    rw [hprogress.same, hierarchyMembers_withStates]
    exact hmembers
  exact ⟨hok, hvisited, (hv.complete_of_isVisited hvisited).exists_declaredHierarchy hp hk
    hv.recorded hmembers' (by decide)⟩

end ActorLinks.LinkGraph
