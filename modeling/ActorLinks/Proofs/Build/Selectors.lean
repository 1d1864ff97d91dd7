import ActorLinks.Proofs.Build.FactoryScopes
import ActorLinks.Proofs.Build.HierarchyMembers
import ActorLinks.Proofs.Compilation.Survivors

/-! # Selecting members

The methods of a hierarchy select a member by the value of an enum: the type of a property, of the
entity or one of its supertypes, that is marked for it. Several such properties may have one type,
and then ask for one and the same method, which is declared once.
-/
namespace ActorLinks.LinkGraph
variable {g : LinkGraph} {i n : NodeId} {d : TypeDecl} {members : List NodeId} {s : HierarchyState}
  {enum : TypeSymbol} {f : Symbol.Field} {types : List TypeSymbol} {sch : Schematic}
  {targets : List Target}

/-- The field of an enum stands for the first member whose core entity is the one type argument of
the marker on the field. -/
def StandsFor (g : LinkGraph) (members : List NodeId) (f : Symbol.Field) (n : NodeId) : Prop :=
  ∃ marker entity before after, Marker.typeHeuristic.find? f.attributes = some marker ∧
    marker.typeArguments = [entity] ∧ members = before ++ n :: after ∧
    (g.target n).coreEntity = entity ∧ ∀ m ∈ before, (g.target m).coreEntity ≠ entity

theorem fieldMember?_eq_some : g.fieldMember? members f = some n ↔ g.StandsFor members f n := by
  unfold fieldMember? StandsFor
  constructor
  · intro h
    split at h
    · next entity hmarker =>
      obtain ⟨marker, hmarker, hentity⟩ := Option.map_eq_some_iff.mp hmarker
      obtain ⟨hn, before, after, hsplit, hbefore⟩ := List.find?_eq_some_iff_append.mp h
      refine ⟨marker, entity, before, after, hmarker, hentity, hsplit, beq_iff_eq.mp hn,
        fun m hm => ?_⟩
      simpa using hbefore m hm
    · cases h
  · rintro ⟨marker, entity, before, after, hmarker, hentity, rfl, hn, hbefore⟩
    simp only [hmarker, Option.map_some, hentity]
    refine List.find?_eq_some_iff_append.mpr ⟨beq_iff_eq.mpr hn, before, after, rfl,
      fun m hm => ?_⟩
    simpa using hbefore m hm

theorem StandsFor.mem (h : g.StandsFor members f n) : n ∈ members := by
  obtain ⟨_, _, before, after, _, _, rfl, _⟩ := h
  simp

/-- The type of a marked property of the entity or of one of its supertypes. -/
def Discriminates (g : LinkGraph) (i : NodeId) (enum : TypeSymbol) : Prop :=
  enum.kind = .enum ∧ ∃ t ∈ g.entityTypes (g.target i).coreEntity, ∃ p ∈ t.properties,
    (p.attribute? .typeHeuristic).isSome = true ∧ g.compilation.type? p.typeName = some enum

instance : Decidable (g.Discriminates i enum) :=
  inferInstanceAs (Decidable (enum.kind = .enum ∧ ∃ t ∈ g.entityTypes (g.target i).coreEntity,
    ∃ p ∈ t.properties, (p.attribute? .typeHeuristic).isSome = true ∧
      g.compilation.type? p.typeName = some enum))

/-- What the fields of an enum select, in their order. -/
def enumCases (g : LinkGraph) (members : List NodeId) (enum : TypeSymbol) :
    List (String × NodeId) :=
  enum.fields.filterMap fun f =>
    (g.fieldMember? members f).map fun n => (enum.name ++ "." ++ f.name, n)

theorem enumCases_eq_nil : g.enumCases members enum = [] ↔
    ∀ f ∈ enum.fields, ∀ n, ¬ g.StandsFor members f n := by
  simp [enumCases, List.filterMap_eq_nil_iff, Option.eq_none_iff_forall_ne_some,
    fieldMember?_eq_some]

theorem mem_delimiters_iff {delimiter : Delimiter} : delimiter ∈ g.delimiters i members ↔
    ∃ enum, g.Discriminates i enum ∧ g.enumCases members enum ≠ [] ∧
      delimiter = ⟨enum.name, g.enumCases members enum⟩ := by
  have hproperty (p : Symbol.Property) : g.delimiter? members p = some delimiter ↔
      ∃ enum, g.compilation.type? p.typeName = some enum ∧ enum.kind = .enum ∧
        g.enumCases members enum ≠ [] ∧
        delimiter = ⟨enum.name, g.enumCases members enum⟩ := by
    unfold delimiter?
    cases ht : g.compilation.type? p.typeName with
    | none => simp
    | some enum =>
      simp only [Option.some.injEq, exists_eq_left', List.isEmpty_iff,
        Option.ite_none_left_eq_some, not_not, eq_comm (a := delimiter)]
      rfl
  simp only [delimiters, List.mem_filterMap, List.mem_filter, List.mem_flatMap, hproperty,
    Discriminates]
  constructor
  · rintro ⟨p, ⟨⟨t, ht, hp⟩, hmarked⟩, enum, henum, hkind, hne, hd⟩
    exact ⟨enum, ⟨hkind, t, ht, p, hp, hmarked, henum⟩, hne, hd⟩
  · rintro ⟨enum, ⟨hkind, t, ht, p, hp, hmarked, henum⟩, hne, hd⟩
    exact ⟨p, ⟨⟨t, ht, hp⟩, hmarked⟩, enum, henum, hkind, hne, hd⟩

/-- The arms of a switch over an enum: a field selects the property of the member it stands for. -/
def arms (g : LinkGraph) (i : NodeId) (members : List NodeId) (enum : TypeSymbol) : List String :=
  enum.fields.filterMap fun f => (g.fieldMember? members f).map fun n =>
    "    " ++ (enum.name ++ "." ++ f.name) ++ " => " ++ (g.memberProperty i n).name ++ ","

theorem map_enumCases : ((g.enumCases members enum).map fun c =>
    "    " ++ c.1 ++ " => " ++ g.memberName i c.2 ++ ",") = g.arms i members enum := by
  simp only [enumCases, arms, List.map_filterMap, Option.map_map, Function.comp_def,
    memberProperty]

/-- The method that selects among the members by a value of the enum, anew where it hides one. -/
def selector (g : LinkGraph) (i : NodeId) (relatives members : List NodeId) (enum : TypeSymbol) :
    Decl.Method where
  accessibility := .internalAccess
  modifiers := .ofList
    (if !g.arena.isCore i || !(relatives.filter (g.delimits enum.name)).isEmpty then [.new] else [])
  returnType := g.ownerType i
  name := "OfType"
  parameters := [.of enum.name "delimiter"]
  body := .block (["return delimiter switch", "\x7b"] ++ g.arms i members enum
    ++ ["    _ => this", "\x7d;"])

/-- Beside the method under its own name there are only such as call it. -/
theorem method_mem_delimiterMethods {relatives : List NodeId} {m : Decl.Method} :
    (m : Member) ∈ g.delimiterMethods i relatives ⟨enum.name, g.enumCases members enum⟩ ↔
      m = g.selector i relatives members enum ∨ ∃ n ∈ relatives, g.delimits enum.name n = true ∧
        m = { returnType := g.ownerType n
              name := "OfType"
              explicitInterface := some (g.arena.fullPath n)
              parameters := [.of enum.name "delimiter"]
              body := .expression "OfType(delimiter)" } := by
  simp only [delimiterMethods, map_enumCases, List.mem_cons, List.mem_map, List.mem_filter,
    Member.leaf.injEq, Decl.Leaf.method.injEq, and_assoc, eq_comm (b := m)]
  rfl

section Declared
variable {v : NodeState} (hk : g.arena.category i = .hierarchy) (hv : g.state? i = some v)
  (hs : g.hierarchyState? i = some s) (h : g.DeclaredAs i d)
include hk hv hs h

theorem DeclaredAs.method_mem_iff (hrecorded : g.Recorded) {m : Decl.Method}
    (hm : m.name = "OfType") : m ∈ d.methods ↔ ∃ enum, g.Discriminates i enum ∧
      g.enumCases s.members enum ≠ [] ∧ (m : Member) ∈ g.delimiterMethods i
        (g.composedHierarchies v) ⟨enum.name, g.enumCases s.members enum⟩ := by
  obtain ⟨v', s', hv', hs', hne⟩ := h.exists_hierarchyState hk
  obtain rfl := Option.some.inj (hv.symm.trans hv')
  obtain rfl := Option.some.inj (hs.symm.trans hs')
  obtain ⟨face, _, hpart, _, hface⟩ := exists_hierarchyFace hv hs hk hne
  have hcreate : (m : Member) ≠ g.createMethod i s.implementation [.static] := by
    intro heq
    cases heq
    exact absurd (show "Create" = "OfType" from hm) (by decide)
  rw [TypeDecl.mem_methods, h.mem_members_iff hpart rfl hcreate, hface]
  simp only [method_not_mem_memberProperties, method_not_mem_composedMembers, and_false,
    exists_false, false_or, (hrecorded.hierarchy_eq hs).2, mem_delimiters_iff]
  constructor
  · rintro ⟨_, ⟨enum, henum, hcases, rfl⟩, hmem⟩
    exact ⟨enum, henum, hcases, hmem⟩
  · rintro ⟨enum, henum, hcases, hmem⟩
    exact ⟨_, ⟨enum, henum, hcases, rfl⟩, hmem⟩

end Declared

/-- An enum is known by its name. -/
theorem Discriminates.type?_eq (hg : g.compilation = .ofTypes types)
    (h : g.Discriminates i enum) : g.compilation.type? enum.name = some enum := by
  obtain ⟨_, _, _, p, _, _, henum⟩ := h
  rw [hg] at henum ⊢
  rw [(Compilation.type?_ofTypes_iff.mp henum).2]
  exact henum

/-- A hierarchy declares a method for each enum that has a field which stands for a member, and no
two methods for one enum. The arms of a method are those of the fields, in their order; each names
the property of the member that the field stands for, and that property is declared. What answers
for other hierarchies calls these methods. -/
theorem selectors_declared (hv : Visits (ofTargets (.ofTypes types) sch targets) g)
    (hk : g.isHierarchyNode i = true) (h : g.DeclaredAs i d) :
    ∃ v s, g.state? i = some v ∧ g.hierarchyState? i = some s ∧
      (∀ m : Decl.Method, m.name = "OfType" → m.explicitInterface = none → (m ∈ d.methods ↔
        ∃ enum, g.Discriminates i enum ∧ (∃ f ∈ enum.fields, ∃ n, g.StandsFor s.members f n) ∧
          m = g.selector i (g.composedHierarchies v) s.members enum)) ∧
      ((d.methods.filter fun m => m.name = "OfType" ∧ m.explicitInterface = none).map
        fun m => m.parameters.map (·.typeName)).Nodup ∧
      (∀ f n, g.fieldMember? s.members f = some n ↔ g.StandsFor s.members f n) ∧
      (∀ f n, g.StandsFor s.members f n → (g.memberProperty i n : Member) ∈ d.members) ∧
      ∀ m ∈ d.methods, m.name = "OfType" → m.explicitInterface ≠ none →
        m.body = .expression "OfType(delimiter)" := by
  have hcategory : g.arena.category i = .hierarchy := beq_iff_eq.mp hk
  obtain ⟨v, s, hstate, hs, hne⟩ := h.exists_hierarchyState hcategory
  have hmethod {m : Decl.Method} (hm : m.name = "OfType") :=
    h.method_mem_iff hcategory hstate hs hv.recorded hm
  have hown {m : Decl.Method} (hm : m.name = "OfType") (hi : m.explicitInterface = none) :
      m ∈ d.methods ↔ ∃ enum, g.Discriminates i enum ∧
        (∃ f ∈ enum.fields, ∃ n, g.StandsFor s.members f n) ∧
        m = g.selector i (g.composedHierarchies v) s.members enum := by
    rw [hmethod hm]
    refine exists_congr fun enum => and_congr_right fun _ => ?_
    rw [method_mem_delimiterMethods, Ne, enumCases_eq_nil, or_iff_left]
    · simp
    · rintro ⟨_, _, _, rfl⟩
      cases hi
  obtain ⟨_, _, hpart, hnodup, _⟩ := exists_hierarchyFace hstate hs hcategory hne
  have hmethods := TypeDecl.nodup_methods_of_nodup (h.nodup_members hpart hnodup)
  refine ⟨v, s, hstate, hs, fun m hm hi => hown hm hi, ?_, fun f n => fieldMember?_eq_some,
    fun f n hn => ?_, fun m hmem hm hi => ?_⟩
  · refine (hmethods.filter _).map_on fun m hm m' hm' heq => ?_
    obtain ⟨hm, hname, hinterface⟩ : m ∈ d.methods ∧ m.name = "OfType" ∧
        m.explicitInterface = none := by simpa using hm
    obtain ⟨hm', hname', hinterface'⟩ : m' ∈ d.methods ∧ m'.name = "OfType" ∧
        m'.explicitInterface = none := by simpa using hm'
    obtain ⟨enum, henum, _, rfl⟩ := (hown hname hinterface).mp hm
    obtain ⟨enum', henum', _, rfl⟩ := (hown hname' hinterface').mp hm'
    have hsame : enum.name = enum'.name := by
      simpa [selector, Decl.Parameter.of] using heq
    have htype := henum.type?_eq hv.grounded.compilation_eq
    rw [hsame, henum'.type?_eq hv.grounded.compilation_eq] at htype
    rw [Option.some.inj htype]
  · exact (h.memberProperty_mem_iff hcategory hs rfl).mpr ⟨n, hn.mem, rfl⟩
  · obtain ⟨enum, _, _, hmem⟩ := (hmethod hm).mp hmem
    rcases method_mem_delimiterMethods.mp hmem with rfl | ⟨_, _, _, rfl⟩
    · exact absurd rfl hi
    · rfl

theorem selects_memberGraph : (memberGraph (apartNames true)).Discriminates 2
      (channelEnum (apartNames true)) ∧
    (channelEnum (apartNames true)).fields.map
      ((memberGraph (apartNames true)).fieldMember? [4, 6]) = [some 4, some 6] ∧
    (memberGraph (apartNames true)).arms 2 [4, 6] (channelEnum (apartNames true)) =
      ["    Discord.ChannelType.GuildChannel => Guild,",
       "    Discord.ChannelType.ThreadChannel => Thread,"] := by
  decide +kernel

/-- Two properties have the type of the enum, and there is one method for it. -/
theorem selectors_declared_sample : ∃ d, (memberGraph (apartNames true)).visit.1.DeclaredAs 2 d ∧
    (∃ m ∈ d.methods, m.name = "OfType" ∧ m.explicitInterface = none ∧
      m.parameters = [.of "Discord.ChannelType" "delimiter"] ∧ m.body = .block
        ["return delimiter switch", "\x7b", "    Discord.ChannelType.GuildChannel => Guild,",
          "    Discord.ChannelType.ThreadChannel => Thread,", "    _ => this", "\x7d;"]) ∧
    ((d.methods.filter fun m => m.name = "OfType" ∧ m.explicitInterface = none).map
      fun m => m.parameters.map (·.typeName)).Nodup := by
  obtain ⟨_, hvisited, s, d, hs, hmembers, hd⟩ := exists_memberGraph true
  obtain ⟨_, _, hk, _⟩ := memberGraph_nodes true
  obtain ⟨henum, hfields, harms⟩ := selects_memberGraph
  have hv : Visits (memberGraph (apartNames true)) (memberGraph (apartNames true)).visit.1 :=
    .again .refl
  have hprogress : Progress (memberGraph (apartNames true)) []
    (memberGraph (apartNames true)).visit.1 := hv.progress
  have henum' : (memberGraph (apartNames true)).visit.1.Discriminates 2
      (channelEnum (apartNames true)) := by
    rw [hprogress.same]
    exact henum
  have harms' : (memberGraph (apartNames true)).visit.1.arms 2 [4, 6]
      (channelEnum (apartNames true)) = (memberGraph (apartNames true)).arms 2 [4, 6]
        (channelEnum (apartNames true)) := by
    rw [hprogress.same]
    rfl
  have hfield (f : Symbol.Field) : (memberGraph (apartNames true)).visit.1.fieldMember? [4, 6] f
      = (memberGraph (apartNames true)).fieldMember? [4, 6] f := by
    rw [hprogress.same]
    rfl
  rw [← hprogress.arena_eq] at hk
  obtain ⟨v, s', _, hs', hmethods, hnodup, hstands, _⟩ :=
    selectors_declared hv (beq_iff_eq.mpr hk) hd
  obtain rfl := Option.some.inj (hs.symm.trans hs')
  refine ⟨d, hd, ⟨_, (hmethods _ rfl rfl).mpr ⟨_, henum', ?_, rfl⟩, rfl, rfl, rfl, ?_⟩, hnodup⟩
  · obtain ⟨f, hf, hfound⟩ := List.mem_map.mp (hfields ▸ List.mem_cons_self)
    refine ⟨f, hf, 4, (hstands f 4).mp ?_⟩
    rw [hmembers, hfield, hfound]
  · rw [selector, hmembers, harms', harms]
    rfl

end ActorLinks.LinkGraph
