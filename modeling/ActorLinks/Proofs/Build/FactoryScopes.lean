import Mathlib.Data.List.Nodup
import ActorLinks.Proofs.Build.Factories

/-! # Names in provider factories

The members for the constructors of an actor all have the same two names, and a factory takes its
parameters as they are named: by the constructor, or after a related actor. Nothing sees to it that
the names differ, nor that one of them is that of the client, to which the call refers.
-/
namespace ActorLinks

namespace Member

def field? : Member → Option Decl.Field
  | leaf (.field d) => some d
  | _ => none

theorem field?_eq_some {m : Member} {f : Decl.Field} :
    m.field? = some f ↔ m = leaf (.field f) := by
  cases m with
  | type t => simp [field?]
  | leaf l => cases l <;> simp [field?]

theorem method?_eq_some {m : Member} {d : Decl.Method} :
    m.method? = some d ↔ m = leaf (.method d) := by
  cases m with
  | type t => simp [method?]
  | leaf l => cases l <;> simp [method?]

end Member

namespace TypeDecl

def fields (d : TypeDecl) : List Decl.Field := d.members.filterMap Member.field?

/-- No field has the name of another, and the parameters of each factory are apart from each other
and take in the client, to which its body refers. -/
structure ScopesProviders (d : TypeDecl) : Prop where
  nodup_fields : (d.fields.map (·.name)).Nodup
  nodup_parameters : ∀ method ∈ d.methods, method.name = "GetProvider" →
    (method.parameters.map (·.name)).Nodup
  client_mem : ∀ method ∈ d.methods, method.name = "GetProvider" →
    "client" ∈ method.parameters.map (·.name)

variable {d : TypeDecl}

theorem mem_fields {f : Decl.Field} : f ∈ d.fields ↔ Member.leaf (.field f) ∈ d.members := by
  simp [fields, List.mem_filterMap, Member.field?_eq_some]

theorem mem_methods {m : Decl.Method} : m ∈ d.methods ↔ Member.leaf (.method m) ∈ d.members := by
  simp [methods, List.mem_filterMap, Member.method?_eq_some]

theorem nodup_fields_of_nodup (h : d.members.Nodup) : d.fields.Nodup := by
  refine List.Nodup.filterMap ?_ h
  intro m n f hm hn
  rw [Member.field?_eq_some.mp hm, Member.field?_eq_some.mp hn]

theorem nodup_methods_of_nodup (h : d.members.Nodup) : d.methods.Nodup := by
  refine List.Nodup.filterMap ?_ h
  intro m n k hm hn
  rw [Member.method?_eq_some.mp hm, Member.method?_eq_some.mp hn]

end TypeDecl

namespace LinkGraph
variable {g : LinkGraph} {i : NodeId} {k : Symbol.Constructor}

/-- What the factory of a constructor takes, with the defaults at the end. -/
def factoryParameters (g : LinkGraph) (i : NodeId) (k : Symbol.Constructor) :
    List Decl.Parameter :=
  let taken := (passedOn (g.target i) k).map (·.decl)
    ++ (g.uncovered (g.target i) (g.relatedNodes i) k).map g.relatedParameter
  taken.filter (fun p => p.default.isNone) ++ (taken.filter fun p => p.default.isSome).reverse

def providerType (g : LinkGraph) (i : NodeId) (k : Symbol.Constructor) : String :=
  "Func<" ++ ", ".intercalate ((g.factoryParameters i k).map (·.typeName)
    ++ [(g.target i).actorProvider]) ++ ">"

/-- The related actors that the factory takes in addition have names of their own, and there is a
client among all that it takes. -/
structure KeepsNamesApart (g : LinkGraph) (i : NodeId) (k : Symbol.Constructor) : Prop where
  nodup_related : ((g.uncovered (g.target i) (g.relatedNodes i) k).map
    g.relatedParameterName).Nodup
  ne_related : ∀ p ∈ passedOn (g.target i) k,
    ∀ n ∈ g.uncovered (g.target i) (g.relatedNodes i) k, p.name ≠ g.relatedParameterName n
  exists_client : (∃ p ∈ passedOn (g.target i) k, p.name = "client") ∨
    ∃ n ∈ g.uncovered (g.target i) (g.relatedNodes i) k, g.relatedParameterName n = "client"

section Actor
variable {s : ActorState} (hs : s.additionalRelationships = g.additionalRelationships i)
include hs

theorem parameters_factory :
    Factory.parameters (g.factory (g.target i) s k) = g.factoryParameters i k := by
  rw [Factory.parameters, parameter_arguments, hs]
  rfl

theorem typeName_providerField :
    (providerField (g.target i) (g.factory (g.target i) s k)).typeName = g.providerType i k := by
  rw [providerType, ← parameters_factory hs]
  rfl

theorem providerField_eq_iff {l : Symbol.Constructor} :
    providerField (g.target i) (g.factory (g.target i) s k)
      = providerField (g.target i) (g.factory (g.target i) s l) ↔
    g.providerType i k = g.providerType i l := by
  rw [← typeName_providerField hs, ← typeName_providerField hs]
  constructor
  · intro h
    rw [h]
  · intro h
    simpa [providerField] using h

theorem names_factory : ((providerMethod (g.target i) s (g.factory (g.target i) s k)).parameters.map
    (·.name)).Perm ((passedOn (g.target i) k).map (·.name)
      ++ (g.uncovered (g.target i) (g.relatedNodes i) k).map g.relatedParameterName) := by
  have htakes := ((provides_factory hs (k := k)).takes).map (·.name)
  rw [List.map_append, List.map_map, List.map_map] at htakes
  exact htakes

/-- As the constructor names its parameters apart, only the related actors can be in the way. -/
theorem keepsNamesApart_iff (hnames : (k.parameters.map (·.name)).Nodup) :
    (((providerMethod (g.target i) s (g.factory (g.target i) s k)).parameters.map (·.name)).Nodup ∧
      "client" ∈ (providerMethod (g.target i) s (g.factory (g.target i) s k)).parameters.map
        (·.name)) ↔ g.KeepsNamesApart i k := by
  have hperm := names_factory (k := k) hs
  have hpassed : ((passedOn (g.target i) k).map (·.name)).Nodup :=
    hnames.sublist (List.filter_sublist.map _)
  rw [hperm.nodup_iff, hperm.mem_iff, List.nodup_append]
  constructor
  · rintro ⟨⟨_, hrelated, hne⟩, hclient⟩
    refine ⟨hrelated, ?_, ?_⟩
    · intro p hp n hn
      exact hne _ (List.mem_map_of_mem hp) _ (List.mem_map_of_mem hn)
    · rcases List.mem_append.mp hclient with hmem | hmem
      · exact Or.inl (List.mem_map.mp hmem)
      · exact Or.inr (List.mem_map.mp hmem)
  · rintro ⟨hrelated, hne, hclient⟩
    refine ⟨⟨hpassed, hrelated, ?_⟩, ?_⟩
    · intro a ha b hb
      obtain ⟨p, hp, rfl⟩ := List.mem_map.mp ha
      obtain ⟨n, hn, rfl⟩ := List.mem_map.mp hb
      exact hne p hp n hn
    · rcases hclient with hmem | hmem
      · exact List.mem_append_left _ (List.mem_map.mpr hmem)
      · exact List.mem_append_right _ (List.mem_map.mpr hmem)

end Actor

section Declaration
variable {s : ActorState} {symbol : TypeSymbol} {own : TypeDecl}
  (hsymbol : g.actorSymbol? i = some symbol)
  (hmembers : ∀ l, Member.leaf l ∈ own.members ↔ Member.leaf l ∈ g.providerFactories i s)
include hsymbol hmembers

theorem mem_fields_iff {f : Decl.Field} : f ∈ own.fields ↔ ∃ k ∈ symbol.constructors,
    g.BearsIdentity i symbol k ∧ f = providerField (g.target i) (g.factory (g.target i) s k) := by
  rw [TypeDecl.mem_fields, hmembers, mem_providerFactories hsymbol]
  simp

theorem mem_methods_iff {m : Decl.Method} : m ∈ own.methods ↔ ∃ k ∈ symbol.constructors,
    g.BearsIdentity i symbol k ∧
      m = providerMethod (g.target i) s (g.factory (g.target i) s k) := by
  rw [TypeDecl.mem_methods, hmembers, mem_providerFactories hsymbol]
  simp

variable (hs : s.additionalRelationships = g.additionalRelationships i)
  (hnodup : own.members.Nodup)
include hs hnodup

/-- All fields have one name, so there is at most one of them, for one type. -/
theorem nodup_fields_iff : (own.fields.map (·.name)).Nodup ↔
    ∀ k ∈ symbol.constructors, g.BearsIdentity i symbol k →
      ∀ l ∈ symbol.constructors, g.BearsIdentity i symbol l →
        g.providerType i k = g.providerType i l := by
  rw [List.nodup_map_iff_inj_on (TypeDecl.nodup_fields_of_nodup hnodup)]
  constructor
  · intro hinj k hk hidentity l hl hidentity'
    have hfield := (mem_fields_iff hsymbol hmembers).mpr ⟨k, hk, hidentity, rfl⟩
    have hfield' := (mem_fields_iff hsymbol hmembers).mpr ⟨l, hl, hidentity', rfl⟩
    exact (providerField_eq_iff hs).mp (hinj _ hfield _ hfield' rfl)
  · intro htypes f hf f' hf' _
    obtain ⟨k, hk, hidentity, rfl⟩ := (mem_fields_iff hsymbol hmembers).mp hf
    obtain ⟨l, hl, hidentity', rfl⟩ := (mem_fields_iff hsymbol hmembers).mp hf'
    exact (providerField_eq_iff hs).mpr (htypes k hk hidentity l hl hidentity')

end Declaration

/-- The members are well scoped where all constructors come to one field, and each keeps its names
apart. -/
theorem providers_scoped_iff {c : Compilation} {sch : Schematic} {targets : List Target}
    {symbol : TypeSymbol} (hv : Visits (ofTargets c sch targets) g) (hvisited : g.isVisited = true)
    (hi : i ∈ g.roots) (hcore : (g.target i).isCore = false)
    (hsymbol : g.actorSymbol? i = some symbol)
    (hnames : ∀ k ∈ symbol.constructors, (k.parameters.map (·.name)).Nodup) (treeView : Bool) :
    ∃ decl own, g.buildActor i treeView = .ok decl ∧ g.HasDeclaration i decl own ∧
      (own.ScopesProviders ↔
        (∀ k ∈ symbol.constructors, g.BearsIdentity i symbol k →
          ∀ l ∈ symbol.constructors, g.BearsIdentity i symbol l →
            g.providerType i k = g.providerType i l) ∧
        ∀ k ∈ symbol.constructors, g.BearsIdentity i symbol k → g.KeepsNamesApart i k) := by
  obtain ⟨decl, own, s, hdecl, hown, hnodup, hs, hmembers⟩ :=
    exists_declaration hv hvisited hi hcore treeView
  have hfields := nodup_fields_iff hsymbol hmembers hs hnodup
  refine ⟨decl, own, hdecl, hown, ?_, ?_⟩
  · rintro ⟨hfieldNames, hparameters, hclient⟩
    refine ⟨hfields.mp hfieldNames, ?_⟩
    intro k hk hidentity
    have hmethod := (mem_methods_iff hsymbol hmembers).mpr ⟨k, hk, hidentity, rfl⟩
    exact (keepsNamesApart_iff hs (hnames k hk)).mp
      ⟨hparameters _ hmethod rfl, hclient _ hmethod rfl⟩
  · rintro ⟨htypes, happart⟩
    refine ⟨hfields.mpr htypes, ?_, ?_⟩
    · intro m hm _
      obtain ⟨k, hk, hidentity, rfl⟩ := (mem_methods_iff hsymbol hmembers).mp hm
      exact ((keepsNamesApart_iff hs (hnames k hk)).mpr (happart k hk hidentity)).1
    · intro m hm _
      obtain ⟨k, hk, hidentity, rfl⟩ := (mem_methods_iff hsymbol hmembers).mp hm
      exact ((keepsNamesApart_iff hs (hnames k hk)).mpr (happart k hk hidentity)).2

/-- Nothing is in the way of the one factory of the thread. -/
theorem providers_scoped_iff_sample : ∃ decl own,
    (threadGraph [labelledConstructor]).visit.1.buildActor 0 false = .ok decl ∧
    (threadGraph [labelledConstructor]).visit.1.HasDeclaration 0 decl own ∧
    own.ScopesProviders := by
  have hks : [labelledConstructor] ∈
      [[labelledConstructor], [plainConstructor, clashingConstructor]] := List.mem_cons_self
  have hvisited : (threadGraph [labelledConstructor]).visit.1.isVisited = true :=
    (visited_of_quiet (threadGraph_actors _ hks).1).2
  have hv : Visits (threadGraph [labelledConstructor])
    (threadGraph [labelledConstructor]).visit.1 := .again .refl
  obtain ⟨hroot, htarget, ⟨symbol, hsymbol, hconstructors, _⟩, hrelated, hguild, huncovered⟩ :=
    exists_threadGraph hks hv
  have hnames : (∀ k ∈ [labelledConstructor], (k.parameters.map (·.name)).Nodup) ∧
      (∀ p ∈ passedOn (pairTarget .rest "Thread") labelledConstructor, p.name ≠ "guild") ∧
      ∃ p ∈ passedOn (pairTarget .rest "Thread") labelledConstructor, p.name = "client" := by
    decide +kernel
  obtain ⟨decl, own, hdecl, hown, hiff⟩ := providers_scoped_iff hv hvisited hroot
    (by rw [htarget]; rfl) hsymbol (hconstructors ▸ hnames.1) false
  refine ⟨decl, own, hdecl, hown, hiff.mpr ⟨?_, ?_⟩⟩
  · intro k hk _ l hl _
    rw [hconstructors] at hk hl
    rw [List.mem_singleton.mp hk, List.mem_singleton.mp hl]
  · intro k hk _
    rw [hconstructors, List.mem_singleton] at hk
    subst hk
    have hguildName := congrArg Decl.Parameter.name hguild
    refine ⟨?_, ?_, Or.inl (htarget ▸ hnames.2.2)⟩
    · rw [hrelated, huncovered _ List.mem_cons_self]
      exact List.nodup_singleton _
    · rw [hrelated, huncovered _ List.mem_cons_self, htarget]
      intro p hp n hn
      rw [List.mem_singleton.mp hn]
      exact fun h => hnames.2.1 p hp (h.trans hguildName)

/-- With a second constructor there is a second field of the name; and one of the two methods has
two parameters of one name, and none that is the client of its body. -/
theorem clashing_providers :
    (threadGraph [plainConstructor, clashingConstructor]).visit.2 = none ∧
    (threadGraph [plainConstructor, clashingConstructor]).visit.1.isVisited = true ∧
    0 ∈ (threadGraph [plainConstructor, clashingConstructor]).visit.1.roots ∧
    ((threadGraph [plainConstructor, clashingConstructor]).visit.1.target 0).isCore = false ∧
    (∃ symbol, (threadGraph [plainConstructor, clashingConstructor]).visit.1.actorSymbol? 0
        = some symbol ∧ ∀ k ∈ symbol.constructors, (k.parameters.map (·.name)).Nodup) ∧
    ∃ decl own,
      (threadGraph [plainConstructor, clashingConstructor]).visit.1.buildActor 0 false = .ok decl ∧
      (threadGraph [plainConstructor, clashingConstructor]).visit.1.HasDeclaration 0 decl own ∧
      ¬ (own.fields.map (·.name)).Nodup ∧
      ∃ method ∈ own.methods, method.name = "GetProvider" ∧
        ¬ (method.parameters.map (·.name)).Nodup ∧
        "client" ∉ method.parameters.map (·.name) := by
  have hks : [plainConstructor, clashingConstructor] ∈
      [[labelledConstructor], [plainConstructor, clashingConstructor]] := by simp
  obtain ⟨hok, hvisited⟩ : (threadGraph [plainConstructor, clashingConstructor]).visit.2 = none ∧
      (threadGraph [plainConstructor, clashingConstructor]).visit.1.isVisited = true :=
    visited_of_quiet (threadGraph_actors _ hks).1
  have hv : Visits (threadGraph [plainConstructor, clashingConstructor])
    (threadGraph [plainConstructor, clashingConstructor]).visit.1 := .again .refl
  obtain ⟨hroot, htarget, ⟨symbol, hsymbol, hconstructors, hidentity⟩, hrelated, hguild,
    huncovered⟩ := exists_threadGraph hks hv
  generalize (threadGraph [plainConstructor, clashingConstructor]).visit.1 = g at *
  have hcore : (g.target 0).isCore = false := by
    rw [htarget]
    rfl
  obtain ⟨decl, own, s, hdecl, hown, hnodup, hs, hmembers⟩ :=
    exists_declaration hv hvisited hroot hcore false
  have hplain : g.factoryParameters 0 plainConstructor
      = [clientParameter.decl, guildParameter] := by
    rw [factoryParameters, hrelated, huncovered _ List.mem_cons_self, htarget, List.map_singleton,
      hguild]
    decide +kernel
  have hclashing : g.factoryParameters 0 clashingConstructor
      = [{ clientParameter.decl with name := "restClient" }, ⟨"string", "guild", none⟩,
         guildParameter] := by
    rw [factoryParameters, hrelated, huncovered _ (by simp), htarget, List.map_singleton, hguild]
    decide +kernel
  refine ⟨hok, hvisited, hroot, hcore, ⟨symbol, hsymbol, ?_⟩, decl, own, hdecl, hown, ?_, ?_⟩
  · rw [hconstructors]
    decide +kernel
  · rw [nodup_fields_iff hsymbol hmembers hs hnodup, hconstructors]
    intro htypes
    have htype := htypes plainConstructor List.mem_cons_self (hidentity _ List.mem_cons_self)
      clashingConstructor (by simp) (hidentity _ (by simp))
    rw [providerType, providerType, hplain, hclashing, htarget] at htype
    exact absurd htype (by decide +kernel)
  · have hclash : clashingConstructor ∈ symbol.constructors := by
      rw [hconstructors]
      simp
    refine ⟨_, (mem_methods_iff hsymbol hmembers).mpr
      ⟨clashingConstructor, hclash, hidentity _ (by simp), rfl⟩, rfl, ?_⟩
    · have hparameters : (providerMethod (g.target 0) s
          (g.factory (g.target 0) s clashingConstructor)).parameters
          = g.factoryParameters 0 clashingConstructor := parameters_factory hs
      rw [hparameters, hclashing]
      decide +kernel

end LinkGraph

end ActorLinks
