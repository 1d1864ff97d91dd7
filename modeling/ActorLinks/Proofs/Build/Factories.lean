import ActorLinks.Proofs.Build.Explicit
import ActorLinks.Proofs.Build.Hoisted
import ActorLinks.Proofs.Build.Relationships
import ActorLinks.Proofs.Text.Names

/-! # What provider factories take and pass on

The parameters of a constructor are taken in one after the other. Each is passed on, apart from the
identity of the actor itself, and takes away the related actors that it identifies; what is then
left of them is taken on top. So the parameters, the arguments and the cache keys of a factory fit
together, though each of these lists is made by itself.
-/
namespace ActorLinks

theorem simpleName_identifiable (t : Target) :
    Text.simpleName t.identifiable = "IIdentifiable" := by
  obtain ⟨rest, hrest⟩ : ∃ rest, t.identifiable = "Discord.IIdentifiable<" ++ rest := by
    refine ⟨t.id ++ ", " ++ t.entity ++ ", " ++ t.actor ++ ", " ++ t.model ++ ">", ?_⟩
    unfold Target.identifiable
    simp only [toString, String.append_assoc]
  have hmark : "Discord.IIdentifiable<".toList = "Discord.IIdentifiable".toList ++ ['<'] ∧
      '<' ∉ "Discord.IIdentifiable".toList := by
    decide +kernel
  rw [Text.simpleName, hrest, String.toList_append, hmark.1, List.append_assoc,
    List.singleton_append, Text.unboundChars_append hmark.2]
  decide +kernel

def Symbol.Parameter.decl (p : Symbol.Parameter) : Decl.Parameter := ⟨p.typeName, p.name, p.default⟩

namespace LinkGraph
variable {g : LinkGraph} {t : Target} {p : Symbol.Parameter} {n : NodeId}

/-- The parameter takes the identity of the related actor. The identity of the actor itself, which
a factory makes out of the id, covers no other. -/
def covers (g : LinkGraph) (t : Target) (n : NodeId) (p : Symbol.Parameter) : Bool :=
  p.typeName == (g.target n).identifiable && p.typeName != t.identifiable

/-- The related actors that no parameter of the constructor covers. -/
def uncovered (g : LinkGraph) (t : Target) (related : List NodeId) (c : Symbol.Constructor) :
    List NodeId :=
  related.filter fun n => !c.parameters.any (g.covers t n)

def relatedParameter (g : LinkGraph) (n : NodeId) : Decl.Parameter :=
  .of (g.target n).identifiable (g.relatedParameterName n)

/-- All but the identity of the actor itself. -/
def passedOn (t : Target) (c : Symbol.Constructor) : List Symbol.Parameter :=
  c.parameters.filter fun p => p.typeName != t.identifiable

def argumentFor (t : Target) (p : Symbol.Parameter) : FactoryArgument :=
  if p.typeName = t.identifiable then ⟨p.name, none⟩ else passOn p

def relatedArgument (g : LinkGraph) (n : NodeId) : FactoryArgument :=
  ⟨g.relatedParameterName n, some (g.relatedParameter n)⟩

section Steps
variable (g t)

theorem covers_eq_false (h : p.simpleTypeName ≠ "IIdentifiable") (n : NodeId) :
    g.covers t n p = false := by
  have hne : p.typeName ≠ (g.target n).identifiable := by
    intro heq
    apply h
    rw [Symbol.Parameter.simpleTypeName, heq, simpleName_identifiable]
  rw [covers, beq_eq_false_iff_ne.mpr hne, Bool.false_and]

/-- What taking in a parameter comes to, whatever its type. -/
theorem takeParameter_eq (f : Factory) (p : Symbol.Parameter) : g.takeParameter t f p
    = { pending := f.pending.filter fun n => !g.covers t n p
        cacheKeys := if f.pending.any fun n => g.covers t n p then f.cacheKeys ++ [p.name]
          else f.cacheKeys
        arguments := f.arguments ++ [argumentFor t p] } := by
  by_cases hsimple : p.simpleTypeName = "IIdentifiable"
  · by_cases hown : p.typeName = t.identifiable
    · have hnone (n : NodeId) : g.covers t n p = false := by simp [covers, hown]
      simp [takeParameter, hsimple, hown, hnone, argumentFor]
    · have hcovers (n : NodeId) : g.covers t n p = ((g.target n).identifiable == p.typeName) := by
        simp [covers, hown, Bool.beq_comm]
      -- the pending actors get fewer where one of them is covered
      have hfewer : (f.pending.filter fun n => (g.target n).identifiable != p.typeName).length
          = f.pending.length ↔ ¬ (f.pending.any fun n => g.covers t n p) = true := by
        rw [List.length_filter_eq_length_iff]
        simp [hcovers]
      simp only [takeParameter, hsimple, hown, if_true, if_false, hfewer, argumentFor, hcovers]
      simp only [ite_not]
      rfl
  · have hown : p.typeName ≠ t.identifiable := by
      intro heq
      apply hsimple
      rw [Symbol.Parameter.simpleTypeName, heq, simpleName_identifiable]
    have hnone := covers_eq_false g t hsimple
    simp [takeParameter, hsimple, hown, hnone, argumentFor]

theorem arguments_foldl (ps : List Symbol.Parameter) (f : Factory) :
    (ps.foldl (g.takeParameter t) f).arguments = f.arguments ++ ps.map (argumentFor t) := by
  induction ps generalizing f with
  | nil => simp
  | cons p ps ih =>
    rw [List.foldl_cons, ih, takeParameter_eq]
    simp

theorem pending_foldl (ps : List Symbol.Parameter) (f : Factory) :
    (ps.foldl (g.takeParameter t) f).pending
      = f.pending.filter fun n => !ps.any (g.covers t n) := by
  induction ps generalizing f with
  | nil => simp
  | cons p ps ih =>
    rw [List.foldl_cons, ih, takeParameter_eq]
    simp [List.filter_filter, Bool.and_comm]

/-- A key is the name of a parameter that covers one of the pending actors. -/
theorem mem_cacheKeys_foldl (ps : List Symbol.Parameter) (f : Factory) (key : String)
    (h : key ∈ (ps.foldl (g.takeParameter t) f).cacheKeys) :
    key ∈ f.cacheKeys ∨ ∃ p ∈ ps, p.name = key ∧ ∃ n ∈ f.pending, g.covers t n p = true := by
  induction ps generalizing f with
  | nil => exact Or.inl h
  | cons p ps ih =>
    rw [List.foldl_cons, takeParameter_eq] at h
    rcases ih _ h with hkey | ⟨q, hq, hname, n, hn, hcovers⟩
    · by_cases hany : (f.pending.any fun n => g.covers t n p) = true
      · rw [if_pos hany] at hkey
        rcases List.mem_append.mp hkey with hkey | hkey
        · exact Or.inl hkey
        · obtain ⟨n, hn, hcovers⟩ := List.any_eq_true.mp hany
          exact Or.inr ⟨p, List.mem_cons_self, (List.mem_singleton.mp hkey).symm, n, hn, hcovers⟩
      · rw [if_neg hany] at hkey
        exact Or.inl hkey
    · have hpending := (List.mem_filter.mp hn).1
      exact Or.inr ⟨q, List.mem_cons_of_mem _ hq, hname, n, hpending, hcovers⟩

theorem cacheKeys_subset_foldl (ps : List Symbol.Parameter) (f : Factory) :
    f.cacheKeys ⊆ (ps.foldl (g.takeParameter t) f).cacheKeys := by
  induction ps generalizing f with
  | nil => exact fun _ hkey => hkey
  | cons p ps ih =>
    intro key hkey
    apply ih
    rw [takeParameter_eq]
    by_cases hany : (f.pending.any fun n => g.covers t n p) = true
    · simp [hany, hkey]
    · simp [hany, hkey]

/-- Of the parameters that cover a pending actor the first gives a key. -/
theorem exists_cacheKey_foldl (ps : List Symbol.Parameter) (f : Factory) (hn : n ∈ f.pending)
    (hps : ps.any (g.covers t n) = true) :
    ∃ p ∈ ps, g.covers t n p = true ∧ p.name ∈ (ps.foldl (g.takeParameter t) f).cacheKeys := by
  induction ps generalizing f with
  | nil => simp at hps
  | cons p ps ih =>
    by_cases hp : g.covers t n p = true
    · have hany : (f.pending.any fun n => g.covers t n p) = true :=
        List.any_eq_true.mpr ⟨n, hn, hp⟩
      have hkey : p.name ∈ (g.takeParameter t f p).cacheKeys := by
        rw [takeParameter_eq]
        simp [hany]
      exact ⟨p, List.mem_cons_self, hp, cacheKeys_subset_foldl g t ps _ hkey⟩
    · have hrest : ps.any (g.covers t n) = true := by simpa [hp] using hps
      have hpending : n ∈ (g.takeParameter t f p).pending := by
        rw [takeParameter_eq]
        exact List.mem_filter.mpr ⟨hn, by simpa using hp⟩
      obtain ⟨q, hq, hcovers, hkey⟩ := ih _ hpending hrest
      exact ⟨q, List.mem_cons_of_mem _ hq, hcovers, hkey⟩

theorem foldl_takeRelated (ns : List NodeId) (f : Factory) : ns.foldl g.takeRelated f
    = { pending := f.pending
        cacheKeys := f.cacheKeys ++ ns.map g.relatedParameterName
        arguments := f.arguments ++ ns.map g.relatedArgument } := by
  induction ns generalizing f with
  | nil => simp
  | cons n ns ih =>
    rw [List.foldl_cons, ih]
    simp [takeRelated, relatedArgument, relatedParameter]

end Steps

section Factory
variable {s : ActorState} {c : Symbol.Constructor}

theorem arguments_factory : (g.factory t s c).arguments = c.parameters.map (argumentFor t)
    ++ (g.uncovered t s.additionalRelationships.values.flatten c).map g.relatedArgument := by
  simp only [factory, foldl_takeRelated, arguments_foldl, pending_foldl, uncovered,
    List.nil_append]

theorem decl_passedOn : (c.parameters.map (argumentFor t)).filterMap (·.parameter)
    = (passedOn t c).map (·.decl) := by
  rw [passedOn]
  induction c.parameters with
  | nil => rfl
  | cons p ps ih =>
    by_cases hown : p.typeName = t.identifiable
    · simpa [argumentFor, hown] using ih
    · simpa [argumentFor, hown, passOn, Symbol.Parameter.decl] using ih

theorem parameter_arguments : (g.factory t s c).arguments.filterMap (·.parameter)
    = (passedOn t c).map (·.decl)
      ++ (g.uncovered t s.additionalRelationships.values.flatten c).map g.relatedParameter := by
  rw [arguments_factory, List.filterMap_append, decl_passedOn, List.filterMap_map]
  congr 1
  exact congrFun List.filterMap_eq_map _

/-- A factory takes what the constructor takes, but for the identity of the actor, and the related
actors that this does not cover. -/
theorem parameters_perm : (Factory.parameters (g.factory t s c)).Perm ((passedOn t c).map (·.decl)
    ++ (g.uncovered t s.additionalRelationships.values.flatten c).map g.relatedParameter) := by
  rw [Factory.parameters, parameter_arguments]
  refine (List.Perm.append_left _ (List.reverse_perm _)).trans ?_
  have hsplit (q : Decl.Parameter) : q.default.isSome = !q.default.isNone := by
    cases q.default <;> rfl
  simp only [hsplit]
  exact List.filter_append_perm _ _

/-- No parameter with a default stands in front of one without. -/
theorem pairwise_parameters (f : Factory) :
    (Factory.parameters f).Pairwise fun p q => q.default = none → p.default = none := by
  rw [Factory.parameters, List.pairwise_append]
  refine ⟨?_, ?_, ?_⟩
  · apply List.pairwise_of_forall_mem_list
    intro p hp _ _ _
    exact Option.isNone_iff_eq_none.mp (List.mem_filter.mp hp).2
  · apply List.pairwise_of_forall_mem_list
    intro _ _ q hq hnone
    have hsome := (List.mem_filter.mp (List.mem_reverse.mp hq)).2
    rw [hnone] at hsome
    cases hsome
  · intro p hp _ _ _
    exact Option.isNone_iff_eq_none.mp (List.mem_filter.mp hp).2

/-- A key is the name of a parameter of the factory, which has the type of a related actor. -/
theorem exists_parameter_of_cacheKey {key : String} (h : key ∈ (g.factory t s c).cacheKeys) :
    ∃ q ∈ Factory.parameters (g.factory t s c), q.name = key ∧
      ∃ n ∈ s.additionalRelationships.values.flatten, q.typeName = (g.target n).identifiable := by
  rw [factory, foldl_takeRelated, pending_foldl] at h
  rcases List.mem_append.mp h with hkey | hkey
  · rcases mem_cacheKeys_foldl g t _ _ key hkey with hnil | ⟨p, hp, hname, n, hn, hcovers⟩
    · cases hnil
    · obtain ⟨htype, hother⟩ := Bool.and_eq_true_iff.mp hcovers
      refine ⟨p.decl, parameters_perm.mem_iff.mpr (List.mem_append_left _ ?_), hname, n, hn,
        beq_iff_eq.mp htype⟩
      exact List.mem_map_of_mem (List.mem_filter.mpr ⟨hp, hother⟩)
  · obtain ⟨n, hn, rfl⟩ := List.mem_map.mp hkey
    refine ⟨g.relatedParameter n, parameters_perm.mem_iff.mpr (List.mem_append_right _ ?_), rfl, n,
      (List.mem_filter.mp hn).1, rfl⟩
    exact List.mem_map_of_mem hn

/-- Each related actor is taken by a parameter that gives a key. -/
theorem exists_cacheKey (hn : n ∈ s.additionalRelationships.values.flatten) :
    ∃ q ∈ Factory.parameters (g.factory t s c), q.typeName = (g.target n).identifiable ∧
      q.name ∈ (g.factory t s c).cacheKeys := by
  have hkeys : (g.factory t s c).cacheKeys = (c.parameters.foldl (g.takeParameter t)
      { pending := s.additionalRelationships.values.flatten }).cacheKeys
        ++ (g.uncovered t s.additionalRelationships.values.flatten c).map
          g.relatedParameterName := by
    simp only [factory, foldl_takeRelated, pending_foldl, uncovered]
  by_cases hany : c.parameters.any (g.covers t n) = true
  · obtain ⟨p, hp, hcovers, hkey⟩ := exists_cacheKey_foldl g t c.parameters
      { pending := s.additionalRelationships.values.flatten } hn hany
    obtain ⟨htype, hother⟩ := Bool.and_eq_true_iff.mp hcovers
    refine ⟨p.decl, parameters_perm.mem_iff.mpr (List.mem_append_left _ ?_),
      beq_iff_eq.mp htype, ?_⟩
    · exact List.mem_map_of_mem (List.mem_filter.mpr ⟨hp, hother⟩)
    · rw [hkeys]
      exact List.mem_append_left _ hkey
  · have huncovered : n ∈ g.uncovered t s.additionalRelationships.values.flatten c :=
      List.mem_filter.mpr ⟨hn, by simpa using hany⟩
    refine ⟨g.relatedParameter n, parameters_perm.mem_iff.mpr (List.mem_append_right _ ?_), rfl, ?_⟩
    · exact List.mem_map_of_mem huncovered
    · rw [hkeys]
      exact List.mem_append_right _ (List.mem_map_of_mem huncovered)

end Factory

section Members

/-- The type of functions that make the provider from what the factory takes. -/
def delegateType (t : Target) (f : Factory) : String :=
  "Func<" ++ ", ".intercalate ((Factory.parameters f).map (·.typeName) ++ [t.actorProvider]) ++ ">"

def providerField (t : Target) (f : Factory) : Decl.Field where
  accessibility := .internalAccess
  modifiers := .ofList [.static, .readonly, .new]
  typeName := delegateType t f
  name := "DefaultActorProvider"
  initializer := some "GetProvider"

def providerMethod (t : Target) (s : ActorState) (f : Factory) : Decl.Method where
  accessibility := .internalAccess
  modifiers := .ofList [.static, .new]
  returnType := t.actorProvider
  name := "GetProvider"
  parameters := Factory.parameters f
  body := .expression ("RestActorProvider." ++ Factory.invocation t s f)

theorem members_factory (s : ActorState) (f : Factory) : Factory.members t s f
    = [(providerField t f : Member), (providerMethod t s f : Member)] := rfl

/-- What the constructor is given for its parameters, in their order, and then for the related
actors that none of them covers. -/
def constructorArguments (g : LinkGraph) (t : Target) (related : List NodeId)
    (c : Symbol.Constructor) : List String :=
  c.parameters.map (fun p =>
      if p.typeName = t.identifiable then t.identifiable ++ ".Of(id)" else p.name)
    ++ (g.uncovered t related c).map g.relatedParameterName

/-- The function that makes an actor from a client and an id. -/
def construction (g : LinkGraph) (t : Target) (related : List NodeId) (c : Symbol.Constructor) :
    String :=
  "(client, id) => new " ++ t.actor ++ "("
    ++ ", ".intercalate (g.constructorArguments t related c) ++ ")"

variable {s : ActorState} {c : Symbol.Constructor}

theorem constructorArguments_factory : Factory.constructorArguments t (g.factory t s c)
    = ", ".intercalate (g.constructorArguments t s.additionalRelationships.values.flatten c) := by
  rw [Factory.constructorArguments, arguments_factory, constructorArguments, List.map_append,
    List.map_map, List.map_map]
  congr 2
  apply List.map_congr_left
  intro p _
  by_cases hp : p.typeName = t.identifiable
  · simp [argumentFor, hp]
  · simp [argumentFor, hp, passOn]

/-- What follows the name of the method that creates a provider; a key comes before the function. -/
def creation (g : LinkGraph) (t : Target) (key : String) (related : List NodeId)
    (c : Symbol.Constructor) : String :=
  t.actor ++ ", " ++ t.id ++ ">(client, " ++ key ++ g.construction t related c ++ ")"

def cacheKey (names : List String) : String :=
  "HashCode.Combine(" ++ ", ".intercalate (names.map (· ++ ".Id")) ++ "), "

/-- Providers of actors without related ones have no key. -/
theorem body_factory (s : ActorState) (c : Symbol.Constructor) :
    (providerMethod t s (g.factory t s c)).body = .expression (
      if s.additionalRelationships = ∅ then "RestActorProvider.CreateRoot<"
        ++ g.creation t "" s.additionalRelationships.values.flatten c
      else "RestActorProvider.CreateStateful<" ++ g.creation t
        (cacheKey (g.factory t s c).cacheKeys) s.additionalRelationships.values.flatten c) := by
  have hempty : s.additionalRelationships.entries.isEmpty = true ↔
      s.additionalRelationships = ∅ := by
    obtain ⟨entries, hascending⟩ := s.additionalRelationships
    rw [List.isEmpty_iff, show (∅ : Dict (List NodeId)) = ⟨[], List.Pairwise.nil⟩ from rfl,
      Dict.mk.injEq]
  have hnames : "RestActorProvider.CreateRoot<" = "RestActorProvider." ++ "CreateRoot<" ∧
      "RestActorProvider.CreateStateful<" = "RestActorProvider." ++ "CreateStateful<" ∧
      ">(client, HashCode.Combine(" = ">(client, " ++ "HashCode.Combine(" := by
    decide +kernel
  unfold providerMethod Factory.invocation creation construction cacheKey
  rw [constructorArguments_factory, hnames.1, hnames.2.1]
  by_cases hnone : s.additionalRelationships = ∅
  · rw [if_pos hnone, if_pos (hempty.mpr hnone)]
    simp only [toString, String.append_assoc, String.empty_append]
  · rw [if_neg hnone, if_neg fun hentries => hnone (hempty.mp hentries)]
    simp only [toString, hnames.2.2, String.append_assoc]

end Members

/-- The declaration of the actor itself, inside the types that contain it. -/
def HasDeclaration (g : LinkGraph) (i : NodeId) (decl own : TypeDecl) : Prop :=
  decl.Contains own ∧ ∃ symbol, g.actorSymbol? i = some symbol ∧ own.name = symbol.declaredName

theorem nodup_actorDecl (i : NodeId) (symbol : TypeSymbol) (s : ActorState) (as : List NodeId)
    (treeView : Bool) : (g.actorDecl i symbol s as treeView).members.Nodup := by
  simp [actorDecl]

/-- Outside the core assembly, the factories are all that an actor declares beside types. -/
theorem exists_declaration {c : Compilation} {sch : Schematic} {targets : List Target} {i : NodeId}
    (hv : Visits (ofTargets c sch targets) g) (hvisited : g.isVisited = true) (hi : i ∈ g.roots)
    (hcore : (g.target i).isCore = false) (treeView : Bool) :
    ∃ decl own s, g.buildActor i treeView = .ok decl ∧ g.HasDeclaration i decl own ∧
      own.members.Nodup ∧ s.additionalRelationships = g.additionalRelationships i ∧
      ∀ l, Member.leaf l ∈ own.members ↔ Member.leaf l ∈ g.providerFactories i s := by
  have hcomplete := hv.complete_of_isVisited hvisited
  obtain ⟨decl, hdecl⟩ := hcomplete.exists_buildActor_of_mem_roots hv.grounded hi treeView
  obtain ⟨s, as, symbol, below, hat, hsymbol, _, rfl⟩ := exists_of_buildActor hdecl
  refine ⟨_, _, s, hdecl, ⟨contains_wrapInContainers _ _ _, symbol, hsymbol, ?_⟩, ?_,
    (hv.recorded.actorAt_eq hat).2.2, ?_⟩
  · simp [actorDecl]
  · exact TypeDecl.nodup_addMembers.mpr (nodup_actorDecl i symbol s as treeView)
  · intro l
    have hnested :
        Member.leaf l ∉ Built.members below ++ (Built.classes below).map Member.type := by
      simp [Built.members]
    have hbase : Member.leaf l ∉ (if (g.target i).assembly = .rest then [(g.linkBase i s : Member)]
        else []) := by
      split <;> simp
    simp [actorDecl, hcore, hnested, hbase]

/-- The constructor takes two of a client, the identity of the actor and what is named for it. -/
def BearsIdentity (g : LinkGraph) (i : NodeId) (symbol : TypeSymbol) (k : Symbol.Constructor) :
    Prop :=
  2 ≤ k.parameters.countP
    (isIdentityParameter (g.target i) (friendlyName (g.target i).actor symbol.kind))

theorem mem_providerFactories {i : NodeId} {s : ActorState} {symbol : TypeSymbol}
    (hsymbol : g.actorSymbol? i = some symbol) {m : Member} : m ∈ g.providerFactories i s ↔
      ∃ k ∈ symbol.constructors, g.BearsIdentity i symbol k ∧
        (m = (providerField (g.target i) (g.factory (g.target i) s k) : Member) ∨
          m = (providerMethod (g.target i) s (g.factory (g.target i) s k) : Member)) := by
  rw [providerFactories, hsymbol]
  simp [members_factory, BearsIdentity, and_assoc]

def relatedNodes (g : LinkGraph) (i : NodeId) : List NodeId :=
  (g.additionalRelationships i).values.flatten

/-- The members that an actor declares for one of its constructors. -/
structure Provides (g : LinkGraph) (i : NodeId) (c : Symbol.Constructor) (field : Decl.Field)
    (method : Decl.Method) : Prop where
  names : field.name = "DefaultActorProvider" ∧ method.name = "GetProvider"
  /-- It takes the parameters of the constructor, without the identity of the actor, and in addition
  one for each related actor that none of them covers. -/
  takes : method.parameters.Perm ((passedOn (g.target i) c).map (·.decl)
    ++ (g.uncovered (g.target i) (g.relatedNodes i) c).map g.relatedParameter)
  required_first : method.parameters.Pairwise fun p q => q.default = none → p.default = none
  delegate : field.typeName = "Func<" ++ ", ".intercalate
    (method.parameters.map (·.typeName) ++ [(g.target i).actorProvider]) ++ ">"
  root : g.additionalRelationships i = ∅ → method.body = .expression
    ("RestActorProvider.CreateRoot<" ++ g.creation (g.target i) "" (g.relatedNodes i) c)
  /-- The key of the cache takes in the identity of each related actor, and nothing but these. -/
  stateful : g.additionalRelationships i ≠ ∅ → ∃ names : List String,
    method.body = .expression ("RestActorProvider.CreateStateful<"
      ++ g.creation (g.target i) (cacheKey names) (g.relatedNodes i) c) ∧
    (∀ n ∈ g.relatedNodes i, ∃ q ∈ method.parameters,
      q.typeName = (g.target n).identifiable ∧ q.name ∈ names) ∧
    ∀ name ∈ names, ∃ q ∈ method.parameters, q.name = name ∧
      ∃ n ∈ g.relatedNodes i, q.typeName = (g.target n).identifiable
  root_iff : (∃ rest, method.body = .expression ("RestActorProvider.CreateRoot<" ++ rest)) ↔
    g.additionalRelationships i = ∅

theorem createRoot_ne_createStateful (p q : String) :
    "RestActorProvider.CreateStateful<" ++ p ≠ "RestActorProvider.CreateRoot<" ++ q := by
  intro h
  have htext := congrArg String.toList h
  rw [String.toList_append, String.toList_append] at htext
  have hstateful := List.prefix_append "RestActorProvider.CreateStateful<".toList p.toList
  rw [htext] at hstateful
  rcases List.prefix_or_prefix_of_prefix hstateful (List.prefix_append _ _) with h | h
  · exact absurd h (by decide +kernel)
  · exact absurd h (by decide +kernel)

theorem provides_factory {i : NodeId} {s : ActorState} {k : Symbol.Constructor}
    (hs : s.additionalRelationships = g.additionalRelationships i) :
    g.Provides i k (providerField (g.target i) (g.factory (g.target i) s k))
      (providerMethod (g.target i) s (g.factory (g.target i) s k)) := by
  have hbody := body_factory (g := g) (t := g.target i) s k
  have htakes := parameters_perm (g := g) (t := g.target i) (s := s) (c := k)
  rw [hs, ← relatedNodes] at hbody htakes
  refine ⟨⟨rfl, rfl⟩, htakes, pairwise_parameters _, rfl, ?_, ?_, ?_⟩
  · intro hnone
    rw [hbody, if_pos hnone]
  · intro hsome
    refine ⟨(g.factory (g.target i) s k).cacheKeys, ?_, ?_, ?_⟩
    · rw [hbody, if_neg hsome]
    · intro n hn
      exact exists_cacheKey (hs ▸ hn)
    · intro name hname
      obtain ⟨q, hq, heq, n, hn, htype⟩ := exists_parameter_of_cacheKey hname
      rw [hs] at hn
      exact ⟨q, hq, heq, n, hn, htype⟩
  · rw [hbody]
    by_cases hnone : g.additionalRelationships i = ∅
    · rw [if_pos hnone]
      exact iff_of_true ⟨_, rfl⟩ hnone
    · rw [if_neg hnone]
      refine iff_of_false ?_ hnone
      rintro ⟨rest, hrest⟩
      exact createRoot_ne_createStateful _ _ (Decl.MethodBody.expression.inj hrest)

/-- Outside the core assembly, an actor declares a field and a method for each constructor that
bears its identity, and nothing else beside types. -/
theorem providers_of_constructors {c : Compilation} {sch : Schematic} {targets : List Target}
    {i : NodeId} {symbol : TypeSymbol} (hv : Visits (ofTargets c sch targets) g)
    (hvisited : g.isVisited = true) (hi : i ∈ g.roots) (hcore : (g.target i).isCore = false)
    (hsymbol : g.actorSymbol? i = some symbol) (treeView : Bool) :
    ∃ decl own, g.buildActor i treeView = .ok decl ∧ g.HasDeclaration i decl own ∧
      (∀ k ∈ symbol.constructors, g.BearsIdentity i symbol k → ∃ field method,
        Member.leaf (.field field) ∈ own.members ∧ Member.leaf (.method method) ∈ own.members ∧
        g.Provides i k field method) ∧
      ∀ l, Member.leaf l ∈ own.members → ∃ k ∈ symbol.constructors, g.BearsIdentity i symbol k ∧
        ∃ field method, g.Provides i k field method ∧ (l = .field field ∨ l = .method method) := by
  obtain ⟨decl, own, s, hdecl, hown, _, hs, hmembers⟩ :=
    exists_declaration hv hvisited hi hcore treeView
  refine ⟨decl, own, hdecl, hown, ?_, ?_⟩
  · intro k hk hidentity
    refine ⟨_, _, ?_, ?_, provides_factory hs⟩
    · exact (hmembers _).mpr
        ((mem_providerFactories hsymbol).mpr ⟨k, hk, hidentity, Or.inl rfl⟩)
    · exact (hmembers _).mpr
        ((mem_providerFactories hsymbol).mpr ⟨k, hk, hidentity, Or.inr rfl⟩)
  · intro l hl
    obtain ⟨k, hk, hidentity, hmember⟩ := (mem_providerFactories hsymbol).mp ((hmembers l).mp hl)
    refine ⟨k, hk, hidentity, _, _, provides_factory hs, ?_⟩
    rcases hmember with h | h
    · exact Or.inl (Member.leaf.inj h)
    · exact Or.inr (Member.leaf.inj h)

/-- The class of a thread, the actor of which is related to a guild. -/
def threadTypes (constructors : List Symbol.Constructor) : Compilation := .ofTypes
  [{ name := "Discord.Rest.RestThreadActor", constructors := constructors },
   { name := "Discord.IThreadActor"
     kind := .interface
     interfaces := ["Discord.IGuildActor.CanonicalRelationship"] }]

def threadGraph (constructors : List Symbol.Constructor) : LinkGraph :=
  ofTargets (threadTypes constructors) ⟨⟨"Discord.ILinkType", [], [], []⟩⟩
    [pairTarget .rest "Thread", pairTarget .rest "Guild"]

def clientParameter : Symbol.Parameter := ⟨"client", "Discord.Rest.DiscordRestClient", none⟩

def threadParameter : Symbol.Parameter := ⟨"thread", (pairTarget .rest "Thread").identifiable, none⟩

def labelParameter : Symbol.Parameter := ⟨"label", "string", some "null"⟩

def plainConstructor : Symbol.Constructor := ⟨[clientParameter, threadParameter]⟩

def labelledConstructor : Symbol.Constructor :=
  ⟨[clientParameter, labelParameter, threadParameter]⟩

/-- Its client has another name, and one of its parameters that of a guild. -/
def clashingConstructor : Symbol.Constructor :=
  ⟨[{ clientParameter with name := "restClient" }, ⟨"guild", "string", none⟩, threadParameter]⟩

def guildParameter : Decl.Parameter := .of (pairTarget .rest "Guild").identifiable "guild"

/-- The thread is node 0, with its back link, and the guild node 2. -/
theorem threadGraph_actors :
    ∀ ks ∈ [[labelledConstructor], [plainConstructor, clashingConstructor]],
    (0 < (threadGraph ks).arena.size ∧
      ∀ i < (threadGraph ks).arena.size, (threadGraph ks).complaint? i = none) ∧
    (threadGraph ks).actors.get? "Discord.Rest.RestThreadActor" = some 0 ∧
    (threadGraph ks).target 0 = pairTarget .rest "Thread" ∧
    ((threadGraph ks).actorSymbol? 0).map (fun symbol => (symbol.kind, symbol.constructors))
      = some (.classType, ks) ∧
    (threadGraph ks).relatedParameter 2 = guildParameter ∧
    (∀ k ∈ ks, (threadGraph ks).uncovered (pairTarget .rest "Thread") [2] k = [2] ∧
      2 ≤ k.parameters.countP (isIdentityParameter (pairTarget .rest "Thread")
        (friendlyName (pairTarget .rest "Thread").actor .classType))) ∧
    (threadGraph ks).canonicallyRelated? "Discord.IGuildActor.CanonicalRelationship" = some 2 ∧
    (threadGraph ks).interfacesOf 2 = [] ∧
    ((threadGraph ks).compilation.type? ((threadGraph ks).target 0).coreActor).map (·.interfaces)
      = some ["Discord.IGuildActor.CanonicalRelationship"] := by
  decide +kernel

/-- The thread has each of the constructors, and is related to the guild. -/
theorem exists_threadGraph {ks : List Symbol.Constructor}
    (hks : ks ∈ [[labelledConstructor], [plainConstructor, clashingConstructor]])
    (hv : Visits (threadGraph ks) g) :
    0 ∈ g.roots ∧ g.target 0 = pairTarget .rest "Thread" ∧
    (∃ symbol, g.actorSymbol? 0 = some symbol ∧ symbol.constructors = ks ∧
      ∀ k ∈ ks, g.BearsIdentity 0 symbol k) ∧
    g.relatedNodes 0 = [2] ∧
    g.relatedParameter 2 = guildParameter ∧ ∀ k ∈ ks, g.uncovered (g.target 0) [2] k = [2] := by
  have hprogress : Progress (threadGraph ks) [] g := hv.progress
  have hactors := threadGraph_actors ks hks
  generalize threadGraph ks = h at *
  -- none of this is about the states, which are all that a visit adds
  obtain ⟨states, rfl⟩ : ∃ states, g = h.withStates states := ⟨_, hprogress.same⟩
  obtain ⟨_, hactor, htarget, hsymbol, hparameter, hall, hguild, hnone, hthread⟩ := hactors
  obtain ⟨symbol, hsome, heq⟩ := Option.map_eq_some_iff.mp hsymbol
  obtain ⟨hkind, hconstructors⟩ := Prod.mk.inj heq
  have hbears : ∀ k ∈ ks, (h.withStates states).BearsIdentity 0 symbol k := by
    intro k hk
    have hidentity := (hall k hk).2
    rw [← hkind, ← htarget] at hidentity
    exact hidentity
  have huncovered : ∀ k ∈ ks, h.uncovered (h.target 0) [2] k = [2] := by
    intro k hk
    rw [htarget]
    exact (hall k hk).1
  have hrelated : (h.withStates states).additionalRelationships 0
      = (∅ : Dict (List NodeId)).insert ((h.withStates states).relationshipName 2) [2] := by
    obtain ⟨core, htype, hinterfaces⟩ := Option.map_eq_some_iff.mp hthread
    have hcore : (h.withStates states).additionalRelationships 0
        = (h.withStates states).collectRelated 0 ∅ core.interfaces := by
      rw [additionalRelationships, show (h.withStates states).compilation.type?
        ((h.withStates states).target 0).coreActor = some core from htype]
    rw [hcore, hinterfaces, collectRelated_of_some (g := h.withStates states) hguild,
      if_neg (by decide), if_neg (by simp [Dict.keys, EmptyCollection.emptyCollection, Dict.empty]),
      show (h.withStates states).interfacesOf 2 = [] from hnone, List.append_nil, collectRelated]
  refine ⟨mem_roots_iff.mpr ⟨_, hactor⟩, htarget, ⟨symbol, hsome, hconstructors, hbears⟩, ?_,
    hparameter, huncovered⟩
  rw [relatedNodes, hrelated]
  rfl

/-- The constructor of the thread does not take the guild, its factory does. -/
theorem providers_of_constructors_sample : ∃ decl own field method,
    (threadGraph [labelledConstructor]).visit.1.buildActor 0 false = .ok decl ∧
    (threadGraph [labelledConstructor]).visit.1.HasDeclaration 0 decl own ∧
    Member.leaf (.field field) ∈ own.members ∧ Member.leaf (.method method) ∈ own.members ∧
    (threadGraph [labelledConstructor]).visit.1.Provides 0 labelledConstructor field method ∧
    method.parameters.Perm [clientParameter.decl, labelParameter.decl, guildParameter] := by
  have hks : [labelledConstructor] ∈
      [[labelledConstructor], [plainConstructor, clashingConstructor]] := List.mem_cons_self
  have hvisited : (threadGraph [labelledConstructor]).visit.1.isVisited = true :=
    (visited_of_quiet (threadGraph_actors _ hks).1).2
  have hv : Visits (threadGraph [labelledConstructor])
    (threadGraph [labelledConstructor]).visit.1 := .again .refl
  obtain ⟨hroot, htarget, ⟨symbol, hsymbol, hconstructors, hidentity⟩, hrelated, hguild,
    huncovered⟩ := exists_threadGraph hks hv
  obtain ⟨decl, own, hdecl, hown, hprovides, _⟩ :=
    providers_of_constructors hv hvisited hroot (by rw [htarget]; rfl) hsymbol false
  have hlabelled := List.mem_singleton_self labelledConstructor
  obtain ⟨field, method, hfield, hmethod, h⟩ :=
    hprovides labelledConstructor (hconstructors ▸ hlabelled) (hidentity _ hlabelled)
  refine ⟨decl, own, field, method, hdecl, hown, hfield, hmethod, h, ?_⟩
  have hpassed : (passedOn (pairTarget .rest "Thread") labelledConstructor).map (·.decl)
      = [clientParameter.decl, labelParameter.decl] := by
    decide +kernel
  have htakes := h.takes
  rw [hrelated, huncovered _ hlabelled, htarget, hpassed, List.map_singleton, hguild] at htakes
  exact htakes

end LinkGraph

end ActorLinks
