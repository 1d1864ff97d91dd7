import ActorLinks.Proofs.Build.InterfaceMembers
import ActorLinks.Proofs.Visit.Selections

/-! # Properties of extensions

An extension stands at every place of the tree of its actor, and its properties are emitted by
class: what is invalid as a comment everywhere, an overload nowhere, a link mirror everywhere, and
other properties directly below the actor only. The back link of an extension declares the mirrors
of back links, and declares anew what its extension declares for an actor.
-/
namespace ActorLinks

/-- How a property of an extension is emitted. -/
inductive PropertyClass where
  | invalid
  | overload
  | backLinkMirror
  | linkMirror
  | raw
  deriving DecidableEq

/-- Whether an extension declares the properties of the class, directly below the actor or not. -/
def PropertyClass.isDeclared (atActor : Bool) : PropertyClass → Bool
  | .invalid | .overload => false
  | .linkMirror => true
  | .backLinkMirror | .raw => atActor

namespace ExtensionProperty
variable {p : ExtensionProperty} {atActor : Bool}

def propertyClass (p : ExtensionProperty) : PropertyClass :=
  if !p.isValid then .invalid
  else if p.isOverload then .overload
  else if p.isBackLinkMirror then .backLinkMirror
  else if p.isLinkMirror then .linkMirror
  else .raw

theorem propertyClass_eq_invalid : p.propertyClass = .invalid ↔ p.isValid = false := by
  unfold propertyClass
  cases p.isValid <;> cases p.isOverload <;> cases p.isBackLinkMirror <;>
    cases p.isLinkMirror <;> simp

theorem isDeclared_propertyClass : p.propertyClass.isDeclared atActor
    = (p.isValid && !(p.isOverload || !p.isDefinedOnPath atActor)) := by
  unfold propertyClass isDefinedOnPath
  cases p.isValid <;> cases p.isOverload <;> cases p.isBackLinkMirror <;>
    cases p.isLinkMirror <;> simp [PropertyClass.isDeclared]

theorem propertyClass_eq_backLinkMirror : p.propertyClass = .backLinkMirror ↔
    (p.isValid && !p.isOverload) = true ∧ p.isBackLinkMirror = true := by
  unfold propertyClass
  cases p.isValid <;> cases p.isOverload <;> cases p.isBackLinkMirror <;>
    cases p.isLinkMirror <;> simp

end ExtensionProperty

namespace LinkGraph
variable {c : Compilation} {sch : Schematic} {targets : List Target} {g : LinkGraph}
  {i j n p root : NodeId} {d face implementing : TypeDecl} {s : ExtensionState}

theorem extensionSymbol?_eq_some {symbol : TypeSymbol} :
    g.extensionSymbol? i = some symbol ↔ g.arena.kind i = .extension symbol := by
  unfold extensionSymbol?
  cases g.arena.kind i <;> simp

section Members

/-- A property as its extension declares it, anew where another one is redeclared. -/
def ownProperty (g : LinkGraph) (i : NodeId) (p : ExtensionProperty) : Decl.Property where
  modifiers := .ofList
    (if !g.arena.isCore i || ((g.inheritedProperties i).get? p.name).isSome then [.new] else [])
  typeName := g.propertyType p i false false
  name := p.name

/-- A property as the back link of its extension declares it, anew unless it mirrors back links. -/
def backLinkProperty (g : LinkGraph) (i : NodeId) (p : ExtensionProperty) : Decl.Property where
  modifiers := .ofList (if p.isBackLinkMirror then [] else [.new])
  typeName := g.propertyType p i true false
  name := p.name

/-- The source of a back link, declared anew. -/
def newSource : Decl.Property where
  modifiers := .ofList [.new]
  typeName := "TSource"
  name := "Source"

theorem mem_declaredProperty {e : ExtensionProperty} {q : Decl.Property}
    (hq : q.explicitInterface = none) :
    (q : Member) ∈ g.declaredProperty i e ((g.inheritedProperties i).get? e.name) ↔
      q = g.ownProperty i e := by
  have hexplicit (t n x : String) (interface : String) :
      q ≠ Decl.Property.explicit t interface n x := by
    rintro rfl
    cases hq
  simp only [declaredProperty, List.cons_append, List.mem_cons, List.mem_append, Member.leaf.injEq,
    Decl.Leaf.property.injEq]
  rw [or_iff_left]
  · rfl
  · rintro (hcore | hinherited)
    · split at hcore
      · cases hcore
      · exact hexplicit _ _ _ _ (by simpa using hcore)
    · obtain ⟨_, _, heq⟩ := List.mem_map.mp hinherited
      simp only [Member.leaf.injEq, Decl.Leaf.property.injEq] at heq
      exact hexplicit _ _ _ _ heq.symm

theorem mem_extensionMembers {m : Member} {inherited : Dict (List (NodeId × ExtensionProperty))} :
    m ∈ g.extensionMembers i s inherited ↔ ∃ e ∈ s.properties,
      e.propertyClass = .invalid ∧ m = .comment (e.name ++ " is invalid") ∨
      e.propertyClass.isDeclared (g.arena.isTemplate i) = true ∧
        m ∈ g.declaredProperty i e (inherited.get? e.name) := by
  unfold extensionMembers
  rw [List.mem_flatMap]
  refine exists_congr fun e => and_congr_right fun _ => ?_
  rw [ExtensionProperty.propertyClass_eq_invalid, ExtensionProperty.isDeclared_propertyClass]
  cases e.isValid with
  | false => simp
  | true =>
    cases e.isOverload || !e.isDefinedOnPath (g.arena.isTemplate i) <;> simp

theorem comment_mem_extensionMembers {text : String} :
    Member.comment text ∈ g.extensionMembers i s (g.inheritedProperties i) ↔
      ∃ e ∈ s.properties, e.propertyClass = .invalid ∧ text = e.name ++ " is invalid" := by
  rw [mem_extensionMembers]
  refine exists_congr fun e => and_congr_right fun _ => ?_
  rw [or_iff_left]
  · simp [Member.comment]
  · rintro ⟨_, hmem⟩
    simp only [declaredProperty, List.cons_append, List.mem_cons, List.mem_append] at hmem
    rcases hmem with hown | hcore | hinherited
    · cases hown
    · split at hcore
      · cases hcore
      · cases List.mem_singleton.mp hcore
    · obtain ⟨_, _, heq⟩ := List.mem_map.mp hinherited
      cases heq

theorem property_mem_extensionMembers {q : Decl.Property} (hq : q.explicitInterface = none) :
    (q : Member) ∈ g.extensionMembers i s (g.inheritedProperties i) ↔ ∃ e ∈ s.properties,
      e.propertyClass.isDeclared (g.arena.isTemplate i) = true ∧ q = g.ownProperty i e := by
  rw [mem_extensionMembers]
  refine exists_congr fun e => and_congr_right fun _ => ?_
  rw [mem_declaredProperty hq, or_iff_right]
  rintro ⟨_, heq⟩
  cases heq

theorem property_mem_sourceMembers {ancestors : List NodeId} {q : Decl.Property}
    (hq : q.explicitInterface = none) :
    (q : Member) ∈ g.sourceMembers i p ancestors ↔ q = newSource := by
  simp only [sourceMembers, List.mem_cons, Member.leaf.injEq, Decl.Leaf.property.injEq]
  rw [or_iff_left]
  · rfl
  · intro hmem
    obtain ⟨_, _, heq⟩ := List.mem_map.mp hmem
    simp only [Member.leaf.injEq, Decl.Leaf.property.injEq] at heq
    cases heq
    cases hq

theorem mem_redeclaredExtensionProperty {e : ExtensionProperty} {q : Decl.Property}
    (hq : q.explicitInterface = none) :
    (q : Member) ∈ g.redeclaredExtensionProperty i e ↔
      (e.isBackLinkMirror = true ∨
        e.isDefinedOnPath (g.arena.isTemplate i) = true ∧ e.target.isSome = true) ∧
      q = g.backLinkProperty i e := by
  have hexplicit (t n x : String) (interface : String) :
      q ≠ Decl.Property.explicit t interface n x := by
    rintro rfl
    cases hq
  unfold redeclaredExtensionProperty backLinkProperty
  cases hmirror : e.isBackLinkMirror with
  | true => simp; rfl
  | false =>
    cases e.isDefinedOnPath (g.arena.isTemplate i) <;> cases e.target <;> simp [hexplicit]

/-- The back link of an extension declares every mirror of back links, and of the other properties
that the extension declares those that lead to an actor. -/
theorem property_mem_redeclaredMembers {symbol : TypeSymbol}
    (hk : g.arena.kind i = .extension symbol) (hs : g.extensionState? i = some s)
    {q : Decl.Property} (hq : q.explicitInterface = none) :
    (q : Member) ∈ g.redeclaredMembers i ↔ ∃ e ∈ s.properties,
      (e.propertyClass = .backLinkMirror ∨
        e.propertyClass.isDeclared (g.arena.isTemplate i) = true ∧ e.target.isSome = true) ∧
      q = g.backLinkProperty i e := by
  simp only [redeclaredMembers, hk, hs, ownProperties, List.mem_flatMap, List.mem_filter,
    and_assoc, mem_redeclaredExtensionProperty hq]
  refine exists_congr fun e => and_congr_right fun _ => ?_
  rw [ExtensionProperty.propertyClass_eq_backLinkMirror,
    ExtensionProperty.isDeclared_propertyClass]
  cases e.isValid <;> cases e.isOverload <;> simp

end Members

section Faces

/-- An extension is an interface with what its properties give. -/
theorem Complete.exists_extensionFace (h : g.Complete) {symbol : TypeSymbol}
    (hp : g.arena.parent? i = some p) (hk : g.arena.kind i = .extension symbol) :
    ∃ s face implementing create, g.extensionState? i = some s ∧
      g.partAs (g.arena.category i) i =
        .ok (g.withImplementation i face implementing create) ∧
      ∀ m, m ∈ face.members ↔ m ∈ g.extensionMembers i s (g.inheritedProperties i) := by
  have hcategory : g.arena.category i = .extension := by rw [Arena.category, hk]; rfl
  have hsymbol := extensionSymbol?_eq_some.mpr hk
  obtain ⟨part, hpart⟩ := h.exists_extensionPart (Arena.lt_size_of_parent hp) hcategory
  rw [hcategory]
  obtain ⟨v, _, hrest⟩ := Failure.bind_eq_ok_iff.mp (id hpart)
  rw [hsymbol] at hrest
  cases hs : g.extensionState? i with
  | none => simp [hs] at hrest
  | some s =>
    rw [hs] at hrest
    refine ⟨s, _, _, _, rfl, hpart.trans hrest.symm, fun m => ?_⟩
    simp

/-- A back link that is no class is an interface with what the properties of its parent give, and
with its source where that is declared anew. -/
theorem Visits.exists_backLinkFace (hv : Visits (ofTargets c sch targets) g) (h : g.Complete)
    (hp : g.arena.parent? i = some p) (hk : g.arena.category i = .backLink)
    (hactor : (g.arena.kind p).isActor = false) : ∃ ancestors face implementing create,
      g.partAs (g.arena.category i) i =
        .ok (g.withImplementation i face implementing create) ∧
      ∀ m, m ∈ face.members ↔
        g.redefinesSource i = true ∧ m ∈ g.sourceMembers i p ancestors ∨
        m ∈ g.redeclaredMembers p := by
  obtain ⟨part, hpart⟩ := h.exists_backLinkPart hp hk
  rw [hk]
  obtain ⟨v, _, hrest⟩ := Failure.bind_eq_ok_iff.mp (id hpart)
  cases hs : g.backLinkState? i with
  | none => simp [hs] at hrest
  | some s =>
    have hclass : s.isClass = false := by
      rw [(hv.marked hs hp).1, hactor, Bool.and_false]
    have hparent : g.backLinkParent i = .ok p := by rw [backLinkParent, hp]
    simp only [hs, hparent, hclass, bind, Except.bind, Bool.false_eq_true, if_false] at hrest
    refine ⟨v.ancestors, _, _, _, hpart.trans hrest.symm, fun m => ?_⟩
    cases g.redefinesSource i <;> simp

end Faces

/-- A property is of the same class at every place below its actor. -/
theorem Grounded.classify_eq (hg : Grounded c sch targets g)
    (hi : g.arena.rootActor? i = some root) (hj : g.arena.rootActor? j = some root) :
    g.classify j = g.classify i := by
  have htarget : g.target j = g.target i := by
    rw [← hg.target_of_mem_parents (List.mem_of_find?_eq_some hi),
      ← hg.target_of_mem_parents (List.mem_of_find?_eq_some hj)]
  have hroot : g.actorRoot? j = g.actorRoot? i := by
    simp [actorRoot?, hg.nested.isActor_of_rootActor? hi, hg.nested.isActor_of_rootActor? hj,
      hi, hj]
  funext p
  simp only [classify, propertyTarget?, htarget, hroot]

section Visited
variable (hv : Visits (ofTargets c sch targets) g) (hvisited : g.isVisited = true)
  {symbol : TypeSymbol} (hsymbol : g.extensionSymbol? i = some symbol)
include hv hsymbol

theorem Visits.properties_eq (hs : g.extensionState? i = some s) :
    s.properties = symbol.properties.map (g.classify i) := by
  obtain ⟨symbol', hsymbol', hproperties⟩ := hv.recorded.exists_extensionSymbol hs
  cases hsymbol.symm.trans hsymbol'
  exact hproperties

omit hv in
theorem lt_size_of_extensionSymbol? : i < g.arena.size := by
  by_contra hout
  have hdetached : g.arena.kind i = .backLink := by
    rw [Arena.kind, Arena.node, Array.getElem?_eq_none (Nat.le_of_not_lt hout)]
    rfl
  simp [extensionSymbol?, hdetached] at hsymbol

omit hv in
theorem Complete.exists_root_of_extension (h : g.Complete) : ∃ root p,
    g.arena.rootActor? i = some root ∧ g.arena.parent? i = some p := by
  have hbelow : (g.arena.kind i).isActor = false := by
    rw [extensionSymbol?_eq_some.mp hsymbol]
    rfl
  obtain ⟨root, hroot, _⟩ := h.nested.exists_root (lt_size_of_extensionSymbol? hsymbol) hbelow
  obtain ⟨p, hp⟩ := Arena.exists_parent_of_rootActor? hroot
  exact ⟨root, p, hroot, hp⟩

include hvisited

theorem Visits.exists_declaredExtension : ∃ d, g.DeclaredAs i d ∧
    (∀ text, Member.comment text ∈ d.members ↔ ∃ p ∈ symbol.properties,
      (g.classify i p).propertyClass = .invalid ∧ text = p.name ++ " is invalid") ∧
    (∀ q : Decl.Property, q.explicitInterface = none → ((q : Member) ∈ d.members ↔
      ∃ p ∈ symbol.properties,
        (g.classify i p).propertyClass.isDeclared (g.arena.isTemplate i) = true ∧
        q = g.ownProperty i (g.classify i p))) ∧
    ∀ n t, g.arena.parent? n = some i → g.DeclaredAs n t → Member.type t ∈ d.members := by
  have hcomplete := hv.complete_of_isVisited hvisited
  obtain ⟨_, p, _, hp⟩ := hcomplete.exists_root_of_extension hsymbol
  obtain ⟨s, face, _, _, hs, hpart, hface⟩ :=
    hcomplete.exists_extensionFace hp (extensionSymbol?_eq_some.mp hsymbol)
  obtain ⟨d, hd⟩ := hcomplete.exists_declaredAs hpart hp
  have hproperties := hv.properties_eq hsymbol hs
  refine ⟨d, hd, fun text => ?_, fun q hq => ?_, fun n t hn ht => hd.mem_of_child hpart hn ht⟩
  · have hleaf := hd.mem_members_iff hpart (m := .comment text) rfl nofun
    rw [hleaf, hface, comment_mem_extensionMembers, hproperties]
    simp only [List.mem_map, exists_exists_and_eq_and]
    rfl
  · have hleaf := hd.mem_members_iff hpart (m := q) rfl nofun
    rw [hleaf, hface, property_mem_extensionMembers hq, hproperties]
    simp only [List.mem_map, exists_exists_and_eq_and]

theorem Visits.exists_declaredBackLink : ∃ b e, g.arena.backLinkOf? i = some b ∧
    g.DeclaredAs b e ∧
    ∀ q : Decl.Property, q.explicitInterface = none → ((q : Member) ∈ e.members ↔
      g.redefinesSource b = true ∧ q = newSource ∨ ∃ p ∈ symbol.properties,
        ((g.classify i p).propertyClass = .backLinkMirror ∨
          (g.classify i p).propertyClass.isDeclared (g.arena.isTemplate i) = true ∧
            (g.classify i p).target.isSome = true) ∧
        q = g.backLinkProperty i (g.classify i p)) := by
  have hcomplete := hv.complete_of_isVisited hvisited
  have hk := extensionSymbol?_eq_some.mp hsymbol
  have hcategory : g.arena.category i ≠ .backLink := by
    simp [Arena.category, hk, NodeKind.category]
  obtain ⟨_, p, _, hp⟩ := hcomplete.exists_root_of_extension hsymbol
  obtain ⟨s, _, _, _, hs, _⟩ := hcomplete.exists_extensionFace hp hk
  obtain ⟨b, hb⟩ :=
    hv.grounded.exists_backLinkOf? (lt_size_of_extensionSymbol? hsymbol) hcategory
  obtain ⟨hpb, hkb⟩ := hv.grounded.backLinkOf?_eq_some.mp hb
  obtain ⟨ancestors, face, _, create, hpart, hface⟩ :=
    hv.exists_backLinkFace hcomplete hpb hkb (by rw [hk]; rfl)
  obtain ⟨e, he⟩ := hcomplete.exists_declaredAs hpart hpb
  refine ⟨b, e, hb, he, fun q hq => ?_⟩
  have hcreate : (q : Member) ≠ create := by
    intro heq
    cases heq
  have hleaf := he.mem_members_iff hpart rfl hcreate
  rw [hleaf, hface, property_mem_sourceMembers hq, property_mem_redeclaredMembers hk hs hq,
    hv.properties_eq hsymbol hs]
  simp only [List.mem_map, exists_exists_and_eq_and]

/-- Every extension is declared, with its back link inside. It says of invalid properties only that
they are, and what else it declares under its own name, link mirrors everywhere and directly below
the actor all but overloads, are its properties. So do the properties of the back link come from
mirrors of back links, and from what the extension declares for actors. -/
theorem extension_properties_placed :
    ∃ d b e, g.DeclaredAs i d ∧ g.arena.backLinkOf? i = some b ∧ g.DeclaredAs b e ∧
      Member.type e ∈ d.members ∧
      (∀ text, Member.comment text ∈ d.members ↔ ∃ p ∈ symbol.properties,
        (g.classify i p).propertyClass = .invalid ∧ text = p.name ++ " is invalid") ∧
      (∀ q : Decl.Property, q.explicitInterface = none → ((q : Member) ∈ d.members ↔
        ∃ p ∈ symbol.properties,
          (g.classify i p).propertyClass.isDeclared (g.arena.isTemplate i) = true ∧
          q = g.ownProperty i (g.classify i p))) ∧
      (∀ q : Decl.Property, q.explicitInterface = none → ((q : Member) ∈ e.members ↔
        g.redefinesSource b = true ∧ q = newSource ∨ ∃ p ∈ symbol.properties,
          ((g.classify i p).propertyClass = .backLinkMirror ∨
            (g.classify i p).propertyClass.isDeclared (g.arena.isTemplate i) = true ∧
              (g.classify i p).target.isSome = true) ∧
          q = g.backLinkProperty i (g.classify i p))) ∧
      ∀ j, g.arena.rootActor? j = g.arena.rootActor? i → ∀ p, g.classify j p = g.classify i p := by
  obtain ⟨d, hd, hcomments, hproperties, hnested⟩ := hv.exists_declaredExtension hvisited hsymbol
  obtain ⟨b, e, hb, he, hback⟩ := hv.exists_declaredBackLink hvisited hsymbol
  obtain ⟨root, _, hroot, _⟩ :=
    (hv.complete_of_isVisited hvisited).exists_root_of_extension hsymbol
  refine ⟨d, b, e, hd, hb, he, hnested b e (hv.grounded.backLinkOf?_eq_some.mp hb).1 he,
    hcomments, hproperties, hback, fun j hj p => ?_⟩
  rw [hv.grounded.classify_eq hroot (hj.trans hroot)]

end Visited

/-- An extension with a property of each class. -/
def pinsSymbol : TypeSymbol where
  name := "Discord.IChannelActor.Pins"
  kind := .interface
  containingType := some "Discord.IChannelActor"
  attributes := [{ className := "Discord.LinkExtensionAttribute" }]
  properties :=
    [{ name := "Missing", typeName := "Discord.IGoneActor", typeKind := .unknown },
     { name := "Hooks", typeName := "string"
       explicitInterface := some "Discord.IChannelActor.Webhooks" },
     { name := "Parent", typeName := "Discord.IChannelActor"
       attributes := [{ className := "Discord.LinkMirrorAttribute"
                        named := .ofList [("OnlyBackLinks", .bool true)] }] },
     { name := "Channel", typeName := "Discord.IChannelActor"
       attributes := [{ className := "Discord.LinkMirrorAttribute" }] },
     { name := "Title", typeName := "string" }]

def pinnedTypes : Compilation := .ofTypes
  [{ name := "Discord.IChannelActor", kind := .interface },
   pinsSymbol,
   { name := "Discord.IChannelActor.Webhooks"
     kind := .interface
     containingType := some "Discord.IChannelActor"
     attributes := [{ className := "Discord.LinkExtensionAttribute" }] }]

def pinnedGraph : LinkGraph :=
  ofTargets pinnedTypes ⟨⟨"Discord.ILinkType", [], [], []⟩⟩ [channelTarget .core]

/-- The names of the properties of those classes, in the tree of the node. -/
def propertyNames (g : LinkGraph) (i : NodeId) (symbol : TypeSymbol) (keep : PropertyClass → Prop)
    [DecidablePred keep] : List String :=
  (symbol.properties.filter fun p => decide (keep (g.classify i p).propertyClass)).map (·.name)

theorem mem_propertyNames {symbol : TypeSymbol} {keep : PropertyClass → Prop}
    [DecidablePred keep] {name : String} : name ∈ g.propertyNames i symbol keep ↔
      ∃ p ∈ symbol.properties, keep (g.classify i p).propertyClass ∧ p.name = name := by
  simp [propertyNames, and_assoc]

/-- Node 2 is the extension below the actor, and node 8 the same one below another extension. -/
theorem pinnedGraph_nodes :
    (0 < pinnedGraph.arena.size ∧
      ∀ i < pinnedGraph.arena.size, pinnedGraph.complaint? i = none) ∧
    pinnedGraph.actor? "Discord.IChannelActor" = some 0 ∧
    [2, 8].map pinnedGraph.extensionSymbol? = [some pinsSymbol, some pinsSymbol] ∧
    [2, 8].map pinnedGraph.arena.isTemplate = [true, false] ∧
    pinnedGraph.arena.rootActor? 2 = some 0 ∧ pinnedGraph.arena.parents 2 = [0] ∧
    (pinnedGraph.arena.kind 0).isActor = true := by
  decide +kernel

theorem propertyNames_pinnedGraph :
    pinnedGraph.propertyNames 8 pinsSymbol (· = .invalid) = ["Missing"] ∧
    pinnedGraph.propertyNames 8 pinsSymbol (·.isDeclared false = true) = ["Channel"] ∧
    pinnedGraph.propertyNames 8 pinsSymbol (· = .backLinkMirror) = ["Parent"] ∧
    pinnedGraph.propertyNames 2 pinsSymbol (·.isDeclared true = true)
      = ["Parent", "Channel", "Title"] ∧
    pinnedGraph.propertyNames 2 pinsSymbol (· = .backLinkMirror) = ["Parent"] := by
  decide +kernel

/-- Below another extension, a link mirror is the only property that is declared, and the back link
declares the mirror of back links. -/
theorem extension_properties_placed_sample : ∃ d b e, pinnedGraph.visit.1.DeclaredAs 8 d ∧
    pinnedGraph.visit.1.DeclaredAs b e ∧ Member.type e ∈ d.members ∧
    (∀ text, Member.comment text ∈ d.members ↔ text = "Missing is invalid") ∧
    (∀ q : Decl.Property, q.explicitInterface = none → (q : Member) ∈ d.members →
      q.name = "Channel") ∧
    (∃ q : Decl.Property, q.explicitInterface = none ∧ q.name = "Channel" ∧
      (q : Member) ∈ d.members) ∧
    ∃ q : Decl.Property, q.explicitInterface = none ∧ q.name = "Parent" ∧
      (q : Member) ∈ e.members := by
  obtain ⟨hquiet, _, hsymbols, htemplates, _⟩ := pinnedGraph_nodes
  obtain ⟨hinvalid, hdeclared, hmirrors, _⟩ := propertyNames_pinnedGraph
  have hvisited : pinnedGraph.visit.1.isVisited = true := (visited_of_quiet hquiet).2
  have hv : Visits pinnedGraph pinnedGraph.visit.1 := .again .refl
  have hprogress : Progress pinnedGraph [] pinnedGraph.visit.1 := hv.progress
  have hsame (keep : PropertyClass → Prop) [DecidablePred keep] :
      pinnedGraph.visit.1.propertyNames 8 pinsSymbol keep
        = pinnedGraph.propertyNames 8 pinsSymbol keep := by
    rw [hprogress.same]
    rfl
  have hsymbol : pinnedGraph.visit.1.extensionSymbol? 8 = some pinsSymbol := by
    rw [hprogress.same]
    exact (List.cons.inj (List.cons.inj hsymbols).2).1
  have htemplate : pinnedGraph.visit.1.arena.isTemplate 8 = false := by
    rw [hprogress.arena_eq]
    exact (List.cons.inj (List.cons.inj htemplates).2).1
  rw [← hsame] at hinvalid hdeclared hmirrors
  obtain ⟨d, b, e, hd, _, he, hmember, hcomments, hproperties, hback, _⟩ :=
    extension_properties_placed hv hvisited hsymbol
  rw [htemplate] at hproperties
  refine ⟨d, b, e, hd, he, hmember, fun text => ?_, fun q hq hmem => ?_, ?_, ?_⟩
  · rw [hcomments]
    constructor
    · rintro ⟨p, hp, hclass, rfl⟩
      have hname : p.name ∈ pinnedGraph.visit.1.propertyNames 8 pinsSymbol (· = .invalid) :=
        mem_propertyNames.mpr ⟨p, hp, hclass, rfl⟩
      rw [hinvalid, List.mem_singleton] at hname
      rw [hname]
      decide
    · rintro rfl
      obtain ⟨p, hp, hclass, hname⟩ := mem_propertyNames.mp (hinvalid ▸ List.mem_singleton_self _)
      refine ⟨p, hp, hclass, ?_⟩
      rw [hname]
      decide
  · obtain ⟨p, hp, hclass, rfl⟩ := (hproperties q hq).mp hmem
    have hname : p.name ∈ pinnedGraph.visit.1.propertyNames 8 pinsSymbol
        (·.isDeclared false = true) := mem_propertyNames.mpr ⟨p, hp, hclass, rfl⟩
    rw [hdeclared, List.mem_singleton] at hname
    exact hname
  · obtain ⟨p, hp, hclass, hname⟩ := mem_propertyNames.mp (hdeclared ▸ List.mem_singleton_self _)
    exact ⟨_, rfl, hname, (hproperties _ rfl).mpr ⟨p, hp, hclass, rfl⟩⟩
  · obtain ⟨p, hp, hclass, hname⟩ := mem_propertyNames.mp (hmirrors ▸ List.mem_singleton_self _)
    exact ⟨_, rfl, hname, (hback _ rfl).mpr (Or.inr ⟨p, hp, Or.inl hclass, rfl⟩)⟩

/-- Directly below the actor, the mirror of back links is declared as well. -/
theorem back_link_mirror_declared : pinnedGraph.visit.2 = none ∧
    pinnedGraph.visit.1.isVisited = true ∧
    ∃ p ∈ pinsSymbol.properties, p.name = "Parent" ∧
      (pinnedGraph.visit.1.classify 2 p).propertyClass = .backLinkMirror ∧
      ∃ decl d, pinnedGraph.visit.1.buildActor 0 false = .ok decl ∧ decl.Contains d ∧
        pinnedGraph.visit.1.DeclaredAs 2 d ∧
        pinnedGraph.visit.1.extensionSymbol? 2 = some pinsSymbol ∧
        ∃ q : Decl.Property, q.explicitInterface = none ∧ q.name = "Parent" ∧
          (q : Member) ∈ d.members := by
  obtain ⟨hquiet, hactor, hsymbols, htemplates, hroot, habove, hkind⟩ := pinnedGraph_nodes
  obtain ⟨_, _, _, _, hmirrors⟩ := propertyNames_pinnedGraph
  obtain ⟨hok, hvisited⟩ : pinnedGraph.visit.2 = none ∧
      pinnedGraph.visit.1.isVisited = true := visited_of_quiet hquiet
  have hv : Visits pinnedGraph pinnedGraph.visit.1 := .again .refl
  have hprogress : Progress pinnedGraph [] pinnedGraph.visit.1 := hv.progress
  have hsame : pinnedGraph.visit.1.propertyNames 2 pinsSymbol (· = .backLinkMirror)
      = pinnedGraph.propertyNames 2 pinsSymbol (· = .backLinkMirror) := by
    rw [hprogress.same]
    rfl
  have hsymbol : pinnedGraph.visit.1.extensionSymbol? 2 = some pinsSymbol := by
    rw [hprogress.same]
    exact (List.cons.inj hsymbols).1
  have htemplate : pinnedGraph.visit.1.arena.isTemplate 2 = true := by
    rw [hprogress.arena_eq]
    exact (List.cons.inj htemplates).1
  rw [← hsame] at hmirrors
  rw [← hprogress.arena_eq] at hroot habove hkind
  rw [actor?, ← hprogress.actors_eq] at hactor
  generalize pinnedGraph.visit.1 = g at *
  have hcomplete := hv.complete_of_isVisited hvisited
  obtain ⟨decl, hdecl⟩ :=
    hcomplete.exists_buildActor_of_mem_roots hv.grounded (mem_roots_iff.mpr ⟨_, hactor⟩) false
  obtain ⟨d, hd, _, hproperties, _⟩ := hv.exists_declaredExtension hvisited hsymbol
  obtain ⟨p, hp, hclass, hname⟩ := mem_propertyNames.mp (hmirrors ▸ List.mem_singleton_self _)
  refine ⟨hok, hvisited, p, hp, hname, hclass, decl, d, hdecl, ?_, hd, hsymbol, _, rfl, hname,
    (hproperties _ rfl).mpr ⟨p, hp, ?_, rfl⟩⟩
  · refine hcomplete.contains_of_declaredAs hroot hdecl (fun n hn hother => ?_) hd
    rw [habove, List.mem_singleton] at hn
    rw [hn, hkind] at hother
    cases hother
  · rw [hclass, htemplate]
    rfl

end LinkGraph

end ActorLinks
