import ActorLinks.Graph.Build
import ActorLinks.Proofs.Renumbering.Arena
import ActorLinks.Proofs.Visit.Failure

/-! # Renumbered graphs

What a graph says of its actors without looking at a state: the actors found by name are the same
under other ids, and so are all texts. A visit goes through corresponding nodes in the same order,
because actors are put in the order of their names before that of their ids, and so fails alike.
-/
namespace ActorLinks

namespace Dict
variable {α β : Type} {f : α → β}

/-- Other values under the same keys. -/
def mapValues (f : α → β) (d : Dict α) : Dict β :=
  ⟨d.entries.map fun e => (e.1, f e.2), by simpa only [List.map_map, Function.comp_def] using
    d.ascending⟩

theorem keys_mapValues (d : Dict α) : (d.mapValues f).keys = d.keys := by
  simp only [keys, mapValues, List.map_map, Function.comp_def]

theorem values_mapValues (d : Dict α) : (d.mapValues f).values = d.values.map f := by
  simp only [values, mapValues, List.map_map, Function.comp_def]

theorem get?_mapValues (d : Dict α) (key : String) :
    (d.mapValues f).get? key = (d.get? key).map f := by
  show (d.entries.map fun e => (e.1, f e.2)).lookup key = (d.entries.lookup key).map f
  induction d.entries with
  | nil => rfl
  | cons e es ih =>
    rw [List.map_cons, List.lookup_cons, List.lookup_cons, ih]
    cases key == e.1 <;> rfl

theorem contains_mapValues (d : Dict α) (key : String) :
    (d.mapValues f).contains key = d.contains key := by
  rw [contains, contains, get?_mapValues, Option.isSome_map]

theorem ext_entries {d e : Dict α} (h : d.entries = e.entries) : d = e := by
  cases d
  cases e
  cases h
  rfl

theorem mapValues_insert (d : Dict α) (key : String) (value : α) :
    (d.insert key value).mapValues f = (d.mapValues f).insert key (f value) := by
  refine ext_entries ?_
  show (putEntry key value d.entries).map _ = putEntry key (f value) (d.entries.map _)
  induction d.entries with
  | nil => rfl
  | cons e es ih =>
    rw [List.map_cons, putEntry, putEntry]
    split
    · rfl
    · split
      · rw [List.map_cons, ih]
      · rfl

theorem mapValues_append {γ : Type} {f : β → γ} (d : Dict (List β)) (key : String) (item : β) :
    (d.append key item).mapValues (List.map f)
      = (d.mapValues (List.map f)).append key (f item) := by
  rw [append, append, mapValues_insert, get?_mapValues, List.map_append, List.map_singleton]
  cases d.get? key <;> rfl

/-- Other items under the same keys are collected in the same way. -/
theorem mapValues_foldl_append {γ : Type} {f : β → γ} {key : β → String} {key' : γ → String}
    (hkey : ∀ x, key' (f x) = key x) (d : Dict (List β)) (items : List β) :
    (items.map f).foldl (fun d x => d.append (key' x) x) (d.mapValues (List.map f))
      = (items.foldl (fun d x => d.append (key x) x) d).mapValues (List.map f) := by
  induction items generalizing d with
  | nil => rfl
  | cons x xs ih =>
    rw [List.map_cons, List.foldl_cons, List.foldl_cons, hkey, ← mapValues_append, ih]

end Dict

/-- The trees of `g'` are those of `g` under other ids. -/
structure LinkGraph.Renumbers (σ : NodeId → NodeId) (g g' : LinkGraph) : Prop where
  arena : g.arena.Renumbers σ g'.arena
  compilation_eq : g'.compilation = g.compilation
  actors_eq : g'.actors = g.actors.mapValues σ
  lt_of_mem_roots : ∀ n ∈ g.roots, n < g.arena.size

namespace LinkGraph.Renumbers
variable {σ : NodeId → NodeId} {g g' : LinkGraph} (h : Renumbers σ g g')
include h

theorem target_eq (i : NodeId) : g'.target (σ i) = g.target i := h.arena.target_eq i

section Actors

theorem actor?_eq (name : String) : g'.actor? name = (g.actor? name).map σ := by
  rw [actor?, actor?, h.actors_eq, Dict.get?_mapValues]

theorem roots_eq : g'.roots = g.roots.map σ := by
  rw [roots, roots, h.actors_eq, Dict.values_mapValues]

theorem actorRoot?_eq (i : NodeId) : g'.actorRoot? (σ i) = (g.actorRoot? i).map σ := by
  simp only [actorRoot?, h.arena.kind_eq, h.arena.rootActor?_eq]
  split <;> rfl

theorem actorSymbol?_eq (i : NodeId) : g'.actorSymbol? (σ i) = g.actorSymbol? i := by
  simp only [actorSymbol?, h.actorRoot?_eq, Option.bind_map, Function.comp_def, h.arena.kind_eq]

theorem actorByCore?_eq (coreActor : String) :
    g'.actorByCore? coreActor = (g.actorByCore? coreActor).map σ := by
  simp only [actorByCore?, h.roots_eq, List.find?_map, Function.comp_def, h.target_eq]

theorem findSome?_actor?_eq (names : List String) :
    names.findSome? g'.actor? = (names.findSome? g.actor?).map σ := by
  rw [List.map_findSome?]
  exact congrArg (List.findSome? · names) (funext h.actor?_eq)

theorem baseTarget?_eq (i : NodeId) : g'.baseTarget? (σ i) = (g.baseTarget? i).map σ := by
  rw [baseTarget?, baseTarget?, h.actorSymbol?_eq, h.compilation_eq]
  cases g.actorSymbol? i with
  | none => rfl
  | some s => exact h.findSome?_actor?_eq _

theorem hasChildTarget_eq (i : NodeId) : g'.hasChildTarget (σ i) = g.hasChildTarget i := by
  have hbne (n : NodeId) : (σ n != σ i) = (n != i) := by
    rw [Bool.eq_iff_iff, bne_iff_ne, bne_iff_ne, h.arena.injective.ne_iff]
  simp only [hasChildTarget, h.roots_eq, List.any_map, Function.comp_def, hbne,
    h.actorSymbol?_eq, h.target_eq]

theorem redeclares_eq (i : NodeId) (ancestors : List NodeId) :
    g'.redeclares (σ i) (ancestors.map σ) = g.redeclares i ancestors := by
  simp only [redeclares, List.any_map, Function.comp_def, h.arena.equivalent?_eq,
    Option.isSome_map]

end Actors

section Order

/-- The ids of actors count only where names are the same, which those of two actors never are. -/
theorem visitOrder_eq : g'.visitOrder = g.visitOrder.map σ := by
  have hentries : (g'.actors.entries.map fun e =>
        ((g'.compilation.supertypes e.1).size, e.1, e.2))
      = (g.actors.entries.map fun e => ((g.compilation.supertypes e.1).size, e.1, e.2)).map
        fun x => (x.1, x.2.1, σ x.2.2) := by
    simp only [h.actors_eq, Dict.mapValues, h.compilation_eq, List.map_map, Function.comp_def]
  have hsame : ∀ x ∈ g.actors.entries.map fun e =>
        ((g.compilation.supertypes e.1).size, e.1, e.2),
      ∀ y ∈ g.actors.entries.map fun e => ((g.compilation.supertypes e.1).size, e.1, e.2),
      isBeforeInVisit x y = isBeforeInVisit (x.1, x.2.1, σ x.2.2) (y.1, y.2.1, σ y.2.2) := by
    intro x hx y hy
    obtain ⟨⟨name, i⟩, hi, rfl⟩ := List.mem_map.mp hx
    obtain ⟨⟨other, j⟩, hj, rfl⟩ := List.mem_map.mp hy
    by_cases hname : name = other
    · subst hname
      have hij := (Dict.mem_entries_iff.mp hi).symm.trans (Dict.mem_entries_iff.mp hj)
      obtain rfl := Option.some.inj hij
      simp [isBeforeInVisit]
    · simp [isBeforeInVisit, beq_false_of_ne hname]
  rw [visitOrder, visitOrder, hentries, ← List.map_mergeSort hsame]
  simp only [List.map_map, Function.comp_def]

theorem visitList_eq : g'.visitList = g.visitList.map σ := by
  simp only [visitList, h.visitOrder_eq, List.flatMap_map, h.arena.descendants_eq,
    List.map_flatMap]

theorem complaint?_eq (i : NodeId) : g'.complaint? (σ i) = g.complaint? i := by
  simp only [complaint?, h.arena.kind_eq, h.target_eq]

end Order

section Symbols

theorem userRelationshipName?_eq (i : NodeId) :
    g'.userRelationshipName? (σ i) = g.userRelationshipName? i := by
  simp only [userRelationshipName?, h.actorSymbol?_eq]

theorem interfacesOf_eq (i : NodeId) : g'.interfacesOf (σ i) = g.interfacesOf i := by
  simp only [interfacesOf, h.actorSymbol?_eq]

theorem canonicallyRelated?_eq (interface : String) :
    g'.canonicallyRelated? interface = (g.canonicallyRelated? interface).map σ := by
  simp only [canonicallyRelated?, Option.map_bind, Function.comp_def, ← h.actorByCore?_eq]

theorem extensionSymbol?_eq (i : NodeId) : g'.extensionSymbol? (σ i) = g.extensionSymbol? i := by
  simp only [extensionSymbol?, h.arena.kind_eq]

theorem templateExtension?_eq (name : String) :
    g'.templateExtension? name = (g.templateExtension? name).map σ := by
  simp only [templateExtension?, h.roots_eq, List.findSome?_map, List.map_findSome?,
    Function.comp_def, h.arena.children_eq, List.find?_map, h.extensionSymbol?_eq]

theorem mentionedActor?_eq (assembly : Assembly) (typeName : String) :
    g'.mentionedActor? assembly typeName = (g.mentionedActor? assembly typeName).map σ := by
  simp only [mentionedActor?, List.map_findSome?, Function.comp_def, h.actor?_eq]

theorem propertyTarget?_eq (i : NodeId) (p : Symbol.Property) :
    g'.propertyTarget? (σ i) p = (g.propertyTarget? i p).map σ := by
  have hdirect : (if (g.target i).isCore then g'.actor? p.typeName
        else g'.actorByCore? p.typeName)
      = (if (g.target i).isCore then g.actor? p.typeName
        else g.actorByCore? p.typeName).map σ := by
    rw [h.actor?_eq, h.actorByCore?_eq]
    split <;> rfl
  simp only [propertyTarget?, h.target_eq, hdirect, h.mentionedActor?_eq, h.actorRoot?_eq]
  cases (if (g.target i).isCore then g.actor? p.typeName else g.actorByCore? p.typeName) with
  | some n => rfl
  | none =>
    by_cases hkind : p.typeKind = .unknown
    · cases g.mentionedActor? (g.target i).assembly p.typeName with
      | some n => simp [hkind]
      | none => cases hasLinkShape p.typeName <;> simp [hkind]
    · simp [hkind]

theorem memberByCore?_eq (assembly : Assembly) (coreActor : String) :
    g'.memberByCore? assembly coreActor = (g.memberByCore? assembly coreActor).map σ := by
  simp only [memberByCore?, h.roots_eq, List.find?_map, Function.comp_def, h.target_eq]

theorem specializingMembers_eq (t : Target) :
    g'.specializingMembers t = (g.specializingMembers t).map σ := by
  simp only [specializingMembers, h.roots_eq, List.filter_map, Function.comp_def, h.target_eq,
    h.compilation_eq]

theorem memberName_eq (owner member : NodeId) :
    g'.memberName (σ owner) (σ member) = g.memberName owner member := by
  have hwords (i : NodeId) : g'.friendlyWords (σ i) = g.friendlyWords i := by
    rw [friendlyWords, friendlyWords, h.target_eq]
  rw [memberName, memberName, hwords, hwords]

theorem memberType_eq (owner member : NodeId) (useCore : Bool) :
    g'.memberType (σ owner) (σ member) useCore = g.memberType owner member useCore := by
  simp only [memberType, h.target_eq, h.arena.isTemplate_eq, h.arena.relativePath_eq]

end Symbols

end LinkGraph.Renumbers

end ActorLinks
