import ActorLinks.Proofs.Build.Hoisted
import ActorLinks.Proofs.Renumbering.Parts

/-! # Building a renumbered graph

The declarations of actors do not depend on the ids either: relatives are written in the order of
the ancestors or of relationship names, and children in the order of the schematic. So a graph that
matches a complete one is built to the same declarations.
-/
namespace ActorLinks

/-- What is collected under a key was in the list. -/
theorem Dict.forall_foldl_append {β : Type} {P : β → Prop} {key : β → String} {items : List β}
    (h : ∀ x ∈ items, P x) {d : Dict (List β)} (hd : ∀ e ∈ d.entries, ∀ x ∈ e.2, P x) :
    ∀ e ∈ (items.foldl (fun d x => d.append (key x) x) d).entries, ∀ x ∈ e.2, P x := by
  induction items generalizing d with
  | nil => exact hd
  | cons y ys ih =>
    refine ih (fun x hx => h x (List.mem_cons_of_mem _ hx)) fun e he x hx => ?_
    have hget := Dict.mem_entries_iff.mp he
    unfold Dict.append at hget
    rw [Dict.get?_insert] at hget
    split at hget
    · rw [← Option.some.inj hget] at hx
      rcases List.mem_append.mp hx with hx | hx
      · cases hold : d.get? (key y) with
        | none => simp [hold] at hx
        | some xs =>
          rw [hold] at hx
          exact hd _ (Dict.mem_entries_iff.mpr hold) x hx
      · obtain rfl := List.mem_singleton.mp hx
        exact h x List.mem_cons_self
    · exact hd e (Dict.mem_entries_iff.mpr hget) x hx

theorem Failure.mapM_ok_of_imp {α β : Type} {xs : List α} {ys : List β}
    {f f' : α → Except Failure β} (hf : ∀ x ∈ xs, ∀ y, f x = .ok y → f' x = .ok y)
    (h : xs.mapM f = .ok ys) : xs.mapM f' = .ok ys := by
  induction xs generalizing ys with
  | nil => exact h
  | cons x xs ih =>
    rw [List.mapM_cons] at h ⊢
    obtain ⟨y, hy, hrest⟩ := Failure.bind_eq_ok_iff.mp h
    obtain ⟨zs, hzs, hpure⟩ := Failure.bind_eq_ok_iff.mp hrest
    rw [hf x List.mem_cons_self y hy, ih (fun z hz => hf z (List.mem_cons_of_mem _ hz)) hzs]
    exact hpure

namespace LinkGraph
variable {g : LinkGraph} {i : NodeId} {decl : TypeDecl}

theorem buildNode_of_nothing (h : g.partAs (g.arena.category i) i = .ok .nothing) :
    g.buildNode i = .ok ⟨none, []⟩ := by
  rw [buildNode, buildChildAs, h]
  rfl

theorem buildNode_of_closed (h : g.partAs (g.arena.category i) i = .ok (.closed decl)) :
    g.buildNode i = .ok ⟨some decl, []⟩ := by
  rw [buildNode, buildChildAs, h]
  rfl

theorem buildNode_of_spread {hoisted : List TypeDecl} {below : List Built}
    (h : g.partAs (g.arena.category i) i = .ok (.spread decl hoisted))
    (hbelow : (g.arena.children i).mapM g.buildNode = .ok below) : g.buildNode i
      = .ok ⟨some (decl.addMembers (Built.members below)), hoisted ++ Built.classes below⟩ := by
  rw [← List.unattach_attach (l := g.arena.children i), List.mapM_unattach] at hbelow
  have hbelow' : (g.arena.children i).attach.mapM
      (fun c => g.buildChildAs (g.arena.category c.1) c.1) = .ok below := hbelow
  rw [buildNode, buildChildAs, h]
  simp only [bind, Except.bind, hbelow']
  rfl

end LinkGraph

def Factory.renumber (σ : NodeId → NodeId) (f : Factory) : Factory :=
  { f with pending := f.pending.map σ }

namespace LinkGraph

namespace Renumbers
variable {σ : NodeId → NodeId} {g g' : LinkGraph} (h : Renumbers σ g g')
include h

theorem linkBases_eq (t : Target) (ancestors : List NodeId) :
    g'.linkBases t (ancestors.map σ) = g.linkBases t ancestors := by
  simp only [linkBases, List.map_map, Function.comp_def, h.target_eq]

theorem linkBase_eq (i : NodeId) (s : ActorState) :
    g'.linkBase (σ i) (s.renumber σ) = g.linkBase i s := by
  have hbase : (s.renumber σ).baseActor = s.baseActor.map σ := rfl
  simp only [linkBase, h.target_eq, hbase, Option.isSome_map]
  cases s.baseActor with
  | none => rfl
  | some base =>
    simp only [Option.map_some, h.target_eq]
    rfl

theorem relatedActors_eq (s : ActorState) :
    g'.relatedActors (s.renumber σ) = (g.relatedActors s).map fun e => (e.1, σ e.2) := by
  have hall : ((s.renumber σ).additionalRelationships.entries.flatMap fun e =>
        e.2.map fun n => (e.1, n))
      = (s.additionalRelationships.entries.flatMap fun e => e.2.map fun n => (e.1, n)).map
        fun e => (e.1, σ e.2) := by
    simp only [ActorState.renumber, Dict.mapValues, List.flatMap_map, List.map_flatMap,
      List.map_map, Function.comp_def]
  rw [relatedActors, relatedActors, hall, List.foldl_map]
  show List.foldl _ (List.map (fun (e : String × NodeId) => (e.1, σ e.2)) []) _ = _
  refine List.foldl_hom (List.map fun e : String × NodeId => (e.1, σ e.2)) fun kept e => ?_
  simp only [List.any_map, Function.comp_def, h.target_eq]
  split
  · rfl
  · rw [List.map_append, List.map_singleton]

section Factories

theorem takeParameter_eq (t : Target) (f : Factory) (p : Symbol.Parameter) :
    g'.takeParameter t (f.renumber σ) p = (g.takeParameter t f p).renumber σ := by
  simp only [takeParameter, Factory.renumber, List.filter_map, Function.comp_def, h.target_eq,
    List.length_map]
  split
  · split <;> rfl
  · rfl

theorem takeRelated_eq (f : Factory) (n : NodeId) :
    g'.takeRelated (f.renumber σ) (σ n) = (g.takeRelated f n).renumber σ := by
  simp only [takeRelated, Factory.renumber, relatedParameterName, h.actorSymbol?_eq, h.target_eq]

theorem factory_eq (t : Target) (s : ActorState) (c : Symbol.Constructor) :
    g'.factory t (s.renumber σ) c = (g.factory t s c).renumber σ := by
  have hstart : ({ pending := (s.renumber σ).additionalRelationships.values.flatten } : Factory)
      = Factory.renumber σ { pending := s.additionalRelationships.values.flatten } := by
    simp only [ActorState.renumber, Dict.values_mapValues, Factory.renumber, List.map_flatten]
  have hcovered (f : Factory) : c.parameters.foldl (g'.takeParameter t) (f.renumber σ)
      = (c.parameters.foldl (g.takeParameter t) f).renumber σ :=
    List.foldl_hom (Factory.renumber σ) (h.takeParameter_eq t)
  rw [factory, factory, hstart, hcovered]
  show ((c.parameters.foldl (g.takeParameter t) _).pending.map σ).foldl _ _ = _
  rw [List.foldl_map]
  exact List.foldl_hom (Factory.renumber σ) h.takeRelated_eq

theorem providerFactories_eq (i : NodeId) (s : ActorState) :
    g'.providerFactories (σ i) (s.renumber σ) = g.providerFactories i s := by
  have hmembers (t : Target) (f : Factory) :
      Factory.members t (s.renumber σ) (f.renumber σ) = Factory.members t s f := by
    simp only [Factory.members, Factory.invocation, ActorState.renumber, Dict.mapValues,
      List.isEmpty_map]
    rfl
  rw [providerFactories, providerFactories, h.actorSymbol?_eq]
  cases g.actorSymbol? i with
  | none => rfl
  | some symbol => simp only [h.target_eq, h.factory_eq, hmembers]

end Factories

end Renumbers

namespace Matches
variable {σ : NodeId → NodeId} {g g' : LinkGraph} (h : Matches σ g g')
include h

section Relationships

theorem relationshipOwner_eq (n : NodeId) : g'.relationshipOwner (σ n) = g.relationshipOwner n := by
  rw [relationshipOwner, relationshipOwner, h.actorState?_eq, h.target_eq, Option.map_map]
  rfl

variable {ancestors : List NodeId}

theorem sharedEntities_eq (hlt : ∀ n ∈ ancestors, n < g.arena.size) (t : Target) :
    g'.sharedEntities t (ancestors.map σ) = g.sharedEntities t ancestors := by
  have hentity (n : NodeId) : (g'.target (σ n)).entity = (g.target n).entity := by
    rw [h.target_eq]
  have hfold : (ancestors.map σ).foldl (fun (d : Dict (List NodeId)) n =>
        d.append (g'.target n).entity n) ∅
      = (ancestors.foldl (fun (d : Dict (List NodeId)) n =>
        d.append (g.target n).entity n) ∅).mapValues (List.map σ) :=
    @Dict.mapValues_foldl_append _ _ σ (fun n => (g.target n).entity)
      (fun n => (g'.target n).entity) hentity ∅ ancestors
  have hmem : ∀ e ∈ (ancestors.foldl (fun (d : Dict (List NodeId)) n =>
      d.append (g.target n).entity n) ∅).entries, ∀ n ∈ e.2, n < g.arena.size :=
    Dict.forall_foldl_append hlt (by simp [EmptyCollection.emptyCollection, Dict.empty])
  rw [sharedEntities, sharedEntities, hfold]
  simp only [Dict.mapValues, List.filterMap_map]
  refine List.filterMap_congr fun e he => ?_
  rcases hnodes : e.2 with _ | ⟨first, _ | ⟨second, rest⟩⟩
  · simp [hnodes]
  · simp [hnodes]
  · have hfirst := hmem e he first (by rw [hnodes]; exact List.mem_cons_self)
    simp only [Function.comp_apply, hnodes, List.map_cons, h.relationshipName_eq hfirst]

theorem canonicalRelationship_eq (hlt : ∀ n ∈ ancestors, n < g.arena.size) {i : NodeId}
    (hi : i < g.arena.size) (s : ActorState) :
    g'.canonicalRelationship (σ i) (s.renumber σ) (ancestors.map σ)
      = g.canonicalRelationship i s ancestors := by
  have hall : ∀ n ∈ ancestors ++ [i], n < g.arena.size := fun n hn =>
    (List.mem_append.mp hn).elim (hlt n) fun hn => List.mem_singleton.mp hn ▸ hi
  have hshared := h.sharedEntities_eq hall
  rw [List.map_append, List.map_singleton] at hshared
  have hinherited (name : String) : (ancestors.map σ).map (g'.inheritedRelationship name)
      = ancestors.map (g.inheritedRelationship name) := by
    rw [List.map_map]
    refine List.map_congr_left fun n hn => ?_
    simp only [Function.comp_apply, inheritedRelationship, h.target_eq,
      h.relationshipName_eq (hlt n hn)]
  have hrelated (name : String) (e : String × NodeId) :
      g'.relatedRelationship name (e.1, σ e.2) = g.relatedRelationship name e := by
    simp only [relatedRelationship, h.target_eq, h.relationshipOwner_eq]
  simp only [canonicalRelationship, h.target_eq, h.relatedActors_eq, List.isEmpty_map,
    hinherited, hshared, List.map_map, Function.comp_def, hrelated]
  rfl

theorem actorDecl_eq (hlt : ∀ n ∈ ancestors, n < g.arena.size) {i : NodeId}
    (hi : i < g.arena.size) (symbol : TypeSymbol) (s : ActorState) (treeView : Bool) :
    g'.actorDecl (σ i) symbol (s.renumber σ) (ancestors.map σ) treeView
      = g.actorDecl i symbol s ancestors treeView := by
  have hcomment : g'.treeComment (σ i) (ancestors.map σ) = g.treeComment i ancestors := by
    simp only [treeComment, h.target_eq, List.map_map, Function.comp_def, h.arena.outline_eq]
  have hmembers (n : NodeId) : g'.ancestorLinkMembers (σ n) = g.ancestorLinkMembers n := by
    simp only [ancestorLinkMembers, h.target_eq, h.actorState?_eq, Option.map_map,
      Function.comp_def]
    rfl
  have hinterface : g'.linkInterface (σ i) (s.renumber σ) (ancestors.map σ)
      = g.linkInterface i s ancestors := by
    simp only [linkInterface, h.target_eq, List.isEmpty_map, h.linkBases_eq, List.flatMap_map,
      hmembers]
    rfl
  have hrelationships : g'.relationships (σ i) (s.renumber σ) (ancestors.map σ)
      = g.relationships i s ancestors := by
    simp only [relationships, h.target_eq, List.isEmpty_map, h.canonicalRelationship_eq hlt hi]
    rfl
  simp only [actorDecl, h.target_eq, hcomment, hinterface, h.linkBase_eq, hrelationships,
    h.providerFactories_eq]

end Relationships

section Trees

theorem partAs_ok {category : Category} {i : NodeId} {part : Part}
    (hpart : g.partAs category i = .ok part) : g'.partAs category (σ i) = .ok part := by
  cases category with
  | actor => cases hpart
  | linkType => exact h.linkTypePart_ok hpart
  | extension => exact h.extensionPart_ok hpart
  | hierarchy => exact h.hierarchyPart_ok hpart
  | backLink => exact h.backLinkPart_ok hpart

theorem buildNode_ok {i : NodeId} {built : Built} (hbuilt : g.buildNode i = .ok built) :
    g'.buildNode (σ i) = .ok built := by
  induction i using Arena.children_induction (a := g.arena) generalizing built with
  | node i ih =>
    obtain ⟨part, hpart, hrest⟩ := exists_of_buildNode hbuilt
    have hpart' := h.partAs_ok hpart
    rw [← h.arena.category_eq] at hpart'
    cases part with
    | nothing =>
      obtain rfl := hrest
      exact buildNode_of_nothing hpart'
    | closed decl =>
      obtain rfl := hrest
      exact buildNode_of_closed hpart'
    | spread decl hoisted =>
      obtain ⟨below, hbelow, rfl⟩ := hrest
      refine buildNode_of_spread hpart' ?_
      rw [h.arena.children_eq, List.mapM_map]
      exact Failure.mapM_ok_of_imp (fun n hn b hb => ih n hn hb) hbelow

theorem buildActor_ok (hrec : g.Recorded) {i : NodeId} (hi : i < g.arena.size)
    {treeView : Bool} {decl : TypeDecl} (hdecl : g.buildActor i treeView = .ok decl) :
    g'.buildActor (σ i) treeView = .ok decl := by
  obtain ⟨v, hv, hrest⟩ := Failure.bind_eq_ok_iff.mp hdecl
  obtain ⟨w, hw, hvw⟩ := h.expectState_ok hv
  have hlt : ∀ n ∈ v.ancestors, n < g.arena.size := by
    intro n hn
    rw [hrec.ancestors_eq (expectState_eq_ok_iff.mp hv)] at hn
    exact h.lt_of_mem_roots n (mem_roots_of_mem_ancestors hn)
  rw [buildActor, hw, h.actorState?_eq, h.actorSymbol?_eq]
  simp only [bind, Except.bind]
  cases hs : g.actorState? i with
  | none => simp [hs] at hrest
  | some s =>
    cases hsymbol : g.actorSymbol? i with
    | none => simp [hs, hsymbol] at hrest
    | some symbol =>
      simp only [hs, hsymbol] at hrest
      obtain ⟨below, hbelow, hpure⟩ := Failure.bind_eq_ok_iff.mp hrest
      have hbelow' : (g'.arena.children (σ i)).mapM g'.buildNode = .ok below := by
        rw [h.arena.children_eq, List.mapM_map]
        exact Failure.mapM_ok_of_imp (fun n _ b hb => h.buildNode_ok hb) hbelow
      simp only [Option.map_some, hbelow', hvw.ancestors_eq, h.actorDecl_eq hlt hi,
        h.compilation_eq]
      exact hpure

end Trees

end Matches

end LinkGraph

end ActorLinks
