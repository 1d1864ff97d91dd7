import ActorLinks.Proofs.Build.Members
import ActorLinks.Proofs.Build.Total
import ActorLinks.Proofs.Visit.Records

/-! # Explicit members

What a declaration implements for another type of the graph should be declared there. For
relationships and for hierarchies it always is. A link interface is taken to redeclare its members
wherever the actor redefines them, but in the gateway assembly it never does; and a link type
implements those of its ancestors whether or not they redeclare anything.
-/
namespace ActorLinks.LinkGraph
variable {g : LinkGraph} {i n : NodeId} {name : MemberName}

section Roots

theorem mem_roots_of_mem_ancestors (hn : n ∈ g.ancestorsOfRoot i) : n ∈ g.roots := by
  unfold ancestorsOfRoot at hn
  split at hn
  · obtain ⟨⟨actor, _, hactor⟩, _⟩ := mem_ancestors_iff.mp hn
    exact mem_roots_iff.mpr ⟨actor, hactor⟩
  · cases hn

/-- Every actor is kept under its own relationship name. -/
def NamesRelated (g : LinkGraph) (found : Dict (List NodeId)) : Prop :=
  ∀ key nodes, found.get? key = some nodes →
    ∀ n ∈ nodes, n ∈ g.roots ∧ g.relationshipName n = key

section Collected
variable {P : String → NodeId → Prop} {found : Dict (List NodeId)}

theorem forall_insert (h : ∀ key nodes, found.get? key = some nodes → ∀ n ∈ nodes, P key n)
    {key : String} {nodes : List NodeId} (hnodes : ∀ n ∈ nodes, P key n) :
    ∀ k ns, (found.insert key nodes).get? k = some ns → ∀ n ∈ ns, P k n := by
  intro k ns hk
  rw [Dict.get?_insert] at hk
  split at hk
  · next hkey =>
    cases hk
    exact hkey ▸ hnodes
  · exact h k ns hk

theorem forall_addRelated (h : ∀ key nodes, found.get? key = some nodes → ∀ n ∈ nodes, P key n)
    {key : String} (hn : P key n) :
    ∀ k ns, (addRelated found key n).get? k = some ns → ∀ m ∈ ns, P k m := by
  unfold LinkGraph.addRelated
  simp only
  split
  · exact h
  · refine forall_insert h fun m hm => ?_
    rcases List.mem_append.mp hm with hold | hnew
    · cases hget : found.get? key with
      | none => simp [hget] at hold
      | some nodes =>
        rw [hget, Option.getD_some] at hold
        exact h _ nodes hget m hold
    · obtain rfl := List.mem_singleton.mp hnew
      exact hn

/-- What holds of every other actor under its relationship name holds of all that is collected. -/
theorem forall_collectRelated {actor : NodeId} {interfaces : List String}
    (hP : ∀ n ∈ g.roots, n ≠ actor → P (g.relationshipName n) n)
    (h : ∀ key nodes, found.get? key = some nodes → ∀ n ∈ nodes, P key n) :
    ∀ key nodes, (g.collectRelated actor found interfaces).get? key = some nodes →
      ∀ n ∈ nodes, P key n := by
  fun_induction g.collectRelated actor found interfaces with
  | case1 found => exact h
  | case2 found interface rest hrel ih => exact ih h
  | case3 found interface rest hrel ih => exact ih h
  | case4 found interface rest n hrel hne hmem ih =>
    exact ih (forall_addRelated h (hP n (mem_roots_of_related hrel) hne))
  | case5 found interface rest n hrel hne hmem ih =>
    refine ih (forall_insert h fun m hm => ?_)
    obtain rfl := List.mem_singleton.mp hm
    exact hP m (mem_roots_of_related hrel) hne

theorem forall_additionalRelationships {actor : NodeId}
    (hP : ∀ n ∈ g.roots, n ≠ actor → P (g.relationshipName n) n) :
    ∀ key nodes, (g.additionalRelationships actor).get? key = some nodes →
      ∀ n ∈ nodes, P key n := by
  have hempty : ∀ key nodes, (∅ : Dict (List NodeId)).get? key = some nodes →
      ∀ n ∈ nodes, P key n := fun _ _ hget => nomatch hget
  unfold additionalRelationships
  split
  · exact forall_collectRelated hP hempty
  · exact hempty

end Collected

theorem namesRelated_additionalRelationships (actor : NodeId) :
    g.NamesRelated (g.additionalRelationships actor) :=
  forall_additionalRelationships (P := fun key n => n ∈ g.roots ∧ g.relationshipName n = key)
    fun _ hn _ => ⟨hn, rfl⟩

theorem ne_of_mem_additionalRelationships {actor : NodeId} {key : String} {nodes : List NodeId}
    (hget : (g.additionalRelationships actor).get? key = some nodes) (hn : n ∈ nodes) :
    n ≠ actor :=
  forall_additionalRelationships (P := fun _ n => n ≠ actor) (fun _ _ hne => hne) key nodes hget
    n hn

theorem mem_entries_of_mem_relatedActors {s : ActorState} {e : String × NodeId}
    (he : e ∈ g.relatedActors s) : ∃ nodes, s.additionalRelationships.get? e.1 = some nodes ∧
      e.2 ∈ nodes := by
  simp only [relatedActors] at he
  generalize hall : (s.additionalRelationships.entries.flatMap fun e =>
    e.2.map fun n => (e.1, n)) = all at he
  have hmem : e ∈ all := by
    refine List.foldlRecOn (motive := fun kept => ∀ x ∈ kept, x ∈ all) all _ (by simp)
      (fun kept hkept y hy x hx => ?_) e he
    split at hx
    · exact hkept x hx
    · rcases List.mem_append.mp hx with hold | hnew
      · exact hkept x hold
      · exact List.mem_singleton.mp hnew ▸ hy
  rw [← hall] at hmem
  obtain ⟨⟨key, nodes⟩, hentry, hmem⟩ := List.mem_flatMap.mp hmem
  obtain ⟨m, hm, rfl⟩ := List.mem_map.mp hmem
  exact ⟨nodes, Dict.mem_entries_iff.mp hentry, hm⟩

variable {c : Compilation} {sch : Schematic} {targets : List Target}

/-- No two actors of a graph have one name. -/
theorem Grounded.eq_of_mem_roots (h : Grounded c sch targets g) (hi : i ∈ g.roots)
    (hn : n ∈ g.roots) (heq : (g.target i).actor = (g.target n).actor) : i = n := by
  obtain ⟨actor, hactor⟩ := mem_roots_iff.mp hi
  obtain ⟨actor', hactor'⟩ := mem_roots_iff.mp hn
  rw [h.target_of_actor hactor, h.target_of_actor hactor'] at heq
  subst heq
  exact Option.some.inj (hactor.symm.trans hactor')

theorem Grounded.mem_roots_of_isActor (h : Grounded c sch targets g) (hi : i < g.arena.size)
    (hk : (g.arena.kind i).isActor = true) : i ∈ g.roots :=
  mem_roots_iff.mpr ⟨_, h.actor_of_orphan i hi ((h.nested.isActor_iff hi).mp hk)⟩

theorem Grounded.mem_roots_of_rootActor? (h : Grounded c sch targets g)
    (hi : g.arena.rootActor? n = some i) : i ∈ g.roots :=
  h.mem_roots_of_isActor (Arena.lt_size_of_mem_parents (List.mem_of_find?_eq_some hi))
    (List.find?_some (p := fun p => (g.arena.kind p).isActor) hi)

theorem lt_size_of_state? {v : NodeState} (h : g.state? i = some v) : i < g.states.size :=
  (Array.getElem?_eq_some_iff.mp (Option.join_eq_some_iff.mp h)).1

theorem ActorAt.mem_roots {s : ActorState} {ancestors : List NodeId}
    (h : g.ActorAt i s ancestors) (hv : Visits (ofTargets c sch targets) g) : i ∈ g.roots := by
  obtain ⟨v, hstate, hdetail, _⟩ := h
  have hi : i < g.arena.size := hv.progress.size_eq ▸ lt_size_of_state? hstate
  have hcategory := (hv.fitting hstate).1
  rw [hdetail] at hcategory
  exact hv.grounded.mem_roots_of_isActor hi (beq_iff_eq.mpr hcategory.symm)

end Roots

section Actors
variable {c : Compilation} {sch : Schematic} {targets : List Target} {a b : NodeId}
  {s t : ActorState} {as bs : List NodeId}

theorem declares_link_iff (hv : Visits (ofTargets c sch targets) g) (ha : g.ActorAt a s as)
    (hb : g.ActorAt b t bs)
    (h : (g.linkInterface b t bs).Implements ((g.target a).actor ++ ".Link") name) :
    (g.linkInterface a s as).Declares name ↔ (g.target a).assembly ≠ .gateway := by
  obtain ⟨hname, a', ha', heq, s', hs', hredefines⟩ := implements_linkInterface h
  have hroot : a' ∈ g.roots := mem_roots_of_mem_ancestors ((hv.recorded.actorAt_eq hb).1 ▸ ha')
  obtain rfl := hv.grounded.eq_of_mem_roots hroot (ha.mem_roots hv) heq
  obtain rfl := Option.some.inj (hs'.symm.trans ha.actorState?_eq)
  rw [declares_linkInterface]
  cases (g.target a').assembly <;> simp [hname, hredefines]

/-- An ancestor outside the core assembly is implemented through its link interface, whether or not
that one redeclares the members. -/
theorem implements_link (hv : Visits (ofTargets c sch targets) g) (ha : g.ActorAt a s as)
    (hmem : a ∈ bs) (hcore : (g.target a).isCore = false) (hname : name ∈ linkNames) :
    (g.linkInterface b t bs).Implements ((g.target a).actor ++ ".Link") name := by
  have hredefines : s.redefinesRootMembers = true := by
    rw [(hv.recorded.actorAt_eq ha).2.1, hcore]
    rfl
  exact offers_linkInterface.mpr (Or.inr (Or.inr ⟨a, hmem,
    offers_ancestorLinkMembers_of_redefines ha.actorState?_eq hredefines hname⟩))

theorem relationshipName_of_actorAt (ha : g.ActorAt a s as) :
    g.relationshipName a = s.relationshipName := by
  rw [relationshipName, ha.actorState?_eq]

theorem related_of_mem_relatedActors (hv : Visits (ofTargets c sch targets) g)
    (hb : g.ActorAt b t bs) {e : String × NodeId} (he : e ∈ g.relatedActors t) :
    e.2 ∈ g.roots ∧ g.relationshipName e.2 = e.1 := by
  obtain ⟨nodes, hnodes, hmem⟩ := mem_entries_of_mem_relatedActors he
  rw [(hv.recorded.actorAt_eq hb).2.2] at hnodes
  exact namesRelated_additionalRelationships b _ nodes hnodes _ hmem

theorem relationship_ne_canonicalRelationship (p q : String) :
    p ++ ".Relationship" ≠ q ++ ".CanonicalRelationship" := by
  intro h
  have hfront : p ++ "." = q ++ ".Canonical" := by
    refine (String.append_left_inj "Relationship").mp ?_
    rw [String.append_assoc, String.append_assoc]
    exact h
  have hlast := congrArg (fun text => text.toList.getLast?) hfront
  simp at hlast

theorem declares_relationship (hv : Visits (ofTargets c sch targets) g) (ha : g.ActorAt a s as)
    (hb : g.ActorAt b t bs)
    (h : (g.canonicalRelationship b t bs).Implements ((g.target a).actor ++ ".Relationship") name) :
    (relationshipInterface (g.target a) s.relationshipName (!as.isEmpty)).Declares name := by
  have hsame {n : NodeId} (hn : n ∈ g.roots)
      (heq : (g.target a).actor ++ ".Relationship" = (g.target n).actor ++ ".Relationship") :
      g.relationshipName n = s.relationshipName := by
    have hactor := (String.append_left_inj _).mp heq
    obtain rfl := hv.grounded.eq_of_mem_roots (ha.mem_roots hv) hn hactor
    exact relationshipName_of_actorAt ha
  have hname : name = .named s.relationshipName := by
    rcases offers_canonicalRelationship.mp h with
      ⟨n, hn, heq, rfl⟩ | hshared | ⟨_, ⟨heq, rfl⟩ | ⟨e, he, heq, rfl⟩⟩
    · rw [hsame (mem_roots_of_mem_ancestors ((hv.recorded.actorAt_eq hb).1 ▸ hn))
        (Option.some.inj heq)]
    · exact absurd (applied_of_offers_sharedEntities hshared)
        (not_applied_append (by decide) (by decide))
    · rw [← relationshipName_of_actorAt hb,
        hsame (hb.mem_roots hv) (Option.some.inj (heq.resolve_left (by simp)))]
    · obtain ⟨hroot, hrelated⟩ := related_of_mem_relatedActors hv hb he
      rcases relationshipOwner_eq g e.2 with howner | ⟨howner, _⟩
      · rw [← hrelated, hsame hroot ((Option.some.inj heq).trans howner)]
      · exact absurd ((Option.some.inj heq).trans howner)
          (relationship_ne_canonicalRelationship _ _)
  rw [hname]
  exact declares_relationshipInterface

theorem declares_canonicalRelationship (hv : Visits (ofTargets c sch targets) g)
    (ha : g.ActorAt a s as) (hb : g.ActorAt b t bs)
    (h : (g.canonicalRelationship b t bs).Implements
      ((g.target a).actor ++ ".CanonicalRelationship") name) :
    (g.canonicalRelationship a s as).Declares name := by
  rcases offers_canonicalRelationship.mp h with
    ⟨n, _, heq, _⟩ | hshared | ⟨_, ⟨heq, _⟩ | ⟨e, he, heq, rfl⟩⟩
  · exact absurd (Option.some.inj heq).symm (relationship_ne_canonicalRelationship _ _)
  · exact absurd (applied_of_offers_sharedEntities hshared)
      (not_applied_append (by decide) (by decide))
  · have howner := Option.some.inj (heq.resolve_left (by simp))
    exact absurd howner.symm (relationship_ne_canonicalRelationship _ _)
  · obtain ⟨hroot, hrelated⟩ := related_of_mem_relatedActors hv hb he
    rcases relationshipOwner_eq g e.2 with howner | ⟨howner, s', hs', hredefined⟩
    · exact absurd ((Option.some.inj heq).trans howner).symm
        (relationship_ne_canonicalRelationship _ _)
    · have hactor := (String.append_left_inj _).mp ((Option.some.inj heq).trans howner)
      have hsame := hv.grounded.eq_of_mem_roots (ha.mem_roots hv) hroot hactor
      rw [← hsame] at hrelated hs'
      obtain rfl := Option.some.inj (hs'.symm.trans ha.actorState?_eq)
      rw [← hrelated, relationshipName_of_actorAt ha]
      exact offers_canonicalRelationship.mpr
        (Or.inr (Or.inr ⟨hredefined, Or.inl ⟨Or.inl rfl, rfl⟩⟩))

end Actors

section Parts
variable {v : NodeState} {decl : TypeDecl} {hoisted : List TypeDecl}

theorem expectState_eq_ok_iff : g.expectState i = .ok v ↔ g.state? i = some v := by
  unfold expectState
  cases g.state? i with
  | none => simp
  | some w => simp

/-- A link type offers the operations of its kind, and a method that creates it. -/
theorem exists_of_linkTypePart {k : LinkKind} {e : Schematic.Entry}
    (hk : g.arena.kind i = .linkType k e) (h : g.linkTypePart i = .ok (.spread decl hoisted)) :
    ∃ v s, g.state? i = some v ∧ g.linkTypeState? i = some s ∧ ∀ interface name,
      Offers decl.members interface name ↔
        Offers (g.linkTypeMembers i k e s.redefinesLinkMembers v.ancestors) interface name ∨
          g.Creates i interface name := by
  obtain ⟨v, hv, hrest⟩ := Failure.bind_eq_ok_iff.mp h
  cases hs : g.linkTypeState? i with
  | none => simp [hs] at hrest
  | some s =>
    simp only [hs, hk] at hrest
    split at hrest
    · cases hrest
    · refine ⟨v, s, expectState_eq_ok_iff.mp hv, rfl, fun interface name => ?_⟩
      rw [offers_withImplementation (Except.ok.inj hrest)]
      simp

theorem declares_linkType_iff {c : Compilation} {sch : Schematic} {targets : List Target}
    (hv : Visits (ofTargets c sch targets) g) {k : LinkKind} {e f : Schematic.Entry}
    {other : TypeDecl} {classes : List TypeDecl} {interface : String}
    (hi : g.arena.kind i = .linkType k e) (hn : g.arena.kind n = .linkType k f)
    (hdecl : g.linkTypePart i = .ok (.spread decl hoisted))
    (hother : g.linkTypePart n = .ok (.spread other classes))
    (h : decl.Implements interface name) :
    other.Declares name ↔ name = .indexer ∨ (g.target n).isCore = false ∨
      g.ancestorsOfRoot n ≠ [] := by
  have hname : name ∈ operations k := by
    obtain ⟨_, _, _, _, hoffers⟩ := exists_of_linkTypePart hi hdecl
    rcases (hoffers _ _).mp h with hmember | ⟨_, hnone, _⟩
    · exact mem_operations_of_offers hmember
    · cases hnone
  obtain ⟨w, s, hw, hs, hoffers⟩ := exists_of_linkTypePart hn hother
  have hcreate : ¬ g.Creates n none name := by
    rintro ⟨_, _, rfl⟩
    cases k <;> simp [operations] at hname
  rw [TypeDecl.Declares, hoffers, declares_linkTypeMembers hname, or_iff_left hcreate,
    hv.recorded.redefinesLinkMembers_eq hw hs, hv.recorded.ancestors_eq hw]
  simp [or_comm]

/-- The hierarchies that a state composes beside its node. -/
def composedHierarchies (g : LinkGraph) (v : NodeState) : List NodeId :=
  v.composition.toList.filter g.isHierarchyNode

/-- A hierarchy with members offers properties for them, and the methods that select among them,
for itself and for what it composes, and a method that creates it. -/
theorem exists_hierarchyPart {s : HierarchyState} (hv : g.state? i = some v)
    (hs : g.hierarchyState? i = some s) (hne : s.members ≠ []) :
    ∃ decl hoisted, g.hierarchyPart i = .ok (.spread decl hoisted) ∧ ∀ interface name,
      Offers decl.members interface name ↔
        ((∃ m ∈ s.members, Offers (g.memberProperties i m) interface name) ∨
          (g.arena.isTemplate i = false ∧ ∃ n ∈ g.composedHierarchies v,
            Offers (g.composedMembers n) interface name) ∨
          ∃ d ∈ s.delimiters,
            Offers (g.delimiterMethods i (g.composedHierarchies v) d) interface name) ∨
        g.Creates i interface name := by
  have hmembers : s.members.isEmpty = false := by simpa using hne
  simp only [hierarchyPart, expectState, hv, hs, hmembers, bind, Except.bind, pure, Except.pure]
  obtain ⟨decl, hoisted, hpart, _⟩ := withImplementation_spread (g := g) i _ _ _
  refine ⟨decl, hoisted, congrArg Except.ok hpart, fun interface name => ?_⟩
  rw [offers_withImplementation hpart]
  cases htemplate : g.arena.isTemplate i with
  | true => simp [composedHierarchies]
  | false => simp [composedHierarchies, or_assoc]

theorem exists_of_hierarchyPart (h : g.hierarchyPart i = .ok (.spread decl hoisted)) :
    ∃ v s, g.state? i = some v ∧ g.hierarchyState? i = some s ∧ s.members ≠ [] := by
  obtain ⟨v, hv, hrest⟩ := Failure.bind_eq_ok_iff.mp h
  cases hs : g.hierarchyState? i with
  | none => simp [hs] at hrest
  | some s =>
    refine ⟨v, s, expectState_eq_ok_iff.mp hv, rfl, fun hnil => ?_⟩
    simp only [hs, hnil, List.isEmpty_nil, if_true] at hrest
    cases hrest

/-- Where there is no member to select, nothing delimits. -/
theorem delimiters_nil : g.delimiters i [] = [] := by
  have hfield (f : Symbol.Field) : g.fieldMember? [] f = none := by
    unfold fieldMember?
    split
    · rfl
    · rfl
  have hnone (p : Symbol.Property) : g.delimiter? [] p = none := by
    unfold delimiter?
    split
    · rfl
    · simp [hfield]
  unfold delimiters
  simp [hnone]

theorem Recorded.members_ne_nil (h : g.Recorded) {s : HierarchyState}
    (hs : g.hierarchyState? i = some s) {d : Delimiter} (hd : d ∈ s.delimiters) :
    s.members ≠ [] := by
  obtain ⟨v, hv, hdetail⟩ := hierarchyState?_eq_some.mp hs
  obtain ⟨states, _, hvisit⟩ := h i v hv
  obtain ⟨members, _, rfl⟩ := Failure.map_eq_ok_iff.mp (hierarchy_of_visitNode hvisit hdetail)
  rintro rfl
  rw [delimiters_nil] at hd
  cases hd

/-- A hierarchy with members is declared, with all that others may implement for it. -/
theorem exists_declaredHierarchy {s : HierarchyState} (hs : g.hierarchyState? i = some s)
    (hne : s.members ≠ []) :
    ∃ decl hoisted, g.hierarchyPart i = .ok (.spread decl hoisted) ∧
      (∀ m ∈ s.members, decl.Declares (.named (g.memberName i m))) ∧
      ∀ d ∈ s.delimiters, decl.Declares (.named "OfType") := by
  obtain ⟨v, hv, _⟩ := hierarchyState?_eq_some.mp hs
  obtain ⟨decl, hoisted, hpart, hoffers⟩ := exists_hierarchyPart hv hs hne
  refine ⟨decl, hoisted, hpart, fun m hm => ?_, fun d hd => ?_⟩
  · exact (hoffers _ _).mpr
      (Or.inl (Or.inl ⟨m, hm, offers_memberProperties.mpr ⟨Or.inl rfl, rfl⟩⟩))
  · exact (hoffers _ _).mpr
      (Or.inl (Or.inr (Or.inr ⟨d, hd, offers_delimiterMethods.mpr ⟨Or.inl rfl, rfl⟩⟩)))

/-- What a hierarchy implements for one that it composes is declared there. -/
theorem declares_hierarchy {c : Compilation} {sch : Schematic} {targets : List Target}
    (hv : Visits (ofTargets c sch targets) g) (hi : g.state? i = some v)
    (hdecl : g.hierarchyPart i = .ok (.spread decl hoisted)) {interface : String}
    (h : decl.Implements interface name) :
    g.arena.isCore i = false ∧ interface = g.coreHierarchy i ∨
      ∃ n ∈ v.composition, interface = g.arena.fullPath n ∧
        ∃ other classes, g.hierarchyPart n = .ok (.spread other classes) ∧
          other.Declares name := by
  obtain ⟨w, s, hw, hs, hne⟩ := exists_of_hierarchyPart hdecl
  obtain rfl := Option.some.inj (hi.symm.trans hw)
  obtain ⟨decl', hoisted', hpart, hoffers⟩ := exists_hierarchyPart hi hs hne
  rw [hdecl] at hpart
  cases hpart
  rcases (hoffers _ _).mp h with
    (⟨m, _, hown⟩ | ⟨_, n, hn, hcomposed⟩ | ⟨d, _, hselects⟩) | ⟨_, hnone, _⟩
  · obtain ⟨hnone | ⟨hcore, heq⟩, _⟩ := offers_memberProperties.mp hown
    · cases hnone
    · exact Or.inl ⟨hcore, Option.some.inj heq⟩
  · obtain ⟨s', hs', m, hm, heq, rfl⟩ := offers_composedMembers.mp hcomposed
    obtain ⟨other, classes, hother, hmembers, _⟩ :=
      exists_declaredHierarchy hs' (List.ne_nil_of_mem hm)
    exact Or.inr ⟨n, (List.mem_filter.mp hn).1, Option.some.inj heq, other, classes, hother,
      hmembers m hm⟩
  · obtain ⟨hnone | ⟨n, hn, hdelimits, heq⟩, rfl⟩ := offers_delimiterMethods.mp hselects
    · cases hnone
    · unfold delimits at hdelimits
      split at hdelimits
      · next s' hs' =>
        obtain ⟨d', hd', _⟩ := List.any_eq_true.mp hdelimits
        obtain ⟨other, classes, hother, _, hselectors⟩ :=
          exists_declaredHierarchy hs' (hv.recorded.members_ne_nil hs' hd')
        exact Or.inr ⟨n, (List.mem_filter.mp hn).1, Option.some.inj heq, other, classes, hother,
          hselectors d' hd'⟩
      · cases hdelimits
  · cases hnone

end Parts

/-- Inside the types that contain the actor stands its declaration, and in it the link interface. -/
def HasLink (g : LinkGraph) (i : NodeId) (decl link : TypeDecl) : Prop :=
  link.name = "Link" ∧ ∃ symbol own, g.actorSymbol? i = some symbol ∧ decl.Contains own ∧
    own.name = symbol.declaredName ∧ Member.type link ∈ own.members

/-- The declaration of an actor takes in those of the nodes below it, and their classes. -/
theorem exists_of_buildActor {decl : TypeDecl} {treeView : Bool}
    (h : g.buildActor i treeView = .ok decl) : ∃ s ancestors symbol below,
      g.ActorAt i s ancestors ∧ g.actorSymbol? i = some symbol ∧
      (g.arena.children i).mapM g.buildNode = .ok below ∧
      decl = wrapInContainers g.compilation symbol
        ((g.actorDecl i symbol s ancestors treeView).addMembers
          (Built.members below ++ (Built.classes below).map Member.type)) := by
  obtain ⟨v, hexpect, hrest⟩ := Failure.bind_eq_ok_iff.mp h
  have hv := expectState_eq_ok_iff.mp hexpect
  split at hrest
  · cases hrest
  · next s hs =>
    split at hrest
    · cases hrest
    · next symbol hsymbol =>
      obtain ⟨below, hbelow, hdecl⟩ := Failure.bind_eq_ok_iff.mp hrest
      obtain ⟨w, hw, hdetail⟩ := actorState?_eq_some.mp hs
      obtain rfl := Option.some.inj (hv.symm.trans hw)
      exact ⟨s, v.ancestors, symbol, below, ⟨v, hv, hdetail, rfl⟩, hsymbol, hbelow,
        (Except.ok.inj hdecl).symm⟩

theorem hasLink_of_buildActor {decl : TypeDecl} {treeView : Bool}
    (h : g.buildActor i treeView = .ok decl) : ∃ s ancestors, g.ActorAt i s ancestors ∧
      g.HasLink i decl (g.linkInterface i s ancestors) := by
  obtain ⟨s, ancestors, symbol, below, hat, hsymbol, _, rfl⟩ := exists_of_buildActor h
  refine ⟨s, ancestors, hat, ?_, symbol, _, hsymbol, contains_wrapInContainers _ _ _, ?_, ?_⟩
  · simp [linkInterface]
  · simp [actorDecl]
  · simp [actorDecl]

section
variable {c : Compilation} {sch : Schematic} {targets : List Target}

theorem Complete.exists_buildActor_of_mem_roots (hg : g.Complete) (h : Grounded c sch targets g)
    (hi : i ∈ g.roots) (treeView : Bool) : ∃ decl, g.buildActor i treeView = .ok decl := by
  obtain ⟨actor, hactor⟩ := mem_roots_iff.mp hi
  obtain ⟨hp, hshows⟩ := h.root_of_actor hactor
  exact hg.exists_buildActor hshows.lt_size hp treeView

theorem Visits.ancestors_of_actorAt (hv : Visits (ofTargets c sch targets) g) (hi : i ∈ g.roots)
    {s : ActorState} {ancestors : List NodeId} (h : g.ActorAt i s ancestors) :
    ancestors = g.ancestors i := by
  obtain ⟨actor, hactor⟩ := mem_roots_iff.mp hi
  have hkind := (hv.grounded.root_of_actor hactor).2.kind_eq
  rw [(hv.recorded.actorAt_eq h).1, ancestorsOfRoot, actorRoot?, hkind]
  rfl

theorem exists_link (hv : Visits (ofTargets c sch targets) g) (hg : g.Complete) (hi : i ∈ g.roots)
    (treeView : Bool) : ∃ decl s, g.buildActor i treeView = .ok decl ∧
      g.ActorAt i s (g.ancestors i) ∧ g.HasLink i decl (g.linkInterface i s (g.ancestors i)) := by
  obtain ⟨decl, hdecl⟩ := hg.exists_buildActor_of_mem_roots hv.grounded hi treeView
  obtain ⟨s, ancestors, hat, hlink⟩ := hasLink_of_buildActor hdecl
  obtain rfl := hv.ancestors_of_actorAt hi hat
  exact ⟨decl, s, hdecl, hat, hlink⟩

end

/-- An actor of the assembly, by the friendly name. -/
def pairTarget (assembly : Assembly) (name : String) : Target where
  actor := assembly.namespaceName ++ "." ++ assembly.name ++ name ++ "Actor"
  entity := assembly.namespaceName ++ "." ++ assembly.name ++ name
  id := "ulong"
  model := "Discord.Models.I" ++ name ++ "Model"
  assembly := assembly
  declaredCoreActor := some ("Discord.I" ++ name ++ "Actor")
  declaredCoreEntity := some ("Discord.I" ++ name)

/-- Two actors of one assembly, a thread being a channel. -/
def pairTypes (assembly : Assembly) : Compilation :=
  let channel := pairTarget assembly "Channel"
  let thread := pairTarget assembly "Thread"
  .ofTypes
    [{ name := channel.actor },
     { name := thread.actor, baseType := some channel.actor },
     { name := thread.entity, baseType := some channel.entity }]

def pairGraph (assembly : Assembly) : LinkGraph :=
  ofTargets (pairTypes assembly) ⟨⟨"Discord.ILinkType", [], [], []⟩⟩
    [pairTarget assembly "Channel", pairTarget assembly "Thread"]

/-- The channel is node 0, with its back link, and the thread node 2. -/
theorem pairGraph_actors (assembly : Assembly) :
    (pairGraph assembly).actors.entries = [((pairTarget assembly "Channel").actor, 0),
      ((pairTarget assembly "Thread").actor, 2)] ∧
    (pairGraph assembly).target 0 = pairTarget assembly "Channel" ∧
    (pairGraph assembly).target 2 = pairTarget assembly "Thread" := by
  cases assembly <;> decide +kernel

theorem quiet_pairGraph (assembly : Assembly) : 0 < (pairGraph assembly).arena.size ∧
    ∀ i < (pairGraph assembly).arena.size, (pairGraph assembly).complaint? i = none := by
  cases assembly <;> decide +kernel

theorem mem_ancestors_pairGraph (assembly : Assembly) :
    0 ∈ (pairGraph assembly).ancestors 2 := by
  obtain ⟨hentries, hchannel, hthread⟩ := pairGraph_actors assembly
  -- the supertypes are explored by well-founded recursion, so one step to a parent is taken here
  -- instead of their being computed
  have hparents : (pairTarget assembly "Channel").actor ∈
        (pairTypes assembly).parents (pairTarget assembly "Thread").actor ∧
      (pairTarget assembly "Channel").entity ∈
        (pairTypes assembly).parents (pairTarget assembly "Thread").entity := by
    cases assembly <;> decide +kernel
  have hne : (pairTarget assembly "Channel").actor ≠ (pairTarget assembly "Thread").actor := by
    cases assembly <;> decide +kernel
  have hactor : (pairGraph assembly).actor? (pairTarget assembly "Channel").actor = some 0 :=
    Dict.mem_entries_iff.mp (by rw [hentries]; exact List.mem_cons_self)
  have hcompilation : (pairGraph assembly).compilation = pairTypes assembly :=
    grounded_ofTargets.compilation_eq
  rw [← hcompilation] at hparents
  rw [← hchannel, ← hthread] at hparents hne
  rw [← hchannel] at hactor
  exact mem_ancestors_of_parents hactor hne hparents.1 (Or.inr hparents.2)

theorem visit_pairGraph (assembly : Assembly) : (pairGraph assembly).visit.2 = none := by
  have hground : Grounded (pairTypes assembly) _ _ (pairGraph assembly) := grounded_ofTargets
  rw [hground.failure_visit, List.findSome?_eq_none_iff]
  exact fun i hi => (quiet_pairGraph assembly).2 i (hground.mem_visitList_iff.mp hi)

/-- The two actors are built, and the channel is an ancestor of the thread. -/
theorem exists_pair (assembly : Assembly) :
    (pairGraph assembly).visit.1.target 0 = pairTarget assembly "Channel" ∧
    ∃ channel thread s t as bs, (pairGraph assembly).visit.1.build false =
        .ok [((pairTarget assembly "Channel").actor, channel),
          ((pairTarget assembly "Thread").actor, thread)] ∧
      (pairGraph assembly).visit.1.ActorAt 0 s as ∧
      (pairGraph assembly).visit.1.ActorAt 2 t bs ∧ 0 ∈ bs ∧
      (pairGraph assembly).visit.1.HasLink 0 channel
        ((pairGraph assembly).visit.1.linkInterface 0 s as) ∧
      (pairGraph assembly).visit.1.HasLink 2 thread
        ((pairGraph assembly).visit.1.linkInterface 2 t bs) := by
  have hv : Visits (pairGraph assembly) (pairGraph assembly).visit.1 := .again .refl
  have hcomplete : (pairGraph assembly).visit.1.Complete :=
    Visits.complete_visit .refl (visit_pairGraph assembly)
  have hprogress : Progress (pairGraph assembly) [] (pairGraph assembly).visit.1 := hv.progress
  obtain ⟨hentries, htarget, _⟩ := pairGraph_actors assembly
  rw [← hprogress.actors_eq] at hentries
  rw [← hprogress.target_eq] at htarget
  have habove := mem_ancestors_pairGraph assembly
  rw [← hprogress.ancestors_eq] at habove
  have hsize := (quiet_pairGraph assembly).1
  rw [← hprogress.arena_eq] at hsize
  have hvisited := hcomplete.isVisited_iff.mpr hsize
  generalize (pairGraph assembly).visit.1 = g at *
  obtain ⟨channel, s, hchannel, has, hlink⟩ :=
    exists_link hv hcomplete (i := 0) (by simp [roots, Dict.values, hentries]) false
  obtain ⟨thread, t, hthread, hat, hown⟩ :=
    exists_link hv hcomplete (i := 2) (by simp [roots, Dict.values, hentries]) false
  refine ⟨htarget, channel, thread, s, t, _, _, ?_, has, hat, habove, hlink, hown⟩
  simp [build, hvisited, hentries, hchannel, hthread, Except.map, bind, Except.bind, pure,
    Except.pure]

/-- Where what a declaration implements for another type of the graph is declared by that type. -/
structure ExplicitMembers (g : LinkGraph) : Prop where
  /-- For a link interface: unless its actor is a gateway one. -/
  link : ∀ {a b s t as bs name}, g.ActorAt a s as → g.ActorAt b t bs →
    (g.linkInterface b t bs).Implements ((g.target a).actor ++ ".Link") name →
      ((g.linkInterface a s as).Declares name ↔ (g.target a).assembly ≠ .gateway)
  /-- And that one is implemented too, like every ancestor outside the core assembly. -/
  beyondCore : ∀ {a b s t as bs name}, g.ActorAt a s as → g.ActorAt b t bs → a ∈ bs →
    (g.target a).isCore = false → name ∈ linkNames →
      (g.linkInterface b t bs).Implements ((g.target a).actor ++ ".Link") name
  /-- For a link type: an indexer always, anything else only where that one redefines it. -/
  linkType : ∀ {i n k e f decl hoisted other classes name},
    g.arena.kind i = .linkType k e → g.arena.kind n = .linkType k f →
    g.linkTypePart i = .ok (.spread decl hoisted) →
    g.linkTypePart n = .ok (.spread other classes) →
    decl.Implements (g.arena.fullPath n) name →
      (other.Declares name ↔ name = .indexer ∨ (g.target n).isCore = false ∨
        g.ancestorsOfRoot n ≠ [])
  relationship : ∀ {a b s t as bs name}, g.ActorAt a s as → g.ActorAt b t bs →
    (g.canonicalRelationship b t bs).Implements ((g.target a).actor ++ ".Relationship") name →
      (relationshipInterface (g.target a) s.relationshipName (!as.isEmpty)).Declares name
  canonicalRelationship : ∀ {a b s t as bs name}, g.ActorAt a s as → g.ActorAt b t bs →
    (g.canonicalRelationship b t bs).Implements
        ((g.target a).actor ++ ".CanonicalRelationship") name →
      (g.canonicalRelationship a s as).Declares name
  /-- For a hierarchy that is composed, always. -/
  hierarchy : ∀ {i v decl hoisted interface name}, g.state? i = some v →
    g.hierarchyPart i = .ok (.spread decl hoisted) → decl.Implements interface name →
      g.arena.isCore i = false ∧ interface = g.coreHierarchy i ∨
        ∃ n ∈ v.composition, interface = g.arena.fullPath n ∧
          ∃ other classes, g.hierarchyPart n = .ok (.spread other classes) ∧ other.Declares name

end ActorLinks.LinkGraph
