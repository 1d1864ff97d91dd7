import ActorLinks.Proofs.Build.Covariance
import ActorLinks.Proofs.Build.PlainNames
import ActorLinks.Proofs.Build.Relationships

/-! # Bases of interfaces

The bases of an interface are signatures, members of actors, and paths of nodes below them. Where
names are plain, these are no classes, but for two: outside the core assembly every back link below
the top has the back link of its actor as a base, which is declared as a class; and in it the back
link of an actor has the actor itself as a base, which may be one.
-/
namespace ActorLinks.LinkGraph

section
variable {c : Compilation} {sch : Schematic} {targets : List Target} {g : LinkGraph}
  {i j m n p root : NodeId} {decl d : TypeDecl} {hoisted : List TypeDecl} {v : NodeState}

section Parts

theorem bases_of_linkTypePart (h : g.linkTypePart i = .ok (.spread decl hoisted)) :
    ∃ v, g.state? i = some v ∧ ∀ b ∈ decl.bases, b ∈ g.linkTypeBases i v ∧ b ≠ "" := by
  obtain ⟨v, hv, hrest⟩ := Failure.bind_eq_ok_iff.mp h
  refine ⟨v, expectState_eq_ok_iff.mp hv, fun b hb => ?_⟩
  split at hrest
  · simp only at hrest
    split at hrest
    · cases hrest
    · obtain ⟨full, _, hpart, _, hbases⟩ := exists_face (Except.ok.inj hrest)
      cases hpart
      rw [hbases] at hb
      simpa [TypeDecl.interfaceNamed, SortedSet.mem_iff, and_comm] using hb
  · cases hrest

theorem bases_of_extensionPart (h : g.extensionPart i = .ok (.spread decl hoisted)) :
    ∃ v symbol s, g.state? i = some v ∧ g.extensionState? i = some s ∧
      ∀ b ∈ decl.bases, b ∈ g.extensionBases i symbol v s ∧ b ≠ "" := by
  obtain ⟨v, hv, hrest⟩ := Failure.bind_eq_ok_iff.mp h
  split at hrest
  · next s symbol hs _ =>
    refine ⟨v, symbol, s, expectState_eq_ok_iff.mp hv, hs, fun b hb => ?_⟩
    obtain ⟨full, _, hpart, _, hbases⟩ := exists_face (Except.ok.inj hrest)
    cases hpart
    rw [hbases] at hb
    simpa [TypeDecl.interfaceNamed, SortedSet.mem_iff, and_comm] using hb
  · cases hrest

theorem bases_of_hierarchyPart (h : g.hierarchyPart i = .ok (.spread decl hoisted)) :
    ∃ relatives, (∀ n ∈ relatives, g.isHierarchyNode n = true) ∧
      ∀ b ∈ decl.bases, b ∈ g.hierarchyBases i relatives ∧ b ≠ "" := by
  obtain ⟨v, _, hrest⟩ := Failure.bind_eq_ok_iff.mp h
  refine ⟨v.composition.toList.filter g.isHierarchyNode, fun n hn => (List.mem_filter.mp hn).2,
    fun b hb => ?_⟩
  split at hrest
  · cases hrest
  · split at hrest
    · cases hrest
    · obtain ⟨full, _, hpart, _, hbases⟩ := exists_face (Except.ok.inj hrest)
      cases hpart
      rw [hbases] at hb
      simpa [TypeDecl.interfaceNamed, SortedSet.mem_iff, and_comm] using hb

/-- A node that is declared as an interface takes in its children, which adds no bases to it. -/
theorem DeclaredAs.exists_spread (h : g.DeclaredAs i d) (hk : d.kind = .interface) :
    ∃ decl hoisted, g.partAs (g.arena.category i) i = .ok (.spread decl hoisted) ∧
      d.bases = decl.bases := by
  obtain ⟨_, _, _, _, _, rfl⟩ | ⟨decl, hoisted, _, hpart, _, rfl⟩ := h.closed_or_spread
  · rw [draft_backLinkClass.kind_eq] at hk
    cases hk
  · exact ⟨decl, hoisted, hpart, TypeDecl.bases_addMembers _ _⟩

theorem category_of_templateExtension? {name : String} (h : g.templateExtension? name = some n) :
    g.arena.category n = .extension := by
  obtain ⟨_, _, hfound⟩ := List.exists_of_findSome?_eq_some h
  have hname := List.find?_some hfound
  unfold extensionSymbol? at hname
  cases hk : g.arena.kind n with
  | extension symbol => rw [Arena.category, hk]; rfl
  | _ => simp [hk] at hname

/-- What an extension overloads or derives from is an extension. -/
theorem Visits.category_of_mem_extendedBases (hv : Visits (ofTargets c sch targets) g)
    {symbol : TypeSymbol} {s : ExtensionState} (hs : g.extensionState? i = some s)
    (hn : n ∈ g.extendedBases symbol s) : g.arena.category n = .extension := by
  rcases List.mem_append.mp hn with hn | hn
  · obtain ⟨_, _, hproperties⟩ := hv.recorded.exists_extensionSymbol hs
    obtain ⟨property, hproperty, hbase⟩ := List.mem_filterMap.mp hn
    rw [hproperties] at hproperty
    obtain ⟨own, _, rfl⟩ := List.mem_map.mp hproperty
    obtain ⟨name, _, hfound⟩ := Option.bind_eq_some_iff.mp hbase
    exact category_of_templateExtension? hfound
  · obtain ⟨name, _, hfound⟩ := List.mem_filterMap.mp hn
    exact category_of_templateExtension? hfound

end Parts

/-- What is named below an actor by a name that no class has. -/
theorem noClass_member {actor text : String} (hactor : actor ∈ g.actorNames) (name : String)
    (htext : text = "." ++ name) (hname : NamesNoClass name) : g.NoClass (actor ++ text) := by
  rw [htext, ← String.append_assoc]
  exact .below hactor hname

section Places
variable (hg : Grounded c sch targets g) (hplain : g.PlainNames)
include hg hplain

theorem PlainNames.namedPlainly : g.arena.NamedPlainly :=
  Arena.namedPlainly_of_extensions hg.kinded hplain.extensions

/-- The type of that name at the place of a node, below any actor. -/
theorem PlainNames.noClass_place {actor name : String} (hactor : actor ∈ g.actorNames)
    (i : NodeId) (hname : startsPlain name = true)
    (h : g.arena.namesAbove i ≠ [] ∨ name ≠ "BackLink<TSource>") :
    g.NoClass (actor ++ (g.arena.relativePath i ++ "." ++ name)) := by
  obtain ⟨text, htext, heq⟩ := Arena.exists_namesNoClass (hplain.namedPlainly hg) hname h
  exact noClass_member hactor text heq htext

/-- Of the paths of nodes, those of back links of actors are the ones that classes may have. -/
theorem PlainNames.fullPath_cases (hne : g.arena.fullPath n ≠ "") :
    g.NoClass (g.arena.fullPath n) ∨ ∃ root ∈ g.roots, g.arena.parent? n = some root ∧
      g.arena.category n = .backLink ∧ (g.target root).isCore = false ∧
      g.arena.fullPath n = (g.target root).actor ++ "." ++ "BackLink<TSource>" := by
  obtain ⟨p, root, hp, hroot⟩ := hg.nested.exists_root_of_fullPath hne
  have hmem := hg.mem_roots_of_rootActor? hroot
  have hactor := actor_mem_actorNames hmem
  have hpath := hg.nested.fullPath_eq (hplain.namedPlainly hg) hroot
    (hplain.plain _ (List.mem_append_left _ hactor)).1
  have hcategory := hg.nested.category_ne_actor hp
  have hname := hplain.namedPlainly hg n (Arena.lt_size_of_parent hp) hcategory
  by_cases hback : g.arena.category n = .backLink
  · by_cases htop : g.arena.namesAbove n = []
    · have hactor' := (Arena.namesAbove_eq_nil_iff hg.nested hp).mp htop
      obtain rfl := Option.some.inj ((Arena.rootActor?_of_actor hp hactor').symm.trans hroot)
      have htopPath := hg.nested.fullPath_of_actor hp hactor'
        (hplain.plain _ (List.mem_append_left _ hactor)).1
      rw [Arena.typeName_backLink hback] at htopPath
      cases hcore : (g.target p).isCore with
      | true => exact Or.inl (htopPath ▸ .backLink hmem hcore)
      | false => exact Or.inr ⟨p, hmem, hp, hback, hcore, htopPath⟩
    · rw [hpath]
      exact Or.inl (hplain.noClass_place hg hactor n hname (Or.inl htop))
  · have hnone := Arena.namesNoClass_typeName hg.kinded (hplain.namedPlainly hg)
      (Arena.lt_size_of_parent hp) hcategory hback
    rw [hpath]
    exact Or.inl (hplain.noClass_place hg hactor n hname (Or.inr hnone.2))

theorem PlainNames.noClass_fullPath (hne : g.arena.fullPath n ≠ "")
    (hk : g.arena.category n ≠ .backLink) : g.NoClass (g.arena.fullPath n) := by
  rcases hplain.fullPath_cases hg hne with hnone | ⟨_, _, _, hback, _⟩
  · exact hnone
  · exact absurd hback hk

theorem PlainNames.noClass_path (hp : g.arena.parent? i = some p)
    (hk : (g.arena.kind p).isActor = false) : g.NoClass (g.arena.path i) := by
  have hlt := Nat.lt_trans (Arena.lt_of_parent hp) (Arena.lt_size_of_parent hp)
  obtain ⟨root, hroot, _⟩ := hg.nested.exists_root hlt hk
  have hactor := actor_mem_actorNames (hg.mem_roots_of_rootActor? hroot)
  have hne : g.arena.fullPath p ≠ "" := by
    rw [hg.nested.fullPath_eq (hplain.namedPlainly hg) hroot
      (hplain.plain _ (List.mem_append_left _ hactor)).1, Ne, String.append_eq_empty_iff]
    exact fun hempty => (hplain.plain _ (List.mem_append_left _ hactor)).1 hempty.1
  rw [Arena.path_eq_fullPath hp hne]
  exact hplain.noClass_fullPath hg hne (hg.nested.category_ne_backLink hp)

end Places

/-- A node is named after its actor, or after the core actor of that. -/
theorem Grounded.names_of_rootActor? (hg : Grounded c sch targets g)
    (hroot : g.arena.rootActor? i = some root) :
    (g.target i).actor ∈ g.actorNames ∧ (g.target i).coreActor ∈ g.actorNames := by
  rw [← hg.target_of_mem_parents (List.mem_of_find?_eq_some hroot)]
  have hmem := hg.mem_roots_of_rootActor? hroot
  exact ⟨actor_mem_actorNames hmem, coreActor_mem_actorNames hmem⟩

/-- Of the back links of actors, a back link that is not directly below one lists that of its own
actor only. -/
theorem eq_root_of_mem_listedBackLinks (hv : Visits (ofTargets c sch targets) g)
    (hroot : g.arena.rootActor? i = some root) (hp : g.arena.parent? i = some p)
    (hk : g.arena.category i = .backLink) (hstate : g.state? i = some v)
    (hbelow : (g.arena.kind p).isActor = false) (hj : j ∈ g.listedBackLinks i)
    (hm : g.arena.parent? j = some m) (hactor : (g.arena.kind m).isActor = true) : m = root := by
  have hg := hv.grounded
  obtain ⟨q, hq, _, habove⟩ := exists_of_mem_listedBackLinks hv hstate hp hk hj
  obtain rfl := Option.some.inj (hm.symm.trans (hg.backLinkOf?_eq_some.mp hq).1)
  rcases habove with htop | hcomposed | hequivalent
  · exact Option.some.inj (htop.symm.trans hroot)
  · -- what the parent composes stands below an actor itself
    rw [Arena.rootActor?_of_parent hp hbelow] at hroot
    obtain ⟨⟨segments, hne, _, hwalk⟩, _⟩ :=
      (mem_implicitComposition_iff_reaches hg.nested hroot).mp hcomposed
    obtain ⟨_, habove⟩ := Arena.exists_parent_of_walk? hwalk hne
    rw [hg.nested.isActor_of_parent habove] at hactor
    cases hactor
  · -- an equivalent stands as deep below its actor as the back link does
    obtain ⟨a, _, ha⟩ := List.mem_filterMap.mp hequivalent
    have hlt := Nat.lt_trans (Arena.lt_of_parent hm) (Arena.lt_size_of_parent hm)
    have hdepth := Arena.depth_of_equivalent? ha
    rw [Arena.depth_of_parent hm, Arena.depth_of_parent hp,
      Arena.depth_of_none ((hg.nested.isActor_iff hlt).mp hactor)] at hdepth
    have hlt' := Nat.lt_trans (Arena.lt_of_parent hp) (Arena.lt_size_of_parent hp)
    cases hpp : g.arena.parent? p with
    | none =>
      rw [(hg.nested.isActor_iff hlt').mpr hpp] at hbelow
      cases hbelow
    | some r =>
      rw [Arena.depth_of_parent hpp] at hdepth
      omega

section Nodes
variable (hv : Visits (ofTargets c sch targets) g) (hplain : g.PlainNames)
  (hroot : g.arena.rootActor? i = some root)
include hv hplain hroot

theorem PlainNames.noClass_linkTypeBases (hstate : g.state? i = some v)
    (hk : g.arena.category i = .linkType) {b : String} (hb : b ∈ g.linkTypeBases i v)
    (hne : b ≠ "") : g.NoClass b := by
  have hg := hv.grounded
  obtain ⟨hactor, hcore⟩ := hg.names_of_rootActor? hroot
  have hname : NamesNoClass (g.arena.typeName i) :=
    Arena.namesNoClass_typeName hg.kinded (hplain.namedPlainly hg)
      (Arena.lt_size_of_rootActor? hroot) (by simp [hk]) (by simp [hk])
  have hplace {actor : String} (h : actor ∈ g.actorNames) :
      g.NoClass (actor ++ (g.arena.relativePath i ++ "." ++ g.arena.typeName i)) :=
    hplain.noClass_place hg h i hname.1 (Or.inr hname.2)
  rw [linkTypeBases, SortedSet.mem_ofList, List.mem_append, List.mem_append] at hb
  -- bases of the composition, of the core with the assembly, and of the ancestors
  rcases hb with (hb | hb) | hb
  · split at hb
    · simp only [List.mem_cons, List.not_mem_nil, or_false] at hb
      rcases hb with rfl | rfl
      · exact noClass_member hactor "Link" (by decide) ⟨by decide, by decide⟩
      · exact .signature (((g.target i).isSignature _ (by simp)).append _)
    · obtain ⟨n, hn, rfl⟩ := List.mem_map.mp hb
      have hkn : g.arena.category n = .linkType := beq_iff_eq.mp (List.mem_filter.mp hn).2
      exact hplain.noClass_fullPath hg hne (by simp [hkn])
  · split at hb
    · cases hb
    · rcases List.mem_cons.mp hb with rfl | hb
      · exact hplace hcore
      · unfold Target.assemblyLinkType at hb
        split at hb
        · rw [Option.toList_some, List.mem_singleton] at hb
          exact hb ▸ .signature ((g.target i).isSignature _ (by simp))
        · cases hb
  · obtain ⟨a, ha, rfl⟩ := List.mem_map.mp hb
    have hmem := (List.mem_filter.mp ha).1
    rw [hv.recorded.ancestors_eq hstate] at hmem
    have hpath := hplace (actor_mem_actorNames (mem_roots_of_mem_ancestors hmem))
    simpa only [ancestorPath, String.append_assoc] using hpath

theorem PlainNames.noClass_extensionBases {symbol : TypeSymbol} {s : ExtensionState}
    (hp : g.arena.parent? i = some p) (hs : g.extensionState? i = some s)
    (hk : g.arena.category i = .extension) {b : String}
    (hb : b ∈ g.extensionBases i symbol v s) (hne : b ≠ "") : g.NoClass b := by
  have hg := hv.grounded
  obtain ⟨hactor, hcore⟩ := hg.names_of_rootActor? hroot
  have hname : NamesNoClass (g.arena.typeName i) :=
    Arena.namesNoClass_typeName hg.kinded (hplain.namedPlainly hg)
      (Arena.lt_size_of_rootActor? hroot) (by simp [hk]) (by simp [hk])
  have hplace (n : NodeId) : g.NoClass ((g.target i).coreActor
      ++ (g.arena.relativePath n ++ "." ++ g.arena.typeName i)) :=
    hplain.noClass_place hg hcore n hname.1 (Or.inr hname.2)
  rw [extensionBases, SortedSet.mem_ofList, List.mem_append, List.mem_append] at hb
  -- bases in the core, of the composition, and of the extensions that it builds on
  rcases hb with (hb | hb) | hb
  · split at hb
    · cases hb
    · obtain rfl := List.mem_singleton.mp hb
      simpa only [corePath, String.append_assoc] using hplace i
  · split at hb
    · cases hb
    · next htemplate =>
      rcases List.mem_cons.mp hb with rfl | hb
      · refine hplain.noClass_path hg hp ?_
        simpa [Arena.isTemplate, hp] using htemplate
      · obtain ⟨n, hn, hb⟩ := List.mem_flatMap.mp hb
        have hkn : g.arena.category n = .extension := beq_iff_eq.mp (List.mem_filter.mp hn).2
        rcases List.mem_cons.mp hb with rfl | hb
        · exact hplain.noClass_fullPath hg hne (by simp [hkn])
        · split at hb
          · cases hb
          · obtain rfl := List.mem_singleton.mp hb
            simpa only [String.append_assoc] using hplace n
  · obtain ⟨n, hn, rfl⟩ := List.mem_map.mp hb
    have hkn := hv.category_of_mem_extendedBases hs hn
    exact hplain.noClass_fullPath hg hne (by simp [hkn])

theorem PlainNames.noClass_hierarchyBases {relatives : List NodeId}
    (hrelatives : ∀ n ∈ relatives, g.isHierarchyNode n = true) {b : String}
    (hb : b ∈ g.hierarchyBases i relatives) (hne : b ≠ "") : g.NoClass b := by
  have hg := hv.grounded
  obtain ⟨hactor, hcore⟩ := hg.names_of_rootActor? hroot
  rw [hierarchyBases, SortedSet.mem_ofList, List.mem_append] at hb
  rcases hb with hb | hb
  · split at hb
    · cases hb
    · obtain rfl := List.mem_singleton.mp hb
      have hdot : ".Hierarchy" = "." ++ "Hierarchy" := by decide
      have hplace := hplain.noClass_place hg hcore i (show startsPlain "Hierarchy" = true by decide)
        (Or.inr (by decide))
      simpa only [coreHierarchy, hdot, String.append_assoc] using hplace
  · split at hb
    · obtain rfl := List.mem_singleton.mp hb
      exact noClass_member hactor "Link" (by decide) ⟨by decide, by decide⟩
    · obtain ⟨n, hn, rfl⟩ := List.mem_map.mp hb
      have hkn : g.arena.category n = .hierarchy := beq_iff_eq.mp (hrelatives n hn)
      exact hplain.noClass_fullPath hg hne (by simp [hkn])

/-- Outside the core assembly a back link that is an interface has that of its actor as a base, and
in it the back link of an actor has the actor. -/
theorem PlainNames.backLinkBases_cases (hp : g.arena.parent? i = some p)
    (hk : g.arena.category i = .backLink) (hstate : g.state? i = some v)
    (hface : (!g.arena.isCore i && (g.arena.kind p).isActor) = false) {b : String}
    (hb : b ∈ g.backLinkBases i p (g.ancestorsOfRoot i)) (hne : b ≠ "") : g.NoClass b ∨
      (g.target root).isCore = false ∧ b = (g.target root).actor ++ "." ++ "BackLink<TSource>" ∨
      (g.target root).isCore = true ∧ g.arena.parent? i = some root ∧
        b = (g.target root).actor := by
  have hg := hv.grounded
  obtain ⟨_, hcoreActor⟩ := hg.names_of_rootActor? hroot
  have hcore : g.arena.isCore i = (g.target root).isCore := hg.isCore_of_rootActor? hroot
  have hbelow : (g.target root).isCore = false → (g.arena.kind p).isActor = false := by
    intro hother
    rw [hcore, hother] at hface
    exact hface
  rw [backLinkBases, SortedSet.mem_ofList] at hb
  simp only [List.cons_append, List.mem_cons, List.mem_append] at hb
  -- the parent, the signature, the counterpart in the core, and the listed back links
  rcases hb with rfl | (hb | hb) | hb
  · cases hactor : (g.arena.kind p).isActor with
    | true =>
      obtain rfl := Option.some.inj ((Arena.rootActor?_of_actor hp hactor).symm.trans hroot)
      refine Or.inr (Or.inr ⟨?_, hp, ?_⟩)
      · by_contra hother
        rw [hbelow (Bool.eq_false_iff.mpr hother)] at hactor
        cases hactor
      · exact hg.nested.path_of_actor hp hactor
    | false => exact Or.inl (hplain.noClass_path hg hp hactor)
  · split at hb
    · obtain rfl := List.mem_singleton.mp hb
      exact Or.inl (.signature ((g.target i).isSignature _ (by simp)))
    · cases hb
  · split at hb
    · cases hb
    · next hother =>
      obtain rfl := List.mem_singleton.mp hb
      have hother : (g.target root).isCore = false :=
        hcore.symm.trans (Bool.eq_false_iff.mpr hother)
      have hdot : ".BackLink<TSource>" = "." ++ "BackLink<TSource>" := by decide
      have habove : g.arena.namesAbove i ≠ [] := by
        rw [Ne, Arena.namesAbove_eq_nil_iff hg.nested hp, hbelow hother]
        decide
      have hplace := hplain.noClass_place hg hcoreActor i
        (show startsPlain "BackLink<TSource>" = true by decide) (Or.inl habove)
      exact Or.inl (by simpa only [hdot, String.append_assoc] using hplace)
  -- of the listed back links only that of an actor is a class, and it is that of its own actor
  · obtain ⟨j, hj, rfl⟩ := List.mem_map.mp hb
    rcases hplain.fullPath_cases hg hne with hnone | ⟨r, hr, hparent, _, hother, hpath⟩
    · exact Or.inl hnone
    · obtain ⟨_, hactor⟩ := hg.isActor_of_mem_roots hr
      refine Or.inr (Or.inl ?_)
      have hbelow : (g.arena.kind p).isActor = false := by
        obtain ⟨_, _, hsame, _⟩ := exists_of_mem_listedBackLinks hv hstate hp hk hj
        rw [← hsame, hg.isCore_of_rootActor? (Arena.rootActor?_of_actor hparent hactor)] at hface
        simpa [show g.arena.isCore r = false from hother] using hface
      obtain rfl := eq_root_of_mem_listedBackLinks hv hroot hp hk hstate hbelow hj hparent hactor
      exact ⟨hother, hpath⟩

end Nodes

section Actors
variable {s : ActorState} {ancestors : List NodeId} {b : String}

theorem noClass_linkInterface (hroot : root ∈ g.roots) (hancestors : ∀ a ∈ ancestors, a ∈ g.roots)
    (hb : b ∈ (g.linkInterface root s ancestors).bases) : g.NoClass b := by
  have hlink {actor : String} (h : actor ∈ g.actorNames) : g.NoClass (actor ++ ".Link") :=
    noClass_member h "Link" (by decide) ⟨by decide, by decide⟩
  simp only [linkInterface, TypeDecl.bases_addMembers, TypeDecl.mem_bases_addBases,
    TypeDecl.bases_markNew, linkBases, List.mem_cons, List.mem_append] at hb
  rcases hb with hb | ⟨((rfl | hb) | hb) | hb, _⟩
  · cases hb
  · exact .signature ((g.target root).isSignature _ (by simp))
  · split at hb
    · cases hb
    · exact List.mem_singleton.mp hb ▸ .signature ((g.target root).isSignature _ (by simp))
  · split at hb
    · simp only [List.mem_cons, List.not_mem_nil, or_false] at hb
      rcases hb with rfl | rfl
      · exact .signature ((g.target root).isSignature _ (by simp))
      · exact hlink (coreActor_mem_actorNames hroot)
    · cases hb
  · obtain ⟨a, ha, rfl⟩ := List.mem_map.mp hb
    exact hlink (actor_mem_actorNames (hancestors a ha))

theorem noClass_relationshipInterface {t : Target} {name : String} {isNew : Bool}
    (hb : b ∈ (relationshipInterface t name isNew).bases) : g.NoClass b := by
  simp only [relationshipInterface, TypeDecl.bases_addMembers, TypeDecl.mem_bases_addBase,
    TypeDecl.bases_markNew] at hb
  rcases hb with hb | ⟨rfl, _⟩
  · cases hb
  · exact .signature (t.isSignature _ (by simp))

theorem noClass_canonicalRelationship (hancestors : ∀ a ∈ ancestors, a ∈ g.roots)
    (hrelated : ∀ e ∈ g.relatedActors s, e.2 ∈ g.roots)
    (hb : b ∈ (g.canonicalRelationship root s ancestors).bases) : g.NoClass b := by
  have hcanonical {a : NodeId} (ha : a ∈ g.roots) :
      g.NoClass ((g.target a).actor ++ ".CanonicalRelationship") :=
    noClass_member (actor_mem_actorNames ha) "CanonicalRelationship" (by decide)
      ⟨by decide, by decide⟩
  simp only [canonicalRelationship, TypeDecl.bases_addMembers, TypeDecl.mem_bases_addBases,
    TypeDecl.bases_markNew, List.mem_cons, List.mem_append, List.cons_append] at hb
  rcases hb with hb | ⟨rfl | rfl | hb | hb, _⟩
  · cases hb
  · exact .relationship
  · exact .signature ((g.target root).isSignature _ (by simp))
  · obtain ⟨a, ha, rfl⟩ := List.mem_map.mp hb
    exact hcanonical (hancestors a ha)
  · obtain ⟨e, he, rfl⟩ := List.mem_map.mp hb
    exact hcanonical (hrelated e he)

end Actors

/-- The bases of an interface that are emitted as classes: outside the core assembly, that of a back
link is the back link of its actor, and in it, that of the back link of an actor is the actor, if it
is a class. -/
inductive ClassBase (g : LinkGraph) (root : NodeId) (d : TypeDecl) : String → Prop
  | backLink {i : NodeId} : g.arena.rootActor? i = some root → g.arena.category i = .backLink →
      g.DeclaredAs i d → (g.target root).isCore = false →
      ClassBase g root d ((g.target root).actor ++ "." ++ "BackLink<TSource>")
  | actor {i : NodeId} : g.arena.parent? i = some root → g.arena.category i = .backLink →
      g.DeclaredAs i d → (g.target root).isCore = true → g.EmitsClass (g.target root).actor →
      ClassBase g root d (g.target root).actor

theorem ClassBase.mem_bases {b : String} (h : g.ClassBase root d b)
    (hv : Visits (ofTargets c sch targets) g) (hvisited : g.isVisited = true)
    (hroot : root ∈ g.roots) (hne : (g.target root).actor ≠ "") (hd : d.kind = .interface) :
    b ∈ d.bases ∧ g.EmitsClass b := by
  have hg := hv.grounded
  obtain ⟨_, hactor⟩ := hg.isActor_of_mem_roots hroot
  cases h with
  | @backLink i hi hk hdeclared hcore =>
    obtain ⟨decl, hoisted, hpart, hbases⟩ := hdeclared.exists_spread hd
    rw [hk] at hpart
    obtain ⟨n, hn, hp, hback⟩ := hg.exists_backLink hroot
    obtain ⟨v, _, q, hstate, _, hq, _, hface⟩ := hv.exists_of_backLinkPart hpart
    -- the back link of the actor is a class itself
    have hself : n ≠ i := by
      rintro rfl
      obtain rfl := Option.some.inj (hp.symm.trans hq)
      rcases hface with ⟨_, hclosed⟩ | ⟨hno, _⟩
      · cases hclosed
      · rw [hg.isCore_of_rootActor? hi, show g.arena.isCore root = false from hcore, hactor] at hno
        cases hno
    have hpath := hg.nested.fullPath_of_actor hp hactor hne
    rw [Arena.typeName_backLink hback] at hpath
    have hlisted : n ∈ g.listedBackLinks i := List.mem_append_left _
      (SortedSet.mem_iff.mp ((hv.mem_inheritedBackLinks_iff hstate hq hk).mpr
        ⟨hself, root, hn, Or.inl hi⟩))
    constructor
    · rw [hbases]
      have hmem := fullPath_mem_bases hv hpart hlisted
      rw [hpath] at hmem
      exact hmem (by simp [String.append_eq_empty_iff])
    · exact ((hv.declaresClass_iff hvisited hroot).mpr (Or.inr (Or.inr ⟨hcore, rfl⟩))).emitsClass
  | @actor i hi hk hdeclared hcore hemits =>
    obtain ⟨decl, hoisted, hpart, hbases⟩ := hdeclared.exists_spread hd
    rw [hk] at hpart
    obtain ⟨_, _, q, _, _, hq, _, ⟨_, hclosed⟩ | ⟨_, _, _, hspread, _, hmem⟩⟩ :=
      hv.exists_of_backLinkPart hpart
    · cases hclosed
    · cases hspread
      have hpath : g.arena.path i = (g.target root).actor := hg.nested.path_of_actor hi hactor
      refine ⟨?_, hemits⟩
      rw [hbases, hmem, backLinkBases, SortedSet.mem_ofList, ← hpath]
      exact ⟨List.mem_cons_self, hpath ▸ hne⟩

/-- What a node derives from as an interface is no class, but for the back links. -/
theorem PlainNames.noClass_or_classBase (hplain : g.PlainNames)
    (hv : Visits (ofTargets c sch targets) g) (hi : g.arena.rootActor? i = some root)
    (hdeclared : g.DeclaredAs i d) (hk : d.kind = .interface) {b : String} (hb : b ∈ d.bases)
    (hemits : g.EmitsClass b) : g.NoClass b ∨ g.ClassBase root d b := by
  obtain ⟨face, hoisted, hpart, hbases⟩ := hdeclared.exists_spread hk
  obtain ⟨p, hp⟩ := Arena.exists_parent_of_rootActor? hi
  rw [hbases] at hb
  cases hcategory : g.arena.category i with
  | actor =>
    rw [hcategory] at hpart
    cases hpart
  | linkType =>
    rw [hcategory] at hpart
    obtain ⟨v, hstate, hall⟩ := bases_of_linkTypePart hpart
    exact Or.inl (hplain.noClass_linkTypeBases hv hi hstate hcategory (hall b hb).1 (hall b hb).2)
  | extension =>
    rw [hcategory] at hpart
    obtain ⟨_, _, _, _, hs, hall⟩ := bases_of_extensionPart hpart
    exact Or.inl (hplain.noClass_extensionBases hv hi hp hs hcategory (hall b hb).1 (hall b hb).2)
  | hierarchy =>
    rw [hcategory] at hpart
    obtain ⟨_, hrelatives, hall⟩ := bases_of_hierarchyPart hpart
    exact Or.inl (hplain.noClass_hierarchyBases hv hi hrelatives (hall b hb).1 (hall b hb).2)
  | backLink =>
    rw [hcategory] at hpart
    obtain ⟨v, _, q, hstate, _, hq, hancestors, ⟨_, hclosed⟩ | ⟨hface, _, _, hspread, _, hall⟩⟩ :=
      hv.exists_of_backLinkPart hpart
    · cases hclosed
    · cases hspread
      rw [hall, hancestors] at hb
      rcases hplain.backLinkBases_cases hv hi hq hcategory hstate hface hb.1 hb.2 with
        hnone | ⟨hcore, rfl⟩ | ⟨hcore, htop, rfl⟩
      · exact Or.inl hnone
      · exact Or.inr (.backLink hi hcategory hdeclared hcore)
      · exact Or.inr (.actor htop hcategory hdeclared hcore hemits)

/-- The bases of an interface in the declaration of an actor that are emitted as classes. -/
theorem interface_class_bases {treeView : Bool} (hv : Visits (ofTargets c sch targets) g)
    (hvisited : g.isVisited = true) (hroot : root ∈ g.roots)
    (h : g.buildActor root treeView = .ok decl) (hd : decl.Contains d) (hk : d.kind = .interface) :
    ((g.target root).actor ≠ "" →
      ∀ b, g.ClassBase root d b → b ∈ d.bases ∧ g.EmitsClass b) ∧
    (g.PlainNames → ∀ b ∈ d.bases, g.EmitsClass b → g.ClassBase root d b) := by
  refine ⟨fun hne b hb => hb.mem_bases hv hvisited hroot hne hk, fun hplain b hb hemits => ?_⟩
  have hno : ¬ g.NoClass b := fun hnone => hnone.not_emitsClass hplain hv hvisited hemits
  rcases exists_of_contains (hv.grounded.isActor_of_mem_roots hroot).2 h hd hk with
    hempty | ⟨s, ancestors, hat, hcase⟩ | ⟨i, hi, hdeclared⟩
  · rw [hempty] at hb
    cases hb
  · have hancestors : ∀ a ∈ ancestors, a ∈ g.roots := fun a ha => (ancestor_mem_roots hv hat ha).1
    refine absurd ?_ hno
    rcases hcase with rfl | rfl | rfl
    · exact noClass_linkInterface hroot hancestors hb
    · exact noClass_relationshipInterface hb
    · exact noClass_canonicalRelationship hancestors
        (fun e he => (related_of_mem_relatedActors hv hat he).1) hb
  · exact (hplain.noClass_or_classBase hv hi hdeclared hk hb hemits).resolve_left hno

end

theorem plainNames_mirrorGraph : (mirrorGraph false).PlainNames := by
  have hfacts : (mirrorGraph false).roots = [0] ∧
      ((mirrorGraph false).actorSymbol? 0).bind (·.containingType) = none ∧
      (∀ x ∈ (mirrorGraph false).actorNames, ∀ y ∈ (mirrorGraph false).actorNames,
        ¬ (y ++ ".").toList <+: x.toList) ∧
      (∀ x ∈ (mirrorGraph false).actorNames, x ≠ "" ∧ x ≠ "Relationship" ∧ '<' ∉ x.toList) ∧
      ∀ i < (mirrorGraph false).arena.size, (mirrorGraph false).arena.category i = .extension →
        startsPlain ((mirrorGraph false).arena.typeName i) = true := by
    decide +kernel
  obtain ⟨hroots, houter, hapart, hplain, hextensions⟩ := hfacts
  have hnone : (mirrorGraph false).containerNames = [] := by
    rw [containerNames, hroots, List.flatMap_singleton, houter, Compilation.chain,
      Compilation.chainAfter]
  refine ⟨?_, ?_, hextensions⟩
  · rwa [hnone, List.append_nil]
  · rwa [hnone, List.append_nil]

/-- The back link below the first extension. -/
theorem exists_mirrorBackLink {g : LinkGraph} (hv : Visits (mirrorGraph false) g)
    (hvisited : g.isVisited = true) : 0 ∈ g.roots ∧ (g.target 0).isCore = false ∧
      (g.target 0).actor = "Discord.Rest.RestChannelActor" ∧
      ∃ decl d, g.buildActor 0 false = .ok decl ∧ decl.Contains d ∧ d.kind = .interface ∧
        g.ClassBase 0 d "Discord.Rest.RestChannelActor.BackLink<TSource>" := by
  have hprogress : Progress (mirrorGraph false) [] g := hv.progress
  obtain ⟨_, hactor, hparents, hroots, hcategories, habove, _⟩ := mirrorGraph_nodes false
  have htarget : (mirrorGraph false).target 0 = pairTarget .rest "Channel" := by decide +kernel
  rw [← hprogress.target_eq] at htarget
  rw [← hprogress.arena_eq] at hparents hroots hcategories habove
  rw [actor?, ← hprogress.actors_eq] at hactor
  have hcomplete := hv.complete_of_isVisited hvisited
  have hroot : 0 ∈ g.roots := mem_roots_iff.mpr ⟨_, hactor⟩
  obtain ⟨decl, hdecl⟩ := hcomplete.exists_buildActor_of_mem_roots hv.grounded hroot false
  simp only [List.map_cons, List.map_nil, List.cons.injEq] at hparents hroots hcategories
  obtain ⟨hp, _⟩ := hparents
  obtain ⟨hi, _⟩ := hroots
  obtain ⟨hk2, hk, _⟩ := hcategories
  have hbelow : (g.arena.kind 2).isActor = false := by
    rw [NodeKind.isActor, ← Arena.category, hk2]
    rfl
  obtain ⟨_, _, _, d, hdeclared, _⟩ := exists_interface hv hvisited hp hk hbelow
  have hcontains : decl.Contains d :=
    hcomplete.contains_of_declaredAs hi hdecl (fun n hn hactor =>
      hcomplete.spreads_extension (habove n (List.mem_append_left _ hn) hactor).1
        (habove n (List.mem_append_left _ hn) hactor).2) hdeclared
  have hcore : (g.target 0).isCore = false := by rw [htarget]; rfl
  have hname : (g.target 0).actor = "Discord.Rest.RestChannelActor" := by rw [htarget]; decide
  have hkind : d.kind = .interface := by
    rcases hv.kind_of_declaredAs hdeclared with hface | ⟨_, _, q, hq, hactor, _⟩
    · exact hface
    · obtain rfl := Option.some.inj ((hv.grounded.backLinkOf?_eq_some.mp hq).1.symm.trans hp)
      rw [hbelow] at hactor
      cases hactor
  have hbase := ClassBase.backLink hi hk hdeclared hcore
  rw [hname] at hbase
  exact ⟨hroot, hcore, hname, decl, d, hdecl, hcontains, hkind, hbase⟩

/-- Its one base that is emitted as a class is the back link of the actor. -/
theorem interface_class_bases_sample : ∃ decl d,
    (mirrorGraph false).visit.1.buildActor 0 false = .ok decl ∧ decl.Contains d ∧
    d.kind = .interface ∧ ∀ b, b ∈ d.bases ∧ (mirrorGraph false).visit.1.EmitsClass b ↔
      b = "Discord.Rest.RestChannelActor.BackLink<TSource>" := by
  have hvisited : (mirrorGraph false).visit.1.isVisited = true :=
    (visited_of_quiet (mirrorGraph_nodes false).1).2
  have hv : Visits (mirrorGraph false) (mirrorGraph false).visit.1 := .again .refl
  have hprogress : Progress (mirrorGraph false) [] (mirrorGraph false).visit.1 := hv.progress
  have hplain : (mirrorGraph false).visit.1.PlainNames := by
    rw [hprogress.same]
    exact ⟨plainNames_mirrorGraph.apart, plainNames_mirrorGraph.plain,
      plainNames_mirrorGraph.extensions⟩
  obtain ⟨hroot, hcore, hname, decl, d, hdecl, hcontains, hkind, hbase⟩ :=
    exists_mirrorBackLink hv hvisited
  obtain ⟨hlisted, honly⟩ := interface_class_bases hv hvisited hroot hdecl hcontains hkind
  refine ⟨decl, d, hdecl, hcontains, hkind, fun b => ⟨fun ⟨hb, hemits⟩ => ?_, ?_⟩⟩
  · have hclass := honly hplain b hb hemits
    generalize (mirrorGraph false).visit.1 = g at *
    cases hclass with
    | backLink => rw [hname]; decide
    | actor _ _ _ hother =>
      rw [hcore] at hother
      cases hother
  · rintro rfl
    exact hlisted (by rw [hname]; decide) _ hbase

/-- So an interface derives from a class. -/
theorem class_among_bases : (mirrorGraph false).visit.2 = none ∧
    (mirrorGraph false).visit.1.isVisited = true ∧ ∃ decl d,
      (mirrorGraph false).visit.1.buildActor 0 false = .ok decl ∧ decl.Contains d ∧
      d.kind = .interface ∧
      (mirrorGraph false).visit.1.arena.fullPath 1
        = "Discord.Rest.RestChannelActor.BackLink<TSource>" ∧
      "Discord.Rest.RestChannelActor.BackLink<TSource>" ∈ d.bases ∧
      (mirrorGraph false).visit.1.EmitsClass "Discord.Rest.RestChannelActor.BackLink<TSource>" := by
  obtain ⟨hok, hvisited⟩ : (mirrorGraph false).visit.2 = none ∧
      (mirrorGraph false).visit.1.isVisited = true :=
    visited_of_quiet (mirrorGraph_nodes false).1
  have hv : Visits (mirrorGraph false) (mirrorGraph false).visit.1 := .again .refl
  have hprogress : Progress (mirrorGraph false) [] (mirrorGraph false).visit.1 := hv.progress
  have hpath : (mirrorGraph false).arena.fullPath 1
      = "Discord.Rest.RestChannelActor.BackLink<TSource>" := by
    decide +kernel
  rw [← hprogress.arena_eq] at hpath
  obtain ⟨hroot, _, hname, decl, d, hdecl, hcontains, hkind, hbase⟩ :=
    exists_mirrorBackLink hv hvisited
  obtain ⟨hmem, hemits⟩ := hbase.mem_bases hv hvisited hroot (by rw [hname]; decide) hkind
  exact ⟨hok, hvisited, decl, d, hdecl, hcontains, hkind, hpath, hmem, hemits⟩

end ActorLinks.LinkGraph
