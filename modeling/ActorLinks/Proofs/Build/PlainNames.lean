import ActorLinks.Proofs.Arena.Paths
import ActorLinks.Proofs.Build.EmittedClasses

/-! # Plain names

A base of a declaration is a text, and so is the path of a class. Where names are plain, the text
tells what it stands for: a signature of the library is no class, and what is declared below an
actor is a class only if it is named as one.
-/
namespace ActorLinks

/-- How the generic interfaces of the library start that declarations derive from. -/
def signatureHeads : List String :=
  ["Discord.ILink<", "Discord.ILinkType<", "Discord.Rest.IRestLinkType<",
    "Discord.IBackLink<TSource, ", "Discord.IRelationship<", "Discord.ICanonicalRelationship<"]

/-- The text starts as such an interface. -/
def IsSignature (text : String) : Prop :=
  ∃ head ∈ signatureHeads, head.toList <+: text.toList

theorem isSignature_of_mem {head : String} (h : head ∈ signatureHeads) : IsSignature head :=
  ⟨head, h, List.prefix_refl _⟩

theorem IsSignature.append {text : String} (h : IsSignature text) (more : String) :
    IsSignature (text ++ more) := by
  obtain ⟨head, hhead, hstart⟩ := h
  refine ⟨head, hhead, hstart.trans ?_⟩
  rw [String.toList_append]
  exact List.prefix_append _ _

theorem Target.isSignature (t : Target) : ∀ text ∈ [t.link, t.coreLink, t.linkType, t.restLinkType,
    t.backLinkType, t.relationship, t.canonicalRelationship], IsSignature text := by
  simp only [List.forall_mem_cons, List.not_mem_nil, false_imp_iff, implies_true, and_true]
  refine ⟨?_, ?_, ?_, ?_, ?_, ?_, ?_⟩
  -- the arguments are taken off from the end, until the start is left
  all_goals repeat first
    | exact isSignature_of_mem (by decide)
    | refine IsSignature.append ?_ _

/-- Nothing in the start of a signature is named as a generated class. -/
theorem head?_of_mem_signatureHeads {head : String} (h : head ∈ signatureHeads) :
    '<' ∈ head.toList ∧ ∀ above next, head.toList = above ++ '.' :: next →
      next.head? = some 'I' ∨ next.head? = some 'R' := by
  have hheads : ∀ head ∈ signatureHeads, '<' ∈ head.toList ∧
      ∀ tail ∈ head.toList.tails, tail.head? = some '.' →
        tail.tail.head? = some 'I' ∨ tail.tail.head? = some 'R' := by
    decide +kernel
  obtain ⟨hbracket, htails⟩ := hheads head h
  refine ⟨hbracket, fun above next hsplit => htails ('.' :: next) ((List.mem_tails _ _).mpr ?_) rfl⟩
  rw [hsplit]
  exact List.suffix_append _ _

/-- What a signature calls by its name is no generated class. -/
theorem IsSignature.namesNoClass {above name : String} (h : IsSignature (above ++ "." ++ name))
    (habove : '<' ∉ above.toList) : NamesNoClass name := by
  obtain ⟨head, hhead, rest, hrest⟩ := h
  obtain ⟨hbracket, hparts⟩ := head?_of_mem_signatureHeads hhead
  have hdot : ".".toList = ['.'] := rfl
  simp only [String.toList_append, hdot, List.append_assoc, List.cons_append,
    List.nil_append] at hrest
  have hstart : ∃ c cs, name.toList = c :: cs ∧ (c = 'I' ∨ c = 'R') := by
    rcases List.append_eq_append_iff.mp hrest with ⟨more, hmore, _⟩ | ⟨tail, htail, hname⟩
    · exact absurd (hmore ▸ List.mem_append_left _ hbracket) habove
    · cases tail with
      | nil =>
        rw [htail, List.append_nil] at hbracket
        exact absurd hbracket habove
      | cons c cs =>
        obtain rfl := (List.cons.inj hname).1
        have hnext := hparts _ cs htail
        cases cs with
        | nil => simp at hnext
        | cons d ds => exact ⟨d, ds ++ rest, (List.cons.inj hname).2, by simpa using hnext⟩
  obtain ⟨c, cs, hname, hc⟩ := hstart
  refine ⟨startsPlain_iff.mpr ⟨c, cs, hname, ?_⟩, ?_⟩
  · rcases hc with rfl | rfl <;> decide
  · rintro rfl
    rcases hc with rfl | rfl <;> cases hname

namespace LinkGraph

/-- The actors and the core actors that they stand for. -/
def actorNames (g : LinkGraph) : List String :=
  g.roots.flatMap fun root => [(g.target root).actor, (g.target root).coreActor]

/-- The types around the actors. -/
def containerNames (g : LinkGraph) : List String :=
  g.roots.flatMap fun root =>
    g.compilation.chain (·.containingType) ((g.actorSymbol? root).bind (·.containingType))

/-- No actor is named as a type below another one, nothing is named as a signature, and no extension
as a generated class. -/
structure PlainNames (g : LinkGraph) : Prop where
  apart : ∀ x ∈ g.actorNames ++ g.containerNames, ∀ y ∈ g.actorNames,
    ¬ (y ++ ".").toList <+: x.toList
  plain : ∀ x ∈ g.actorNames ++ g.containerNames, x ≠ "" ∧ x ≠ "Relationship" ∧ '<' ∉ x.toList
  extensions : ∀ i < g.arena.size, g.arena.category i = .extension →
    startsPlain (g.arena.typeName i) = true

section
variable {c : Compilation} {sch : Schematic} {targets : List Target} {g : LinkGraph}
  {root : NodeId} {x y s t name path : String}

theorem actor_mem_actorNames (h : root ∈ g.roots) : (g.target root).actor ∈ g.actorNames :=
  List.mem_flatMap.mpr ⟨root, h, List.mem_cons_self⟩

theorem coreActor_mem_actorNames (h : root ∈ g.roots) :
    (g.target root).coreActor ∈ g.actorNames :=
  List.mem_flatMap.mpr ⟨root, h, List.mem_cons_of_mem _ List.mem_cons_self⟩

namespace PlainNames

theorem ne_path (h : g.PlainNames) (hx : x ∈ g.actorNames ++ g.containerNames)
    (hy : y ∈ g.actorNames) : x ≠ y ++ "." ++ s := by
  rintro rfl
  refine h.apart _ hx y hy ?_
  rw [String.toList_append (s := y ++ ".")]
  exact List.prefix_append _ _

/-- A path below an actor has one place to be split at. -/
theorem eq_of_path (h : g.PlainNames) (hx : x ∈ g.actorNames) (hy : y ∈ g.actorNames)
    (heq : x ++ "." ++ s = y ++ "." ++ t) : x = y ∧ s = t := by
  have happend {z w : String} (hz : z ∈ g.actorNames) (hw : w ∈ g.actorNames) {u v middle}
      (hmiddle : w.toList = z.toList ++ middle) (hrest : '.' :: u = middle ++ '.' :: v) :
      z = w ∧ u = v := by
    cases middle with
    | nil => exact ⟨String.toList_injective (by simp [hmiddle]), (List.cons.inj hrest).2⟩
    | cons c cs =>
      obtain rfl := (List.cons.inj hrest).1
      refine absurd ⟨cs, ?_⟩ (h.apart w (List.mem_append_left _ hw) z hz)
      simp [hmiddle]
  have hlists : x.toList ++ '.' :: s.toList = y.toList ++ '.' :: t.toList := by
    simpa using congrArg String.toList heq
  rcases List.append_eq_append_iff.mp hlists with ⟨_, hmiddle, hrest⟩ | ⟨_, hmiddle, hrest⟩
  · obtain ⟨hxy, hst⟩ := happend hx hy hmiddle hrest
    exact ⟨hxy, String.toList_injective hst⟩
  · obtain ⟨hyx, hts⟩ := happend hy hx hmiddle hrest
    exact ⟨hyx.symm, String.toList_injective hts.symm⟩

end PlainNames

theorem Visits.not_namesNoClass (hv : Visits (ofTargets c sch targets) g)
    (hvisited : g.isVisited = true) (hroot : root ∈ g.roots)
    (h : g.DeclaresClass (g.target root).actor name) : ¬ NamesNoClass name := by
  rintro ⟨hstart, hback⟩
  rcases (hv.declaresClass_iff hvisited hroot).mp h with ⟨_, rfl⟩ | ⟨i, hi, rfl⟩ | ⟨_, rfl⟩
  · cases hstart
  · obtain ⟨p, hp⟩ := Arena.exists_parent_of_mem_parents (mem_parents_of_mem_classNodes hi)
    rw [hv.grounded.nested.startsPlain_implementationType hp] at hstart
    cases hstart
  · exact hback rfl

/-- Texts of bases that are no paths of generated classes. -/
inductive NoClass (g : LinkGraph) : String → Prop
  | signature {text : String} : IsSignature text → NoClass g text
  | relationship : NoClass g "Relationship"
  | below {actor name : String} : actor ∈ g.actorNames → NamesNoClass name →
      NoClass g (actor ++ "." ++ name)
  | backLink {root : NodeId} : root ∈ g.roots → (g.target root).isCore = true →
      NoClass g ((g.target root).actor ++ "." ++ "BackLink<TSource>")

/-- A core actor has no class for its back link. -/
theorem Visits.not_declaresClass_backLink (hv : Visits (ofTargets c sch targets) g)
    (hvisited : g.isVisited = true) (hroot : root ∈ g.roots)
    (hcore : (g.target root).isCore = true) :
    ¬ g.DeclaresClass (g.target root).actor "BackLink<TSource>" := by
  rw [hv.declaresClass_iff hvisited hroot]
  rintro (⟨_, hname⟩ | ⟨i, hi, hname⟩ | ⟨hother, _⟩)
  · simp [linkBaseName] at hname
  · obtain ⟨p, hp⟩ := Arena.exists_parent_of_mem_parents (mem_parents_of_mem_classNodes hi)
    exact hv.grounded.nested.implementationType_ne_backLink hp hname.symm
  · rw [hcore] at hother
    cases hother

theorem NoClass.not_emitsClass (h : g.NoClass path) (hplain : g.PlainNames)
    (hv : Visits (ofTargets c sch targets) g) (hvisited : g.isVisited = true) :
    ¬ g.EmitsClass path := by
  intro hemits
  obtain ⟨root, hroot, hcase⟩ := hv.emitsClass_cases hemits
  have hactor := actor_mem_actorNames hroot
  -- a class is an actor, contains one, or is declared by one
  have hcases : path ∈ g.actorNames ++ g.containerNames ∨
      ∃ name, g.DeclaresClass (g.target root).actor name ∧
        path = (g.target root).actor ++ "." ++ name := by
    rcases hcase with rfl | ⟨symbol, hsymbol, hmem⟩ | hname
    · exact Or.inl (List.mem_append_left _ hactor)
    · refine Or.inl (List.mem_append_right _ (List.mem_flatMap.mpr ⟨root, hroot, ?_⟩))
      rw [hsymbol]
      exact hmem
    · exact Or.inr hname
  cases h with
  | signature hsignature =>
    rcases hcases with hmem | ⟨name, hname, rfl⟩
    · obtain ⟨head, hhead, hstart⟩ := hsignature
      exact (hplain.plain path hmem).2.2
        (hstart.subset (head?_of_mem_signatureHeads hhead).1)
    · have hbracket := (hplain.plain _ (List.mem_append_left _ hactor)).2.2
      exact hv.not_namesNoClass hvisited hroot hname (hsignature.namesNoClass hbracket)
  | relationship =>
    rcases hcases with hmem | ⟨name, _, hpath⟩
    · exact (hplain.plain _ hmem).2.1 rfl
    · have hdot : '.' ∈ ((g.target root).actor ++ "." ++ name).toList := by simp
      rw [← hpath] at hdot
      exact absurd hdot (by decide)
  | below hother hnone =>
    rcases hcases with hmem | ⟨name, hname, hpath⟩
    · exact hplain.ne_path hmem hother rfl
    · obtain ⟨_, rfl⟩ := hplain.eq_of_path hother hactor hpath
      exact hv.not_namesNoClass hvisited hroot hname hnone
  | backLink hother hcore =>
    rcases hcases with hmem | ⟨name, hname, hpath⟩
    · exact hplain.ne_path hmem (actor_mem_actorNames hother) rfl
    · obtain ⟨hsame, rfl⟩ := hplain.eq_of_path (actor_mem_actorNames hother) hactor hpath
      obtain rfl := hv.grounded.eq_of_mem_roots hother hroot hsame
      exact hv.not_declaresClass_backLink hvisited hother hcore hname

end

end LinkGraph

end ActorLinks
