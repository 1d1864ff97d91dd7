import ActorLinks.Proofs.Arena.ClassNames

/-! # Paths of types

The path of a type below an actor is the name of the actor, a dot, and the names of what stands on
the way down. These start with letters, as far as the extensions have such names; generated classes
are named with an underscore at the start, but for the back link of an actor. So a path is not that
of a generated class, unless it leads to the back link of an actor.
-/
namespace ActorLinks

/-- The name does not start as those of generated classes. -/
def startsPlain (s : String) : Bool :=
  match s.toList with
  | c :: _ => c != '_'
  | [] => false

/-- No class that is generated below an actor has the name. -/
def NamesNoClass (s : String) : Prop := startsPlain s = true ∧ s ≠ "BackLink<TSource>"

theorem startsPlain_iff {s : String} :
    startsPlain s = true ↔ ∃ c cs, s.toList = c :: cs ∧ c ≠ '_' := by
  unfold startsPlain
  cases s.toList <;> simp

theorem startsPlain_append {s : String} (t : String) (h : startsPlain s = true) :
    startsPlain (s ++ t) = true := by
  obtain ⟨c, cs, hs, hc⟩ := startsPlain_iff.mp h
  exact startsPlain_iff.mpr ⟨c, cs ++ t.toList, by rw [String.toList_append, hs]; rfl, hc⟩

theorem empty_not_mem_of_startsPlain {names : List String}
    (h : ∀ name ∈ names, startsPlain name = true) : "" ∉ names := fun hempty => by
  cases h "" hempty

/-- What is put together from several names names no class. -/
theorem namesNoClass_append_dot {s : String} (t : String) (h : startsPlain s = true) :
    NamesNoClass (s ++ "." ++ t) := by
  refine ⟨by rw [String.append_assoc]; exact startsPlain_append _ h, fun heq => ?_⟩
  have hdot : '.' ∈ (s ++ "." ++ t).toList := by simp
  rw [heq] at hdot
  exact absurd hdot (by decide)

namespace Arena

/-- The names of what stands above a node, from just below the actor down. -/
def namesAbove (a : Arena) (i : NodeId) : List String :=
  ((a.parents i).filter fun n => !(a.kind n).isActor).reverse.map a.typeName

/-- What stands below an actor has a plain name. -/
def NamedPlainly (a : Arena) : Prop :=
  ∀ i < a.size, a.category i ≠ .actor → startsPlain (a.typeName i) = true

section
variable {a : Arena} {i p root : NodeId}

theorem typeName_actor (h : (a.kind i).isActor = true) : a.typeName i = (a.target i).actor := by
  unfold typeName
  cases hk : a.kind i with
  | actor symbol => rfl
  | _ => simp [hk, NodeKind.isActor, NodeKind.category] at h

theorem typeName_linkType {k : LinkKind} {e : Schematic.Entry} (hk : a.kind i = .linkType k e) :
    a.typeName i = e.typeName := by
  rw [typeName, hk]

/-- Link types are named after their kinds. -/
theorem namesNoClass_of_kind? {k : LinkKind} {e : Schematic.Entry} (h : e.kind? = some k) :
    NamesNoClass e.typeName := by
  obtain ⟨tail, htail⟩ := exists_withTypeParameters e.name e.typeParameters
  rw [Schematic.Entry.typeName, htail, Schematic.Entry.name_of_kind? h]
  refine ⟨startsPlain_append _ (by cases k <;> decide), fun heq => ?_⟩
  replace heq := congrArg String.toList heq
  rw [String.toList_append] at heq
  cases k <;> cases heq

/-- The one name below an actor that a generated class has is that of back links. -/
theorem namesNoClass_typeName (hk : a.Kinded) (hplain : a.NamedPlainly) (hi : i < a.size)
    (hactor : a.category i ≠ .actor) (hback : a.category i ≠ .backLink) :
    NamesNoClass (a.typeName i) := by
  cases hkind : a.kind i with
  | linkType k e =>
    rw [typeName_linkType hkind]
    exact namesNoClass_of_kind? (hk hkind)
  | extension symbol =>
    refine ⟨hplain i hi hactor, fun heq => ?_⟩
    have hfree := lt_not_mem_typeName (a := a) (i := i) (by rw [category, hkind]; rfl)
    rw [heq] at hfree
    exact hfree (by decide)
  | hierarchy marker =>
    rw [typeName_hierarchy (by rw [category, hkind]; rfl)]
    exact ⟨by decide, by decide⟩
  | actor symbol => exact absurd (by rw [category, hkind]; rfl) hactor
  | backLink => exact absurd (by rw [category, hkind]; rfl) hback

/-- Classes below an actor are named with an underscore at the start. -/
theorem Nested.startsPlain_implementationType (h : a.Nested) (hp : a.parent? i = some p) :
    startsPlain (a.implementationType i) = false := by
  obtain ⟨rest, hrest⟩ := h.exists_implementationType hp
  rw [Bool.eq_false_iff, Ne, startsPlain_iff]
  rintro ⟨letter, letters, hletters, hne⟩
  rw [hrest, String.append_assoc, String.toList_append] at hletters
  exact hne (List.cons.inj hletters).1.symm

/-- If the extensions are named plainly, everything below an actor is. -/
theorem namedPlainly_of_extensions (hk : a.Kinded)
    (h : ∀ i < a.size, a.category i = .extension → startsPlain (a.typeName i) = true) :
    a.NamedPlainly := by
  intro i hi hactor
  cases hkind : a.kind i with
  | actor symbol => exact absurd (by rw [category, hkind]; rfl) hactor
  | linkType k e =>
    rw [typeName_linkType hkind]
    exact (namesNoClass_of_kind? (hk hkind)).1
  | extension symbol => exact h i hi (by rw [category, hkind]; rfl)
  | hierarchy marker =>
    rw [typeName_hierarchy (by rw [category, hkind]; rfl)]
    decide
  | backLink =>
    rw [typeName_backLink (by rw [category, hkind]; rfl)]
    decide

theorem startsPlain_of_mem_namesAbove (hplain : a.NamedPlainly) {name : String}
    (h : name ∈ a.namesAbove i) : startsPlain name = true := by
  obtain ⟨n, hn, rfl⟩ := List.mem_map.mp h
  obtain ⟨hmem, hactor⟩ := List.mem_filter.mp (List.mem_reverse.mp hn)
  exact hplain n (lt_size_of_mem_parents hmem) (by simpa [NodeKind.isActor, category] using hactor)

theorem namesAbove_of_parent (hp : a.parent? i = some p) (hk : (a.kind p).isActor = false) :
    a.namesAbove i = a.namesAbove p ++ [a.typeName p] := by
  simp [namesAbove, parents_of_some hp, hk]

theorem namesNoClass_intercalate {names : List String}
    (hnames : ∀ name ∈ names, startsPlain name = true) (hne : names ≠ [])
    (hback : names ≠ ["BackLink<TSource>"]) : NamesNoClass (".".intercalate names) := by
  cases names with
  | nil => exact absurd rfl hne
  | cons name names =>
    have hname := hnames name List.mem_cons_self
    cases names with
    | nil =>
      rw [String.intercalate_singleton]
      exact ⟨hname, fun heq => hback (by rw [heq])⟩
    | cons next rest =>
      rw [String.intercalate_cons_cons]
      exact namesNoClass_append_dot _ hname

theorem relativePath_eq_intercalate (i : NodeId) : a.relativePath i
    = if (".".intercalate (a.namesAbove i)).isEmpty then ".".intercalate (a.namesAbove i)
      else "." ++ ".".intercalate (a.namesAbove i) := by
  simp only [relativePath, relativePathOver, pathOver, namesAbove, Bool.and_true]
  rfl

theorem relativePath_congr {j : NodeId} (h : a.namesAbove i = a.namesAbove j) :
    a.relativePath i = a.relativePath j := by
  rw [relativePath_eq_intercalate, relativePath_eq_intercalate, h]

theorem relativePath_of_named (hnames : "" ∉ a.namesAbove i) : a.relativePath i
    = if a.namesAbove i = [] then "" else "." ++ ".".intercalate (a.namesAbove i) := by
  rw [relativePath_eq_intercalate]
  cases habove : a.namesAbove i with
  | nil => rfl
  | cons name names =>
    have hname : name ≠ "" := fun hempty => hnames (habove ▸ hempty ▸ List.mem_cons_self)
    have hne : (".".intercalate (name :: names)).isEmpty = false := by
      rw [Bool.eq_false_iff, Ne, String.isEmpty_iff]
      cases names with
      | nil => rwa [String.intercalate_singleton]
      | cons next rest =>
        rw [String.intercalate_cons_cons, String.append_eq_empty_iff, String.append_eq_empty_iff]
        exact fun hempty => hname hempty.1.1
    rw [hne, if_neg Bool.false_ne_true, if_neg (List.cons_ne_nil _ _)]

theorem NamedPlainly.empty_not_mem (hplain : a.NamedPlainly) (i : NodeId) :
    "" ∉ a.namesAbove i :=
  empty_not_mem_of_startsPlain fun _ => startsPlain_of_mem_namesAbove hplain

theorem relativePath_eq (hplain : a.NamedPlainly) (i : NodeId) : a.relativePath i
    = if a.namesAbove i = [] then "" else "." ++ ".".intercalate (a.namesAbove i) :=
  relativePath_of_named (hplain.empty_not_mem i)

/-- A name that is put below a node's place is a path of names. -/
theorem relativePath_append (hplain : a.NamedPlainly) (i : NodeId) (s : String) :
    a.relativePath i ++ "." ++ s = "." ++ ".".intercalate (a.namesAbove i ++ [s]) := by
  rw [relativePath_eq hplain]
  split
  · next hnil => rw [hnil, List.nil_append, String.intercalate_singleton, String.empty_append]
  · next hne =>
    rw [String.intercalate_append_of_ne_nil hne (List.cons_ne_nil _ _),
      String.intercalate_singleton]
    simp only [String.append_assoc]

/-- At the place of a node stands a class only directly below the actor, and as a back link. -/
theorem exists_namesNoClass (hplain : a.NamedPlainly) {s : String} (hs : startsPlain s = true)
    (h : a.namesAbove i ≠ [] ∨ s ≠ "BackLink<TSource>") :
    ∃ w, NamesNoClass w ∧ a.relativePath i ++ "." ++ s = "." ++ w := by
  refine ⟨_, namesNoClass_intercalate (fun name hname => ?_) (by simp) (fun heq => ?_),
    relativePath_append hplain i s⟩
  · rcases List.mem_append.mp hname with hname | hname
    · exact startsPlain_of_mem_namesAbove hplain hname
    · exact List.mem_singleton.mp hname ▸ hs
  · have hsplit : a.namesAbove i ++ [s] = [] ++ ["BackLink<TSource>"] := heq
    obtain ⟨hnil, hlast⟩ := List.append_inj' hsplit rfl
    rcases h with hne | hne
    · exact hne hnil
    · exact hne (List.cons.inj hlast).1

theorem Nested.names_parents (h : a.Nested) (hroot : a.rootActor? i = some root) :
    (a.parents i).reverse.map a.typeName = a.typeName root :: a.namesAbove i := by
  induction i using Nat.strongRecOn with
  | ind i ih =>
    obtain ⟨p, hp⟩ := exists_parent_of_rootActor? hroot
    cases hk : (a.kind p).isActor with
    | true =>
      obtain rfl := Option.some.inj ((rootActor?_of_actor hp hk).symm.trans hroot)
      have horphan := (h.isActor_iff
        (Nat.lt_trans (lt_of_parent hp) (lt_size_of_parent hp))).mp hk
      simp [namesAbove, parents_of_some hp, parents_of_none horphan, hk]
    | false =>
      rw [rootActor?_of_parent hp hk] at hroot
      rw [namesAbove_of_parent hp hk, parents_of_some hp, List.reverse_cons, List.map_append,
        ih p (lt_of_parent hp) hroot]
      rfl

/-- The path of a node below an actor. -/
theorem Nested.path_of_named (h : a.Nested) (hnames : "" ∉ a.namesAbove i)
    (hroot : a.rootActor? i = some root) :
    a.path i = (a.target root).actor ++ a.relativePath i := by
  have hactor : (a.kind root).isActor = true :=
    List.find?_some (p := fun p => (a.kind p).isActor) hroot
  rw [path, pathOver, List.filter_true, h.names_parents hroot, typeName_actor hactor,
    relativePath_of_named hnames]
  split
  · next hnil => rw [hnil, String.intercalate_singleton, String.append_empty]
  · next hne => rw [String.intercalate_cons_of_ne_nil hne, String.append_assoc]

/-- A node has a full path if it has a path. -/
theorem fullPath_eq_iff : a.fullPath i = a.path i ++ "." ++ a.typeName i ↔ a.path i ≠ "" := by
  rw [fullPath]
  cases hempty : (a.path i).isEmpty with
  | true =>
    have hpath := String.isEmpty_iff.mp hempty
    have hne : "" ≠ "." ++ a.typeName i := by
      intro heq
      have hdot := (String.append_eq_empty_iff.mp heq.symm).1
      exact absurd hdot (by decide)
    simp [hpath, hne]
  | false =>
    have hpath : a.path i ≠ "" := fun heq => by simp [heq] at hempty
    simp [hpath]

theorem Nested.path_of_actor (h : a.Nested) (hp : a.parent? i = some p)
    (hk : (a.kind p).isActor = true) : a.path i = (a.target p).actor := by
  have horphan := (h.isActor_iff
    (Nat.lt_trans (lt_of_parent hp) (lt_size_of_parent hp))).mp hk
  simp [path, pathOver, parents_of_some hp, parents_of_none horphan, typeName_actor hk]

theorem Nested.fullPath_of_actor (h : a.Nested) (hp : a.parent? i = some p)
    (hk : (a.kind p).isActor = true) (hne : (a.target p).actor ≠ "") :
    a.fullPath i = (a.target p).actor ++ "." ++ a.typeName i := by
  rw [fullPath, h.path_of_actor hp hk]
  exact if_neg (by simpa using hne)

theorem Nested.fullPath_of_named (h : a.Nested) (hnames : "" ∉ a.namesAbove i)
    (hroot : a.rootActor? i = some root) (hne : (a.target root).actor ≠ "") :
    a.fullPath i = (a.target root).actor ++ (a.relativePath i ++ "." ++ a.typeName i) := by
  rw [fullPath, h.path_of_named hnames hroot]
  have hpath : ((a.target root).actor ++ a.relativePath i).isEmpty = false := by
    rw [Bool.eq_false_iff, Ne, String.isEmpty_iff, String.append_eq_empty_iff]
    exact fun hempty => hne hempty.1
  rw [hpath, if_neg Bool.false_ne_true, String.append_assoc, String.append_assoc,
    String.append_assoc]

theorem Nested.fullPath_eq (h : a.Nested) (hplain : a.NamedPlainly)
    (hroot : a.rootActor? i = some root) (hne : (a.target root).actor ≠ "") :
    a.fullPath i = (a.target root).actor ++ (a.relativePath i ++ "." ++ a.typeName i) :=
  h.fullPath_of_named (hplain.empty_not_mem i) hroot hne

theorem namesAbove_eq_nil_iff (h : a.Nested) (hp : a.parent? i = some p) :
    a.namesAbove i = [] ↔ (a.kind p).isActor = true := by
  cases hk : (a.kind p).isActor with
  | true =>
    have horphan := (h.isActor_iff
      (Nat.lt_trans (lt_of_parent hp) (lt_size_of_parent hp))).mp hk
    simp [namesAbove, parents_of_some hp, parents_of_none horphan, hk]
  | false => simp [namesAbove_of_parent hp hk]

/-- What has no actor above it has no path. -/
theorem Nested.exists_root_of_fullPath (h : a.Nested) (hne : a.fullPath i ≠ "") :
    ∃ p root, a.parent? i = some p ∧ a.rootActor? i = some root := by
  cases hp : a.parent? i with
  | none =>
    refine absurd ?_ hne
    simp [fullPath, path, pathOver, parents_of_none hp]
  | some p =>
    obtain ⟨root, hroot, _⟩ :=
      h.exists_root (lt_size_of_parent hp) (h.isActor_of_parent hp)
    exact ⟨p, root, rfl, hroot⟩

end

end Arena

end ActorLinks
