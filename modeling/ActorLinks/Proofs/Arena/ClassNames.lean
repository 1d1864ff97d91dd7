import ActorLinks.Proofs.Arena.Branches
import ActorLinks.Proofs.Arena.Preorder
import ActorLinks.Proofs.Arena.Words

/-! # Names of implementation classes

The name of a class is pressed together from words: what the node is, the link types above it, the
hierarchy. Where no extension stands at the node or above it, the words can be read off the name
again. The numbers of type parameters in them divide the type arguments of the name among the link
types, and so the node is found again. The name of an extension leaves out the extensions above, and
that of a back link runs them together.
-/
namespace ActorLinks

/-- The part of a class name that comes from one node of the path. -/
def Arena.piece (a : Arena) (n : NodeId) : String :=
  match a.kind n with
  | .linkType _ e => e.classSegment
  | _ => a.typeName n

namespace Arena

/-- No two siblings have the same type name. -/
def NamedApart (a : Arena) : Prop :=
  ∀ p < a.size, ∀ x ∈ a.children p, ∀ y ∈ a.children p, a.typeName x = a.typeName y → x = y

/-- No type parameter of a link type has a comma in it. -/
def PlainParameters (a : Arena) : Prop :=
  ∀ i < a.size, ∀ e ∈ NodeKind.entry? (a.kind i), ∀ p ∈ e.typeParameters, ',' ∉ p.toList

/-- Entries are of the kind of their link types. -/
def Kinded (a : Arena) : Prop :=
  ∀ {i : NodeId} {k : LinkKind} {e : Schematic.Entry}, a.kind i = .linkType k e → e.kind? = some k

instance (a : Arena) : Decidable a.NamedApart :=
  inferInstanceAs (Decidable (∀ p < a.size, ∀ x ∈ a.children p, ∀ y ∈ a.children p,
    a.typeName x = a.typeName y → x = y))

instance (a : Arena) : Decidable a.PlainParameters :=
  inferInstanceAs (Decidable (∀ i < a.size, ∀ e ∈ NodeKind.entry? (a.kind i),
    ∀ p ∈ e.typeParameters, ',' ∉ p.toList))

/-- The actor itself, a link type or a hierarchy. Only these stand above one of them. -/
def IsPlace (a : Arena) (i : NodeId) : Prop :=
  a.category i = .actor ∨ a.category i = .linkType ∨ a.category i = .hierarchy

/-- The link types and the hierarchy on the path down to a node. -/
def pieces (a : Arena) (i : NodeId) : List String :=
  ((a.spine i).reverse.filter fun n => (a.kind n).isLinkType || (a.kind n).isHierarchy).map a.piece

def ownParameters (a : Arena) (n : NodeId) : List String :=
  match a.kind n with
  | .linkType _ e => e.typeParameters
  | .backLink => ["TSource"]
  | _ => []

/-- The type arguments of a class. -/
def arguments (a : Arena) (i : NodeId) : List String := (a.spine i).flatMap a.ownParameters

section
variable {a : Arena} {i j p q root : NodeId}

theorem generics_fst (i : NodeId) : (a.generics i).1 = a.arguments i := by
  unfold generics arguments spine
  simp only [List.flatMap_map]
  refine List.flatMap_congr fun n _ => ?_
  unfold ownParameters
  cases a.kind n with
  | linkType k e =>
    cases hnone : e.typeParameters <;> simp [Schematic.Entry.isGeneric, hnone]
  | _ => rfl

theorem pieces_of_parent (hp : a.parent? i = some p) : a.pieces i = a.pieces p ++
    if (a.kind i).isLinkType || (a.kind i).isHierarchy then [a.piece i] else [] := by
  rw [pieces, pieces, spine_of_parent hp, List.reverse_cons, List.filter_append, List.map_append,
    List.filter_singleton]
  cases (a.kind i).isLinkType || (a.kind i).isHierarchy <;> rfl

theorem arguments_of_parent (hp : a.parent? i = some p) :
    a.arguments i = a.ownParameters i ++ a.arguments p := by
  rw [arguments, spine_of_parent hp]
  rfl

theorem Nested.isPlace_parent (h : a.Nested) (hp : a.parent? i = some p) (hi : a.IsPlace i) :
    a.IsPlace p := by
  have hadmits := h.admits hp
  unfold IsPlace at hi ⊢
  cases hk : a.category p with
  | actor => exact Or.inl rfl
  | linkType => exact Or.inr (Or.inl rfl)
  | hierarchy => exact Or.inr (Or.inr rfl)
  | extension =>
    rw [hk] at hadmits
    rcases hi with hi | hi | hi <;> simp [hi, Category.admits] at hadmits
  | backLink =>
    rw [hk] at hadmits
    cases hadmits

theorem typeName_hierarchy (hi : a.category i = .hierarchy) : a.typeName i = "Hierarchy" := by
  unfold category at hi
  unfold typeName
  cases hk : a.kind i with
  | hierarchy marker => rfl
  | _ => simp [hk, NodeKind.category] at hi

theorem ownParameters_hierarchy (hi : a.category i = .hierarchy) : a.ownParameters i = [] := by
  unfold category at hi
  unfold ownParameters
  cases hk : a.kind i with
  | hierarchy marker => rfl
  | _ => simp [hk, NodeKind.category] at hi

theorem ownParameters_backLink (hi : a.category i = .backLink) :
    a.ownParameters i = ["TSource"] := by
  unfold category at hi
  unfold ownParameters
  cases hk : a.kind i with
  | backLink => rfl
  | _ => simp [hk, NodeKind.category] at hi

/-- Below the actor a place is a link type or a hierarchy. -/
theorem Nested.pieces_eq (h : a.Nested) (hp : a.parent? i = some p) (hi : a.IsPlace i) :
    (∃ k e, a.kind i = .linkType k e ∧ a.pieces i = a.pieces p ++ [e.classSegment] ∧
      a.arguments i = e.typeParameters ++ a.arguments p) ∨
    (a.category i = .hierarchy ∧ a.pieces i = a.pieces p ++ ["Hierarchy"] ∧
      a.arguments i = a.arguments p) := by
  have hactor := h.isActor_of_parent hp
  rw [pieces_of_parent hp, arguments_of_parent hp]
  unfold IsPlace category at hi
  unfold category ownParameters piece typeName
  cases hk : a.kind i with
  | actor symbol => simp [hk, NodeKind.isActor, NodeKind.category] at hactor
  | linkType k e => exact Or.inl ⟨k, e, rfl, rfl, rfl⟩
  | hierarchy marker => exact Or.inr ⟨rfl, rfl, rfl⟩
  | _ => simp [hk, NodeKind.category] at hi

/-- No node has fewer pieces than the actor, and only the actor has as few. -/
theorem Nested.eq_root_of_pieces_nil (h : a.Nested) (hi : root ∈ a.spine i) (hip : a.IsPlace i)
    (hnil : a.pieces i = []) : i = root := by
  rcases List.mem_cons.mp hi with rfl | hmem
  · rfl
  · cases hp : a.parent? i with
    | none => simp [parents_of_none hp] at hmem
    | some p =>
      rcases h.pieces_eq hp hip with ⟨k, e, _, hpieces, _⟩ | ⟨_, hpieces, _⟩
      · simp [hpieces] at hnil
      · simp [hpieces] at hnil

theorem Nested.pieces_root (h : a.Nested) (hroot : a.category root = .actor) :
    a.pieces root = [] := by
  have hnone : a.parents root = [] :=
    parents_of_none (h.orphan_of_isActor (beq_iff_eq.mpr hroot))
  have hkind : ((a.kind root).isLinkType || (a.kind root).isHierarchy) = false := by
    rw [NodeKind.isLinkType, NodeKind.isHierarchy, ← category, hroot]
    rfl
  simp [pieces, spine, hnone, hkind]

theorem classSegment_ne_hierarchy {e : Schematic.Entry} {k : LinkKind} (h : e.kind? = some k) :
    e.classSegment ≠ "Hierarchy" := by
  obtain ⟨c, d, cs, hcs, hstart⟩ := Schematic.Entry.exists_start h
  intro heq
  rw [heq] at hcs
  cases hcs
  exact absurd hstart (by decide)

theorem NamedApart.eq_of_siblings (hapart : a.NamedApart) (hp : a.parent? i = some p)
    (hq : a.parent? j = some p) (hname : a.typeName i = a.typeName j) : i = j :=
  hapart p (Nat.lt_trans (lt_of_parent hp) (lt_size_of_parent hp)) i (mem_children_iff.mpr hp) j
    (mem_children_iff.mpr hq) hname

/-- The last piece tells the type name of a place, and the rest belongs to its parent. -/
theorem Nested.pieces_split (h : a.Nested) (hk : a.Kinded) (hp : a.parent? i = some p)
    (hq : a.parent? j = some q) (hip : a.IsPlace i) (hjp : a.IsPlace j)
    (hpieces : a.pieces i = a.pieces j) (harguments : a.arguments i = a.arguments j) :
    a.pieces p = a.pieces q ∧ a.arguments p = a.arguments q ∧ a.typeName i = a.typeName j := by
  rcases h.pieces_eq hp hip with ⟨k, e, hki, hpi, hai⟩ | ⟨hki, hpi, hai⟩
  · rcases h.pieces_eq hq hjp with ⟨l, f, hkj, hpj, haj⟩ | ⟨_, hpj, _⟩
    · rw [hpi, hpj] at hpieces
      obtain ⟨hrest, hlast⟩ := List.append_inj' hpieces rfl
      obtain ⟨hname, hlength⟩ :=
        Schematic.Entry.classSegment_inj (hk hki) (hk hkj) (List.cons.inj hlast).1
      rw [hai, haj] at harguments
      obtain ⟨hparameters, hargs⟩ := List.append_inj harguments hlength
      refine ⟨hrest, hargs, ?_⟩
      rw [typeName, typeName, hki, hkj]
      simp only [Schematic.Entry.typeName, hname, hparameters]
    · rw [hpi, hpj] at hpieces
      obtain ⟨_, hlast⟩ := List.append_inj' hpieces rfl
      exact absurd (List.cons.inj hlast).1 (classSegment_ne_hierarchy (hk hki))
  · rcases h.pieces_eq hq hjp with ⟨l, f, hkj, hpj, _⟩ | ⟨hkj, hpj, haj⟩
    · rw [hpi, hpj] at hpieces
      obtain ⟨_, hlast⟩ := List.append_inj' hpieces rfl
      exact absurd (List.cons.inj hlast).1.symm (classSegment_ne_hierarchy (hk hkj))
    · rw [hpi, hpj] at hpieces
      rw [hai, haj] at harguments
      refine ⟨(List.append_inj' hpieces rfl).1, harguments, ?_⟩
      rw [typeName_hierarchy hki, typeName_hierarchy hkj]

/-- Places with the same pieces and type arguments are one. -/
theorem Nested.eq_of_pieces (h : a.Nested) (hk : a.Kinded) (hapart : a.NamedApart)
    (hroot : a.category root = .actor) (hi : root ∈ a.spine i) (hj : root ∈ a.spine j)
    (hip : a.IsPlace i) (hjp : a.IsPlace j) (hpieces : a.pieces i = a.pieces j)
    (harguments : a.arguments i = a.arguments j) : i = j := by
  induction i using Nat.strongRecOn generalizing j with
  | ind i ih =>
    rcases List.mem_cons.mp hi with rfl | hmem
    · rw [h.pieces_root hroot] at hpieces
      exact (h.eq_root_of_pieces_nil hj hjp hpieces.symm).symm
    rcases List.mem_cons.mp hj with rfl | hmem'
    · rw [h.pieces_root hroot] at hpieces
      exact h.eq_root_of_pieces_nil hi hip hpieces
    cases hp : a.parent? i with
    | none => simp [parents_of_none hp] at hmem
    | some p =>
      cases hq : a.parent? j with
      | none => simp [parents_of_none hq] at hmem'
      | some q =>
        rw [parents_of_some hp] at hmem
        rw [parents_of_some hq] at hmem'
        obtain ⟨hrest, hargs, hname⟩ := h.pieces_split hk hp hq hip hjp hpieces harguments
        obtain rfl : p = q := ih p (lt_of_parent hp) hmem hmem' (h.isPlace_parent hp hip)
          (h.isPlace_parent hq hjp) hrest hargs
        exact hapart.eq_of_siblings hp hq hname

theorem Nested.isPlace_of_mem_spine (h : a.Nested) (hi : a.IsPlace i) :
    ∀ n ∈ a.spine i, a.IsPlace n := by
  induction i using Nat.strongRecOn with
  | ind i ih =>
    intro n hn
    rcases List.mem_cons.mp hn with rfl | hn
    · exact hi
    · cases hp : a.parent? i with
      | none => simp [parents_of_none hp] at hn
      | some p =>
        rw [parents_of_some hp] at hn
        exact ih p (lt_of_parent hp) (h.isPlace_parent hp hi) n hn

/-- Above a link type or a hierarchy there are only link types and the actor. -/
theorem Nested.not_isHierarchy_of_mem_parents (h : a.Nested) (hi : a.IsPlace i) :
    ∀ n ∈ a.parents i, (a.kind n).isHierarchy = false := by
  induction i using Nat.strongRecOn with
  | ind i ih =>
    intro n hn
    cases hp : a.parent? i with
    | none => simp [parents_of_none hp] at hn
    | some p =>
      rw [parents_of_some hp] at hn
      rcases List.mem_cons.mp hn with rfl | hn
      · have hadmits := h.admits hp
        refine beq_eq_false_iff_ne.mpr fun hk => ?_
        rw [show a.category n = .hierarchy from hk] at hadmits
        rcases hi with hi | hi | hi
        · exact h.category_ne_actor hp hi
        · simp [hi, Category.admits] at hadmits
        · simp [hi, Category.admits] at hadmits
      · exact ih p (lt_of_parent hp) (h.isPlace_parent hp hi) n hn

theorem IsPlace.isExtension_eq (hi : a.IsPlace i) : (a.kind i).isExtension = false := by
  refine beq_eq_false_iff_ne.mpr fun hk => ?_
  rcases hi with hi | hi | hi <;> rw [category, hk] at hi <;> cases hi

/-- The words of the class name of a node below a place. -/
def classWords (a : Arena) (p i : NodeId) : List String :=
  match a.category i with
  | .linkType => "Link" :: a.pieces i
  | .hierarchy => "Hierarchy" :: a.pieces p
  | _ => a.pieces p ++ ["Back", "Link"]

theorem classSegments_eq {path : List NodeId} {keep : NodeKind → Bool}
    (h : ∀ n ∈ path, keep (a.kind n) = ((a.kind n).isLinkType || (a.kind n).isHierarchy)) :
    a.classSegments path keep = String.join ((path.filter fun n =>
      (a.kind n).isLinkType || (a.kind n).isHierarchy).map a.piece) := by
  rw [← List.filter_congr h]
  rfl

theorem Nested.className_eq (h : a.Nested) (hp : a.parent? i = some p) (hplace : a.IsPlace p)
    (hext : a.category i ≠ .extension) :
    a.className i = "__" ++ (a.target i).assembly.name ++ String.join (a.classWords p i) := by
  have hparents : a.parents i = a.spine p := parents_of_some hp
  have hnone : ∀ n ∈ a.parents i, (a.kind n).isExtension = false := by
    rw [hparents]
    exact fun n hn => (h.isPlace_of_mem_spine hplace n hn).isExtension_eq
  -- each category leaves out other segments, but with no extension above these are the same, and no
  -- hierarchy stands above a link type or another hierarchy
  unfold className classWords category
  unfold category at hext
  cases hk : a.kind i with
  | actor symbol =>
    have hactor := h.isActor_of_parent hp
    simp [hk, NodeKind.isActor, NodeKind.category] at hactor
  | linkType k e =>
    have hi : a.IsPlace i := Or.inr (Or.inl (by rw [category, hk]; rfl))
    simp only [NodeKind.category]
    rw [classSegments_eq fun n hn => ?_]
    · simp [toString, pieces, spine, String.append_assoc]
    · have hflat : (a.kind n).isHierarchy = false := by
        rcases List.mem_append.mp hn with hn | hn
        · exact h.not_isHierarchy_of_mem_parents hi n (List.mem_reverse.mp hn)
        · rw [List.mem_singleton.mp hn, hk]
          rfl
      rw [hflat, Bool.or_false]
  | extension symbol => exact absurd (by rw [hk]; rfl) hext
  | hierarchy marker =>
    have hi : a.IsPlace i := Or.inr (Or.inr (by rw [category, hk]; rfl))
    simp only [NodeKind.category]
    rw [classSegments_eq fun n hn => ?_]
    · simp [toString, pieces, hparents, String.append_assoc]
    · rw [hnone n (List.mem_reverse.mp hn),
        h.not_isHierarchy_of_mem_parents hi n (List.mem_reverse.mp hn)]
  | backLink =>
    simp only [NodeKind.category]
    rw [classSegments_eq fun n hn => ?_]
    · simp [toString, pieces, hparents, String.append_assoc]
    · rw [hnone n (List.mem_reverse.mp hn), Bool.or_false]

theorem eq_or_of_mem_pieces (hk : a.Kinded) {w : String} (hw : w ∈ a.pieces i) :
    w = "Hierarchy" ∨ ∃ e k, Schematic.Entry.kind? e = some k ∧ w = e.classSegment := by
  obtain ⟨n, hn, rfl⟩ := List.mem_map.mp hw
  obtain ⟨_, hplaced⟩ := List.mem_filter.mp hn
  unfold piece
  cases hkn : a.kind n with
  | linkType k e => exact Or.inr ⟨e, k, hk hkn, rfl⟩
  | hierarchy marker => exact Or.inl (typeName_hierarchy (by rw [category, hkn]; rfl))
  | _ => simp [hkn, NodeKind.isLinkType, NodeKind.isHierarchy, NodeKind.category] at hplaced

theorem isWord_of_mem_pieces (hk : a.Kinded) {w : String} (hw : w ∈ a.pieces i) :
    isWord w = true := by
  rcases eq_or_of_mem_pieces hk hw with rfl | ⟨e, k, hkind, rfl⟩
  · decide
  · exact Schematic.Entry.isWord_classSegment hkind

/-- No piece starts as the words do that stand for link types, back links and extensions. -/
theorem exists_start_of_mem_pieces (hk : a.Kinded) {w : String} (hw : w ∈ a.pieces i) :
    ∃ c d cs, w.toList = c :: d :: cs ∧ (c, d) ∈ ('H', 'i') :: Schematic.Entry.starts := by
  rcases eq_or_of_mem_pieces hk hw with rfl | ⟨e, k, hkind, rfl⟩
  · exact ⟨_, _, _, rfl, List.mem_cons_self⟩
  · obtain ⟨c, d, cs, hcs, hstart⟩ := Schematic.Entry.exists_start hkind
    exact ⟨c, d, cs, hcs, List.mem_cons_of_mem _ hstart⟩

theorem link_not_mem_pieces (hk : a.Kinded) : "Link" ∉ a.pieces i := by
  intro hw
  obtain ⟨c, d, cs, hcs, hstart⟩ := exists_start_of_mem_pieces hk hw
  cases hcs
  exact absurd hstart (by decide)

theorem isWord_of_mem_classWords (hk : a.Kinded) {w : String} (hw : w ∈ a.classWords p i) :
    isWord w = true := by
  unfold classWords at hw
  split at hw
  · rcases List.mem_cons.mp hw with rfl | hw
    · decide
    · exact isWord_of_mem_pieces hk hw
  · rcases List.mem_cons.mp hw with rfl | hw
    · decide
    · exact isWord_of_mem_pieces hk hw
  · rcases List.mem_append.mp hw with hw | hw
    · exact isWord_of_mem_pieces hk hw
    · simp only [List.mem_cons, List.not_mem_nil, or_false] at hw
      rcases hw with rfl | rfl <;> decide

/-- Below a place stand link types, hierarchies, back links and extensions. -/
theorem Nested.category_cases (h : a.Nested) (hp : a.parent? i = some p)
    (hext : a.category i ≠ .extension) :
    a.category i = .linkType ∨ a.category i = .hierarchy ∨ a.category i = .backLink := by
  cases hk : a.category i with
  | actor => exact absurd hk (h.category_ne_actor hp)
  | linkType => exact Or.inl rfl
  | hierarchy => exact Or.inr (Or.inl rfl)
  | backLink => exact Or.inr (Or.inr rfl)
  | extension => exact absurd hk hext

theorem link_cons_ne (hk : a.Kinded) (words : List String) :
    "Link" :: words ≠ a.pieces q ++ ["Back", "Link"] := by
  intro heq
  cases hq : a.pieces q with
  | nil => simp [hq] at heq
  | cons w ws =>
    rw [hq] at heq
    have hlink := link_not_mem_pieces (i := q) hk
    rw [hq, (List.cons.inj heq).1] at hlink
    exact hlink List.mem_cons_self

theorem hierarchy_cons_ne (hk : a.Kinded) :
    "Hierarchy" :: a.pieces p ≠ a.pieces q ++ ["Back", "Link"] := by
  intro heq
  have hmem : "Link" ∈ "Hierarchy" :: a.pieces p := heq ▸ by simp
  rcases List.mem_cons.mp hmem with hlink | hlink
  · simp at hlink
  · exact link_not_mem_pieces hk hlink

theorem typeName_backLink (hi : a.category i = .backLink) : a.typeName i = "BackLink<TSource>" := by
  unfold category at hi
  unfold typeName
  cases hk : a.kind i with
  | backLink => rfl
  | _ => simp [hk, NodeKind.category] at hi

/-- Among nodes without an extension above, the words and the type arguments tell which it is. -/
theorem Nested.eq_of_classWords (h : a.Nested) (hk : a.Kinded) (hapart : a.NamedApart)
    (hroot : a.category root = .actor) (hp : a.parent? i = some p) (hq : a.parent? j = some q)
    (hi : root ∈ a.spine p) (hj : root ∈ a.spine q) (hip : a.IsPlace p) (hjp : a.IsPlace q)
    (hie : a.category i ≠ .extension) (hje : a.category j ≠ .extension)
    (hwords : a.classWords p i = a.classWords q j) (harguments : a.arguments i = a.arguments j) :
    i = j := by
  have habove (hpieces : a.pieces p = a.pieces q)
      (hown : a.ownParameters i = a.ownParameters j) : p = q := by
    rw [arguments_of_parent hp, arguments_of_parent hq, hown] at harguments
    exact h.eq_of_pieces hk hapart hroot hi hj hip hjp hpieces (List.append_cancel_left harguments)
  -- words of different categories differ; for two of one category they give those of the parents,
  -- which are equal by that, and siblings are told apart by their names
  rcases h.category_cases hp hie with hki | hki | hki
  · rcases h.category_cases hq hje with hkj | hkj | hkj
    · simp only [classWords, hki, hkj] at hwords
      exact h.eq_of_pieces hk hapart hroot ((mem_spine_iff_of_parent hp).mpr (Or.inr hi))
        ((mem_spine_iff_of_parent hq).mpr (Or.inr hj)) (Or.inr (Or.inl hki))
        (Or.inr (Or.inl hkj)) (List.cons.inj hwords).2 harguments
    · simp [classWords, hki, hkj] at hwords
    · simp only [classWords, hki, hkj] at hwords
      exact absurd hwords (link_cons_ne hk _)
  · rcases h.category_cases hq hje with hkj | hkj | hkj
    · simp [classWords, hki, hkj] at hwords
    · simp only [classWords, hki, hkj] at hwords
      have hown : a.ownParameters i = a.ownParameters j := by
        rw [ownParameters_hierarchy hki, ownParameters_hierarchy hkj]
      obtain rfl : p = q := habove (List.cons.inj hwords).2 hown
      refine hapart.eq_of_siblings hp hq ?_
      rw [typeName_hierarchy hki, typeName_hierarchy hkj]
    · simp only [classWords, hki, hkj] at hwords
      exact absurd hwords (hierarchy_cons_ne hk)
  · rcases h.category_cases hq hje with hkj | hkj | hkj
    · simp only [classWords, hki, hkj] at hwords
      exact absurd hwords.symm (link_cons_ne hk _)
    · simp only [classWords, hki, hkj] at hwords
      exact absurd hwords.symm (hierarchy_cons_ne hk)
    · simp only [classWords, hki, hkj] at hwords
      have hown : a.ownParameters i = a.ownParameters j := by
        rw [ownParameters_backLink hki, ownParameters_backLink hkj]
      obtain rfl : p = q := habove (List.append_cancel_right hwords) hown
      refine hapart.eq_of_siblings hp hq ?_
      rw [typeName_backLink hki, typeName_backLink hkj]

/-- No extension stands at the node or above it. -/
def Unextended (a : Arena) (i : NodeId) : Prop := ∀ n ∈ a.spine i, a.category n ≠ .extension

theorem Nested.isPlace_of_mem_parents (h : a.Nested) {n : NodeId} (hn : n ∈ a.parents i)
    (hext : a.category n ≠ .extension) : a.IsPlace n := by
  have hback : a.category n ≠ .backLink := by
    induction i using Nat.strongRecOn with
    | ind i ih =>
      cases hp : a.parent? i with
      | none => simp [parents_of_none hp] at hn
      | some p =>
        rw [parents_of_some hp] at hn
        rcases List.mem_cons.mp hn with rfl | hn
        · exact h.category_ne_backLink hp
        · exact ih p (lt_of_parent hp) hn
  unfold IsPlace
  cases hk : a.category n with
  | actor => exact Or.inl rfl
  | linkType => exact Or.inr (Or.inl rfl)
  | hierarchy => exact Or.inr (Or.inr rfl)
  | extension => exact absurd hk hext
  | backLink => exact absurd hk hback

theorem implementationType_eq (i : NodeId) :
    a.implementationType i = withTypeParameters (a.className i) (a.arguments i) := by
  rw [implementationType, withGenerics, generics_fst]

theorem PlainParameters.arguments (h : a.PlainParameters) (hi : i < a.size) :
    ∀ p ∈ a.arguments i, ',' ∉ p.toList := by
  intro p hp
  obtain ⟨n, hn, hp⟩ := List.mem_flatMap.mp hp
  have hlt : n < a.size := Nat.lt_of_le_of_lt (le_of_mem_spine hn) hi
  unfold ownParameters at hp
  split at hp
  · next k e hk => exact h n hlt e (by rw [hk]; rfl) p hp
  · rw [List.mem_singleton.mp hp]
    decide
  · cases hp

theorem lt_not_mem_assembly (assembly : Assembly) : '<' ∉ assembly.name.toList := by
  cases assembly <;> decide

theorem Nested.lt_not_mem_className (h : a.Nested) (hk : a.Kinded) (hp : a.parent? i = some p)
    (hplace : a.IsPlace p) (hext : a.category i ≠ .extension) : '<' ∉ (a.className i).toList := by
  rw [h.className_eq hp hplace hext]
  simp only [String.toList_append, List.mem_append, not_or]
  exact ⟨⟨by decide, lt_not_mem_assembly _⟩, lt_not_mem_join fun _ => isWord_of_mem_classWords hk⟩

/-- Where no two siblings have the same type name, no two nodes without an extension at or above
them have the same class name. -/
theorem Nested.eq_of_implementationType (h : a.Nested) (hk : a.Kinded) (hapart : a.NamedApart)
    (hplain : a.PlainParameters) (hroot : a.category root = .actor) (hi : root ∈ a.parents i)
    (hj : root ∈ a.parents j) (hui : a.Unextended i) (huj : a.Unextended j)
    (htarget : a.target i = a.target j) (hname : a.implementationType i = a.implementationType j) :
    i = j := by
  cases hp : a.parent? i with
  | none => simp [parents_of_none hp] at hi
  | some p =>
    cases hq : a.parent? j with
    | none => simp [parents_of_none hq] at hj
    | some q =>
      rw [parents_of_some hp] at hi
      rw [parents_of_some hq] at hj
      have hip := h.isPlace_of_mem_parents (mem_parents_of_parent hp)
        (hui p ((mem_spine_iff_of_parent hp).mpr (Or.inr self_mem_spine)))
      have hjp := h.isPlace_of_mem_parents (mem_parents_of_parent hq)
        (huj q ((mem_spine_iff_of_parent hq).mpr (Or.inr self_mem_spine)))
      have hie := hui i self_mem_spine
      have hje := huj j self_mem_spine
      rw [implementationType_eq, implementationType_eq] at hname
      obtain ⟨hclass, harguments⟩ := withTypeParameters_inj
        (h.lt_not_mem_className hk hp hip hie) (h.lt_not_mem_className hk hq hjp hje)
        (hplain.arguments (lt_size_of_parent hp)) (hplain.arguments (lt_size_of_parent hq)) hname
      rw [h.className_eq hp hip hie, h.className_eq hq hjp hje, htarget] at hclass
      have hwords := join_inj_of_words (fun _ => isWord_of_mem_classWords hk)
        (fun _ => isWord_of_mem_classWords hk) (String.append_right_inj _ |>.mp hclass)
      exact h.eq_of_classWords hk hapart hroot hp hq hi hj hip hjp hie hje hwords harguments

/-- The nearest parent that is no extension. -/
def seat? (a : Arena) (i : NodeId) : Option NodeId :=
  (a.parents i).find? fun n => !(a.kind n).isExtension

/-- The names of the extensions between a node and its seat, from the seat down. -/
def extensionNames (a : Arena) (i : NodeId) : String :=
  String.join ((((a.parents i).takeWhile fun n => (a.kind n).isExtension).reverse).map a.typeName)

theorem lt_not_mem_typeName (hi : a.category i = .extension) : '<' ∉ (a.typeName i).toList := by
  unfold category at hi
  unfold typeName
  cases hk : a.kind i with
  | extension symbol => exact lt_not_mem_erase_simpleName _ symbol.name
  | _ => simp [hk, NodeKind.category] at hi

theorem lt_not_mem_extensionNames (i : NodeId) : '<' ∉ (a.extensionNames i).toList := by
  rw [extensionNames, String.toList_join]
  intro h
  obtain ⟨name, hname, hlt⟩ := List.mem_flatMap.mp h
  obtain ⟨n, hn, rfl⟩ := List.mem_map.mp hname
  have hext := List.mem_takeWhile_imp (List.mem_reverse.mp hn)
  exact lt_not_mem_typeName (beq_iff_eq.mp hext) hlt

theorem parents_eq_of_append {above below : List NodeId} {s : NodeId}
    (h : a.parents i = below ++ s :: above) : above = a.parents s := by
  induction below generalizing i with
  | nil =>
    cases hp : a.parent? i with
    | none => simp [parents_of_none hp] at h
    | some p =>
      rw [parents_of_some hp] at h
      cases h
      rfl
  | cons x below ih =>
    cases hp : a.parent? i with
    | none => simp [parents_of_none hp] at h
    | some p =>
      rw [parents_of_some hp] at h
      obtain ⟨rfl, hrest⟩ := List.cons.inj h
      exact ih hrest

/-- The node stands on its seat, below extensions only. -/
theorem exists_of_seat? {s : NodeId} (h : a.seat? i = some s) : ∃ below,
    a.parents i = below ++ a.spine s ∧ (∀ n ∈ below, a.category n = .extension) ∧
      a.extensionNames i = String.join (below.reverse.map a.typeName) := by
  obtain ⟨hs, below, above, hparents, hbelow⟩ := List.find?_eq_some_iff_append.mp h
  have hbelow : ∀ n ∈ below, (a.kind n).isExtension = true := by simpa using hbelow
  refine ⟨below, ?_, fun n hn => beq_iff_eq.mp (hbelow n hn), ?_⟩
  · rw [hparents, spine, parents_eq_of_append hparents]
  · rw [extensionNames, hparents, List.takeWhile_append_of_pos hbelow,
      List.takeWhile_cons_of_neg (by simpa using hs), List.append_nil]

theorem Nested.isPlace_of_seat? (h : a.Nested) {s : NodeId} (hs : a.seat? i = some s) :
    a.IsPlace s := by
  refine h.isPlace_of_mem_parents (List.mem_of_find?_eq_some hs) ?_
  simpa [NodeKind.isExtension, category] using List.find?_some hs

theorem piece_extension (hi : a.category i = .extension) : a.piece i = a.typeName i := by
  unfold category at hi
  unfold piece
  cases hk : a.kind i with
  | linkType k e => simp [hk, NodeKind.category] at hi
  | _ => rfl

theorem ownParameters_extension (hi : a.category i = .extension) : a.ownParameters i = [] := by
  unfold category at hi
  unfold ownParameters
  cases hk : a.kind i with
  | extension symbol => rfl
  | _ => simp [hk, NodeKind.category] at hi

/-- Extensions bring in no type arguments. -/
theorem arguments_of_seat? {s : NodeId} (hs : a.seat? i = some s) :
    a.arguments i = a.ownParameters i ++ a.arguments s := by
  obtain ⟨below, hparents, hbelow, _⟩ := exists_of_seat? hs
  have hnone : below.flatMap a.ownParameters = [] :=
    List.flatMap_eq_nil_iff.mpr fun n hn => ownParameters_extension (hbelow n hn)
  rw [arguments, spine, List.flatMap_cons, hparents, List.flatMap_append, hnone, List.nil_append,
    arguments]

theorem implementationType_extension (hk : a.category i = .extension) {s : NodeId}
    (hs : a.seat? i = some s) : a.implementationType i = withTypeParameters
      ("__" ++ (a.target i).assembly.name ++ "LinkExtension" ++ String.join (a.pieces s)
        ++ a.typeName i) (a.arguments s) := by
  obtain ⟨below, hparents, hbelow, _⟩ := exists_of_seat? hs
  have hnone : below.reverse.filter (fun n => (a.kind n).isLinkType || (a.kind n).isHierarchy)
      = [] := by
    refine List.filter_eq_nil_iff.mpr fun n hn => ?_
    have hext : (a.kind n).category = .extension := hbelow n (List.mem_reverse.mp hn)
    simp [NodeKind.isLinkType, NodeKind.isHierarchy, hext]
  have hpieces : a.classSegments (a.parents i).reverse (fun k => k.isLinkType || k.isHierarchy)
      = String.join (a.pieces s) := by
    rw [classSegments_eq fun _ _ => rfl, hparents, List.reverse_append, List.filter_append, hnone,
      List.append_nil, pieces]
  rw [implementationType_eq, arguments_of_seat? hs, ownParameters_extension hk, List.nil_append]
  congr 1
  unfold category at hk
  unfold className
  cases hkind : a.kind i with
  | extension symbol =>
    simp only [hpieces]
    rfl
  | _ => simp [hkind, NodeKind.category] at hk

/-- A class name that keeps the extensions has them after the pieces of the seat. -/
theorem Nested.classSegments_of_seat? (h : a.Nested) {s : NodeId} (hs : a.seat? i = some s) :
    a.classSegments (a.parents i).reverse (fun k => k.isLinkType || k.isExtension || k.isHierarchy)
      = String.join (a.pieces s) ++ a.extensionNames i := by
  obtain ⟨below, hparents, hbelow, hnames⟩ := exists_of_seat? hs
  have hplaces := h.isPlace_of_mem_spine (h.isPlace_of_seat? hs)
  have habove : (a.spine s).reverse.filter (fun n =>
      (a.kind n).isLinkType || (a.kind n).isExtension || (a.kind n).isHierarchy)
        = (a.spine s).reverse.filter fun n =>
          (a.kind n).isLinkType || (a.kind n).isHierarchy := by
    refine List.filter_congr fun n hn => ?_
    rw [(hplaces n (List.mem_reverse.mp hn)).isExtension_eq, Bool.or_false]
  have hall : below.reverse.filter (fun n =>
      (a.kind n).isLinkType || (a.kind n).isExtension || (a.kind n).isHierarchy)
        = below.reverse := by
    refine List.filter_eq_self.mpr fun n hn => ?_
    have hext : (a.kind n).category = .extension := hbelow n (List.mem_reverse.mp hn)
    simp [NodeKind.isExtension, hext]
  have hpieces : below.reverse.map a.piece = below.reverse.map a.typeName :=
    List.map_congr_left fun n hn => piece_extension (hbelow n (List.mem_reverse.mp hn))
  rw [hnames, ← hpieces, pieces, ← habove, ← String.join_append, ← List.map_append]
  show String.join (((a.parents i).reverse.filter _).map a.piece) = _
  rw [hparents, List.reverse_append, List.filter_append, hall]

theorem Nested.implementationType_backLink (h : a.Nested) (hk : a.category i = .backLink)
    {s : NodeId} (hs : a.seat? i = some s) : a.implementationType i = withTypeParameters
      ("__" ++ (a.target i).assembly.name ++ String.join (a.pieces s) ++ a.extensionNames i
        ++ "BackLink") ("TSource" :: a.arguments s) := by
  rw [implementationType_eq, arguments_of_seat? hs, ownParameters_backLink hk]
  congr 1
  unfold category at hk
  unfold className
  cases hkind : a.kind i with
  | backLink =>
    simp only [h.classSegments_of_seat? hs]
    simp [toString, String.append_assoc]
  | _ => simp [hkind, NodeKind.category] at hk

/-- Extensions on one seat, in whatever order, are told apart by nothing but their own names. -/
theorem implementationType_extension_iff {s : NodeId} (hi : a.category i = .extension)
    (hj : a.category j = .extension) (his : a.seat? i = some s) (hjs : a.seat? j = some s)
    (ht : a.target i = a.target j) :
    a.implementationType i = a.implementationType j ↔ a.typeName i = a.typeName j := by
  rw [implementationType_extension hi his, implementationType_extension hj hjs, ht,
    withTypeParameters_left_inj, String.append_right_inj]

/-- Back links on one seat are told apart by the names of the extensions above them, put
together. -/
theorem Nested.implementationType_backLink_iff (h : a.Nested) {s : NodeId}
    (hi : a.category i = .backLink) (hj : a.category j = .backLink) (his : a.seat? i = some s)
    (hjs : a.seat? j = some s) (ht : a.target i = a.target j) :
    a.implementationType i = a.implementationType j ↔
      a.extensionNames i = a.extensionNames j := by
  rw [h.implementationType_backLink hi his, h.implementationType_backLink hj hjs, ht,
    withTypeParameters_left_inj, String.append_left_inj, String.append_right_inj]

/-- The class of a node below an actor is named after the assembly. -/
theorem Nested.exists_implementationType (h : a.Nested) (hp : a.parent? i = some p) :
    ∃ rest, a.implementationType i = "__" ++ (a.target i).assembly.name ++ rest := by
  have hclass : ∃ rest, a.className i = "__" ++ (a.target i).assembly.name ++ rest := by
    have hactor := h.isActor_of_parent hp
    unfold className
    cases hk : a.kind i with
    | actor symbol => simp [hk, NodeKind.isActor, NodeKind.category] at hactor
    | linkType k e =>
      exact ⟨"Link" ++ a.classSegments ((a.parents i).reverse ++ [i]) NodeKind.isLinkType,
        by simp [toString, String.append_assoc]⟩
    | extension symbol =>
      exact ⟨"LinkExtension" ++ a.classSegments (a.parents i).reverse
        (fun k => k.isLinkType || k.isHierarchy) ++ a.typeName i,
        by simp [toString, String.append_assoc]⟩
    | hierarchy marker =>
      exact ⟨"Hierarchy" ++ a.classSegments (a.parents i).reverse
        (fun k => k.isLinkType || k.isExtension), by simp [toString, String.append_assoc]⟩
    | backLink =>
      exact ⟨a.classSegments (a.parents i).reverse
        (fun k => k.isLinkType || k.isExtension || k.isHierarchy) ++ "BackLink",
        by simp [toString, String.append_assoc]⟩
  obtain ⟨rest, hrest⟩ := hclass
  obtain ⟨tail, htail⟩ := exists_withTypeParameters (a.className i) (a.arguments i)
  exact ⟨rest ++ tail, by rw [implementationType_eq, htail, hrest, String.append_assoc]⟩

theorem Nested.implementationType_ne_backLink (h : a.Nested) (hp : a.parent? i = some p) :
    a.implementationType i ≠ "BackLink<TSource>" := by
  obtain ⟨rest, hrest⟩ := h.exists_implementationType hp
  intro heq
  rw [hrest, String.append_assoc] at heq
  replace heq := congrArg String.toList heq
  rw [String.toList_append] at heq
  cases heq

/-- The words of the class name of a node never go on as those of an extension do. -/
theorem Nested.classWords_ne (h : a.Nested) (hk : a.Kinded) (hq : a.parent? j = some q)
    (hje : a.category j ≠ .extension) (rest : String) (more : List Char) :
    (String.join (a.classWords q j) ++ rest).toList
      ≠ 'L' :: 'i' :: 'n' :: 'k' :: 'E' :: 'x' :: more := by
  intro hname
  -- where the letters do not differ at once, a piece stands there, and no piece starts as what is
  -- left to match
  rcases h.category_cases hq hje with hkj | hkj | hkj
  · have hne : a.pieces j ≠ [] := by
      rcases h.pieces_eq hq (Or.inr (Or.inl hkj)) with ⟨_, _, _, hpieces, _⟩ | ⟨_, hpieces, _⟩
      · simp [hpieces]
      · simp [hpieces]
    obtain ⟨w, ws, hw⟩ := List.exists_cons_of_ne_nil hne
    obtain ⟨c, d, cs, hcs, hstart⟩ :=
      exists_start_of_mem_pieces hk (hw ▸ List.mem_cons_self : w ∈ a.pieces j)
    simp only [classWords, hkj, hw, String.join_cons, String.toList_append, hcs] at hname
    cases hname
    exact absurd hstart (by decide)
  · simp only [classWords, hkj, String.join_cons, String.toList_append] at hname
    cases hname
  · cases hw : a.pieces q with
    | nil =>
      simp only [classWords, hkj, hw, List.nil_append, String.join_cons, String.toList_append]
        at hname
      cases hname
    | cons w ws =>
      obtain ⟨c, d, cs, hcs, hstart⟩ :=
        exists_start_of_mem_pieces hk (hw ▸ List.mem_cons_self : w ∈ a.pieces q)
      simp only [classWords, hkj, hw, List.cons_append, String.join_cons, String.toList_append,
        hcs] at hname
      obtain ⟨rfl, hrest⟩ := List.cons.inj hname
      obtain ⟨rfl, _⟩ := List.cons.inj hrest
      exact absurd hstart (by decide)

/-- The class of an extension is never named as that of a node without extensions. -/
theorem Nested.implementationType_extension_ne (h : a.Nested) (hk : a.Kinded) {s : NodeId}
    (hi : a.category i = .extension) (his : a.seat? i = some s) (hq : a.parent? j = some q)
    (huj : a.Unextended j) (ht : a.target i = a.target j) :
    a.implementationType i ≠ a.implementationType j := by
  have hjp := h.isPlace_of_mem_parents (mem_parents_of_parent hq)
    (huj q ((mem_spine_iff_of_parent hq).mpr (Or.inr self_mem_spine)))
  have hje := huj j self_mem_spine
  intro hname
  rw [implementationType_extension hi his, implementationType_eq, h.className_eq hq hjp hje, ht]
    at hname
  obtain ⟨x, hx⟩ := exists_withTypeParameters ("__" ++ (a.target j).assembly.name
    ++ "LinkExtension" ++ String.join (a.pieces s) ++ a.typeName i) (a.arguments s)
  obtain ⟨y, hy⟩ := exists_withTypeParameters ("__" ++ (a.target j).assembly.name
    ++ String.join (a.classWords q j)) (a.arguments j)
  rw [hx, hy] at hname
  simp only [String.append_assoc, String.append_right_inj] at hname
  replace hname := congrArg String.toList hname
  rw [String.toList_append] at hname
  obtain ⟨more, hmore⟩ : ∃ more, "LinkExtension".toList
      ++ (String.join (a.pieces s) ++ (a.typeName i ++ x)).toList
        = 'L' :: 'i' :: 'n' :: 'k' :: 'E' :: 'x' :: more := ⟨_, rfl⟩
  exact h.classWords_ne hk hq hje y more (hname.symm.trans hmore)

theorem Nested.exists_seat? (h : a.Nested) (hp : a.parent? i = some p) :
    ∃ s, a.seat? i = some s := by
  obtain ⟨root, hroot, hk, _⟩ := h.exists_root (lt_size_of_parent hp) (h.isActor_of_parent hp)
  refine Option.isSome_iff_exists.mp (List.find?_isSome.mpr ⟨root, ?_, ?_⟩)
  · exact List.mem_of_find?_eq_some hroot
  · rw [NodeKind.isExtension, beq_iff_eq.mp hk]
    rfl

/-- The name of a link type's class does not end as that of a back link's. -/
theorem Nested.getLast?_className (h : a.Nested) (hk : a.Kinded) (hp : a.parent? i = some p)
    (hi : a.category i = .linkType) : ∃ c, (a.className i).toList.getLast? = some c ∧ c ≠ 'k' := by
  have hplace : a.IsPlace i := Or.inr (Or.inl hi)
  rcases h.pieces_eq hp hplace with ⟨k, e, hkind, hpieces, _⟩ | ⟨hhierarchy, _⟩
  · obtain ⟨c, hc, hne⟩ := Schematic.Entry.getLast?_classSegment (hk hkind)
    refine ⟨c, ?_, hne⟩
    rw [h.className_eq hp (h.isPlace_parent hp hplace) (by simp [hi]), classWords, hi]
    simp only [hpieces, String.join_cons, String.join_append, String.toList_append,
      List.getLast?_append, String.join_nil, String.toList_empty, List.getLast?_nil,
      Option.none_or, hc, Option.some_or]
  · rw [hi] at hhierarchy
    cases hhierarchy

/-- The class of a link type is never named as that of a node with no link type at it or above. -/
theorem Nested.implementationType_linkType_ne (h : a.Nested) (hk : a.Kinded)
    (hp : a.parent? i = some p) (hi : a.category i = .linkType) (hq : a.parent? j = some q)
    (hj : ∀ n ∈ a.spine j, a.category n ≠ .linkType) (ht : a.target i = a.target j) :
    a.implementationType i ≠ a.implementationType j := by
  have hplace : a.IsPlace i := Or.inr (Or.inl hi)
  have hip := h.isPlace_parent hp hplace
  have hunextended : a.Unextended i := fun n hn hext => by
    rcases h.isPlace_of_mem_spine hplace n hn with hn | hn | hn <;> simp [hext] at hn
  have hie : a.category i ≠ .extension := hunextended i self_mem_spine
  obtain ⟨s, hs⟩ := h.exists_seat? hq
  -- the first word tells all categories apart but back links, which the last letter does
  cases hkj : a.category j with
  | actor => exact absurd hkj (h.category_ne_actor hq)
  | linkType => exact absurd hkj (hj j self_mem_spine)
  | extension => exact (h.implementationType_extension_ne hk hkj hs hp hunextended ht.symm).symm
  | hierarchy =>
    intro hname
    have hjp := h.isPlace_parent hq (Or.inr (Or.inr hkj))
    obtain ⟨x, hx⟩ := exists_withTypeParameters (a.className i) (a.arguments i)
    obtain ⟨y, hy⟩ := exists_withTypeParameters (a.className j) (a.arguments j)
    rw [implementationType_eq, implementationType_eq, hx, hy, h.className_eq hp hip hie,
      h.className_eq hq hjp (by simp [hkj]), ht] at hname
    simp only [classWords, hi, hkj, String.join_cons, String.append_assoc,
      String.append_right_inj] at hname
    replace hname := congrArg String.toList hname
    simp only [String.toList_append] at hname
    cases hname
  | backLink =>
    intro hname
    have hfree : '<' ∉ ("__" ++ (a.target j).assembly.name ++ String.join (a.pieces s)
        ++ a.extensionNames j ++ "BackLink").toList := by
      have hpieces := lt_not_mem_join fun w hw => isWord_of_mem_pieces (i := s) hk hw
      simp only [String.toList_append, List.mem_append, not_or]
      exact ⟨⟨⟨⟨by decide, lt_not_mem_assembly _⟩, hpieces⟩, lt_not_mem_extensionNames j⟩,
        by decide⟩
    rw [implementationType_eq, h.implementationType_backLink hkj hs] at hname
    obtain ⟨hclass, _⟩ :=
      eq_of_withTypeParameters (h.lt_not_mem_className hk hp hip hie) hfree hname
    obtain ⟨c, hc, hne⟩ := h.getLast?_className hk hp hi
    rw [hclass, String.toList_append, List.getLast?_append] at hc
    exact hne (Option.some.inj hc).symm

end

end Arena

end ActorLinks
