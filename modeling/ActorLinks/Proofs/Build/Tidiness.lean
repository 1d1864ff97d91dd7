import ActorLinks.Proofs.Build.LinkTypes
import ActorLinks.Proofs.Build.NestedTypes
import ActorLinks.Proofs.Decl.Edits
import ActorLinks.Proofs.Generation

/-! # Lists without repetitions

Rows of edits keep the lists of a declaration apart. All that is built is built by edits: the types
around an actor, the declaration of the actor, and the drafts that stand in it. So nowhere in a
declaration, however deep, does a list repeat an entry, and no base is empty.
-/
namespace ActorLinks

namespace LinkGraph
variable {g : LinkGraph} {root : NodeId} {decl own : TypeDecl}

theorem clean_containerDecl (c : Compilation) (name : String) (inner : TypeDecl) :
    (containerDecl c name inner).Clean := by
  simp [containerDecl]

theorem DeclaresItself.clean (h : g.DeclaresItself root own) : own.Clean := by
  obtain ⟨_, _, _, _, _, _, _, _, rfl⟩ := h.exists_actorDecl
  simp [actorDecl]

/-- Every declaration is clean: those around that of the actor, that itself, and all that stands in
it. -/
theorem clean_of_buildActor {treeView : Bool} (h : g.buildActor root treeView = .ok decl)
    {t : TypeDecl} (ht : decl.Contains t) : t.Clean := by
  obtain ⟨_, own, _, rfl, hown⟩ := exists_declaresItself h
  rcases contains_or_of_wrapInContainers ht with hcontains | ⟨name, inner, rfl⟩
  · cases hcontains with
    | refl => exact hown.clean
    | nested hinner ht => exact (hown.grown_of_contains hinner ht).clean
  · exact clean_containerDecl _ _ _

/-- A row of edits of a fresh declaration keeps all that it accepts, each entry once; later edits
leave what they do not move in its order, and put a moved base at its index, or last if there are
fewer others. So no declaration of a graph that is built lists anything twice or has an empty
base, at whatever depth it stands. -/
theorem declarations_tidy :
    (∀ (kind : TypeKind) (name : String) (es later : List Edit),
      let d := ({ kind := kind, name := name } : TypeDecl).edits es
      let stays : String → Bool := fun b => later.all (·.leaves b)
      d.Tidy ∧
      (∀ b, b ∈ d.bases ↔ ∃ e ∈ es, e.base? = some b) ∧
      (∀ clause, clause ∈ d.constraints ↔ ∃ e ∈ es, e.constraint? = some clause) ∧
      (∀ m, m ∈ d.members ↔ ∃ e ∈ es, m ∈ e.members) ∧
      d.bases.filter stays <+: (d.edits later).bases.filter stays ∧
      d.constraints <+: (d.edits later).constraints ∧
      d.members <+: (d.edits later).members ∧
      ∀ index base, (d.insertBase index base).bases.idxOf base
        = min index (d.bases.filter (· ≠ base)).length) ∧
    ∀ (g : LinkGraph) (treeView : Bool) (built : List (String × TypeDecl)),
      g.build treeView = .ok built → ∀ e ∈ built, ∀ t, e.2.Contains t → t.Clean := by
  constructor
  · intro kind name es later d stays
    have hfresh : ({ kind := kind, name := name } : TypeDecl).Tidy := ⟨.nil, .nil, .nil⟩
    refine ⟨hfresh.edits es, fun b => ?_, fun clause => ?_, fun m => ?_, ?_,
      TypeDecl.prefix_constraints_edits later, TypeDecl.prefix_members_edits later,
      fun index base => idxOf_moveTo d.bases index base⟩
    · exact (TypeDecl.mem_bases_edits es).trans (by simp)
    · exact (TypeDecl.mem_constraints_edits es).trans (by simp)
    · exact (TypeDecl.mem_members_edits es).trans (by simp)
    · exact TypeDecl.filter_bases_edits later fun e he b hb => List.all_eq_true.mp hb e he
  · intro g treeView built h e he
    unfold build at h
    split at h
    · cases h
    · obtain ⟨entry, _, hentry⟩ := (Failure.mem_mapM_iff h).mp he
      obtain ⟨decl, hdecl, rfl⟩ := Failure.map_eq_ok_iff.mp hentry
      exact fun t => clean_of_buildActor hdecl

def repeatedBases : List Edit :=
  [.addBase "ILink", .addBase "IEntity", .addBase "", .addBase "ILink"]

/-- A base that is added again stays where it is, one that is inserted again moves. -/
theorem declarations_tidy_thread :
    ((TypeDecl.interfaceNamed "IUser").edits repeatedBases).bases = ["ILink", "IEntity"] ∧
    ((TypeDecl.interfaceNamed "IUser").edits repeatedBases).Tidy ∧
    (((TypeDecl.interfaceNamed "IUser").edits repeatedBases).insertBase 0 "IEntity").bases.idxOf
      "IEntity" = 0 ∧
    ∃ built, threadLinks.visit.1.build true = .ok built ∧ built ≠ [] ∧
      ∀ e ∈ built, ∀ t, e.2.Contains t → t.Clean := by
  obtain ⟨hedits, hbuild⟩ := declarations_tidy
  obtain ⟨htidy, -, -, -, -, -, -, hmoved⟩ := hedits .interface "IUser" repeatedBases []
  refine ⟨by decide, htidy, (hmoved 0 "IEntity").trans (Nat.zero_min _), ?_⟩
  have hv : Visits threadLinks threadLinks.visit.1 := .again .refl
  have hcomplete := hv.complete_of_isVisited (visited_of_quiet quiet_threadLinks).2
  obtain ⟨built, hbuilt, hnames⟩ := hcomplete.exists_build hv.grounded true
  refine ⟨built, hbuilt, ?_, hbuild _ _ _ hbuilt⟩
  rintro rfl
  have hkeys := hnames.trans hv.grounded.keys_eq
  revert hkeys
  decide +kernel

end LinkGraph

end ActorLinks
