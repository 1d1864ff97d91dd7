import ActorLinks.Proofs.Failure
import ActorLinks.Proofs.Visit.Run

/-! # How a visit fails

Only a hierarchy can fail to be visited: where its marker lists something that is no type. So a
visit fails with the complaint about the first such hierarchy, whatever states there are, and
no number of visits gives that hierarchy a state.
-/
namespace ActorLinks

namespace Constant

/-- A type, a list of types, or a constant that could not be read. -/
def ListsTypes (c : Constant) : Prop :=
  (∃ name, c = .type name) ∨ (∃ items, c = .array items ∧ ∀ x ∈ items, ∃ name, x = .type name) ∨
    c = .error

/-- What a failure says of a constant that does not list types. -/
def complaint? : Constant → Option String
  | .error | .type _ => none
  | .array items => (items.find? fun c => c.type?.isNone).map fun c =>
    "Types entries must be types, found " ++ c.quoted
  | c => some ("Types must be a type or an array of types, found " ++ c.quoted)

theorem isSome_type?_iff {c : Constant} : c.type?.isSome ↔ ∃ name, c = .type name := by
  cases c <;> simp [type?]

theorem complaint?_eq_none_iff {c : Constant} : c.complaint? = none ↔ c.ListsTypes := by
  cases c with
  | error => simp [complaint?, ListsTypes]
  | type name => simp [complaint?, ListsTypes]
  | array items =>
    simp [complaint?, ListsTypes, ← isSome_type?_iff, Option.isSome_iff_ne_none]
  | primitive s => simp [complaint?, ListsTypes]
  | bool b => simp [complaint?, ListsTypes]
  | enumeration s => simp [complaint?, ListsTypes]

end Constant

/-- The core actor is the root of a hierarchy that lists something else than types. -/
def Target.Misdeclared (c : Compilation) (t : Target) : Prop :=
  ∃ marker v, LinkTree.hierarchyMarker? c t = some marker ∧ marker.named.get? "Types" = some v ∧
    ¬ v.ListsTypes

namespace LinkGraph
variable {g : LinkGraph}

theorem of?_listedMembers (t : Target) (cs : List Constant) :
    Failure.of? (g.listedMembers t cs)
      = (Constant.array cs).complaint?.map (.schema t.coreActor) := by
  induction cs with
  | nil => rfl
  | cons c cs ih =>
    rw [listedMembers]
    cases hc : c.type? with
    | none => simp [Constant.complaint?, hc, Failure.of?]
    | some name =>
      simp only [Failure.of?_map, ih]
      simp [Constant.complaint?, hc]

theorem of?_membersOf (t : Target) (v : Option Constant) :
    Failure.of? (g.membersOf t v) = (v.bind Constant.complaint?).map (.schema t.coreActor) := by
  cases v with
  | none => rfl
  | some c =>
    cases c with
    | array items => exact of?_listedMembers t items
    | primitive s => rfl
    | bool b => rfl
    | enumeration s => rfl
    | type name => rfl
    | error => rfl

/-- The failure of a visit at the node. -/
def complaint? (g : LinkGraph) (i : NodeId) : Option Failure :=
  match g.arena.kind i with
  | .hierarchy marker =>
    ((marker.named.get? "Types").bind Constant.complaint?).map (.schema (g.target i).coreActor)
  | _ => none

theorem of?_visitNode (h : g.arena.Nested) {i : NodeId} (hi : i < g.arena.size) :
    Failure.of? (g.visitNode i) = g.complaint? i := by
  rw [visitNode, Failure.of?_map]
  unfold visitAs complaint? Arena.category
  cases hk : g.arena.kind i with
  | actor symbol => rfl
  | linkType kind entry => rfl
  | extension symbol =>
    have hsymbol : g.extensionSymbol? i = some symbol := by rw [extensionSymbol?, hk]
    show Failure.of? ((g.visitExtension i).map _) = none
    rw [Failure.of?_map, visitExtension, hsymbol]
    rfl
  | hierarchy marker =>
    show Failure.of? ((g.visitHierarchy i).map _) = _
    rw [Failure.of?_map, visitHierarchy, Failure.of?_map, hierarchyMembers, hk]
    exact of?_membersOf _ _
  | backLink =>
    show Failure.of? ((g.visitBackLink i).map _) = none
    rw [Failure.of?_map, visitBackLink, Failure.of?_map, backLinkParent]
    cases hp : g.arena.parent? i with
    | some p => rfl
    | none =>
      have hactor := h.actor_of_orphan i hi hp
      rw [Arena.category, hk] at hactor
      cases hactor

/-- The first complaint ends the visit. -/
theorem failure_visitNodes (h : g.arena.Nested) {ids : List NodeId}
    (hids : ∀ i ∈ ids, i < g.arena.size) :
    (g.visitNodes ids).2 = ids.findSome? g.complaint? := by
  induction ids generalizing g with
  | nil => rfl
  | cons i ids ih =>
    have hfirst := of?_visitNode h (hids i List.mem_cons_self)
    rw [visitNodes, List.findSome?_cons, ← hfirst]
    cases hv : g.visitNode i with
    | error e => rfl
    | ok s =>
      exact ih (g := g.withState i s) h fun j hj => hids j (List.mem_cons_of_mem _ hj)

section
variable {c : Compilation} {s : Schematic} {targets : List Target}

theorem Grounded.failure_visit (h : Grounded c s targets g) :
    g.visit.2 = g.visitList.findSome? g.complaint? :=
  failure_visitNodes h.nested fun _ hi => h.mem_visitList_iff.mp hi

theorem Grounded.misdeclared_of_complaint (h : Grounded c s targets g) {i : NodeId} {e : Failure}
    (hi : i < g.arena.size) (he : g.complaint? i = some e) :
    ∃ t detail, keptTarget? targets t.actor = some t ∧ t.Misdeclared c ∧
      e = .schema t.coreActor detail := by
  unfold complaint? at he
  split at he
  · next marker hk =>
    obtain ⟨detail, hdetail, rfl⟩ := Option.map_eq_some_iff.mp he
    obtain ⟨v, hv, hcomplaint⟩ := Option.bind_eq_some_iff.mp hdetail
    refine ⟨g.target i, detail, h.keptTarget?_of_lt hi,
      ⟨marker, v, h.marker_eq hi hk, hv, fun hlists => ?_⟩, rfl⟩
    rw [Constant.complaint?_eq_none_iff.mpr hlists] at hcomplaint
    cases hcomplaint
  · cases he

theorem Grounded.exists_complaint (h : Grounded c s targets g) {t : Target}
    (ht : keptTarget? targets t.actor = some t) (hm : t.Misdeclared c) :
    ∃ i < g.arena.size, ∃ e, g.complaint? i = some e := by
  rw [← h.kept] at ht
  obtain ⟨root, hroot, rfl⟩ := Option.map_eq_some_iff.mp ht
  obtain ⟨marker, v, hmarker, hv, hlists⟩ := hm
  obtain ⟨n, hn, hk, htarget⟩ := h.exists_hierarchy hroot hmarker
  obtain ⟨detail, hdetail⟩ : ∃ detail, v.complaint? = some detail :=
    Option.ne_none_iff_exists'.mp fun hnone => hlists (Constant.complaint?_eq_none_iff.mp hnone)
  refine ⟨n, (Arena.lt_of_mem_children hn).2, .schema (g.target n).coreActor detail, ?_⟩
  simp [complaint?, hk, hv, hdetail]

theorem Grounded.visit_fails_iff (h : Grounded c s targets g) :
    (∃ e, g.visit.2 = some e) ↔
      ∃ t, keptTarget? targets t.actor = some t ∧ t.Misdeclared c := by
  rw [h.failure_visit]
  constructor
  · rintro ⟨e, he⟩
    obtain ⟨i, hi, hcomplaint⟩ := List.exists_of_findSome?_eq_some he
    obtain ⟨t, _, ht, hm, _⟩ :=
      h.misdeclared_of_complaint (h.mem_visitList_iff.mp hi) hcomplaint
    exact ⟨t, ht, hm⟩
  · rintro ⟨t, ht, hm⟩
    obtain ⟨i, hi, e, he⟩ := h.exists_complaint ht hm
    refine Option.isSome_iff_exists.mp (List.findSome?_isSome_iff.mpr ⟨i, ?_, ?_⟩)
    · exact h.mem_visitList_iff.mpr hi
    · rw [he]
      rfl

end

end LinkGraph

end ActorLinks
