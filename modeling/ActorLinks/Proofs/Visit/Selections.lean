import ActorLinks.Proofs.Build.Explicit
import ActorLinks.Proofs.Visit.Implementations

/-! # Nodes selected by name

Extensions select actors and extensions by name, and actors select the actors they are related to.
Several actors may stand for one core actor, each in an assembly of its own. The first of them by
name is selected whichever assembly asks for it, so a node keeps to its own assembly exactly when
the first actor for each name that it asks for is there.
-/
namespace ActorLinks.LinkGraph
variable {g : LinkGraph} {i n : NodeId}

section Related
variable {actor : NodeId} {start : List String} {found : Dict (List NodeId)}

/-- The actor has been found under some name. -/
def FoundIn (found : Dict (List NodeId)) (n : NodeId) : Prop :=
  ∃ key nodes, found.get? key = some nodes ∧ n ∈ nodes

/-- The interfaces to be followed: those at the start, and those of the first actor under each
name. -/
def Offered (g : LinkGraph) (start : List String) (found : Dict (List NodeId))
    (interface : String) : Prop :=
  interface ∈ start ∨
    ∃ key n nodes, found.get? key = some (n :: nodes) ∧ interface ∈ g.interfacesOf n

/-- Actors are found from the interfaces that are not pending any more. -/
structure Followed (g : LinkGraph) (actor : NodeId) (start : List String)
    (found : Dict (List NodeId)) (pending : List String) : Prop where
  nonempty : ∀ key nodes, found.get? key = some nodes → nodes ≠ []
  offered : ∀ interface ∈ pending, g.Offered start found interface
  answered : ∀ interface, g.Offered start found interface → interface ∈ pending ∨
    ∀ n, g.canonicallyRelated? interface = some n → n = actor ∨ FoundIn found n
  founded : ∀ n, FoundIn found n → n ≠ actor ∧
    ∃ interface, g.Offered start found interface ∧ g.canonicallyRelated? interface = some n

theorem get?_addRelated (name key : String) :
    (addRelated found name n).get? key =
      if key = name ∧ n ∉ (found.get? name).getD [] then some ((found.get? name).getD [] ++ [n])
      else found.get? key := by
  unfold addRelated
  by_cases hn : n ∈ (found.get? name).getD []
  · simp [hn]
  · simp [hn, Dict.get?_insert]

theorem foundIn_addRelated {name : String} {m : NodeId} :
    FoundIn (addRelated found name n) m ↔ FoundIn found m ∨ m = n := by
  constructor
  · rintro ⟨key, nodes, hget, hm⟩
    rw [get?_addRelated] at hget
    split at hget
    · next hkey =>
      cases hget
      rcases List.mem_append.mp hm with hold | hnew
      · cases hname : found.get? name with
        | none => simp [hname] at hold
        | some nodes =>
          rw [hname, Option.getD_some] at hold
          exact Or.inl ⟨name, nodes, hname, hold⟩
      · exact Or.inr (List.mem_singleton.mp hnew)
    · exact Or.inl ⟨key, nodes, hget, hm⟩
  · by_cases hn : n ∈ (found.get? name).getD []
    · -- nothing is added: the actor is there already
      have hsame : addRelated found name n = found := by simp [addRelated, hn]
      rw [hsame]
      rintro (hm | rfl)
      · exact hm
      · cases hname : found.get? name with
        | none => simp [hname] at hn
        | some nodes =>
          rw [hname, Option.getD_some] at hn
          exact ⟨name, nodes, hname, hn⟩
    · have hget : (addRelated found name n).get? name
          = some ((found.get? name).getD [] ++ [n]) := by
        rw [get?_addRelated, if_pos ⟨rfl, hn⟩]
      rintro (⟨key, nodes, hkey, hm⟩ | rfl)
      · by_cases heq : key = name
        · subst heq
          rw [hkey, Option.getD_some] at hget
          exact ⟨key, _, hget, List.mem_append_left _ hm⟩
        · refine ⟨key, nodes, ?_, hm⟩
          rw [get?_addRelated, if_neg (fun h => heq h.1), hkey]
      · exact ⟨name, _, hget, List.mem_append_right _ (List.mem_singleton.mpr rfl)⟩

theorem foundIn_insert {name : String} {m : NodeId} (hname : name ∉ found.keys) :
    FoundIn (found.insert name [n]) m ↔ FoundIn found m ∨ m = n := by
  have hnone {nodes : List NodeId} (hget : found.get? name = some nodes) : False :=
    hname (List.mem_map.mpr ⟨(name, nodes), Dict.mem_entries_iff.mpr hget, rfl⟩)
  constructor
  · rintro ⟨key, nodes, hget, hm⟩
    rw [Dict.get?_insert] at hget
    split at hget
    · cases hget
      exact Or.inr (List.mem_singleton.mp hm)
    · exact Or.inl ⟨key, nodes, hget, hm⟩
  · rintro (⟨key, nodes, hget, hm⟩ | rfl)
    · refine ⟨key, nodes, ?_, hm⟩
      rw [Dict.get?_insert, if_neg, hget]
      rintro rfl
      exact hnone hget
    · exact ⟨name, [m], by rw [Dict.get?_insert, if_pos rfl], List.mem_singleton.mpr rfl⟩

/-- An actor added under a name that is there does not come first. -/
theorem offered_addRelated {name interface : String} (hname : name ∈ found.keys)
    (hnonempty : ∀ key nodes, found.get? key = some nodes → nodes ≠ []) :
    g.Offered start (addRelated found name n) interface ↔ g.Offered start found interface := by
  obtain ⟨⟨key', first⟩, hmem, hkey'⟩ := List.mem_map.mp hname
  obtain rfl : key' = name := hkey'
  have hfirst : found.get? key' = some first := Dict.mem_entries_iff.mp hmem
  obtain ⟨m, ms, rfl⟩ := List.exists_cons_of_ne_nil (hnonempty _ _ hfirst)
  simp only [Offered]
  refine or_congr_right ⟨?_, ?_⟩
  · rintro ⟨key, k, nodes, hget, hk⟩
    rw [get?_addRelated, hfirst, Option.getD_some] at hget
    split at hget
    · cases hget
      exact ⟨key', m, ms, hfirst, hk⟩
    · exact ⟨key, k, nodes, hget, hk⟩
  · rintro ⟨key, k, nodes, hget, hk⟩
    by_cases hadded : key = key' ∧ n ∉ m :: ms
    · obtain ⟨rfl, hn⟩ := hadded
      rw [hfirst] at hget
      cases hget
      refine ⟨key, m, ms ++ [n], ?_, hk⟩
      rw [get?_addRelated, hfirst, Option.getD_some, if_pos ⟨rfl, hn⟩, List.cons_append]
    · refine ⟨key, k, nodes, ?_, hk⟩
      rw [get?_addRelated, hfirst, Option.getD_some, if_neg hadded, hget]

theorem offered_insert {name interface : String} (hname : name ∉ found.keys) :
    g.Offered start (found.insert name [n]) interface ↔
      g.Offered start found interface ∨ interface ∈ g.interfacesOf n := by
  constructor
  · rintro (hstart | ⟨key, m, nodes, hget, hm⟩)
    · exact Or.inl (Or.inl hstart)
    · rw [Dict.get?_insert] at hget
      split at hget
      · cases hget
        exact Or.inr hm
      · exact Or.inl (Or.inr ⟨key, m, nodes, hget, hm⟩)
  · rintro ((hstart | ⟨key, m, nodes, hget, hm⟩) | hn)
    · exact Or.inl hstart
    · refine Or.inr ⟨key, m, nodes, ?_, hm⟩
      rw [Dict.get?_insert, if_neg, hget]
      rintro rfl
      exact hname (List.mem_map.mpr ⟨(key, _), Dict.mem_entries_iff.mpr hget, rfl⟩)
    · exact Or.inr ⟨name, n, [], by rw [Dict.get?_insert, if_pos rfl], hn⟩

namespace Followed
variable {interface : String} {rest : List String}
  (h : g.Followed actor start found (interface :: rest))
include h

/-- An interface that leads to no other actor needs no answer. -/
theorem skip (hrel : ∀ n, g.canonicallyRelated? interface = some n → n = actor) :
    g.Followed actor start found rest where
  nonempty := h.nonempty
  offered j hj := h.offered j (List.mem_cons_of_mem _ hj)
  answered j hj := by
    rcases h.answered j hj with hpending | hanswer
    · rcases List.mem_cons.mp hpending with rfl | hrest
      · exact Or.inr fun n hn => Or.inl (hrel n hn)
      · exact Or.inl hrest
    · exact Or.inr hanswer
  founded := h.founded

theorem add (hrel : g.canonicallyRelated? interface = some n) (hne : n ≠ actor) {name : String}
    (hname : name ∈ found.keys) : g.Followed actor start (addRelated found name n) rest where
  nonempty key nodes hget := by
    rw [get?_addRelated] at hget
    split at hget
    · cases hget
      simp
    · exact h.nonempty key nodes hget
  offered j hj :=
    (offered_addRelated hname h.nonempty).mpr (h.offered j (List.mem_cons_of_mem _ hj))
  answered j hj := by
    rcases h.answered j ((offered_addRelated hname h.nonempty).mp hj) with hpending | hanswer
    · rcases List.mem_cons.mp hpending with rfl | hrest
      · refine Or.inr fun m hm => Or.inr (foundIn_addRelated.mpr (Or.inr ?_))
        exact Option.some.inj (hm.symm.trans hrel)
      · exact Or.inl hrest
    · exact Or.inr fun m hm => (hanswer m hm).imp_right fun hm =>
        foundIn_addRelated.mpr (Or.inl hm)
  founded m hm := by
    have hoffered {j : String} (hj : g.Offered start found j) :
        g.Offered start (addRelated found name n) j := (offered_addRelated hname h.nonempty).mpr hj
    rcases foundIn_addRelated.mp hm with hm | rfl
    · obtain ⟨hma, j, hj, hjm⟩ := h.founded m hm
      exact ⟨hma, j, hoffered hj, hjm⟩
    · exact ⟨hne, interface, hoffered (h.offered _ List.mem_cons_self), hrel⟩

theorem enter (hrel : g.canonicallyRelated? interface = some n) (hne : n ≠ actor) {name : String}
    (hname : name ∉ found.keys) :
    g.Followed actor start (found.insert name [n]) (g.interfacesOf n ++ rest) where
  nonempty key nodes hget := by
    rw [Dict.get?_insert] at hget
    split at hget
    · cases hget
      simp
    · exact h.nonempty key nodes hget
  offered j hj := by
    rw [offered_insert hname]
    rcases List.mem_append.mp hj with hn | hrest
    · exact Or.inr hn
    · exact Or.inl (h.offered j (List.mem_cons_of_mem _ hrest))
  answered j hj := by
    rcases (offered_insert hname).mp hj with hold | hnew
    · rcases h.answered j hold with hpending | hanswer
      -- the interface taken up is answered now, and those of the new actor join the pending ones
      · rcases List.mem_cons.mp hpending with rfl | hrest
        · refine Or.inr fun m hm => Or.inr ((foundIn_insert hname).mpr (Or.inr ?_))
          exact Option.some.inj (hm.symm.trans hrel)
        · exact Or.inl (List.mem_append_right _ hrest)
      · exact Or.inr fun m hm => (hanswer m hm).imp_right fun hm =>
          (foundIn_insert hname).mpr (Or.inl hm)
    · exact Or.inl (List.mem_append_left _ hnew)
  founded m hm := by
    have hoffered {j : String} (hj : g.Offered start found j) :
        g.Offered start (found.insert name [n]) j := (offered_insert hname).mpr (Or.inl hj)
    rcases (foundIn_insert hname).mp hm with hm | rfl
    · obtain ⟨hma, j, hj, hjm⟩ := h.founded m hm
      exact ⟨hma, j, hoffered hj, hjm⟩
    · exact ⟨hne, interface, hoffered (h.offered _ List.mem_cons_self), hrel⟩

end Followed

theorem followed_collectRelated {pending : List String}
    (h : g.Followed actor start found pending) :
    g.Followed actor start (g.collectRelated actor found pending) [] := by
  fun_induction g.collectRelated actor found pending with
  | case1 found => exact h
  | case2 found interface rest hrel ih =>
    refine ih (h.skip fun n hn => ?_)
    rw [hrel] at hn
    cases hn
  | case3 found interface rest hrel ih =>
    exact ih (h.skip fun n hn => Option.some.inj (hn.symm.trans hrel))
  | case4 found interface rest n hrel hne hmem ih => exact ih (h.add hrel hne hmem)
  | case5 found interface rest n hrel hne hmem ih => exact ih (h.enter hrel hne hmem)

/-- The interfaces that are searched for canonical relationships: those of the core actor, and
those of the first actor related under each name. -/
def OffersRelated (g : LinkGraph) (actor : NodeId) (interface : String) : Prop :=
  (∃ core, g.compilation.type? (g.target actor).coreActor = some core ∧
    interface ∈ core.interfaces) ∨
  ∃ key n nodes, (g.additionalRelationships actor).get? key = some (n :: nodes) ∧
    interface ∈ g.interfacesOf n

/-- The related actors are the other actors that the searched interfaces name. -/
theorem foundIn_additionalRelationships_iff :
    FoundIn (g.additionalRelationships actor) n ↔
      n ≠ actor ∧ ∃ interface, g.OffersRelated actor interface ∧
        g.canonicallyRelated? interface = some n := by
  have hempty (m : NodeId) : ¬ FoundIn ∅ m := by
    rintro ⟨_, _, hget, _⟩
    cases hget
  cases hcore : g.compilation.type? (g.target actor).coreActor with
  | none =>
    have hnone : g.additionalRelationships actor = ∅ := by
      simp only [additionalRelationships, hcore]
    rw [hnone]
    refine iff_of_false (hempty n) ?_
    rintro ⟨_, interface, ⟨core, hsome, _⟩ | ⟨_, _, _, hget, _⟩, _⟩
    · rw [hcore] at hsome
      cases hsome
    · rw [hnone] at hget
      cases hget
  | some core =>
    have hsome : g.additionalRelationships actor
        = g.collectRelated actor ∅ core.interfaces := by
      simp only [additionalRelationships, hcore]
    -- before anything is found, all that is offered is pending
    have hstart : g.Followed actor core.interfaces ∅ core.interfaces := by
      refine ⟨fun _ _ hget => ?_, fun _ hj => Or.inl hj, fun _ hj => ?_,
        fun m hm => absurd hm (hempty m)⟩
      · cases hget
      · rcases hj with hj | ⟨_, _, _, hget, _⟩
        · exact Or.inl hj
        · cases hget
    have hend := followed_collectRelated hstart
    rw [← hsome] at hend
    have hoffers (interface : String) : g.OffersRelated actor interface ↔
        g.Offered core.interfaces (g.additionalRelationships actor) interface := by
      simp only [OffersRelated, Offered, hcore, Option.some.injEq, exists_eq_left']
    simp only [hoffers]
    constructor
    · exact hend.founded n
    · rintro ⟨hne, interface, hinterface, hrel⟩
      rcases hend.answered interface hinterface with hpending | hanswer
      · cases hpending
      · exact (hanswer n hrel).resolve_left hne

end Related

/-- No root with the property has a name before that of this one. -/
def Leads (g : LinkGraph) (P : NodeId → Prop) (n : NodeId) : Prop :=
  n ∈ g.roots ∧ P n ∧ ∀ m ∈ g.roots, P m → ¬ (g.target m).actor < (g.target n).actor

/-- The nodes that the state of a node holds because of their names. -/
inductive Selects (g : LinkGraph) (i : NodeId) : NodeId → Prop
  | target {s : ExtensionState} {p : ExtensionProperty} {n : NodeId} :
    g.extensionState? i = some s → p ∈ s.properties → p.target = some n → Selects g i n
  | overloadedBase {s : ExtensionState} {p : ExtensionProperty} {n : NodeId} :
    g.extensionState? i = some s → p ∈ s.properties → p.overloadedBase = some n → Selects g i n
  | related {s : ActorState} {n : NodeId} :
    g.actorState? i = some s → FoundIn s.additionalRelationships n → Selects g i n

/-- The name that properties of an extension give to an actor. -/
def nameFor (g : LinkGraph) (i n : NodeId) : String :=
  if (g.target i).isCore then (g.target n).actor else (g.target n).coreActor

/-- The words of a type text that could be actors of the assembly. -/
def actorWords (assembly : Assembly) (typeName : String) : List String :=
  (typeWords typeName).filter fun w =>
    w.startsWith assembly.name && (w.endsWith "Actor" || w.endsWith "Trait")

/-- The name of the actor of the assembly that a word stands for. -/
def wordActor (assembly : Assembly) (word : String) : String :=
  assembly.namespaceName ++ "." ++ word

/-- What a node asks for among the actors. The words of an unbound type are tried from the left, and
only if the text as a whole names no actor. -/
inductive Seeks (g : LinkGraph) (i : NodeId) : (NodeId → Prop) → Prop
  | type {symbol : TypeSymbol} {p : Symbol.Property} :
    g.extensionSymbol? i = some symbol → p ∈ symbol.properties →
    Seeks g i fun n => g.nameFor i n = p.typeName
  | word {symbol : TypeSymbol} {p : Symbol.Property} {before after : List String} {word : String} :
    g.extensionSymbol? i = some symbol → p ∈ symbol.properties → p.typeKind = .unknown →
    (∀ n ∈ g.roots, g.nameFor i n ≠ p.typeName) →
    actorWords (g.target i).assembly p.typeName = before ++ word :: after →
    (∀ w ∈ before, g.actor? (wordActor (g.target i).assembly w) = none) →
    Seeks g i fun n => (g.target n).actor = wordActor (g.target i).assembly word
  | base {symbol : TypeSymbol} {p : Symbol.Property} {interface : String} :
    g.extensionSymbol? i = some symbol → p ∈ symbol.properties →
    p.explicitInterface = some interface →
    Seeks g i fun n => ∃ c ∈ g.arena.children n,
      (g.extensionSymbol? c).map (·.name) = some interface
  | canonical {core : String} :
    g.arena.category i = .actor → g.OffersRelated i (core ++ ".CanonicalRelationship") →
    Seeks g i fun n => (g.target n).coreActor = core

section Lookups
variable {c : Compilation} {sch : Schematic} {targets : List Target}
  (h : Grounded c sch targets g) {name : String}
include h

theorem Grounded.pairwise_roots :
    g.roots.Pairwise fun m n => (g.target m).actor < (g.target n).actor := by
  rw [roots, Dict.values, List.pairwise_map]
  refine (List.pairwise_map.mp g.actors.ascending).imp_of_mem fun {e f} he hf hlt => ?_
  rwa [h.target_of_actor (Dict.mem_entries_iff.mp he),
    h.target_of_actor (Dict.mem_entries_iff.mp hf)]

theorem Grounded.leads_unique {P : NodeId → Prop} {m : NodeId} (hm : g.Leads P m)
    (hn : g.Leads P n) : m = n := by
  obtain ⟨hmroot, hmP, hmfirst⟩ := hm
  obtain ⟨hnroot, hnP, hnfirst⟩ := hn
  exact h.eq_of_mem_roots hmroot hnroot
    (eq_of_not_lt (hnfirst m hmroot hmP) (hmfirst n hnroot hnP))

/-- A search along the roots ends at the leading root for which it succeeds. -/
theorem Grounded.findSome?_roots {f : NodeId → Option NodeId} :
    g.roots.findSome? f = some n ↔ ∃ r, g.Leads (fun m => (f m).isSome) r ∧ f r = some n := by
  have hfound {k : NodeId} (hk : g.roots.findSome? f = some k) :
      ∃ r, g.Leads (fun m => (f m).isSome) r ∧ f r = some k := by
    obtain ⟨before, r, after, hsplit, hr, hbefore⟩ := List.findSome?_eq_some_iff.mp hk
    refine ⟨r, ⟨hsplit ▸ by simp, by simp [hr], fun m hm hsome => ?_⟩, hr⟩
    have horder := h.pairwise_roots
    rw [hsplit] at hm horder
    rcases List.mem_append.mp hm with hm | hm
    · simp [hbefore m hm] at hsome
    · rcases List.mem_cons.mp hm with rfl | hm
      · exact String.lt_irrefl _
      · have hlt := (List.pairwise_cons.mp (List.pairwise_append.mp horder).2.1).1 m hm
        exact fun hgt => String.lt_irrefl _ (String.lt_trans hlt hgt)
  refine ⟨hfound, ?_⟩
  rintro ⟨r, hr, hn⟩
  have hsome : (g.roots.findSome? f).isSome := by
    rw [List.isSome_findSome?, List.any_eq_true]
    exact ⟨r, hr.1, hr.2.1⟩
  obtain ⟨k, hk⟩ := Option.isSome_iff_exists.mp hsome
  obtain ⟨r', hr', hk'⟩ := hfound hk
  rw [h.leads_unique hr hr', hk'] at hn
  rw [hk, hn]

theorem Grounded.find?_roots {p : NodeId → Bool} :
    g.roots.find? p = some n ↔ g.Leads (fun m => p m = true) n := by
  rw [List.find?_eq_findSome?_guard, h.findSome?_roots]
  simp only [Option.guard_eq_some_iff, Option.isSome_guard]
  constructor
  · rintro ⟨r, hr, rfl, _⟩
    exact hr
  · intro hn
    exact ⟨n, hn, rfl, hn.2.1⟩

theorem Grounded.actorByCore?_eq_some :
    g.actorByCore? name = some n ↔ g.Leads (fun m => (g.target m).coreActor = name) n := by
  simp only [actorByCore?, h.find?_roots, beq_iff_eq]

theorem Grounded.actor?_eq_some :
    g.actor? name = some n ↔ g.Leads (fun m => (g.target m).actor = name) n := by
  constructor
  · intro hn
    have hname := h.target_of_actor hn
    refine ⟨mem_roots_iff.mpr ⟨name, hn⟩, hname, fun m _ hm => ?_⟩
    rw [hm, hname]
    exact String.lt_irrefl name
  · rintro ⟨hroot, rfl, _⟩
    obtain ⟨name, hn⟩ := mem_roots_iff.mp hroot
    rwa [h.target_of_actor hn]

theorem Grounded.templateExtension?_eq_some :
    g.templateExtension? name = some n ↔
      ∃ r, g.Leads (fun m => ∃ c ∈ g.arena.children m,
          (g.extensionSymbol? c).map (·.name) = some name) r ∧
        (g.arena.children r).find? (fun c => (g.extensionSymbol? c).map (·.name) == some name)
          = some n := by
  simp only [templateExtension?, h.findSome?_roots, List.find?_isSome, beq_iff_eq]

theorem Grounded.canonicallyRelated?_eq_some {interface : String} :
    g.canonicallyRelated? interface = some n ↔
      ∃ core, interface = core ++ ".CanonicalRelationship" ∧
        g.Leads (fun m => (g.target m).coreActor = core) n := by
  simp only [canonicallyRelated?, Option.bind_eq_some_iff, h.actorByCore?_eq_some,
    Text.stripSuffix?_eq_some]

theorem Grounded.direct_eq : (if (g.target i).isCore then g.actor? name else g.actorByCore? name)
    = g.roots.find? fun m => g.nameFor i m == name := by
  apply Option.ext
  intro n
  cases hcore : (g.target i).isCore with
  | true => simp [nameFor, hcore, h.find?_roots, h.actor?_eq_some]
  | false => simp [nameFor, hcore, h.find?_roots, h.actorByCore?_eq_some]

theorem Grounded.mentionedActor?_eq_some {assembly : Assembly} :
    g.mentionedActor? assembly name = some n ↔ ∃ before word after,
      actorWords assembly name = before ++ word :: after ∧
      (∀ w ∈ before, g.actor? (wordActor assembly w) = none) ∧
      g.Leads (fun m => (g.target m).actor = wordActor assembly word) n := by
  simp only [← h.actor?_eq_some]
  exact List.findSome?_eq_some_iff.trans
    ⟨fun ⟨before, word, after, hsplit, hword, hbefore⟩ =>
      ⟨before, word, after, hsplit, hbefore, hword⟩,
    fun ⟨before, word, after, hsplit, hbefore, hword⟩ =>
      ⟨before, word, after, hsplit, hword, hbefore⟩⟩

theorem Grounded.propertyTarget?_of_leads {p : Symbol.Property}
    (hn : g.Leads (fun m => g.nameFor i m = p.typeName) n) : g.propertyTarget? i p = some n := by
  have hfind : (g.roots.find? fun m => g.nameFor i m == p.typeName) = some n := by
    simpa [h.find?_roots] using hn
  simp only [propertyTarget?, h.direct_eq, hfind]

theorem Grounded.propertyTarget?_of_unnamed {p : Symbol.Property}
    (hnone : ∀ m ∈ g.roots, g.nameFor i m ≠ p.typeName) : g.propertyTarget? i p =
      if p.typeKind ≠ .unknown then none
      else match g.mentionedActor? (g.target i).assembly p.typeName with
        | some n => some n
        | none => if hasLinkShape p.typeName then g.actorRoot? i else none := by
  have hfind : (g.roots.find? fun m => g.nameFor i m == p.typeName) = none := by
    simpa using hnone
  have hdirect := h.direct_eq.trans hfind
  simp only [propertyTarget?]
  revert hdirect
  generalize (if (g.target i).isCore then g.actor? p.typeName
    else g.actorByCore? p.typeName) = direct
  rintro rfl
  rfl

theorem Grounded.target_of_actorRoot? (hn : g.actorRoot? i = some n) :
    g.target n = g.target i := by
  unfold actorRoot? at hn
  split at hn
  · cases hn
    rfl
  · exact h.target_of_mem_parents (List.mem_of_find?_eq_some hn)

end Lookups

section Visited
variable {c : Compilation} {sch : Schematic} {targets : List Target}
  (hv : Visits (ofTargets c sch targets) g)
include hv

/-- The target of a property is the first actor for some name asked for, or of the node's own
target. -/
theorem exists_leads_of_propertyTarget? {symbol : TypeSymbol} {p : Symbol.Property}
    (hsymbol : g.extensionSymbol? i = some symbol) (hp : p ∈ symbol.properties)
    (hn : g.propertyTarget? i p = some n) :
    g.target n = g.target i ∨ ∃ P, g.Seeks i P ∧ g.Leads P n := by
  have hg := hv.grounded
  by_cases hnamed : ∃ m, g.Leads (fun m => g.nameFor i m = p.typeName) m
  · obtain ⟨m, hm⟩ := hnamed
    rw [hg.propertyTarget?_of_leads hm] at hn
    cases hn
    exact Or.inr ⟨_, .type hsymbol hp, hm⟩
  · have hnone : ∀ m ∈ g.roots, g.nameFor i m ≠ p.typeName := by
      cases hfind : g.roots.find? fun m => g.nameFor i m == p.typeName with
      | none => simpa using hfind
      | some m => exact absurd ⟨m, by simpa using hg.find?_roots.mp hfind⟩ hnamed
    -- a type that is not known is looked for by the words that its name mentions
    rw [hg.propertyTarget?_of_unnamed hnone] at hn
    split at hn
    · cases hn
    · next hkind =>
      have hunknown : p.typeKind = .unknown := Decidable.not_not.mp hkind
      split at hn
      · next m hmentioned =>
        cases hn
        obtain ⟨before, word, after, hsplit, hbefore, hword⟩ :=
          hg.mentionedActor?_eq_some.mp hmentioned
        exact Or.inr ⟨_, .word hsymbol hp hunknown hnone hsplit hbefore, hword⟩
      · split at hn
        · exact Or.inl (hg.target_of_actorRoot? hn)
        · cases hn

/-- What is selected belongs to the first actor for some name asked for, or to the node's own. -/
theorem exists_leads_of_selects (hn : g.Selects i n) : g.target n = g.target i ∨
    ∃ P r, g.Seeks i P ∧ g.Leads P r ∧ g.target n = g.target r := by
  have hg := hv.grounded
  cases hn with
  | @target s p _ hs hp hn =>
    obtain ⟨symbol, hsymbol, hproperties⟩ := hv.recorded.exists_extensionSymbol hs
    rw [hproperties] at hp
    obtain ⟨q, hq, rfl⟩ := List.mem_map.mp hp
    exact (exists_leads_of_propertyTarget? hv hsymbol hq hn).imp_right
      fun ⟨P, hP, hlead⟩ => ⟨P, n, hP, hlead, rfl⟩
  | @overloadedBase s p _ hs hp hn =>
    obtain ⟨symbol, hsymbol, hproperties⟩ := hv.recorded.exists_extensionSymbol hs
    rw [hproperties] at hp
    obtain ⟨q, hq, rfl⟩ := List.mem_map.mp hp
    replace hn : q.explicitInterface.bind g.templateExtension? = some n := hn
    -- the base is an extension of the actor that leads, so it has its target
    obtain ⟨interface, hinterface, hn⟩ := Option.bind_eq_some_iff.mp hn
    obtain ⟨r, hr, hfind⟩ := hg.templateExtension?_eq_some.mp hn
    have hchild := Arena.mem_children_iff.mp (List.mem_of_find?_eq_some hfind)
    exact Or.inr ⟨_, r, .base hsymbol hq hinterface, hr, hg.target_of_parent hchild⟩
  | @related s _ hs hn =>
    obtain ⟨v, hstate, hdetail⟩ := actorState?_eq_some.mp hs
    have hactor : g.ActorAt i s v.ancestors := ⟨v, hstate, hdetail, rfl⟩
    have hcategory := (hv.fitting hstate).1
    rw [hdetail] at hcategory
    rw [(hv.recorded.actorAt_eq hactor).2.2] at hn
    obtain ⟨_, interface, hinterface, hrelated⟩ := foundIn_additionalRelationships_iff.mp hn
    obtain ⟨core, rfl, hleads⟩ := hg.canonicallyRelated?_eq_some.mp hrelated
    exact Or.inr ⟨_, n, .canonical hcategory.symm hinterface, hleads, rfl⟩

theorem exists_extensionState (hvisited : g.isVisited = true) {symbol : TypeSymbol}
    (hi : i < g.arena.size) (hsymbol : g.extensionSymbol? i = some symbol) :
    ∃ s, g.extensionState? i = some s ∧
      ∀ p ∈ symbol.properties, g.classify i p ∈ s.properties := by
  obtain ⟨v, hstate⟩ := (isVisited_iff.mp hvisited).2 i (hv.progress.size_eq ▸ hi)
  have hkind : g.arena.kind i = .extension symbol := by
    unfold extensionSymbol? at hsymbol
    split at hsymbol
    · next hk =>
      cases hsymbol
      exact hk
    · cases hsymbol
  have hcategory := (hv.fitting hstate).1
  rw [Arena.category, hkind] at hcategory
  cases hd : v.detail with
  | extension s =>
    have hs := extensionState?_eq_some.mpr ⟨v, hstate, hd⟩
    obtain ⟨symbol', hsymbol', hproperties⟩ := hv.recorded.exists_extensionSymbol hs
    rw [hsymbol] at hsymbol'
    cases hsymbol'
    exact ⟨s, hs, fun p hp => hproperties ▸ List.mem_map_of_mem hp⟩
  | _ => simp [hd, NodeDetail.category, NodeKind.category] at hcategory

/-- In a visited graph the first actor for each name asked for is selected, with the extension below
it if the name is that of an extension. -/
theorem exists_selects_of_leads (hvisited : g.isVisited = true) (hi : i < g.arena.size)
    {P : NodeId → Prop} {r : NodeId} (hP : g.Seeks i P) (hr : g.Leads P r) :
    g.target r = g.target i ∨ ∃ n, g.Selects i n ∧ g.target n = g.target r := by
  have hg := hv.grounded
  cases hP with
  | type hsymbol hp =>
    obtain ⟨s, hs, hclassified⟩ := exists_extensionState hv hvisited hi hsymbol
    exact Or.inr ⟨r, .target hs (hclassified _ hp) (hg.propertyTarget?_of_leads hr), rfl⟩
  | word hsymbol hp hunknown hnone hsplit hbefore =>
    obtain ⟨s, hs, hclassified⟩ := exists_extensionState hv hvisited hi hsymbol
    have hmentioned := hg.mentionedActor?_eq_some.mpr ⟨_, _, _, hsplit, hbefore, hr⟩
    have htarget := hg.propertyTarget?_of_unnamed hnone
    rw [if_neg (not_not_intro hunknown), hmentioned] at htarget
    exact Or.inr ⟨r, .target hs (hclassified _ hp) htarget, rfl⟩
  | @base symbol p interface hsymbol hp hinterface =>
    obtain ⟨s, hs, hclassified⟩ := exists_extensionState hv hvisited hi hsymbol
    obtain ⟨child, hchild, hname⟩ := hr.2.1
    have hsome : ((g.arena.children r).find? fun c =>
        (g.extensionSymbol? c).map (·.name) == some interface).isSome :=
      List.find?_isSome.mpr ⟨child, hchild, beq_iff_eq.mpr hname⟩
    obtain ⟨n, hfind⟩ := Option.isSome_iff_exists.mp hsome
    have htemplate := hg.templateExtension?_eq_some.mpr ⟨r, hr, hfind⟩
    have hbase : (g.classify i p).overloadedBase = some n := by
      show p.explicitInterface.bind g.templateExtension? = some n
      rw [hinterface]
      exact htemplate
    have hparent := Arena.mem_children_iff.mp (List.mem_of_find?_eq_some hfind)
    exact Or.inr ⟨n, .overloadedBase hs (hclassified p hp) hbase, hg.target_of_parent hparent⟩
  | canonical hcategory hoffers =>
    have hrelated := hg.canonicallyRelated?_eq_some.mpr ⟨_, rfl, hr⟩
    -- an actor is not related to itself, but has its own target in any case
    by_cases hself : r = i
    · exact Or.inl (congrArg g.target hself)
    · have hisActor : (g.arena.kind i).isActor = true := beq_iff_eq.mpr hcategory
      obtain ⟨name, hname⟩ := mem_roots_iff.mp (hg.mem_roots_of_isActor hi hisActor)
      obtain ⟨s, as, hs⟩ := exists_actorAt hv hvisited hname
      refine Or.inr ⟨r, .related hs.actorState?_eq ?_, rfl⟩
      rw [(hv.recorded.actorAt_eq hs).2.2]
      exact foundIn_additionalRelationships_iff.mpr ⟨hself, _, hoffers, hrelated⟩

/-- A node selects nodes of its own assembly only, exactly when the first actor, by name, for each
name that it asks for is of that assembly. -/
theorem selects_own_assembly_iff (hvisited : g.isVisited = true) (hi : i < g.arena.size) :
    (∀ n, g.Selects i n → (g.target n).assembly = (g.target i).assembly) ↔
      ∀ P r, g.Seeks i P → g.Leads P r → (g.target r).assembly = (g.target i).assembly := by
  constructor
  · intro hown P r hP hr
    rcases exists_selects_of_leads hv hvisited hi hP hr with hsame | ⟨n, hn, hsame⟩
    · rw [hsame]
    · rw [← hsame]
      exact hown n hn
  · intro hfirst n hn
    rcases exists_leads_of_selects hv hn with hsame | ⟨P, r, hP, hr, hsame⟩
    · rw [hsame]
    · rw [hsame]
      exact hfirst P r hP hr

end Visited

/-- The channel of an assembly. -/
def channelTarget : Assembly → Target
  | .core =>
    { actor := "Discord.IChannelActor", entity := "Discord.IChannel", id := "ulong"
      model := "Discord.Models.IChannelModel" }
  | assembly => pairTarget assembly "Channel"

/-- The channel has an extension, and the extension a property that leads back to the channel. -/
def echoTypes : Compilation := .ofTypes
  [{ name := "Discord.IChannelActor", kind := .interface },
   { name := "Discord.IChannelActor.Pins"
     kind := .interface
     containingType := some "Discord.IChannelActor"
     attributes := [{ className := "Discord.LinkExtensionAttribute" }]
     properties := [{ name := "Channel", typeName := "Discord.IChannelActor"
                      typeKind := .interface
                      attributes := [{ className := "Discord.LinkMirrorAttribute" }] }] }]

def echoGraph (assemblies : List Assembly) : LinkGraph :=
  ofTargets echoTypes ⟨⟨"Discord.ILinkType", [], [], []⟩⟩ (assemblies.map channelTarget)

theorem quiet_echoGraph {assemblies : List Assembly}
    (h : assemblies = [.rest] ∨ assemblies = [.core, .rest]) :
    0 < (echoGraph assemblies).arena.size ∧
      ∀ i < (echoGraph assemblies).arena.size, (echoGraph assemblies).complaint? i = none := by
  rcases h with rfl | rfl <;> decide +kernel

/-- What the only property of the extension leads to. -/
theorem selects_echo {assemblies : List Assembly} {i n : NodeId}
    (hv : Visits (echoGraph assemblies) g) (hvisited : g.isVisited = true) (hi : i < g.arena.size)
    (hproperties : ((echoGraph assemblies).extensionSymbol? i).map (·.properties.map fun p =>
      (echoGraph assemblies).propertyTarget? i p) = some [some n]) : g.Selects i n := by
  have hprogress : Progress (echoGraph assemblies) [] g := hv.progress
  have hsame : g.extensionSymbol? i = (echoGraph assemblies).extensionSymbol? i := by
    rw [hprogress.same]
    rfl
  obtain ⟨symbol, hsymbol, htargets⟩ := Option.map_eq_some_iff.mp hproperties
  obtain ⟨p, hp, htarget⟩ := List.mem_map.mp (htargets ▸ List.mem_singleton.mpr rfl :
    some n ∈ symbol.properties.map ((echoGraph assemblies).propertyTarget? i))
  obtain ⟨s, hs, hclassified⟩ := exists_extensionState hv hvisited hi (hsame.trans hsymbol)
  refine .target hs (hclassified p hp) ?_
  show g.propertyTarget? i p = some n
  rw [← htarget, hprogress.same]
  rfl

/-- Where there is one channel only, its extension leads back to it. -/
theorem selects_own_assembly_iff_sample : (echoGraph [.rest]).visit.1.Selects 2 0 ∧
    ∀ n, (echoGraph [.rest]).visit.1.Selects 2 n →
      ((echoGraph [.rest]).visit.1.target n).assembly = .rest := by
  have hvisited : (echoGraph [.rest]).visit.1.isVisited = true :=
    (visited_of_quiet (quiet_echoGraph (Or.inl rfl))).2
  have hv : Visits (echoGraph [.rest]) (echoGraph [.rest]).visit.1 := .again .refl
  have hprogress : Progress (echoGraph [.rest]) [] (echoGraph [.rest]).visit.1 := hv.progress
  have hnodes : 2 < (echoGraph [.rest]).arena.size ∧ (echoGraph [.rest]).roots = [0] ∧
      ((echoGraph [.rest]).target 0).assembly = .rest ∧
      ((echoGraph [.rest]).target 2).assembly = .rest ∧
      ((echoGraph [.rest]).extensionSymbol? 2).map (·.properties.map fun p =>
        (echoGraph [.rest]).propertyTarget? 2 p) = some [some 0] := by
    decide +kernel
  obtain ⟨hlt, hroots, hactor, hextension, hproperties⟩ := hnodes
  rw [← hprogress.target_eq] at hactor hextension
  have hroots' : (echoGraph [.rest]).visit.1.roots = [0] := by
    rw [roots, hprogress.actors_eq]
    exact hroots
  have hi : 2 < (echoGraph [.rest]).visit.1.arena.size := hprogress.arena_eq ▸ hlt
  refine ⟨selects_echo hv hvisited hi hproperties, fun n hn => ?_⟩
  refine ((selects_own_assembly_iff hv hvisited hi).mpr (fun P r _ hr => ?_) n hn).trans hextension
  have hr0 : r ∈ [0] := hroots' ▸ hr.1
  rw [List.mem_singleton.mp hr0, hactor, hextension]

/-- The extension of the rest channel leads to the core channel, whose name comes first. -/
theorem core_selected_from_rest : (echoGraph [.core, .rest]).visit.2 = none ∧
    (echoGraph [.core, .rest]).visit.1.isVisited = true ∧
    ((echoGraph [.core, .rest]).visit.1.target 6).assembly = .rest ∧
    (echoGraph [.core, .rest]).visit.1.Selects 6 0 ∧
    ((echoGraph [.core, .rest]).visit.1.target 0).assembly = .core := by
  obtain ⟨hok, hvisited⟩ : (echoGraph [.core, .rest]).visit.2 = none ∧
      (echoGraph [.core, .rest]).visit.1.isVisited = true :=
    visited_of_quiet (quiet_echoGraph (Or.inr rfl))
  have hv : Visits (echoGraph [.core, .rest]) (echoGraph [.core, .rest]).visit.1 := .again .refl
  have hprogress : Progress (echoGraph [.core, .rest]) [] (echoGraph [.core, .rest]).visit.1 :=
    hv.progress
  have hnodes : 6 < (echoGraph [.core, .rest]).arena.size ∧
      ((echoGraph [.core, .rest]).target 6).assembly = .rest ∧
      ((echoGraph [.core, .rest]).target 0).assembly = .core ∧
      ((echoGraph [.core, .rest]).extensionSymbol? 6).map (·.properties.map fun p =>
        (echoGraph [.core, .rest]).propertyTarget? 6 p) = some [some 0] := by
    decide +kernel
  obtain ⟨hlt, hrest, hcore, hproperties⟩ := hnodes
  rw [← hprogress.target_eq] at hrest hcore
  have hi : 6 < (echoGraph [.core, .rest]).visit.1.arena.size := hprogress.arena_eq ▸ hlt
  exact ⟨hok, hvisited, hrest, selects_echo hv hvisited hi hproperties, hcore⟩

end ActorLinks.LinkGraph
