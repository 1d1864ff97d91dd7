import ActorLinks.Proofs.Text.Names
import ActorLinks.Source
import Mathlib.Data.List.Infix
import Mathlib.Data.List.Nodup

/-! # Aliases

Every target is given two short names, unless an earlier target has taken them. That is one of the
same assembly with the same friendly name, or, between the core assembly and another one, a target
whose short names read the same. The latter takes a core target in whose name the words of an
assembly are left after they have been removed once.
-/
namespace ActorLinks

namespace Text

/-- A word that does not occur in a text is not removed from it. -/
theorem eraseWord_eq_self {word cs : List Char} (h : ¬ word <:+: cs) :
    eraseWord word 0 cs = cs := by
  induction cs with
  | nil => rfl
  | cons c cs ih =>
    have hprefix : ¬ word.isPrefixOf (c :: cs) = true := fun hp =>
      h (List.isPrefixOf_iff_prefix.mp hp).isInfix
    rw [eraseWord, if_neg hprefix, ih fun hrest => h (hrest.trans (List.suffix_cons c cs).isInfix)]

theorem erase_eq_self {word name : String} (h : ¬ word.toList <:+: name.toList) :
    erase word name = name := by
  rw [erase, eraseWord_eq_self h, String.ofList_toList]

end Text

/-- The name of a type without the words that every actor carries, but for those of assemblies. -/
def bareName (typeName : String) (kind : TypeKind) : String :=
  let name := Text.simpleName typeName
  let name := if kind = .interface then Text.dropFirstByte name else name
  Text.erase "Actor" (Text.erase "Trait" name)

theorem friendlyName_eq (typeName : String) (kind : TypeKind) : friendlyName typeName kind
    = Text.erase "Rest" (Text.erase "Gateway" (bareName typeName kind)) := rfl

/-- Where the name of an assembly other than core is left at the start of a friendly name, such a
name stood there before. -/
theorem exists_assembly_infix {typeName rest : String} {kind : TypeKind} {a : Assembly}
    (ha : a ≠ .core) (h : friendlyName typeName kind = a.name ++ rest) :
    ∃ b : Assembly, b ≠ .core ∧ b.name.toList <:+: (bareName typeName kind).toList := by
  rw [friendlyName_eq] at h
  by_cases hgateway : "Gateway".toList <:+: (bareName typeName kind).toList
  · exact ⟨.gateway, nofun, hgateway⟩
  · rw [Text.erase_eq_self hgateway] at h
    by_cases hrest : "Rest".toList <:+: (bareName typeName kind).toList
    · exact ⟨.rest, nofun, hrest⟩
    · -- nothing has been removed, so the assembly's name stands there now
      rw [Text.erase_eq_self hrest] at h
      exact ⟨a, ha, h ▸ String.toList_append ▸ (List.prefix_append _ _).isInfix⟩

section Stems
variable (c : Compilation)

/-- The kind that an actor has in its short names: an actor that is not declared counts as an
interface in the core assembly, and as a class elsewhere. -/
def Target.actorKind (t : Target) : TypeKind :=
  match c.type? t.actor with
  | some s => s.kind
  | none => if t.isCore then .interface else .classType

def Target.friendly (t : Target) : String := friendlyName t.actor (t.actorKind c)

/-- The core target is named as the other one with its assembly in front. -/
def Rivals (t u : Target) : Prop :=
  t.isCore = true ∧ u.isCore = false ∧ t.friendly c = u.assembly.name ++ u.friendly c

instance (t u : Target) : Decidable (Rivals c t u) :=
  inferInstanceAs (Decidable (_ ∧ _ ∧ _))

/-- Two targets would be given the same short names. -/
def Compete (t u : Target) : Prop :=
  (t.assembly = u.assembly ∧ t.friendly c = u.friendly c) ∨ Rivals c t u ∨ Rivals c u t

instance (t u : Target) : Decidable (Compete c t u) :=
  inferInstanceAs (Decidable ((_ ∧ _) ∨ _ ∨ _))

variable {c} {t u : Target}

theorem aliasStem_eq : aliasStem c t
    = if t.isCore then t.friendly c else t.assembly.name ++ t.friendly c := rfl

theorem isCore_iff : t.isCore = true ↔ t.assembly = .core := beq_iff_eq

/-- Names with an assembly in front are told apart by it. -/
theorem Assembly.name_append_inj {a b : Assembly} {x y : String} (ha : a ≠ .core) (hb : b ≠ .core) :
    a.name ++ x = b.name ++ y ↔ a = b ∧ x = y := by
  have hgateway (v w : String) : "Gateway" ++ v ≠ "Rest" ++ w := fun heq => by
    have hhead := congrArg String.toList heq
    rw [String.toList_append, String.toList_append] at hhead
    cases hhead
  cases a with
  | core => exact absurd rfl ha
  | rest =>
    cases b with
    | core => exact absurd rfl hb
    | rest => simp
    | gateway => simpa [Assembly.name] using (hgateway y x).symm
  | gateway =>
    cases b with
    | core => exact absurd rfl hb
    | rest => simpa [Assembly.name] using hgateway x y
    | gateway => simp

theorem aliasStem_eq_iff : aliasStem c t = aliasStem c u ↔ Compete c t u := by
  rw [aliasStem_eq, aliasStem_eq, Compete, Rivals, Rivals]
  cases ht : t.isCore with
  | true =>
    cases hu : u.isCore with
    | true => simp [isCore_iff.mp ht, isCore_iff.mp hu]
    | false =>
      have hne : t.assembly ≠ u.assembly := fun heq => by
        rw [isCore_iff.mp ht, eq_comm, ← isCore_iff, hu] at heq
        cases heq
      simp [hne]
  | false =>
    have htne : t.assembly ≠ .core := fun heq => by simp [isCore_iff.mpr heq] at ht
    cases hu : u.isCore with
    | true => simp [isCore_iff.mp hu, htne, eq_comm]
    | false =>
      have hune : u.assembly ≠ .core := fun heq => by simp [isCore_iff.mpr heq] at hu
      simp [Assembly.name_append_inj htne hune]

/-- Rivals are named after an assembly before any word of an assembly is removed. -/
theorem Rivals.exists_infix (h : Rivals c t u) : ∃ a : Assembly, a ≠ .core ∧
    a.name.toList <:+: (bareName t.actor (t.actorKind c)).toList := by
  obtain ⟨_, hu, hname⟩ := h
  have hassembly : u.assembly ≠ .core := beq_eq_false_iff_ne.mp hu
  exact exists_assembly_infix hassembly hname

end Stems

section Kept
variable (c : Compilation) (ts : List Target) (t : Target)

theorem aliasTargets_concat : aliasTargets c (ts ++ [t])
    = if aliasStem c t ∈ (aliasTargets c ts).map Prod.fst then aliasTargets c ts
      else aliasTargets c ts ++ [(aliasStem c t, t)] := by
  have hany : ((aliasTargets c ts).any fun k => k.1 == aliasStem c t) = true ↔
      aliasStem c t ∈ (aliasTargets c ts).map Prod.fst := by
    simp [List.any_eq_true]
  rw [← if_congr hany rfl rfl, aliasTargets, List.foldl_concat]
  rfl

variable {c ts t}

/-- The stems that are taken are those of all targets. -/
theorem mem_stems {stem : String} :
    stem ∈ (aliasTargets c ts).map Prod.fst ↔ ∃ u ∈ ts, aliasStem c u = stem := by
  induction ts using List.reverseRecOn with
  | nil => simp [aliasTargets]
  | append_singleton ts t ih =>
    have hsplit : (∃ u ∈ ts ++ [t], aliasStem c u = stem) ↔
        (∃ u ∈ ts, aliasStem c u = stem) ∨ aliasStem c t = stem := by
      simp [or_and_right, exists_or]
    rw [hsplit, aliasTargets_concat]
    split
    · next htaken =>
      rw [ih, iff_self_or]
      rintro rfl
      exact ih.mp htaken
    · rw [List.map_append, List.mem_append, ih, List.map_singleton, List.mem_singleton, eq_comm]

theorem nodup_stems : ((aliasTargets c ts).map Prod.fst).Nodup := by
  induction ts using List.reverseRecOn with
  | nil => exact List.nodup_nil
  | append_singleton ts t ih =>
    rw [aliasTargets_concat]
    split
    · exact ih
    · next hfree =>
      rw [List.map_append, List.map_singleton]
      exact ih.append (List.nodup_singleton _) (by simpa using hfree)

end Kept

section Declarations

/-- The short names of a target, each with what it stands for. -/
def shortNames (stem : String) (t : Target) : List (String × String) :=
  [(stem ++ "Link", t.link), (stem ++ "LinkType", t.linkType)]

def aliasDeclaration (shortName : String × String) : String :=
  "global using " ++ shortName.1 ++ " = " ++ shortName.2 ++ ";\n"

theorem aliasDeclaration_mk (name meaning : String) :
    aliasDeclaration (name, meaning) = "global using " ++ name ++ " = " ++ meaning ++ ";\n" := rfl

/-- What the text declares for a target with the stem. -/
def aliasLines (stem : String) (t : Target) : String :=
  String.join ((shortNames stem t).map aliasDeclaration)

def declaredAliases (c : Compilation) (ts : List Target) : List (String × String) :=
  (aliasTargets c ts).flatMap fun k => shortNames k.1 k.2

variable {c : Compilation} {ts : List Target} {t : Target}

theorem aliasText_eq_join :
    aliasText c ts = String.join ((aliasTargets c ts).map fun k => aliasLines k.1 k.2) := by
  -- the literals of the text end where those of a declaration do not
  have hlink : "Link = " = "Link" ++ " = " := rfl
  have hlinkType : "LinkType = " = "LinkType" ++ " = " := rfl
  have hnext : ";\nglobal using " = ";\n" ++ "global using " := rfl
  rw [aliasText]
  refine congrArg String.join (List.map_congr_left fun k _ => ?_)
  rw [aliasLines, shortNames, hlink, hlinkType, hnext]
  simp only [List.map_cons, List.map_nil, aliasDeclaration_mk, String.join_cons, String.join_nil,
    String.append_assoc, String.append_empty, toString]

theorem aliasText_eq_declarations :
    aliasText c ts = String.join ((declaredAliases c ts).map aliasDeclaration) := by
  apply String.toList_injective
  rw [aliasText_eq_join]
  simp only [declaredAliases, aliasLines, String.toList_join, List.flatMap_map, List.map_flatMap,
    List.flatMap_assoc]

/-- The two kinds of short names end differently. -/
theorem link_ne_linkType (stem other : String) : stem ++ "Link" ≠ other ++ "LinkType" := by
  intro heq
  have hlast := congrArg (fun s => s.toList.getLast?) heq
  simp [List.getLast?_append] at hlast

theorem nodup_declaredAliases : ((declaredAliases c ts).map Prod.fst).Nodup := by
  rw [declaredAliases, List.map_flatMap, List.nodup_flatMap]
  refine ⟨fun k _ => ?_, (List.pairwise_map.mp nodup_stems).imp fun {k l} hne => ?_⟩
  · simp [shortNames]
  · simp [Function.onFun, shortNames, hne.symm, link_ne_linkType, (link_ne_linkType _ _).symm]

/-- Every target adds its two declarations, unless it competes with one before it. -/
theorem aliasText_concat : aliasText c (ts ++ [t])
    = aliasText c ts ++ if ∃ u ∈ ts, Compete c u t then "" else aliasLines (aliasStem c t) t := by
  have htaken : aliasStem c t ∈ (aliasTargets c ts).map Prod.fst ↔ ∃ u ∈ ts, Compete c u t := by
    simp only [mem_stems, aliasStem_eq_iff]
  rw [aliasText_eq_join, aliasText_eq_join, aliasTargets_concat, if_congr htaken rfl rfl]
  split
  · rw [String.append_empty]
  · apply String.toList_injective
    simp [String.toList_join]

end Declarations

/-- No short name is declared twice. A target is left without any just where one before it competes
with it: one of its assembly with its friendly name or, where one of the two is a core target, a
rival. The core target is then named after an assembly before words are removed from its name. -/
theorem aliases_distinct (c : Compilation) :
    (∀ ts, aliasText c ts = String.join ((declaredAliases c ts).map aliasDeclaration) ∧
      ((declaredAliases c ts).map Prod.fst).Nodup) ∧
    (∀ before t, aliasText c (before ++ [t]) = aliasText c before
      ++ if ∃ u ∈ before, Compete c u t then "" else aliasLines (aliasStem c t) t) ∧
    ∀ t u, Rivals c t u → ∃ a : Assembly, a ≠ .core ∧
      a.name.toList <:+: (bareName t.actor (t.actorKind c)).toList :=
  ⟨fun _ => ⟨aliasText_eq_declarations, nodup_declaredAliases⟩, fun _ _ => aliasText_concat,
    fun _ _ => Rivals.exists_infix⟩

def restGuild : Target where
  actor := "Discord.Rest.RestGuildActor"
  entity := "Discord.Rest.RestGuild"
  id := "ulong"
  model := "Discord.Models.IGuildModel"
  assembly := .rest
  declaredCoreActor := some "Discord.IGuildActor"
  declaredCoreEntity := some "Discord.IGuild"

/-- What is left of the name without `Rest` starts with `Rest` again. -/
def reReststGuild : Target where
  actor := "Discord.IReReststGuildActor"
  entity := "Discord.IReReststGuild"
  id := "ulong"
  model := "Discord.Models.IReReststGuildModel"

theorem aliases_distinct_rivals : Rivals {} reReststGuild restGuild ∧
    ∃ a : Assembly, a ≠ .core ∧
      a.name.toList <:+: (bareName reReststGuild.actor .interface).toList := by
  obtain ⟨_, _, hrivals⟩ := aliases_distinct {}
  have hrival : Rivals {} reReststGuild restGuild := by decide +kernel
  exact ⟨hrival, hrivals _ _ hrival⟩

/-- A core target has no short names after a target of another assembly. -/
theorem core_alias_dropped : restGuild.isCore = false ∧ reReststGuild.isCore = true ∧
    aliasText {} [restGuild, reReststGuild] = aliasText {} [restGuild] ∧
    aliasText {} [reReststGuild] ≠ "" := by
  decide +kernel

end ActorLinks
