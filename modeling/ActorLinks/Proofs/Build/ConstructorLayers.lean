import ActorLinks.Proofs.Build.Constructors

/-! # Constructors on top of one another

A class keeps the parameters of its base in front of those that it adds, whatever the names of the
classes and of their properties. So the constructor of any class further down takes the first of its
parameters, and the call of the base passes on what the base takes.
-/
namespace ActorLinks

/-- The implementation of a class on top of its bases, each with its name and its properties. -/
def Implementation.layered : List (String × List ImplProperty) → Implementation
  | [] => {}
  | layer :: bases => .ofProperties layer.1 layer.2 (layered bases).constructors

namespace ConstructorChain

theorem prefix_addParameter (ps : List Decl.Parameter) (p : ImplParameter) :
    ps <+: addParameter ps p := by
  unfold addParameter
  split
  · exact List.prefix_rfl
  · exact List.prefix_append _ _

theorem prefix_foldl_addParameter (xs : List ImplParameter) (ps : List Decl.Parameter) :
    ps <+: xs.foldl addParameter ps := by
  induction xs generalizing ps with
  | nil => exact List.prefix_rfl
  | cons x xs ih => exact (prefix_addParameter ps x).trans (ih (addParameter ps x))

/-- What is taken further down the chain comes first. -/
theorem prefix_of_suffix {lower chain : ConstructorChain} (h : lower <:+ chain) :
    lower.parameters <+: chain.parameters := by
  induction chain with
  | nil =>
    obtain rfl := List.suffix_nil.mp h
    exact List.prefix_rfl
  | cons layer base ih =>
    rcases List.suffix_cons_iff.mp h with rfl | hbase
    · exact List.prefix_rfl
    · apply (ih hbase).trans
      exact prefix_foldl_addParameter layer.parameters (parameters base)

theorem constructors_layered (layers : List (String × List ImplProperty)) :
    (Implementation.layered layers).constructors
      = layers.map fun layer => layerOf layer.1 layer.2 := by
  induction layers with
  | nil => rfl
  | cons layer bases ih => exact congrArg (layerOf layer.1 layer.2 :: ·) ih

theorem baseArguments_of_decl? {layer : ConstructorLayer} {base : ConstructorChain}
    {d : Decl.Constructor} (hd : decl? (layer :: base) = some d) :
    d.baseArguments = base.decl?.map fun e => e.parameters.map (·.name) := by
  cases hd
  cases base with
  | nil => rfl
  | cons _ _ => rfl

/-- A parameter is there for each property that a class adds. -/
theorem exists_parameter_of_layer {name : String} {properties : List ImplProperty}
    {base : ConstructorChain} {p : ImplProperty} (hp : p ∈ properties) :
    ∃ q ∈ parameters (layerOf name properties :: base), q.name = p.parameterName := by
  apply exists_parameter_iff.mpr
  refine ⟨⟨p.typeName, p.parameterName, some p.name⟩, ?_, rfl⟩
  rw [asked_cons]
  exact List.mem_append_right _ (List.mem_map_of_mem hp)

end ConstructorChain

namespace Implementation
open ConstructorChain

/-- The constructor of a class with these properties, on top of these bases. -/
structure Layers (name : String) (properties : List ImplProperty)
    (bases : List (String × List ImplProperty)) (d : Decl.Constructor) : Prop where
  name_eq : d.name = name
  nodup_names : (d.parameters.map (·.name)).Nodup
  /-- The base constructor is called with what it takes, in its order. -/
  baseArguments_eq : d.baseArguments
    = (layered bases).constructors.decl?.map fun e => e.parameters.map (·.name)
  prefix_arguments : ∀ arguments, d.baseArguments = some arguments →
    arguments <+: d.parameters.map (·.name)
  prefix_lower : ∀ lower, lower <:+ bases → ∀ e, (layered lower).constructors.decl? = some e →
    e.parameters <+: d.parameters
  body_eq : d.body = properties.map fun p => p.name ++ " = " ++ p.parameterName ++ ";"
  exists_parameter : ∀ p ∈ properties, ∃ q ∈ d.parameters, q.name = p.parameterName

/-- Whatever is built on top, a class takes what it takes by itself in front. -/
theorem prefix_of_layered_suffix {lower layers : List (String × List ImplProperty)}
    {d e : Decl.Constructor} (h : lower <:+ layers)
    (hd : (layered layers).constructors.decl? = some d)
    (he : (layered lower).constructors.decl? = some e) : e.parameters <+: d.parameters := by
  rw [parameters_of_decl? he, parameters_of_decl? hd]
  apply prefix_of_suffix
  rw [constructors_layered, constructors_layered]
  exact h.map _

/-- Every class that is put on top of others has a constructor; it takes what each class below takes
in front of its own parameters, no name twice, passes the base what that takes, and sets each
property from a parameter. -/
theorem layered_constructor (name : String) (properties : List ImplProperty)
    (bases : List (String × List ImplProperty)) :
    ∃ d, (layered ((name, properties) :: bases)).constructors.decl? = some d ∧
      Layers name properties bases d := by
  have hchain : (layered ((name, properties) :: bases)).constructors
      = layerOf name properties :: (layered bases).constructors := rfl
  obtain ⟨d, hd⟩ : ∃ d, (layered ((name, properties) :: bases)).constructors.decl? = some d :=
    ⟨_, rfl⟩
  have hparameters := parameters_of_decl? hd
  have harguments := baseArguments_of_decl? hd
  have hlower : ∀ lower, lower <:+ bases → ∀ e, (layered lower).constructors.decl? = some e →
      e.parameters <+: d.parameters := by
    intro lower hsuffix e he
    exact prefix_of_layered_suffix (hsuffix.trans (List.suffix_cons _ _)) hd he
  refine ⟨d, hd, ?_, ?_, harguments, ?_, hlower, ?_, ?_⟩
  · cases hd
    rfl
  · rw [hparameters]
    exact nodup_names _
  · intro arguments hsome
    rw [harguments] at hsome
    obtain ⟨e, he, rfl⟩ := Option.map_eq_some_iff.mp hsome
    exact (hlower bases List.suffix_rfl e he).map _
  · cases hd
    exact LinkGraph.assignments_layerOf name properties
  · intro p hp
    rw [hparameters, hchain]
    exact exists_parameter_of_layer hp

/-- Of two properties that give their parameters one name, the lower one has the parameter. -/
example : ((layered [("Upper", [{ name := "ID", typeName := "uint" }]),
      ("Lower", [{ name := "_Id", typeName := "ulong" }])]).constructors.decl?.map
        fun d => (d.parameters, d.baseArguments, d.body))
    = some ([.of "ulong" "id"], some ["id"], ["ID = id;"]) := by
  decide +kernel

end Implementation

end ActorLinks
