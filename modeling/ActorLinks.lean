import ActorLinks.Main
import ActorLinks.Proofs.Aliases
import ActorLinks.Proofs.Arena.FullPaths
import ActorLinks.Proofs.Arena.Traversal
import ActorLinks.Proofs.Build.BackLinkClasses
import ActorLinks.Proofs.Build.BackLinkInheritance
import ActorLinks.Proofs.Build.BaseCalls
import ActorLinks.Proofs.Build.ConstructorLayers
import ActorLinks.Proofs.Build.Explicit
import ActorLinks.Proofs.Build.ExtensionProperties
import ActorLinks.Proofs.Build.Factories
import ActorLinks.Proofs.Build.FactoryScopes
import ActorLinks.Proofs.Build.FirstBases
import ActorLinks.Proofs.Build.HoistedNames
import ActorLinks.Proofs.Build.Inheritance
import ActorLinks.Proofs.Build.InterfaceBases
import ActorLinks.Proofs.Build.LinkTypes
import ActorLinks.Proofs.Build.MemberNames
import ActorLinks.Proofs.Build.Namespaces
import ActorLinks.Proofs.Build.Relationships
import ActorLinks.Proofs.Build.SourceRedefinition
import ActorLinks.Proofs.Build.Tidiness
import ActorLinks.Proofs.Compilation.Survivors
import ActorLinks.Proofs.Composition.Bases
import ActorLinks.Proofs.Composition.Exclusion
import ActorLinks.Proofs.Composition.Masks
import ActorLinks.Proofs.Composition.Widths
import ActorLinks.Proofs.Decl.Indentation
import ActorLinks.Proofs.File.Disk
import ActorLinks.Proofs.File.Writes
import ActorLinks.Proofs.Generation
import ActorLinks.Proofs.Graph.Layout
import ActorLinks.Proofs.Graph.SemanticEquality
import ActorLinks.Proofs.Json.Reading
import ActorLinks.Proofs.Record.Config
import ActorLinks.Proofs.Record.Manifest
import ActorLinks.Proofs.Record.Restored
import ActorLinks.Proofs.Renumbering.Permutations
import ActorLinks.Proofs.Session.Outputs
import ActorLinks.Proofs.Text.Digits
import ActorLinks.Proofs.Text.DisplayNames
import ActorLinks.Proofs.Text.NameParts
import ActorLinks.Proofs.Toml.Quoted
import ActorLinks.Proofs.Toml.Reading
import ActorLinks.Proofs.Toml.Sections
import ActorLinks.Proofs.Visit.Ancestry
import ActorLinks.Proofs.Visit.Compositions
import ActorLinks.Proofs.Visit.Relationships
import ActorLinks.Proofs.Visit.Selections
import ActorLinks.Proofs.Visit.Settled
import ActorLinks.Record.Decl
