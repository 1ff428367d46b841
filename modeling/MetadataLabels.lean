import MetadataLabels.Token
import MetadataLabels.Text.Blank
import MetadataLabels.Text.Quoted
import MetadataLabels.Literal
import MetadataLabels.Name
import MetadataLabels.Variable
import MetadataLabels.Resource
import MetadataLabels.Graph.Basic
import MetadataLabels.Graph.Ownership
import MetadataLabels.Signature.Equality
import MetadataLabels.Registry
import MetadataLabels.Workspace
import MetadataLabels.Tuple
import MetadataLabels.Accessor
import MetadataLabels.OptionalParameter
import MetadataLabels.Description
import MetadataLabels.Overload
import MetadataLabels.Proofs.RegistryLog
import MetadataLabels.Proofs.RegistryMaps
import MetadataLabels.Proofs.WorkspaceRun
import MetadataLabels.Proofs.RegistryNames
import MetadataLabels.Proofs.Classification
import MetadataLabels.Proofs.ResolverExtension
import MetadataLabels.Proofs.SignatureEquivalence
import MetadataLabels.Proofs.TupleLevel
import MetadataLabels.Proofs.TupleEncoding
import MetadataLabels.Proofs.SettledResolution
import MetadataLabels.Proofs.TypeNames
import MetadataLabels.Proofs.RegistrationOrder
import MetadataLabels.Proofs.WorkspaceStep
import MetadataLabels.Proofs.OwnershipRun
import MetadataLabels.Proofs.ReferenceCount
import MetadataLabels.Proofs.StrongOwnership
import MetadataLabels.Proofs.SlotHistory
import MetadataLabels.Proofs.AnswerDecay
import MetadataLabels.Proofs.SignatureDecay
import MetadataLabels.Proofs.DisplayNames
import MetadataLabels.Proofs.PartialWalk
import MetadataLabels.Proofs.SameTypes
import MetadataLabels.Proofs.OverloadClasses
import MetadataLabels.Proofs.ConstantHierarchy
import MetadataLabels.Proofs.TupleReference
import MetadataLabels.Proofs.Warnings
import MetadataLabels.Proofs.AttributeNames
import MetadataLabels.Proofs.TypeChains
import MetadataLabels.Proofs.HierarchyWarnings
import MetadataLabels.Proofs.BaseChain
import MetadataLabels.Proofs.TupleCongruence
import MetadataLabels.Proofs.AccessorOrder
import MetadataLabels.Proofs.DigitGroups
import MetadataLabels.Proofs.ChainStops
import MetadataLabels.Proofs.Inheritance
import MetadataLabels.Proofs.MemberReferences
import MetadataLabels.Proofs.DigitReading
import MetadataLabels.Proofs.LiteralReading
import MetadataLabels.Proofs.NameCuts
import MetadataLabels.Proofs.Placeholders
import MetadataLabels.Proofs.Tooltips
import MetadataLabels.Proofs.SignatureHeads
import MetadataLabels.Proofs.VariableNames
import MetadataLabels.Proofs.LastDelimiter
import MetadataLabels.Proofs.TokenViews
