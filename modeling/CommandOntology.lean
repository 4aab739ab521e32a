import CommandOntology.Host.FileTree
import CommandOntology.Main
import CommandOntology.Session
import CommandOntology.Proofs.AbsoluteIris
import CommandOntology.Proofs.AcceptedDocuments
import CommandOntology.Proofs.ContainedErrors
import CommandOntology.Proofs.ContainedQueries
import CommandOntology.Proofs.ExportedCommands
import CommandOntology.Proofs.ExportedView
import CommandOntology.Proofs.InterchangeableStores
import CommandOntology.Proofs.JoinSolutions
import CommandOntology.Proofs.LineForms
import CommandOntology.Proofs.OptionalGroups
import CommandOntology.Proofs.ReadBackQueries
import CommandOntology.Proofs.RelabelledCommands
import CommandOntology.Proofs.RepeatedReloads
import CommandOntology.Proofs.StorageOrder
import CommandOntology.Proofs.TypeTags
import CommandOntology.Proofs.Validation
import CommandOntology.Proofs.ContinuedTexts
import CommandOntology.Proofs.GroundStatements
import CommandOntology.Proofs.SharedStatements
import CommandOntology.Proofs.DefinedNames
import CommandOntology.Proofs.LineDocuments
import CommandOntology.Proofs.NumberOrder
import CommandOntology.Proofs.TimeBudgets
import CommandOntology.Proofs.DeclaredOptions
import CommandOntology.Proofs.DocStrings
import CommandOntology.Proofs.ManualPages
import CommandOntology.Proofs.PrimaryHandlers
import CommandOntology.Proofs.RearrangedCommands
import CommandOntology.Proofs.RearrangedDefinitions
import CommandOntology.Proofs.UnknownTypes
import CommandOntology.Proofs.IndexedStores
import CommandOntology.Proofs.ComparedNumbers
import CommandOntology.Proofs.ComposedFilters
import CommandOntology.Proofs.SwappedOperands
import CommandOntology.Proofs.TruthLiterals
import CommandOntology.Proofs.TokenPositions
import CommandOntology.Proofs.ErrorPlaces
import CommandOntology.Proofs.FunctionalValues
import CommandOntology.Proofs.FreshNodes
import CommandOntology.Proofs.InsertedLayout
import CommandOntology.Proofs.NamespaceRuns
import CommandOntology.Proofs.RecordedResults
import CommandOntology.Proofs.IndexedCommands
import CommandOntology.Proofs.DenotedTerms
import CommandOntology.Proofs.DescribedResults
import CommandOntology.Proofs.ReadApplications
