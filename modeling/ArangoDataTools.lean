import ArangoDataTools.Interaction
import ArangoDataTools.Interleaving
import ArangoDataTools.Answering
import ArangoDataTools.Errors
import ArangoDataTools.Json
import ArangoDataTools.Manifest
import ArangoDataTools.Client
import ArangoDataTools.CursorStream
import ArangoDataTools.CursorExactness
import ArangoDataTools.Dump
import ArangoDataTools.DumpClaim
import ArangoDataTools.DumpExclusion
import ArangoDataTools.DumpArtifacts
import ArangoDataTools.DumpRun
import ArangoDataTools.Restore
import ArangoDataTools.RestoreServer
import ArangoDataTools.RestorePlan
import ArangoDataTools.RestoreStage
import ArangoDataTools.RestoreResume
import ArangoDataTools.RestoreCut
import ArangoDataTools.RestoreConvergence
import ArangoDataTools.RestoreRetry
import ArangoDataTools.RestoreRun
import ArangoDataTools.DumpRestore
import ArangoDataTools.Tally
import ArangoDataTools.ImportBatch
import ArangoDataTools.ImportLimiter
import ArangoDataTools.ImportCheckpointTask
import ArangoDataTools.ImportSender
import ArangoDataTools.ImportPipeline
import ArangoDataTools.ImportLedger
import ArangoDataTools.ImportEnds
import ArangoDataTools.ImportDelivery
import ArangoDataTools.ImportSolo
import ArangoDataTools.ImportProgress
import ArangoDataTools.ImportBudget
import ArangoDataTools.ImportCheckpointing
import ArangoDataTools.ImportOverwrite
import ArangoDataTools.ImportResume
import ArangoDataTools.ImportRejection
import ArangoDataTools.ImportParty
import ArangoDataTools.Resumable
import ArangoDataTools.ResumableMarker
import ArangoDataTools.ResumableHistory
import ArangoDataTools.ResumableTorn
import ArangoDataTools.JsonText
import ArangoDataTools.JsonArray
import ArangoDataTools.JsonArraySound
import ArangoDataTools.TextScan
import ArangoDataTools.RdfTerms
import ArangoDataTools.RdfLines
import ArangoDataTools.RdfStatements
import ArangoDataTools.RdfWholeLine
import ArangoDataTools.RdfRendering
import ArangoDataTools.TextReader
import ArangoDataTools.Turtle
import ArangoDataTools.TurtleSyntax
import ArangoDataTools.TurtleTokens
import ArangoDataTools.TurtleLexing
import ArangoDataTools.TurtleLiterals
import ArangoDataTools.TurtleNumerals
import ArangoDataTools.TurtleTerms
import ArangoDataTools.TurtleParsing
import ArangoDataTools.TurtleDocuments
import ArangoDataTools.TurtleCanonical
import ArangoDataTools.TurtleLayout
import ArangoDataTools.RdfReading
import ArangoDataTools.LocalStore
import ArangoDataTools.DumpPaging
import ArangoDataTools.PagedReads
import ArangoDataTools.Triples
import ArangoDataTools.RestoreTrace
import ArangoDataTools.RestoreReading
import ArangoDataTools.RestorePhases
import ArangoDataTools.RestoreRefusal
import ArangoDataTools.RestoreIdentity
import ArangoDataTools.RestoreIntegrity
import ArangoDataTools.RestoreAttempt
import ArangoDataTools.RestoreHistory
import ArangoDataTools.StoredManifest
import ArangoDataTools.DumpSnapshot
import ArangoDataTools.DumpPaths
import ArangoDataTools.SplitExport
import ArangoDataTools.SplitParts
import ArangoDataTools.ManifestExactness
import ArangoDataTools.RestoreHosting
import ArangoDataTools.ClientRuns
import ArangoDataTools.DumpedDatabases
import ArangoDataTools.Leases
import ArangoDataTools.DumpBatches
import ArangoDataTools.RdfKeys
import ArangoDataTools.FirstWrite
import ArangoDataTools.RdfFold
import ArangoDataTools.RdfStores
import ArangoDataTools.RdfScopes
import ArangoDataTools.RdfProperties
import ArangoDataTools.ImportPartition
import ArangoDataTools.JsonArrayDivisions
import ArangoDataTools.SplitEncoding
import ArangoDataTools.SplitPartition
import ArangoDataTools.SplitSizes
import ArangoDataTools.RdfLayout
import ArangoDataTools.CursorRelease
import ArangoDataTools.Greedy
import ArangoDataTools.ImportFormat
import ArangoDataTools.JsonLines
import ArangoDataTools.SplitReading
import ArangoDataTools.CheckedScan
import ArangoDataTools.TurtleScan
import ArangoDataTools.LineScan
import ArangoDataTools.StackedScan
import ArangoDataTools.TurtleNesting
import ArangoDataTools.LocalCalls
import ArangoDataTools.LocalRefinement
import ArangoDataTools.RdfImport
import ArangoDataTools.RdfAccounts
import ArangoDataTools.RdfCounts
import ArangoDataTools.RdfEndpoints
import ArangoDataTools.LimiterRuns
import ArangoDataTools.RdfDatabase
import ArangoDataTools.RdfGraphs
import ArangoDataTools.Columns
import ArangoDataTools.EdgePreflight
import ArangoDataTools.RetryAccounts
import ArangoDataTools.ColumnIntegers
import ArangoDataTools.ColumnStages
import ArangoDataTools.RestoreOrder
import ArangoDataTools.RestoreSchedule
import ArangoDataTools.ObjectStoreBackend
import ArangoDataTools.ListedPaths
import ArangoDataTools.UrlPaths
import ArangoDataTools.RequestUrls
import ArangoDataTools.RequestNames
import ArangoDataTools.Base64Url
import ArangoDataTools.Costs
import ArangoDataTools.Jwt
import ArangoDataTools.TokenAccounts
import ArangoDataTools.TokenExpiry
import ArangoDataTools.TokenRefusals
import ArangoDataTools.TokenDenials
import ArangoDataTools.Deliveries
import ArangoDataTools.ExportRun
import ArangoDataTools.Catalog
import ArangoDataTools.EnsuredCollections
import ArangoDataTools.EdgeDefinitions
import ArangoDataTools.GraphCommands
import ArangoDataTools.CreationRetries
import ArangoDataTools.RdfTogether
import ArangoDataTools.PartImports
import ArangoDataTools.CsvTransfer
