import VaultSearch.Core.Chunker
import VaultSearch.Core.Editing
import VaultSearch.Core.Generation
import VaultSearch.Core.Incremental
import VaultSearch.Core.Indexer
import VaultSearch.Core.NoteRecords
import VaultSearch.Core.PathSpelling
import VaultSearch.Core.Publishing
import VaultSearch.Core.Rebuild
import VaultSearch.Core.Reports
import VaultSearch.Core.Resolution
import VaultSearch.Core.Scanner
import VaultSearch.Core.Staging
import VaultSearch.Core.Tables
import VaultSearch.Crud.Write
import VaultSearch.Parsers.Dispatch
import VaultSearch.Parsers.FrontmatterStream
import VaultSearch.Parsers.Frontmatter
import VaultSearch.Parsers.Markdown
import VaultSearch.Parsers.Records
import VaultSearch.Regex.Basic
import VaultSearch.Server.ReindexDelivery
import VaultSearch.Server.ReindexQueue
import VaultSearch.Sql.Filter
import VaultSearch.Store.Fallible
import VaultSearch.Store.Rewrite
import VaultSearch.Store.Table
import VaultSearch.Text.Basic
import VaultSearch.Types
import VaultSearch.Utils.Links
import VaultSearch.Utils.Paths
import VaultSearch.Utils.Printing
import VaultSearch.Core.SharedIndex
import VaultSearch.Parsers.Delimiters
import VaultSearch.Core.LinkPass
import VaultSearch.Core.LinkOrder
import VaultSearch.Store.Symlinks
import VaultSearch.Crud.LinkedVault
import VaultSearch.Crud.IgnoredFolders
import VaultSearch.Crud.Containment
import VaultSearch.Frontmatter.Schema
import VaultSearch.Frontmatter.Validator
import VaultSearch.Frontmatter.AliasResolution
import VaultSearch.Frontmatter.KeptFields
import VaultSearch.Crud.Files
import VaultSearch.Crud.Programs
import VaultSearch.Crud.Conflicts
import VaultSearch.Crud.ExternalEdits
import VaultSearch.Crud.Runs
import VaultSearch.Crud.KeptFrontmatter
import VaultSearch.Frontmatter.AliasConflicts
import VaultSearch.Crud.PartialEnrichment
import VaultSearch.Frontmatter.CleanValidation
import VaultSearch.Crud.CatalogScan
import VaultSearch.Crud.EnrichmentWindow
import VaultSearch.Crud.Catalog
import VaultSearch.Core.Indexable
import VaultSearch.Crud.CatalogCalls
import VaultSearch.Store.Transitions
import VaultSearch.Crud.Reconciliation
import VaultSearch.Watching.EventHandler
import VaultSearch.Watching.Watcher
import VaultSearch.Frontmatter.Coercion
import VaultSearch.Frontmatter.CoercionFaults
import VaultSearch.Frontmatter.Conformance
import VaultSearch.Frontmatter.Revalidation
import VaultSearch.Frontmatter.Soundness
import VaultSearch.Parsers.MdxAgreement
import VaultSearch.Sql.Like
import VaultSearch.Crud.CatalogList
import VaultSearch.Server.Orphans
import VaultSearch.Store.LruCache
import VaultSearch.Crud.MetadataCache
import VaultSearch.Crud.SizeLimits
import VaultSearch.Server.WriteTools
import VaultSearch.Server.FrontmatterJobs
import VaultSearch.Server.JobBookkeeping
import VaultSearch.Daemon.Client
import VaultSearch.Core.Models
import VaultSearch.Core.BackendSelection
import VaultSearch.Graph.Components
import VaultSearch.Graph.PalmForest
import VaultSearch.Server.BridgeNotes
import VaultSearch.Server.Articulation
import VaultSearch.Core.Duplicates
import VaultSearch.Graph.Breadth
import VaultSearch.Server.LinkClusters
import VaultSearch.Core.ChunkPlacement
import VaultSearch.Core.ChunkCoverage
import VaultSearch.Text.Lines
import VaultSearch.Parsers.DelimiterLines
import VaultSearch.Crud.RoundTrip
import VaultSearch.Regex.Runs
import VaultSearch.Utils.LinkOccurrences
import VaultSearch.Parsers.HeaderMatches
import VaultSearch.Parsers.HeaderLines
import VaultSearch.Parsers.SectionChains
import VaultSearch.Server.FolderFilters
import VaultSearch.Server.FolderMeaning
import VaultSearch.Server.LinkStats
import VaultSearch.Core.HybridFusion
import VaultSearch.Daemon.Server
import VaultSearch.Daemon.RemoteRerank
import VaultSearch.Utils.DelayedSignals
import VaultSearch.Server.FolderTree
import VaultSearch.Core.Highlight
import VaultSearch.Server.SuggestLinks
import VaultSearch.Json.Decoder
import VaultSearch.Json.Completeness
import VaultSearch.Frontmatter.JsonExtraction
import VaultSearch.Frontmatter.FirstObject
import VaultSearch.Core.CircuitBreaker
import VaultSearch.Crud.Trash
import VaultSearch.Regex.Language
import VaultSearch.Text.Numerals
import VaultSearch.Utils.DateTimes
import VaultSearch.Sql.Bounds
import VaultSearch.Core.DateFilter
import VaultSearch.Core.EmbedRequests
import VaultSearch.Server.TagSearch
import VaultSearch.Server.TagMembership
import VaultSearch.Server.TagStats
import VaultSearch.Crud.LockSafety
import VaultSearch.Store.Progress
import VaultSearch.Crud.LockProgress
import VaultSearch.Core.QueryCache
import VaultSearch.Utils.ShutdownManager
import VaultSearch.Server.Searches
import VaultSearch.Server.AdvancedSearch
import VaultSearch.Store.Frames
import VaultSearch.Core.SyncCheck
import VaultSearch.Server.SyncVault
import VaultSearch.Crud.Footprints
import VaultSearch.Crud.Cooperation
import VaultSearch.Crud.Creations
import VaultSearch.Crud.Appends
