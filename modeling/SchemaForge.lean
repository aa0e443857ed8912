import SchemaForge.Archive.Crc
import SchemaForge.Archive.Deflate
import SchemaForge.Archive.Number
import SchemaForge.Archive.Reader
import SchemaForge.Archive.Record
import SchemaForge.Archive.Writer
import SchemaForge.CommandLine.Arguments
import SchemaForge.CommandLine.Error
import SchemaForge.CommandLine.Report
import SchemaForge.CommandLine.Run
import SchemaForge.Compile.Error
import SchemaForge.Compile.Generation
import SchemaForge.Compile.Run
import SchemaForge.Config.Basic
import SchemaForge.Config.Text
import SchemaForge.Files.Call
import SchemaForge.Files.Error
import SchemaForge.Files.Path
import SchemaForge.Files.Tree
import SchemaForge.Files.Walk
import SchemaForge.Instant.Basic
import SchemaForge.Instant.Error
import SchemaForge.Instant.Text
import SchemaForge.Json.Codec
import SchemaForge.Json.Document
import SchemaForge.Json.Error
import SchemaForge.Json.Lexeme
import SchemaForge.Json.Printer
import SchemaForge.Json.Record
import SchemaForge.Json.Token
import SchemaForge.Json.Value
import SchemaForge.Main
import SchemaForge.Model.File
import SchemaForge.Number.Binary64
import SchemaForge.Number.Shortest
import SchemaForge.Proofs.Archive.RoundTrip
import SchemaForge.Proofs.Compile.Entries
import SchemaForge.Proofs.Compile.Faults
import SchemaForge.Proofs.Compile.Frame
import SchemaForge.Proofs.Compile.Generation
import SchemaForge.Proofs.Compile.Interference
import SchemaForge.Proofs.Compile.Listing
import SchemaForge.Proofs.Compile.Reproducible
import SchemaForge.Proofs.Compile.Run
import SchemaForge.Proofs.Compile.Staging
import SchemaForge.Proofs.Compile.Success
import SchemaForge.Proofs.Compile.Turns
import SchemaForge.Proofs.Except
import SchemaForge.Proofs.Files.Calls
import SchemaForge.Proofs.Files.Directories
import SchemaForge.Proofs.Files.Path
import SchemaForge.Proofs.Files.Places
import SchemaForge.Proofs.Files.Tree
import SchemaForge.Proofs.Files.Walk
import SchemaForge.Proofs.Instant.Text
import SchemaForge.Proofs.Json.Canonical
import SchemaForge.Proofs.Json.Codecs
import SchemaForge.Proofs.Json.Content
import SchemaForge.Proofs.Json.Floats
import SchemaForge.Proofs.Json.Numbers
import SchemaForge.Proofs.Json.Origin
import SchemaForge.Proofs.Json.Recovery
import SchemaForge.Proofs.Json.Rendering
import SchemaForge.Proofs.Json.Strings
import SchemaForge.Proofs.Lookup
import SchemaForge.Proofs.Model.File
import SchemaForge.Proofs.Schema.Codecs
import SchemaForge.Proofs.Schema.Identifiers
import SchemaForge.Proofs.Schema.Literals
import SchemaForge.Proofs.Schema.Naming
import SchemaForge.Proofs.Schema.Repetition
import SchemaForge.Proofs.Script
import SchemaForge.Proofs.Service.Agreement
import SchemaForge.Proofs.Service.Attachments
import SchemaForge.Proofs.Service.Availability
import SchemaForge.Proofs.Service.Bodies
import SchemaForge.Proofs.Service.Dumps
import SchemaForge.Proofs.Service.Isolation
import SchemaForge.Proofs.Service.Refusals
import SchemaForge.Proofs.Service.Runs
import SchemaForge.Proofs.Service.Shown
import SchemaForge.Proofs.Staging.Apart
import SchemaForge.Proofs.Staging.Approach
import SchemaForge.Proofs.Staging.Confinement
import SchemaForge.Proofs.Staging.Exclusion
import SchemaForge.Proofs.Staging.Frame
import SchemaForge.Proofs.Staging.Joining
import SchemaForge.Proofs.Staging.Layout
import SchemaForge.Proofs.Staging.Locks
import SchemaForge.Proofs.Staging.Paths
import SchemaForge.Proofs.Staging.Resolve
import SchemaForge.Proofs.Staging.Site
import SchemaForge.Proofs.Staging.Tidy
import SchemaForge.Proofs.Staging.Unobstructed
import SchemaForge.Proofs.Staging.Ways
import SchemaForge.Proofs.Store.Cascades
import SchemaForge.Proofs.Store.Chronology
import SchemaForge.Proofs.Store.Codecs
import SchemaForge.Proofs.Store.Consistency
import SchemaForge.Proofs.Store.Creation
import SchemaForge.Proofs.Store.Demands
import SchemaForge.Proofs.Store.Depth
import SchemaForge.Proofs.Store.Dump
import SchemaForge.Proofs.Store.Effect
import SchemaForge.Proofs.Store.Failure
import SchemaForge.Proofs.Store.Invariant
import SchemaForge.Proofs.Store.Isolation
import SchemaForge.Proofs.Store.Listing
import SchemaForge.Proofs.Store.Loading
import SchemaForge.Proofs.Store.Payloads
import SchemaForge.Proofs.Store.Readable
import SchemaForge.Proofs.Store.Reload
import SchemaForge.Proofs.Store.RoundTrip
import SchemaForge.Proofs.Store.Runs
import SchemaForge.Proofs.Store.Table
import SchemaForge.Proofs.Store.Write
import SchemaForge.Proofs.Text.Characters
import SchemaForge.Proofs.Text.Lines
import SchemaForge.Proofs.Text.Segments
import SchemaForge.Proofs.Text.Spacing
import SchemaForge.Proofs.Text.Words
import SchemaForge.Schema.Codecs
import SchemaForge.Schema.Kinds
import SchemaForge.Schema.Naming
import SchemaForge.Schema.Payload
import SchemaForge.Schema.Records
import SchemaForge.Script
import SchemaForge.Service.Auth
import SchemaForge.Service.Basic
import SchemaForge.Service.Error
import SchemaForge.Service.Payload
import SchemaForge.Service.Request
import SchemaForge.Service.Response
import SchemaForge.Staging.Area
import SchemaForge.Staging.Error
import SchemaForge.Staging.Layout
import SchemaForge.Staging.Locks
import SchemaForge.Store.Basic
import SchemaForge.Store.Codecs
import SchemaForge.Store.Dump
import SchemaForge.Store.Error
import SchemaForge.Store.Loading
import SchemaForge.Store.Row
import SchemaForge.Store.Table
import SchemaForge.Text.Blank
import SchemaForge.Text.Case
import SchemaForge.Text.CaseTable
import SchemaForge.Text.Cluster
import SchemaForge.Text.ClusterTable
import SchemaForge.Text.CodeRanges
import SchemaForge.Text.EscapeTable
import SchemaForge.Text.Pieces
import SchemaForge.Text.Quoted
import SchemaForge.Text.Utf8
import SchemaForge.Text.Words
import SchemaForge.Toml.Document
import SchemaForge.Toml.Number
import SchemaForge.Toml.Quoted
import SchemaForge.Toml.Statement
import SchemaForge.Toml.Value
