import SurveyTables.Binary64
import SurveyTables.Cell
import SurveyTables.CommandLine.Command
import SurveyTables.CommandLine.Option
import SurveyTables.CommandLine.Run
import SurveyTables.Config
import SurveyTables.Error
import SurveyTables.Export.Csv
import SurveyTables.Export.JsonArray
import SurveyTables.Export.Written
import SurveyTables.Feed
import SurveyTables.FilePath
import SurveyTables.FileSystem
import SurveyTables.Flatten
import SurveyTables.Form.Basic
import SurveyTables.Form.Document
import SurveyTables.Geopoint
import SurveyTables.Header
import SurveyTables.Http.App
import SurveyTables.Http.Response
import SurveyTables.Http.Url
import SurveyTables.Json.Basic
import SurveyTables.Json.Fault
import SurveyTables.Json.Number
import SurveyTables.Json.Printer
import SurveyTables.Json.Raw
import SurveyTables.Json.Reader
import SurveyTables.Json.Token
import SurveyTables.Keyed
import SurveyTables.Layout.Basic
import SurveyTables.Layout.Schema
import SurveyTables.Layout.Table
import SurveyTables.MediaLink
import SurveyTables.Proofs.Form.Walk
import SurveyTables.Proofs.Layout.Growth
import SurveyTables.Proofs.RowId
import SurveyTables.Publication
import SurveyTables.Row
import SurveyTables.RowId
import SurveyTables.Selection
import SurveyTables.Service
import SurveyTables.Store.Basic
import SurveyTables.Store.Directory
import SurveyTables.Store.Memory
import SurveyTables.Submission
import SurveyTables.Text.Blank
import SurveyTables.Text.DecimalDigit
import SurveyTables.Text.Hex
import SurveyTables.Text.Numeral
import SurveyTables.Text.Segment
import SurveyTables.Text.Utf8
import SurveyTables.Uuid
import SurveyTables.Yaml.Basic
import SurveyTables.Yaml.BlockScalar
import SurveyTables.Yaml.Document
import SurveyTables.Yaml.FlowScalar
import SurveyTables.Yaml.Source
import SurveyTables.Yaml.Tag
import SurveyTables.Yaml.Token
import SurveyTables.Main
import SurveyTables.Proofs.Layout.Steps
import SurveyTables.Proofs.Layout.Bindings
import SurveyTables.Proofs.Layout.Columns
import SurveyTables.Proofs.Layout.Names
import SurveyTables.Proofs.Flatten.Calls
import SurveyTables.Proofs.Flatten.Provenance
import SurveyTables.Proofs.Flatten.Cells
import SurveyTables.Proofs.Flatten.Agreement
import SurveyTables.Proofs.Flatten.Repeats
import SurveyTables.Proofs.Layout.Reserves
import SurveyTables.Proofs.Flatten.Keys
import SurveyTables.Proofs.Form.Depth
import SurveyTables.Proofs.Linkage.Order
import SurveyTables.Proofs.Linkage.Numbers
import SurveyTables.Proofs.Linkage.Roots
import SurveyTables.Proofs.Linkage.Rebuild
import SurveyTables.Proofs.Linkage.Descent
import SurveyTables.Proofs.Json.Number
import SurveyTables.Proofs.Json.Scan
import SurveyTables.Proofs.Json.Parse
import SurveyTables.Proofs.Export.Chunks
import SurveyTables.Proofs.Export.ArrayText
import SurveyTables.Proofs.Export.Truncation
import SurveyTables.Proofs.Row.Json
import SurveyTables.Proofs.Export.ReadBack
import SurveyTables.Proofs.Export.CsvText
import SurveyTables.Proofs.Export.TableText
import SurveyTables.Proofs.Layout.WellFormed
import SurveyTables.Proofs.Layout.Kept
import SurveyTables.Proofs.Flatten.Visibility
import SurveyTables.Proofs.Flatten.Faults
import SurveyTables.Proofs.Store.Filter
import SurveyTables.Proofs.Store.Refresh
import SurveyTables.Proofs.Json.Reading
import SurveyTables.Proofs.Store.Count
import SurveyTables.Proofs.Store.Transcript
import SurveyTables.Proofs.FileSystem.Lookup
import SurveyTables.Proofs.Store.Interchange
import SurveyTables.Proofs.Layout.Extension
import SurveyTables.Proofs.Row.Position
import SurveyTables.Proofs.Flatten.Extension
import SurveyTables.Proofs.FileSystem.Create
import SurveyTables.Proofs.CommandLine.Output
import SurveyTables.Proofs.Text.Numeral
import SurveyTables.Proofs.Flatten.Locations
import SurveyTables.Proofs.Flatten.FirstFlaw
import SurveyTables.Proofs.Flatten.Refusals
import SurveyTables.Proofs.Flatten.Ordinals
import SurveyTables.Proofs.Store.Lines
import SurveyTables.Proofs.Store.Exhaustion
import SurveyTables.Proofs.Form.Declaration
import SurveyTables.Proofs.Layout.Tables
import SurveyTables.Proofs.Layout.Taken
import SurveyTables.Proofs.Layout.Clashes
import SurveyTables.Proofs.Binary64.Nearest
import SurveyTables.Proofs.Binary64.Rounding
import SurveyTables.Proofs.Json.Value
import SurveyTables.Proofs.Flatten.Integers
import SurveyTables.Proofs.Text.Words
import SurveyTables.Proofs.Flatten.Choices
import SurveyTables.Proofs.Header
import SurveyTables.Proofs.Header.Index
import SurveyTables.Proofs.Layout.Simplification
import SurveyTables.Proofs.Json.Reader
import SurveyTables.Proofs.Form.Document
import SurveyTables.Proofs.Http.Status
import SurveyTables.Proofs.Store.Opening
import SurveyTables.Proofs.Http.Publication
import SurveyTables.Proofs.Layout.FreeName
import SurveyTables.Proofs.MediaLink
import SurveyTables.Proofs.Row.Number
import SurveyTables.Proofs.Uuid
import SurveyTables.Proofs.Yaml.Fields
import SurveyTables.Proofs.Store.Lookup
import SurveyTables.Proofs.Config
