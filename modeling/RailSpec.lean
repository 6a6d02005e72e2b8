import RailSpec.CommandLine.Arguments
import RailSpec.CommandLine.Run
import RailSpec.Declaration
import RailSpec.Disk.Fault
import RailSpec.Disk.File
import RailSpec.Disk.Path
import RailSpec.Disk.Tree
import RailSpec.Fallback
import RailSpec.Generation
import RailSpec.Json
import RailSpec.Log
import RailSpec.Main
import RailSpec.Node
import RailSpec.Node.Call
import RailSpec.Node.Literal
import RailSpec.Node.Options
import RailSpec.Node.Source
import RailSpec.Node.Walk
import RailSpec.Number.Binary64
import RailSpec.Number.Decimal
import RailSpec.Number.Literal
import RailSpec.ParseTree
import RailSpec.ParseTree.Node
import RailSpec.ParseTree.Offset
import RailSpec.Proofs.CommandLine.Run
import RailSpec.Proofs.CommandLine.Settings
import RailSpec.Proofs.Disk.Atomic
import RailSpec.Proofs.Disk.Change
import RailSpec.Proofs.Disk.Directories
import RailSpec.Proofs.Disk.File
import RailSpec.Proofs.Disk.Look
import RailSpec.Proofs.Disk.Making
import RailSpec.Proofs.Disk.Null
import RailSpec.Proofs.Disk.Path
import RailSpec.Proofs.Disk.Place
import RailSpec.Proofs.Disk.Presence
import RailSpec.Proofs.Disk.Rooted
import RailSpec.Proofs.Disk.Tree
import RailSpec.Proofs.Disk.Wider
import RailSpec.Proofs.Disk.Wider.Directories
import RailSpec.Proofs.Disk.Wider.File
import RailSpec.Proofs.Fallback
import RailSpec.Proofs.Fields
import RailSpec.Proofs.Fields.Latest
import RailSpec.Proofs.Generation
import RailSpec.Proofs.Json
import RailSpec.Proofs.Node.HandedDown
import RailSpec.Proofs.Node.Hash
import RailSpec.Proofs.Node.Json
import RailSpec.Proofs.Node.LastResort
import RailSpec.Proofs.Node.Lookup
import RailSpec.Proofs.Node.Options
import RailSpec.Proofs.Node.Plain
import RailSpec.Proofs.Node.PlainRead
import RailSpec.Proofs.Node.Position
import RailSpec.Proofs.Node.Preorder
import RailSpec.Proofs.Node.Writable
import RailSpec.Proofs.Number
import RailSpec.Proofs.Number.Literal
import RailSpec.Proofs.Number.Numeral
import RailSpec.Proofs.Outline
import RailSpec.Proofs.Outline.Extract
import RailSpec.Proofs.Outline.Read
import RailSpec.Proofs.ParseTree.Contents
import RailSpec.Proofs.ParseTree.Integer
import RailSpec.Proofs.ParseTree.Offset
import RailSpec.Proofs.ParseTree.Place
import RailSpec.Proofs.ParseTree.Problem
import RailSpec.Proofs.ParseTree.Reach
import RailSpec.Proofs.ParseTree.Words
import RailSpec.Proofs.Report.Alone
import RailSpec.Proofs.Report.Directory
import RailSpec.Proofs.Report.Export
import RailSpec.Proofs.Report.Files
import RailSpec.Proofs.Report.Guarded
import RailSpec.Proofs.Report.Inside
import RailSpec.Proofs.Report.Isolation
import RailSpec.Proofs.Report.Outcomes
import RailSpec.Proofs.Report.Refusals
import RailSpec.Proofs.Schema.LastResort
import RailSpec.Proofs.Schema.Named
import RailSpec.Proofs.Schema.Origin
import RailSpec.Proofs.Schema.Plain
import RailSpec.Proofs.Schema.Respelled
import RailSpec.Proofs.Schema.Returns
import RailSpec.Proofs.Schema.Statements
import RailSpec.Proofs.Schema.Walk
import RailSpec.Proofs.Schema.Wire
import RailSpec.Proofs.Settings
import RailSpec.Proofs.Settings.File
import RailSpec.Proofs.Text.Blank
import RailSpec.Proofs.Text.Casing
import RailSpec.Proofs.Text.LineFeed
import RailSpec.Proofs.Text.Quoted
import RailSpec.Proofs.Text.Utf8
import RailSpec.Proofs.TypeSpec.Declaration
import RailSpec.Proofs.TypeSpec.Enum
import RailSpec.Proofs.TypeSpec.Line
import RailSpec.Proofs.TypeSpec.Lines
import RailSpec.Proofs.TypeSpec.MemberName
import RailSpec.Proofs.TypeSpec.Model
import RailSpec.Proofs.TypeSpec.Name
import RailSpec.Proofs.TypeSpec.Parts
import RailSpec.Proofs.TypeSpec.Render
import RailSpec.Proofs.Value
import RailSpec.Proofs.Value.LineFeed
import RailSpec.Proofs.Value.Writable
import RailSpec.Reader
import RailSpec.Record
import RailSpec.Record.Schema
import RailSpec.Report
import RailSpec.Report.Export
import RailSpec.Report.Files
import RailSpec.Schema
import RailSpec.Schema.Extract
import RailSpec.Schema.Payload
import RailSpec.Schema.Wire
import RailSpec.SchemaText
import RailSpec.SchemaText.Cursor
import RailSpec.SchemaText.Literal
import RailSpec.SchemaText.Lookahead
import RailSpec.SchemaText.Statement
import RailSpec.Settings
import RailSpec.Settings.Document
import RailSpec.Settings.File
import RailSpec.Settings.Mapping
import RailSpec.Text.Blank
import RailSpec.Text.Casing
import RailSpec.Text.Digit
import RailSpec.Text.Lines
import RailSpec.Text.Printable
import RailSpec.Text.Quoted
import RailSpec.Text.Utf8
import RailSpec.TypeSpec.Document
import RailSpec.TypeSpec.Name
import RailSpec.TypeSpec.Type
import RailSpec.Value
import RailSpec.Value.Written
import RailSpec.Yaml
import RailSpec.Yaml.Cursor
import RailSpec.Yaml.Quoted
import RailSpec.Yaml.Scalar
