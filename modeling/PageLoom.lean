import PageLoom.Command.Arguments
import PageLoom.Command.Options
import PageLoom.Command.Program
import PageLoom.Command.Reach
import PageLoom.Command.Report
import PageLoom.Command.Run
import PageLoom.Config.Basic
import PageLoom.Config.Load
import PageLoom.Config.Shape
import PageLoom.Data.Datum
import PageLoom.Data.Decimal
import PageLoom.Data.Quoted
import PageLoom.Data.Shape
import PageLoom.Disk.Basic
import PageLoom.Disk.Files
import PageLoom.Disk.Listing
import PageLoom.Disk.Path
import PageLoom.Disk.Resolve
import PageLoom.Indent.Format
import PageLoom.Indent.Shape
import PageLoom.Indent.Tag
import PageLoom.Json.Number
import PageLoom.Json.Reader
import PageLoom.Json.Text
import PageLoom.Layout.Directive
import PageLoom.Layout.Part
import PageLoom.Main
import PageLoom.Markdown.Autolink
import PageLoom.Markdown.Block
import PageLoom.Markdown.Content
import PageLoom.Markdown.Draft
import PageLoom.Markdown.Emphasis
import PageLoom.Markdown.Entity
import PageLoom.Markdown.Escape
import PageLoom.Markdown.Inline
import PageLoom.Markdown.Marker
import PageLoom.Markdown.NamedCharacters
import PageLoom.Markdown.Reader
import PageLoom.Markdown.Reference
import PageLoom.Markdown.Render
import PageLoom.Markdown.Source
import PageLoom.Markdown.Table
import PageLoom.Markdown.Tag
import PageLoom.Page.Document
import PageLoom.Page.FileName
import PageLoom.Page.Source
import PageLoom.Pattern.Basic
import PageLoom.Pattern.Ends
import PageLoom.Pattern.Reader
import PageLoom.Proofs.Config.Json
import PageLoom.Proofs.Config.Load
import PageLoom.Proofs.Config.Quote
import PageLoom.Proofs.Config.TomlLine
import PageLoom.Proofs.Config.TomlSection
import PageLoom.Proofs.Config.Tree
import PageLoom.Proofs.Disk.Agree
import PageLoom.Proofs.Disk.Below
import PageLoom.Proofs.Disk.Changes
import PageLoom.Proofs.Disk.Entry
import PageLoom.Proofs.Disk.Flat
import PageLoom.Proofs.Disk.Follow
import PageLoom.Proofs.Disk.Fresh
import PageLoom.Proofs.Disk.Kept
import PageLoom.Proofs.Disk.PathLength
import PageLoom.Proofs.Disk.Scan
import PageLoom.Proofs.Disk.ScanResult
import PageLoom.Proofs.Disk.Spelling
import PageLoom.Proofs.Disk.Standing
import PageLoom.Proofs.Disk.Straight
import PageLoom.Proofs.Disk.Tree
import PageLoom.Proofs.Disk.Way
import PageLoom.Proofs.Indent.Again
import PageLoom.Proofs.Indent.Content
import PageLoom.Proofs.Indent.Counts
import PageLoom.Proofs.Indent.Depth
import PageLoom.Proofs.Indent.Lines
import PageLoom.Proofs.Indent.Listing
import PageLoom.Proofs.Indent.Markup
import PageLoom.Proofs.Indent.RawBody
import PageLoom.Proofs.Page.ActiveLink
import PageLoom.Proofs.Page.ActivePlaces
import PageLoom.Proofs.Page.Characters
import PageLoom.Proofs.Page.Source
import PageLoom.Proofs.PatternEnds
import PageLoom.Proofs.PatternReader
import PageLoom.Proofs.Placeholder
import PageLoom.Proofs.Search
import PageLoom.Proofs.Site.Apart
import PageLoom.Proofs.Site.Confined
import PageLoom.Proofs.Site.Copy
import PageLoom.Proofs.Site.CopyDepth
import PageLoom.Proofs.Site.CopyResult
import PageLoom.Proofs.Site.CopySource
import PageLoom.Proofs.Site.CopyVisits
import PageLoom.Proofs.Site.Failure
import PageLoom.Proofs.Site.FirstBuild
import PageLoom.Proofs.Site.FirstStages
import PageLoom.Proofs.Site.Init
import PageLoom.Proofs.Site.Loop
import PageLoom.Proofs.Site.Order
import PageLoom.Proofs.Site.Outputs
import PageLoom.Proofs.Site.PartTexts
import PageLoom.Proofs.Site.Progress
import PageLoom.Proofs.Site.Rebuild
import PageLoom.Proofs.Site.Reorder
import PageLoom.Proofs.Site.ReorderCopy
import PageLoom.Proofs.Site.Replay
import PageLoom.Proofs.Site.Result
import PageLoom.Proofs.Site.ScaffoldText
import PageLoom.Proofs.Site.Scaffolded
import PageLoom.Proofs.Site.Separate
import PageLoom.Proofs.Site.Session
import PageLoom.Proofs.Site.SourceTree
import PageLoom.Proofs.Site.Stages
import PageLoom.Proofs.Site.Stripped
import PageLoom.Proofs.Site.Walk
import PageLoom.Proofs.Splice.Directives
import PageLoom.Proofs.Splice.Leftover
import PageLoom.Proofs.Splice.Matches
import PageLoom.Proofs.Splice.Places
import PageLoom.Proofs.Splice.Scan
import PageLoom.Proofs.Splice.Words
import PageLoom.Proofs.Trim
import PageLoom.Site.Build
import PageLoom.Site.Copy
import PageLoom.Site.Error
import PageLoom.Site.Event
import PageLoom.Site.Fragments
import PageLoom.Site.Scaffold
import PageLoom.Site.Session
import PageLoom.Site.Standard
import PageLoom.Splice.Basic
import PageLoom.Splice.ClassToken
import PageLoom.Splice.Literal
import PageLoom.Splice.Needle
import PageLoom.Splice.Placeholder
import PageLoom.Style.Bundle
import PageLoom.Style.Colour
import PageLoom.Style.Declaration
import PageLoom.Style.Fault
import PageLoom.Style.Selector
import PageLoom.Style.Sheet
import PageLoom.Style.Token
import PageLoom.Text.Blank
import PageLoom.Text.CaseFold
import PageLoom.Text.CodeRange
import PageLoom.Text.HexDigit
import PageLoom.Text.Lines
import PageLoom.Text.Offset
import PageLoom.Text.Punctuation
import PageLoom.Text.Search
import PageLoom.Text.Word
import PageLoom.Toml.Document
import PageLoom.Toml.Lexical
import PageLoom.Toml.Moment
import PageLoom.Toml.Number
import PageLoom.Toml.Table
import PageLoom.Toml.Text
import PageLoom.Toml.Value
