import SchemaRename.Cleanup
import SchemaRename.Cli.Arguments
import SchemaRename.Cli.Help
import SchemaRename.Cli.Response
import SchemaRename.Error
import SchemaRename.Fetch
import SchemaRename.FileTree.AtomicWrite
import SchemaRename.FileTree.Basic
import SchemaRename.FileTree.Change
import SchemaRename.FileTree.Copy
import SchemaRename.FileTree.Difference
import SchemaRename.FileTree.Path
import SchemaRename.FileTree.Resolve
import SchemaRename.Glob.Pattern
import SchemaRename.Glob.Walk
import SchemaRename.Json.Basic
import SchemaRename.Json.Reader
import SchemaRename.Json.Writer
import SchemaRename.Lookup
import SchemaRename.Main
import SchemaRename.Markup.Attribute
import SchemaRename.Markup.Document
import SchemaRename.Markup.Element
import SchemaRename.Markup.Entity
import SchemaRename.Markup.Event
import SchemaRename.Markup.Writer
import SchemaRename.Pattern.Bracket
import SchemaRename.Pattern.CharSet
import SchemaRename.Pattern.Escape
import SchemaRename.Pattern.Expr
import SchemaRename.Pattern.Flags
import SchemaRename.Pattern.Parser
import SchemaRename.Pattern.Property
import SchemaRename.Pattern.Spans
import SchemaRename.Proofs.Cleanup.Exact
import SchemaRename.Proofs.Cleanup.Foretold
import SchemaRename.Proofs.Cleanup.RootSpelling
import SchemaRename.Proofs.Cleanup.StartedFrom
import SchemaRename.Proofs.Cleanup.Tied
import SchemaRename.Proofs.FileTree.AllOrNothing
import SchemaRename.Proofs.FileTree.Copying
import SchemaRename.Proofs.FileTree.Counting
import SchemaRename.Proofs.FileTree.Descending
import SchemaRename.Proofs.FileTree.Following
import SchemaRename.Proofs.FileTree.Overlaying
import SchemaRename.Proofs.FileTree.PathOrder
import SchemaRename.Proofs.FileTree.PathSteps
import SchemaRename.Proofs.FileTree.Places
import SchemaRename.Proofs.FileTree.Plain
import SchemaRename.Proofs.FileTree.Removing
import SchemaRename.Proofs.FileTree.Replacing
import SchemaRename.Proofs.FileTree.Siblings
import SchemaRename.Proofs.FileTree.Thinning
import SchemaRename.Proofs.FileTree.TidyPath
import SchemaRename.Proofs.FileTree.Walking
import SchemaRename.Proofs.Glob.Escaped
import SchemaRename.Proofs.Glob.Listing
import SchemaRename.Proofs.Glob.OneWay
import SchemaRename.Proofs.Glob.Shape
import SchemaRename.Proofs.Json.Layouts
import SchemaRename.Proofs.Lookup.Destinations
import SchemaRename.Proofs.Lookup.LastWord
import SchemaRename.Proofs.Lookup.LeftBehind
import SchemaRename.Proofs.Lookup.Retargeting
import SchemaRename.Proofs.Lookup.SourceKept
import SchemaRename.Proofs.Markup.Children
import SchemaRename.Proofs.Markup.References
import SchemaRename.Proofs.Markup.RoundTrip
import SchemaRename.Proofs.Markup.Scanning
import SchemaRename.Proofs.Markup.Tags
import SchemaRename.Proofs.Markup.TreeWalk
import SchemaRename.Proofs.Pattern.Ends
import SchemaRename.Proofs.Pattern.Escaped
import SchemaRename.Proofs.Pattern.Needle
import SchemaRename.Proofs.Pattern.Successive
import SchemaRename.Proofs.RenameMap.RoundTrip
import SchemaRename.Proofs.Rule.Blocks
import SchemaRename.Proofs.Rule.Bounds
import SchemaRename.Proofs.Rule.Counted
import SchemaRename.Proofs.Rule.Edges
import SchemaRename.Proofs.Rule.Expansion
import SchemaRename.Proofs.Rule.Literal
import SchemaRename.Proofs.Run.Accounting
import SchemaRename.Proofs.Run.Batches
import SchemaRename.Proofs.Run.DryRun
import SchemaRename.Proofs.Run.FileByFile
import SchemaRename.Proofs.Run.Foretelling
import SchemaRename.Proofs.Run.Rewriting
import SchemaRename.Proofs.Run.Stopping
import SchemaRename.Proofs.Scope.Edits
import SchemaRename.Proofs.Substitution.Commuting
import SchemaRename.Proofs.Substitution.Fields
import SchemaRename.Proofs.Substitution.Hazards
import SchemaRename.Proofs.Substitution.Leftovers
import SchemaRename.Proofs.Substitution.LineByLine
import SchemaRename.Proofs.Substitution.Occurrences
import SchemaRename.Proofs.Substitution.Taken
import SchemaRename.Proofs.Substitution.TwoPasses
import SchemaRename.Proofs.Substitution.WholeIdentifiers
import SchemaRename.Proofs.Template.Merging
import SchemaRename.Proofs.Template.Overlapping
import SchemaRename.Proofs.Text.Cutting
import SchemaRename.Proofs.Text.Identifier
import SchemaRename.RenameMap.Basic
import SchemaRename.RenameMap.Decode
import SchemaRename.RenameMap.Encode
import SchemaRename.Report
import SchemaRename.Rule
import SchemaRename.Run
import SchemaRename.Scope
import SchemaRename.Substitution
import SchemaRename.Template.Basic
import SchemaRename.Template.Catalog
import SchemaRename.Template.Merge
import SchemaRename.Template.Overlap
import SchemaRename.Text.Blank
import SchemaRename.Text.CaseFold
import SchemaRename.Text.CaseMap
import SchemaRename.Text.CaseRun
import SchemaRename.Text.Category
import SchemaRename.Text.DerivedProperty
import SchemaRename.Text.HexDigit
import SchemaRename.Text.ListedProperty
import SchemaRename.Text.Quoted
import SchemaRename.Text.Runs
import SchemaRename.Text.Script
import SchemaRename.Text.Search
import SchemaRename.Text.Size
