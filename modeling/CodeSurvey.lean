/-
A survey of source code: findings for single files and whole repositories, and reports on them.

A source is read in its language.  `Scan` holds the passes, one or more for each language, over the
lines that `Masking` leaves of strings and comments; `Findings` is what they find, and `Summary`
groups it into sections.  `Walk` carries the same through a repository, file by file, within the
limits that `Settings` sets.  `Report` and `Record` write it down, for a reader and for a program,
and `CommandLine` puts the commands together from all of this, each asking a `Host` for what it
needs from the system.

`Pattern`, `Glob`, `Json`, `Yaml`, `Csv`, `Digest` and `Shell` are the languages and formats that
this rests on.  They are kept to what is used, and each can be run by itself.

The theory is under `Proofs`, in the same order.  A scan is followed line by line, a parser token by
token and the pool of a walk step by step: what one step keeps is shown first, and what holds of
every source, text or schedule follows by induction.
-/
import CodeSurvey.CommandLine.Invocation
import CodeSurvey.CommandLine.Options
import CodeSurvey.CommandLine.Run
import CodeSurvey.Count
import CodeSurvey.Csv
import CodeSurvey.Digest.Md5
import CodeSurvey.FileTree
import CodeSurvey.FileTree.Writing
import CodeSurvey.Findings
import CodeSurvey.Findings.JavaScript
import CodeSurvey.Findings.Markup
import CodeSurvey.Findings.Python
import CodeSurvey.Glob
import CodeSurvey.Glob.Matching
import CodeSurvey.Glob.Reader
import CodeSurvey.Host
import CodeSurvey.Json.Decode
import CodeSurvey.Json.Reader
import CodeSurvey.Json.Token
import CodeSurvey.Json.Value
import CodeSurvey.Json.Writer
import CodeSurvey.Language
import CodeSurvey.Lint.Command
import CodeSurvey.Lint.Problem
import CodeSurvey.Lint.Report
import CodeSurvey.Main
import CodeSurvey.Masking
import CodeSurvey.NameSet
import CodeSurvey.Pattern.Basic
import CodeSurvey.Pattern.Search
import CodeSurvey.Proofs.CommandLine.Separate
import CodeSurvey.Proofs.CommandLine.Shape
import CodeSurvey.Proofs.CommandLine.Traces
import CodeSurvey.Proofs.Css.Braces
import CodeSurvey.Proofs.Css.Comments
import CodeSurvey.Proofs.Css.Declarations
import CodeSurvey.Proofs.Css.Located
import CodeSurvey.Proofs.Css.Parts
import CodeSurvey.Proofs.Css.Tables
import CodeSurvey.Proofs.Css.UnusedSelectors
import CodeSurvey.Proofs.Csv.Reading
import CodeSurvey.Proofs.FileTree
import CodeSurvey.Proofs.Findings.Located
import CodeSurvey.Proofs.FirstSeen
import CodeSurvey.Proofs.Html.AttributeChecks
import CodeSurvey.Proofs.Html.DocumentOrder
import CodeSurvey.Proofs.Html.Documents
import CodeSurvey.Proofs.Html.HyphenatedNames
import CodeSurvey.Proofs.Html.Located
import CodeSurvey.Proofs.Html.Orderly
import CodeSurvey.Proofs.Html.OwnStacks
import CodeSurvey.Proofs.Html.Pieces
import CodeSurvey.Proofs.Html.Tags
import CodeSurvey.Proofs.JavaScript.Composition
import CodeSurvey.Proofs.JavaScript.Located
import CodeSurvey.Proofs.JavaScript.Merging
import CodeSurvey.Proofs.JavaScript.Operators
import CodeSurvey.Proofs.JavaScript.RegexLiterals
import CodeSurvey.Proofs.JavaScript.Templates
import CodeSurvey.Proofs.JavaScript.Unused
import CodeSurvey.Proofs.Json.Lexing
import CodeSurvey.Proofs.Json.Reading
import CodeSurvey.Proofs.Masking
import CodeSurvey.Proofs.Masking.Literals
import CodeSurvey.Proofs.Masking.MaskedTwice
import CodeSurvey.Proofs.Masking.Rendered
import CodeSurvey.Proofs.Masking.Segment
import CodeSurvey.Proofs.Masking.Tokens
import CodeSurvey.Proofs.NameSet
import CodeSurvey.Proofs.Overview.Joined
import CodeSurvey.Proofs.PathOrder
import CodeSurvey.Proofs.Pattern.Blank
import CodeSurvey.Proofs.Pattern.Cuts
import CodeSurvey.Proofs.Pattern.First
import CodeSurvey.Proofs.Pattern.Places
import CodeSurvey.Proofs.Pattern.Quoted
import CodeSurvey.Proofs.Pattern.Repetition
import CodeSurvey.Proofs.Pattern.Runs
import CodeSurvey.Proofs.Pattern.Searching
import CodeSurvey.Proofs.Pattern.Spans
import CodeSurvey.Proofs.Pattern.WholeWords
import CodeSurvey.Proofs.Python.Assigned
import CodeSurvey.Proofs.Python.Bindings
import CodeSurvey.Proofs.Python.BlockChanges
import CodeSurvey.Proofs.Python.Blocks
import CodeSurvey.Proofs.Python.CallTokens
import CodeSurvey.Proofs.Python.Calls
import CodeSurvey.Proofs.Python.CommentLines
import CodeSurvey.Proofs.Python.Comments
import CodeSurvey.Proofs.Python.Contentless
import CodeSurvey.Proofs.Python.Counting
import CodeSurvey.Proofs.Python.Depth
import CodeSurvey.Proofs.Python.Docstrings
import CodeSurvey.Proofs.Python.Duplicates
import CodeSurvey.Proofs.Python.Headers
import CodeSurvey.Proofs.Python.Imports
import CodeSurvey.Proofs.Python.Laminar
import CodeSurvey.Proofs.Python.LeadingWords
import CodeSurvey.Proofs.Python.Lexing
import CodeSurvey.Proofs.Python.Located
import CodeSurvey.Proofs.Python.LoopTargets
import CodeSurvey.Proofs.Python.MovedFindings
import CodeSurvey.Proofs.Python.NameTables
import CodeSurvey.Proofs.Python.Names
import CodeSurvey.Proofs.Python.Numbering
import CodeSurvey.Proofs.Python.Origins
import CodeSurvey.Proofs.Python.Outline
import CodeSurvey.Proofs.Python.Parameters
import CodeSurvey.Proofs.Python.Passage
import CodeSurvey.Proofs.Python.Reading
import CodeSurvey.Proofs.Python.Strings
import CodeSurvey.Proofs.Python.TargetLists
import CodeSurvey.Proofs.Python.TargetPlaces
import CodeSurvey.Proofs.Python.Targets
import CodeSurvey.Proofs.Python.Uninitialized
import CodeSurvey.Proofs.Python.Unreachable
import CodeSurvey.Proofs.Python.Uses
import CodeSurvey.Proofs.Record.Fields
import CodeSurvey.Proofs.Record.RoundTrip
import CodeSurvey.Proofs.Report.Printed
import CodeSurvey.Proofs.Repository.Analysis
import CodeSurvey.Proofs.Repository.Tallies
import CodeSurvey.Proofs.Settings.Gate
import CodeSurvey.Proofs.Summary.Listing
import CodeSurvey.Proofs.Summary.Shape
import CodeSurvey.Proofs.Text.Endings
import CodeSurvey.Proofs.Text.Offsets
import CodeSurvey.Proofs.Text.Pieces
import CodeSurvey.Proofs.Text.Words
import CodeSurvey.Proofs.UpTo
import CodeSurvey.Proofs.Walk.Accounting
import CodeSurvey.Proofs.Walk.Budget
import CodeSurvey.Proofs.Walk.Cancellation
import CodeSurvey.Proofs.Walk.Enumeration
import CodeSurvey.Proofs.Walk.FailedReads
import CodeSurvey.Proofs.Walk.Protocol
import CodeSurvey.Proofs.Walk.Schedule
import CodeSurvey.Record.Findings
import CodeSurvey.Record.JavaScript
import CodeSurvey.Record.Lint
import CodeSurvey.Record.Markup
import CodeSurvey.Record.Python
import CodeSurvey.Record.Repository
import CodeSurvey.Record.Section
import CodeSurvey.Record.Settings
import CodeSurvey.Report
import CodeSurvey.Report.File
import CodeSurvey.Report.Pretty
import CodeSurvey.Repository.Analysis
import CodeSurvey.Scan.Css
import CodeSurvey.Scan.Html
import CodeSurvey.Scan.JavaScript
import CodeSurvey.Scan.Overview
import CodeSurvey.Scan.Python
import CodeSurvey.Scan.PythonBindings
import CodeSurvey.Scan.PythonBlocks
import CodeSurvey.Scan.PythonOutline
import CodeSurvey.Settings
import CodeSurvey.Settings.Loading
import CodeSurvey.Settings.Reader
import CodeSurvey.Shell.Reader
import CodeSurvey.Shell.Script
import CodeSurvey.Shell.Session
import CodeSurvey.Shell.Tools
import CodeSurvey.SortedMap
import CodeSurvey.Summary
import CodeSurvey.Summary.JavaScript
import CodeSurvey.Summary.Markup
import CodeSurvey.Summary.Overview
import CodeSurvey.Summary.Python
import CodeSurvey.Summary.Section
import CodeSurvey.Text.Chars
import CodeSurvey.Text.Lines
import CodeSurvey.Text.Printable
import CodeSurvey.Text.Quoted
import CodeSurvey.Text.Ranges
import CodeSurvey.Text.Styled
import CodeSurvey.Text.Utf8
import CodeSurvey.Text.Word
import CodeSurvey.Timestamp
import CodeSurvey.Walk
import CodeSurvey.Walk.Candidate
import CodeSurvey.Walk.Event
import CodeSurvey.Walk.Limits
import CodeSurvey.Walk.Pool
import CodeSurvey.Yaml.Cursor
import CodeSurvey.Yaml.Decode
import CodeSurvey.Yaml.Reader
import CodeSurvey.Yaml.Scalar
import CodeSurvey.Yaml.Token
import CodeSurvey.Yaml.Value
