import VerusExplorer.Lib.Lines
import VerusExplorer.Lib.Fold
import VerusExplorer.Lib.Utf16
import VerusExplorer.Lib.Utf8Lossy
import VerusExplorer.Lib.Stable
import VerusExplorer.Lib.Runs
import VerusExplorer.Lib.Select
import VerusExplorer.Lib.Segments
import VerusExplorer.Lib.Traced
import VerusExplorer.Lib.Machine
import VerusExplorer.Lib.OrderedMap
import VerusExplorer.Lib.Json
import VerusExplorer.Lib.Base64
import VerusExplorer.Dump.Scanner
import VerusExplorer.Dump.Emit
import VerusExplorer.Dump.Walk
import VerusExplorer.Dump.Smt
import VerusExplorer.Dump.Replies
import VerusExplorer.Verify.Session
import VerusExplorer.Verify.Verdict
import VerusExplorer.Verify.HandleOp
import VerusExplorer.Verify.Queries
import VerusExplorer.Verify.Sections
import VerusExplorer.Verify.Dumps
import VerusExplorer.Verify.Checks
import VerusExplorer.Page.Tabs
import VerusExplorer.Page.Panel
import VerusExplorer.Verify.Verdicts
import VerusExplorer.Wasm.Diagnostics
import VerusExplorer.Wasm.Output
import VerusExplorer.Page.Share
import VerusExplorer.Page.Editor
import VerusExplorer.Page.App
import VerusExplorer.Page.Steps
import VerusExplorer.Page.Runs
import VerusExplorer.Page.Sources
import VerusExplorer.Page.Auto
import VerusExplorer.Lib.Latest
import VerusExplorer.Page.Address
import VerusExplorer.Page.Saves
import VerusExplorer.Page.Navigation
import VerusExplorer.Page.CopyLink
import VerusExplorer.Page.Controls
import VerusExplorer.Page.Requests
import VerusExplorer.Page.Drafts
import VerusExplorer.Lib.Brackets
import VerusExplorer.Dump.Markers
import VerusExplorer.Dump.Views
import VerusExplorer.Lib.JsonGrammar
import VerusExplorer.Verify.Channel
import VerusExplorer.Verify.Rejections
import VerusExplorer.Page.Survivors
import VerusExplorer.Dump.FoldTree
import VerusExplorer.Dump.Ranges
import VerusExplorer.Dump.Content
import VerusExplorer.Dump.WalkOrder
import VerusExplorer.Dump.Sexp
import VerusExplorer.Verify.Probes
import VerusExplorer.Lib.Protocol
import VerusExplorer.Verify.Protocol
import VerusExplorer.Verify.Retries
import VerusExplorer.Verify.Schedule
import VerusExplorer.Verify.Termination
import VerusExplorer.Page.Positions
import VerusExplorer.Page.Inline
import VerusExplorer.Lib.Loops
import VerusExplorer.Lib.Gather
import VerusExplorer.Page.LineMarks
import VerusExplorer.Page.AutoOff
import VerusExplorer.Page.KeptTab
import VerusExplorer.Lib.Timers
import VerusExplorer.Verify.Stages
import VerusExplorer.Page.Timings
import VerusExplorer.Verify.Invariants
import VerusExplorer.Verify.Expansion
import VerusExplorer.Page.Rest
import VerusExplorer.Page.Reload
import VerusExplorer.Verify.Pipeline
import VerusExplorer.Verify.Emitted
import VerusExplorer.Page.Sections
import VerusExplorer.Verify.Build
import VerusExplorer.Page.Green
import VerusExplorer.Verify.Execute
import VerusExplorer.Page.Toolbar
import VerusExplorer.Wasm.Libs
import VerusExplorer.Page.ColdLoad
import VerusExplorer.Lib.Urlencoded
import VerusExplorer.Lib.Matching
import VerusExplorer.Page.Viewer
import VerusExplorer.Lib.FoldView
import VerusExplorer.Page.OutputView
import VerusExplorer.Page.Outline
import VerusExplorer.Lib.Paired
import VerusExplorer.Verify.Again
