import Esm.Code
import Esm.Command.Arguments
import Esm.Command.Compile
import Esm.Command.Failure
import Esm.Command.Run
import Esm.Content.JsonModule
import Esm.Content.Kind
import Esm.Content.Load
import Esm.Content.SourceText
import Esm.Content.Transport
import Esm.Encoding.Format
import Esm.Encoding.Reader
import Esm.Encoding.Word
import Esm.Environment
import Esm.FileTree.Basic
import Esm.FileTree.Change
import Esm.FileTree.RealPath
import Esm.FileTree.Walk
import Esm.Interface.Analysis
import Esm.Interface.Basic
import Esm.Interface.Clause
import Esm.Interface.Export
import Esm.Interface.Import
import Esm.LoadError
import Esm.Loader
import Esm.Location.Library
import Esm.Location.Probe
import Esm.Location.Resolve
import Esm.Location.Specifier
import Esm.Main
import Esm.Module
import Esm.Path.Basic
import Esm.Path.Reduced
import Esm.Proofs.Code.Atoms
import Esm.Proofs.Code.Lowering
import Esm.Proofs.Encoding.Accepted
import Esm.Proofs.Encoding.Canonical
import Esm.Proofs.FileTree.Lexical
import Esm.Proofs.Interface.Names
import Esm.Proofs.Loader.Addresses
import Esm.Proofs.Loader.Identity
import Esm.Proofs.Loader.Found
import Esm.Proofs.Loader.Loading
import Esm.Proofs.Loader.Provenance
import Esm.Proofs.Loader.Restamping
import Esm.Proofs.Loader.Stamping
import Esm.Proofs.Registry.Advance
import Esm.Proofs.Registry.Dependencies
import Esm.Proofs.Registry.Leftover
import Esm.Proofs.Registry.Depth
import Esm.Proofs.Registry.Discovery
import Esm.Proofs.Registry.Evaluation
import Esm.Proofs.Registry.Lifecycle
import Esm.Proofs.Registry.LinkInduction
import Esm.Proofs.Registry.Log
import Esm.Proofs.Registry.Marking
import Esm.Proofs.Registry.Needs
import Esm.Proofs.Registry.Records
import Esm.Proofs.Registry.Retry
import Esm.Proofs.Registry.Run
import Esm.Proofs.Registry.Simulation
import Esm.Proofs.Registry.Supply
import Esm.Proofs.Registry.Termination
import Esm.Proofs.Registry.Unfinished
import Esm.Proofs.Startup.Modes
import Esm.Proofs.Token.Extent
import Esm.Registry.Basic
import Esm.Registry.Evaluate
import Esm.Registry.Link
import Esm.Registry.MemoryHost
import Esm.Stamp
import Esm.Startup.Basic
import Esm.Startup.Builtin
import Esm.SyntaxError
import Esm.Table
import Esm.Text.Blank
import Esm.Text.CodePoints
import Esm.Text.Escapes
import Esm.Text.Identifier
import Esm.Text.Position
import Esm.Text.Quoted
import Esm.Text.Split
import Esm.Text.Utf8
import Esm.Text.Visible
import Esm.Token.Basic
import Esm.Token.Lexeme
import Esm.Token.Scanner
import Esm.Url.Basic
import Esm.Url.Host
import Esm.Url.Percent
import Esm.Proofs.Content.JsonModule
import Esm.Proofs.Registry.Session
import Esm.Proofs.Token.Followed
import Esm.Proofs.Interface.Nested
import Esm.Proofs.Interface.Followed
import Esm.Proofs.Module.Concatenation
import Esm.Proofs.Token.Scanned
import Esm.Proofs.Interface.Grammar
import Esm.Proofs.Interface.Statements
import Esm.Proofs.Interface.Brackets
import Esm.Proofs.Interface.Unchecked
import Esm.Proofs.Module.Listing
import Esm.Proofs.FileTree.Names
import Esm.Proofs.Startup.Stamps
import Esm.Proofs.Loader.Bare
import Esm.Proofs.Registry.Handles
import Esm.Proofs.Registry.Bindings
import Esm.Proofs.Registry.DepthFirst
import Esm.Proofs.Registry.FirstFailure
import Esm.Proofs.Loader.Serving
import Esm.Proofs.Startup.Unfailing
import Esm.Proofs.Startup.Failures
import Esm.Proofs.FileTree.Writing
import Esm.Proofs.Command.Compiling
import Esm.Proofs.Encoding.Delimited
import Esm.Proofs.Encoding.OppositeOrder
import Esm.Proofs.Content.Cooked
import Esm.Proofs.Interface.Patterns
import Esm.Proofs.Interface.Bound
import Esm.Proofs.Interface.Destructuring
import Esm.Proofs.Token.Shape
import Esm.Proofs.Token.Tiling
import Esm.Proofs.Token.Inside
import Esm.Proofs.Token.Slash
import Esm.Proofs.Token.Tagged
import Esm.Proofs.Token.Conversion
import Esm.Proofs.Token.Progress
import Esm.Proofs.Path.Parts
import Esm.Proofs.Path.Reduction
import Esm.Proofs.Location.Routes
import Esm.Proofs.Location.Search
import Esm.Proofs.Path.Bytes
import Esm.Proofs.FileTree.Collapsing
import Esm.Proofs.FileTree.RealPath
import Esm.Proofs.Loader.Atomicity
import Esm.Proofs.Loader.Found
import Esm.Proofs.Text.Slices
import Esm.Proofs.Text.Lines
import Esm.Proofs.Offsets.Attempt
import Esm.Proofs.Offsets.Scanner
import Esm.Proofs.Offsets.Declarations
import Esm.Proofs.Offsets.Reading
import Esm.Proofs.Offsets.Compile
import Esm.Proofs.Module.Positions
import Esm.Proofs.Interface.Declared
import Esm.Proofs.Interface.Requested
