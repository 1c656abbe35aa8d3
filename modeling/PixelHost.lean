import PixelHost.Binary64
import PixelHost.Bytes
import PixelHost.Cli.Arguments
import PixelHost.Cli.Help
import PixelHost.Cli.Integer
import PixelHost.Cli.Service
import PixelHost.Delay
import PixelHost.Device.Serial
import PixelHost.Effect.Color
import PixelHost.Effect.Noise
import PixelHost.Effect.Scalar
import PixelHost.Engine.Basic
import PixelHost.Engine.Interpreter
import PixelHost.Engine.Metrics
import PixelHost.Engine.ResetSignal
import PixelHost.Engine.Scheduler
import PixelHost.Engine.Session
import PixelHost.Engine.Sink
import PixelHost.Engine.Worker
import PixelHost.Files.FileError
import PixelHost.Files.Tree
import PixelHost.Http.Listing
import PixelHost.Http.Request
import PixelHost.Http.Response
import PixelHost.Http.Route
import PixelHost.Lua.Arith
import PixelHost.Lua.Call
import PixelHost.Lua.Chunk
import PixelHost.Lua.Code
import PixelHost.Lua.Collect
import PixelHost.Lua.Compiler
import PixelHost.Lua.Execution
import PixelHost.Lua.Expression
import PixelHost.Lua.Globals
import PixelHost.Lua.Lexer
import PixelHost.Lua.Library
import PixelHost.Lua.Library.Argument
import PixelHost.Lua.Library.Base
import PixelHost.Lua.Library.Characters
import PixelHost.Lua.Library.Coroutines
import PixelHost.Lua.Library.Effects
import PixelHost.Lua.Library.Format
import PixelHost.Lua.Library.Maths
import PixelHost.Lua.Library.Packing
import PixelHost.Lua.Library.Pattern
import PixelHost.Lua.Library.Strings
import PixelHost.Lua.Library.System
import PixelHost.Lua.Library.Tables
import PixelHost.Lua.Machine
import PixelHost.Lua.Naming
import PixelHost.Lua.Native
import PixelHost.Lua.Nested
import PixelHost.Lua.Operation
import PixelHost.Lua.Phrase
import PixelHost.Lua.Scope
import PixelHost.Lua.Statement
import PixelHost.Lua.Step
import PixelHost.Lua.SyntaxError
import PixelHost.Lua.Table
import PixelHost.Lua.Token
import PixelHost.Lua.Value
import PixelHost.Main
import PixelHost.Sandbox.Basic
import PixelHost.Sandbox.Result
import PixelHost.ScriptError
import PixelHost.Server.Metrics
import PixelHost.Server.Reactor
import PixelHost.Server.Upload
import PixelHost.Server.Wire
import PixelHost.Settings.Basic
import PixelHost.Settings.Document
import PixelHost.Settings.Load
import PixelHost.Text.Base64
import PixelHost.Text.Blank
import PixelHost.Text.FloatFormat
import PixelHost.Text.JsonText
import PixelHost.Text.Numeral
import PixelHost.Text.Quoted
import PixelHost.Text.ShortestDecimal
import PixelHost.Text.Utf8
import PixelHost.Toml.Cursor
import PixelHost.Toml.Document
import PixelHost.Toml.Excerpt
import PixelHost.Toml.Node
import PixelHost.Toml.Number
import PixelHost.Toml.Text
import PixelHost.WebSocket.Digest
import PixelHost.WebSocket.Frame
import PixelHost.WebSocket.Handshake
import PixelHost.WebSocket.Socket
import PixelHost.Proofs.Engine.Answers
import PixelHost.Proofs.Engine.Cadence
import PixelHost.Proofs.Engine.Chunks
import PixelHost.Proofs.Engine.Clients
import PixelHost.Proofs.Engine.Counters
import PixelHost.Proofs.Engine.HandOver
import PixelHost.Proofs.Engine.Replies
import PixelHost.Proofs.Engine.Sinks
import PixelHost.Proofs.Lua.Access
import PixelHost.Proofs.Lua.Calls
import PixelHost.Proofs.Lua.Execution
import PixelHost.Proofs.Lua.Libraries
import PixelHost.Proofs.Lua.Marking
import PixelHost.Proofs.Lua.Moments
import PixelHost.Proofs.Lua.Names
import PixelHost.Proofs.Lua.Parts
import PixelHost.Proofs.Lua.Realm
import PixelHost.Proofs.Lua.Shape
import PixelHost.Proofs.Sandbox.Budget
import PixelHost.Proofs.Sandbox.Confinement
import PixelHost.Proofs.Sandbox.Inward
import PixelHost.Proofs.Sandbox.Isolation
import PixelHost.Proofs.Sandbox.Undisturbed
import PixelHost.Proofs.Sandbox.Preparation
import PixelHost.Proofs.Sandbox.Sealing
import PixelHost.Proofs.Settings.Merge
import PixelHost.Proofs.Server.Runs
import PixelHost.Proofs.Server.Visits
import PixelHost.Proofs.Server.Admission
import PixelHost.Proofs.Http.Head
import PixelHost.Proofs.Server.Classification
import PixelHost.Proofs.Server.Intake
import PixelHost.Proofs.Server.Passes
import PixelHost.Proofs.Server.Courses
import PixelHost.Proofs.Server.Oversize
import PixelHost.Proofs.Server.Drops
import PixelHost.Proofs.Http.RequestHead
import PixelHost.Proofs.Lua.Doubles
import PixelHost.Proofs.Sandbox.Results
import PixelHost.Proofs.Sandbox.Boundary
import PixelHost.Proofs.Sandbox.Sizes
import PixelHost.Proofs.Lua.Ends
import PixelHost.Proofs.Sandbox.Blank
import PixelHost.Proofs.Engine.Installed
import PixelHost.Proofs.Http.Status
import PixelHost.Proofs.Http.Lines
import PixelHost.Proofs.Http.Framing
import PixelHost.Proofs.Http.Routing
import PixelHost.Proofs.Engine.Sleeping
import PixelHost.Proofs.Engine.Responsiveness
import PixelHost.Proofs.Engine.Patience
import PixelHost.Proofs.Engine.Register
import PixelHost.Proofs.Engine.Completions
import PixelHost.Proofs.Text.ByteOrder
import PixelHost.Proofs.Http.Examples
import PixelHost.Proofs.Effect.Rounding
import PixelHost.Proofs.Effect.Hue
import PixelHost.Proofs.Effect.Gradient
import PixelHost.Proofs.Effect.Lattice
import PixelHost.Proofs.Lua.Library.Effects
import PixelHost.Proofs.Sandbox.Loading
