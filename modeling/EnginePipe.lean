import EnginePipe.Attempt
import EnginePipe.Bridge.Builtin
import EnginePipe.Bridge.DefaultSlot
import EnginePipe.Bridge.Desk
import EnginePipe.Bridge.External
import EnginePipe.Bridge.Registry
import EnginePipe.Bridge.Runtime
import EnginePipe.Bridge.Selector
import EnginePipe.Build
import EnginePipe.Channel.EngineProcess
import EnginePipe.Channel.Lifeline
import EnginePipe.Channel.Peer
import EnginePipe.Channel.ScriptedSink
import EnginePipe.Channel.Tapped
import EnginePipe.Channel.Transport
import EnginePipe.Channel.Usage
import EnginePipe.Cli.Arguments
import EnginePipe.Cli.Output
import EnginePipe.Cli.Run
import EnginePipe.Context.Basic
import EnginePipe.Context.Logged
import EnginePipe.Context.PipeSession
import EnginePipe.Context.ScriptedSession
import EnginePipe.Context.Session
import EnginePipe.Descriptor
import EnginePipe.Engine.Pipe
import EnginePipe.Engine.Program
import EnginePipe.Engine.RuleScript
import EnginePipe.Engine.Rules
import EnginePipe.Engine.Script
import EnginePipe.Engine.Toy
import EnginePipe.Error
import EnginePipe.Frame.Framing
import EnginePipe.Frame.Reassembler
import EnginePipe.Frame.Request
import EnginePipe.Frame.Response
import EnginePipe.Frame.Slices
import EnginePipe.Host.Basic
import EnginePipe.Host.Changes
import EnginePipe.Host.Files
import EnginePipe.Host.Interpreter
import EnginePipe.Host.SystemError
import EnginePipe.Json.Grammar
import EnginePipe.Json.Printer
import EnginePipe.Json.Reader
import EnginePipe.Json.Value
import EnginePipe.Launch.Calls
import EnginePipe.Launch.Command
import EnginePipe.Launch.Contention
import EnginePipe.Launch.Execution
import EnginePipe.Launch.Launchers
import EnginePipe.Launch.Locate
import EnginePipe.Launch.Manager
import EnginePipe.Launch.Pool
import EnginePipe.Launch.Watched
import EnginePipe.Launch.World
import EnginePipe.Main
import EnginePipe.Proofs.Bridge.Ageing
import EnginePipe.Proofs.Bridge.Calls
import EnginePipe.Proofs.Bridge.Cleanup
import EnginePipe.Proofs.Bridge.Defaults
import EnginePipe.Proofs.Bridge.Errands
import EnginePipe.Proofs.Bridge.Hosting
import EnginePipe.Proofs.Bridge.Isolation
import EnginePipe.Proofs.Bridge.Places
import EnginePipe.Proofs.Bridge.Probing
import EnginePipe.Proofs.Bridge.Refinement
import EnginePipe.Proofs.Bridge.Runs
import EnginePipe.Proofs.Bridge.Selection
import EnginePipe.Proofs.Bridge.Tidiness
import EnginePipe.Proofs.Bridge.Turns
import EnginePipe.Proofs.Bridge.Unstartable
import EnginePipe.Proofs.Channel.Engines
import EnginePipe.Proofs.Channel.Lifelines
import EnginePipe.Proofs.Channel.Pairing
import EnginePipe.Proofs.Channel.Survival
import EnginePipe.Proofs.Channel.Tapping
import EnginePipe.Proofs.Cli.Outcomes
import EnginePipe.Proofs.Context.Failures
import EnginePipe.Proofs.Context.Lifetimes
import EnginePipe.Proofs.Context.Operations
import EnginePipe.Proofs.Context.Scenes
import EnginePipe.Proofs.Context.Values
import EnginePipe.Proofs.Engine.Assignments
import EnginePipe.Proofs.Engine.Scopes
import EnginePipe.Proofs.Engine.Serving
import EnginePipe.Proofs.Frame.Atoms
import EnginePipe.Proofs.Frame.Cuts
import EnginePipe.Proofs.Frame.Delivery
import EnginePipe.Proofs.Frame.Reassembly
import EnginePipe.Proofs.Frame.Replies
import EnginePipe.Proofs.Frame.Requests
import EnginePipe.Proofs.Frame.Slicing
import EnginePipe.Proofs.Frame.Wires
import EnginePipe.Proofs.Json.Escaping
import EnginePipe.Proofs.Json.Extension
import EnginePipe.Proofs.Json.Grammar.Completeness
import EnginePipe.Proofs.Json.Grammar.Layout
import EnginePipe.Proofs.Json.Grammar.Soundness
import EnginePipe.Proofs.Json.Grammar.Texts
import EnginePipe.Proofs.Json.Leaves
import EnginePipe.Proofs.Json.Legible
import EnginePipe.Proofs.Json.Members
import EnginePipe.Proofs.Json.ReadBack
import EnginePipe.Proofs.Json.Scaling
import EnginePipe.Proofs.Json.Soundness
import EnginePipe.Proofs.Launch.Contention
import EnginePipe.Proofs.Launch.Failures
import EnginePipe.Proofs.Launch.Searches
import EnginePipe.Proofs.Real.Rounding
import EnginePipe.Proofs.Text.Escaping
import EnginePipe.Proofs.Text.Lines
import EnginePipe.Proofs.Text.Parts
import EnginePipe.Real.Binary64
import EnginePipe.Real.Shortest
import EnginePipe.Source
import EnginePipe.Text.Affix
import EnginePipe.Text.Blank
import EnginePipe.Text.Bytes
import EnginePipe.Text.Escape
import EnginePipe.Text.Quoted
import EnginePipe.Text.Units
import EnginePipe.Text.Unseen
