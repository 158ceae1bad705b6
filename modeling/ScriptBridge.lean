import ScriptBridge.Action
import ScriptBridge.CommandLine
import ScriptBridge.Config
import ScriptBridge.Config.Reader
import ScriptBridge.Config.Text
import ScriptBridge.Error
import ScriptBridge.Execution
import ScriptBridge.Host.Class
import ScriptBridge.Host.Construction
import ScriptBridge.Host.Library
import ScriptBridge.Host.Marshal
import ScriptBridge.Host.Members
import ScriptBridge.Host.Samples
import ScriptBridge.Host.Signal
import ScriptBridge.Host.Type
import ScriptBridge.Host.Value
import ScriptBridge.Json.Cursor
import ScriptBridge.Json.Tree
import ScriptBridge.LogLevel
import ScriptBridge.Main
import ScriptBridge.Native.Operations
import ScriptBridge.Native.Samples
import ScriptBridge.Native.Traits
import ScriptBridge.Native.Wrap
import ScriptBridge.Number.Decimal
import ScriptBridge.Number.Double
import ScriptBridge.Number.FloatText
import ScriptBridge.Number.Numeral
import ScriptBridge.Number.Power
import ScriptBridge.Program
import ScriptBridge.Report
import ScriptBridge.Report.Excerpt
import ScriptBridge.Script.Builtin
import ScriptBridge.Script.Callback
import ScriptBridge.Script.Chunk
import ScriptBridge.Script.Datum
import ScriptBridge.Script.Evaluation
import ScriptBridge.Script.Frame
import ScriptBridge.Script.Library
import ScriptBridge.Script.Machine
import ScriptBridge.Script.Metamethod
import ScriptBridge.Script.Number
import ScriptBridge.Script.Operation
import ScriptBridge.Script.Parser
import ScriptBridge.Script.Pattern
import ScriptBridge.Script.Reach
import ScriptBridge.Script.Run
import ScriptBridge.Script.Standard
import ScriptBridge.Script.Step
import ScriptBridge.Script.Token
import ScriptBridge.State.Basic
import ScriptBridge.State.Opening
import ScriptBridge.Text.Blank
import ScriptBridge.Text.Lines
import ScriptBridge.Text.Quoted
import ScriptBridge.Text.Unprintable
import ScriptBridge.Text.Utf8
import ScriptBridge.Value
import ScriptBridge.Value.Conversion
import ScriptBridge.Value.Operations
import ScriptBridge.Value.Table
import ScriptBridge.World.Anchors
import ScriptBridge.World.Basic
import ScriptBridge.World.Collection
import ScriptBridge.World.Connections
import ScriptBridge.World.Op
import ScriptBridge.World.Show
import ScriptBridge.World.Store
import ScriptBridge.World.Threads
import ScriptBridge.World.Tree
import ScriptBridge.World.Types
import ScriptBridge.Proofs.Owned
import ScriptBridge.Proofs.Isolated
import ScriptBridge.Proofs.Permitted
import ScriptBridge.Proofs.Runs
import ScriptBridge.Proofs.Contract
import ScriptBridge.Proofs.Passage
import ScriptBridge.Proofs.Machine
import ScriptBridge.Proofs.Evaluation
import ScriptBridge.Proofs.Standard
import ScriptBridge.Proofs.Values
import ScriptBridge.Proofs.Alike
import ScriptBridge.Proofs.Marshal
import ScriptBridge.Proofs.Hosts
import ScriptBridge.Proofs.States
import ScriptBridge.Proofs.Requests
import ScriptBridge.Proofs.Opening
import ScriptBridge.Proofs.Session
import ScriptBridge.Proofs.Objects
import ScriptBridge.Proofs.Tree
import ScriptBridge.Proofs.Destroyed
import ScriptBridge.Proofs.Apart
import ScriptBridge.Proofs.Wrappers
import ScriptBridge.Proofs.Ownership
import ScriptBridge.Proofs.Ends
import ScriptBridge.Proofs.Connections
import ScriptBridge.Proofs.Threads
import ScriptBridge.Proofs.Nesting
import ScriptBridge.Proofs.Straight
import ScriptBridge.Proofs.Mirrors
import ScriptBridge.Proofs.Exchange
import ScriptBridge.Proofs.HostSide
import ScriptBridge.Proofs.Beside
import ScriptBridge.Proofs.Follows
import ScriptBridge.Proofs.Resemblance
import ScriptBridge.Proofs.Twins
import ScriptBridge.Proofs.Abreast
import ScriptBridge.Proofs.Behaviours
import ScriptBridge.Proofs.Sprouts
import ScriptBridge.Proofs.Walks
import ScriptBridge.Proofs.Access
import ScriptBridge.Proofs.Routes
import ScriptBridge.Proofs.Unfailing
import ScriptBridge.Proofs.Scripted
import ScriptBridge.Proofs.Origins
import ScriptBridge.Proofs.Tasks
import ScriptBridge.Proofs.Coroutines
import ScriptBridge.Proofs.Numerals
import ScriptBridge.Proofs.Traces
import ScriptBridge.Proofs.Disposal
import ScriptBridge.Proofs.Owners
import ScriptBridge.Proofs.Reachable
import ScriptBridge.Proofs.Collection
import ScriptBridge.Proofs.Destruction
import ScriptBridge.Proofs.Identity
import ScriptBridge.Proofs.Signatures
import ScriptBridge.Proofs.Registry
import ScriptBridge.Proofs.Guarded
import ScriptBridge.Proofs.Guards
import ScriptBridge.Proofs.GuardedCalls
import ScriptBridge.Proofs.Depth
import ScriptBridge.Proofs.Balance
import ScriptBridge.Proofs.Anchored
import ScriptBridge.Proofs.Secured
import ScriptBridge.Proofs.Shifting
import ScriptBridge.Proofs.Shifts
import ScriptBridge.Proofs.Computed
import ScriptBridge.Proofs.Paths
import ScriptBridge.Proofs.Custody
import ScriptBridge.Proofs.Errands
import ScriptBridge.Proofs.LiveHandles
import ScriptBridge.Proofs.Emissions
import ScriptBridge.Proofs.Marks
import ScriptBridge.Proofs.Refusals
import ScriptBridge.Proofs.Strays
import ScriptBridge.Proofs.Preorder
import ScriptBridge.Proofs.Search
import ScriptBridge.Proofs.Parents
import ScriptBridge.Proofs.Felling
import ScriptBridge.Proofs.Overloads
import ScriptBridge.Proofs.Slots
import ScriptBridge.Proofs.ByName
import ScriptBridge.Proofs.Repeats
import ScriptBridge.Proofs.Properties
import ScriptBridge.Proofs.Constructs
import ScriptBridge.Proofs.Retention
import ScriptBridge.Proofs.Iteration
import ScriptBridge.Proofs.Exactness
import ScriptBridge.Proofs.Equality
import ScriptBridge.Proofs.RoundTrips
import ScriptBridge.Proofs.Entries
import ScriptBridge.Proofs.Creation
import ScriptBridge.Proofs.IntegerTexts
import ScriptBridge.Proofs.FloatTexts
import ScriptBridge.Proofs.Arithmetic
import ScriptBridge.Proofs.Rounding
import ScriptBridge.Proofs.HexFloats
import ScriptBridge.Proofs.Positions
import ScriptBridge.Proofs.Excerpts
