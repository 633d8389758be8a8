import ScriptGate.Answer
import ScriptGate.Backend
import ScriptGate.Bridge
import ScriptGate.Caller
import ScriptGate.Cli
import ScriptGate.Config
import ScriptGate.Engine
import ScriptGate.Gateway
import ScriptGate.Guest.Argument
import ScriptGate.Guest.Declaration
import ScriptGate.Guest.Host
import ScriptGate.Guest.Journal
import ScriptGate.Guest.Outbound
import ScriptGate.Guest.Records
import ScriptGate.Guest.Request
import ScriptGate.Guest.Secrets
import ScriptGate.Http.Endpoint
import ScriptGate.Http.Message
import ScriptGate.Http.Server
import ScriptGate.Lua.Globals
import ScriptGate.Lua.Library.Arithmetic
import ScriptGate.Lua.Library.Clock
import ScriptGate.Lua.Library.Collection
import ScriptGate.Lua.Library.Format
import ScriptGate.Lua.Library.Unicode
import ScriptGate.Lua.Machine
import ScriptGate.Lua.Operation
import ScriptGate.Lua.Pattern
import ScriptGate.Lua.Require
import ScriptGate.Lua.State
import ScriptGate.Lua.Syntax
import ScriptGate.Lua.Table
import ScriptGate.Main
import ScriptGate.Method.Script
import ScriptGate.Password.Hash
import ScriptGate.Proofs.Backend
import ScriptGate.Proofs.Binary64
import ScriptGate.Proofs.Bridge.Depth
import ScriptGate.Proofs.Bridge.Heap
import ScriptGate.Proofs.Bridge.Orders
import ScriptGate.Proofs.Bridge.RoundTrip
import ScriptGate.Proofs.Decimal.Digits
import ScriptGate.Proofs.Decimal.Shortest
import ScriptGate.Proofs.Engine
import ScriptGate.Proofs.Gateway.Admission
import ScriptGate.Proofs.Gateway.Correspondence
import ScriptGate.Proofs.Gateway.Handling
import ScriptGate.Proofs.Gateway.Responses
import ScriptGate.Proofs.Gateway.Schedules
import ScriptGate.Proofs.Gateway.Serving
import ScriptGate.Proofs.Guest.Answer
import ScriptGate.Proofs.Guest.Declaration
import ScriptGate.Proofs.Guest.Declaring
import ScriptGate.Proofs.Guest.Headers
import ScriptGate.Proofs.Guest.Host
import ScriptGate.Proofs.Guest.Parameters
import ScriptGate.Proofs.Guest.Tokens
import ScriptGate.Proofs.Holding
import ScriptGate.Proofs.Http.Checks
import ScriptGate.Proofs.Http.Connection
import ScriptGate.Proofs.Http.Expiry
import ScriptGate.Proofs.Http.Handling
import ScriptGate.Proofs.Http.Session
import ScriptGate.Proofs.Json.Elements
import ScriptGate.Proofs.Json.Injective
import ScriptGate.Proofs.Json.Parser
import ScriptGate.Proofs.Json.Reading
import ScriptGate.Proofs.Json.Records
import ScriptGate.Proofs.Json.RoundTrip
import ScriptGate.Proofs.Json.Tokens
import ScriptGate.Proofs.Json.Values
import ScriptGate.Proofs.Method.Resolve
import ScriptGate.Proofs.Method.Script
import ScriptGate.Proofs.Path
import ScriptGate.Proofs.Rpc.Batch
import ScriptGate.Proofs.Rpc.Body
import ScriptGate.Proofs.Rpc.Envelope
import ScriptGate.Proofs.Rpc.Integrity
import ScriptGate.Proofs.Rpc.Request
import ScriptGate.Proofs.Rpc.Response
import ScriptGate.Proofs.Rpc.RoundTrip
import ScriptGate.Proofs.Run
import ScriptGate.Proofs.Sandbox
import ScriptGate.Proofs.Session.Guards
import ScriptGate.Proofs.Storage.Outcomes
import ScriptGate.Proofs.Storage.Refinement
import ScriptGate.Proofs.Storage.Transactions
import ScriptGate.Proofs.Text.Visible
import ScriptGate.Proofs.Token
import ScriptGate.Rpc.Envelope
import ScriptGate.Rpc.Response
import ScriptGate.Session.Registry
import ScriptGate.Storage.Pool
import ScriptGate.Token
