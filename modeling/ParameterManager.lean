import ParameterManager.Decimal.Shortest
import ParameterManager.Text.Blank
import ParameterManager.Text.Printable
import ParameterManager.Text.Quoted
import ParameterManager.Text.Uppercase
import ParameterManager.Text.Utf8
import ParameterManager.Json.Basic
import ParameterManager.Json.Error
import ParameterManager.Json.Printer
import ParameterManager.Json.Cursor
import ParameterManager.Json.Literal
import ParameterManager.Json.Record
import ParameterManager.FieldMask
import ParameterManager.Parameter
import ParameterManager.Resource
import ParameterManager.Update
import ParameterManager.Url.Form
import ParameterManager.Url.Punycode
import ParameterManager.Url.Basic
import ParameterManager.ClientError
import ParameterManager.FileTree.Basic
import ParameterManager.Config
import ParameterManager.Credential.Assertion
import ParameterManager.Http.Uri
import ParameterManager.Http.Agent
import ParameterManager.ApiError
import ParameterManager.Client
import ParameterManager.Rehearsal
import ParameterManager.Registry.Basic
import ParameterManager.Registry.Handler
import ParameterManager.CommandLine.Arguments
import ParameterManager.CommandLine.Command
import ParameterManager.CommandLine.Run
import ParameterManager.Proofs.Text.Basic
import ParameterManager.Proofs.Text.Utf8
import ParameterManager.Proofs.Url.Percent
import ParameterManager.Proofs.Url.Form
import ParameterManager.Proofs.Url.Extend
import ParameterManager.Proofs.Url.Base
import ParameterManager.Proofs.Registry.Route
import ParameterManager.Proofs.Url.Local
import ParameterManager.Proofs.Json.Reads
import ParameterManager.Proofs.Json.Numbers
import ParameterManager.Proofs.Json.Strings
import ParameterManager.Proofs.Json.Spelling
import ParameterManager.Proofs.Json.Wire
import ParameterManager.Proofs.Table
import ParameterManager.Proofs.Json.Record
import ParameterManager.Proofs.Json.Written
import ParameterManager.Proofs.Json.Gives
import ParameterManager.Proofs.Parameter
import ParameterManager.Proofs.ApiError
import ParameterManager.Proofs.RoundTrip
import ParameterManager.Proofs.Registry.Patch
import ParameterManager.Proofs.Registry.Answer
import ParameterManager.Proofs.Registry.History
import ParameterManager.Proofs.Http.Remote
import ParameterManager.Proofs.Http.Agent
import ParameterManager.Proofs.Registry.Reach
import ParameterManager.Proofs.Http.Uri
import ParameterManager.Proofs.Registry.Local
import ParameterManager.Proofs.Registry.Calls
import ParameterManager.Proofs.Update
import ParameterManager.Proofs.Request
import ParameterManager.Proofs.Registry.Limits
import ParameterManager.Proofs.Registry.Update
import ParameterManager.Proofs.Operation
import ParameterManager.Proofs.Sink
import ParameterManager.Proofs.Rehearsal
import ParameterManager.Proofs.Registry.Confinement
import ParameterManager.Proofs.Http.Delivery
import ParameterManager.Proofs.Http.Lost
import ParameterManager.Proofs.Report
import ParameterManager.Proofs.Registry.Decision
import ParameterManager.Proofs.Registry.KeyMap
import ParameterManager.Proofs.Resource
import ParameterManager.Proofs.Registry.Secrecy
import ParameterManager.Proofs.Registry.Log
import ParameterManager.Proofs.Http.Sent
import ParameterManager.Proofs.Http.Header
import ParameterManager.Proofs.Http.Alike
import ParameterManager.Proofs.Credential
import ParameterManager.Proofs.CredentialFlow
import ParameterManager.Proofs.TokenFlow
import ParameterManager.Proofs.CommandLine
import ParameterManager.Proofs.Registry.Verdict
import ParameterManager.Proofs.Rejection
import ParameterManager.Proofs.Credential.Base64
import ParameterManager.Proofs.Credential.Assertion
import ParameterManager.Proofs.Registry.Trade
import ParameterManager.Proofs.Handshake
import ParameterManager.Proofs.FileTree.Walk
import ParameterManager.Proofs.FileTree.Change
import ParameterManager.Proofs.Configuration
import ParameterManager.Proofs.Printout
import ParameterManager.Proofs.Url.Host
import ParameterManager.Proofs.Url.Authority
import ParameterManager.Proofs.Url.Interface
import ParameterManager.Proofs.Endpoint
import ParameterManager.Proofs.Response
import ParameterManager.Proofs.Saving
import ParameterManager.Proofs.Disclosure
import ParameterManager.Proofs.FieldMask
import ParameterManager.Proofs.ClientError
import ParameterManager.Proofs.Document
import ParameterManager.Proofs.Json.Grammar
import ParameterManager.Proofs.Json.Skipping
import ParameterManager.Proofs.Json.Denotation
import ParameterManager.Proofs.Json.Steady
import ParameterManager.Proofs.Json.Members
import ParameterManager.Proofs.Enrichment
