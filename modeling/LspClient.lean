import LspClient.Main
import LspClient.Proofs.Frame.RoundTrip
import LspClient.Proofs.Registry.Order
import LspClient.Proofs.Registry.Timers
import LspClient.Proofs.Registry.Signals
import LspClient.Proofs.Client.Calls
import LspClient.Proofs.Client.Calm
import LspClient.Proofs.Client.Lifecycle
import LspClient.Proofs.Client.Idle
import LspClient.Proofs.Client.Starting
import LspClient.Proofs.Client.Custody
import LspClient.Proofs.Client.Answers
import LspClient.Proofs.Client.Reader
import LspClient.Proofs.Client.Attended
import LspClient.Proofs.Client.Conversing
import LspClient.Proofs.Frame.Takes
import LspClient.Proofs.Frame.Chunks
import LspClient.Proofs.Text.Numeral
import LspClient.Proofs.Text.Utf8
import LspClient.Proofs.Frame.Grammar
import LspClient.Proofs.Json.Escape
import LspClient.Proofs.Json.Printable
import LspClient.Proofs.Json.Numbers
import LspClient.Proofs.Json.Strings
import LspClient.Proofs.Json.RoundTrip
import LspClient.Proofs.Message.RoundTrip
import LspClient.Proofs.Message.Head
import LspClient.Proofs.Message.Oversized
import LspClient.Proofs.Message.Peek
import LspClient.Proofs.Loop.Contents
import LspClient.Proofs.Client.Legal
import LspClient.Proofs.Client.Refusal
import LspClient.Proofs.Client.Retired
import LspClient.Proofs.Client.Streaks
import LspClient.Proofs.Client.LateReplies
import LspClient.Proofs.Telemetry.Redaction
import LspClient.Proofs.Telemetry.Delivery
import LspClient.Proofs.Policy.Backoff
import LspClient.Proofs.Policy.Runs
import LspClient.Proofs.Json.Values
import LspClient.Proofs.Telemetry.Lines
import LspClient.Proofs.Log.Lines
import LspClient.Proofs.Router.Dispatch
import LspClient.Proofs.Settings.Construction
import LspClient.Proofs.Conflict.Memory
import LspClient.Proofs.Process.Closing
import LspClient.Proofs.Process.ErrorLines
