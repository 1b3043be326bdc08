import RemoteAutomaton.Automaton.Error
import RemoteAutomaton.Automaton.Evaluator
import RemoteAutomaton.Automaton.Host
import RemoteAutomaton.Automaton.Interpreter
import RemoteAutomaton.Automaton.Loading
import RemoteAutomaton.Automaton.Values
import RemoteAutomaton.CommandLine.Blink
import RemoteAutomaton.CommandLine.Flags
import RemoteAutomaton.CommandLine.Observer
import RemoteAutomaton.CommandLine.Runner
import RemoteAutomaton.CommandLine.Style
import RemoteAutomaton.Config.Basic
import RemoteAutomaton.Config.Document
import RemoteAutomaton.Config.Error
import RemoteAutomaton.Config.Loading
import RemoteAutomaton.Decimal.Number
import RemoteAutomaton.Decimal.Shortest
import RemoteAutomaton.Document.Record
import RemoteAutomaton.Document.Source
import RemoteAutomaton.Engine.Error
import RemoteAutomaton.Engine.Link
import RemoteAutomaton.Engine.Loop
import RemoteAutomaton.Engine.Noted
import RemoteAutomaton.Engine.Session
import RemoteAutomaton.Json.Literal
import RemoteAutomaton.Json.Token
import RemoteAutomaton.Json.Tree
import RemoteAutomaton.Json.Value
import RemoteAutomaton.Machine.Canonical
import RemoteAutomaton.Machine.Declaration
import RemoteAutomaton.Machine.Defect
import RemoteAutomaton.Machine.Definition
import RemoteAutomaton.Machine.Document
import RemoteAutomaton.Main
import RemoteAutomaton.Message.Datagram
import RemoteAutomaton.Message.Error
import RemoteAutomaton.Message.Inbound
import RemoteAutomaton.Message.Outbound
import RemoteAutomaton.Network.Address
import RemoteAutomaton.Network.Error
import RemoteAutomaton.Network.Socket
import RemoteAutomaton.Network.Transport
import RemoteAutomaton.Text.Integer
import RemoteAutomaton.Text.Line
import RemoteAutomaton.Text.Quoted
import RemoteAutomaton.Text.Unshown
import RemoteAutomaton.Timer.Arena
import RemoteAutomaton.Timer.Schedule
import RemoteAutomaton.Yaml.Character
import RemoteAutomaton.Yaml.Folding
import RemoteAutomaton.Yaml.Node
import RemoteAutomaton.Yaml.Plain
import RemoteAutomaton.Yaml.Printer
import RemoteAutomaton.Yaml.Token
import RemoteAutomaton.Proofs.Operation
import RemoteAutomaton.Proofs.Entry
import RemoteAutomaton.Proofs.Simulation
import RemoteAutomaton.Proofs.Mirror
import RemoteAutomaton.Proofs.Books
import RemoteAutomaton.Proofs.Accounts
import RemoteAutomaton.Proofs.Arena
import RemoteAutomaton.Proofs.TimerMap
import RemoteAutomaton.Proofs.LinkTimers
import RemoteAutomaton.Proofs.Request
import RemoteAutomaton.Proofs.SessionTimers
import RemoteAutomaton.Proofs.Sending
import RemoteAutomaton.Proofs.Watching
import RemoteAutomaton.Proofs.SessionShape
import RemoteAutomaton.Proofs.Asides
import RemoteAutomaton.Proofs.Lines
import RemoteAutomaton.Proofs.InboundGrammar
import RemoteAutomaton.Proofs.OutboundGrammar
import RemoteAutomaton.Proofs.RoundTrip
import RemoteAutomaton.Proofs.Delivery
import RemoteAutomaton.Proofs.Spelling
import RemoteAutomaton.Proofs.Rendering
import RemoteAutomaton.Proofs.Shown
import RemoteAutomaton.Proofs.ReadBack
import RemoteAutomaton.Proofs.Refinement
import RemoteAutomaton.Proofs.Ending
import RemoteAutomaton.Proofs.Loaders
import RemoteAutomaton.Proofs.Refusal
import RemoteAutomaton.Proofs.Frame
import RemoteAutomaton.Proofs.Standstill
import RemoteAutomaton.Proofs.WellFormed
import RemoteAutomaton.Proofs.Numeral
import RemoteAutomaton.Proofs.Passage
import RemoteAutomaton.Proofs.Attempts
import RemoteAutomaton.Proofs.Effects
import RemoteAutomaton.Proofs.Validated
import RemoteAutomaton.Proofs.Partition
import RemoteAutomaton.Proofs.Hearing
import RemoteAutomaton.Proofs.Echo
import RemoteAutomaton.Proofs.Given
import RemoteAutomaton.Proofs.Initials
import RemoteAutomaton.Proofs.Unassigned
import RemoteAutomaton.Proofs.ExpiryOrder
import RemoteAutomaton.Proofs.Slots
