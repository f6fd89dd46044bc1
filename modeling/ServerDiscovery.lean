import ServerDiscovery.Address.Endpoint
import ServerDiscovery.Address.Ip
import ServerDiscovery.Address.Json
import ServerDiscovery.Address.Socket
import ServerDiscovery.Address.Text
import ServerDiscovery.Bytes
import ServerDiscovery.Client.Dialogue
import ServerDiscovery.Client.Failure
import ServerDiscovery.Client.Inquiry
import ServerDiscovery.Client.Pacing
import ServerDiscovery.Client.Session
import ServerDiscovery.Command
import ServerDiscovery.Host
import ServerDiscovery.Json.Printer
import ServerDiscovery.Json.Reader
import ServerDiscovery.Json.Shape
import ServerDiscovery.Json.Skip
import ServerDiscovery.Main
import ServerDiscovery.Network.Hosting
import ServerDiscovery.Network.Udp
import ServerDiscovery.Network.Workers
import ServerDiscovery.Packet.Frame
import ServerDiscovery.Packet.Kind
import ServerDiscovery.Packet.Payload
import ServerDiscovery.Proofs.Address.Endpoint
import ServerDiscovery.Proofs.Address.Text
import ServerDiscovery.Proofs.Client.Course
import ServerDiscovery.Proofs.Client.Expiry
import ServerDiscovery.Proofs.Client.FollowUp
import ServerDiscovery.Proofs.Client.Gather
import ServerDiscovery.Proofs.Client.Handshake
import ServerDiscovery.Proofs.Client.History
import ServerDiscovery.Proofs.Client.Inquiry
import ServerDiscovery.Proofs.Client.Loss
import ServerDiscovery.Proofs.Client.LossyRecord
import ServerDiscovery.Proofs.Client.Provenance
import ServerDiscovery.Proofs.Client.Query
import ServerDiscovery.Proofs.Client.Watch
import ServerDiscovery.Proofs.Host
import ServerDiscovery.Proofs.Host.Holders
import ServerDiscovery.Proofs.Host.Lifespan
import ServerDiscovery.Proofs.Host.Log
import ServerDiscovery.Proofs.Keyed
import ServerDiscovery.Proofs.Packet.Frame
import ServerDiscovery.Proofs.Record.Codec
import ServerDiscovery.Proofs.Simulation.Expedition
import ServerDiscovery.Proofs.Simulation.Floor
import ServerDiscovery.Proofs.Simulation.Lawful
import ServerDiscovery.Proofs.Simulation.Link
import ServerDiscovery.Proofs.Survey.Convergence
import ServerDiscovery.Proofs.Survey.Shift
import ServerDiscovery.Proofs.Survey.Table
import ServerDiscovery.Proofs.Text.Digits
import ServerDiscovery.Proofs.Text.Utf8
import ServerDiscovery.Proofs.Token.ExpiringMap
import ServerDiscovery.Proofs.Token.Ledger
import ServerDiscovery.Proofs.Token.LedgerRun
import ServerDiscovery.Proofs.Token.Store
import ServerDiscovery.Proofs.Wire.Reader
import ServerDiscovery.Proofs.Wire.Varint
import ServerDiscovery.Record.Basic
import ServerDiscovery.Record.Codec
import ServerDiscovery.Record.Json
import ServerDiscovery.Simulation.Expedition
import ServerDiscovery.Simulation.Floor
import ServerDiscovery.Simulation.Inbox
import ServerDiscovery.Simulation.Isolated
import ServerDiscovery.Simulation.Journal
import ServerDiscovery.Simulation.Link
import ServerDiscovery.Simulation.Script
import ServerDiscovery.Simulation.Socket
import ServerDiscovery.Simulation.Station
import ServerDiscovery.Simulation.Visit
import ServerDiscovery.Simulation.Waiting
import ServerDiscovery.Survey.Crew
import ServerDiscovery.Survey.Outcome
import ServerDiscovery.Survey.Passes
import ServerDiscovery.Survey.Settings
import ServerDiscovery.Text.Digits
import ServerDiscovery.Text.Hex
import ServerDiscovery.Text.Quoted
import ServerDiscovery.Text.Unprintable
import ServerDiscovery.Text.Utf8
import ServerDiscovery.Time
import ServerDiscovery.Token.Basic
import ServerDiscovery.Token.Frame
import ServerDiscovery.Token.Ledger
import ServerDiscovery.Token.Store
import ServerDiscovery.Token.Supply
import ServerDiscovery.Wire.Fault
import ServerDiscovery.Wire.Reader
import ServerDiscovery.Wire.Varint
import ServerDiscovery.Proofs.Address.Entry
import ServerDiscovery.Proofs.Client.Timeliness
import ServerDiscovery.Proofs.Reading
import ServerDiscovery.Proofs.Json.Reader
import ServerDiscovery.Proofs.Json.Shape
import ServerDiscovery.Proofs.Packet.Payload
import ServerDiscovery.Proofs.Client.Listing
import ServerDiscovery.Proofs.Survey.Interleaving
import ServerDiscovery.Proofs.Survey.Yield
import ServerDiscovery.Proofs.Client.Rounds
import ServerDiscovery.Proofs.Client.Backoff
import ServerDiscovery.Proofs.Simulation.Script
import ServerDiscovery.Proofs.Simulation.Ending
import ServerDiscovery.Proofs.Simulation.Schedule
import ServerDiscovery.Proofs.Simulation.Traffic
import ServerDiscovery.Proofs.Simulation.Strangers
import ServerDiscovery.Proofs.Simulation.Cancellation
import ServerDiscovery.Proofs.Client.Collection
import ServerDiscovery.Proofs.Client.Failing
import ServerDiscovery.Proofs.Simulation.Collection
import ServerDiscovery.Proofs.Simulation.Spans
import ServerDiscovery.Proofs.Text.Lossy
import ServerDiscovery.Proofs.Wire.Sequencing
import ServerDiscovery.Proofs.Record.Normal
import ServerDiscovery.Proofs.Record.Extent
import ServerDiscovery.Proofs.Record.Tally
import ServerDiscovery.Proofs.Packet.Grammar
import ServerDiscovery.Proofs.Packet.Listing
import ServerDiscovery.Proofs.Record.Json
import ServerDiscovery.Proofs.Address.Json
import ServerDiscovery.Proofs.Host.Framing
import ServerDiscovery.Proofs.Wire.Fields
import ServerDiscovery.Proofs.Text.Grammar
import ServerDiscovery.Proofs.Wire.Blanking
import ServerDiscovery.Proofs.Host.Accounting
import ServerDiscovery.Proofs.Wire.Attempts
import ServerDiscovery.Proofs.Wire.Integers
import ServerDiscovery.Proofs.Client.Absorption
import ServerDiscovery.Proofs.Simulation.Absorption
import ServerDiscovery.Proofs.Address.Canonical
import ServerDiscovery.Proofs.Client.Source
