import Federate.Document.Scenario
import Federate.Link.Loopback
import Federate.Settings.Document
import Federate.Time.Order
import Federate.Proofs.Standing.Run
import Federate.Proofs.Standing.Window
import Federate.Proofs.Standing.Mark
import Federate.Proofs.Standing.Exclusion
import Federate.Proofs.Standing.Lateness
import Federate.Proofs.Session.Receipt
import Federate.Proofs.Session.Loss
import Federate.Proofs.Session.Traffic
import Federate.Proofs.Session.Change
import Federate.Proofs.Session.Numbering
import Federate.Proofs.Session.Hands
import Federate.Proofs.Session.Slots
import Federate.Proofs.Session.Teardown
import Federate.Proofs.Session.Coherence
import Federate.Proofs.Session.Correlation
import Federate.Proofs.Session.Stranding
import Federate.Proofs.Delivery.Course
import Federate.Proofs.Delivery.Dispatch
import Federate.Proofs.Delivery.Order
import Federate.Proofs.Delivery.Evoking
import Federate.Proofs.Ambassador.Affairs
import Federate.Proofs.Ambassador.Membership
import Federate.Proofs.Ambassador.Retraction
import Federate.Proofs.Delivery.Seclusion
import Federate.Proofs.Ambassador.Succession
import Federate.Proofs.Session.Parting
import Federate.Proofs.Session.Farewell
import Federate.Proofs.Delivery.Decoding
import Federate.Proofs.Codec.Packets
import Federate.Proofs.Codec.Callbacks
import Federate.Proofs.Ambassador.Refusal
import Federate.Proofs.Link.Exchange
import Federate.Proofs.Codec.Faults
import Federate.Proofs.Codec.Cursor
import Federate.Proofs.Ambassador.Admission
import Federate.Proofs.Ambassador.Amid
import Federate.Proofs.Ambassador.Beside
import Federate.Proofs.Ambassador.Flows
import Federate.Proofs.Ambassador.Connecting
import Federate.Proofs.Ambassador.AllOrNothing
import Federate.Proofs.Session.Opening
import Federate.Proofs.Session.Accounts
import Federate.Proofs.Session.Drained
import Federate.Proofs.Codec.Tables
import Federate.Proofs.Time.Exactness
import Federate.Proofs.Time.Comparison
import Federate.Proofs.Codec.Placing
import Federate.Proofs.Settings.Layers
