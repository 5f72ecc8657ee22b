import CoapNode.PeerExchange
import CoapNode.Session
import CoapNode.TimerQueue
import CoapNode.Proofs.Fenceposts
import CoapNode.Proofs.Packet.Splicing
import CoapNode.Proofs.Packet.Canonical
import CoapNode.Proofs.Packet.Edits
import CoapNode.Proofs.Packet.Arena
import CoapNode.Proofs.Packet.RoundTrip
import CoapNode.Proofs.Packet.Grammar
import CoapNode.Proofs.Retry
import CoapNode.Proofs.Radio.Growth
import CoapNode.Proofs.Radio.Sending
import CoapNode.Proofs.Node.Growth
import CoapNode.Proofs.Node.Operations
import CoapNode.Proofs.Node.Retransmission
import CoapNode.Proofs.Node.Lifetime
import CoapNode.Proofs.Node.Bookkeeping
import CoapNode.Proofs.Node.Conduct
import CoapNode.Proofs.Node.Remembering
import CoapNode.Proofs.Node.AtMostOnce
import CoapNode.Proofs.Node.Acknowledging
import CoapNode.Proofs.Node.Resending
import CoapNode.Proofs.Node.Responses
import CoapNode.Proofs.Node.Steadiness
import CoapNode.Proofs.Node.Namesakes
import CoapNode.Proofs.Node.Registrations
import CoapNode.Proofs.Packet.Reading
import CoapNode.Proofs.Observe.Departure
import CoapNode.Proofs.Observe.Refreshing
import CoapNode.Proofs.Observe.Resetting
import CoapNode.Proofs.Observe.Isolation
import CoapNode.Proofs.Observe.Counting
import CoapNode.Proofs.ShortBytes
import CoapNode.Proofs.Packet.Refinement
import CoapNode.Proofs.Packet.Additions
import CoapNode.Proofs.Packet.Refusing
import CoapNode.Proofs.Packet.Faults
import CoapNode.Proofs.Node.Rejecting
import CoapNode.Proofs.Node.Enrolment
import CoapNode.Proofs.Node.Dispatch
import CoapNode.Proofs.Observe.Building
import CoapNode.Proofs.Observe.Numbering
import CoapNode.Proofs.Observe.Publishing
import CoapNode.Proofs.Observe.Hindering
import CoapNode.Proofs.Packet.Texts
import CoapNode.Proofs.Routing
import CoapNode.Proofs.Packet.Views
import CoapNode.Proofs.Packet.Fields
import CoapNode.Proofs.Packet.Delimited
import CoapNode.Proofs.Packet.Writing
import CoapNode.Proofs.Datagrams
import CoapNode.Proofs.Paths
import CoapNode.Proofs.Observe.Rendering
import CoapNode.Proofs.Observe.Conditions
import CoapNode.Proofs.Peers
import CoapNode.Proofs.Deadlines
import CoapNode.Proofs.Spans
