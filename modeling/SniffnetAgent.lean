import SniffnetAgent.Ipfix.Framing
import SniffnetAgent.Ipfix.Optimal
import SniffnetAgent.Ipfix.Progress
import SniffnetAgent.Conversation
import SniffnetAgent.Merging
import SniffnetAgent.Times
import SniffnetAgent.Exporter
import SniffnetAgent.Sequence
import SniffnetAgent.TemplateSchedule
import SniffnetAgent.Delivery
import SniffnetAgent.Feedback
import SniffnetAgent.Identity
import SniffnetAgent.Layout
import SniffnetAgent.Process
import SniffnetAgent.Interleaving
import SniffnetAgent.Ledger
import SniffnetAgent.Accounting
import SniffnetAgent.Reception
import SniffnetAgent.Traffic
import SniffnetAgent.Isolation
import SniffnetAgent.Tracing
import SniffnetAgent.Loss
import SniffnetAgent.Fleet
import SniffnetAgent.Outcomes
import SniffnetAgent.Header
import SniffnetAgent.Interfaces
import SniffnetAgent.Latency
import SniffnetAgent.Completion
import SniffnetAgent.Cli
import SniffnetAgent.Program
