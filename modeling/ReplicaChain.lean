import ReplicaChain.Main
import ReplicaChain.Node.Server
import ReplicaChain.Proofs.Buffer.Circulation
import ReplicaChain.Proofs.Cluster.Abreast
import ReplicaChain.Proofs.Cluster.Attempts
import ReplicaChain.Proofs.Cluster.CleanLinks
import ReplicaChain.Proofs.Cluster.Courses
import ReplicaChain.Proofs.Cluster.Custody
import ReplicaChain.Proofs.Cluster.Fairness
import ReplicaChain.Proofs.Cluster.Group
import ReplicaChain.Proofs.Cluster.Hearing
import ReplicaChain.Proofs.Cluster.Lines
import ReplicaChain.Proofs.Cluster.ManyClients
import ReplicaChain.Proofs.Cluster.Marks
import ReplicaChain.Proofs.Cluster.Mesh
import ReplicaChain.Proofs.Cluster.OneClient
import ReplicaChain.Proofs.Cluster.Refinement
import ReplicaChain.Proofs.Cluster.Remnants
import ReplicaChain.Proofs.Cluster.Repair
import ReplicaChain.Proofs.Cluster.Standing
import ReplicaChain.Proofs.Cluster.Underway
import ReplicaChain.Proofs.Cluster.WorkingLinks
import ReplicaChain.Proofs.Cluster.World
import ReplicaChain.Proofs.Extent.Accounting
import ReplicaChain.Proofs.Extent.Commutation
import ReplicaChain.Proofs.Extent.Effect
import ReplicaChain.Proofs.Extent.Failure
import ReplicaChain.Proofs.Extent.History
import ReplicaChain.Proofs.Extent.InPlace
import ReplicaChain.Proofs.Extent.Overlay
import ReplicaChain.Proofs.Extent.Repetition
import ReplicaChain.Proofs.Extent.ReportReading
import ReplicaChain.Proofs.Extent.Watermarks
import ReplicaChain.Proofs.Extent.Withdrawal
import ReplicaChain.Proofs.Follower.Descriptors
import ReplicaChain.Proofs.Follower.Draining
import ReplicaChain.Proofs.Follower.Exchanges
import ReplicaChain.Proofs.Follower.Faults
import ReplicaChain.Proofs.Follower.Lending
import ReplicaChain.Proofs.Follower.LinkPool
import ReplicaChain.Proofs.Follower.Loans
import ReplicaChain.Proofs.Follower.Record
import ReplicaChain.Proofs.Follower.Relay
import ReplicaChain.Proofs.Follower.Traffic
import ReplicaChain.Proofs.Follower.Transcript
import ReplicaChain.Proofs.Latency.Conservation
import ReplicaChain.Proofs.Latency.Distribution
import ReplicaChain.Proofs.Latency.Publishing
import ReplicaChain.Proofs.Node.AcknowledgedCount
import ReplicaChain.Proofs.Node.Acknowledgement
import ReplicaChain.Proofs.Node.Answering
import ReplicaChain.Proofs.Node.Application
import ReplicaChain.Proofs.Node.Bookkeeping
import ReplicaChain.Proofs.Node.ClientFault
import ReplicaChain.Proofs.Node.Concealment
import ReplicaChain.Proofs.Node.ConnectionFold
import ReplicaChain.Proofs.Node.Corruption
import ReplicaChain.Proofs.Node.FailureCount
import ReplicaChain.Proofs.Node.Fanout
import ReplicaChain.Proofs.Node.FirstFailure
import ReplicaChain.Proofs.Node.Likeness
import ReplicaChain.Proofs.Node.Observation
import ReplicaChain.Proofs.Node.Paths
import ReplicaChain.Proofs.Node.Projection
import ReplicaChain.Proofs.Node.Readability
import ReplicaChain.Proofs.Node.RelayedCopy
import ReplicaChain.Proofs.Node.ReplyShape
import ReplicaChain.Proofs.Node.Responses
import ReplicaChain.Proofs.Node.Settlement
import ReplicaChain.Proofs.Node.SideBySide
import ReplicaChain.Proofs.Node.Slots
import ReplicaChain.Proofs.Node.StreamedRead
import ReplicaChain.Proofs.Node.Task
import ReplicaChain.Proofs.Node.Verdict
import ReplicaChain.Proofs.Node.WatermarkReplies
import ReplicaChain.Proofs.Settings.Generated
import ReplicaChain.Proofs.Settings.Templates
import ReplicaChain.Proofs.Stream.Reading
import ReplicaChain.Proofs.Text.JsonReading
import ReplicaChain.Proofs.Text.TomlReading
import ReplicaChain.Proofs.Wire.Burst
import ReplicaChain.Proofs.Wire.Decoding
import ReplicaChain.Proofs.Wire.ErrorBody
import ReplicaChain.Proofs.Wire.Grammar
import ReplicaChain.Proofs.Wire.Reply
import ReplicaChain.Proofs.Wire.RoundTrip
import ReplicaChain.Proofs.Wire.Unpooled
import ReplicaChain.Proofs.Wire.Wording
