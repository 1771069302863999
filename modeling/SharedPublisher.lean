import SharedPublisher.Foundation.Machine
import SharedPublisher.Foundation.Bytes
import SharedPublisher.Foundation.HashMap
import SharedPublisher.Foundation.Sha256
import SharedPublisher.Foundation.Keccak256
import SharedPublisher.Spec.Instance
import SharedPublisher.Spec.Messages
import SharedPublisher.Sbcp.InstanceId
import SharedPublisher.Coordinator.Proofs
import SharedPublisher.Coordinator.State
import SharedPublisher.Coordinator.Sections
import SharedPublisher.Coordinator.History
import SharedPublisher.Coordinator.CommitValidity
import SharedPublisher.Coordinator.Uniqueness
import SharedPublisher.Coordinator.Reservation
import SharedPublisher.Coordinator.Conservation
import SharedPublisher.Coordinator.Tasks
import SharedPublisher.Coordinator.ProofSections
import SharedPublisher.Coordinator.Registration
import SharedPublisher.Coordinator.ProofIntake
import SharedPublisher.Settlement.L1Submit
import SharedPublisher.Settlement.System
import SharedPublisher.Settlement.Pairing
import SharedPublisher.Settlement.SubmissionChain
import SharedPublisher.Settlement.Finality
import SharedPublisher.Sbcp.Publisher
import SharedPublisher.Sbcp.ProofSets
import SharedPublisher.Sbcp.ActiveChains
import SharedPublisher.Sbcp.Aggregation
import SharedPublisher.Sbcp.InstanceReuse
import SharedPublisher.Sbcp.Sequencer
import SharedPublisher.Sbcp.ProofLabels
import SharedPublisher.Sbcp.InstanceOrder
import SharedPublisher.Coordinator.PeriodLabels
import SharedPublisher.Coordinator.Rollback
import SharedPublisher.Coordinator.Delivery
import SharedPublisher.Sbcp.BlockBuilding
import SharedPublisher.Sbcp.InstanceReplay
import SharedPublisher.Sbcp.SettlementFinality
import SharedPublisher.Sbcp.SettledPeriods
import SharedPublisher.Sbcp.SettledHeaders
import SharedPublisher.Sbcp.ProofWindow
import SharedPublisher.Sbcp.PeriodCheck
import SharedPublisher.Coordinator.Mailboxes
import SharedPublisher.Coordinator.PublisherRefinement
import SharedPublisher.Transport.Framing
import SharedPublisher.Transport.Registry
import SharedPublisher.Coordinator.Announcement
import SharedPublisher.Coordinator.Reaping
import SharedPublisher.Foundation.Precedence
import SharedPublisher.Coordinator.MailboxOrder
import SharedPublisher.Coordinator.ProofCollection
import SharedPublisher.Coordinator.VoteOrder
import SharedPublisher.Foundation.KeyedSort
import SharedPublisher.Sbcp.ProofUnderflow
import SharedPublisher.Sbcp.SealingUnderflow
import SharedPublisher.Settlement.PayloadOrder
import SharedPublisher.Foundation.Format
import SharedPublisher.Spec.Codec
import SharedPublisher.Node.ChainNames
import SharedPublisher.Node.Process
import SharedPublisher.Node.Causes
import SharedPublisher.Node.Connections
import SharedPublisher.Node.Frames
import SharedPublisher.Node.Replies
import SharedPublisher.Node.Routes
import SharedPublisher.Node.Copies
import SharedPublisher.Node.Periods
import SharedPublisher.Node.Superblocks
import SharedPublisher.Coordinator.Lifetime
import SharedPublisher.Coordinator.QueueOrder
import SharedPublisher.Coordinator.Numbering
import SharedPublisher.Coordinator.ProofFates
import SharedPublisher.Settlement.Attempts
import SharedPublisher.Node.Instances
import SharedPublisher.Sbcp.InstanceBlocks
import SharedPublisher.Coordinator.Liveness
import SharedPublisher.Node.Startup
import SharedPublisher.Node.Liveness
