import Rendezvous.Client.Smart
import Rendezvous.Engine.Cluster
import Rendezvous.Gossip.Query
import Rendezvous.Main
import Rendezvous.Node.Proxy
import Rendezvous.Service.Agent
import Rendezvous.Site.Step
import Rendezvous.Proofs.Base64
import Rendezvous.Proofs.Peer
import Rendezvous.Proofs.Table
import Rendezvous.Proofs.Seal
import Rendezvous.Proofs.Publisher
import Rendezvous.Proofs.Reconciler
import Rendezvous.Proofs.Vote
import Rendezvous.Proofs.Agent
import Rendezvous.Proofs.Network
import Rendezvous.Proofs.Gossip
import Rendezvous.Proofs.Convergence
import Rendezvous.Proofs.Outcome
import Rendezvous.Proofs.Publishing
import Rendezvous.Proofs.Departure
import Rendezvous.Proofs.Json
import Rendezvous.Proofs.Calls
import Rendezvous.Proofs.Member
import Rendezvous.Proofs.Traffic
import Rendezvous.Proofs.SingleWriter
import Rendezvous.Proofs.Tree
import Rendezvous.Proofs.Changes
import Rendezvous.Proofs.Message
import Rendezvous.Proofs.Percent
import Rendezvous.Proofs.KeyPath
import Rendezvous.Proofs.ReadBack
import Rendezvous.Proofs.Resend
import Rendezvous.Proofs.Files
import Rendezvous.Proofs.Volume
import Rendezvous.Proofs.Snapshot
import Rendezvous.Proofs.Machine
import Rendezvous.Proofs.Pruning
import Rendezvous.Proofs.Pool
import Rendezvous.Proofs.Directory
import Rendezvous.Proofs.Crc32
import Rendezvous.Proofs.Tamper
import Rendezvous.Proofs.Passing
import Rendezvous.Proofs.Wire
import Rendezvous.Proofs.Detection
import Rendezvous.Proofs.Collation
import Rendezvous.Proofs.Digest
import Rendezvous.Proofs.Election
import Rendezvous.Proofs.Retries
import Rendezvous.Proofs.Failover
import Rendezvous.Proofs.Round
import Rendezvous.Proofs.Refresh
import Rendezvous.Proofs.Watching
import Rendezvous.Proofs.Fields
import Rendezvous.Proofs.NodeLines
import Rendezvous.Proofs.Definition
import Rendezvous.Proofs.Roster
import Rendezvous.Proofs.PeerMap
import Rendezvous.Proofs.Routing
import Rendezvous.Proofs.Entrance
import Rendezvous.Proofs.Following
import Rendezvous.Proofs.Spelling
