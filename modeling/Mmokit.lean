import Mmokit.Chat.ChannelIndex
import Mmokit.Chat.Presence
import Mmokit.Chat.Speaking
import Mmokit.Client.ReconciliationGate
import Mmokit.Game.PlayerFlusher
import Mmokit.Marketplace.Conservation
import Mmokit.Net.Handshake
import Mmokit.Net.Retransmission
import Mmokit.Quantize.DeltaPorts
import Mmokit.Quantize.WireFormat
import Mmokit.System.ReplicationConvergence
import Mmokit.System.Tombstones
import Mmokit.Universe.DriverInterleaving
import Mmokit.Universe.HandoffHistory
import Mmokit.Universe.InputForwarding
import Mmokit.Universe.NetIDRanges
import Mmokit.Universe.OrphanedCells
import Mmokit.Universe.OwnerUniqueness
import Mmokit.Universe.RelocationConservation
import Mmokit.Universe.ResidualDrain
import Mmokit.Universe.SessionDelivery
import Mmokit.Universe.SessionRemap
import Mmokit.Universe.SplitQuadrants
import Mmokit.Universe.StreamTakeover
import Mmokit.Universe.TilingCommits
import Mmokit.Universe.TransferLanding
import Mmokit.Universe.TransferSpawn
import Mmokit.Engine.LoopJobs
import Mmokit.Universe.MergeDedup
import Mmokit.Net.ReplayOpens
import Mmokit.Universe.Rendezvous
import Mmokit.System.UnsentTicks
import Mmokit.Engine.PlayerSessions
import Mmokit.Orderbook.PriceTime
import Mmokit.Spatial.Collisions
import Mmokit.Spatial.Raycast
import Mmokit.Engine.RemovalBatches
import Mmokit.Pathfinding.Smooth
