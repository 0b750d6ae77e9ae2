import TrafficPrioritizer.Lib.Run
import TrafficPrioritizer.Lib.Bytes
import TrafficPrioritizer.Lib.ReverseIndex
import TrafficPrioritizer.Lib.WrapClock
import TrafficPrioritizer.Net.Types
import TrafficPrioritizer.Net.ParsedPacket
import TrafficPrioritizer.NatEngine.Model
import TrafficPrioritizer.NatEngine.Packets
import TrafficPrioritizer.NatEngine.Effect
import TrafficPrioritizer.NatEngine.Tables
import TrafficPrioritizer.NatEngine.Clock
import TrafficPrioritizer.NatEngine.EchoDelivery
import TrafficPrioritizer.NatEngine.Frames
import TrafficPrioritizer.NatEngine.ReturnDelivery
import TrafficPrioritizer.NatEngine.MappingStability
import TrafficPrioritizer.NatEngine.Solicited
import TrafficPrioritizer.NatEngine.Expiry
import TrafficPrioritizer.NatEngine.Interleaving
import TrafficPrioritizer.NatEngine.ProtocolSeparation
import TrafficPrioritizer.DhcpEngine.Leases
import TrafficPrioritizer.DhcpEngine.Messages
import TrafficPrioritizer.DhcpEngine.Exclusivity
import TrafficPrioritizer.DhcpEngine.Acks
import TrafficPrioritizer.Lib.BoundedFifo
import TrafficPrioritizer.Lib.Ring
import TrafficPrioritizer.ForwardEngine.SpscRingBuffer
import TrafficPrioritizer.Scheduler.Shaper
import TrafficPrioritizer.ForwardEngine.Pipeline
import TrafficPrioritizer.ForwardEngine.L2Rewrite
import TrafficPrioritizer.ForwardEngine.SourceHiding
import TrafficPrioritizer.ForwardEngine.Worker
import TrafficPrioritizer.ForwardEngine.Stranding
import TrafficPrioritizer.ParameterServices.QosController
import TrafficPrioritizer.Config.Model
import TrafficPrioritizer.Config.RoundTrip
import TrafficPrioritizer.DhcpEngine.ServedPool
import TrafficPrioritizer.NetworkConfig.Sync
import TrafficPrioritizer.NetworkConfig.AdvertisedMask
import TrafficPrioritizer.NetworkConfig.ApplyDhcp
import TrafficPrioritizer.Lib.OnesComplement
import TrafficPrioritizer.NatEngine.Translation
import TrafficPrioritizer.Net.HeaderViews
import TrafficPrioritizer.NatEngine.Checksums
import TrafficPrioritizer.NatEngine.ChecksumSurvival
import TrafficPrioritizer.NatEngine.FrameEffect
import TrafficPrioritizer.NatEngine.Fragments
import TrafficPrioritizer.Lib.OwnershipRing
import TrafficPrioritizer.RawSocket.RxRing
import TrafficPrioritizer.RawSocket.Delivery
import TrafficPrioritizer.RawSocket.FrameCopy
import TrafficPrioritizer.App.Shutdown
import TrafficPrioritizer.DhcpEngine.Reconfigure
import TrafficPrioritizer.NetworkConfig.Gateway
import TrafficPrioritizer.DhcpEngine.Refusals
import TrafficPrioritizer.DhcpEngine.LeaseTable
import TrafficPrioritizer.DhcpEngine.OptionScan
import TrafficPrioritizer.DhcpEngine.OptionReads
import TrafficPrioritizer.DhcpEngine.ResponseFrame
import TrafficPrioritizer.DhcpEngine.HandedOut
import TrafficPrioritizer.DhcpEngine.Regrants
import TrafficPrioritizer.NetworkConfig.ReservedAddresses
import TrafficPrioritizer.NatEngine.ChecksumAlgebra
import TrafficPrioritizer.NetworkConfig.PrefixLength
import TrafficPrioritizer.Lib.Potential
import TrafficPrioritizer.Scheduler.Conformance
import TrafficPrioritizer.NatEngine.IdAllocation
import TrafficPrioritizer.ForwardEngine.Telemetry
import TrafficPrioritizer.Lib.Seqlock
import TrafficPrioritizer.NatEngine.Accesses
import TrafficPrioritizer.NatEngine.TornReads
import TrafficPrioritizer.NatEngine.Undisturbed
import TrafficPrioritizer.App.Joins
import TrafficPrioritizer.App.Lifecycle
import TrafficPrioritizer.DhcpEngine.Handover
import TrafficPrioritizer.ForwardState.Concurrency
import TrafficPrioritizer.ForwardState.NextHop
import TrafficPrioritizer.Lib.Doorbell
import TrafficPrioritizer.NetworkConfig.ControlEvents
import TrafficPrioritizer.ParameterServices.ModeSwitch
import TrafficPrioritizer.ForwardEngine.ClassOrder
import TrafficPrioritizer.ForwardEngine.Classification
import TrafficPrioritizer.ParameterServices.NatWanTracker
import TrafficPrioritizer.DeviceTable.Model
import TrafficPrioritizer.DeviceTable.Neighbours
import TrafficPrioritizer.ForwardEngine.DropAccounting
