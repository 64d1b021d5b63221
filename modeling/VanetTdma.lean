import VanetTdma.Lib.GuardedRun
import VanetTdma.Lib.SlotLoop
import VanetTdma.Ns3.SlotTag
import VanetTdma.Ns3.Node
import VanetTdma.Lib.BitStream
import VanetTdma.Ns3.FiHeader
import VanetTdma.Ns3.FiCodec
import VanetTdma.Ns3.MergeFi
import VanetTdma.Ns3.Synthesize
import VanetTdma.Ns3.SlotHandler
import VanetTdma.Ns3.OwnTick
import VanetTdma.Ns3.TableInvariant
import VanetTdma.Ns3.TickRound
import VanetTdma.Ns3.SlotIndex
import VanetTdma.Ns3.AnnouncedSlot
import VanetTdma.Ns3.Ownership
import VanetTdma.Ns3.Announcement
import VanetTdma.Ns3.Reservation
import VanetTdma.Lib.Clocked
import VanetTdma.Lib.DualPort
import VanetTdma.Fpga.SlotEntry
import VanetTdma.Fpga.Stu
import VanetTdma.Fpga.StuEdge
import VanetTdma.Fpga.StuBench
import VanetTdma.Fpga.StuTermination
import VanetTdma.Fpga.LiteBus
import VanetTdma.Fpga.PktSend
import VanetTdma.Ns3.TableRange
import VanetTdma.Ns3.Network
import VanetTdma.Ns3.MergedOnce
import VanetTdma.Ns3.DataSlot
import VanetTdma.Ns3.MacQueue
import VanetTdma.Ns2.FiPacket
import VanetTdma.Ns2.FrameTail
import VanetTdma.Ns2.RefreshLaw
import VanetTdma.Ns2.HalfDuplex
import VanetTdma.Fpga.StuMerge
import VanetTdma.Fpga.HiddenStation
import VanetTdma.Fpga.FiBuilder
import VanetTdma.Fpga.FiRoundTrip
import VanetTdma.Fpga.Fcb
import VanetTdma.Fpga.Divider
import VanetTdma.Fpga.System
import VanetTdma.Fpga.FrameBounds
import VanetTdma.Fpga.PortB
import VanetTdma.Fpga.WriteBack
import VanetTdma.Fpga.RequestCheck
import VanetTdma.Fpga.Candidates
import VanetTdma.Fpga.OwnOrFree
import VanetTdma.Lib.Visits
import VanetTdma.Fpga.TableScan
import VanetTdma.Fpga.AnnouncedSlot
import VanetTdma.Fpga.Mo
import VanetTdma.Fpga.SendHandshake
import VanetTdma.Fpga.FifoWr
import VanetTdma.Fpga.TxDescriptors
import VanetTdma.Lib.Delivery
import VanetTdma.Fpga.AxiS00
import VanetTdma.Fpga.LinuxQueue
import VanetTdma.Fpga.RxBuffers
import VanetTdma.Fpga.BurstBus
import VanetTdma.Fpga.Irq
import VanetTdma.Lib.SharedBus
import VanetTdma.Fpga.LitePort
import VanetTdma.Fpga.BurstPort
import VanetTdma.Fpga.DescProcessor
import VanetTdma.Fpga.LiteClients
import VanetTdma.Lib.Progress
import VanetTdma.Lib.RestoringDivision
import VanetTdma.Fpga.LiteProgress
import VanetTdma.Fpga.IrqFilter
import VanetTdma.Fpga.BurstProgress
import VanetTdma.Fpga.BurstWrite
import VanetTdma.Fpga.TransmitGate
import VanetTdma.Fpga.UsedBuffers
import VanetTdma.Fpga.TdmaRequests
import VanetTdma.Fpga.WorkSlot
import VanetTdma.Fpga.ThreeHop
import VanetTdma.Fpga.SlotAdjust
import VanetTdma.Fpga.LostSlot
import VanetTdma.Fpga.CandidateList
import VanetTdma.Fpga.CandidateChoice
import VanetTdma.Ns3.OwnVerdict
import VanetTdma.Ns3.SlotLock
import VanetTdma.Ns3.HeardNeighbour
import VanetTdma.Lib.Wire
import VanetTdma.Mbr.Header
import VanetTdma.Mbr.Neighbors
import VanetTdma.Zigbee.StatusReport
import VanetTdma.Fpga.SlotClock
import VanetTdma.Adhoc.FiPacket
import VanetTdma.Adhoc.Node
import VanetTdma.Adhoc.SendP
import VanetTdma.Adhoc.Verdict
import VanetTdma.Adhoc.HeardClaim
import VanetTdma.Lib.PointerList
import VanetTdma.Ns2.PacketQueue
import VanetTdma.Mbr.BestRelay
import VanetTdma.Fpga.ZeroBurst
import VanetTdma.Fpga.DescChecksum
import VanetTdma.Fpga.SingleOwner
