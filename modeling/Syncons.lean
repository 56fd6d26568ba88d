import Syncons.Cluster
import Syncons.Resurrection
import Syncons.NodeSteps
import Syncons.Network
import Syncons.Listening
import Syncons.Turns
import Syncons.Mirror
import Syncons.Cutover
import Syncons.SoundSets
import Syncons.Silence
import Syncons.Durability
import Syncons.Stages
import Syncons.Agreement
import Syncons.Rejoin
import Syncons.ConsensusCore
import Syncons.CoreTiming
import Syncons.CoreSteps
import Syncons.CommitStream
import Syncons.RxEvidence
import Syncons.CoreAgreement
import Syncons.CoreJudgement
import Syncons.CoreRefinement
import Syncons.Attention
import Syncons.Streams
import Syncons.StoredLogs
import Syncons.BitFields
import Syncons.TxEngine
import Syncons.Rings
import Syncons.CommitBuffer
import Syncons.RxPath
import Syncons.WireFormat
import Syncons.ReceivedPayloads
import Syncons.CommitDmaWriter
import Syncons.CommitDelivery
import Syncons.Deliveries
import Syncons.HaltReasons
import Syncons.DeliverySchedule
import Syncons.Reception
import Syncons.CoreHalts
import Syncons.RoundOfTime
import Syncons.StagedConfig
import Syncons.HostAgent
import Syncons.HostSessions
import Syncons.HostCoordinator
import Syncons.ClusterRetry
import Syncons.ProposalBuffer
import Syncons.ProposalDmaReader
import Syncons.ProposalDelivery
import Syncons.Concert
import Syncons.Survivors
import Syncons.AxiStream
import Syncons.TxMux
import Syncons.AgentStates
import Syncons.DecimalText
import Syncons.Durations
import Syncons.RxSplitter
import Syncons.CoordinatorFile
import Syncons.BigEndian
import Syncons.HeaderCodec
import Syncons.TdmaSlots
import Syncons.TxStream
import Syncons.TxSlots
import Syncons.RingGeometry
import Syncons.WaitingRoom
import Syncons.RxEngine
import Syncons.RxStation
import Syncons.CoreRecords
import Syncons.CutoverTiming
import Syncons.UnbrokenLogs
import Syncons.Campaign
import Syncons.CrashTolerance
import Syncons.WireCluster
import Syncons.ProposalFrames
import Syncons.HostNetwork
import Syncons.HostRefinement
import Syncons.PostedBus
import Syncons.CommonRegisters
import Syncons.SysfsFiles
import Syncons.SysfsDriver
