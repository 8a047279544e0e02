import Onebox.Machine
import Onebox.Tiling
import Onebox.TxAccess
import Onebox.WakeUp
import Onebox.SleepSafety
import Onebox.RxAggregate
import Onebox.Bootloader
import Onebox.VerifiedBoot
import Onebox.PowerSave
import Onebox.PsHandshake
import Onebox.PsEvents
import Onebox.PsAgreement
import Onebox.PsPending
import Onebox.StationTable
import Onebox.StationRuns
import Onebox.VapTable
import Onebox.MultiVap
import Onebox.Association
import Onebox.ControlledPort
import Onebox.Descriptor
import Onebox.DataPath
import Onebox.Encryption
import Onebox.Delivery
import Onebox.HalQueue
import Onebox.QosLoop
import Onebox.TxThread
import Onebox.FlowControl
import Onebox.Calls
import Onebox.Transmit
import Onebox.TxOwnership
import Onebox.TxFormat
import Onebox.PktCalls
import Onebox.MgmtRx
import Onebox.MgmtOwnership
import Onebox.CoexRx
import Onebox.CoexOwnership
import Onebox.BringUp
import Onebox.Interrupts
import Onebox.FsmOrder
import Onebox.ByteMem
import Onebox.MasterWrite
import Onebox.FwUpgrade
import Onebox.BlAgreement
import Onebox.Chunks
import Onebox.FlashBurn
import Onebox.BurnPacing
import Onebox.AutoFlash
import Onebox.ManualFlash
import Onebox.CoexSend
import Onebox.UsbWrite
import Onebox.CoexQueue
import Onebox.DeepSleep
import Onebox.BeaconEvent
import Onebox.Scan
import Onebox.Unaggregated
import Onebox.RxReads
import Onebox.Netlink
import Onebox.ZigbCommand
import Onebox.KeyFrame
import Onebox.ZigbQueue
import Onebox.FlashBounds
import Onebox.WindowedLoad
import Onebox.WmmSelection
import Onebox.WmmFairness
import Onebox.TxPolicy
import Onebox.MgmtRate
import Onebox.Multicast
import Onebox.DeviceIndices
import Onebox.ConfirmCopies
import Onebox.OnesComplement
import Onebox.Checksum
import Onebox.FlashDescriptor
import Onebox.CLayout
import Onebox.ZigbFrames
import Onebox.BeaconBuffer
import Onebox.AutoRate
import Onebox.Ensures
import Onebox.Minstrel
import Onebox.MinstrelSampling
import Onebox.MinstrelReset
import Onebox.MinstrelStats
import Onebox.MinstrelChoice
import Onebox.MinstrelBounds
import Onebox.MinstrelChain
import Onebox.DtimScan
import Onebox.BgScan
import Onebox.ZclCommand
import Onebox.FileOps
import Onebox.Spans
import Onebox.ZigbReceive
import Onebox.ZigbMain
import Onebox.ScanPolicy
import Onebox.SeqSpace
import Onebox.ReorderWindow
import Onebox.Net80211.AmpduRx
import Onebox.Net80211.AmpduOrder
import Onebox.Net80211.ReorderPkt
import Onebox.Tally
import Onebox.Net80211.TimElement
import Onebox.Net80211.ApNode
import Onebox.Net80211.ApTable
import Onebox.Net80211.ApSleep
import Onebox.Net80211.ApTim
import Onebox.Net80211.ApProtect
import Onebox.Net80211.ApBeacon
import Onebox.Net80211.BaAction
import Onebox.Net80211.Addba
import Onebox.Net80211.AddbaRuns
import Onebox.Negotiation
import Onebox.Net80211.AddbaLink
