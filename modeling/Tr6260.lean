import Tr6260.ByteMem
import Tr6260.LittleEndian
import Tr6260.ThreadedList
import Tr6260.FlashProg
import Tr6260.PowerLoss
import Tr6260.SpiFlash
import Tr6260.FlashRecord
import Tr6260.UserData
import Tr6260.AmtNv.Model
import Tr6260.AmtNv.Copies
import Tr6260.AmtNv.Search
import Tr6260.AmtNv.Compaction
import Tr6260.AmtNv.Recovery
import Tr6260.AmtNv.Write
import Tr6260.AmtNv.SlotMap
import Tr6260.CString
import Tr6260.CJson
import Tr6260.CrlfText
import Tr6260.Timer.Model
import Tr6260.Timer.Persist
import Tr6260.Timer.Messages
import Tr6260.Timer.ListInvariant
import Tr6260.Timer.Clock
import Tr6260.Timer.Schedule
import Tr6260.Block
import Tr6260.RequestLink
import Tr6260.Uart.Frame
import Tr6260.Uart.Loop
import Tr6260.Uart.Prompt
import Tr6260.Uart.Cert
import Tr6260.Uart.Readback
import Tr6260.Uart.CertWrite
import Tr6260.Uart.Handler
import Tr6260.Uart.Bounds
import Tr6260.Ota.Hal
import Tr6260.Ota.Writer
import Tr6260.Ota.Http
import Tr6260.Ota.OkResponse
import Tr6260.Ota.HeaderWindow
import Tr6260.Ota.HeaderStream
import Tr6260.Ota.Body
import Tr6260.Ota.Request
import Tr6260.Ota.Machine
import Tr6260.Ota.Assembly
import Tr6260.Ota.Run
import Tr6260.Ota.Integrity
import Tr6260.Ota.Resources
import Tr6260.Ota.McuStore
import Tr6260.Ota.Commit
import Tr6260.Ota.Isolation
import Tr6260.Ota.Result
import Tr6260.Smartconfig.Model
import Tr6260.Smartconfig.Broadcast
import Tr6260.Smartconfig.Loss
import Tr6260.Smartconfig.Multicast
import Tr6260.Smartconfig.Session
import Tr6260.Smartconfig.Lifecycle
import Tr6260.License.Aws
import Tr6260.License.Aliyun
import Tr6260.OrderedMap
import Tr6260.Cloud.Listeners
import Tr6260.AppMain.Connect
import Tr6260.System.MemoryPool
import Tr6260.System.PoolInvariant
import Tr6260.System.PoolRun
import Tr6260.UartAdapter.Send
import Tr6260.UartAdapter.Receive
import Tr6260.SwPackage.Config
import Tr6260.SwPackage.Package
import Tr6260.SwPackage.Emission
import Tr6260.SwPackage.Layout
import Tr6260.SwPackage.Tiling
import Tr6260.SwPackage.Fits
import Tr6260.SwPackage.Describe
import Tr6260.OtaHal.Image
import Tr6260.OtaHal.Accept
import Tr6260.AtCmd.Command
import Tr6260.AtCmd.Licence
import Tr6260.AtCmd.Wrcert
import Tr6260.StripLights.Model
import Tr6260.StripLights.WellFormed
import Tr6260.RingList
import Tr6260.Rtc.Date
import Tr6260.Rtc.Timer
import Tr6260.Rtc.ListInvariant
import Tr6260.Rtc.ListKept
import Tr6260.WifiDrv.Interface
import Tr6260.WifiDrv.Key
import Tr6260.WifiDrv.Scan
import Tr6260.WifiDrv.Transmit
import Tr6260.WifiDrv.Scatter
import Tr6260.WifiDrv.Layout
import Tr6260.WifiDrv.Convert
import Tr6260.WifiDrv.BlockAck
import Tr6260.ScRecv.Model
import Tr6260.ScRecv.Safety
import Tr6260.ScRecv.Window
import Tr6260.ScRecv.Delivery
import Tr6260.ScRecv.Rounds
import Tr6260.WifiNv.Model
import Tr6260.WifiNv.Text
import Tr6260.WifiNv.Pmk
import Tr6260.WifiNv.Cached
import Tr6260.Rtc.Nv
import Tr6260.Rtc.Restart
import Tr6260.Rtc.Calendar
import Tr6260.Rtc.Clock
import Tr6260.Rtc.Pause
import Tr6260.Rtc.Instant
import Tr6260.Rtc.SetTime
import Tr6260.Rtc.TimeChange
import Tr6260.Ota.Url
import Tr6260.Ota.VersionGate
import Tr6260.Ota.Progress
import Tr6260.Timer.HalTimer
import Tr6260.Ota.Retry
import Tr6260.ScRecv.FailedLock
import Tr6260.Smartconfig.Range
import Tr6260.Gregorian
import Tr6260.Timer.CloudTime
import Tr6260.Ota.Partition
import Tr6260.Sntp.Time
import Tr6260.Sntp.LocalTime
import Tr6260.BlockHeap
import Tr6260.Console.Model
import Tr6260.Console.Lines
import Tr6260.Console.Delivery
import Tr6260.System.SysbufQueue
import Tr6260.Timer.ServerTime
import Tr6260.Tlv
import Tr6260.Wifi80211.Elements
import Tr6260.Wifi80211.Beacon
import Tr6260.Wifi80211.Sniffer
import Tr6260.Wifi80211.Delivery
import Tr6260.Softap.Padding
import Tr6260.Softap.Cbc
import Tr6260.Traced
import Tr6260.CJsonPrint
import Tr6260.Softap.Model
import Tr6260.Softap.Datagram
import Tr6260.Softap.Apconfig
import Tr6260.System.BufLength
import Tr6260.Smartconfig.Decode
import Tr6260.UartAdapter.RxRing
import Tr6260.HalUart.Read
import Tr6260.SpiFlash.Pages
import Tr6260.OtaHal.TwoPartition
import Tr6260.AtCmd.Tokens
import Tr6260.Light.Fade
import Tr6260.Light.Property
import Tr6260.Button
import Tr6260.Rtc.Service
import Tr6260.Rtc.NextAlarm
import Tr6260.Rtc.Arithmetic
import Tr6260.Rtc.SystemTime
import Tr6260.Rtc.Alarm32k
import Tr6260.WifiDrv.RxBounds
import Tr6260.WifiDrv.ApProcess
import Tr6260.WifiDrv.Associate
import Tr6260.HexText
import Tr6260.System.ConfigSsid
import Tr6260.System.ParseLine
import Tr6260.ScRecv.Hopping
import Tr6260.Ir.Resync
import Tr6260.SuffixOrder
import Tr6260.SwPackage.Qsufsort
import Tr6260.Rearrange
import Tr6260.SwPackage.Partition
import Tr6260.SwPackage.Groups
import Tr6260.SwPackage.SplitGroup
import Tr6260.SwPackage.GroupRounds
import Tr6260.SwPackage.SuffixArray
import Tr6260.Delta
import Tr6260.SwPackage.Bsdiff
import Tr6260.SwPackage.Diffing
import Tr6260.SwPackage.Patch
import Tr6260.SwPackage.Bspatch
import Tr6260.SwPackage.Restored
import Tr6260.CyclicCheck
import Tr6260.OtaHal.Checksum
import Tr6260.SwPackage.Crc32
import Tr6260.BlockHash
import Tr6260.SwPackage.Sha256
