import Net2Modbus.Block
import Net2Modbus.Board
import Net2Modbus.Client
import Net2Modbus.ConfigPage
import Net2Modbus.ConfigStore
import Net2Modbus.Connection
import Net2Modbus.DataFlash
import Net2Modbus.Decimal
import Net2Modbus.DefaultRepair
import Net2Modbus.DirEntry
import Net2Modbus.Downlink
import Net2Modbus.Enumeration
import Net2Modbus.EthReceive
import Net2Modbus.EthTransmit
import Net2Modbus.Event
import Net2Modbus.FatAlloc
import Net2Modbus.FatBytes
import Net2Modbus.FatChain
import Net2Modbus.FatFile
import Net2Modbus.FatTable
import Net2Modbus.FileSearch
import Net2Modbus.FirmwareImage
import Net2Modbus.FirmwareUpdate
import Net2Modbus.FirstFit
import Net2Modbus.Flash
import Net2Modbus.Framing
import Net2Modbus.Gateway
import Net2Modbus.HalfDuplex
import Net2Modbus.Header
import Net2Modbus.Heap
import Net2Modbus.HeapLayout
import Net2Modbus.HeapUse
import Net2Modbus.IapServer
import Net2Modbus.InterruptMask
import Net2Modbus.IoManager
import Net2Modbus.Lifecycle
import Net2Modbus.Line
import Net2Modbus.Linked
import Net2Modbus.ListReplacement
import Net2Modbus.Lockstep
import Net2Modbus.Machine
import Net2Modbus.MailSessions
import Net2Modbus.Network
import Net2Modbus.OneWire
import Net2Modbus.OneWireVerify
import Net2Modbus.OpenFiles
import Net2Modbus.Ownership
import Net2Modbus.PbufChains
import Net2Modbus.Persistence
import Net2Modbus.PollList
import Net2Modbus.Radio
import Net2Modbus.ReplyBuffers
import Net2Modbus.Resources
import Net2Modbus.RfDownlink
import Net2Modbus.RfUplink
import Net2Modbus.Ring
import Net2Modbus.Schedule
import Net2Modbus.Segments
import Net2Modbus.Serial
import Net2Modbus.Smtp
import Net2Modbus.StaleBuffer
import Net2Modbus.Storage
import Net2Modbus.StringSearch
import Net2Modbus.Temperature
import Net2Modbus.TftpAvailability
import Net2Modbus.TftpParsing
import Net2Modbus.TftpRead
import Net2Modbus.TftpResources
import Net2Modbus.TftpServer
import Net2Modbus.TftpWrite
import Net2Modbus.Tiles
import Net2Modbus.Traffic
import Net2Modbus.Transmit
import Net2Modbus.Uplink
import Net2Modbus.UplinkQueue
import Net2Modbus.UserFlash
import Net2Modbus.WordSearch
