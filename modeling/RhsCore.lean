import RhsCore.CanOpen.CommandLine
import RhsCore.CanOpen.FilterList
import RhsCore.CanOpen.PdoConfig
import RhsCore.CanOpen.Sdo
import RhsCore.CanOpen.Transmit
import RhsCore.CanOpen.Wakeup
import RhsCore.Cli.Line
import RhsCore.Core.Critical
import RhsCore.Core.Deadline
import RhsCore.Core.Exists
import RhsCore.Core.Holders
import RhsCore.Core.Kernel
import RhsCore.Core.Log
import RhsCore.Core.Memmgr
import RhsCore.Core.Scrub
import RhsCore.Core.ThreadList
import RhsCore.Core.TimerFree
import RhsCore.Drivers.Chaining
import RhsCore.Drivers.Nbytes
import RhsCore.Drivers.RoundTrip
import RhsCore.FlashEx.Idle
import RhsCore.FlashEx.Isr
import RhsCore.FlashEx.Pages
import RhsCore.FlashEx.Store
import RhsCore.Hal.CanIrq
import RhsCore.Hal.I2cAcquire
import RhsCore.Hal.CanStatistic
import RhsCore.Hal.I2cAcknowledge
import RhsCore.Hal.Interrupt
import RhsCore.Hal.Random
import RhsCore.Hal.Serial
import RhsCore.Hal.SerialRx
import RhsCore.Hal.Speaker
import RhsCore.Modbus.Buffers
import RhsCore.Modbus.Session
import RhsCore.Modbus.Stream
import RhsCore.Net.Addresses
import RhsCore.Net.Deadlock
import RhsCore.Net.InitTcpip
import RhsCore.Net.ListenerStore
import RhsCore.Net.Listeners
import RhsCore.Net.LockOrder
import RhsCore.Net.Reconfigure
import RhsCore.Rtc.Century
import RhsCore.Usb.Descriptors
import RhsCore.Usb.EthBridge
import RhsCore.Usb.Interface
import RhsCore.Usb.Ownership
import RhsCore.Usb.SerialBridge
import RhsCore.Usb.SerialTx
import RhsCore.Usb.SerialStop
import RhsCore.Usb.SerialWorker
