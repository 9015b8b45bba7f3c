import Gd32Vw553h.Board.Scan
import Gd32Vw553h.Drivers.BitXfer
import Gd32Vw553h.Drivers.Gpio
import Gd32Vw553h.Drivers.Hwtimer
import Gd32Vw553h.Drivers.I2c
import Gd32Vw553h.Drivers.I2cTiming
import Gd32Vw553h.Drivers.I2cXfer
import Gd32Vw553h.Drivers.Pwm
import Gd32Vw553h.Finsh.History
import Gd32Vw553h.Finsh.Split
import Gd32Vw553h.Foundation.Loops
import Gd32Vw553h.Ipc.CancelSync
import Gd32Vw553h.Ipc.Completion
import Gd32Vw553h.Ipc.DataQueueWaits
import Gd32Vw553h.Ipc.DelayedWork
import Gd32Vw553h.Ipc.Event
import Gd32Vw553h.Ipc.Mailbox
import Gd32Vw553h.Ipc.MessageQueue
import Gd32Vw553h.Ipc.MsgQueue
import Gd32Vw553h.Ipc.RingBlkArea
import Gd32Vw553h.Ipc.RingBuffer
import Gd32Vw553h.Ipc.Semaphore
import Gd32Vw553h.Ipc.ThreadEnd
import Gd32Vw553h.Kernel.Critical
import Gd32Vw553h.Kernel.Hrtimer
import Gd32Vw553h.Kernel.MemheapData
import Gd32Vw553h.Kernel.MempoolLayout
import Gd32Vw553h.Kernel.SmallMemData
import Gd32Vw553h.Kernel.TimeSlice
import Gd32Vw553h.Kernel.TimerTicks
import Gd32Vw553h.Klibc.IsoPrintf
import Gd32Vw553h.Klibc.MemOps
import Gd32Vw553h.Klibc.StrCompare
import Gd32Vw553h.Libc.Ctime
import Gd32Vw553h.Net.InetChksum
import Gd32Vw553h.Provision.ConnectWifi
import Gd32Vw553h.Provision.Isolation
import Gd32Vw553h.Provision.Routing
import Gd32Vw553h.Serial.Device
import Gd32Vw553h.Serial.DmaRx
import Gd32Vw553h.Serial.DmaTx
import Gd32Vw553h.Serial.UartIsr
import Gd32Vw553h.Utilities.Ulog
import Gd32Vw553h.Wlan.Cfg
import Gd32Vw553h.Wlan.CfgMemory
import Gd32Vw553h.Wlan.CompletionWait
import Gd32Vw553h.Wlan.Roles
import Gd32Vw553h.Wlan.SavedPair
import Gd32Vw553h.Wlan.ScanTable
import Gd32Vw553h.Wlan.StaInfo
import Gd32Vw553h.Wlan.StartAp
import Gd32Vw553h.Wlan.StationState
