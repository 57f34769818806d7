import TdmSlave.Types
import TdmSlave.Xcore
import TdmSlave.Pack16
import TdmSlave.State
import TdmSlave.Io
import TdmSlave.MainLoop
import TdmSlave.Ownership
import TdmSlave.Protocol
import TdmSlave.Schedule
import TdmSlave.FrameSync
import TdmSlave.Delivery
import TdmSlave.Loopback
import TdmSlave.Placement
import TdmSlave.Shared
import TdmSlave.App
import TdmSlave.Tx16Test
