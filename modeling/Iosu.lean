import Iosu.Lib.Run
import Iosu.Entity.Authorisation
import Iosu.Entities.Tables
import Iosu.Lib.Serial
import Iosu.Eeprom.Driver
import Iosu.Eeprom.Wire
import Iosu.Eeprom.Protocol
import Iosu.Lib.Switch
import Iosu.Bsp.Dispatch
import Iosu.Bsp.Replies
import Iosu.Bsp.Footprint
import Iosu.Eeprom.Errors
import Iosu.Lib.Microwire
import Iosu.Eeprom.Store
import Iosu.Bsp.Ee
import Iosu.Bsp.EeStore
import Iosu.Bsp.BoardWords
import Iosu.Bsp.Shared
import Iosu.Bsp.BoardImage
import Iosu.Bsp.Validity
import Iosu.Bsp.Versions
import Iosu.Bsp.Detectors
import Iosu.Bsp.Boot
import Iosu.Bsp.Clock
import Iosu.Bsp.Ppc
import Iosu.Lib.CrcPoly
import Iosu.Libraries.Crc32Calls
import Iosu.Bsp.Bursts
import Iosu.Bsp.BoardAtomic
import Iosu.Bsp.Streaming
import Iosu.Entity.Sorted
import Iosu.Entity.Decision
import Iosu.Bsp.LogHandles
import Iosu.Libc.Sprintf
import Iosu.Bsp.LogFatal
import Iosu.Entities.Lines
import Iosu.Entities.IoStrength
import Iosu.Entities.DiReset
import Iosu.Bsp.PpcExec
import Iosu.Entity.Query
import Iosu.Libc.Printf
import Iosu.Lib.Counter
import Iosu.Libc.Delay
import Iosu.Bsp.Syslog
import Iosu.Bsp.Timestamps
import Iosu.Bsp.SyslogLength
import Iosu.Bsp.LogTable
import Iosu.Lib.Lock
import Iosu.Bsp.LogThreads
import Iosu.Bsp.MainLog
import Iosu.Entities.Ccrh
import Iosu.Entities.CcrhInit
import Iosu.Lib.Monitor
import Iosu.Lib.Simulation
import Iosu.Lib.Frame
import Iosu.Entity.Access
import Iosu.Entity.Frame
import Iosu.Bsp.MainTrace
import Iosu.Bsp.Policy
import Iosu.Bsp.MainAnswers
import Iosu.Bsp.EeMachine
import Iosu.Bsp.ServeFrame
import Iosu.Bsp.EeEntity
import Iosu.Bsp.EeProvision
import Iosu.Eeprom.Timing
import Iosu.Lib.CString
import Iosu.Libc.Memory
import Iosu.Libc.Text
import Iosu.Libc.Concat
import Iosu.Bsp.Accounts
import Iosu.Bsp.FatalExit
import Iosu.Lib.Unwinding
import Iosu.Entity.Respect
import Iosu.Bsp.Isolation
import Iosu.Bsp.EeReaders
import Iosu.Bsp.Ready
import Iosu.Entities.Sys
import Iosu.Bsp.PpcCommands
