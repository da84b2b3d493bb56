import Vsched2.AddressSpaces
import Vsched2.Admission
import Vsched2.Conservation
import Vsched2.ControlFlow
import Vsched2.Effects
import Vsched2.EventSource
import Vsched2.EventSourceEntry
import Vsched2.Exclusivity
import Vsched2.HandOff
import Vsched2.HandlerPool
import Vsched2.HandlerVspace
import Vsched2.Handlers
import Vsched2.HiddenWork
import Vsched2.Interface
import Vsched2.Kernel
import Vsched2.KernelCalls
import Vsched2.KernelData
import Vsched2.KernelRefinement
import Vsched2.KernelRuns
import Vsched2.Lib.Assembly
import Vsched2.Lib.IndexSet
import Vsched2.Lib.Ledger
import Vsched2.Lib.Refinement
import Vsched2.Lib.Run
import Vsched2.Lib.Search
import Vsched2.Lib.StableQueue
import Vsched2.Machine
import Vsched2.MainLoop
import Vsched2.Ownership
import Vsched2.PhantomBits
import Vsched2.PidAllocation
import Vsched2.PoolOverflow
import Vsched2.PopTask
import Vsched2.PriorityOrder
import Vsched2.Privilege
import Vsched2.ProcessInfo
import Vsched2.ProcessSlots
import Vsched2.Progress
import Vsched2.QueueRefinement
import Vsched2.ReadyQueue
import Vsched2.Routing
import Vsched2.ScheduleLoop
import Vsched2.ScheduleLoopCalls
import Vsched2.ScheduleLoopRiscv
import Vsched2.ScheduleLoopX86
import Vsched2.Scheduler
import Vsched2.SecondCheck
import Vsched2.SharedReadyQueue
import Vsched2.SleepFlag
import Vsched2.SlotCalls
import Vsched2.SlotReuse
import Vsched2.StackDispatch
import Vsched2.StackHandler
import Vsched2.StackLedger
import Vsched2.StackLoop
import Vsched2.StackRelease
import Vsched2.StackRotation
import Vsched2.StalePriorities
import Vsched2.TaskStates
import Vsched2.TaskView
import Vsched2.TrapHistory
import Vsched2.TrapWaitQueue
import Vsched2.WakeUp
