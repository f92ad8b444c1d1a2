import MyOs.Base.Bitmap
import MyOs.Base.Bytes
import MyOs.Base.Cells
import MyOs.Base.Fifo
import MyOs.Base.Hexadecimal
import MyOs.Base.Links
import MyOs.Base.Noted
import MyOs.Base.Numeral
import MyOs.Base.PagedMemory
import MyOs.Base.Prog
import MyOs.Base.Records
import MyOs.Base.System
import MyOs.Base.Word
import MyOs.Drivers.Ata
import MyOs.Drivers.AtaData
import MyOs.Drivers.Disk
import MyOs.Drivers.DiskSlots
import MyOs.Drivers.Identify
import MyOs.Drivers.Keyboard
import MyOs.Drivers.Pit
import MyOs.Drivers.Screen
import MyOs.Drivers.Terminal
import MyOs.Interrupts.Descriptors
import MyOs.Interrupts.Pic
import MyOs.Interrupts.Stubs
import MyOs.Logic.AddressSpace
import MyOs.Logic.AtaCommands
import MyOs.Logic.AtaDataRules
import MyOs.Logic.AtaRules
import MyOs.Logic.Atoi
import MyOs.Logic.BlockStore
import MyOs.Logic.BufferLedger
import MyOs.Logic.CreateTable
import MyOs.Logic.DescriptorSpec
import MyOs.Logic.DirectoryWalks
import MyOs.Logic.DiskKeeps
import MyOs.Logic.DiskSpec
import MyOs.Logic.Echo
import MyOs.Logic.FreeFrames
import MyOs.Logic.HeapArea
import MyOs.Logic.HeapBoot
import MyOs.Logic.HeapKeeps
import MyOs.Logic.HeapLists
import MyOs.Logic.HeapReturns
import MyOs.Logic.HeapRun
import MyOs.Logic.HeapShape
import MyOs.Logic.Interrupted
import MyOs.Logic.LargeBlocks
import MyOs.Logic.LargeList
import MyOs.Logic.LineInput
import MyOs.Logic.LiveBlocks
import MyOs.Logic.MapPage
import MyOs.Logic.NewPage
import MyOs.Logic.NewTable
import MyOs.Logic.PageFifo
import MyOs.Logic.PageMapped
import MyOs.Logic.PageWalk
import MyOs.Logic.PicLines
import MyOs.Logic.PmmSpec
import MyOs.Logic.Preempted
import MyOs.Logic.ReadyRing
import MyOs.Logic.Removal
import MyOs.Logic.Rotation
import MyOs.Logic.SavedFrame
import MyOs.Logic.ScreenCells
import MyOs.Logic.SlabCaches
import MyOs.Logic.SlabPage
import MyOs.Logic.SlotSpec
import MyOs.Logic.SmallBlocks
import MyOs.Logic.StackLog
import MyOs.Logic.StackReturns
import MyOs.Logic.Starvation
import MyOs.Logic.SwapSpec
import MyOs.Logic.SwappedTable
import MyOs.Logic.SwitchSpec
import MyOs.Logic.TableStep
import MyOs.Logic.Tables
import MyOs.Logic.TrapFrame
import MyOs.Logic.Unmapping
import MyOs.Memory.Contexts
import MyOs.Memory.Heap
import MyOs.Memory.HeapCalls
import MyOs.Memory.Kernel
import MyOs.Memory.LargeList
import MyOs.Memory.Layout
import MyOs.Memory.PageEntry
import MyOs.Memory.PageFifo
import MyOs.Memory.Pmm
import MyOs.Memory.SlabCaches
import MyOs.Memory.SlabPage
import MyOs.Memory.Vmm
import MyOs.Memory.VmmInit
import MyOs.Processes.ContextSwitch
import MyOs.Processes.Creation
import MyOs.Processes.Lifecycle
import MyOs.Processes.Preemption
import MyOs.Processes.Scheduler
import MyOs.Shell
import MyOs.Std.CString
import MyOs.Std.Hexa
import MyOs.Std.Printf
import MyOs.Std.Stdlib
import MyOs.Theorems.AtaDiscipline
import MyOs.Theorems.AtaTransfer
import MyOs.Theorems.BackedBlocks
import MyOs.Theorems.BootMapping
import MyOs.Theorems.BufferRelease
import MyOs.Theorems.ContextSwitch
import MyOs.Theorems.CreationFailure
import MyOs.Theorems.Descriptors
import MyOs.Theorems.Destruction
import MyOs.Theorems.DeviceInterrupts
import MyOs.Theorems.DiskStore
import MyOs.Theorems.DiskTransfer
import MyOs.Theorems.Echo
import MyOs.Theorems.Eviction
import MyOs.Theorems.FailureAtomicity
import MyOs.Theorems.FaultResolution
import MyOs.Theorems.FrameAllocator
import MyOs.Theorems.FrameReuse
import MyOs.Theorems.Geometry
import MyOs.Theorems.HeapSafety
import MyOs.Theorems.HexFormat
import MyOs.Theorems.Installing
import MyOs.Theorems.IntegerFormat
import MyOs.Theorems.InterruptLines
import MyOs.Theorems.Interrupts
import MyOs.Theorems.KeyboardRing
import MyOs.Theorems.LargeFailure
import MyOs.Theorems.LargeFree
import MyOs.Theorems.LargeRecords
import MyOs.Theorems.Lifetime
import MyOs.Theorems.LineInput
import MyOs.Theorems.PageFifo
import MyOs.Theorems.PhysicalSector
import MyOs.Theorems.Preemption
import MyOs.Theorems.Pressure
import MyOs.Theorems.Printf
import MyOs.Theorems.ProcessStack
import MyOs.Theorems.ReadyQueue
import MyOs.Theorems.RemovalRotation
import MyOs.Theorems.RoundRobin
import MyOs.Theorems.SavedContext
import MyOs.Theorems.SectorAddress
import MyOs.Theorems.ShellArguments
import MyOs.Theorems.ShellText
import MyOs.Theorems.SlabCaches
import MyOs.Theorems.SlabList
import MyOs.Theorems.SlabPlaces
import MyOs.Theorems.SlotAllocator
import MyOs.Theorems.SlotFree
import MyOs.Theorems.SlotRelease
import MyOs.Theorems.SmallFree
import MyOs.Theorems.SoftwareWalk
import MyOs.Theorems.SwapRoundTrip
import MyOs.Theorems.SwapTermination
import MyOs.Theorems.TableCreation
import MyOs.Theorems.Targeting
import MyOs.Theorems.Terminal
import MyOs.Theorems.TimeSlices
