import MikanOs.Console
import MikanOs.Console.Text
import MikanOs.Error
import MikanOs.Font
import MikanOs.Graphics
import MikanOs.Lib.BitField
import MikanOs.Lib.BumpAllocator
import MikanOs.Lib.ByteMemory
import MikanOs.Lib.Canvas
import MikanOs.Lib.DepthFirst
import MikanOs.Lib.Interaction
import MikanOs.Lib.LapRing
import MikanOs.Lib.LastLines
import MikanOs.Lib.Linked
import MikanOs.Lib.MapHistory
import MikanOs.Lib.PythonText
import MikanOs.Lib.Returns
import MikanOs.Lib.RoundUp
import MikanOs.Lib.Run
import MikanOs.Lib.Traced
import MikanOs.Loader.Elf
import MikanOs.Loader.EntryPoint
import MikanOs.Loader.Firmware
import MikanOs.Loader.KernelImage
import MikanOs.Loader.UefiMain
import MikanOs.MakeFont
import MikanOs.Mouse
import MikanOs.MouseTrail
import MikanOs.Pci.BaseAddress
import MikanOs.Pci.BusTree
import MikanOs.Pci.ConfigSpace
import MikanOs.Pci.Scan
import MikanOs.Rectangle
import MikanOs.Usb.ArrayMap
import MikanOs.Usb.ArrayMapRuns
import MikanOs.Usb.ClassDriver
import MikanOs.Usb.Configuration
import MikanOs.Usb.ConfigurationReads
import MikanOs.Usb.ConfigurationRuns
import MikanOs.Usb.DescriptorList
import MikanOs.Usb.Device
import MikanOs.Usb.Host
import MikanOs.Usb.Initialization
import MikanOs.Usb.Keyboard
import MikanOs.Usb.Memory
import MikanOs.Usb.PoolRequests
import MikanOs.Usb.ReaderProgress
import MikanOs.Usb.SetupData
import MikanOs.Usb.Xhci.Addressing
import MikanOs.Usb.Xhci.AddressingLock
import MikanOs.Usb.Xhci.AllPorts
import MikanOs.Usb.Xhci.BringUp
import MikanOs.Usb.Xhci.ClassDrivers
import MikanOs.Usb.Xhci.ClassStart
import MikanOs.Usb.Xhci.CommandCompletion
import MikanOs.Usb.Xhci.Context
import MikanOs.Usb.Xhci.ControlTransfer
import MikanOs.Usb.Xhci.Controller
import MikanOs.Usb.Xhci.ControllerStart
import MikanOs.Usb.Xhci.Device
import MikanOs.Usb.Xhci.DeviceManager
import MikanOs.Usb.Xhci.EndpointContexts
import MikanOs.Usb.Xhci.EndpointIndex
import MikanOs.Usb.Xhci.EndpointTable
import MikanOs.Usb.Xhci.EventIndices
import MikanOs.Usb.Xhci.EventOrder
import MikanOs.Usb.Xhci.EventRing
import MikanOs.Usb.Xhci.EventTrace
import MikanOs.Usb.Xhci.ExtendedCapabilities
import MikanOs.Usb.Xhci.FailedTransfer
import MikanOs.Usb.Xhci.Handlers
import MikanOs.Usb.Xhci.HostController
import MikanOs.Usb.Xhci.InitRun
import MikanOs.Usb.Xhci.InitSteps
import MikanOs.Usb.Xhci.Initialize
import MikanOs.Usb.Xhci.InterruptPipe
import MikanOs.Usb.Xhci.InterruptRun
import MikanOs.Usb.Xhci.Isolation
import MikanOs.Usb.Xhci.LockRun
import MikanOs.Usb.Xhci.Lookups
import MikanOs.Usb.Xhci.PoolExhaustion
import MikanOs.Usb.Xhci.PoolRoom
import MikanOs.Usb.Xhci.Port
import MikanOs.Usb.Xhci.PortPhases
import MikanOs.Usb.Xhci.PortStatus
import MikanOs.Usb.Xhci.Progress
import MikanOs.Usb.Xhci.Registers
import MikanOs.Usb.Xhci.RejectedControl
import MikanOs.Usb.Xhci.Ring
import MikanOs.Usb.Xhci.RingFifo
import MikanOs.Usb.Xhci.RingLayout
import MikanOs.Usb.Xhci.Scratchpad
import MikanOs.Usb.Xhci.SlotTables
import MikanOs.Usb.Xhci.TransferCalls
import MikanOs.Usb.Xhci.Trb
import MikanOs.Usb.Xhci.Waiters
