import ParanukOS.Foundation.Bytes
import ParanukOS.Foundation.Tiling
import ParanukOS.KernelMemory.Heap.Run
import ParanukOS.Foundation.Loops
import ParanukOS.Foundation.WordArray
import ParanukOS.KernelMemory.Map
import ParanukOS.KernelMemory.Paging.Model
import ParanukOS.KernelMemory.Paging.Build
import ParanukOS.KernelMemory.Paging.Walk
import ParanukOS.KernelMemory.Paging.UserMap
import ParanukOS.KernelMemory.Paging.Isolation
import ParanukOS.Foundation.Bitmap
import ParanukOS.KernelMemory.Frame.Model
import ParanukOS.KernelMemory.Frame.Spec
import ParanukOS.KernelMemory.Frame.Run
import ParanukOS.KernelMemory.Usable
import ParanukOS.Foundation.Ring
import ParanukOS.KernelSched.Model
import ParanukOS.KernelSched.Abstract
import ParanukOS.KernelSched.Refinement
import ParanukOS.Kernel.Thread.Model
import ParanukOS.Kernel.Thread.Stacks
import ParanukOS.Kernel.Thread.Invariant
import ParanukOS.Kernel.Thread.Run
import ParanukOS.Foundation.Fallible
import ParanukOS.KernelImage.Model
import ParanukOS.Bootloader.FsLoader
import ParanukOS.Bootloader.Loaded
import ParanukOS.BootInfo
import ParanukOS.Kernel.Memory.Model
import ParanukOS.Kernel.Memory.Owned
import ParanukOS.Bootloader.Handoff
import ParanukOS.Kernel.User.Model
import ParanukOS.Kernel.User.Image
import ParanukOS.Kernel.User.Pages
import ParanukOS.KernelSched.Fairness
import ParanukOS.KernelSched.Reaping
import ParanukOS.KernelMemory.Heap.History
import ParanukOS.Kernel.Lock.Model
import ParanukOS.Kernel.Lock.Discipline
import ParanukOS.Kernel.Thread.Handler
import ParanukOS.Kernel.Thread.Ownership
import ParanukOS.Kernel.User.Frames
import ParanukOS.KernelMemory.Decode
import ParanukOS.KernelMemory.Frame.Offers
import ParanukOS.Foundation.Covers
import ParanukOS.KernelImage.Accepted
import ParanukOS.KernelMemory.Paging.UserBounds
import ParanukOS.Kernel.Thread.Failure
import ParanukOS.KernelMemory.Heap.FirstFit
import ParanukOS.KernelMemory.Paging.Leaves
import ParanukOS.Foundation.Rounds
import ParanukOS.KernelMemory.Heap.Walks
import ParanukOS.KernelMemory.Paging.UserFailure
import ParanukOS.KernelMemory.Heap.Failure
import ParanukOS.KernelMemory.Heap.Corrupted
import ParanukOS.KernelMemory.Heap.Chain
import ParanukOS.KernelMemory.Heap.Settled
import ParanukOS.KernelMemory.Heap.Survival
import ParanukOS.Bootloader.PageRanges
import ParanukOS.Foundation.Stack
import ParanukOS.Kernel.Interrupt.Delivery
import ParanukOS.Kernel.Interrupt.Entry
import ParanukOS.Kernel.Interrupt.Saved
import ParanukOS.Foundation.Simulation
import ParanukOS.Kernel.Thread.Contexts
import ParanukOS.Foundation.Ports
import ParanukOS.Kernel.Device.Pic
import ParanukOS.Kernel.Device.Serial
import ParanukOS.Kernel.Device.Ticks
import ParanukOS.Kernel.Interrupt.Exceptions
import ParanukOS.Kernel.Memory.HeapCheck
import ParanukOS.Kernel.Memory.SelfChecked
import ParanukOS.Foundation.Portions
import ParanukOS.Kernel.Main.Model
import ParanukOS.Kernel.Main.Partition
import ParanukOS.Kernel.Main.Boot
