import SecureKernel.Parameters.MemRef
import SecureKernel.Parameters.Lookup
import SecureKernel.Parameters.ContextLedger
import SecureKernel.Timer.Interrupt
import SecureKernel.Timer.Durations
import SecureKernel.Timer.Conversion
import SecureKernel.PageTable.Counting
import SecureKernel.SecureApi.References
import SecureKernel.SecureApi.IpcApi
import SecureKernel.Scheduler.RoundRobin
import SecureKernel.Scheduler.WakeAll
import SecureKernel.Scheduler.Sleep
import SecureKernel.Monitor.Registers
import SecureKernel.Scheduler.Destroy
import SecureKernel.Notification.Delivery
import SecureKernel.Dispatcher.Progress
import SecureKernel.Vfp.Isolation
import SecureKernel.Services.Secrecy
import SecureKernel.Services.Decoding
import SecureKernel.Storage.Isolation
import SecureKernel.Storage.Delivery
import SecureKernel.MemMng.Reserve
import SecureKernel.NskLoader.Restored
import SecureKernel.Buddy.LongRelease
import SecureKernel.Buddy.Coalesced
import SecureKernel.Tasks.Permissions
import SecureKernel.Tasks.Opening
import SecureKernel.Semaphore.Progress
import SecureKernel.Driver.SmcCall
import SecureKernel.Client.Bookkeeping
import SecureKernel.Elf.Bounds
import SecureKernel.BigInt.Modular
import SecureKernel.ClientApi.Operations
import SecureKernel.Division.Routines
import SecureKernel.BigInt.Conversion
import SecureKernel.Fat32.Sessions
import SecureKernel.Fat32.Searching
import SecureKernel.Fat32.LongNames
import SecureKernel.Stdio.Input
import SecureKernel.Fat32.Locks
import SecureKernel.Fat32.Closing
import SecureKernel.Elf.FileMap
import SecureKernel.TeeObject.Transient
import SecureKernel.Rc4.Unwritten
import SecureKernel.MemFunctions.Comparison
import SecureKernel.Crypto.Digest
import SecureKernel.Crypto.Authenticated
import SecureKernel.Crypto.Chunking
import SecureKernel.Parameters.Response
import SecureKernel.Strings.Routines
