import SmallOs.Proofs.FileSystem.Directory
import SmallOs.Proofs.FileSystem.FileRead
import SmallOs.Proofs.FileSystem.Lookup
import SmallOs.Proofs.Kernel.ClockWakeup
import SmallOs.Proofs.Kernel.Confinement
import SmallOs.Proofs.Kernel.Delivery
import SmallOs.Proofs.Kernel.Linkage
import SmallOs.Proofs.Kernel.RtcRate
import SmallOs.Proofs.Library.Blocks
import SmallOs.Proofs.Library.Rendering
import SmallOs.Proofs.Library.Strings
import SmallOs.Proofs.Process.Arguments
import SmallOs.Proofs.Process.Atomicity
import SmallOs.Proofs.Process.Attribution
import SmallOs.Proofs.Process.Command
import SmallOs.Proofs.Process.Context
import SmallOs.Proofs.Process.Descriptors
import SmallOs.Proofs.Process.ExitStatus
import SmallOs.Proofs.Process.KernelStacks
import SmallOs.Proofs.Process.PrivateMemory
import SmallOs.Proofs.Process.Protection
import SmallOs.Proofs.Process.RoundTrip
import SmallOs.Proofs.Process.Turns
import SmallOs.Proofs.Terminal.Coherence
import SmallOs.Proofs.Terminal.LineDelivery
import SmallOs.Proofs.Terminal.Ttys
import SmallOs.Proofs.User.Animation
import SmallOs.Proofs.User.Grep
