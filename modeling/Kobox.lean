import Kobox.Runtime.Refcount
import Kobox.Protocol.DescriptorCodec
import Kobox.Protocol.Sha256Standard
import Kobox.Virtqueue.Backlog
import Kobox.Virtqueue.MappedMemory
import Kobox.Virtqueue.Copying
import Kobox.Virtqueue.Wrapping
import Kobox.Control.Tokens
import Kobox.Control.Cleanup
import Kobox.Control.FirstFault
import Kobox.Closure.Validation
import Kobox.Manifest.SealedOrder
import Kobox.Grant.Completeness
import Kobox.Filesystem.Response
import Kobox.Gpu.CompletionKind
import Kobox.Gpu.AmdgpuContracts
import Kobox.Gpu.Reserved
import Kobox.Gpu.SyncFile
import Kobox.Gpu.I915Shape
