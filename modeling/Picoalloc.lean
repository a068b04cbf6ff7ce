import Picoalloc.Allocation
import Picoalloc.Allocator
import Picoalloc.Allotments
import Picoalloc.Atomicity
import Picoalloc.Bins
import Picoalloc.BitMask
import Picoalloc.Builds
import Picoalloc.Calls
import Picoalloc.Configurations
import Picoalloc.Contracts
import Picoalloc.Decisions
import Picoalloc.Effects
import Picoalloc.Environments
import Picoalloc.Exposure
import Picoalloc.Fitting
import Picoalloc.Footprints
import Picoalloc.Foundation.Atomics
import Picoalloc.Foundation.ByteMemory
import Picoalloc.Foundation.CheckedMachine
import Picoalloc.Foundation.Erasure
import Picoalloc.Foundation.Grids
import Picoalloc.Foundation.IntrusiveLists
import Picoalloc.Foundation.Refinements
import Picoalloc.Foundation.Simulations
import Picoalloc.Foundation.Tilings
import Picoalloc.FreeLists
import Picoalloc.FrontEnds
import Picoalloc.Fuzzing
import Picoalloc.Granting
import Picoalloc.Headers
import Picoalloc.Heap
import Picoalloc.HeapInvariant
import Picoalloc.Initialization
import Picoalloc.Integrity
import Picoalloc.Layouts
import Picoalloc.Moving
import Picoalloc.Mutexes
import Picoalloc.Operations
import Picoalloc.Ownership
import Picoalloc.Panics
import Picoalloc.Payloads
import Picoalloc.Policy
import Picoalloc.Processes
import Picoalloc.Reallocation
import Picoalloc.Requests
import Picoalloc.Reservations
import Picoalloc.Resizing
import Picoalloc.Rounding
import Picoalloc.Sessions
import Picoalloc.Size
import Picoalloc.Stores
import Picoalloc.Systems
import Picoalloc.Tags
import Picoalloc.Threads
import Picoalloc.Twins
import Picoalloc.Wasm
