import HipBridge.Backends.KeptFiles
import HipBridge.Backends.SwitchBackend
import HipBridge.Bridge.Agreement
import HipBridge.Bridge.Calls
import HipBridge.Bridge.Connection
import HipBridge.Bridge.CopyBounds
import HipBridge.Bridge.CutResponse
import HipBridge.Bridge.DeviceMemory
import HipBridge.Bridge.FrameSizes
import HipBridge.Bridge.FreedTwice
import HipBridge.Bridge.InProcess
import HipBridge.Bridge.InProcessRefinement
import HipBridge.Bridge.KernelArgs
import HipBridge.Bridge.Pairing
import HipBridge.Bridge.PeClient
import HipBridge.Bridge.Refinement
import HipBridge.Bridge.SeveralGames
import HipBridge.Bridge.StalePointers
import HipBridge.Bridge.Threads
import HipBridge.Daemon.AcceptLoop
import HipBridge.Daemon.ErrorAtomicity
import HipBridge.Daemon.FlatDevice
import HipBridge.Daemon.HandleClient
import HipBridge.Daemon.HandleRequest
import HipBridge.Daemon.HandleThreads
import HipBridge.Daemon.Handles
import HipBridge.Daemon.HipSys
import HipBridge.Daemon.ResponseSize
import HipBridge.Daemon.TableLog
import HipBridge.Daemon.Watched
import HipBridge.Investigations.CoherencyProbe
import HipBridge.Investigations.FaithfulProbe
import HipBridge.Investigations.RingSubmission
import HipBridge.Investigations.TimingProbe
import HipBridge.Lib.BTreeMap
import HipBridge.Lib.BoundedAssoc
import HipBridge.Lib.CString
import HipBridge.Lib.FileMoves
import HipBridge.Lib.FlatMemory
import HipBridge.Lib.Inputs
import HipBridge.Lib.LittleEndian
import HipBridge.Lib.RepeatedList
import HipBridge.Lib.Run
import HipBridge.Lib.Rust
import HipBridge.Lib.Simulation
import HipBridge.Lib.SlotTable
import HipBridge.Protocol.Canonical
import HipBridge.Protocol.Framing
import HipBridge.Protocol.RoundTrip
import HipBridge.Protocol.Wire
import HipBridge.Stub.AddressLedger
import HipBridge.Stub.AddressRuns
import HipBridge.Stub.AddressSpace
import HipBridge.Stub.BundleResolvers
import HipBridge.Stub.BundleSize
import HipBridge.Stub.CallConfig
import HipBridge.Stub.Exports
import HipBridge.Stub.FatBinary
import HipBridge.Stub.Launch
import HipBridge.Stub.Memory
import HipBridge.Stub.NoDaemon
import HipBridge.Unixlib.AllocCap
import HipBridge.Unixlib.AllocMultiset
import HipBridge.Unixlib.CallConfig
import HipBridge.Unixlib.CallConfigLock
import HipBridge.Unixlib.DirectHip
import HipBridge.Unixlib.DirectRefinement
import HipBridge.Unixlib.Exports
import HipBridge.Unixlib.LibraryPath
import HipBridge.Unixlib.Native
import HipBridge.Unixlib.NoFabrication
import HipBridge.Unixlib.PeShim
import HipBridge.Unixlib.Registration
import HipBridge.Unixlib.Registry
import HipBridge.Unixlib.RegistryLists
import HipBridge.Unixlib.RegistryThreads
import HipBridge.Unixlib.SharedHandle
import HipBridge.Unixlib.StickyError
import HipBridge.Unixlib.SymbolCopies
import HipBridge.Unixlib.VramCap
import HipBridge.Unixlib.VramConcurrency
