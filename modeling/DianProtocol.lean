import DianProtocol.Lib.Program
import DianProtocol.Lib.Interleaving
import DianProtocol.Cpp.Bytes
import DianProtocol.Cpp.Message
import DianProtocol.Cpp.Socket
import DianProtocol.Cpp.Parse
import DianProtocol.Cpp.Handle
import DianProtocol.Cpp.Worker
import DianProtocol.Cpp.HandleSpec
import DianProtocol.Cpp.SessionMap
import DianProtocol.Cpp.Lock
import DianProtocol.Cpp.Start
import DianProtocol.Cpp.AuthGate
import DianProtocol.Cpp.Framing
import DianProtocol.Lib.Regex
import DianProtocol.Py.Reader
import DianProtocol.Py.Message
import DianProtocol.Py.Heads
import DianProtocol.Py.Unparse
import DianProtocol.Py.Responses
import DianProtocol.Py.Session
import DianProtocol.Py.Server
import DianProtocol.Py.Outline
import DianProtocol.Py.DispatchSpec
import DianProtocol.Py.Ownership
import DianProtocol.Py.FileGate
import DianProtocol.Py.Delivery
import DianProtocol.Cpp.Heads
import DianProtocol.Interop.Requests
import DianProtocol.Cpp.File
import DianProtocol.Cpp.Transmit
import DianProtocol.Interop.Responses
import DianProtocol.Cpp.PlayCallback
import DianProtocol.Py.PartialContent
import DianProtocol.Lib.Ghost
import DianProtocol.Cpp.Progress
import DianProtocol.Cpp.Pointers
import DianProtocol.Cpp.Ids
import DianProtocol.Cpp.Teardown
import DianProtocol.Cpp.Lifecycle
import DianProtocol.Cpp.Answers
import DianProtocol.Py.RoundTrip
import DianProtocol.Cpp.CutOff
import DianProtocol.Cpp.RoundTrip
import DianProtocol.Py.Iterations
import DianProtocol.Cpp.Handles
import DianProtocol.Py.Lifetimes
import DianProtocol.Cpp.Pipeline
import DianProtocol.Lib.Refinement
import DianProtocol.Py.Clients
import DianProtocol.Py.Pace
import DianProtocol.Py.Survival
import DianProtocol.Cpp.Buffer
import DianProtocol.Cpp.RecvUntil
import DianProtocol.Cpp.Numbers
import DianProtocol.Cpp.StaticParse
import DianProtocol.Cpp.Uri
import DianProtocol.Cpp.RangeHeader
import DianProtocol.Cpp.ReadUntil
import DianProtocol.Cpp.Calls
import DianProtocol.Cpp.FileCalls
import DianProtocol.Cpp.ReadLine
import DianProtocol.Cpp.SocketCalls
import DianProtocol.Py.Account
import DianProtocol.Py.History
import DianProtocol.Lib.Paths
import DianProtocol.Py.Confinement
import DianProtocol.Cpp.VersionEcho
import DianProtocol.Cpp.HeapBuffer
import DianProtocol.Cpp.MatchWindow
import DianProtocol.Cpp.ScanBounds
import DianProtocol.Py.Local
import DianProtocol.Cpp.StreamMemory
import DianProtocol.Cpp.BufferObjects
import DianProtocol.Lib.Channels
import DianProtocol.Py.Client
import DianProtocol.Py.Stream
import DianProtocol.Py.Host
import DianProtocol.Py.Replies
import DianProtocol.Py.Uuid
import DianProtocol.Py.Conversation
import DianProtocol.Py.Talk
import DianProtocol.Py.Queue
import DianProtocol.Cpp.Host
import DianProtocol.Cpp.Serve
import DianProtocol.Interop.Calls
import DianProtocol.Interop.Conversation
import DianProtocol.Interop.Sessions
