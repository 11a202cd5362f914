import Yvent.EventLoop.TaskOrder
import Yvent.EventLoop.Wakeup
import Yvent.Timer.Ownership
import Yvent.Timer.Arming
import Yvent.Buffer.Readable
import Yvent.Http.Context
import Yvent.Http.Resume
import Yvent.Http.Grammar
import Yvent.Http.Server
import Yvent.Http.Pipelining
import Yvent.Connection.Model
import Yvent.Connection.Step
import Yvent.Connection.Lifecycle
import Yvent.Connection.Output
import Yvent.Connection.Stream
import Yvent.Connection.Shutdown
import Yvent.Connection.SendFile
import Yvent.Endpoint.Model
import Yvent.Endpoint.Step
import Yvent.Endpoint.Lifetime
import Yvent.Http.Incremental
import Yvent.Http.RoundTrip
import Yvent.Http.Acceptance
import Yvent.Poll.Registration
import Yvent.Timer.Cancellation
import Yvent.Buffer.Model
import Yvent.Buffer.Refinement
import Yvent.Timer.Threads
import Yvent.Timer.ThreadStep
import Yvent.Timer.Handles
import Yvent.Timer.Insertion
import Yvent.Endpoint.MapInvariant
import Yvent.Endpoint.ConnectionMap
import Yvent.Connection.Draining
import Yvent.Http.Response
import Yvent.Http.Session
import Yvent.Http.FinalResponse
import Yvent.EventLoop.Quit
import Yvent.EventLoop.ThreadPool
import Yvent.EventLoop.StartUp
import Yvent.Http.Rejection
import Yvent.Http.Turns
import Yvent.Connection.Cause
import Yvent.Http.FailStop
import Yvent.Http.Segments
import Yvent.Http.ReadBack
import Yvent.Timer.Expiry
import Yvent.Connection.Completion
import Yvent.Connection.Descriptors
import Yvent.Misc.Components
import Yvent.WebServer.Model
import Yvent.WebServer.Confinement
import Yvent.Codec.Model
import Yvent.Misc.Decoder
import Yvent.Codec.Decoding
import Yvent.Codec.Refinement
import Yvent.Codec.RoundTrip
import Yvent.Timer.Limits
import Yvent.Timer.Periodic
import Yvent.Client.Connector
import Yvent.Connection.WriteComplete
import Yvent.Client.Send
import Yvent.Chat.Model
import Yvent.Misc.Framing
import Yvent.Chat.Relay
import Yvent.Chat.Refinement
import Yvent.Chat.Delivery
import Yvent.Endpoint.Threads
import Yvent.Codec.Connection
import Yvent.Buffer.Growth
import Yvent.Codec.Memory
import Yvent.Http.ResponseStream
import Yvent.Http.Dispatch
import Yvent.Http.Exchange
import Yvent.WebServer.Pages
import Yvent.Http.Pointers
import Yvent.Http.PointerRefinement
