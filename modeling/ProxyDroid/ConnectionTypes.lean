import ProxyDroid.CallSemantics
import ProxyDroid.HandlerPipeline

/-!
# Data of one proxied connection

Messages, handlers with their fields, the two channels of a connection and
the statements their handlers execute. Codecs that live in the network
library are parameters of a configuration: decoders are functions of the
reads they have seen, so that every decoder with internal state is covered.
The log records observations for specifications; no handler reads it.
-/

namespace ProxyDroid.ConnectionTypes

open CallSemantics HandlerPipeline

/-- Bytes of a buffer. -/
abbrev Bytes := List UInt8

/-- The two channels of a proxied connection. -/
inductive Side where
  | client
  | remote
  deriving DecidableEq

/-- The channel a relay handler writes to. -/
def Side.other : Side → Side
  | .client => .remote
  | .remote => .client

/-- `Socks5CommandType`. -/
inductive CommandType where
  | connect
  | bind
  | udpAssociate
  | unknown (byte : UInt8)
  deriving DecidableEq

/-- `Socks5CommandRequest`. -/
structure Socks5CommandRequest where
  /-- Requested command. -/
  type : CommandType
  /-- Address type byte. -/
  dstAddrType : UInt8
  /-- Destination host. -/
  dstAddr : String
  /-- Destination port. -/
  dstPort : ℕ
  deriving DecidableEq

/-- `DefaultSocks5InitialResponse`, with whether it was decoded. -/
structure InitialResponse where
  /-- `decoderResult().isSuccess`. -/
  decoded : Bool
  /-- Selected method byte. -/
  authMethod : UInt8
  deriving DecidableEq

/-- `Socks5PasswordAuthResponse`. -/
structure PasswordAuthResponse where
  /-- `decoderResult().isSuccess`. -/
  decoded : Bool
  /-- Status byte. -/
  status : UInt8
  deriving DecidableEq

/-- `DefaultSocks5CommandResponse`. -/
structure CommandResponse where
  /-- `decoderResult().isSuccess`. -/
  decoded : Bool
  /-- Status byte. -/
  status : UInt8
  /-- Address type of the bound address. -/
  bndAddrType : UInt8
  /-- Bound host, absent in the short form. -/
  bndAddr : Option String
  /-- Bound port. -/
  bndPort : ℕ
  deriving DecidableEq

/-- `Socks5AuthMethod.NO_AUTH`. -/
def noAuth : UInt8 := 0x00

/-- `Socks5AuthMethod.PASSWORD`. -/
def passwordAuth : UInt8 := 0x02

/-- `Socks5AuthMethod.UNACCEPTED`. -/
def unaccepted : UInt8 := 0xff

/-- `Socks5PasswordAuthStatus.SUCCESS` and `Socks5CommandStatus.SUCCESS`. -/
def statusSuccess : UInt8 := 0x00

/-- `Socks5CommandStatus.FAILURE`. -/
def statusFailure : UInt8 := 0x01

/-- `SocksMessage`, in both directions of both channels. -/
inductive SocksMessage where
  | socks4CommandRequest (connect : Bool)
  | initialRequest (authMethods : List UInt8)
  | passwordAuthRequest (userName passwd : String)
  | commandRequest (request : Socks5CommandRequest)
  | initialResponse (response : InitialResponse)
  | passwordAuthResponse (response : PasswordAuthResponse)
  | commandResponse (response : CommandResponse)
  deriving DecidableEq

/-- `String.length`, which counts a character outside the basic plane twice. -/
def javaLength (text : String) : ℕ :=
  text.toList.length+text.toList.countP (fun c => 65536≤c.toNat)

/-- The constructor of `DefaultSocks5PasswordAuthRequest` returns; it throws when one of its texts
has more than 255 characters. -/
def passwordAuthRequestFits (userName passwd : String) : Bool :=
  javaLength userName≤255 && javaLength passwd≤255

/-- Header fields in order. -/
abbrev HttpHeaders := List (String×String)

/-- First value under a name, in any letter case. -/
def HttpHeaders.get (headers : HttpHeaders) (name : String) : Option String :=
  (headers.find? (fun field => field.1.toLower=name.toLower)).map Prod.snd

/-- All fields but those under a name, in any letter case. -/
def HttpHeaders.remove (headers : HttpHeaders) (name : String) : HttpHeaders :=
  headers.filter (fun field => field.1.toLower≠name.toLower)

/-- One more field at the end. -/
def HttpHeaders.add (headers : HttpHeaders) (name value : String) : HttpHeaders :=
  headers++[(name,value)]

/-- `HttpRequest` without its body. -/
structure HttpRequest where
  /-- `decoderResult().isSuccess`. -/
  decoded : Bool
  /-- Method, target and version. -/
  initialLine : String
  /-- Header fields. -/
  headers : HttpHeaders
  deriving DecidableEq

/-- `HttpResponse` without its body. -/
structure HttpResponse where
  /-- `decoderResult().isSuccess`. -/
  decoded : Bool
  /-- Version, status and reason. -/
  initialLine : String
  /-- Header fields. -/
  headers : HttpHeaders
  deriving DecidableEq

/-- `HttpObject` as the decoders emit it. -/
inductive HttpObject where
  | request (request : HttpRequest)
  | response (response : HttpResponse)
  | content (data : Bytes) (last : Bool)
  deriving DecidableEq

/-- `ByteBuf`: the readable bytes and the capacity that holds them. -/
structure ByteBuf where
  /-- Readable bytes. -/
  data : Bytes
  /-- `capacity()`. -/
  capacity : ℕ
  /-- Readable bytes lie inside the capacity. -/
  fits : data.length≤capacity
  deriving DecidableEq

/-- `FullHttpRequest`. -/
structure FullHttpRequest where
  /-- Method, target and version. -/
  initialLine : String
  /-- Header fields. -/
  headers : HttpHeaders
  /-- Body. -/
  content : ByteBuf
  deriving DecidableEq

/-- `FullHttpResponse`. -/
structure FullHttpResponse where
  /-- Version, status and reason. -/
  initialLine : String
  /-- Header fields. -/
  headers : HttpHeaders
  /-- Body. -/
  content : ByteBuf
  deriving DecidableEq

/-- What travels through a pipeline. A SOCKS message that an encoder has
turned into bytes is kept as `encoded`. -/
inductive Msg where
  | bytes (data : Bytes)
  | socks (message : SocksMessage)
  | encoded (message : SocksMessage)
  | http (object : HttpObject)
  | fullRequest (request : FullHttpRequest)
  | fullResponse (response : FullHttpResponse)
  deriving DecidableEq

/-- `HttpInterceptor`. -/
structure HttpInterceptor where
  /-- Called on every intercepted request. -/
  onRequest : FullHttpRequest → FullHttpRequest
  /-- Called on every intercepted response. -/
  onResponse : FullHttpResponse → FullHttpResponse

/-- The subclasses of `Proxy` with their constructor arguments. -/
inductive Proxy where
  | direct
  | reject
  | socks5 (address : String) (port : ℕ) (userName passwd : String)
  | http (address : String) (port : ℕ)
  deriving DecidableEq

/-- `Rules`. -/
structure Rules where
  /-- Proxies by name. -/
  proxylist : String → Option Proxy
  /-- Name of the proxy for a host. -/
  proxyMatcher : String → Option String
  /-- Interceptor by host; `none` when interception is off. -/
  mitmConfig : Option (String → Option HttpInterceptor)

/-- `ProxyRules`: the two built-in proxies override equal names. -/
def Rules.proxyRules (rules : Rules) : Rules where
  proxylist := fun name =>
    if name="REJECT" then some .reject
    else if name="DIRECT" then some .direct
    else rules.proxylist name
  proxyMatcher := rules.proxyMatcher
  mitmConfig := rules.mitmConfig

/-- State of a decoder that emits one message and then lets bytes pass. -/
inductive DecoderState where
  | init (cumulation : Bytes)
  | success
  | failure
  deriving DecidableEq

/-- Result of decoding the bytes received so far. -/
inductive Parse (α : Type) where
  | incomplete
  | message (value : α) (rest : Bytes)
  | malformed

/-- State of `ProtocolSelectHandler` with its undecoded bytes. -/
inductive SelectState where
  | init (cumulation : Bytes)
  | success
  deriving DecidableEq

/-- Inputs of a TLS engine, in the order it received them. -/
inductive TlsInput where
  | start
  | fromNetwork (data : Bytes)
  | fromPipeline (data : Bytes)
  deriving DecidableEq

/-- Reaction of a TLS engine to one input. -/
structure TlsOutput where
  /-- Records for the peer. -/
  network : Bytes
  /-- Decrypted chunks for the pipeline. -/
  plain : List Bytes
  /-- Whether the session failed. -/
  failed : Bool

/-- Handler names used in the source. -/
inductive Label where
  | httpMessageHandler
  | mitmHandler
  | correctCRLFHander
  | downStreamTlshandler
  | upstreamTlsHandler
  deriving DecidableEq

/-- Handlers of both pipelines with their fields. -/
inductive Handler where
  | loggingHandler
  | socksPortUnificationServerHandler
  | socks4ServerDecoder (state : DecoderState)
  | socks4ServerEncoder
  | socks5InitialRequestDecoder (state : DecoderState)
  | socks5CommandRequestDecoder (state : DecoderState)
  | socks5ServerEncoder
  | socksServerHandler
  | upstreamMatchHandler
  | upstreamHandler (proxy : Proxy) (request : Socks5CommandRequest)
  | connectHandler (proxy : Proxy) (request : Socks5CommandRequest)
  | socksClientInitializer (userName passwd : String) (request : Socks5CommandRequest)
  | socks5ClientEncoder
  | socks5InitialResponseDecoder (state : DecoderState)
  | socks5InitialResponseHandler (userName passwd : String) (request : Socks5CommandRequest)
  | socks5PasswordAuthResponseDecoder (state : DecoderState)
  | socks5PasswordAuthResponseHandler (request : Socks5CommandRequest)
  | socks5CommandResponseDecoder (state : DecoderState)
  | socksCommandResponseHandler
  | protocolSelectHandler (request : Socks5CommandRequest) (state : SelectState)
  | sniHandler (request : Socks5CommandRequest) (cumulation : Bytes)
  | sslHandler (history : List TlsInput)
  | httpInterceptorHandler (request : Socks5CommandRequest)
  | httpRequestDecoder (history : List Bytes)
  | httpCheckHandler (request : Socks5CommandRequest)
  | httpResponseEncoder (history : List Msg)
  | httpRequestEncoder (history : List Msg)
  | httpResponseDecoder (history : List Bytes)
  | httpObjectAggregator (history : List HttpObject)
  | httpMessageHandler (httpInterceptor : HttpInterceptor)
  | mitmHandler (httpInterceptor : HttpInterceptor)
  | correctCRLFHander
  | relayHandler

/-- Exceptions of the modelled code. -/
inductive Throwable where
  | illegalState
  | illegalArgument
  | noSuchElement
  | ioException
  | tlsFailure
  deriving DecidableEq

/-- Inbound pipeline events. -/
inductive Inbound where
  | registered
  | active
  | read (message : Msg)
  | readComplete
  | inactive
  | exceptionCaught (cause : Throwable)

/-- Future listeners, with what they captured. -/
inductive Listener where
  | none
  | close
  | connected (id : ℕ)
  | greetingSent (id : ℕ) (userName passwd : String) (request : Socks5CommandRequest)
  | requestSent (id : ℕ)
  | responseWritten
  deriving DecidableEq

/-- Statements of handler bodies, listeners and the library calls they make.
`pipelineFire` starts at the head, `ctxFire` after the context `id`; a write
starts at the tail or, with a source context, before it; `addInitializer` adds a
`MitmInitializer`, which runs its `initChannel` and leaves again. -/
inductive Stmt where
  | addLast (s : Side) (label : Option Label) (h : Handler)
  | addFirst (s : Side) (label : Option Label) (h : Handler)
  | addAfterCtx (s : Side) (id : ℕ) (h : Handler)
  | addAfter (s : Side) (base label : Label) (h : Handler)
  | addBefore (s : Side) (base label : Label) (h : Handler)
  | remove (s : Side) (id : ℕ)
  | replace (s : Side) (id : ℕ) (label : Label) (h : Handler)
  | addInitializer (httpInterceptor : HttpInterceptor)
  | assign (s : Side) (id : ℕ) (h : Handler)
  | pipelineFire (s : Side) (event : Inbound)
  | ctxFire (s : Side) (id : ℕ) (event : Inbound)
  | invoke (s : Side) (id : ℕ) (event : Inbound)
  | write (s : Side) (source : Option ℕ) (message : Msg) (listener : Listener) (flush : Bool)
  | flush (s : Side)
  | drain (s : Side)
  | notify (s : Side) (listener : Listener) (ok : Bool)
  | closeOnFlush (s : Side)
  | close (s : Side)
  | destroy (s : Side)
  | newPromise (request : Socks5CommandRequest) (id : ℕ)
  | setSuccess
  | setFailure
  | connect (id : ℕ) (proxy : Proxy) (request : Socks5CommandRequest) (host : String) (port : ℕ)
  | raise (cause : Throwable)
  | noteSelected (isTls : Bool)
  | noteReply (message : SocksMessage)
  | noteRequest (request : FullHttpRequest)
  | noteOnRequest (request : FullHttpRequest)
  | noteOnResponse (response : FullHttpResponse)
  | noteEncoded (s : Side) (message : Msg)

/-- Life of a channel. -/
inductive Life where
  | idle
  | connecting
  | active
  | closed
  deriving DecidableEq

/-- One channel. -/
structure Channel where
  /-- Its handlers. -/
  pipeline : Pipeline Label Handler
  /-- Where it is in its life; only an active channel reads and writes. -/
  life : Life
  /-- Closed while active, `channelInactive` not fired yet. -/
  inactivePending : Bool
  /-- Accepted writes not flushed yet, oldest first, with their listeners. -/
  queue : List (Msg×Listener)
  /-- Flushed writes, oldest first. -/
  sent : List Msg

/-- State of the command response promise. -/
inductive PromiseState where
  | pending
  | succeeded
  | failed
  deriving DecidableEq

/-- The promise of one command request, with what its listeners captured. -/
structure CommandPromise where
  /-- The request it answers. -/
  request : Socks5CommandRequest
  /-- Context the success reply is written from. -/
  clientCtx : ℕ
  /-- Whether and how it is completed. -/
  state : PromiseState

/-- Observations for specifications. -/
inductive Obs where
  | selected (isTls : Bool)
  | connecting (host : String) (port : ℕ)
  | connected
  | reply (message : SocksMessage)
  | requestRead (request : FullHttpRequest)
  | onRequest (request : FullHttpRequest)
  | onResponse (response : FullHttpResponse)
  | encoded (s : Side) (message : Msg)
  | threw (s : Side) (cause : Throwable)
  deriving DecidableEq

/-- State of one proxied connection. -/
structure World where
  /-- Channel accepted from the client. -/
  client : Channel
  /-- Channel opened for the request. -/
  remote : Channel
  /-- Promise of the command request, once there is one. -/
  promise : Option CommandPromise
  /-- Context of the upstream handler whose connect is in progress. -/
  connecting : Option ℕ
  /-- Number of flushes attempted so far. -/
  flushes : ℕ
  /-- What happened, oldest first. -/
  log : List Obs

/-- Rules in force and the library code around the handlers. -/
structure Config where
  /-- `ProxyRules` of the running server. -/
  rules : Rules
  /-- SOCKS4 request decoder. -/
  parseSocks4 : Bytes → Parse Bool
  /-- `Socks5InitialRequestDecoder`. -/
  parseInitialRequest : Bytes → Parse (List UInt8)
  /-- `Socks5CommandRequestDecoder`. -/
  parseCommandRequest : Bytes → Parse Socks5CommandRequest
  /-- `Socks5InitialResponseDecoder`: the selected method. -/
  parseInitialResponse : Bytes → Parse UInt8
  /-- `Socks5PasswordAuthResponseDecoder`: the status. -/
  parsePasswordAuthResponse : Bytes → Parse UInt8
  /-- `Socks5CommandResponseDecoder`. -/
  parseCommandResponse : Bytes → Parse CommandResponse
  /-- Host that `AbstractSniHandler` looks up for the buffered bytes: `none`
  while the client hello is incomplete, `some none` without a server name. -/
  clientHello : Bytes → Option (Option String)
  /-- Only the first record is looked at, so more bytes change nothing. -/
  clientHello_append : ∀ buffered more host, clientHello buffered=some host →
    clientHello (buffered++more)=some host
  /-- TLS engine of a side after a history of inputs. -/
  tls : Side → List TlsInput → TlsInput → TlsOutput
  /-- HTTP decoder of a side after a history of reads. -/
  httpDecode : Side → List Bytes → Bytes → List HttpObject
  /-- What the HTTP decoder of a side emits when its channel becomes inactive. -/
  httpDecodeLast : Side → List Bytes → List HttpObject
  /-- `HttpObjectAggregator` of a side after a history of objects. -/
  aggregate : Side → List HttpObject → HttpObject → List Msg
  /-- HTTP encoder after a history of messages; `none` when it refuses. -/
  httpEncode : List Msg → Msg → Option Bytes
  /-- Whether the socket takes all queued data at the n-th flush. -/
  flushNow : ℕ → Bool

/-- Channel of a side. -/
def World.chan (w : World) : Side → Channel
  | .client => w.client
  | .remote => w.remote

/-- Change the channel of a side. -/
def World.upd (w : World) (s : Side) (f : Channel → Channel) : World :=
  match s with
  | .client => { w with client := f w.client }
  | .remote => { w with remote := f w.remote }

/-- Change the pipeline of a side. -/
def World.updPipe (w : World) (s : Side)
    (f : Pipeline Label Handler → Pipeline Label Handler) : World :=
  w.upd s (fun c => { c with pipeline := f c.pipeline })

/-- Put a write at the end of a side's queue. -/
def World.enqueue (w : World) (s : Side) (message : Msg) (listener : Listener) : World :=
  w.upd s (fun c => { c with queue := c.queue++[(message,listener)] })

/-- The socket of a side takes all queued writes. -/
def World.takeQueue (w : World) (s : Side) : World :=
  w.upd s (fun c => { c with sent := c.sent++c.queue.map Prod.fst, queue := [] })

/-- Count one more attempt to flush. -/
def World.attempt (w : World) : World := { w with flushes := w.flushes+1 }

/-- Record an observation. -/
def World.note (w : World) (obs : Obs) : World := { w with log := w.log++[obs] }

/-- Pipeline of a side. -/
def World.pipe (w : World) (s : Side) : Pipeline Label Handler := (w.chan s).pipeline

/-- Handlers of a side from head to tail. -/
def World.handlers (w : World) (s : Side) : List Handler := (w.pipe s).handlers

/-- Whether the channel of a side is active. -/
def World.isActive (w : World) (s : Side) : Bool := (w.chan s).life=.active

/-- Everything written to a side, flushed or queued, in order. -/
def World.written (w : World) (s : Side) : List Msg :=
  (w.chan s).sent++(w.chan s).queue.map Prod.fst

/-- The raw bytes among written messages. -/
def rawBytes (messages : List Msg) : Bytes :=
  messages.flatMap (fun | .bytes data => data | _ => [])

@[simp] theorem rawBytes_nil : rawBytes []=[] := rfl

@[simp] theorem rawBytes_bytes (data : Bytes) : rawBytes [.bytes data]=data := by simp [rawBytes]

@[simp] theorem rawBytes_append (xs ys : List Msg) :
    rawBytes (xs++ys)=rawBytes xs++rawBytes ys := by simp [rawBytes]

/-- Raw bytes written to a side so far. -/
def World.raw (w : World) (s : Side) : Bytes := rawBytes (w.written s)

end ProxyDroid.ConnectionTypes
