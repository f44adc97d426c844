import ProxyDroid.ConnectionTypes
import Mathlib.Algebra.Group.Int.Defs

/-!
# Handler bodies

Every method a handler overrides, as the statements it executes. Branches
are decided on the fields of the handler and on the state in which the
method is entered. Methods of library handlers follow their documented
behaviour, with the codec itself taken from the configuration.
-/

namespace ProxyDroid.ConnectionHandlers

open HandlerPipeline ConnectionTypes

/-- `ctx.fireChannelRead` of a message, from the context `id`. -/
abbrev fireRead (s : Side) (id : ℕ) (message : Msg) : Stmt := .ctxFire s id (.read message)

/-- `ctx.fireChannelRead` of what is left of a buffer, if anything is. -/
def fireRest (s : Side) (id : ℕ) (rest : Bytes) : List Stmt :=
  if rest=[] then [] else [fireRead s id (.bytes rest)]

/-- One read of a decoder that emits one message and then lets bytes pass:
`wrap` is the decoder in a state, `emit` the message handed on. -/
def decodeOnce {α : Type} (s : Side) (id : ℕ) (wrap : DecoderState → Handler)
    (emit : Option α → List Stmt) (parse : Bytes → Parse α) (state : DecoderState)
    (data : Bytes) : List Stmt :=
  match state with
  | .success => fireRest s id data
  | .failure => []
  | .init cumulation =>
    match parse (cumulation++data) with
    | .incomplete => [.assign s id (wrap (.init (cumulation++data)))]
    | .message value rest => .assign s id (wrap .success)::emit (some value)++fireRest s id rest
    | .malformed => .assign s id (wrap .failure)::emit none

namespace SocksPortUnificationServerHandler

/-- The first byte selects the decoder; the handler then leaves and its
bytes go to the decoder. -/
def channelRead (id : ℕ) (data : Bytes) : List Stmt :=
  match data with
  | [] => []
  | version::_ =>
    if version=0x04 then
      [.addAfterCtx .client id .socks4ServerEncoder,
        .addAfterCtx .client id (.socks4ServerDecoder (.init [])),
        .remove .client id,fireRead .client id (.bytes data)]
    else if version=0x05 then
      [.addAfterCtx .client id .socks5ServerEncoder,
        .addAfterCtx .client id (.socks5InitialRequestDecoder (.init [])),
        .remove .client id,fireRead .client id (.bytes data)]
    else [.close .client]

end SocksPortUnificationServerHandler

namespace SocksServerHandler

/-- Hand the request to the shared `UpstreamMatchHandler` and leave. -/
def handOver (id : ℕ) (message : SocksMessage) : List Stmt :=
  [.addLast .client none .upstreamMatchHandler,.remove .client id,
    fireRead .client id (.socks message)]

/-- `SocksServerHandler.channelRead0`. -/
def channelRead0 (id : ℕ) (message : SocksMessage) : List Stmt :=
  match message with
  | .socks4CommandRequest connect =>
    if connect then handOver id message else [.close .client]
  | .initialRequest _ =>
    [.addFirst .client none (.socks5CommandRequestDecoder (.init [])),
      .write .client (some id) (.socks (.initialResponse ⟨true,noAuth⟩)) .none false]
  | .passwordAuthRequest _ _ =>
    [.addFirst .client none (.socks5CommandRequestDecoder (.init [])),
      .write .client (some id) (.socks (.passwordAuthResponse ⟨true,statusSuccess⟩)) .none false]
  | .commandRequest request =>
    if request.type=.connect then handOver id message else [.close .client]
  | .initialResponse _ | .passwordAuthResponse _ | .commandResponse _ => [.close .client]

/-- `SocksServerHandler.channelReadComplete`. -/
def channelReadComplete : List Stmt := [.flush .client]

/-- `SocksServerHandler.exceptionCaught`. -/
def exceptionCaught : List Stmt := [.closeOnFlush .client]

end SocksServerHandler

namespace UpstreamMatchHandler

/-- `UpstreamMatchHandler.matchUpstream`: the handler of the matched proxy,
the direct one when no proxy is named or known. -/
def matchUpstream (rules : Rules) (message : Socks5CommandRequest) : Proxy :=
  ((rules.proxyMatcher message.dstAddr).bind rules.proxylist).getD .direct

/-- `UpstreamMatchHandler.channelRead0`. -/
def channelRead0 (rules : Rules) (id : ℕ) (message : SocksMessage) : List Stmt :=
  match message with
  | .commandRequest request =>
    [.newPromise request id,.remove .client id,
      .addLast .client none (.upstreamHandler (matchUpstream rules request) request),
      .pipelineFire .client .registered,.pipelineFire .client .active]
  | _ => [.close .client]

/-- First promise listener: the command response. -/
def replyListener (promise : CommandPromise) (ok : Bool) : List Stmt :=
  if ok then
    [.write .client (some promise.clientCtx) (.socks (.commandResponse
      ⟨true,statusSuccess,promise.request.dstAddrType,some promise.request.dstAddr,
        promise.request.dstPort⟩)) .none true]
  else
    [.write .client none (.socks (.commandResponse
      ⟨true,statusFailure,promise.request.dstAddrType,none,0⟩)) .none true,
      .closeOnFlush .client]

/-- Second promise listener: the follow-up on the client channel. -/
def selectListener (promise : CommandPromise) (ok : Bool) : List Stmt :=
  if ok then [.addLast .client none (.protocolSelectHandler promise.request (.init []))] else []

/-- `UpstreamMatchHandler.exceptionCaught`. -/
def exceptionCaught : List Stmt := [.closeOnFlush .client]

end UpstreamMatchHandler

namespace UpstreamHandler

/-- `DirectUpstreamHandler.channelActive`. -/
def directChannelActive (id : ℕ) (request : Socks5CommandRequest) : List Stmt :=
  [.connect id .direct request request.dstAddr request.dstPort]

/-- `HttpUpstreamHandler.channelActive`. -/
def httpChannelActive (id : ℕ) (request : Socks5CommandRequest) (address : String) (port : ℕ) :
    List Stmt :=
  [.connect id (.http address port) request address port]

/-- `Socks5UpstreamHandler.channelActive`. -/
def socks5ChannelActive (id : ℕ) (request : Socks5CommandRequest) (address : String) (port : ℕ)
    (userName passwd : String) : List Stmt :=
  [.connect id (.socks5 address port userName passwd) request address port]

/-- `RejectUpstreamHandler.channelActive`. -/
def rejectChannelActive : List Stmt := [.setFailure]

/-- `channelActive` of the handler a proxy creates; none passes it on. -/
def channelActive (id : ℕ) (proxy : Proxy) (request : Socks5CommandRequest) : List Stmt :=
  match proxy with
  | .direct => directChannelActive id request
  | .http address port => httpChannelActive id request address port
  | .socks5 address port userName passwd =>
    socks5ChannelActive id request address port userName passwd
  | .reject => rejectChannelActive

end UpstreamHandler

namespace ConnectHandler

/-- `ConnectHandler.channelActive` of the direct and of the HTTP upstream. -/
def plainChannelActive (id : ℕ) : List Stmt := [.setSuccess,.remove .remote id]

/-- `Socks5UpstreamHandler.ConnectHandler.channelActive`. -/
def socks5ChannelActive (id : ℕ) (userName passwd : String) (request : Socks5CommandRequest) :
    List Stmt :=
  [.addLast .remote none (.socksClientInitializer userName passwd request),
    .remove .remote id,.pipelineFire .remote .active]

/-- `channelActive` of the connect handler of a proxy's upstream. -/
def channelActive (id : ℕ) (proxy : Proxy) (request : Socks5CommandRequest) : List Stmt :=
  match proxy with
  | .socks5 _ _ userName passwd => socks5ChannelActive id userName passwd request
  | .direct | .http _ _ | .reject => plainChannelActive id

/-- `ConnectHandler.exceptionCaught`, the same in all upstreams. -/
def exceptionCaught : List Stmt := [.setFailure]

end ConnectHandler

namespace SocksClientInitializer

/-- `SocksClientInitializer.channelActive`. -/
def channelActive (id : ℕ) (userName passwd : String) (request : Socks5CommandRequest) :
    List Stmt :=
  [.addLast .remote none .socks5ClientEncoder,
    .write .remote none (.socks (.initialRequest [noAuth,passwordAuth]))
      (.greetingSent id userName passwd request) true]

/-- Listener of the greeting, which does not look at the outcome. -/
def greetingSent (id : ℕ) (userName passwd : String) (request : Socks5CommandRequest) :
    List Stmt :=
  [.remove .remote id,.addLast .remote none (.socks5InitialResponseDecoder (.init [])),
    .addLast .remote none (.socks5InitialResponseHandler userName passwd request),
    .pipelineFire .remote .active]

/-- Listener of the request, written by the handler `id`. -/
def requestSent (id : ℕ) (ok : Bool) : List Stmt :=
  if ok then
    [.remove .remote id,.addLast .remote none (.socks5CommandResponseDecoder (.init [])),
      .addLast .remote none .socksCommandResponseHandler]
  else []

/-- `Socks5InitialResponseHandler.channelRead0`; a method that was not
offered has no branch. The password message is made when the handlers have
already been exchanged. -/
def initialResponseRead0 (id : ℕ) (userName passwd : String) (request : Socks5CommandRequest)
    (response : InitialResponse) : List Stmt :=
  if response.decoded then
    if response.authMethod=noAuth then
      [.write .remote (some id) (.socks (.commandRequest request)) (.requestSent id) true]
    else if response.authMethod=passwordAuth then
      [.remove .remote id,.addLast .remote none (.socks5PasswordAuthResponseDecoder (.init [])),
        .addLast .remote none (.socks5PasswordAuthResponseHandler request),
        if passwordAuthRequestFits userName passwd then
          .write .remote (some id) (.socks (.passwordAuthRequest userName passwd)) .none true
        else .raise .illegalArgument]
    else []
  else [.setFailure]

/-- `Socks5PasswordAuthResponseHandler.channelRead0`. -/
def passwordAuthResponseRead0 (id : ℕ) (request : Socks5CommandRequest)
    (response : PasswordAuthResponse) : List Stmt :=
  if response.decoded && response.status=statusSuccess then
    [.write .remote (some id) (.socks (.commandRequest request)) (.requestSent id) true]
  else [.setFailure]

/-- `SocksCommandResponseHandler.channelRead0`; the status is not read. -/
def commandResponseRead0 (id : ℕ) (response : CommandResponse) : List Stmt :=
  if response.decoded then [.setSuccess,.remove .remote id] else []

/-- `SocksClientInitializer.exceptionCaught`. -/
def exceptionCaught (id : ℕ) (cause : Throwable) : List Stmt :=
  [.ctxFire .remote id (.exceptionCaught cause),.setFailure]

end SocksClientInitializer

namespace DirectAction

/-- `DirectAction.doFollowUp`. -/
def doFollowUp : List Stmt :=
  [.addLast .client none .relayHandler,.addLast .remote none .relayHandler]

end DirectAction

namespace ProtocolSelectHandler

/-- `SSL_RT_HANDSHAKE`. -/
def sslRtHandshake : ℤ := 0x16

/-- `SUPPORTED_TLS_VERSIONS`. -/
def supportedTlsVersions : List ℤ := [0x0300,0x0301,0x0302,0x0303]

/-- `(versionHigh.toInt() shl 8) + versionLow.toInt()` on signed bytes. -/
def version (versionHigh versionLow : UInt8) : ℤ :=
  versionHigh.toInt8.toInt*2^8+versionLow.toInt8.toInt

/-- Whether the first three bytes open a TLS handshake record. -/
def isTls (type versionHigh versionLow : UInt8) : Bool :=
  type.toInt8.toInt=sslRtHandshake && supportedTlsVersions.contains (version versionHigh versionLow)

/-- The handler or follow-up selected for a connection. -/
def select (rules : Rules) (request : Socks5CommandRequest) (tls : Bool) : List Stmt :=
  if rules.mitmConfig.isSome then
    if tls then [.addLast .client none (.sniHandler request [])]
    else [.addLast .client none (.httpInterceptorHandler request)]
  else DirectAction.doFollowUp

/-- `ProtocolSelectHandler.decode` for one read. A `getByte` past the
received bytes replays the decoding at the next read. -/
def channelRead (rules : Rules) (id : ℕ) (request : Socks5CommandRequest) (state : SelectState)
    (data : Bytes) : List Stmt :=
  match state with
  | .init cumulation =>
    match cumulation++data with
    | type::versionHigh::versionLow::rest =>
      .noteSelected (isTls type versionHigh versionLow)::
        select rules request (isTls type versionHigh versionLow)++
        [.pipelineFire .client .active,
          .assign .client id (.protocolSelectHandler request .success),
          fireRead .client id (.bytes (type::versionHigh::versionLow::rest))]
    | short => [.assign .client id (.protocolSelectHandler request (.init short))]
  | .success => fireRest .client id data

end ProtocolSelectHandler

namespace SniHandler

/-- `SniHandler.onLookupComplete`. -/
def onLookupComplete (rules : Rules) (id : ℕ) (request : Socks5CommandRequest)
    (hostname : String) : List Stmt :=
  if hostname="" then []
  else match rules.mitmConfig.bind (fun matcher => matcher hostname) with
    | none =>
      DirectAction.doFollowUp++[.remove .client id,
        .pipelineFire .client .active,.pipelineFire .remote .active]
    | some _ =>
      [.replace .client id .downStreamTlshandler (.sslHandler []),
        .addFirst .remote (some .upstreamTlsHandler) (.sslHandler []),
        .addLast .client none (.httpInterceptorHandler request),
        .pipelineFire .client .active,.pipelineFire .remote .active]

/-- One read: buffer, look the host up once the client hello is complete,
and forward the buffer when the lookup has taken the handler out. The null
check generated for `lookup` throws when there is no server name. -/
def channelRead (cfg : Config) (id : ℕ) (request : Socks5CommandRequest) (cumulation data : Bytes) :
    List Stmt :=
  .assign .client id (.sniHandler request (cumulation++data))::
    match cfg.clientHello (cumulation++data) with
    | none => []
    | some none => [.raise .illegalArgument]
    | some (some hostname) =>
      onLookupComplete cfg.rules id request hostname++
        if hostname="" then [] else [fireRead .client id (.bytes (cumulation++data))]

/-- `SniHandler.exceptionCaught`. -/
def exceptionCaught (request : Socks5CommandRequest) : List Stmt :=
  [.addLast .client none (.httpInterceptorHandler request),
    .pipelineFire .client .active,.pipelineFire .remote .active]

end SniHandler

namespace SslHandler

/-- Feed one input to the TLS engine and pass its output on. -/
def step (cfg : Config) (s : Side) (id : ℕ) (history : List TlsInput) (input : TlsInput)
    (listener : Listener) (flush : Bool) : List Stmt :=
  let output := cfg.tls s history input
  [.assign s id (.sslHandler (history++[input])),
    .write s (some id) (.bytes output.network) listener flush]++
    output.plain.map (fun chunk => fireRead s id (.bytes chunk))++
    if output.failed then [.ctxFire s id (.exceptionCaught .tlsFailure),.close s] else []

end SslHandler

namespace HttpInterceptorHandler

/-- `HttpInterceptorHandler.channelActive`. -/
def channelActive (id : ℕ) (request : Socks5CommandRequest) : List Stmt :=
  [.addLast .client none (.httpRequestDecoder []),
    .addLast .client none (.httpCheckHandler request),.ctxFire .client id .active]

/-- `MitmInitializer.initChannel`. -/
def initChannel (httpInterceptor : HttpInterceptor) : List Stmt :=
  [.addLast .client none (.httpResponseEncoder []),
    .addLast .client none (.httpRequestDecoder []),
    .addLast .client none (.httpObjectAggregator []),
    .addLast .client (some .httpMessageHandler) (.httpMessageHandler httpInterceptor),
    .addLast .remote none .loggingHandler,
    .addLast .remote none (.httpResponseDecoder []),
    .addLast .remote none (.httpObjectAggregator []),
    .addLast .remote none (.httpRequestEncoder [])]++DirectAction.doFollowUp

/-- Host that `HttpCheckHandler` matches. -/
def hostOf (request : Socks5CommandRequest) (message : HttpRequest) : String :=
  (message.headers.get "host").getD request.dstAddr

/-- `HttpCheckHandler.channelRead0`. -/
def checkRead0 (rules : Rules) (id : ℕ) (request : Socks5CommandRequest)
    (message : HttpRequest) : List Stmt :=
  (if message.decoded then
    match rules.mitmConfig.bind (fun matcher => matcher (hostOf request message)) with
    | none => DirectAction.doFollowUp++[.addLast .remote none (.httpRequestEncoder [])]
    | some httpInterceptor => [.addInitializer httpInterceptor]
  else DirectAction.doFollowUp)++
    [.remove .client id,.pipelineFire .client (.read (.http (.request message)))]

/-- `HttpMessageHandler.channelRead`. -/
def messageRead (id : ℕ) (httpInterceptor : HttpInterceptor) (message : Msg) : List Stmt :=
  match message with
  | .fullRequest request =>
    [.noteRequest request,
      .addAfter .client .httpMessageHandler .mitmHandler (.mitmHandler httpInterceptor),
      .addBefore .client .mitmHandler .correctCRLFHander .correctCRLFHander,
      fireRead .client id message]
  | _ => [fireRead .client id message]

end HttpInterceptorHandler

namespace CorrectCRLFHander

/-- A buffer of two more bytes of capacity, filled with the readable bytes
and a line end. -/
def appendLine (content : ByteBuf) : ByteBuf where
  data := content.data++[0x0d,0x0a]
  capacity := content.capacity+2
  fits := by
    have h := content.fits
    simp only [List.length_append,List.length_cons,List.length_nil]
    omega

/-- The `Content-Length` header is replaced by the capacity of the body. -/
def correctLength (headers : HttpHeaders) (content : ByteBuf) : HttpHeaders :=
  (headers.remove "Content-Length").add "Content-Length" (toString content.capacity)

/-- The request that `channelRead` passes on. -/
def correctRequest (request : FullHttpRequest) : FullHttpRequest :=
  let content := appendLine request.content
  ⟨request.initialLine,correctLength request.headers content,content⟩

/-- The response that `write` passes on. -/
def correctResponse (response : FullHttpResponse) : FullHttpResponse :=
  let content := appendLine response.content
  ⟨response.initialLine,correctLength response.headers content,content⟩

/-- `CorrectCRLFHander.channelRead`. -/
def channelRead (id : ℕ) (message : Msg) : List Stmt :=
  match message with
  | .fullRequest request => [fireRead .client id (.fullRequest (correctRequest request))]
  | _ => [fireRead .client id message]

/-- `CorrectCRLFHander.write`. -/
def write (id : ℕ) (message : Msg) (listener : Listener) (flush : Bool) : List Stmt :=
  match message with
  | .fullResponse response =>
    [.write .client (some id) (.fullResponse (correctResponse response)) listener flush]
  | _ => [.write .client (some id) message listener flush]

end CorrectCRLFHander

namespace MitmHandler

/-- `MitmHandler.channelRead`. -/
def channelRead (id : ℕ) (httpInterceptor : HttpInterceptor) (message : Msg) : List Stmt :=
  match message with
  | .fullRequest request =>
    [.noteOnRequest request,fireRead .client id (.fullRequest (httpInterceptor.onRequest request))]
  | _ => [fireRead .client id message]

/-- `MitmHandler.write`: a response gets a listener of its own. -/
def write (id : ℕ) (httpInterceptor : HttpInterceptor) (message : Msg) (listener : Listener)
    (flush : Bool) : List Stmt :=
  match message with
  | .fullResponse response =>
    [.noteOnResponse response,
      .write .client (some id) (.fullResponse (httpInterceptor.onResponse response))
        .responseWritten true]
  | _ => [.write .client (some id) message listener flush]

/-- Listener of an intercepted response. -/
def responseWritten (ok : Bool) : List Stmt := if ok then [.closeOnFlush .client] else []

end MitmHandler

namespace RelayHandler

/-- `RelayHandler.channelRead`. -/
def channelRead (w : World) (s : Side) (message : Msg) : List Stmt :=
  if w.isActive s.other then [.write s.other none message .none true] else []

/-- `RelayHandler.channelInactive`. -/
def channelInactive (w : World) (s : Side) : List Stmt :=
  if w.isActive s.other then [.closeOnFlush s.other] else []

/-- `RelayHandler.exceptionCaught`. -/
def exceptionCaught (s : Side) : List Stmt := [.close s]

end RelayHandler

/-- One read of an HTTP decoder. -/
def httpDecoderRead (cfg : Config) (s : Side) (id : ℕ) (wrap : List Bytes → Handler)
    (history : List Bytes) (data : Bytes) : List Stmt :=
  .assign s id (wrap (history++[data]))::
    (cfg.httpDecode s history data).map (fun object => fireRead s id (.http object))

/-- The last messages of an HTTP decoder, before it passes the event on. -/
def httpDecoderInactive (cfg : Config) (s : Side) (id : ℕ) (history : List Bytes) : List Stmt :=
  (cfg.httpDecodeLast s history).map (fun object => fireRead s id (.http object))++
    [.ctxFire s id .inactive]

/-- One object read by an HTTP aggregator. -/
def aggregatorRead (cfg : Config) (s : Side) (id : ℕ) (history : List HttpObject)
    (object : HttpObject) : List Stmt :=
  .assign s id (.httpObjectAggregator (history++[object]))::
    (cfg.aggregate s history object).map (fireRead s id)

/-- A write through an HTTP encoder; a refused message fails its future. -/
def httpEncoderWrite (cfg : Config) (s : Side) (id : ℕ) (wrap : List Msg → Handler)
    (history : List Msg) (message : Msg) (listener : Listener) (flush : Bool) : List Stmt :=
  [.assign s id (wrap (history++[message])),.noteEncoded s message,
    match cfg.httpEncode history message with
    | some data => .write s (some id) (.bytes data) listener flush
    | none => .notify s listener false]

end ProxyDroid.ConnectionHandlers
