import ProxyDroid.ConnectionHandlers

/-!
# The connection as a reactive system

`reacts` lists which handlers override which inbound method for which
message; every other handler passes the event on. `perform` is the meaning
of one statement, with exceptions of a handler method delivered to the
`exceptionCaught` of the same context. Events are what the event loop may
see next; both channels share one loop, so an event is handled to its end.
-/

namespace ProxyDroid.ConnectionSystem

open CallSemantics HandlerPipeline ConnectionTypes ConnectionHandlers

/-- Whether a handler of this class acts on a message it reads. -/
def readsMessage : Handler → Msg → Bool
  | .socksPortUnificationServerHandler,.bytes _ => true
  | .socks4ServerDecoder state,.bytes _ => state≠.success
  | .socks5InitialRequestDecoder state,.bytes _ => state≠.success
  | .socks5CommandRequestDecoder state,.bytes _ => state≠.success
  | .socksServerHandler,.socks _ => true
  | .upstreamMatchHandler,.socks _ => true
  | .socks5InitialResponseDecoder state,.bytes _ => state≠.success
  | .socks5InitialResponseHandler _ _ _,.socks (.initialResponse _) => true
  | .socks5PasswordAuthResponseDecoder state,.bytes _ => state≠.success
  | .socks5PasswordAuthResponseHandler _,.socks (.passwordAuthResponse _) => true
  | .socks5CommandResponseDecoder state,.bytes _ => state≠.success
  | .socksCommandResponseHandler,.socks (.commandResponse _) => true
  | .protocolSelectHandler _ _,.bytes _ => true
  | .sniHandler _ _,.bytes _ => true
  | .sslHandler _,.bytes _ => true
  | .httpRequestDecoder _,.bytes _ => true
  | .httpResponseDecoder _,.bytes _ => true
  | .httpCheckHandler _,.http (.request _) => true
  | .httpObjectAggregator _,.http _ => true
  | .httpMessageHandler _,_ => true
  | .mitmHandler _,_ => true
  | .correctCRLFHander,_ => true
  | .relayHandler,_ => true
  | _,_ => false

/-- Whether a handler acts on an inbound event. -/
def reacts (event : Inbound) (h : Handler) : Bool :=
  match event,h with
  | .read message,h => readsMessage h message
  | .active,.upstreamHandler _ _ => true
  | .active,.connectHandler _ _ => true
  | .active,.socksClientInitializer _ _ _ => true
  | .active,.sslHandler _ => true
  | .active,.httpInterceptorHandler _ => true
  | .active,.relayHandler => true
  | .readComplete,.socksServerHandler => true
  | .inactive,.httpRequestDecoder _ => true
  | .inactive,.httpResponseDecoder _ => true
  | .inactive,.relayHandler => true
  | .exceptionCaught _,.socksServerHandler => true
  | .exceptionCaught _,.upstreamMatchHandler => true
  | .exceptionCaught _,.connectHandler _ _ => true
  | .exceptionCaught _,.socksClientInitializer _ _ _ => true
  | .exceptionCaught _,.sniHandler _ _ => true
  | .exceptionCaught _,.relayHandler => true
  | _,_ => false

/-- The method selection a decoder emits, decoded or failed. -/
def initialReply (result : Option UInt8) : InitialResponse :=
  ⟨result.isSome,result.getD unaccepted⟩

/-- The authentication status a decoder emits, decoded or failed. -/
def authReply (result : Option UInt8) : PasswordAuthResponse := ⟨result.isSome,result.getD 0xff⟩

/-- The command response a decoder emits, decoded or failed. -/
def commandReply : Option CommandResponse → CommandResponse
  | some response => ⟨true,response.status,response.bndAddrType,response.bndAddr,response.bndPort⟩
  | none => ⟨false,statusFailure,0x01,none,0⟩

/-- The SOCKS decoders, and what they emit for a decoded or failed message. -/
def socksDecoderRead (cfg : Config) (s : Side) (id : ℕ) (data : Bytes) : Handler → List Stmt
  | .socks4ServerDecoder state =>
    decodeOnce s id .socks4ServerDecoder
      (fun result => [fireRead s id (.socks (.socks4CommandRequest (result.getD true)))])
      cfg.parseSocks4 state data
  | .socks5InitialRequestDecoder state =>
    decodeOnce s id .socks5InitialRequestDecoder
      (fun result => [fireRead s id (.socks (.initialRequest (result.getD [noAuth])))])
      cfg.parseInitialRequest state data
  | .socks5CommandRequestDecoder state =>
    decodeOnce s id .socks5CommandRequestDecoder
      (fun result => [fireRead s id (.socks (.commandRequest
        (result.getD ⟨.connect,0x01,"0.0.0.0",1⟩)))]) cfg.parseCommandRequest state data
  | .socks5InitialResponseDecoder state =>
    decodeOnce s id .socks5InitialResponseDecoder
      (fun result => [.noteReply (.initialResponse (initialReply result)),
        fireRead s id (.socks (.initialResponse (initialReply result)))])
      cfg.parseInitialResponse state data
  | .socks5PasswordAuthResponseDecoder state =>
    decodeOnce s id .socks5PasswordAuthResponseDecoder
      (fun result => [.noteReply (.passwordAuthResponse (authReply result)),
        fireRead s id (.socks (.passwordAuthResponse (authReply result)))])
      cfg.parsePasswordAuthResponse state data
  | .socks5CommandResponseDecoder state =>
    decodeOnce s id .socks5CommandResponseDecoder
      (fun result => [.noteReply (.commandResponse (commandReply result)),
        fireRead s id (.socks (.commandResponse (commandReply result)))])
      cfg.parseCommandResponse state data
  | _ => []

/-- `channelRead` of a handler that acts on the message. -/
def channelRead (cfg : Config) (w : World) (s : Side) (id : ℕ) (message : Msg) :
    Handler → List Stmt
  | .socksPortUnificationServerHandler =>
    match message with
    | .bytes data => SocksPortUnificationServerHandler.channelRead id data
    | _ => [fireRead s id message]
  | .socksServerHandler =>
    match message with
    | .socks request => SocksServerHandler.channelRead0 id request
    | _ => [fireRead s id message]
  | .upstreamMatchHandler =>
    match message with
    | .socks request => UpstreamMatchHandler.channelRead0 cfg.rules id request
    | _ => [fireRead s id message]
  | .socks5InitialResponseHandler userName passwd request =>
    match message with
    | .socks (.initialResponse response) =>
      SocksClientInitializer.initialResponseRead0 id userName passwd request response
    | _ => [fireRead s id message]
  | .socks5PasswordAuthResponseHandler request =>
    match message with
    | .socks (.passwordAuthResponse response) =>
      SocksClientInitializer.passwordAuthResponseRead0 id request response
    | _ => [fireRead s id message]
  | .socksCommandResponseHandler =>
    match message with
    | .socks (.commandResponse response) => SocksClientInitializer.commandResponseRead0 id response
    | _ => [fireRead s id message]
  | .protocolSelectHandler request state =>
    match message with
    | .bytes data => ProtocolSelectHandler.channelRead cfg.rules id request state data
    | _ => [fireRead s id message]
  | .sniHandler request cumulation =>
    match message with
    | .bytes data => SniHandler.channelRead cfg id request cumulation data
    | _ => [fireRead s id message]
  | .sslHandler history =>
    match message with
    | .bytes data => SslHandler.step cfg s id history (.fromNetwork data) .none true
    | _ => [fireRead s id message]
  | .httpRequestDecoder history =>
    match message with
    | .bytes data => httpDecoderRead cfg s id .httpRequestDecoder history data
    | _ => [fireRead s id message]
  | .httpResponseDecoder history =>
    match message with
    | .bytes data => httpDecoderRead cfg s id .httpResponseDecoder history data
    | _ => [fireRead s id message]
  | .httpCheckHandler request =>
    match message with
    | .http (.request head) => HttpInterceptorHandler.checkRead0 cfg.rules id request head
    | _ => [fireRead s id message]
  | .httpObjectAggregator history =>
    match message with
    | .http object => aggregatorRead cfg s id history object
    | _ => [fireRead s id message]
  | .httpMessageHandler httpInterceptor =>
    HttpInterceptorHandler.messageRead id httpInterceptor message
  | .mitmHandler httpInterceptor => MitmHandler.channelRead id httpInterceptor message
  | .correctCRLFHander => CorrectCRLFHander.channelRead id message
  | .relayHandler => RelayHandler.channelRead w s message
  | h =>
    match message with
    | .bytes data => socksDecoderRead cfg s id data h
    | _ => [fireRead s id message]

/-- `channelActive` of a handler that acts on it. -/
def channelActive (cfg : Config) (s : Side) (id : ℕ) : Handler → List Stmt
  | .upstreamHandler proxy request => UpstreamHandler.channelActive id proxy request
  | .connectHandler proxy request => ConnectHandler.channelActive id proxy request
  | .socksClientInitializer userName passwd request =>
    SocksClientInitializer.channelActive id userName passwd request
  | .sslHandler history => SslHandler.step cfg s id history .start .none true++[.ctxFire s id .active]
  | .httpInterceptorHandler request => HttpInterceptorHandler.channelActive id request
  | .relayHandler => []
  | _ => [.ctxFire s id .active]

/-- `channelInactive` of a handler that acts on it. -/
def channelInactive (cfg : Config) (w : World) (s : Side) (id : ℕ) : Handler → List Stmt
  | .httpRequestDecoder history => httpDecoderInactive cfg s id history
  | .httpResponseDecoder history => httpDecoderInactive cfg s id history
  | .relayHandler => RelayHandler.channelInactive w s
  | _ => [.ctxFire s id .inactive]

/-- `exceptionCaught` of a handler that acts on it. -/
def exceptionCaught (s : Side) (id : ℕ) (cause : Throwable) : Handler → List Stmt
  | .socksServerHandler => SocksServerHandler.exceptionCaught
  | .upstreamMatchHandler => UpstreamMatchHandler.exceptionCaught
  | .connectHandler _ _ => ConnectHandler.exceptionCaught
  | .socksClientInitializer _ _ _ => SocksClientInitializer.exceptionCaught id cause
  | .sniHandler request _ => SniHandler.exceptionCaught request
  | .relayHandler => RelayHandler.exceptionCaught s
  | _ => [.ctxFire s id (.exceptionCaught cause)]

/-- The body a handler executes on an inbound event. -/
def body (cfg : Config) (w : World) (s : Side) (id : ℕ) (event : Inbound) (h : Handler) :
    List Stmt :=
  match event with
  | .read message => channelRead cfg w s id message h
  | .active => channelActive cfg s id h
  | .inactive => channelInactive cfg w s id h
  | .exceptionCaught cause => exceptionCaught s id cause h
  | .readComplete =>
    match h with
    | .socksServerHandler => SocksServerHandler.channelReadComplete
    | _ => [.ctxFire s id event]
  | .registered => [.ctxFire s id event]

/-- Whether a handler acts on a write of the message. -/
def intercepts (message : Msg) (h : Handler) : Bool :=
  match h,message with
  | .socks4ServerEncoder,.socks _ => true
  | .socks5ServerEncoder,.socks _ => true
  | .socks5ClientEncoder,.socks _ => true
  | .sslHandler _,.bytes _ => true
  | .httpRequestEncoder _,.http (.request _) => true
  | .httpRequestEncoder _,.http (.content _ _) => true
  | .httpRequestEncoder _,.fullRequest _ => true
  | .httpResponseEncoder _,.http (.response _) => true
  | .httpResponseEncoder _,.http (.content _ _) => true
  | .httpResponseEncoder _,.fullResponse _ => true
  | .mitmHandler _,.fullResponse _ => true
  | .correctCRLFHander,.fullResponse _ => true
  | _,_ => false

/-- `write` of a handler that acts on it. -/
def writeBody (cfg : Config) (s : Side) (id : ℕ) (message : Msg) (listener : Listener)
    (flush : Bool) : Handler → List Stmt
  | .sslHandler history =>
    match message with
    | .bytes data => SslHandler.step cfg s id history (.fromPipeline data) listener flush
    | _ => [.write s (some id) message listener flush]
  | .httpRequestEncoder history =>
    httpEncoderWrite cfg s id .httpRequestEncoder history message listener flush
  | .httpResponseEncoder history =>
    httpEncoderWrite cfg s id .httpResponseEncoder history message listener flush
  | .mitmHandler httpInterceptor => MitmHandler.write id httpInterceptor message listener flush
  | .correctCRLFHander => CorrectCRLFHander.write id message listener flush
  | _ =>
    match message with
    | .socks request => [.write s (some id) (.encoded request) listener flush]
    | _ => [.write s (some id) message listener flush]

/-- Body of a future listener attached to a channel of side `s`. -/
def listenerBody (s : Side) (ok : Bool) : Listener → List Stmt
  | .none => []
  | .close => [.close s]
  | .connected id => if ok then [.remove .client id] else []
  | .greetingSent id userName passwd request =>
    SocksClientInitializer.greetingSent id userName passwd request
  | .requestSent id => SocksClientInitializer.requestSent id ok
  | .responseWritten => MitmHandler.responseWritten ok

/-- Effect of a statement. -/
abbrev Effect := Act World Stmt Throwable

/-- Exceptions nobody handles are logged and dropped. -/
def drop (_ : Throwable) (_ : World) : List Stmt := []

/-- `ChannelInitializer.exceptionCaught` closes the channel. -/
def closeClient (_ : Throwable) (_ : World) : List Stmt := [.close .client]

/-- An exception of a handler method goes to the same context; one thrown by
`exceptionCaught` itself is dropped. -/
def rescueOf (s : Side) (id : ℕ) (event : Inbound) (cause : Throwable) (_ : World) : List Stmt :=
  match event with
  | .exceptionCaught _ => []
  | _ => [.invoke s id (.exceptionCaught cause)]

/-- Deliver an event to a context, or to the tail, which discards it. A
context that has left the pipeline passes the event to its neighbour. -/
def deliver (cfg : Config) (w : World) (s : Side) (event : Inbound) : Option ℕ → Effect
  | none => .done w
  | some id =>
    match (w.pipe s).find id with
    | none => .call w [.ctxFire s id event] drop
    | some h => .call w (body cfg w s id event h) (rescueOf s id event)

/-- A message that has passed all outbound handlers: bytes are queued, any
other object is refused, and so is a write to a channel that is not active. -/
def headWrite (w : World) (s : Side) (message : Msg) (listener : Listener) (flush : Bool) : Effect :=
  let accept : Effect :=
    if w.isActive s then
      if flush then .call (w.enqueue s message listener) [.flush s] drop
      else .done (w.enqueue s message listener)
    else .call w [.notify s listener false] drop
  match message with
  | .bytes _ => accept
  | .encoded _ => accept
  | _ => .call w [.notify s listener false] drop

/-- Add under an optional explicit name, which must be free. -/
def addNamed (w : World) (s : Side) (k : ℕ) (label : Option Label) (h : Handler) : Effect :=
  if label.any (w.pipe s).hasLabel then .throw .illegalArgument (w.note (.threw s .illegalArgument))
  else .done (w.updPipe s (fun p => p.insertAt k label h))

/-- Complete the promise and notify its two listeners. -/
def complete (w : World) (state : PromiseState) : Effect :=
  match w.promise with
  | none => .throw .illegalState w
  | some promise =>
    match promise.state with
    | .pending =>
      let ok := state==PromiseState.succeeded
      .call { w with promise := some { promise with state := state } }
        (UpstreamMatchHandler.replyListener promise ok++
          UpstreamMatchHandler.selectListener promise ok) drop
    | _ => .throw .illegalState (w.note (.threw .client .illegalState))

/-- Meaning of one statement. -/
def perform (cfg : Config) (stmt : Stmt) (w : World) : Effect :=
  match stmt with
  | .addLast s label h => addNamed w s (w.pipe s).contexts.length label h
  | .addFirst s label h => addNamed w s 0 label h
  | .addAfterCtx s id h => addNamed w s ((w.pipe s).indexOf id+1) none h
  | .addAfter s base label h =>
    if (w.pipe s).hasLabel base then
      addNamed w s ((w.pipe s).indexOfLabel base+1) (some label) h
    else .throw .noSuchElement (w.note (.threw s .noSuchElement))
  | .addBefore s base label h =>
    if (w.pipe s).hasLabel base then
      addNamed w s ((w.pipe s).indexOfLabel base) (some label) h
    else .throw .noSuchElement (w.note (.threw s .noSuchElement))
  | .remove s id =>
    if (w.pipe s).has id then .done (w.updPipe s (fun p => p.remove id))
    else .throw .noSuchElement (w.note (.threw s .noSuchElement))
  | .replace s id label h =>
    if (w.pipe s).has id && !(w.pipe s).hasLabel label then
      .done (w.updPipe s (fun p => p.replace id (some label) h))
    else .throw .noSuchElement (w.note (.threw s .noSuchElement))
  | .addInitializer httpInterceptor =>
    .call w (HttpInterceptorHandler.initChannel httpInterceptor) closeClient
  | .assign s id h => .done (w.updPipe s (fun p => p.assign id h))
  | .pipelineFire s event => deliver cfg w s event ((w.pipe s).firstWhere (reacts event))
  | .ctxFire s id event => deliver cfg w s event ((w.pipe s).nextWhere id (reacts event))
  | .invoke s id event =>
    match (w.pipe s).find id with
    | some h =>
      if reacts event h then deliver cfg w s event (some id)
      else deliver cfg w s event ((w.pipe s).nextWhere id (reacts event))
    | none => deliver cfg w s event ((w.pipe s).nextWhere id (reacts event))
  | .write s source message listener flush =>
    let target := match source with
      | none => (w.pipe s).lastWhere (intercepts message)
      | some id => (w.pipe s).prevWhere id (intercepts message)
    match target with
    | none => headWrite w s message listener flush
    | some id =>
      match (w.pipe s).find id with
      | none => headWrite w s message listener flush
      | some h => .call w (writeBody cfg s id message listener flush h) drop
  | .flush s =>
    if cfg.flushNow w.flushes then .call w.attempt [.drain s] drop else .done w.attempt
  | .drain s =>
    .call (w.takeQueue s) ((w.chan s).queue.map (fun entry => .notify s entry.2 true)) drop
  | .notify s listener ok => .call w (listenerBody s ok listener) drop
  | .closeOnFlush s =>
    if w.isActive s then .call w [.write s none (.bytes []) .close true] drop else .done w
  | .close s =>
    match (w.chan s).life with
    | .active =>
      .call (w.upd s (fun c => { c with life := .closed, inactivePending := true, queue := [] }))
        ((w.chan s).queue.map (fun entry => .notify s entry.2 false)) drop
    | .connecting =>
      .call (w.upd s (fun c => { c with life := .closed, queue := [] }))
        ((w.chan s).queue.map (fun entry => .notify s entry.2 false)) drop
    | _ => .done w
  | .destroy s => .done (w.updPipe s (fun p => ⟨[],p.nextId,p.detached,by simp,by simp⟩))
  | .newPromise request id => .done { w with promise := some ⟨request,id,.pending⟩ }
  | .setSuccess => complete w .succeeded
  | .setFailure => complete w .failed
  | .connect id proxy request host port =>
    if w.remote.life=.idle then
      .done { w.note (.connecting host port) with
        connecting := some id
        remote := ⟨Pipeline.empty.addLast (.connectHandler proxy request),.connecting,false,[],[]⟩ }
    else .done w
  | .raise cause => .throw cause w
  | .noteSelected isTls => .done (w.note (.selected isTls))
  | .noteReply message => .done (w.note (.reply message))
  | .noteRequest request => .done (w.note (.requestRead request))
  | .noteOnRequest request => .done (w.note (.onRequest request))
  | .noteOnResponse response => .done (w.note (.onResponse response))
  | .noteEncoded s message => .done (w.note (.encoded s message))

/-- What the event loop may see next. -/
inductive Event where
  /-- Bytes arrive on a channel. -/
  | read (s : Side) (data : Bytes)
  /-- The connect of the remote channel succeeds. -/
  | connected
  /-- Name resolution or the connect fails; the channel is closed. -/
  | connectFailed
  /-- The peer of a channel closes it. -/
  | peerClose (s : Side)
  /-- A read of a channel raises an I/O exception. -/
  | ioException (s : Side)
  /-- A flush of a channel raises an I/O exception. -/
  | writeError (s : Side)
  /-- The socket takes the queued writes of a channel. -/
  | flushed (s : Side)
  /-- `channelInactive` of a closed channel is fired. -/
  | inactive (s : Side)

/-- When an event can happen, and what handling it starts with. -/
def inject (event : Event) (w : World) : Option (World×List Stmt) :=
  match event with
  | .read s data =>
    if w.isActive s then
      some (w,[.pipelineFire s (.read (.bytes data)),.pipelineFire s .readComplete])
    else none
  | .connected =>
    if w.remote.life=.connecting then
      some (({ w with remote := { w.remote with life := .active } }).note .connected,
        (match w.connecting with
          | some id => [.notify .client (.connected id) true]
          | none => [])++[.pipelineFire .remote .active])
    else none
  | .connectFailed =>
    if w.remote.life=.connecting then
      some ({ w with remote := { w.remote with life := .closed } },
        match w.connecting with
          | some id => [.notify .client (.connected id) false]
          | none => [])
    else none
  | .peerClose s => if w.isActive s then some (w,[.close s]) else none
  | .ioException s =>
    if w.isActive s then
      some (w,[.pipelineFire s (.exceptionCaught .ioException),.close s])
    else none
  | .writeError s =>
    if w.isActive s && (w.chan s).queue≠[] then some (w,[.close s]) else none
  | .flushed s =>
    if w.isActive s && (w.chan s).queue≠[] then some (w,[.drain s]) else none
  | .inactive s =>
    if (w.chan s).inactivePending then
      some (w.upd s (fun c => { c with inactivePending := false }),
        [.pipelineFire s .inactive,.destroy s])
    else none

/-- The connection under a configuration. -/
def system (cfg : Config) : System World Event Stmt Throwable := ⟨perform cfg,inject⟩

/-- `SocksServerInitializer.initChannel` on an accepted channel. -/
def accepted : World where
  client :=
    ⟨((Pipeline.empty.addLast .loggingHandler).addLast .socksPortUnificationServerHandler).addLast
      .socksServerHandler,.active,false,[],[]⟩
  remote := ⟨Pipeline.empty,.idle,false,[],[]⟩
  promise := none
  connecting := none
  flushes := 0
  log := []

/-- A client that offers no authentication. -/
def sampleGreeting : Bytes := [0x05,0x01,0x00]

/-- The bytes of a CONNECT request. -/
def sampleCommand : Bytes := [0x05,0x01,0x00,0x01,1,2,3,4,0,80]

/-- The request in those bytes. -/
def sampleRequest : Socks5CommandRequest := ⟨.connect,0x01,"1.2.3.4",80⟩

/-- Codecs that know the two messages above, with sockets that take every
write at once; concrete runs replace what they exercise. -/
def sampleConfig (rules : Rules) : Config where
  rules := rules
  parseSocks4 := fun _ => .malformed
  parseInitialRequest := fun data => if data=sampleGreeting then .message [noAuth] [] else .malformed
  parseCommandRequest := fun data =>
    if data=sampleCommand then .message sampleRequest [] else .malformed
  parseInitialResponse := fun _ => .incomplete
  parsePasswordAuthResponse := fun _ => .incomplete
  parseCommandResponse := fun _ => .incomplete
  clientHello := fun _ => none
  clientHello_append := fun _ _ _ h => absurd h (by simp)
  tls := fun _ _ _ => ⟨[],[],false⟩
  httpDecode := fun _ _ _ => []
  httpDecodeLast := fun _ _ => []
  aggregate := fun _ _ _ => []
  httpEncode := fun _ _ => none
  flushNow := fun _ => true

/-- Rules that connect every host directly. -/
def directRules (mitmConfig : Option (String → Option HttpInterceptor)) : Rules where
  proxylist := fun _ => none
  proxyMatcher := fun _ => none
  mitmConfig := mitmConfig

/-- The SOCKS exchange of the sample client, answered by a direct connect. -/
def sampleExchange : List Event :=
  [.read .client sampleGreeting,.read .client sampleCommand,.connected]

end ProxyDroid.ConnectionSystem
