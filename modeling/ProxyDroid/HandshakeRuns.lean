import ProxyDroid.HandshakeEvents

/-!
# Runs of an upstream attempt

A client that has asked for a connection starts an attempt; every run of
upstream events keeps the attempt in one of its stages, and only an end that
nobody reports makes it dead.
-/

namespace ProxyDroid.HandshakeRuns

open CallSemantics HandlerPipeline ConnectionTypes ConnectionHandlers ConnectionSystem
open ConnectionRules ConnectionInvariants TunnelPhases CommandReply HandshakeStages HandshakeReplies
open HandshakeEvents

section Start

variable {cfg : Config} {request : Socks5CommandRequest} {rest command : Bytes}
  {methods : List UInt8} {queue : List (Msg×Listener)} {sent : List Msg} {flushes : ℕ}

/-- The accepted channel once the first byte has selected the SOCKS5 codecs. -/
def selected : World :=
  { accepted with
    client := { accepted.client with
      pipeline := ((accepted.client.pipeline.insertAt 2 none .socks5ServerEncoder).insertAt 2 none
        (.socks5InitialRequestDecoder (.init []))).remove 1 } }

/-- The reply to the client's greeting. -/
def methodReply : SocksMessage := .initialResponse ⟨true,noAuth⟩

/-- The accepted channel once the greeting has been answered, with what has
become of the answer. -/
def answered (queue : List (Msg×Listener)) (sent : List Msg) (flushes : ℕ) : World :=
  { accepted with
    client := ⟨(selected.client.pipeline.assign 4 (.socks5InitialRequestDecoder .success)).insertAt 0
      none (.socks5CommandRequestDecoder (.init [])),.active,false,queue,sent⟩
    flushes := flushes }

/-- The greeting of the client is answered. -/
theorem read_greeting (hp : cfg.parseInitialRequest (0x05::rest)=.message methods []) :
    ∃ queue sent, (system cfg).Turn accepted (.read .client (0x05::rest))
        (answered queue sent 1) ∧ (∀ entry∈queue, entry.2=.none) ∧
      ∀ message∈sent++queue.map Prod.fst, Preliminary message := by
  have hselect : perform cfg (.pipelineFire .client (.read (.bytes (0x05::rest)))) accepted=
      .call accepted [.addAfterCtx .client 1 .socks5ServerEncoder,
        .addAfterCtx .client 1 (.socks5InitialRequestDecoder (.init [])),
        .remove .client 1,fireRead .client 1 (.bytes (0x05::rest))]
        (rescueOf .client 1 (.read (.bytes (0x05::rest)))) := rfl
  have hdecode : perform cfg (fireRead .client 1 (.bytes (0x05::rest))) selected=
      .call selected [.assign .client 4 (.socks5InitialRequestDecoder .success),
        fireRead .client 4 (.socks (.initialRequest methods))]
        (rescueOf .client 4 (.read (.bytes (0x05::rest)))) := by
    have hcall : perform cfg (fireRead .client 1 (.bytes (0x05::rest))) selected=
        .call selected (decodeOnce .client 4 .socks5InitialRequestDecoder
          (fun result => [fireRead .client 4 (.socks (.initialRequest (result.getD [noAuth])))])
          cfg.parseInitialRequest (.init []) (0x05::rest))
          (rescueOf .client 4 (.read (.bytes (0x05::rest)))) := rfl
    rw [hcall]
    simp [decodeOnce,hp,fireRest]
  let decoded : World := selected.updPipe .client (fun p =>
    p.assign 4 (.socks5InitialRequestDecoder .success))
  have hanswer : perform cfg (fireRead .client 4 (.socks (.initialRequest methods))) decoded=
      .call decoded [.addFirst .client none (.socks5CommandRequestDecoder (.init [])),
        .write .client (some 2) (.socks methodReply) .none false]
        (rescueOf .client 2 (.read (.socks (.initialRequest methods)))) := rfl
  have hwrite : perform cfg (.write .client (some 2) (.socks methodReply) .none false)
      (answered [] [] 0)=.call (answered [] [] 0)
        [.write .client (some 3) (.encoded methodReply) .none false] drop := rfl
  have hhead : perform cfg (.write .client (some 3) (.encoded methodReply) .none false)
      (answered [] [] 0)=.done (answered [(.encoded methodReply,.none)] [] 0) := rfl
  have hread : Runs cfg accepted [.pipelineFire .client (.read (.bytes (0x05::rest)))]
      (answered [(.encoded methodReply,.none)] [] 0) := by
    have hcodecs : Runs cfg accepted [.addAfterCtx .client 1 .socks5ServerEncoder,
        .addAfterCtx .client 1 (.socks5InitialRequestDecoder (.init [])),.remove .client 1]
        selected := .done rfl (.done rfl (.done rfl (.nil _)))
    have hfirst : Runs cfg decoded [.addFirst .client none (.socks5CommandRequestDecoder (.init []))]
        (answered [] [] 0) := runs_of_done rfl
    have hreply := runs_of_call hanswer (hfirst.cons (runs_of_call hwrite (runs_of_done hhead)))
    exact runs_of_call hselect (hcodecs.append (runs_of_call hdecode (runs_assign.cons hreply)))
  have hflush : perform cfg (.pipelineFire .client .readComplete)
      (answered [(.encoded methodReply,.none)] [] 0)=
      .call (answered [(.encoded methodReply,.none)] [] 0) [.flush .client]
        (rescueOf .client 2 .readComplete) := rfl
  have hprelim : Preliminary (.encoded methodReply) := ⟨methodReply,rfl,by simp [methodReply]⟩
  cases hn : cfg.flushNow 0 with
  | false =>
    refine ⟨[(.encoded methodReply,.none)],[],⟨accepted,_,none,rfl,?_⟩,by simp,by simpa using hprelim⟩
    exact hread.cons (runs_of_call hflush (runs_flush_later hn))
  | true =>
    refine ⟨[],[.encoded methodReply],⟨accepted,_,none,rfl,?_⟩,by simp,by simpa using hprelim⟩
    exact hread.cons (runs_of_call hflush (runs_flush_now hn (runs_notify_none (by simp [answered]))))

/-- The state in which the upstream handler of a proxy becomes active. -/
def matched (proxy : Proxy) (request : Socks5CommandRequest) (queue : List (Msg×Listener))
    (sent : List Msg) (flushes : ℕ) : World :=
  { answered queue sent flushes with
    client := ⟨((((((answered queue sent flushes).client.pipeline.assign 5
      (.socks5CommandRequestDecoder .success)).insertAt 5 none .upstreamMatchHandler).remove
      2).remove 6).insertAt 4 none (.upstreamHandler proxy request)),.active,false,queue,sent⟩
    promise := some ⟨request,6,.pending⟩ }

/-- The request of the client waits for its upstream. -/
theorem matched_pending (proxy : Proxy) (hq : ∀ entry∈queue, entry.2=.none)
    (hw : ∀ message∈sent++queue.map Prod.fst, Preliminary message) :
    Pending request [.upstreamHandler proxy request] (matched proxy request queue sent flushes) where
  handlers := rfl
  promise := by
    have hleft : ((matched proxy request queue sent flushes).pipe .client).Left 6 3 :=
      ⟨rfl,(by change 6<8; omega),none,rfl⟩
    refine ⟨6,3,rfl,hleft,[⟨5,none,.socks5CommandRequestDecoder .success⟩,⟨0,none,.loggingHandler⟩,
      ⟨4,none,.socks5InitialRequestDecoder .success⟩],⟨3,none,.socks5ServerEncoder⟩,
      [⟨7,none,.upstreamHandler proxy request⟩],rfl,rfl,rfl,rfl,rfl⟩
  active := rfl
  quiet := hq
  written := hw

/-- A CONNECT request is matched to its upstream. -/
theorem read_command (hp : cfg.parseCommandRequest command=.message request [])
    (hc : request.type=.connect) {w : World}
    (hrun : Runs cfg (matched (UpstreamMatchHandler.matchUpstream cfg.rules request) request queue
      sent flushes) (UpstreamHandler.channelActive 7
        (UpstreamMatchHandler.matchUpstream cfg.rules request) request) w)
    (hsilent : ∀ h∈w.handlers .client, reacts .readComplete h=false) :
    (system cfg).Turn (answered queue sent flushes) (.read .client command) w := by
  let proxy := UpstreamMatchHandler.matchUpstream cfg.rules request
  let start := answered queue sent flushes
  have hdecode : perform cfg (.pipelineFire .client (.read (.bytes command))) start=
      .call start [.assign .client 5 (.socks5CommandRequestDecoder .success),
        fireRead .client 5 (.socks (.commandRequest request))]
        (rescueOf .client 5 (.read (.bytes command))) := by
    have hcall : perform cfg (.pipelineFire .client (.read (.bytes command))) start=
        .call start (decodeOnce .client 5 .socks5CommandRequestDecoder
          (fun result => [fireRead .client 5 (.socks (.commandRequest
            (result.getD ⟨.connect,0x01,"0.0.0.0",1⟩)))]) cfg.parseCommandRequest (.init []) command)
          (rescueOf .client 5 (.read (.bytes command))) := rfl
    rw [hcall]
    simp [decodeOnce,hp,fireRest]
  let decoded : World := start.updPipe .client (fun p =>
    p.assign 5 (.socks5CommandRequestDecoder .success))
  have hhand : perform cfg (fireRead .client 5 (.socks (.commandRequest request))) decoded=
      .call decoded (SocksServerHandler.handOver 2 (.commandRequest request))
        (rescueOf .client 2 (.read (.socks (.commandRequest request)))) := by
    have hcall : perform cfg (fireRead .client 5 (.socks (.commandRequest request))) decoded=
        .call decoded (SocksServerHandler.channelRead0 2 (.commandRequest request))
          (rescueOf .client 2 (.read (.socks (.commandRequest request)))) := rfl
    rw [hcall]
    simp [SocksServerHandler.channelRead0,hc]
  let handed : World := decoded.updPipe .client (fun p =>
    (p.insertAt 5 none .upstreamMatchHandler).remove 2)
  have hmatch : perform cfg (fireRead .client 2 (.socks (.commandRequest request))) handed=
      .call handed [.newPromise request 6,.remove .client 6,
        .addLast .client none (.upstreamHandler proxy request),
        .pipelineFire .client .registered,.pipelineFire .client .active]
        (rescueOf .client 6 (.read (.socks (.commandRequest request)))) := rfl
  have hadd : Runs cfg handed [.newPromise request 6,.remove .client 6,
      .addLast .client none (.upstreamHandler proxy request),.pipelineFire .client .registered]
      (matched proxy request queue sent flushes) :=
    .done rfl (.done rfl (.done rfl (.done rfl (.nil _))))
  have hactive : perform cfg (.pipelineFire .client .active) (matched proxy request queue sent flushes)=
      .call (matched proxy request queue sent flushes)
        (UpstreamHandler.channelActive 7 proxy request) (rescueOf .client 7 .active) := rfl
  have hleave : Runs cfg decoded [.addLast .client none .upstreamMatchHandler,.remove .client 2]
      handed := .done rfl (.done rfl (.nil _))
  have hupstream := hadd.append (runs_of_call hactive hrun)
  have hover := hleave.append (runs_of_call hmatch hupstream)
  exact turn_read rfl (runs_of_call hdecode (runs_assign.cons (runs_of_call hhand hover))) hsilent

/-- An upstream handler that connects starts an attempt at its peer. -/
theorem request_connects {proxy : Proxy} (hq : ∀ entry∈queue, entry.2=.none)
    (hw : ∀ message∈sent++queue.map Prod.fst, Preliminary message)
    (hp : cfg.parseCommandRequest command=.message request []) (hc : request.type=.connect)
    (hproxy : UpstreamMatchHandler.matchUpstream cfg.rules request=proxy) (hkind : proxy≠.reject) :
    ∃ w, (system cfg).Turn (answered queue sent flushes) (.read .client command) w ∧
      Connecting (openClient cfg request) proxy w := by
  let w : World := { (matched proxy request queue sent flushes).note
      (.connecting (peer request proxy).1 (peer request proxy).2) with
    connecting := some 7
    remote := ⟨Pipeline.empty.addLast (.connectHandler proxy request),.connecting,false,[],[]⟩ }
  have hactive : UpstreamHandler.channelActive 7 proxy request=
      [.connect 7 proxy request (peer request proxy).1 (peer request proxy).2] := by
    cases proxy with
    | reject => exact absurd rfl hkind
    | direct | http | socks5 => rfl
  have hrun : Runs cfg (matched proxy request queue sent flushes)
      (UpstreamHandler.channelActive 7 proxy request) w := by
    rw [hactive]
    exact runs_of_done rfl
  have hhandlers : w.handlers .client=socksCodecs++[Handler.upstreamHandler proxy request] := rfl
  have hlog : w.log=[.connecting (peer request proxy).1 (peer request proxy).2] := rfl
  have hpending : Pending request [.upstreamHandler proxy request] w :=
    (matched_pending proxy hq hw).of_eq rfl rfl
  refine ⟨w,read_command hp hc (hproxy ▸ hrun) ?_,hkind,
    ⟨hpending,⟨7,rfl,_,⟨7,none,_⟩,[],rfl,rfl,rfl,rfl,rfl⟩⟩,rfl,rfl,⟨rfl,rfl⟩,?_,?_,?_,?_⟩
  · rw [hhandlers]
    exact silent_append socksCodecs_idle (by simp [reacts])
  · intro host port
    rw [hlog]
    simp [Prod.ext_iff]
  · rw [hlog]
    rfl
  · rw [hlog]
    simp
  · rw [hlog]
    simp

/-- The request of a client starts an attempt at its upstream. -/
theorem request_live (hq : ∀ entry∈queue, entry.2=.none)
    (hw : ∀ message∈sent++queue.map Prod.fst, Preliminary message)
    (hp : cfg.parseCommandRequest command=.message request []) (hc : request.type=.connect) :
    ∃ w, (system cfg).Turn (answered queue sent flushes) (.read .client command) w ∧
      Live (openClient cfg request) (UpstreamMatchHandler.matchUpstream cfg.rules request) w := by
  cases hproxy : UpstreamMatchHandler.matchUpstream cfg.rules request with
  | direct | http | socks5 =>
    obtain ⟨w,hturn,h⟩ := request_connects hq hw hp hc hproxy (by simp)
    exact ⟨w,hturn,.connecting h⟩
  | reject =>
    have hpending : Pending request [.upstreamHandler .reject request]
        (matched .reject request queue sent flushes) := matched_pending .reject hq hw
    obtain ⟨w,hrun,hremote,hlog,hrefused⟩ := hpending.fail cfg (by simp [intercepts,reacts])
    have hidle : w.remote=accepted.remote := hremote
    have hnone : w.handlers .remote=[] :=
      congrArg (fun c : Channel => c.pipeline.handlers) hidle
    refine ⟨w,read_command hp hc (hproxy ▸ hrun) (fun x hx => (hrefused.handlers x hx).2),
      .failed ⟨hrefused,?_,?_,?_,?_,?_,?_⟩⟩
    · exact quiet_of_nil (congrArg Channel.queue hidle)
    · rw [hidle]
      simp [accepted]
    · simp [hnone]
    · simp [hnone]
    · have hempty : w.log=[] := hlog
      simp [hempty,repliesIn]
    · have hempty : w.log=[] := hlog
      have hwritten : w.written .remote=[] := by
        rw [World.written,chan_remote,hidle]
        rfl
      exact spoken_nothing (hempty ▸ rfl) hwritten (by simp [hempty])

end Start

section Connects

variable {cfg : Config} {w w' : World} {proxy : Proxy} {request : Socks5CommandRequest}
  {down : Downstream cfg request}

/-- The remote channel has just been opened: the upstream handler has left, the
handler of the connect has not become active yet. -/
structure Opening (down : Downstream cfg request) (proxy : Proxy) (w : World) : Prop where
  /-- The client waits for its answer. -/
  client : down.waiting [] w
  /-- The remote channel is open. -/
  life : w.remote.life=.active
  /-- Its only handler. -/
  remote : w.handlers .remote=[.connectHandler proxy request]
  /-- Nothing has been written to it. -/
  unwritten : w.remote.queue=[] ∧ w.remote.sent=[]
  /-- The attempt has reached its peer. -/
  reached : Reached proxy request w.log
  /-- No reply has arrived. -/
  replies : repliesIn w.log=[]

/-- The state in which the event loop finds a connect that has succeeded. -/
def opening (w : World) : World :=
  ({ w with remote := { w.remote with life := .active } }).note .connected

/-- The listener of a successful connect removes the upstream handler. -/
theorem runs_connected (h : Connecting down proxy w) : ∃ id, w.connecting=some id ∧
    ∃ w', Runs cfg (opening w) [.notify .client (.connected id) true] w' ∧
      Opening down proxy w' := by
  have hdialing : down.dialing proxy (opening w) := down.dialing_of_eq h.client rfl rfl rfl
  obtain ⟨id,hid,w',seen,hrun,hremote,hlog,hseen,hwaiting⟩ := down.connected hdialing
  have hnone : repliesIn seen=[] := by
    refine List.filterMap_eq_nil_iff.mpr (fun obs hm => ?_)
    rw [hseen obs hm]
  have hlog' : w'.log=w.log++([Obs.connected]++seen) := by
    rw [hlog]
    exact List.append_assoc w.log [.connected] seen
  have hlife : w'.remote.life=.active := by
    rw [hremote]
    rfl
  have hhandlers : w'.handlers .remote=[.connectHandler proxy request] := by
    rw [World.handlers,World.pipe,chan_remote,hremote]
    exact h.remote
  have hunwritten : w'.remote.queue=[] ∧ w'.remote.sent=[] := by
    rw [hremote]
    exact h.unwritten
  refine ⟨id,hid,w',hrun,hwaiting,hlife,hhandlers,hunwritten,⟨h.kind,fun host port => ?_,?_,
    fun isTls hm => ?_,fun hm => ?_⟩,?_⟩
  · rw [hlog',List.mem_append,←h.target host port]
    refine ⟨fun hm => hm.resolve_right (fun hm => ?_),Or.inl⟩
    rcases List.mem_append.mp hm with hm|hm
    · cases List.mem_singleton.mp hm
    · cases hseen _ hm
  · rw [hlog']
    simp
  · rw [hlog'] at hm
    rcases List.mem_append.mp hm with hm|hm
    · exact h.fresh isTls hm
    · rcases List.mem_append.mp hm with hm|hm
      · cases List.mem_singleton.mp hm
      · cases hseen _ hm
  · rw [hlog'] at hm
    rcases List.mem_append.mp hm with hm|hm
    · exact h.calm hm
    · rcases List.mem_append.mp hm with hm|hm
      · cases List.mem_singleton.mp hm
      · cases hseen _ hm
  · rw [hlog',repliesIn_append,repliesIn_append,h.replies,hnone]
    rfl

/-- The promise succeeds as soon as the connect does. -/
theorem connected_plain (hproxy : ∀ address port userName passwd,
      proxy≠.socks5 address port userName passwd) (h : Opening down proxy w) :
    ∃ w', Runs cfg w [.pipelineFire .remote .active] w' ∧ Opened down proxy w' ∧
      w'.isActive .remote=true := by
  have hh : w.handlers .remote=[]++Handler.connectHandler proxy request::[] := h.remote
  obtain ⟨id',hl',hfire⟩ := perform_pipelineFire cfg .active hh (by simp) rfl
  have hbody : body cfg w .remote id' .active (.connectHandler proxy request)=
      [.setSuccess,.remove .remote id'] := by
    cases proxy with
    | socks5 address port userName passwd => exact absurd rfl (hproxy _ _ _ _)
    | direct | reject | http => rfl
  obtain ⟨w₁,hrun,hremote,hlog,hs⟩ := down.succeed h.client
  have hpipe : w₁.pipe .remote=w.pipe .remote := congrArg Channel.pipeline hremote
  have hnone : (w₁.updPipe .remote (fun p => p.remove id')).handlers .remote=[] := by
    have hl₁ : (w₁.pipe .remote).Located id' [] (.connectHandler proxy request) [] := hpipe ▸ hl'
    simpa using hl₁.handlers_remove
  have hqueue : w₁.remote.queue=[] := by rw [hremote]; exact h.unwritten.1
  have hsent : w₁.remote.sent=[] := by rw [hremote]; exact h.unwritten.2
  have hwritten : (w₁.updPipe .remote (fun p => p.remove id')).written .remote=[] := by
    rw [updPipe_written]
    simp [World.written,hqueue,hsent]
  have hheard : repliesIn (w₁.updPipe .remote (fun p => p.remove id')).log=[] := by
    rw [updPipe_log,hlog]
    exact h.replies
  have hcalm : .threw .client .illegalState∉(w₁.updPipe .remote (fun p => p.remove id')).log := by
    rw [updPipe_log,hlog]
    exact h.reached.calm
  have hlife : (w₁.updPipe .remote (fun p => p.remove id')).remote.life=.active := by
    change w₁.remote.life=.active
    rw [hremote]
    exact h.life
  refine ⟨w₁.updPipe .remote (fun p => p.remove id'),?_,⟨down.told_of_eq hs rfl rfl,?_,?_,
    .inl hlife,?_,?_,spoken_nothing hheard hwritten hcalm⟩,decide_eq_true hlife⟩
  · refine runs_of_call hfire ?_
    rw [hbody]
    exact hrun.cons (runs_remove (hpipe ▸ hl'))
  · simp [hnone]
  · rw [quiet_updPipe]
    exact quiet_of_nil hqueue
  · rw [updPipe_log,hlog]
    exact h.reached
  · cases proxy with
    | socks5 address port userName passwd => exact absurd rfl (hproxy _ _ _ _)
    | direct | reject | http => exact ⟨hwritten,hheard⟩

/-- The greeting is queued; when the socket takes it at once the method
selection is awaited. -/
theorem runs_greeting (cfg : Config) {down : Downstream cfg request} {address : String} {port : ℕ}
    {userName passwd : String} {id : ℕ}
    (hproxy : proxy=.socks5 address port userName passwd)
    (hd : Dialogue down proxy [.socksClientInitializer userName passwd request,
      .socks5ClientEncoder] [] [] w) (hq : w.remote.queue=[])
    (hl : (w.pipe .remote).Located id [] (.socksClientInitializer userName passwd request)
      [.socks5ClientEncoder]) :
    ∃ w', Runs cfg w [.write .remote none (.socks greeting)
        (.greetingSent id userName passwd request) true] w' ∧ Next down proxy w' := by
  have hsplit : (w.pipe .remote).handlers=[Handler.socksClientInitializer userName passwd request]++
      Handler.socks5ClientEncoder::[] := hd.remote
  obtain ⟨encoder,hlast,hle⟩ := Pipeline.lastWhere_eq (q:=intercepts (.socks greeting)) hsplit
    (by simp) rfl
  have hwrite : perform cfg (.write .remote none (.socks greeting)
      (.greetingSent id userName passwd request) true) w=
      .call w (writeBody cfg .remote encoder (.socks greeting)
        (.greetingSent id userName passwd request) true .socks5ClientEncoder) drop := by
    simp only [perform,hlast,hle.find]
  let queued := (w.enqueue .remote (.encoded greeting)
    (.greetingSent id userName passwd request)).attempt
  have hdq : Dialogue down proxy [.socksClientInitializer userName passwd request,
      .socks5ClientEncoder] [greeting] [] queued := hd.queued _ _ .greeted
  have hqueue : queued.remote.queue=[(.encoded greeting,.greetingSent id userName passwd request)] := by
    change w.remote.queue++[_]=_
    rw [hq]
    rfl
  have hlq : ((queued.takeQueue .remote).pipe .remote).Located id []
      (.socksClientInitializer userName passwd request) [.socks5ClientEncoder] := hl
  obtain ⟨hsent,hhandlers⟩ := runs_greetingSent cfg true hlq
  have hdd := hdq.drained
  have hdg : Dialogue down proxy [.socks5ClientEncoder,.socks5InitialResponseDecoder (.init []),
      .socks5InitialResponseHandler userName passwd request] [greeting] []
      (greeted (queued.takeQueue .remote) id userName passwd request) :=
    hdd.of_silent rfl rfl hdd.active hhandlers (by simp [greeted]) (by simp [greeted])
  obtain ⟨w',hrun,hnext⟩ := runs_encoder_remote (P:=Next down proxy) cfg greeting
    (.greetingSent id userName passwd request) hle hd.active (quiet_of_nil hq)
    (.dialogue (.greeting ⟨id,address,port,userName,passwd,hproxy,hdq,hl,hqueue⟩) hdq)
    ⟨_,hsent,.dialogue (.method [] ⟨address,port,userName,passwd,hproxy,hdg,quiet_of_nil rfl⟩) hdg⟩
  exact ⟨w',runs_of_call hwrite hrun,hnext⟩

/-- The connect to a SOCKS5 server starts the dialogue. -/
theorem connected_socks {address : String} {port : ℕ} {userName passwd : String}
    (hproxy : proxy=.socks5 address port userName passwd) (h : Opening down proxy w) :
    ∃ w', Runs cfg w [.pipelineFire .remote .active] w' ∧ Next down proxy w' := by
  have hh : w.handlers .remote=[]++Handler.connectHandler proxy request::[] := h.remote
  obtain ⟨id',hl',hfire⟩ := perform_pipelineFire cfg .active hh (by simp) rfl
  have hbody : body cfg w .remote id' .active (.connectHandler proxy request)=
      [.addLast .remote none (.socksClientInitializer userName passwd request),
        .remove .remote id',.pipelineFire .remote .active] := by
    rw [hproxy]
    rfl
  let started := (w.updPipe .remote (fun p => p.insertAt p.contexts.length none
    (.socksClientInitializer userName passwd request))).updPipe .remote (fun p => p.remove id')
  have hadd : ((w.updPipe .remote (fun p => p.insertAt p.contexts.length none
      (.socksClientInitializer userName passwd request))).pipe .remote).Located id' []
      (.connectHandler proxy request) [.socksClientInitializer userName passwd request] := by
    simpa using hl'.insertAt_length none (.socksClientInitializer userName passwd request)
  have hhs : started.handlers .remote=[]++
      Handler.socksClientInitializer userName passwd request::[] := by
    simpa [started] using hadd.handlers_remove
  obtain ⟨id₁,hl₁,hactive⟩ := perform_pipelineFire cfg .active hhs (by simp) rfl
  let ready := started.updPipe .remote (fun p => p.insertAt p.contexts.length none
    .socks5ClientEncoder)
  have hlr : (ready.pipe .remote).Located id₁ [] (.socksClientInitializer userName passwd request)
      [.socks5ClientEncoder] := by
    simpa [ready] using hl₁.insertAt_length none .socks5ClientEncoder
  have hqueue : ready.remote.queue=[] := h.unwritten.1
  have hsent : ready.remote.sent=[] := h.unwritten.2
  have hlog : ready.log=w.log := by simp [ready,started]
  have hdr : Dialogue down proxy [.socksClientInitializer userName passwd request,
      .socks5ClientEncoder] [] [] ready := by
    refine ⟨⟨address,port,userName,passwd,hproxy⟩,.start,down.waiting_of_eq h.client rfl rfl,
      decide_eq_true h.life,hlr.handlers,?_,?_,?_,?_⟩
    · rw [hlog]
      exact h.reached
    · simp [World.written,hqueue,hsent]
    · rw [hlog]
      exact h.replies
    · simp
  obtain ⟨w',hrun,hnext⟩ := runs_greeting cfg hproxy hdr hqueue hlr
  refine ⟨w',runs_of_call hfire ?_,hnext⟩
  rw [hbody]
  have hinit := runs_of_call hactive (runs_addLast.cons hrun)
  exact runs_addLast.cons ((runs_remove hadd).cons hinit)

/-- The handler of the connect becomes active. -/
theorem connected_active (h : Opening down proxy w) :
    ∃ w', Runs cfg w [.pipelineFire .remote .active] w' ∧ Next down proxy w' := by
  by_cases hproxy : ∃ address port userName passwd, proxy=.socks5 address port userName passwd
  · obtain ⟨address,port,userName,passwd,hproxy⟩ := hproxy
    exact connected_socks hproxy h
  · obtain ⟨w',hrun,hopened,hactive⟩ := connected_plain (fun a b c d he => hproxy ⟨a,b,c,d,he⟩) h
    exact ⟨w',hrun,.opened hopened hactive⟩

/-- A connect in progress is the first stage. -/
theorem connecting_of_life (h : Live down proxy w) (hlife : w.remote.life=.connecting) :
    Connecting down proxy w := by
  rcases live_shape h with h|⟨_,_,_,hd⟩|h|h
  · exact h
  · have hactive : w.remote.life=.active := of_decide_eq_true hd.active
    rw [hactive] at hlife
    cases hlife
  · rcases h.life with hl|hl
    · rw [hl] at hlife
      cases hlife
    · rw [hl] at hlife
      cases hlife
  · exact absurd hlife h.life

/-- The connect succeeds. -/
theorem connected_next (h : Live down proxy w) (ht : (system cfg).Turn w .connected w') :
    Next down proxy w' := by
  obtain ⟨w₀,stmts,x,hinject,heval⟩ := ht
  simp only [system,inject] at hinject
  split at hinject
  · rename_i hlife
    cases hinject
    obtain ⟨id,hid,w₁,hclient,hopening⟩ := runs_connected (connecting_of_life h hlife)
    obtain ⟨w₂,hrun,hnext⟩ := connected_active hopening
    split at heval
    · rename_i id' hid'
      obtain rfl : id=id' := Option.some.inj (hid.symm.trans hid')
      exact eval_unique heval (hclient.append hrun) ▸ hnext
    · rename_i hnone
      exact absurd (hid.symm.trans hnone) (by simp)
  · cases hinject

/-- The connect fails: nobody fails the promise. -/
theorem connectFailed_dead (h : Live down proxy w)
    (ht : (system cfg).Turn w .connectFailed w') : Dead down proxy w' := by
  obtain ⟨w₀,stmts,x,hinject,heval⟩ := ht
  simp only [system,inject] at hinject
  split at hinject
  · rename_i hlife
    cases hinject
    have hc := connecting_of_life h hlife
    have hrun : w'={ w with remote := { w.remote with life := .closed } } := by
      split at heval
      · exact eval_unique heval (runs_of_call rfl runs_nil)
      · exact eval_unique heval runs_nil
    subst hrun
    refine ⟨⟨_,down.waiting_of_eq (down.dialed hc.client) rfl rfl⟩,rfl,?_,?_⟩
    · change ∀ x∈w.handlers .remote, reacts .inactive x=false
      rw [hc.remote]
      simp [reacts]
    · have hwritten : w.written .remote=[] := by simp [World.written,hc.unwritten]
      exact spoken_nothing hc.replies hwritten hc.calm
  · cases hinject

end Connects

/-- Events of the client channel. -/
def OnClient : Event → Prop
  | .read .client _ => True
  | .peerClose .client => True
  | .ioException .client => True
  | .writeError .client => True
  | .flushed .client => True
  | .inactive .client => True
  | _ => False

section Remote

variable {cfg : Config} {w w' : World} {proxy : Proxy} {request : Socks5CommandRequest}
  {down : Downstream cfg request} {event : Event}

/-- One event of the remote side keeps an attempt in its stages, unless it is
an end that nobody reports, which makes it dead. -/
theorem live_remote (h : Live down proxy w) (ho : Orderly w) (he : ¬OnClient event)
    (ht : (system cfg).Turn w event w') :
    (Live down proxy w' ∧ ¬Unreported w event) ∨ (Dead down proxy w' ∧ Unreported w event) := by
  cases event with
  | read s data =>
    cases s with
    | client => exact absurd trivial he
    | remote => exact .inl ⟨read_remote h ht,id⟩
  | connected => exact .inl ⟨(connected_next h ht).live,id⟩
  | connectFailed => exact .inr ⟨connectFailed_dead h ht,trivial⟩
  | peerClose s =>
    cases s with
    | client => exact absurd trivial he
    | remote => exact ends_remote h (.inl rfl) ht
  | ioException s =>
    cases s with
    | client => exact absurd trivial he
    | remote => exact ends_remote h (.inr (.inl rfl)) ht
  | writeError s =>
    cases s with
    | client => exact absurd trivial he
    | remote => exact ends_remote h (.inr (.inr rfl)) ht
  | flushed s =>
    cases s with
    | client => exact absurd trivial he
    | remote => exact .inl ⟨flushed_remote h ht,id⟩
  | inactive s =>
    cases s with
    | client => exact absurd trivial he
    | remote => exact .inl ⟨inactive_remote h ho ht,id⟩

/-- Nothing on the remote side revives a dead attempt. -/
theorem dead_remote (h : Dead down proxy w) (he : ¬OnClient event)
    (ht : (system cfg).Turn w event w') : Dead down proxy w' := by
  have hactive : w.isActive .remote=false := by simp [World.isActive,World.chan,h.life]
  cases event with
  | read s data | peerClose s | ioException s | writeError s | flushed s =>
    cases s with
    | client => exact absurd trivial he
    | remote =>
      obtain ⟨w₀,stmts,x,hinject,-⟩ := ht
      simp [system,inject,hactive] at hinject
  | connected | connectFailed =>
    obtain ⟨w₀,stmts,x,hinject,-⟩ := ht
    simp [system,inject,h.life] at hinject
  | inactive s =>
    cases s with
    | client => exact absurd trivial he
    | remote =>
      obtain ⟨cs,hc⟩ := h.client
      obtain ⟨-,rfl⟩ := turn_inactive_silent h.silent ht
      refine ⟨⟨cs,down.waiting_of_eq hc rfl rfl⟩,h.life,?_,h.spoken.mono rfl List.prefix_rfl⟩
      intro x hx
      cases hx

end Remote

/-- Events of the upstream side, and of sockets and loops on both sides. -/
def Upstream : Event → Prop
  | .read .client _ => False
  | .peerClose .client => False
  | .ioException .client => False
  | .writeError .client => False
  | _ => True

section Steps

variable {cfg : Config} {w w' : World} {proxy : Proxy} {request : Socks5CommandRequest}
  {event : Event}

/-- The status of a request whose client stays open until it is refused. -/
inductive Status (request : Socks5CommandRequest) (w : World) : Prop
  | waiting {cs : List Handler} (h : Pending request cs w)
  | told (h : Succeeded request [] w)
  | refused (h : Refused request w)

theorem live_status (h : Live (openClient cfg request) proxy w) : Status request w := by
  rcases live_shape h with h|⟨_,_,_,hd⟩|h|h
  · exact .waiting (Dialing.client h.client)
  · exact .waiting hd.client
  · exact .told h.client
  · exact .refused h.client

/-- An open client has no end to be told of. -/
theorem open_inactive (ha : w.isActive .client=true) (ho : Orderly w) :
    ¬(system cfg).Turn w (.inactive .client) w' := by
  rintro ⟨w₀,stmts,x,hinject,-⟩
  have hactive : w.client.life=.active := of_decide_eq_true ha
  simp only [system,inject] at hinject
  split at hinject
  · rename_i hp
    have hclosed := ho .client hp
    rw [chan_client,hactive] at hclosed
    cases hclosed
  · cases hinject

/-- A quiet client whose socket takes its writes. -/
theorem aside_drained (hq : Quiet w .client) (hn : ¬Refused request w)
    (ht : (system cfg).Turn w (.flushed .client) w') : Aside (openClient cfg request) w w' := by
  obtain rfl := turn_flushed_quiet hq ht
  exact ⟨rfl,rfl,fun _ h => Pending.drained h,fun _ h => ⟨h.client.drained,h.listener⟩,
    fun h => Succeeded.drained h,fun h => absurd h hn⟩

/-- A step of a refused client. -/
theorem aside_refused (h : Refused request w)
    (h' : Refused request w' ∧ w'.remote=w.remote ∧ w'.log=w.log) :
    Aside (openClient cfg request) w w' := by
  obtain ⟨ctx,hp⟩ := h.promise
  have hwaiting : ∀ cs, ¬Pending request cs w := by
    intro cs hw
    obtain ⟨_,_,hpending,-⟩ := hw.promise
    rw [hp] at hpending
    cases hpending
  refine ⟨h'.2.1,h'.2.2,fun cs hw => absurd hw (hwaiting cs),
    fun _ hd => absurd hd.client (hwaiting _),fun hs => ?_,fun _ => h'.1⟩
  obtain ⟨_,hsucceeded⟩ := Succeeded.promise hs
  rw [hp] at hsucceeded
  cases hsucceeded

/-- What the event loop does on an open client does not change the status of
its request. -/
theorem open_aside (hs : Status request w) (ho : Orderly w) (hu : Upstream event)
    (hc : OnClient event) (ht : (system cfg).Turn w event w') :
    Aside (openClient cfg request) w w' := by
  have hflushed : event=.flushed .client ∨ event=.inactive .client := by
    cases event with
    | read s | peerClose s | ioException s | writeError s =>
      cases s with
      | client => exact hu.elim
      | remote => exact hc.elim
    | connected | connectFailed => exact hc.elim
    | flushed s | inactive s =>
      cases s with
      | client => simp
      | remote => exact hc.elim
  have hpending : ∀ {ctx state}, w.promise=some ⟨request,ctx,state⟩ → state≠.failed →
      ¬Refused request w := by
    rintro ctx state hp hne hr
    obtain ⟨_,hf⟩ := hr.promise
    rw [hp] at hf
    cases hf
    exact hne rfl
  rcases hflushed with rfl|rfl
  · cases hs with
    | waiting h =>
      obtain ⟨_,_,hp,-⟩ := h.promise
      exact aside_drained h.quiet (hpending hp (by simp)) ht
    | told h =>
      obtain ⟨_,hp⟩ := h.promise
      exact aside_drained h.quiet (hpending hp (by simp)) ht
    | refused h => exact aside_refused h (h.flushed ht)
  · cases hs with
    | waiting h => exact absurd ht (open_inactive h.active ho)
    | told h => exact absurd ht (open_inactive h.active ho)
    | refused h => exact aside_refused h (h.inactive ht)

/-- One upstream event keeps an attempt in its stages, unless it is an end
that nobody reports, which makes it dead. -/
theorem live_step (h : Live (openClient cfg request) proxy w) (ho : Orderly w) (hu : Upstream event)
    (ht : (system cfg).Turn w event w') :
    (Live (openClient cfg request) proxy w' ∧ ¬Unreported w event) ∨
      (Dead (openClient cfg request) proxy w' ∧ Unreported w event) := by
  by_cases hc : OnClient event
  · refine .inl ⟨live_aside h (open_aside (live_status h) ho hu hc ht),?_⟩
    cases event with
    | read s | peerClose s | ioException s | writeError s | flushed s | inactive s =>
      cases s with
      | client => exact id
      | remote => exact hc.elim
    | connected | connectFailed => exact hc.elim
  · exact live_remote h ho hc ht

/-- Nothing revives a dead attempt. -/
theorem dead_step (h : Dead (openClient cfg request) proxy w) (ho : Orderly w) (hu : Upstream event)
    (ht : (system cfg).Turn w event w') : Dead (openClient cfg request) proxy w' := by
  by_cases hc : OnClient event
  · obtain ⟨cs,hp⟩ := h.client
    exact dead_aside h (open_aside (.waiting hp) ho hu hc ht)
  · exact dead_remote h hc ht

/-- A run without unreported ends keeps an attempt in its stages. -/
theorem live_run {events : List Event} (h : Live (openClient cfg request) proxy w) (ho : Orderly w)
    (hr : (system cfg).RunUnder (fun w event => Upstream event ∧ ¬Unreported w event) w events w') :
    Live (openClient cfg request) proxy w' := by
  have hboth : Live (openClient cfg request) proxy w' ∧ Orderly w' := by
    refine hr.invariant (I:=fun w => Live (openClient cfg request) proxy w ∧ Orderly w) ?_ ⟨h,ho⟩
    intro w₁ event w₂ hw hok ht
    refine ⟨?_,hw.2.turn ht⟩
    rcases live_step hw.1 hw.2 hok.1 ht with ⟨hl,-⟩|⟨-,hun⟩
    · exact hl
    · exact absurd hun hok.2
  exact hboth.1

/-- Runs without unreported ends keep an attempt in its stages, all others
find it dead. -/
theorem attempt_run {events : List Event} (h : Live (openClient cfg request) proxy w)
    (ho : Orderly w) (hr : (system cfg).RunUnder (fun _ event => Upstream event) w events w') :
    ((system cfg).RunUnder (fun w event => Upstream event ∧ ¬Unreported w event) w events w' ∧
      Live (openClient cfg request) proxy w') ∨ Dead (openClient cfg request) proxy w' := by
  have hboth : ((system cfg).RunUnder (fun w event => Upstream event ∧ ¬Unreported w event) w events
      w' ∧ Live (openClient cfg request) proxy w' ∧ Orderly w') ∨
      (Dead (openClient cfg request) proxy w' ∧ Orderly w') := by
    refine hr.breach (I:=fun w => Live (openClient cfg request) proxy w ∧ Orderly w)
      (B:=fun w => Dead (openClient cfg request) proxy w ∧ Orderly w) ?_ ?_ ?_ ⟨h,ho⟩
    · rintro w₁ event w₂ ⟨hl,ho⟩ hu hok ht
      refine ⟨?_,ho.turn ht⟩
      rcases live_step hl ho hu ht with ⟨hl,-⟩|⟨-,hun⟩
      · exact hl
      · exact absurd hun hok.2
    · rintro w₁ event w₂ ⟨hl,ho⟩ hu hok ht
      refine ⟨?_,ho.turn ht⟩
      rcases live_step hl ho hu ht with ⟨-,hn⟩|⟨hd,-⟩
      · exact absurd ⟨hu,hn⟩ hok
      · exact hd
    · rintro w₁ event w₂ ⟨hd,ho⟩ hu ht
      exact ⟨dead_step hd ho hu ht,ho.turn ht⟩
  exact hboth.imp (fun h => ⟨h.1,h.2.1⟩) (fun h => h.1)

end Steps

end ProxyDroid.HandshakeRuns
