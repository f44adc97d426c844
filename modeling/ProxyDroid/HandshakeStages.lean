import ProxyDroid.CommandReply

/-!
# Stages of an upstream handshake

The two channels while the upstream promise of a request is pending, one
shape for each stage of the dialogue, and the shapes in which it ends. A
stage says where the bytes of the server go, which writes the socket has not
taken yet, and what the log records of the attempt.
-/

namespace ProxyDroid.HandshakeStages

open CallSemantics HandlerPipeline ConnectionTypes ConnectionHandlers ConnectionSystem
open ConnectionRules TunnelPhases CommandReply

/-- Address that the upstream handler of a proxy connects to. -/
def peer (request : Socks5CommandRequest) : Proxy → String×ℕ
  | .direct | .reject => (request.dstAddr,request.dstPort)
  | .http address port => (address,port)
  | .socks5 address port _ _ => (address,port)

/-- A reply that makes the upstream handlers fail the promise. -/
def Reported : SocksMessage → Prop
  | .initialResponse response => response.decoded=false
  | .passwordAuthResponse response => ¬(response.decoded=true ∧ response.status=statusSuccess)
  | _ => False

/-- A reply by which the server refuses the handshake. -/
def Refusing : SocksMessage → Prop
  | .initialResponse response => ¬(response.decoded=true ∧
      (response.authMethod=noAuth ∨ response.authMethod=passwordAuth))
  | .passwordAuthResponse response => ¬(response.decoded=true ∧ response.status=statusSuccess)
  | .commandResponse response => ¬(response.decoded=true ∧ response.status=statusSuccess)
  | _ => False

/-- The replies a log records, in order. -/
def repliesIn (log : List Obs) : List SocksMessage :=
  log.filterMap (fun | .reply message => some message | _ => none)

@[simp] theorem repliesIn_append (xs ys : List Obs) : repliesIn (xs++ys)=repliesIn xs++repliesIn ys := by
  simp [repliesIn]

@[simp] theorem repliesIn_reply (message : SocksMessage) : repliesIn [.reply message]=[message] := rfl

/-- A reply is heard when the log records it. -/
theorem mem_repliesIn {log : List Obs} {message : SocksMessage} :
    message∈repliesIn log ↔ .reply message∈log := by
  rw [repliesIn,List.mem_filterMap]
  constructor
  · rintro ⟨obs,hm,he⟩
    cases obs with
    | reply m => cases he; exact hm
    | _ => cases he
  · intro hm
    exact ⟨_,hm,rfl⟩

/-- The greeting of the upstream client. -/
def greeting : SocksMessage := .initialRequest [noAuth,passwordAuth]

/-- What is sent to a server that asks for the password: the message, if it can be made. -/
def credentials (userName passwd : String) : List SocksMessage :=
  if passwordAuthRequestFits userName passwd then [.passwordAuthRequest userName passwd] else []

/-- What has been said and heard when the server is ready for the request. -/
inductive Introduced (proxy : Proxy) : List SocksMessage → List SocksMessage → Prop
  /-- The server asks for no authentication. -/
  | noAuth : Introduced proxy [greeting] [.initialResponse ⟨true,noAuth⟩]
  /-- The server asks for the password and accepts it. -/
  | password {address : String} {port : ℕ} {userName passwd : String}
      (h : proxy=.socks5 address port userName passwd) :
      Introduced proxy (greeting::credentials userName passwd)
        [.initialResponse ⟨true,passwordAuth⟩,.passwordAuthResponse ⟨true,statusSuccess⟩]

/-- Neither introduction fails the promise. -/
theorem Introduced.unreported {proxy : Proxy} {said replies : List SocksMessage}
    (h : Introduced proxy said replies) : ∀ message∈replies, ¬Reported message := by
  cases h with
  | noAuth => simp [Reported]
  | password h => simp [Reported]

/-- The conversations with a SOCKS5 server: what has been said to it and what
it has answered. -/
inductive Script (proxy : Proxy) (request : Socks5CommandRequest) :
    List SocksMessage → List SocksMessage → Prop
  /-- Nothing has been said. -/
  | start : Script proxy request [] []
  /-- The client has greeted. -/
  | greeted : Script proxy request [greeting] []
  /-- The server has answered the greeting. -/
  | selected (response : InitialResponse) :
      Script proxy request [greeting] [.initialResponse response]
  /-- The server has asked for the password and has been sent it, if the message can be made. -/
  | password {address : String} {port : ℕ} {userName passwd : String}
      (h : proxy=.socks5 address port userName passwd) :
      Script proxy request (greeting::credentials userName passwd)
        [.initialResponse ⟨true,passwordAuth⟩]
  /-- The server has answered as if to the password. -/
  | judged {address : String} {port : ℕ} {userName passwd : String}
      (h : proxy=.socks5 address port userName passwd) (response : PasswordAuthResponse) :
      Script proxy request (greeting::credentials userName passwd)
        [.initialResponse ⟨true,passwordAuth⟩,.passwordAuthResponse response]
  /-- The server has been sent the request. -/
  | asked {said replies : List SocksMessage} (h : Introduced proxy said replies) :
      Script proxy request (said++[SocksMessage.commandRequest request]) replies
  /-- The server has answered the request. -/
  | answered {said replies : List SocksMessage} (h : Introduced proxy said replies)
      (response : CommandResponse) :
      Script proxy request (said++[SocksMessage.commandRequest request])
        (replies++[SocksMessage.commandResponse response])

/-- What an attempt leaves behind. -/
structure Spoken (proxy : Proxy) (request : Socks5CommandRequest) (w : World) : Prop where
  /-- The writes to the remote channel follow the script, up to those that were
  lost when it was closed. -/
  script : ∃ said, Script proxy request said (repliesIn w.log) ∧
    w.written .remote<+:said.map .encoded
  /-- No completion of the promise was refused. -/
  calm : .threw .client .illegalState∉w.log

section Spoken

variable {proxy : Proxy} {request : Socks5CommandRequest} {w w' : World}

/-- Nothing has been said and nothing heard. -/
theorem spoken_nothing (hr : repliesIn w.log=[]) (hw : w.written .remote=[])
    (hc : .threw .client .illegalState∉w.log) : Spoken proxy request w := by
  refine ⟨⟨[],?_,?_⟩,hc⟩
  · rw [hr]
    exact .start
  · rw [hw]
    exact List.prefix_rfl

/-- Writes that are lost do not break the script. -/
theorem Spoken.mono (h : Spoken proxy request w) (hlog : w'.log=w.log)
    (hwritten : w'.written .remote<+:w.written .remote) : Spoken proxy request w' := by
  obtain ⟨⟨said,hscript,hspoken⟩,hcalm⟩ := h
  exact ⟨⟨said,hlog ▸ hscript,hwritten.trans hspoken⟩,hlog ▸ hcalm⟩

/-- The script depends on what was written and on the log alone. -/
theorem Spoken.of_written (h : Spoken proxy request w) (hlog : w'.log=w.log)
    (hwritten : w'.written .remote=w.written .remote) : Spoken proxy request w' :=
  h.mono hlog (hwritten ▸ List.prefix_rfl)

/-- The script depends on the remote channel and the log alone. -/
theorem Spoken.of_remote (h : Spoken proxy request w) (hlog : w'.log=w.log)
    (hremote : w'.remote=w.remote) : Spoken proxy request w' := by
  refine h.of_written hlog ?_
  rw [World.written,World.written,chan_remote,hremote,chan_remote]

end Spoken

/-- What the log records of a connection attempt that has reached its peer. -/
structure Reached (proxy : Proxy) (request : Socks5CommandRequest) (log : List Obs) : Prop where
  /-- The proxy has a peer. -/
  kind : proxy≠.reject
  /-- The peer of the proxy is the only address connected to. -/
  target : ∀ host port, .connecting host port∈log ↔ (host,port)=peer request proxy
  /-- The connect has succeeded. -/
  connected : .connected∈log
  /-- No follow-up has been selected. -/
  fresh : ∀ isTls, .selected isTls∉log
  /-- No completion of the promise was refused. -/
  calm : .threw .client .illegalState∉log

/-- A pending request at a SOCKS5 proxy whose channel is open: the handlers of
the remote pipeline and the messages exchanged so far. -/
structure Dialogue {cfg : Config} {request : Socks5CommandRequest} (down : Downstream cfg request)
    (proxy : Proxy) (rs : List Handler) (said replies : List SocksMessage) (w : World) : Prop where
  /-- The kind of the proxy. -/
  socks : ∃ address port userName passwd, proxy=.socks5 address port userName passwd
  /-- The messages follow the script. -/
  script : Script proxy request said replies
  /-- The client waits for its answer. -/
  client : down.waiting [] w
  /-- The remote channel is open. -/
  active : w.isActive .remote=true
  /-- Handlers of the remote pipeline. -/
  remote : w.handlers .remote=rs
  /-- The attempt has reached its peer. -/
  reached : Reached proxy request w.log
  /-- Messages written to the server. -/
  said : w.written .remote=said.map .encoded
  /-- Replies of the server. -/
  heard : repliesIn w.log=replies
  /-- No reply fails the promise. -/
  unreported : ∀ message∈replies, ¬Reported message

/-- A dialogue follows the script. -/
theorem Dialogue.spoken {cfg : Config} {request : Socks5CommandRequest}
    {down : Downstream cfg request} {proxy : Proxy} {rs : List Handler}
    {said replies : List SocksMessage} {w : World} (h : Dialogue down proxy rs said replies w) :
    Spoken proxy request w :=
  ⟨⟨said,h.heard ▸ h.script,h.said ▸ List.prefix_rfl⟩,h.reached.calm⟩

/-- A handler that ignores whatever may still happen to its channel. -/
structure Inert (h : Handler) : Prop where
  /-- It ignores the end of the channel. -/
  inactive : reacts .inactive h=false
  /-- It ignores exceptions. -/
  exceptionCaught : ∀ cause, reacts (.exceptionCaught cause) h=false
  /-- It ignores the end of a read. -/
  readComplete : reacts .readComplete h=false
  /-- It passes bytes on, or takes them and does nothing. -/
  read : ∀ cfg w s id data, reacts (.read (.bytes data)) h=true →
    body cfg w s id (.read (.bytes data)) h=[]

/-- Handlers of the dialogue that have done their work. -/
def Spent (h : Handler) : Prop :=
  h=.socks5ClientEncoder ∨ h=.socks5InitialResponseDecoder .success ∨
    h=.socks5PasswordAuthResponseDecoder .success ∨ h=.socks5CommandResponseDecoder .success

theorem Spent.idle {h : Handler} (hs : Spent h) : Idle h := by
  rcases hs with rfl|rfl|rfl|rfl
  all_goals
    refine ⟨fun event => ?_,fun message hm => ?_⟩
    · cases event with
      | read message => cases message <;> rfl
      | _ => rfl
    · cases message with
      | socks m => exact absurd rfl (hm m)
      | _ => rfl

/-- An idle handler takes nothing. -/
theorem inert_of_idle {h : Handler} (hi : Idle h) : Inert h where
  inactive := hi.1 _
  exceptionCaught := fun _ => hi.1 _
  readComplete := hi.1 _
  read := fun _ _ _ _ data hr => absurd hr (by simp [hi.1])

/-- The handlers of the replies take no bytes, and a decoder that has failed
drops them. -/
theorem inert_of_waiting {h : Handler} (hh : h=.socks5InitialResponseDecoder .failure ∨
    h=.socks5PasswordAuthResponseDecoder .failure ∨ h=.socks5CommandResponseDecoder .failure ∨
    (∃ userName passwd request, h=.socks5InitialResponseHandler userName passwd request) ∨
    (∃ request, h=.socks5PasswordAuthResponseHandler request) ∨ h=.socksCommandResponseHandler) :
    Inert h := by
  rcases hh with rfl|rfl|rfl|⟨_,_,_,rfl⟩|⟨_,rfl⟩|rfl
  all_goals exact ⟨rfl,fun _ => rfl,rfl,fun _ _ _ _ _ hr => by first | rfl | cases hr⟩

section Stages

variable {cfg : Config} {request : Socks5CommandRequest} (down : Downstream cfg request)
  (proxy : Proxy) (w : World)

/-- The connect of the remote channel is in progress. -/
structure Connecting : Prop where
  /-- The proxy has a peer. -/
  kind : proxy≠.reject
  /-- The client waits; the upstream handler is still in its pipeline. -/
  client : down.dialing proxy w
  /-- The remote channel is not open yet. -/
  life : w.remote.life=.connecting
  /-- Its only handler. -/
  remote : w.handlers .remote=[.connectHandler proxy request]
  /-- Nothing has been written to it. -/
  unwritten : w.remote.queue=[] ∧ w.remote.sent=[]
  /-- The peer of the proxy is the only address connected to. -/
  target : ∀ host port, .connecting host port∈w.log ↔ (host,port)=peer request proxy
  /-- No reply has arrived. -/
  replies : repliesIn w.log=[]
  /-- No follow-up has been selected. -/
  fresh : ∀ isTls, .selected isTls∉w.log
  /-- No completion of the promise was refused. -/
  calm : .threw .client .illegalState∉w.log

/-- The greeting waits in the queue of the socket. -/
def Greeting : Prop :=
  ∃ id address port userName passwd, proxy=.socks5 address port userName passwd ∧
    Dialogue down proxy [.socksClientInitializer userName passwd request,.socks5ClientEncoder]
      [greeting] [] w ∧
    (w.pipe .remote).Located id [] (.socksClientInitializer userName passwd request)
      [.socks5ClientEncoder] ∧
    w.remote.queue=[(.encoded greeting,.greetingSent id userName passwd request)]

/-- The method selection is awaited. -/
def InMethod (buffered : Bytes) : Prop :=
  ∃ address port userName passwd, proxy=.socks5 address port userName passwd ∧
    Dialogue down proxy [.socks5ClientEncoder,.socks5InitialResponseDecoder (.init buffered),
      .socks5InitialResponseHandler userName passwd request] [greeting] [] w ∧ Quiet w .remote

/-- The answer to the password is awaited. -/
def InAuth (buffered : Bytes) : Prop :=
  ∃ address port userName passwd, proxy=.socks5 address port userName passwd ∧
    Dialogue down proxy [.socks5ClientEncoder,.socks5InitialResponseDecoder .success,
      .socks5PasswordAuthResponseDecoder (.init buffered),
      .socks5PasswordAuthResponseHandler request]
      (greeting::credentials userName passwd) [.initialResponse ⟨true,passwordAuth⟩] w ∧
    Quiet w .remote

/-- The request waits in the queue of the socket. -/
def Requesting : Prop :=
  ∃ id hs h said replies entries, Introduced proxy said replies ∧
    Dialogue down proxy (hs++[h]) (said++[SocksMessage.commandRequest request]) replies w ∧
    (∀ x∈hs, Spent x) ∧ Inert h ∧ (w.pipe .remote).Located id hs h [] ∧
    w.remote.queue=entries++[(.encoded (.commandRequest request),.requestSent id)] ∧
    ∀ entry∈entries, entry.2=.none

/-- The socket has taken the request and its reply is awaited. -/
def InCommand (buffered : Bytes) : Prop :=
  ∃ hs said replies, Introduced proxy said replies ∧
    Dialogue down proxy (hs++[Handler.socks5CommandResponseDecoder (.init buffered),
      .socksCommandResponseHandler]) (said++[SocksMessage.commandRequest request]) replies w ∧
    (∀ h∈hs, Spent h) ∧ Quiet w .remote ∧ .encoded (.commandRequest request)∈w.remote.sent

/-- A reply without effect has ended the dialogue. -/
def Stalled : Prop :=
  ∃ rs said replies, Dialogue down proxy rs said replies w ∧ (∀ h∈rs, Inert h) ∧
    Quiet w .remote ∧ ∀ response, .commandResponse response∈replies → response.decoded=false

/-- The exchange by which the promise came to succeed: none, or the whole
dialogue up to the reply to the request. -/
def Answered (request : Socks5CommandRequest) : Prop :=
  match proxy with
  | .socks5 _ _ _ _ => ∃ said replies response, Introduced proxy said replies ∧
      response.decoded=true ∧ repliesIn w.log=replies++[SocksMessage.commandResponse response] ∧
      .encoded (.commandRequest request)∈w.remote.sent ∧
      ∀ message∈w.written .remote, message∈(said++[SocksMessage.commandRequest request]).map Msg.encoded
  | _ => w.written .remote=[] ∧ repliesIn w.log=[]

/-- The promise has succeeded. -/
structure Opened : Prop where
  /-- The client has been told. -/
  client : down.told w
  /-- The remote handlers have done their work. -/
  remote : ∀ h∈w.handlers .remote, Idle h
  /-- No write to the remote waits with a listener. -/
  quiet : Quiet w .remote
  /-- The remote channel has been open. -/
  life : w.remote.life=.active ∨ w.remote.life=.closed
  /-- The attempt has reached its peer. -/
  reached : Reached proxy request w.log
  /-- The exchange with the peer. -/
  answered : Answered proxy w request
  /-- The writes to the peer. -/
  spoken : Spoken proxy request w

/-- The promise has failed. -/
structure Failed : Prop where
  /-- The client has been told. -/
  client : down.refused w
  /-- No write to the remote waits with a listener. -/
  quiet : Quiet w .remote
  /-- No connect is in progress. -/
  life : w.remote.life≠.connecting
  /-- The remote handlers ignore the end of a read and of their channel. -/
  silent : ∀ h∈w.handlers .remote, reacts .inactive h=false ∧ reacts .readComplete h=false
  /-- The remote handlers ignore everything while the channel is open. -/
  inert : w.isActive .remote=true → ∀ h∈w.handlers .remote, Inert h
  /-- The server has refused by replies that fail the promise only. -/
  replies : ∀ message∈repliesIn w.log, Refusing message → Reported message
  /-- The writes to the peer. -/
  spoken : Spoken proxy request w

/-- The remote channel is closed and nobody has failed the promise. -/
structure Dead : Prop where
  /-- The client waits for ever. -/
  client : ∃ cs, down.waiting cs w
  /-- The remote channel is closed. -/
  life : w.remote.life=.closed
  /-- The remote handlers ignore the end of their channel. -/
  silent : ∀ h∈w.handlers .remote, reacts .inactive h=false
  /-- The writes to the peer. -/
  spoken : Spoken proxy request w

/-- Stages of an attempt whose failures have all been reported so far, as far
as the handlers report them. -/
inductive Live : Prop
  | connecting (h : Connecting down proxy w)
  | greeting (h : Greeting down proxy w)
  | method (buffered : Bytes) (h : InMethod down proxy w buffered)
  | auth (buffered : Bytes) (h : InAuth down proxy w buffered)
  | requesting (h : Requesting down proxy w)
  | command (buffered : Bytes) (h : InCommand down proxy w buffered)
  | stalled (h : Stalled down proxy w)
  | opened (h : Opened down proxy w)
  | failed (h : Failed down proxy w)

/-- Where bytes of the server or the connect lead: the dialogue goes on, the
promise has succeeded on an open channel, or a reply has failed it. -/
inductive Next : Prop
  | dialogue {rs : List Handler} {said replies : List SocksMessage} (h : Live down proxy w)
      (hd : Dialogue down proxy rs said replies w)
  | opened (h : Opened down proxy w) (ha : w.isActive .remote=true)
  | failed (h : Failed down proxy w) (hr : ∃ message∈repliesIn w.log, Reported message)

end Stages

/-- These are stages. -/
theorem Next.live {cfg : Config} {request : Socks5CommandRequest} {down : Downstream cfg request}
    {proxy : Proxy} {w : World}
    (h : Next down proxy w) : Live down proxy w := by
  cases h with
  | dialogue h hd => exact h
  | opened h ha => exact .opened h
  | failed h hr => exact .failed h

section Decoders

variable {cfg : Config} {w w' : World} {proxy : Proxy} {request : Socks5CommandRequest}
  {down : Downstream cfg request} {rs rs' pre post : List Handler}
  {said replies : List SocksMessage} {buffered data : Bytes}
  {h handler : Handler} {id : ℕ}

/-- A step of the remote handlers that writes nothing. -/
theorem Dialogue.of_remote (seen : List Obs) (hd : Dialogue down proxy rs said replies w)
    (hc : w'.client=w.client) (hp : w'.promise=w.promise) (ha : w'.isActive .remote=true)
    (hr : w'.handlers .remote=rs') (hw : w'.written .remote=w.written .remote)
    (hlog : w'.log=w.log++seen) (hseen : ∀ obs∈seen, ∃ message, obs=.reply message)
    (hs : ∀ message∈repliesIn seen, ¬Reported message)
    (hscript : Script proxy request said (replies++repliesIn seen)) :
    Dialogue down proxy rs' said (replies++repliesIn seen) w' where
  socks := hd.socks
  client := down.waiting_of_eq hd.client hc hp
  active := ha
  remote := hr
  reached := by
    refine ⟨hd.reached.kind,fun host port => ?_,?_,fun isTls hm => ?_,fun hm => ?_⟩
    · rw [hlog,List.mem_append,←hd.reached.target host port]
      refine ⟨fun hm => hm.resolve_right (fun hm => ?_),Or.inl⟩
      obtain ⟨message,he⟩ := hseen _ hm
      cases he
    · rw [hlog]
      exact List.mem_append_left _ hd.reached.connected
    · rw [hlog] at hm
      rcases List.mem_append.mp hm with hm|hm
      · exact hd.reached.fresh isTls hm
      · obtain ⟨message,he⟩ := hseen _ hm
        cases he
    · rw [hlog] at hm
      rcases List.mem_append.mp hm with hm|hm
      · exact hd.reached.calm hm
      · obtain ⟨message,he⟩ := hseen _ hm
        cases he
  said := hw.trans hd.said
  heard := by rw [hlog,repliesIn_append,hd.heard]
  unreported := by
    intro message hm
    rcases List.mem_append.mp hm with hm|hm
    · exact hd.unreported message hm
    · exact hs message hm
  script := hscript

/-- A step of the remote handlers that writes and records nothing. -/
theorem Dialogue.of_silent (hd : Dialogue down proxy rs said replies w)
    (hc : w'.client=w.client) (hp : w'.promise=w.promise) (ha : w'.isActive .remote=true)
    (hr : w'.handlers .remote=rs') (hw : w'.written .remote=w.written .remote)
    (hlog : w'.log=w.log) : Dialogue down proxy rs' said replies w' := by
  have hd' := hd.of_remote [] hc hp ha hr hw (by simpa using hlog) (by simp) (by simp [repliesIn])
    (by simpa [repliesIn] using hd.script)
  simpa [repliesIn] using hd'

/-- A message in the queue of a dialogue. -/
theorem Dialogue.queued (hd : Dialogue down proxy rs said replies w)
    (message : SocksMessage) (listener : Listener)
    (hscript : Script proxy request (said++[message]) replies) :
    Dialogue down proxy rs (said++[message]) replies
      (w.enqueue .remote (.encoded message) listener).attempt where
  socks := hd.socks
  client := down.waiting_of_eq hd.client rfl rfl
  active := hd.active
  remote := hd.remote
  reached := hd.reached
  said := by
    have hw : (w.enqueue .remote (.encoded message) listener).attempt.written .remote=
        w.written .remote++[Msg.encoded message] := by
      simp [World.attempt,World.enqueue,World.upd,World.written]
    rw [hw,hd.said,List.map_append,List.map_singleton]
  heard := hd.heard
  unreported := hd.unreported
  script := hscript

/-- The socket takes the queue of a dialogue. -/
theorem Dialogue.drained (hd : Dialogue down proxy rs said replies w) :
    Dialogue down proxy rs said replies (w.takeQueue .remote) := by
  refine hd.of_silent rfl rfl hd.active hd.remote ?_ rfl
  simp [World.takeQueue,World.upd,World.written]

/-- A reply is recorded and handed to the next handler. -/
abbrev emitReply (id : ℕ) (reply : SocksMessage) : List Stmt :=
  [.noteReply reply,fireRead .remote id (.socks reply)]

theorem body_initial {state : DecoderState} : body cfg w .remote id (.read (.bytes data))
    (.socks5InitialResponseDecoder state)=decodeOnce .remote id .socks5InitialResponseDecoder
      (fun result => emitReply id (.initialResponse (initialReply result)))
      cfg.parseInitialResponse state data := rfl

theorem body_auth {state : DecoderState} : body cfg w .remote id (.read (.bytes data))
    (.socks5PasswordAuthResponseDecoder state)=
      decodeOnce .remote id .socks5PasswordAuthResponseDecoder
        (fun result => emitReply id (.passwordAuthResponse (authReply result)))
        cfg.parsePasswordAuthResponse state data := rfl

theorem body_command {state : DecoderState} : body cfg w .remote id (.read (.bytes data))
    (.socks5CommandResponseDecoder state)=decodeOnce .remote id .socks5CommandResponseDecoder
      (fun result => emitReply id (.commandResponse (commandReply result)))
      cfg.parseCommandResponse state data := rfl

/-- State in which the handler of a reply starts: the decoder has its new
state and the reply is recorded. -/
def afterEmit (w : World) (id : ℕ) (h : Handler) (reply : SocksMessage) : World :=
  (w.updPipe .remote (fun p => p.assign id h)).note (.reply reply)

/-- A decoder that emits a reply hands it to the handler behind it. -/
theorem runs_emit (cfg : Config) (h' : Handler) (reply : SocksMessage)
    (hl : (w.pipe .remote).Located id pre h (handler::post))
    (hr : reacts (.read (.socks reply)) handler=true) :
    ((afterEmit w id h' reply).pipe .remote).Located id pre h' (handler::post) ∧
      ∃ id', ((afterEmit w id h' reply).pipe .remote).Located id' (pre++[h']) handler post ∧
        ∀ w', Takes cfg (afterEmit w id h' reply) .remote id' (.read (.socks reply)) handler w' →
          Runs cfg w (.assign .remote id h'::emitReply id reply) w' := by
  have hle : ((afterEmit w id h' reply).pipe .remote).Located id pre h' (handler::post) := by
    simpa [afterEmit] using hl.assign h'
  obtain ⟨id',hl',hfire⟩ := perform_ctxFire cfg (.read (.socks reply)) [] hle (by simp) hr
  refine ⟨hle,id',hl',fun w' htakes => ?_⟩
  have hnote : Runs cfg (w.updPipe .remote (fun p => p.assign id h')) [.noteReply reply]
      (afterEmit w id h' reply) := runs_of_done rfl
  exact runs_assign.cons (hnote.cons (htakes _ hfire))

/-- A dialogue in which a decoder has emitted a reply that fails nothing. -/
theorem Dialogue.emitted {reply : SocksMessage} (hd : Dialogue down proxy rs said replies w)
    (hl : ((afterEmit w id h reply).pipe .remote).Located id pre h post) (hr : ¬Reported reply)
    (hscript : Script proxy request said (replies++[reply])) :
    Dialogue down proxy (pre++h::post) said (replies++[reply]) (afterEmit w id h reply) := by
  refine hd.of_remote [.reply reply] rfl rfl hd.active hl.handlers ?_ rfl ?_ ?_ hscript
  · simp [afterEmit]
  · intro obs hm
    exact ⟨reply,List.mem_singleton.mp hm⟩
  · intro message hm
    rw [repliesIn_reply] at hm
    rw [List.mem_singleton.mp hm]
    exact hr

/-- Every reply of a dialogue is part of the script. -/
theorem Dialogue.spoken_emitted {reply : SocksMessage} (hd : Dialogue down proxy rs said replies w)
    (hscript : Script proxy request said (replies++[reply])) :
    Spoken proxy request (afterEmit w id h reply) := by
  refine ⟨⟨said,?_,?_⟩,?_⟩
  · rw [afterEmit,note_log,updPipe_log,repliesIn_append,hd.heard]
    exact hscript
  · have hw : (afterEmit w id h reply).written .remote=said.map .encoded := by
      rw [afterEmit,note_written,updPipe_written,hd.said]
    exact hw ▸ List.prefix_rfl
  · rw [afterEmit,note_log,updPipe_log]
    simpa using hd.reached.calm

/-- Bytes left behind a decoder that nobody takes. -/
theorem runs_fireRest_none (cfg : Config) (rest : Bytes)
    (hl : (w.pipe .remote).Located id pre h post)
    (hpost : ∀ x∈post, reacts (.read (.bytes rest)) x=false) :
    Runs cfg w (fireRest .remote id rest) w := by
  unfold fireRest
  split
  · exact runs_nil
  · exact runs_ctxFire_none hl hpost

/-- Bytes left behind a decoder go to the next decoder, if there are any. -/
theorem runs_fireRest {P : World → Prop} (cfg : Config) (rest : Bytes)
    (hl : (w.pipe .remote).Located id pre h (handler::post))
    (hr : reacts (.read (.bytes rest)) handler=true) (hp : P w)
    (ht : ∀ id', (w.pipe .remote).Located id' (pre++[h]) handler post →
      ∃ w', Takes cfg w .remote id' (.read (.bytes rest)) handler w' ∧ P w') :
    ∃ w', Runs cfg w (fireRest .remote id rest) w' ∧ P w' := by
  unfold fireRest
  split
  · exact ⟨w,runs_nil,hp⟩
  · obtain ⟨id',hl',hfire⟩ := perform_ctxFire cfg (.read (.bytes rest)) [] hl (by simp) hr
    obtain ⟨w',htakes,hp'⟩ := ht id' hl'
    exact ⟨w',htakes _ hfire,hp'⟩

end Decoders

end ProxyDroid.HandshakeStages
