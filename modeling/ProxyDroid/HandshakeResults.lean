import ProxyDroid.HandshakeRuns

/-!
# What the client is told about an upstream attempt

Results about every run of upstream events after a CONNECT request. A failed
attempt is reported exactly when its end is one that a handler of the upstream
takes. A success reply stands for a tunnel to the requested destination exactly
when the upstream connects to it or its server has answered with success.
-/

namespace ProxyDroid.HandshakeResults

open CallSemantics HandlerPipeline ConnectionTypes ConnectionHandlers ConnectionSystem
open ConnectionRules ConnectionInvariants CommandReply HandshakeStages HandshakeEvents HandshakeRuns

/-- A client has greeted and asked for a connection, and nothing else has
happened yet. -/
def Requested (cfg : Config) (request : Socks5CommandRequest) (w : World) : Prop :=
  ∃ rest methods command, cfg.parseInitialRequest (0x05::rest)=.message methods [] ∧
    cfg.parseCommandRequest command=.message request [] ∧ request.type=.connect ∧
    (system cfg).Run accepted [.read .client (0x05::rest),.read .client command] w

/-- The proxy that the rules in force name for a request. -/
abbrev upstream (cfg : Config) (request : Socks5CommandRequest) : Proxy :=
  UpstreamMatchHandler.matchUpstream cfg.rules request

/-- A run of upstream events. -/
abbrev UpstreamRun (cfg : Config) (w : World) (events : List Event) (w' : World) : Prop :=
  (system cfg).RunUnder (fun _ event => Upstream event) w events w'

/-- What the sample client sends. -/
def sampleAsk : List Event := [.read .client sampleGreeting,.read .client sampleCommand]

/-- State in which the request of the sample client is waiting. -/
def sampleAsked (cfg : Config) : World := ((system cfg).execute 40 accepted sampleAsk).getD accepted

/-- Where upstream events lead from there. -/
def sampleAttempt (cfg : Config) (events : List Event) : World :=
  ((system cfg).execute 40 (sampleAsked cfg) events).getD accepted

/-- Rules that name one proxy for every host. -/
def proxyRules (proxy : Proxy) : Rules where
  proxylist := fun _ => some proxy
  proxyMatcher := fun _ => some "proxy"
  mitmConfig := none

/-- A SOCKS5 proxy. -/
def sampleSocks5 : Proxy := .socks5 "10.0.0.1" 1080 "user" "secret"

/-- The sample configuration with decoders for the replies of a SOCKS5 server. -/
def attemptConfig (proxy : Proxy) : Config :=
  { sampleConfig (proxyRules proxy) with
    parseInitialResponse := fun
      | [0x05,method] => .message method []
      | _ => .incomplete
    parsePasswordAuthResponse := fun
      | [0x01,status] => .message status []
      | _ => .incomplete
    parseCommandResponse := fun
      | [0x05,status,0x00,0x01,0x00,0x00,0x00,0x00,0x00,0x00] =>
        .message ⟨true,status,0x01,some "0.0.0.0",0⟩ []
      | _ => .incomplete }

theorem requested_sample (proxy : Proxy) (h : ((system (attemptConfig proxy)).execute 40 accepted
    sampleAsk).isSome=true) :
    Requested (attemptConfig proxy) sampleRequest (sampleAsked (attemptConfig proxy)) :=
  ⟨[0x01,0x00],[noAuth],sampleCommand,rfl,rfl,rfl,System.execute_run accepted h⟩

theorem attempt_sample {cfg : Config} {events : List Event}
    (h : ((system cfg).execute 40 (sampleAsked cfg) events).isSome=true)
    (hu : ∀ event∈events, Upstream event) :
    UpstreamRun cfg (sampleAsked cfg) events (sampleAttempt cfg events) :=
  System.RunUnder.of_events (System.execute_run accepted h) hu

section Attempts

variable {cfg : Config} {request : Socks5CommandRequest} {w w₀ : World} {events : List Event}

theorem orderly_accepted : Orderly accepted := by
  intro s hp
  cases s <;> cases hp

/-- The request is read from a client whose greeting has been answered. -/
theorem requested_turn (h : Requested cfg request w) : ∃ command queue sent,
    cfg.parseCommandRequest command=.message request [] ∧ request.type=.connect ∧
      (∀ entry∈queue, entry.2=.none) ∧
      (∀ message∈sent++queue.map Prod.fst, Preliminary message) ∧
      (system cfg).Turn (answered queue sent 1) (.read .client command) w ∧ Orderly w := by
  obtain ⟨rest,methods,command,hgreeting,hcommand,hconnect,hrun⟩ := h
  have hsplit : (system cfg).Run accepted ([.read .client (0x05::rest)]++[.read .client command]) w :=
    hrun
  obtain ⟨w₁,hrun₁,-,hturn⟩ := hsplit.last
  have hfirst : (system cfg).Run accepted ([]++[.read .client (0x05::rest)]) w₁ := hrun₁
  obtain ⟨w₂,hrun₂,-,hturn₁⟩ := hfirst.last
  obtain rfl := hrun₂.eq_of_nil
  obtain ⟨queue,sent,hturn₂,hq,hw⟩ := read_greeting hgreeting
  obtain rfl := hturn₁.deterministic hturn₂
  exact ⟨command,queue,sent,hcommand,hconnect,hq,hw,hturn,
    (orderly_accepted.turn hturn₁).turn hturn⟩

/-- A request starts an attempt. -/
theorem requested_live (h : Requested cfg request w) :
    Live (openClient cfg request) (upstream cfg request) w ∧ Orderly w := by
  obtain ⟨command,queue,sent,hcommand,hconnect,hq,hw,hturn,ho⟩ := requested_turn h
  obtain ⟨w₃,hturn₃,hlive⟩ := request_live hq hw hcommand hconnect
  obtain rfl := hturn.deterministic hturn₃
  exact ⟨hlive,ho⟩

/-- The attempt is over without a usable tunnel: the remote channel is closed
and the promise has not succeeded, the server has refused, or the rules do. -/
def AttemptOver (proxy : Proxy) (w : World) : Prop :=
  (w.remote.life=.closed ∧ ∀ promise, w.promise=some promise → promise.state≠.succeeded) ∨
    (∃ message, .reply message∈w.log ∧ Refusing message) ∨ proxy=.reject

/-- The promise is failed, the client has been sent the failure reply and its
channel is closed. -/
def ToldFailure (request : Socks5CommandRequest) (w : World) : Prop :=
  (∃ ctx, w.promise=some ⟨request,ctx,.failed⟩) ∧
    .encoded (failureReply request)∈w.client.sent ∧ w.client.life=.closed

/-- Every end of the attempt was one that a handler takes, and the server has
refused by replies that their handlers take for a refusal only. -/
def AllReported (cfg : Config) (w₀ : World) (events : List Event) (w : World) : Prop :=
  (system cfg).RunUnder (fun w event => Upstream event ∧ ¬Unreported w event) w₀ events w ∧
    ∀ message, .reply message∈w.log → Refusing message → Reported message

/-- The failure reply of a failed attempt has been sent once nothing is pending. -/
theorem failed_told (h : Failed (openClient cfg request) proxy w) (hq : Quiescent w) : ToldFailure request w := by
  obtain ⟨before,after,hwritten,-,-⟩ := h.client.written
  have hclosed : w.client.life=.closed ∧ w.client.queue=[] := by
    rcases h.client.closing with hclosed|⟨hactive,entries,hqueue,-⟩
    · exact hclosed
    · have hnil : w.client.queue=[] := hq.queue (s:=.client) (decide_eq_true hactive)
      rw [hnil] at hqueue
      exact absurd hqueue (by simp)
  refine ⟨h.client.promise,?_,hclosed.1⟩
  have hsent : w.written .client=w.client.sent := by simp [World.written,hclosed.2]
  rw [←hsent,hwritten]
  simp

/-- No reply of an opened attempt fails the promise. -/
theorem opened_unreported {proxy : Proxy} (h : Opened (openClient cfg request) proxy w) :
    ∀ message∈repliesIn w.log, ¬Reported message := by
  have hanswered := h.answered
  cases proxy with
  | direct | reject | http =>
    obtain ⟨-,hnone⟩ := hanswered
    simp [hnone]
  | socks5 address port userName passwd =>
    obtain ⟨said,replies,response,hi,-,hheard,-,-⟩ := hanswered
    rw [hheard]
    intro message hm
    rcases List.mem_append.mp hm with hm|hm
    · exact hi.unreported message hm
    · rw [List.mem_singleton.mp hm]
      simp [Reported]

/-- An attempt that is over, with nothing pending and no end or refusal that
nobody takes, has failed. -/
theorem over_failed {proxy : Proxy} (h : Live (openClient cfg request) proxy w) (hq : Quiescent w)
    (hover : AttemptOver proxy w)
    (hreplies : ∀ message, .reply message∈w.log → Refusing message → Reported message) :
    Failed (openClient cfg request) proxy w := by
  rcases live_shape h with h|⟨rs,said,replies,hd⟩|h|h
  · exact absurd h.life hq.life
  · rcases hover with ⟨hclosed,-⟩|⟨message,hm,href⟩|hreject
    · have hactive : w.remote.life=.active := of_decide_eq_true hd.active
      rw [hactive] at hclosed
      cases hclosed
    · have hmem : message∈replies := hd.heard ▸ mem_repliesIn.mpr hm
      exact absurd (hreplies message hm href) (hd.unreported message hmem)
    · exact absurd hreject hd.reached.kind
  · rcases hover with ⟨-,hnot⟩|⟨message,hm,href⟩|hreject
    · obtain ⟨ctx,hpromise⟩ := h.client.promise
      exact absurd rfl (hnot _ hpromise)
    · exact absurd (hreplies message hm href)
        (opened_unreported h message (mem_repliesIn.mpr hm))
    · exact absurd hreject h.reached.kind
  · exact h

/-- An attempt whose promise has failed is in the failed stage. -/
theorem failed_of_promise {proxy : Proxy} {ctx : ℕ} (h : Live (openClient cfg request) proxy w)
    (hp : w.promise=some ⟨request,ctx,.failed⟩) : Failed (openClient cfg request) proxy w := by
  rcases live_shape h with h|⟨_,_,_,hd⟩|h|h
  · obtain ⟨_,_,hpending,-⟩ := h.client.client.promise
    rw [hp] at hpending
    cases hpending
  · obtain ⟨_,_,hpending,-⟩ := hd.client.promise
    rw [hp] at hpending
    cases hpending
  · obtain ⟨_,hsucceeded⟩ := h.client.promise
    rw [hp] at hsucceeded
    cases hsucceeded
  · exact h

/-- In every state of every upstream run in which the attempt is over and
nothing is pending, the client has been told of the failure exactly when all
ends and refusals were taken by a handler. -/
theorem failed_attempt_reported_iff (hstart : Requested cfg request w₀)
    (hrun : UpstreamRun cfg w₀ events w) (hq : Quiescent w)
    (hover : AttemptOver (upstream cfg request) w) :
    ToldFailure request w ↔ AllReported cfg w₀ events w := by
  obtain ⟨hlive,ho⟩ := requested_live hstart
  constructor
  · rintro ⟨⟨ctx,hpromise⟩,-,-⟩
    rcases attempt_run hlive ho hrun with ⟨hreported,hl⟩|hdead
    · have hfailed := failed_of_promise hl hpromise
      exact ⟨hreported,fun message hm => hfailed.replies message (mem_repliesIn.mpr hm)⟩
    · obtain ⟨cs,hpending⟩ := hdead.client
      obtain ⟨_,_,hp,-⟩ := hpending.promise
      rw [hpromise] at hp
      cases hp
  · rintro ⟨hreported,hreplies⟩
    have hl := live_run hlive ho hreported
    exact failed_told (over_failed hl hq hover hreplies) hq


/-- A server that asks for the password and refuses it. -/
def passwordRefused : List Event :=
  [.connected,.read .remote [0x05,0x02],.read .remote [0x01,0x01],.inactive .client]

/-- The refusal of the password is reported. -/
theorem refused_password_reported :
    ToldFailure sampleRequest (sampleAttempt (attemptConfig sampleSocks5) passwordRefused) ∧
      AllReported (attemptConfig sampleSocks5) (sampleAsked (attemptConfig sampleSocks5))
        passwordRefused (sampleAttempt (attemptConfig sampleSocks5) passwordRefused) := by
  have hrun : UpstreamRun (attemptConfig sampleSocks5) (sampleAsked (attemptConfig sampleSocks5))
      passwordRefused _ := attempt_sample rfl (by simp [passwordRefused,Upstream])
  have hq : Quiescent (sampleAttempt (attemptConfig sampleSocks5) passwordRefused) :=
    ⟨rfl,fun s => by cases s <;> exact ⟨rfl,rfl⟩⟩
  have hlog : (sampleAttempt (attemptConfig sampleSocks5) passwordRefused).log=
      [.connecting "10.0.0.1" 1080,.connected,.reply (.initialResponse ⟨true,passwordAuth⟩),
        .reply (.passwordAuthResponse ⟨true,0x01⟩)] := rfl
  have hover : AttemptOver (upstream (attemptConfig sampleSocks5) sampleRequest)
      (sampleAttempt (attemptConfig sampleSocks5) passwordRefused) := by
    refine .inr (.inl ⟨.passwordAuthResponse ⟨true,0x01⟩,?_,?_⟩)
    · rw [hlog]
      simp
    · simp [Refusing,statusSuccess]
  have hiff := failed_attempt_reported_iff (requested_sample sampleSocks5 rfl) hrun hq hover
  have htold : ToldFailure sampleRequest
      (sampleAttempt (attemptConfig sampleSocks5) passwordRefused) := ⟨⟨6,rfl⟩,by
    have hsent : (sampleAttempt (attemptConfig sampleSocks5) passwordRefused).client.sent=
      [.encoded (.initialResponse ⟨true,noAuth⟩),.encoded (failureReply sampleRequest),.bytes []] := rfl
    rw [hsent]
    simp,rfl⟩
  exact ⟨htold,hiff.mp htold⟩

/-- A connect that fails leaves the client waiting. -/
theorem failed_connect_unreported :
    Requested (attemptConfig .direct) sampleRequest (sampleAsked (attemptConfig .direct)) ∧
      UpstreamRun (attemptConfig .direct) (sampleAsked (attemptConfig .direct)) [.connectFailed]
        (sampleAttempt (attemptConfig .direct) [.connectFailed]) ∧
      Quiescent (sampleAttempt (attemptConfig .direct) [.connectFailed]) ∧
      AttemptOver .direct (sampleAttempt (attemptConfig .direct) [.connectFailed]) ∧
      (sampleAttempt (attemptConfig .direct) [.connectFailed]).promise=
        some ⟨sampleRequest,6,.pending⟩ ∧
      (sampleAttempt (attemptConfig .direct) [.connectFailed]).client.sent=
        [.encoded (.initialResponse ⟨true,noAuth⟩)] ∧
      (sampleAttempt (attemptConfig .direct) [.connectFailed]).client.life=.active ∧
      ¬ToldFailure sampleRequest (sampleAttempt (attemptConfig .direct) [.connectFailed]) := by
  have hpromise : (sampleAttempt (attemptConfig .direct) [.connectFailed]).promise=
      some ⟨sampleRequest,6,.pending⟩ := rfl
  refine ⟨requested_sample .direct rfl,attempt_sample rfl (by simp [Upstream]),
    ⟨rfl,fun s => by cases s <;> exact ⟨rfl,rfl⟩⟩,.inl ⟨rfl,?_⟩,hpromise,rfl,rfl,?_⟩
  · intro promise hp
    rw [hpromise] at hp
    cases hp
    simp
  · rintro ⟨⟨ctx,hp⟩,-⟩
    rw [hpromise] at hp
    cases hp

/-- A command response with status SUCCESS has been written to the client. -/
def ToldSuccess (w : World) : Prop :=
  ∃ response, .encoded (.commandResponse response)∈w.written .client ∧
    response.status=statusSuccess

/-- Bytes of a text. -/
def textBytes (text : String) : Bytes := text.toUTF8.data.toList

/-- The remote server has been sent a CONNECT for the destination. -/
def AskedTunnel (request : Socks5CommandRequest) (w : World) : Prop :=
  ∃ data, .bytes data∈w.remote.sent ∧
    textBytes ("CONNECT "++request.dstAddr++":"++toString request.dstPort++" ")<+:data

/-- An HTTP response that accepts a CONNECT. -/
def AcceptsTunnel (data : Bytes) : Prop :=
  textBytes "HTTP/1.1 2"<+:data ∨ textBytes "HTTP/1.0 2"<+:data

/-- There is a tunnel to the destination of the request: a connection to it, a
SOCKS5 server that was sent the request and answered SUCCESS, or an HTTP proxy
that was asked for the tunnel and accepted. -/
def RealTunnel (request : Socks5CommandRequest) (events : List Event) (w : World) : Prop :=
  (.connecting request.dstAddr request.dstPort∈w.log ∧ .connected∈w.log) ∨
    (.encoded (.commandRequest request)∈w.remote.sent ∧
      ∃ response, .reply (.commandResponse response)∈w.log ∧ response.decoded=true ∧
        response.status=statusSuccess) ∨
    (AskedTunnel request w ∧ ∃ data, .read .remote data∈events ∧ AcceptsTunnel data)

/-- The upstream connects to the destination itself, or is a SOCKS5 proxy whose
server has answered no request with another status than SUCCESS. -/
def SoundUpstream (proxy : Proxy) (request : Socks5CommandRequest) (log : List Obs) : Prop :=
  peer request proxy=(request.dstAddr,request.dstPort) ∨
    ((∃ address port userName passwd, proxy=.socks5 address port userName passwd) ∧
      ∀ response, .reply (.commandResponse response)∈log → response.decoded=true →
        response.status=statusSuccess)

theorem told_of_written {messages : List Msg} (h : w.written .client=messages)
    (hm : .encoded (successReply request)∈messages) : ToldSuccess w := ⟨_,h.symm ▸ hm,rfl⟩

/-- A pending request has not been answered. -/
theorem pending_untold {cs : List Handler} (h : Pending request cs w) : ¬ToldSuccess w := by
  rintro ⟨response,hm,-⟩
  obtain ⟨reply,he,hne⟩ := h.written _ hm
  cases he
  exact hne response rfl

/-- A refused request has not been answered with success. -/
theorem refused_untold (h : Refused request w) : ¬ToldSuccess w := by
  rintro ⟨response,hm,hstatus⟩
  obtain ⟨before,after,hwritten,hbefore,hafter⟩ := h.written
  rw [hwritten] at hm
  rcases List.mem_append.mp hm with hm|hm
  · obtain ⟨reply,he,hne⟩ := hbefore _ hm
    cases he
    exact hne response rfl
  · rcases List.mem_cons.mp hm with hm|hm
    · cases hm
      exact absurd hstatus (show statusFailure≠statusSuccess by decide)
    · obtain ⟨data,he⟩ := hafter _ hm
      cases he

/-- The client has been told of success only if the promise has succeeded. -/
theorem told_opened {proxy : Proxy} (h : Live (openClient cfg request) proxy w) (ht : ToldSuccess w) :
    Opened (openClient cfg request) proxy w := by
  rcases live_shape h with h|⟨_,_,_,hd⟩|h|h
  · exact absurd ht (pending_untold h.client.client)
  · exact absurd ht (pending_untold hd.client)
  · exact h
  · exact absurd ht (refused_untold h.client)

/-- The decoded command response of an introduced server is the last one. -/
theorem introduced_response {proxy : Proxy} {said replies : List SocksMessage}
    {response other : CommandResponse} (hi : Introduced proxy said replies)
    (hm : .commandResponse other∈replies++[SocksMessage.commandResponse response]) : other=response := by
  rcases List.mem_append.mp hm with hm|hm
  · cases hi <;> simp at hm
  · cases List.mem_singleton.mp hm
    rfl

/-- An attempt that has opened has a real tunnel exactly when its upstream is
sound. -/
theorem opened_real_iff {proxy : Proxy} (h : Opened (openClient cfg request) proxy w) :
    RealTunnel request events w ↔ SoundUpstream proxy request w.log := by
  have htarget := h.reached.target request.dstAddr request.dstPort
  have hsent : ∀ message∈w.remote.sent, message∈w.written .remote :=
    fun message hm => List.mem_append_left _ hm
  have hanswered := h.answered
  cases proxy with
  | direct | reject => exact iff_of_true (.inl ⟨htarget.mpr rfl,h.reached.connected⟩) (.inl rfl)
  | http address port =>
    obtain ⟨hwritten,-⟩ := hanswered
    rw [hwritten] at hsent
    constructor
    · rintro (⟨hconnect,-⟩|⟨hrequest,-⟩|⟨⟨data,hdata,-⟩,-⟩)
      · exact .inl (htarget.mp hconnect).symm
      · exact absurd (hsent _ hrequest) (by simp)
      · exact absurd (hsent _ hdata) (by simp)
    · rintro (hpeer|⟨⟨_,_,_,_,hsocks⟩,-⟩)
      · exact .inl ⟨htarget.mpr hpeer.symm,h.reached.connected⟩
      · cases hsocks
  | socks5 address port userName passwd =>
    obtain ⟨said,replies,response,hi,hdecoded,hheard,hrequest,hall⟩ := hanswered
    have hlog : .reply (.commandResponse response)∈w.log := by
      rw [←mem_repliesIn,hheard]
      simp
    constructor
    · rintro (⟨hconnect,-⟩|⟨-,other,hother,-,hstatus⟩|⟨⟨data,hdata,-⟩,-⟩)
      · exact .inl (htarget.mp hconnect).symm
      · refine .inr ⟨⟨address,port,userName,passwd,rfl⟩,fun third hthird _ => ?_⟩
        rw [←mem_repliesIn,hheard] at hother hthird
        rw [introduced_response hi hthird,←introduced_response hi hother]
        exact hstatus
      · obtain ⟨m,-,he⟩ := List.mem_map.mp (hall _ (hsent _ hdata))
        cases he
    · rintro (hpeer|⟨-,hsuccess⟩)
      · exact .inl ⟨htarget.mpr hpeer.symm,h.reached.connected⟩
      · exact .inr (.inl ⟨hrequest,response,hlog,hdecoded,hsuccess response hlog hdecoded⟩)

/-- In every state of every upstream run in which the client has been told of
success, there is a tunnel to its destination exactly when the upstream
connects to the destination or its SOCKS5 server has answered with success. -/
theorem success_told_iff (hstart : Requested cfg request w₀)
    (hrun : UpstreamRun cfg w₀ events w) (htold : ToldSuccess w) :
    RealTunnel request events w ↔ SoundUpstream (upstream cfg request) request w.log := by
  obtain ⟨hlive,ho⟩ := requested_live hstart
  rcases attempt_run hlive ho hrun with ⟨-,hl⟩|hdead
  · exact opened_real_iff (told_opened hl htold)
  · obtain ⟨cs,hpending⟩ := hdead.client
    exact absurd htold (pending_untold hpending)

/-- A SOCKS5 server that asks for no password and answers with a status. -/
def serverAnswers (status : UInt8) : List Event :=
  [.connected,.read .remote [0x05,0x00],
    .read .remote [0x05,status,0x00,0x01,0x00,0x00,0x00,0x00,0x00,0x00]]

/-- A server that answers with success stands for a tunnel. -/
theorem success_answer_real :
    ToldSuccess (sampleAttempt (attemptConfig sampleSocks5) (serverAnswers statusSuccess)) ∧
      RealTunnel sampleRequest (serverAnswers statusSuccess)
        (sampleAttempt (attemptConfig sampleSocks5) (serverAnswers statusSuccess)) := by
  have hrun : UpstreamRun (attemptConfig sampleSocks5) (sampleAsked (attemptConfig sampleSocks5))
      (serverAnswers statusSuccess) _ := attempt_sample rfl (by simp [serverAnswers,Upstream])
  have hlog : (sampleAttempt (attemptConfig sampleSocks5) (serverAnswers statusSuccess)).log=
      [.connecting "10.0.0.1" 1080,.connected,.reply (.initialResponse ⟨true,noAuth⟩),
        .reply (.commandResponse ⟨true,statusSuccess,0x01,some "0.0.0.0",0⟩)] := rfl
  have hsent : (sampleAttempt (attemptConfig sampleSocks5)
      (serverAnswers statusSuccess)).written .client=
      [.encoded (.initialResponse ⟨true,noAuth⟩),.encoded (successReply sampleRequest)] := rfl
  have htold : ToldSuccess
      (sampleAttempt (attemptConfig sampleSocks5) (serverAnswers statusSuccess)) :=
    told_of_written hsent (List.mem_cons_of_mem _ (List.mem_singleton.mpr rfl))
  refine ⟨htold,(success_told_iff (requested_sample sampleSocks5 rfl) hrun htold).mpr (.inr ?_)⟩
  refine ⟨⟨_,_,_,_,rfl⟩,fun response hm _ => ?_⟩
  rw [hlog] at hm
  simp at hm
  rw [hm]

/-- A server that refuses the request: the client is told of success, and there
is no tunnel. -/
theorem refused_request_told_success :
    Requested (attemptConfig sampleSocks5) sampleRequest (sampleAsked (attemptConfig sampleSocks5)) ∧
      UpstreamRun (attemptConfig sampleSocks5) (sampleAsked (attemptConfig sampleSocks5))
        (serverAnswers 0x05) (sampleAttempt (attemptConfig sampleSocks5) (serverAnswers 0x05)) ∧
      ToldSuccess (sampleAttempt (attemptConfig sampleSocks5) (serverAnswers 0x05)) ∧
      ¬RealTunnel sampleRequest (serverAnswers 0x05)
        (sampleAttempt (attemptConfig sampleSocks5) (serverAnswers 0x05)) := by
  have hlog : (sampleAttempt (attemptConfig sampleSocks5) (serverAnswers 0x05)).log=
      [.connecting "10.0.0.1" 1080,.connected,.reply (.initialResponse ⟨true,noAuth⟩),
        .reply (.commandResponse ⟨true,0x05,0x01,some "0.0.0.0",0⟩)] := rfl
  have hwritten : (sampleAttempt (attemptConfig sampleSocks5) (serverAnswers 0x05)).written .client=
      [.encoded (.initialResponse ⟨true,noAuth⟩),.encoded (successReply sampleRequest)] := rfl
  have hsent : (sampleAttempt (attemptConfig sampleSocks5) (serverAnswers 0x05)).remote.sent=
      [.encoded (.initialRequest [noAuth,passwordAuth]),.encoded (.commandRequest sampleRequest)] := rfl
  refine ⟨requested_sample sampleSocks5 rfl,attempt_sample rfl (by simp [serverAnswers,Upstream]),
    told_of_written hwritten (List.mem_cons_of_mem _ (List.mem_singleton.mpr rfl)),?_⟩
  rintro (⟨hconnect,-⟩|⟨-,response,hm,-,hstatus⟩|⟨⟨data,hdata,-⟩,-⟩)
  · rw [hlog] at hconnect
    exact absurd hconnect (by simp [sampleRequest])
  · rw [hlog] at hm
    simp at hm
    rw [hm] at hstatus
    cases hstatus
  · rw [hsent] at hdata
    exact absurd hdata (by simp)

/-- The server has selected a method. -/
def Selects (replies : List SocksMessage) (method : UInt8) : Prop :=
  replies[0]?=some (.initialResponse ⟨true,method⟩)

instance {replies : List SocksMessage} {method : UInt8} : Decidable (Selects replies method) :=
  inferInstanceAs (Decidable (_=_))

/-- The whole conversation with a server that has given these replies: the greeting, the password
message exactly if the server has selected PASSWORD, and the request. -/
def conversation (userName passwd : String) (request : Socks5CommandRequest)
    (replies : List SocksMessage) : List SocksMessage :=
  greeting::(if Selects replies passwordAuth then [.passwordAuthRequest userName passwd] else [])++
    [.commandRequest request]

/-- The writes to a SOCKS5 server come in their turn. -/
structure InTurn (userName passwd : String) (request : Socks5CommandRequest) (w : World) : Prop where
  /-- They are a beginning of the conversation. -/
  order : w.written .remote<+:
    (conversation userName passwd request (repliesIn w.log)).map .encoded
  /-- The credentials are the configured ones, and the server has selected PASSWORD. -/
  credentials : ∀ user pass, .encoded (.passwordAuthRequest user pass)∈w.written .remote →
    user=userName ∧ pass=passwd ∧ Selects (repliesIn w.log) passwordAuth
  /-- The request is the client's, and the server has selected NO_AUTH, or it has been sent the
  password message and has accepted it. -/
  asked : ∀ other, .encoded (.commandRequest other)∈w.written .remote →
    other=request ∧
    (Selects (repliesIn w.log) noAuth ∨
      Selects (repliesIn w.log) passwordAuth ∧
      .encoded (.passwordAuthRequest userName passwd)∈w.written .remote ∧
      (repliesIn w.log)[1]?=some (.passwordAuthResponse ⟨true,statusSuccess⟩))
  /-- Nothing is asked of a server that has not accepted the password. -/
  refused : ∀ response, .passwordAuthResponse response∈repliesIn w.log →
    ¬(response.decoded=true ∧ response.status=statusSuccess) →
    ∀ other, .encoded (.commandRequest other)∉w.written .remote

/-- The stages of an attempt follow the script. -/
theorem live_spoken {proxy : Proxy} (h : Live (openClient cfg request) proxy w) :
    Spoken proxy request w := by
  rcases live_shape h with h|⟨_,_,_,hd⟩|h|h
  · exact spoken_nothing h.replies (by simp [World.written,h.unwritten]) h.calm
  · exact hd.spoken
  · exact h.spoken
  · exact h.spoken

section Script

variable {address : String} {port : ℕ} {userName passwd : String} {said replies : List SocksMessage}

/-- What is said is the beginning of a whole conversation. -/
theorem script_order (hfits : passwordAuthRequestFits userName passwd=true)
    (h : Script (.socks5 address port userName passwd) request said replies) :
    said<+:conversation userName passwd request replies := by
  have hsent : credentials userName passwd=[.passwordAuthRequest userName passwd] := if_pos hfits
  cases h with
  | start => exact List.nil_prefix
  | greeted | selected => exact ⟨_,rfl⟩
  | password h | judged h =>
    cases h
    rw [hsent]
    exact ⟨[.commandRequest request],rfl⟩
  | asked h | answered h =>
    cases h with
    | noAuth => exact List.prefix_rfl
    | password h =>
      cases h
      rw [hsent]
      exact List.prefix_rfl

/-- Credentials are said to a server that has selected PASSWORD. -/
theorem script_credentials (h : Script (.socks5 address port userName passwd) request said replies)
    {user pass : String} (hm : .passwordAuthRequest user pass∈said) :
    user=userName ∧ pass=passwd ∧ Selects replies passwordAuth := by
  have hsame : .passwordAuthRequest user pass∈credentials userName passwd →
      user=userName ∧ pass=passwd := by
    unfold credentials
    split
    · simp
    · simp
  cases h with
  | start | greeted | selected => simp [greeting] at hm
  | password h | judged h =>
    cases h
    obtain ⟨rfl,rfl⟩ := hsame (by simpa [greeting] using hm)
    exact ⟨rfl,rfl,rfl⟩
  | asked h | answered h =>
    cases h with
    | noAuth => simp [greeting] at hm
    | password h =>
      cases h
      obtain ⟨rfl,rfl⟩ := hsame (by simpa [greeting] using hm)
      exact ⟨rfl,rfl,rfl⟩

/-- Credentials are not a request. -/
theorem request_not_credentials {other : Socks5CommandRequest} :
    .commandRequest other∉credentials userName passwd := by
  unfold credentials
  split
  · simp
  · simp

/-- The request is put to a server that has let the client in. -/
theorem script_asked (h : Script (.socks5 address port userName passwd) request said replies)
    {other : Socks5CommandRequest} (hm : .commandRequest other∈said) :
    other=request ∧
      (Selects replies noAuth ∨
        Selects replies passwordAuth ∧
        replies[1]?=some (.passwordAuthResponse ⟨true,statusSuccess⟩)) := by
  cases h with
  | start | greeted | selected => simp [greeting] at hm
  | password | judged => simp [greeting,request_not_credentials] at hm
  | asked h | answered h =>
    cases h with
    | noAuth => exact ⟨by simpa [greeting] using hm,.inl rfl⟩
    | password =>
      exact ⟨by simpa [greeting,request_not_credentials] using hm,.inr ⟨rfl,rfl⟩⟩

/-- A server that has not accepted the password is asked nothing. -/
theorem script_refused (h : Script (.socks5 address port userName passwd) request said replies)
    {response : PasswordAuthResponse} (hm : .passwordAuthResponse response∈replies)
    (hr : ¬(response.decoded=true ∧ response.status=statusSuccess))
    (other : Socks5CommandRequest) : .commandRequest other∉said := by
  cases h with
  | start | greeted | selected => simp [greeting]
  | password | judged => simp [greeting,request_not_credentials]
  | asked h | answered h =>
    cases h with
    | noAuth => simp at hm
    | password =>
      have he : response=⟨true,statusSuccess⟩ := by simpa using hm
      exact absurd ⟨by rw [he],by rw [he]⟩ hr

/-- Who has been asked after selecting PASSWORD has been sent the password message. -/
theorem password_of_asked {messages : List Msg} {other : Socks5CommandRequest}
    (hselects : Selects replies passwordAuth)
    (horder : messages<+:(conversation userName passwd request replies).map .encoded)
    (hm : .encoded (.commandRequest other)∈messages) :
    .encoded (.passwordAuthRequest userName passwd)∈messages := by
  have hall : (conversation userName passwd request replies).map Msg.encoded=
      [.encoded greeting,.encoded (.passwordAuthRequest userName passwd)]++
        [Msg.encoded (.commandRequest request)] := by
    rw [conversation,if_pos hselects]
    rfl
  rw [hall] at horder
  rcases List.prefix_concat_iff.mp horder with rfl|hshort
  · simp
  · exact absurd (hshort.subset hm) (by simp [greeting])

/-- A conversation that follows the script is held in turn when the password message can be made. -/
theorem inTurn_of_spoken (hfits : passwordAuthRequestFits userName passwd=true)
    (h : Spoken (.socks5 address port userName passwd) request w) :
    InTurn userName passwd request w := by
  obtain ⟨said,hscript,hwritten⟩ := h.script
  have hsaid : ∀ message, .encoded message∈w.written .remote → message∈said := by
    intro message hm
    simpa using hwritten.subset hm
  have horder := hwritten.trans ((script_order hfits hscript).map Msg.encoded)
  refine ⟨horder,fun user pass hm => script_credentials hscript (hsaid _ hm),fun other hm => ?_,
    fun response hm hr other ho => script_refused hscript hm hr other (hsaid _ ho)⟩
  obtain ⟨he,hnone|⟨hselects,haccepted⟩⟩ := script_asked hscript (hsaid _ hm)
  · exact ⟨he,.inl hnone⟩
  · exact ⟨he,.inr ⟨hselects,password_of_asked hselects horder hm,haccepted⟩⟩

end Script

/-- In every state of every upstream run the proxy has spoken to its SOCKS5 server in turn only, if
the configured user name and password have at most 255 characters. -/
theorem upstream_speaks_in_turn {address : String} {port : ℕ} {userName passwd : String}
    (hstart : Requested cfg request w₀) (hrun : UpstreamRun cfg w₀ events w)
    (hproxy : upstream cfg request=.socks5 address port userName passwd)
    (huser : javaLength userName≤255) (hpasswd : javaLength passwd≤255) :
    InTurn userName passwd request w := by
  have hfits : passwordAuthRequestFits userName passwd=true := by
    simp [passwordAuthRequestFits,huser,hpasswd]
  obtain ⟨hlive,ho⟩ := requested_live hstart
  rw [hproxy] at hlive
  rcases attempt_run hlive ho hrun with ⟨-,hl⟩|hdead
  · exact inTurn_of_spoken hfits (live_spoken hl)
  · exact inTurn_of_spoken hfits hdead.spoken

/-- A server that asks for a password and accepts. -/
def passwordAccepted : List Event :=
  [.connected,.read .remote [0x05,0x02],.read .remote [0x01,0x00]]

/-- The sample server is sent the password and then the request. -/
theorem accepted_password_in_turn :
    (sampleAttempt (attemptConfig sampleSocks5) passwordAccepted).written .remote=
        [.encoded greeting,.encoded (.passwordAuthRequest "user" "secret"),
          .encoded (.commandRequest sampleRequest)] ∧
      InTurn "user" "secret" sampleRequest
        (sampleAttempt (attemptConfig sampleSocks5) passwordAccepted) :=
  ⟨rfl,upstream_speaks_in_turn (requested_sample sampleSocks5 rfl)
    (attempt_sample rfl (by simp [passwordAccepted,Upstream])) rfl (by decide) (by decide)⟩

/-- A user name of 256 characters. -/
def longName : String := String.ofList (List.replicate 256 'a')

/-- A SOCKS5 proxy with that user name. -/
def longSocks5 : Proxy := .socks5 "10.0.0.1" 1080 longName "secret"

/-- The server selects PASSWORD and says that it accepts: it is sent the request without having been
sent the password message, and the client is still waiting. -/
theorem request_without_password :
    Requested (attemptConfig longSocks5) sampleRequest (sampleAsked (attemptConfig longSocks5)) ∧
      UpstreamRun (attemptConfig longSocks5) (sampleAsked (attemptConfig longSocks5))
        passwordAccepted (sampleAttempt (attemptConfig longSocks5) passwordAccepted) ∧
      upstream (attemptConfig longSocks5) sampleRequest=.socks5 "10.0.0.1" 1080 longName "secret" ∧
      (sampleAttempt (attemptConfig longSocks5) passwordAccepted).written .remote=
        [.encoded greeting,.encoded (.commandRequest sampleRequest)] ∧
      (sampleAttempt (attemptConfig longSocks5) passwordAccepted).promise.map CommandPromise.state=
        some .pending ∧
      ¬InTurn longName "secret" sampleRequest
        (sampleAttempt (attemptConfig longSocks5) passwordAccepted) := by
  obtain ⟨hends,hwritten,hselects,hpending⟩ :
      ((system (attemptConfig longSocks5)).execute 40 (sampleAsked (attemptConfig longSocks5))
          passwordAccepted).isSome=true ∧
        (sampleAttempt (attemptConfig longSocks5) passwordAccepted).written .remote=
          [.encoded greeting,.encoded (.commandRequest sampleRequest)] ∧
        Selects (repliesIn (sampleAttempt (attemptConfig longSocks5) passwordAccepted).log)
          passwordAuth ∧
        (sampleAttempt (attemptConfig longSocks5) passwordAccepted).promise.map
          CommandPromise.state=some .pending := by
    decide +kernel
  refine ⟨requested_sample longSocks5 rfl,
    attempt_sample hends (by simp [passwordAccepted,Upstream]),rfl,hwritten,hpending,fun h => ?_⟩
  have hpassword := password_of_asked hselects h.order (hwritten ▸ List.mem_cons_of_mem _
    (List.mem_singleton.mpr rfl))
  rw [hwritten] at hpassword
  simp [greeting] at hpassword

end Attempts

end ProxyDroid.HandshakeResults
