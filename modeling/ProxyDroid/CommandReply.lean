import ProxyDroid.TunnelPhases
import ProxyDroid.ConnectionInvariants

/-!
# The answer to a command request

The client side of a request whose upstream promise is pending, succeeded or
failed, and what completing the promise does to it. Completing the promise
touches neither the remote channel nor the log.
-/

namespace ProxyDroid.CommandReply

open CallSemantics HandlerPipeline ConnectionTypes ConnectionHandlers ConnectionSystem
open ConnectionRules ConnectionInvariants TunnelPhases

/-- The codecs of a client whose SOCKS exchange is over. -/
def socksCodecs : List Handler :=
  [.socks5CommandRequestDecoder .success,.loggingHandler,
    .socks5InitialRequestDecoder .success,.socks5ServerEncoder]

/-- Codecs that have done their work are idle. -/
theorem socksCodecs_idle : ∀ h∈socksCodecs, Idle h := by
  intro h hm
  simp only [socksCodecs,List.mem_cons,List.not_mem_nil,or_false] at hm
  rcases hm with rfl|rfl|rfl|rfl
  all_goals
    refine ⟨fun event => ?_,fun message hs => ?_⟩
    · cases event with
      | read message => cases message <;> rfl
      | _ => rfl
    · cases message with
      | socks m => exact absurd rfl (hs m)
      | _ => rfl

/-- The reply to a request whose promise succeeds. -/
def successReply (request : Socks5CommandRequest) : SocksMessage :=
  .commandResponse ⟨true,statusSuccess,request.dstAddrType,some request.dstAddr,request.dstPort⟩

/-- The reply to a request whose promise fails. -/
def failureReply (request : Socks5CommandRequest) : SocksMessage :=
  .commandResponse ⟨true,statusFailure,request.dstAddrType,none,0⟩

/-- A written message that is not a command response. -/
def Preliminary (message : Msg) : Prop :=
  ∃ reply, message=.encoded reply ∧ ∀ response, reply≠.commandResponse response

/-- Client side of a request that has not been answered. -/
structure Pending (request : Socks5CommandRequest) (cs : List Handler) (w : World) : Prop where
  /-- The codecs, then what is left of the upstream handler. -/
  handlers : w.handlers .client=socksCodecs++cs
  /-- The promise, whose success reply goes through the encoder. -/
  promise : ∃ ctx encoder, w.promise=some ⟨request,ctx,.pending⟩ ∧
    (w.pipe .client).Left ctx encoder ∧
    (w.pipe .client).Located encoder (socksCodecs.take 3) .socks5ServerEncoder cs
  /-- The client channel is open. -/
  active : w.isActive .client=true
  /-- No write to the client waits with a listener. -/
  quiet : Quiet w .client
  /-- No answer has been written. -/
  written : ∀ message∈w.written .client, Preliminary message

/-- Client side of a request that has been answered with success. -/
structure Succeeded (request : Socks5CommandRequest) (cs : List Handler) (w : World) : Prop where
  /-- The selecting handler follows all others. -/
  handlers : w.handlers .client=socksCodecs++(cs++[Handler.protocolSelectHandler request (.init [])])
  /-- The promise. -/
  promise : ∃ ctx, w.promise=some ⟨request,ctx,.succeeded⟩
  /-- The client channel is open. -/
  active : w.isActive .client=true
  /-- No write to the client waits with a listener. -/
  quiet : Quiet w .client
  /-- The success reply is the only answer written, and the last message. -/
  written : ∃ before, w.written .client=before++[.encoded (successReply request)] ∧
    ∀ message∈before, Preliminary message

/-- The client channel is closed, or will be once its writes are flushed. -/
def Closing (w : World) : Prop :=
  (w.client.life=.closed ∧ w.client.queue=[]) ∨
    (w.client.life=.active ∧ ∃ entries, w.client.queue=entries++[(.bytes [],.close)] ∧
      ∀ entry∈entries, entry.2=.none)

/-- Client side of a request that has been answered with failure. -/
structure Refused (request : Socks5CommandRequest) (w : World) : Prop where
  /-- No handler takes the end of a read or of the channel. -/
  handlers : ∀ h∈w.handlers .client, reacts .inactive h=false ∧ reacts .readComplete h=false
  /-- The promise. -/
  promise : ∃ ctx, w.promise=some ⟨request,ctx,.failed⟩
  /-- The failure reply is the only answer written. -/
  written : ∃ before after, w.written .client=before++.encoded (failureReply request)::after ∧
    (∀ message∈before, Preliminary message) ∧ ∀ message∈after, ∃ data, message=.bytes data
  /-- The channel is closed or closing. -/
  closing : Closing w

section Complete

variable {cfg : Config} {w w' : World} {request : Socks5CommandRequest} {cs pre : List Handler}

/-- The client side depends on the client channel and the promise alone. -/
theorem Pending.of_eq (h : Pending request cs w) (hc : w'.client=w.client)
    (hp : w'.promise=w.promise) : Pending request cs w' := by
  have hpipe : w'.pipe .client=w.pipe .client := congrArg Channel.pipeline hc
  have hqueue : (w'.chan .client).queue=(w.chan .client).queue := congrArg Channel.queue hc
  have hwritten : w'.written .client=w.written .client := by
    simp only [World.written,World.chan,hc]
  have hactive : w'.isActive .client=w.isActive .client :=
    congrArg (fun c : Channel => decide (c.life=.active)) hc
  refine ⟨?_,?_,hactive.trans h.active,?_,hwritten ▸ h.written⟩
  · rw [World.handlers,hpipe]
    exact h.handlers
  · rw [hp,hpipe]
    exact h.promise
  · rw [Quiet,hqueue]
    exact h.quiet

theorem Succeeded.of_eq (h : Succeeded request cs w) (hc : w'.client=w.client)
    (hp : w'.promise=w.promise) : Succeeded request cs w' := by
  have hpipe : w'.pipe .client=w.pipe .client := congrArg Channel.pipeline hc
  have hqueue : (w'.chan .client).queue=(w.chan .client).queue := congrArg Channel.queue hc
  have hwritten : w'.written .client=w.written .client := by
    simp only [World.written,World.chan,hc]
  have hactive : w'.isActive .client=w.isActive .client :=
    congrArg (fun c : Channel => decide (c.life=.active)) hc
  refine ⟨?_,hp ▸ h.promise,hactive.trans h.active,?_,hwritten ▸ h.written⟩
  · rw [World.handlers,hpipe]
    exact h.handlers
  · rw [Quiet,hqueue]
    exact h.quiet

/-- Completing a pending promise calls its listeners. -/
theorem perform_complete {ctx : ℕ} (hp : w.promise=some ⟨request,ctx,.pending⟩)
    (state : PromiseState) : complete w state=
      .call { w with promise := some ⟨request,ctx,state⟩ }
        (UpstreamMatchHandler.replyListener ⟨request,ctx,.pending⟩ (state==.succeeded)++
          UpstreamMatchHandler.selectListener ⟨request,ctx,.pending⟩ (state==.succeeded)) drop := by
  rw [complete,hp]

/-- The pipeline has no handler for the encoder's output. -/
theorem intercepts_encoded (m : SocksMessage) (h : Handler) :
    intercepts (.encoded m) h=false := by cases h <;> rfl

/-- A SOCKS message that reaches the client's encoder is accepted. -/
theorem runs_encoder {encoder : ℕ} {message : SocksMessage}
    (hl : (w.pipe .client).Located encoder pre .socks5ServerEncoder cs)
    (ha : w.isActive .client=true) (hq : Quiet w .client) :
    Runs cfg w (writeBody cfg .client encoder (.socks message) .none true .socks5ServerEncoder)
      (accept cfg w .client (.encoded message)) := by
  refine runs_headWrite (.inr ⟨message,rfl⟩) ha hq ?_
  have hnone := hl.prevWhere_none (q:=intercepts (.encoded message))
    (fun x _ => intercepts_encoded message x)
  simp only [perform,hnone]

/-- A message written from a context that has left goes through the encoder
that stood before it. -/
theorem runs_write_left (cfg : Config) {ctx encoder : ℕ} (message : SocksMessage)
    (hleft : (w.pipe .client).Left ctx encoder)
    (hl : (w.pipe .client).Located encoder pre .socks5ServerEncoder cs)
    (ha : w.isActive .client=true) (hq : Quiet w .client) :
    Runs cfg w [.write .client (some ctx) (.socks message) .none true]
      (accept cfg w .client (.encoded message)) := by
  obtain ⟨encoder',hprev,hl'⟩ := hleft.prevWhere_eq (q:=intercepts (.socks message)) [] hl rfl
    (by simp) rfl
  have hwrite : perform cfg (.write .client (some ctx) (.socks message) .none true) w=
      .call w (writeBody cfg .client encoder' (.socks message) .none true
        .socks5ServerEncoder) drop := by
    simp only [perform,hprev,hl'.find]
  exact runs_of_call hwrite (runs_encoder hl' ha hq)

/-- A message written from the tail goes through the encoder. -/
theorem runs_write_tail (cfg : Config) (message : SocksMessage)
    (hh : w.handlers .client=pre++Handler.socks5ServerEncoder::cs)
    (hcs : ∀ x∈cs, ∀ message, intercepts message x=false)
    (ha : w.isActive .client=true) (hq : Quiet w .client) :
    Runs cfg w [.write .client none (.socks message) .none true]
      (accept cfg w .client (.encoded message)) := by
  have hsplit : (w.pipe .client).handlers=pre++Handler.socks5ServerEncoder::cs := hh
  obtain ⟨encoder,hlast,hl⟩ := Pipeline.lastWhere_eq
    (q:=intercepts (.socks message)) hsplit (fun x hx => hcs x hx _) rfl
  have hwrite : perform cfg (.write .client none (.socks message) .none true) w=
      .call w (writeBody cfg .client encoder (.socks message) .none true
        .socks5ServerEncoder) drop := by
    simp only [perform,hlast,hl.find]
  exact runs_of_call hwrite (runs_encoder hl ha hq)

/-- A promise that succeeds: the reply is written and the selecting handler
added. -/
theorem Pending.succeed (cfg : Config) (h : Pending request cs w) :
    ∃ w', Runs cfg w [.setSuccess] w' ∧ w'.remote=w.remote ∧ w'.log=w.log ∧
      Succeeded request cs w' := by
  obtain ⟨ctx,encoder,hp,hleft,hl⟩ := h.promise
  let done : World := { w with promise := some ⟨request,ctx,.succeeded⟩ }
  have hquiet : Quiet done .client := h.quiet
  have hreply : Runs cfg done [.write .client (some ctx) (.socks (successReply request)) .none true]
      (accept cfg done .client (.encoded (successReply request))) :=
    runs_write_left cfg _ hleft hl h.active hquiet
  have hselect : Runs cfg (accept cfg done .client (.encoded (successReply request)))
      [.addLast .client none (.protocolSelectHandler request (.init []))] _ := runs_addLast
  refine ⟨_,runs_of_call (perform_complete hp .succeeded) (hreply.append hselect),?_,?_,?_⟩
  · exact accept_chan_of_ne (t:=.remote) (by simp)
  · simp [done]
  · refine ⟨?_,⟨ctx,by simp [done]⟩,?_,?_,w.written .client,?_,h.written⟩
    · have hh : done.handlers .client=socksCodecs++cs := h.handlers
      simp [hh]
    · have ha : done.isActive .client=true := h.active
      simp [ha]
    · simpa using accept_quiet hquiet
    · have hw : done.written .client=w.written .client := rfl
      simp [hw]

/-- The client channel is closed once its queue is flushed. -/
theorem runs_closeOnFlush (cfg : Config) (ha : w.isActive .client=true) (hq : Quiet w .client)
    (hh : ∀ x∈w.handlers .client, intercepts (.bytes []) x=false) :
    ∃ w', Runs cfg w [.closeOnFlush .client] w' ∧ w'.remote=w.remote ∧ w'.log=w.log ∧
      w'.promise=w.promise ∧ w'.pipe .client=w.pipe .client ∧
      w'.written .client=w.written .client++[Msg.bytes []] ∧ Closing w' := by
  have hcall : perform cfg (.closeOnFlush .client) w=
      .call w [.write .client none (.bytes []) .close true] drop := by
    change (if w.isActive .client then _ else _)=_
    rw [if_pos ha]
  let queued := w.enqueue .client (.bytes []) .close
  have hwrite : perform cfg (.write .client none (.bytes []) .close true) w=
      .call queued [.flush .client] drop := by
    simp only [perform,Pipeline.lastWhere_none hh]
    exact headWrite_active (.inl ⟨[],rfl⟩) ha
  cases hn : cfg.flushNow queued.flushes with
  | false =>
    refine ⟨queued.attempt,runs_of_call hcall (runs_of_call hwrite (runs_flush_later hn)),
      rfl,rfl,rfl,rfl,?_,.inr ⟨of_decide_eq_true ha,w.client.queue,rfl,hq⟩⟩
    simp [queued,World.attempt,World.enqueue,World.upd,World.written]
  | true =>
    let drained := queued.attempt.takeQueue .client
    have hclose : perform cfg (.close .client) drained=.call (drained.upd .client shut) [] drop :=
      perform_close (w:=drained) ha
    have hentries : ∀ entry∈w.client.queue, entry.2=.none := hq
    have hlast : Runs cfg drained ((w.client.queue++[(Msg.bytes [],Listener.close)]).map
        (fun entry : Msg×Listener => Stmt.notify .client entry.2 true)) (drained.upd .client shut) :=
      runs_notify_last hentries (runs_of_call hclose runs_nil)
    refine ⟨drained.upd .client shut,
      runs_of_call hcall (runs_of_call hwrite (runs_flush_now hn hlast)),
      rfl,rfl,rfl,rfl,?_,.inl ⟨rfl,rfl⟩⟩
    simp [drained,queued,shut,World.attempt,World.enqueue,World.takeQueue,World.upd,World.written]

/-- A promise that fails: the failure reply is written and the client channel
closed or closing. -/
theorem Pending.fail (cfg : Config) (h : Pending request cs w)
    (hcs : ∀ x∈cs, (∀ message, intercepts message x=false) ∧ reacts .inactive x=false ∧
      reacts .readComplete x=false) :
    ∃ w', Runs cfg w [.setFailure] w' ∧ w'.remote=w.remote ∧ w'.log=w.log ∧ Refused request w' := by
  obtain ⟨ctx,encoder,hp,hleft,hl⟩ := h.promise
  let done : World := { w with promise := some ⟨request,ctx,.failed⟩ }
  have hh : done.handlers .client=socksCodecs++cs := h.handlers
  have hquiet : Quiet done .client := h.quiet
  have hsplit : done.handlers .client=socksCodecs.take 3++Handler.socks5ServerEncoder::cs := hh
  have hreply := runs_write_tail cfg (failureReply request) hsplit (fun x hx => (hcs x hx).1) h.active
    hquiet
  let replied := accept cfg done .client (.encoded (failureReply request))
  have hh' : replied.handlers .client=socksCodecs++cs := by simpa [replied] using hh
  have ha : done.isActive .client=true := h.active
  have hclear : ∀ x∈replied.handlers .client, intercepts (.bytes []) x=false := by
    rw [hh']
    exact transparent_append socksCodecs_idle (by simp) (fun x hx => (hcs x hx).1 _)
  obtain ⟨w',hclose,hremote,hlog,hpromise,hpipe,hwritten,hclosing⟩ := runs_closeOnFlush cfg
    (by simp [ha]) (accept_quiet hquiet) hclear
  refine ⟨w',runs_of_call (perform_complete hp .failed) ((hreply.cons hclose).append runs_nil),
    ?_,?_,?_⟩
  · rw [hremote]
    exact accept_chan_of_ne (t:=.remote) (by simp)
  · rw [hlog]
    simp [done]
  · refine ⟨?_,⟨ctx,?_⟩,⟨w.written .client,[.bytes []],?_,h.written,by simp⟩,hclosing⟩
    · have hall : w'.handlers .client=socksCodecs++cs := by rw [World.handlers,hpipe]; exact hh'
      rw [hall]
      intro x hx
      exact ⟨silent_append socksCodecs_idle (fun y hy => (hcs y hy).2.1) x hx,
        silent_append socksCodecs_idle (fun y hy => (hcs y hy).2.2) x hx⟩
    · rw [hpromise]
      simp [done]
    · have hold : done.written .client=w.written .client := rfl
      rw [hwritten]
      simp [hold]

end Complete

section Events

variable {cfg : Config} {w w' : World} {request : Socks5CommandRequest} {cs : List Handler}

/-- The socket takes the writes of a side. -/
theorem written_takeQueue (w : World) (s : Side) : (w.takeQueue s).written s=w.written s := by
  cases s <;> simp [World.takeQueue,World.upd,World.written]

/-- A pending request whose client has been sent everything. -/
theorem Pending.drained (h : Pending request cs w) : Pending request cs (w.takeQueue .client) where
  handlers := h.handlers
  promise := h.promise
  active := h.active
  quiet := quiet_of_nil rfl
  written := by
    rw [written_takeQueue]
    exact h.written

/-- An answered request whose client has been sent everything. -/
theorem Succeeded.drained (h : Succeeded request cs w) :
    Succeeded request cs (w.takeQueue .client) where
  handlers := h.handlers
  promise := h.promise
  active := h.active
  quiet := quiet_of_nil rfl
  written := by
    rw [written_takeQueue]
    exact h.written

/-- The client of a refused request is closed by the flush of its queue. -/
theorem Refused.flushed (h : Refused request w) (ht : (system cfg).Turn w (.flushed .client) w') :
    Refused request w' ∧ w'.remote=w.remote ∧ w'.log=w.log := by
  obtain ⟨w₀,stmts,x,hinject,heval⟩ := ht
  simp only [system,inject] at hinject
  split at hinject
  · rename_i ha
    cases hinject
    have hactive : w.client.life=.active := of_decide_eq_true (Bool.and_eq_true_iff.mp ha).1
    rcases h.closing with ⟨hclosed,-⟩|⟨-,entries,hqueue,hentries⟩
    · rw [hactive] at hclosed
      cases hclosed
    · have hclose : perform cfg (.close .client) (w.takeQueue .client)=
          .call ((w.takeQueue .client).upd .client shut) [] drop :=
        perform_close (w:=w.takeQueue .client) (decide_eq_true hactive)
      have hlast : Runs cfg (w.takeQueue .client) ((w.chan .client).queue.map
          (fun entry : Msg×Listener => Stmt.notify .client entry.2 true))
          ((w.takeQueue .client).upd .client shut) := by
        rw [chan_client,hqueue]
        exact runs_notify_last hentries (runs_of_call hclose runs_nil)
      obtain rfl := eval_unique heval (runs_of_call rfl hlast)
      refine ⟨⟨h.handlers,h.promise,?_,.inl ⟨rfl,rfl⟩⟩,rfl,rfl⟩
      have hwritten : ((w.takeQueue .client).upd .client shut).written .client=w.written .client := by
        simp [World.takeQueue,World.upd,World.written,shut]
      rw [hwritten]
      exact h.written
  · cases hinject

/-- The end of the client channel of a refused request. -/
theorem Refused.inactive (h : Refused request w) (ht : (system cfg).Turn w (.inactive .client) w') :
    Refused request w' ∧ w'.remote=w.remote ∧ w'.log=w.log := by
  obtain ⟨-,rfl⟩ := turn_inactive_silent (fun x hx => (h.handlers x hx).1) ht
  refine ⟨⟨?_,h.promise,h.written,h.closing⟩,rfl,rfl⟩
  intro x hx
  cases hx

/-- The refused client side depends on the client channel and the promise alone. -/
theorem Refused.of_eq (h : Refused request w) (hc : w'.client=w.client)
    (hp : w'.promise=w.promise) : Refused request w' := by
  have hpipe : w'.handlers .client=w.handlers .client :=
    congrArg (fun c : Channel => c.pipeline.handlers) hc
  have hwritten : w'.written .client=w.written .client := by
    simp only [World.written,World.chan,hc]
  refine ⟨hpipe ▸ h.handlers,hp ▸ h.promise,hwritten ▸ h.written,?_⟩
  rw [Closing,hc]
  exact h.closing

end Events

/-- What a handshake relies on of the client side of its request: when it
waits, when it has been told of success or failure, and that it can be told. -/
structure Downstream (cfg : Config) (request : Socks5CommandRequest) where
  /-- The request waits, with these handlers behind the codecs of the client. -/
  waiting : List Handler → World → Prop
  /-- It waits for a connect whose listener removes the upstream handler. -/
  dialing : Proxy → World → Prop
  /-- It has been answered with success. -/
  told : World → Prop
  /-- It has been answered with failure. -/
  refused : World → Prop
  /-- Waiting depends on the client channel and the promise alone. -/
  waiting_of_eq : ∀ {cs w w'}, waiting cs w → w'.client=w.client → w'.promise=w.promise →
    waiting cs w'
  /-- Dialing depends on the context of the upstream handler, too. -/
  dialing_of_eq : ∀ {proxy w w'}, dialing proxy w → w'.client=w.client → w'.promise=w.promise →
    w'.connecting=w.connecting → dialing proxy w'
  /-- So does an answer of success on the client channel and the promise. -/
  told_of_eq : ∀ {w w'}, told w → w'.client=w.client → w'.promise=w.promise → told w'
  /-- And an answer of failure. -/
  refused_of_eq : ∀ {w w'}, refused w → w'.client=w.client → w'.promise=w.promise → refused w'
  /-- The promise of a waiting request is pending. -/
  pending : ∀ {cs w}, waiting cs w → ∃ ctx, w.promise=some ⟨request,ctx,.pending⟩
  /-- An answer of success means that the promise has succeeded. -/
  succeeded : ∀ {w}, told w → ∃ ctx, w.promise=some ⟨request,ctx,.succeeded⟩
  /-- An answer of failure means that the promise has failed. -/
  failed : ∀ {w}, refused w → ∃ ctx, w.promise=some ⟨request,ctx,.failed⟩
  /-- A request that waits for its connect waits. -/
  dialed : ∀ {proxy w}, dialing proxy w → waiting [.upstreamHandler proxy request] w
  /-- The upstream handler leaves once its connect has succeeded. -/
  connected : ∀ {proxy w}, dialing proxy w → ∃ id, w.connecting=some id ∧
    ∃ w' seen, Runs cfg w [.notify .client (.connected id) true] w' ∧ w'.remote=w.remote ∧
      w'.log=w.log++seen ∧ (∀ obs∈seen, obs=.threw .client .noSuchElement) ∧ waiting [] w'
  /-- The promise can succeed. -/
  succeed : ∀ {w}, waiting [] w → ∃ w', Runs cfg w [.setSuccess] w' ∧ w'.remote=w.remote ∧
    w'.log=w.log ∧ told w'
  /-- The promise can fail. -/
  fail : ∀ {w}, waiting [] w → ∃ w', Runs cfg w [.setFailure] w' ∧ w'.remote=w.remote ∧
    w'.log=w.log ∧ refused w'

section Open

variable {cfg : Config} {w : World} {proxy : Proxy} {request : Socks5CommandRequest}

/-- The upstream handler leaves the pipeline of an open client. -/
theorem pending_remove {id : ℕ} {h : Handler} (hp : Pending request [h] w)
    (hl : (w.pipe .client).Located id socksCodecs h []) (hh : h≠.socks5ServerEncoder) :
    Pending request [] (w.updPipe .client (fun p => p.remove id)) where
  handlers := by simpa using hl.handlers_remove
  promise := by
    obtain ⟨ctx,encoder,hpromise,hleft,hle⟩ := hp.promise
    have hctx : id≠ctx := by
      intro he
      have hgone := hleft.1
      rw [←he,hl.has] at hgone
      cases hgone
    have hencoder : id≠encoder := by
      intro he
      have hfind := hl.find
      rw [he,hle.find] at hfind
      exact hh (Option.some.inj hfind).symm
    refine ⟨ctx,encoder,by simpa using hpromise,?_,?_⟩
    · simpa using hleft.remove hctx hencoder
    · have hlater := hle.remove_later [] hl
      simpa using hlater
  active := by simpa using hp.active
  quiet := by simpa using hp.quiet
  written := by simpa using hp.written

/-- An open client whose upstream handler waits for its connect. -/
structure Dialing (request : Socks5CommandRequest) (proxy : Proxy) (w : World) : Prop where
  /-- The client waits; the upstream handler is still in its pipeline. -/
  client : Pending request [.upstreamHandler proxy request] w
  /-- The listener of the connect removes the upstream handler. -/
  listener : ∃ id, w.connecting=some id ∧
    (w.pipe .client).Located id socksCodecs (.upstreamHandler proxy request) []

theorem Dialing.connected (h : Dialing request proxy w) : ∃ id, w.connecting=some id ∧
    ∃ w' seen, Runs cfg w [.notify .client (.connected id) true] w' ∧ w'.remote=w.remote ∧
      w'.log=w.log++seen ∧ (∀ obs∈seen, obs=.threw .client .noSuchElement) ∧
      Pending request [] w' := by
  obtain ⟨id,hid,hl⟩ := h.listener
  refine ⟨id,hid,w.updPipe .client (fun p => p.remove id),[],runs_of_call rfl (runs_remove hl),rfl,
    by simp,by simp,pending_remove h.client hl (by simp)⟩

/-- A client that stays open until it is refused. -/
def openClient (cfg : Config) (request : Socks5CommandRequest) : Downstream cfg request where
  waiting := Pending request
  dialing := Dialing request
  told := Succeeded request []
  refused := Refused request
  waiting_of_eq := Pending.of_eq
  dialing_of_eq := by
    intro proxy w w' h hc hp hk
    have hpipe : w'.pipe .client=w.pipe .client := congrArg Channel.pipeline hc
    refine ⟨h.client.of_eq hc hp,?_⟩
    rw [hk,hpipe]
    exact h.listener
  told_of_eq := Succeeded.of_eq
  refused_of_eq := Refused.of_eq
  pending := fun h => h.promise.imp fun _ h => h.choose_spec.1
  succeeded := Succeeded.promise
  failed := Refused.promise
  dialed := Dialing.client
  connected := Dialing.connected
  succeed := Pending.succeed cfg
  fail := fun h => h.fail cfg (by simp)

end Open

end ProxyDroid.CommandReply
