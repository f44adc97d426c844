import ProxyDroid.HandshakeReplies

/-!
# Events of an upstream attempt

How each stage of the handshake reacts to each event of the event loop: bytes
and ends of the remote channel, sockets that take queued writes, and the end
of the connect. An end that nobody reports leads to a dead attempt.
-/

namespace ProxyDroid.HandshakeEvents

open CallSemantics HandlerPipeline ConnectionTypes ConnectionHandlers ConnectionSystem
open ConnectionRules ConnectionInvariants TunnelPhases CommandReply HandshakeStages HandshakeReplies

section Client

variable {cfg : Config} {w w' : World} {proxy : Proxy} {request : Socks5CommandRequest}
  {down : Downstream cfg request} {rs : List Handler} {said replies : List SocksMessage}

/-- A dialogue depends on the remote channel and the log, as long as its client
waits. -/
theorem dialogue_of_client (hd : Dialogue down proxy rs said replies w)
    (hc : down.waiting [] w') (hr : w'.remote=w.remote) (hlog : w'.log=w.log) :
    Dialogue down proxy rs said replies w' where
  socks := hd.socks
  script := hd.script
  client := hc
  active := (congrArg (fun c : Channel => decide (c.life=.active)) hr).trans hd.active
  remote := (congrArg (fun c : Channel => c.pipeline.handlers) hr).trans hd.remote
  reached := hlog ▸ hd.reached
  said := by
    rw [World.written,chan_remote,hr]
    exact hd.said
  heard := hlog ▸ hd.heard
  unreported := hd.unreported

/-- A failed attempt depends on its client side and the remote channel. -/
theorem failed_of_remote (h : Failed down proxy w) (hc : down.refused w')
    (hr : w'.remote=w.remote) (hlog : w'.log=w.log) : Failed down proxy w' := by
  have hhandlers : w'.handlers .remote=w.handlers .remote :=
    congrArg (fun c : Channel => c.pipeline.handlers) hr
  have hactive : w'.isActive .remote=w.isActive .remote :=
    congrArg (fun c : Channel => decide (c.life=.active)) hr
  refine ⟨hc,?_,hr ▸ h.life,hhandlers ▸ h.silent,?_,hlog ▸ h.replies,h.spoken.of_remote hlog hr⟩
  · rw [Quiet,chan_remote,hr]
    exact h.quiet
  · rw [hactive,hhandlers]
    exact h.inert

/-- An answer does not depend on what the socket still has to take. -/
theorem answered_mono (h : Answered proxy w request) (hlog : w'.log=w.log)
    (hsent : ∀ message∈w.remote.sent, message∈w'.remote.sent)
    (hwritten : ∀ message∈w'.written .remote, message∈w.written .remote) :
    Answered proxy w' request := by
  have hplain : w.written .remote=[] ∧ repliesIn w.log=[] →
      w'.written .remote=[] ∧ repliesIn w'.log=[] := by
    rintro ⟨hw,hheard⟩
    rw [hw] at hwritten
    exact ⟨List.eq_nil_iff_forall_not_mem.mpr (fun m hm => absurd (hwritten m hm) (by simp)),
      hlog ▸ hheard⟩
  cases proxy with
  | direct => exact hplain h
  | reject => exact hplain h
  | http address port => exact hplain h
  | socks5 address port userName passwd =>
    obtain ⟨said,replies,response,hi,hdecoded,hheard,hrequest,hall⟩ := h
    exact ⟨said,replies,response,hi,hdecoded,hlog ▸ hheard,hsent _ hrequest,
      fun message hm => hall message (hwritten message hm)⟩

/-- An opened attempt depends on its client side and the remote channel. -/
theorem opened_of_remote (h : Opened down proxy w) (hc : down.told w')
    (hr : w'.remote=w.remote) (hlog : w'.log=w.log) : Opened down proxy w' := by
  have hhandlers : w'.handlers .remote=w.handlers .remote :=
    congrArg (fun c : Channel => c.pipeline.handlers) hr
  have hwritten : w'.written .remote=w.written .remote := by
    simp only [World.written,chan_remote,hr]
  refine ⟨hc,hhandlers ▸ h.remote,?_,hr ▸ h.life,hlog ▸ h.reached,?_,h.spoken.of_remote hlog hr⟩
  · rw [Quiet,chan_remote,hr]
    exact h.quiet
  · exact answered_mono h.answered hlog (fun _ hm => hr ▸ hm) (fun _ hm => hwritten ▸ hm)

/-- A step of the client side alone that leaves the status of the request as
it is. -/
structure Aside (down : Downstream cfg request) (w w' : World) : Prop where
  /-- The remote channel is left alone. -/
  remote : w'.remote=w.remote
  /-- Nothing is recorded. -/
  log : w'.log=w.log
  /-- A request that waits goes on waiting. -/
  waiting : ∀ cs, down.waiting cs w → down.waiting cs w'
  /-- So does one that waits for its connect. -/
  dialing : ∀ proxy, down.dialing proxy w → down.dialing proxy w'
  /-- A client that has been told of success has still been told. -/
  told : down.told w → down.told w'
  /-- A refused client is still refused. -/
  refused : down.refused w → down.refused w'

/-- Such a step keeps the stage of the attempt. -/
theorem live_aside (h : Live down proxy w) (ha : Aside down w w') : Live down proxy w' := by
  have hpipe : w'.pipe .remote=w.pipe .remote := congrArg Channel.pipeline ha.remote
  have hquiet : Quiet w .remote → Quiet w' .remote := by
    rw [Quiet,Quiet,chan_remote,chan_remote,ha.remote]
    exact id
  have hdialogue : ∀ {rs said replies}, Dialogue down proxy rs said replies w →
      Dialogue down proxy rs said replies w' :=
    fun hd => dialogue_of_client hd (ha.waiting _ hd.client) ha.remote ha.log
  cases h with
  | connecting h =>
    exact .connecting ⟨h.kind,ha.dialing _ h.client,ha.remote ▸ h.life,
      (congrArg Pipeline.handlers hpipe).trans h.remote,ha.remote ▸ h.unwritten,ha.log ▸ h.target,
      ha.log ▸ h.replies,ha.log ▸ h.fresh,ha.log ▸ h.calm⟩
  | greeting h =>
    obtain ⟨id,address,port,userName,passwd,hproxy,hd,hl,hq⟩ := h
    exact .greeting ⟨id,address,port,userName,passwd,hproxy,hdialogue hd,hpipe ▸ hl,ha.remote ▸ hq⟩
  | method buffered h =>
    obtain ⟨address,port,userName,passwd,hproxy,hd,hq⟩ := h
    exact .method buffered ⟨address,port,userName,passwd,hproxy,hdialogue hd,hquiet hq⟩
  | auth buffered h =>
    obtain ⟨address,port,userName,passwd,hproxy,hd,hq⟩ := h
    exact .auth buffered ⟨address,port,userName,passwd,hproxy,hdialogue hd,hquiet hq⟩
  | requesting h =>
    obtain ⟨id,hs,x,said,replies,entries,hi,hd,hspent,hin,hl,hq,hentries⟩ := h
    exact .requesting ⟨id,hs,x,said,replies,entries,hi,hdialogue hd,hspent,hin,hpipe ▸ hl,
      ha.remote ▸ hq,hentries⟩
  | command buffered h =>
    obtain ⟨hs,said,replies,hi,hd,hspent,hq,hsent⟩ := h
    exact .command buffered ⟨hs,said,replies,hi,hdialogue hd,hspent,hquiet hq,ha.remote ▸ hsent⟩
  | stalled h =>
    obtain ⟨rs,said,replies,hd,hin,hq,hreplies⟩ := h
    exact .stalled ⟨rs,said,replies,hdialogue hd,hin,hquiet hq,hreplies⟩
  | opened h => exact .opened (opened_of_remote h (ha.told h.client) ha.remote ha.log)
  | failed h => exact .failed (failed_of_remote h (ha.refused h.client) ha.remote ha.log)

/-- It does not revive a dead attempt either. -/
theorem dead_aside (h : Dead down proxy w) (ha : Aside down w w') : Dead down proxy w' := by
  obtain ⟨cs,hc⟩ := h.client
  have hhandlers : w'.handlers .remote=w.handlers .remote :=
    congrArg (fun c : Channel => c.pipeline.handlers) ha.remote
  exact ⟨⟨cs,ha.waiting _ hc⟩,ha.remote ▸ h.life,hhandlers ▸ h.silent,
    h.spoken.of_remote ha.log ha.remote⟩

/-- Every stage between the connect and the completion of the promise is a
dialogue. -/
theorem live_shape (h : Live down proxy w) : Connecting down proxy w ∨
    (∃ rs said replies, Dialogue down proxy rs said replies w) ∨
    Opened down proxy w ∨ Failed down proxy w := by
  cases h with
  | connecting h => exact .inl h
  | greeting h =>
    obtain ⟨_,_,_,_,_,_,hd,_⟩ := h
    exact .inr (.inl ⟨_,_,_,hd⟩)
  | method buffered h =>
    obtain ⟨_,_,_,_,_,hd,_⟩ := h
    exact .inr (.inl ⟨_,_,_,hd⟩)
  | auth buffered h =>
    obtain ⟨_,_,_,_,_,hd,_⟩ := h
    exact .inr (.inl ⟨_,_,_,hd⟩)
  | requesting h =>
    obtain ⟨_,_,_,_,_,_,_,hd,_⟩ := h
    exact .inr (.inl ⟨_,_,_,hd⟩)
  | command buffered h =>
    obtain ⟨_,_,_,_,hd,_⟩ := h
    exact .inr (.inl ⟨_,_,_,hd⟩)
  | stalled h =>
    obtain ⟨_,_,_,hd,_⟩ := h
    exact .inr (.inl ⟨_,_,_,hd⟩)
  | opened h => exact .inr (.inr (.inl h))
  | failed h => exact .inr (.inr (.inr h))

end Client

section Flushes

variable {cfg : Config} {w w' : World} {proxy : Proxy} {request : Socks5CommandRequest}
  {down : Downstream cfg request} {userName passwd : String} {id : ℕ} {rs : List Handler}
  {said replies : List SocksMessage}

/-- State after the listener of the greeting: the initializer is replaced by
the decoder and the handler of the method selection. -/
def greeted (w : World) (id : ℕ) (userName passwd : String) (request : Socks5CommandRequest) :
    World :=
  ((w.updPipe .remote (fun p => p.remove id)).updPipe .remote (fun p =>
    p.insertAt p.contexts.length none (.socks5InitialResponseDecoder (.init [])))).updPipe .remote
      (fun p => p.insertAt p.contexts.length none
        (.socks5InitialResponseHandler userName passwd request))

/-- The listener of the greeting, whatever became of the write. -/
theorem runs_greetingSent (cfg : Config) (ok : Bool) (hl : (w.pipe .remote).Located id []
    (.socksClientInitializer userName passwd request) [.socks5ClientEncoder]) :
    Runs cfg w (listenerBody .remote ok (.greetingSent id userName passwd request))
        (greeted w id userName passwd request) ∧
      (greeted w id userName passwd request).handlers .remote=[.socks5ClientEncoder,
        .socks5InitialResponseDecoder (.init []),
        .socks5InitialResponseHandler userName passwd request] := by
  have hremove : ((w.pipe .remote).remove id).handlers=[.socks5ClientEncoder] := by
    simpa using hl.handlers_remove
  have hhandlers : (greeted w id userName passwd request).handlers .remote=[.socks5ClientEncoder,
      .socks5InitialResponseDecoder (.init []),
      .socks5InitialResponseHandler userName passwd request] := by
    simp [greeted,hremove]
  have hactive : Runs cfg (greeted w id userName passwd request) [.pipelineFire .remote .active]
      (greeted w id userName passwd request) := by
    refine runs_pipelineFire_none ?_
    rw [hhandlers]
    simp [reacts]
  exact ⟨(runs_remove hl).cons (runs_addLast.cons (runs_addLast.cons hactive)),hhandlers⟩

/-- The socket takes the greeting. -/
theorem flushed_greeting (h : Greeting down proxy w)
    (ht : (system cfg).Turn w (.flushed .remote) w') : InMethod down proxy w' [] := by
  obtain ⟨id,address,port,userName,passwd,hproxy,hd,hl,hq⟩ := h
  obtain ⟨w₀,stmts,x,hinject,heval⟩ := ht
  simp only [system,inject] at hinject
  split at hinject
  · cases hinject
    have hdd := hd.drained
    obtain ⟨hrun,hhandlers⟩ := runs_greetingSent (w:=w.takeQueue .remote) cfg true hl
    have hdrain : perform cfg (.drain .remote) w=.call (w.takeQueue .remote)
        [.notify .remote (.greetingSent id userName passwd request) true] drop := by
      simp only [perform,chan_remote,hq,List.map_cons,List.map_nil]
    obtain rfl := eval_unique heval (runs_of_call hdrain (runs_of_call rfl hrun))
    refine ⟨address,port,userName,passwd,hproxy,?_,quiet_of_nil rfl⟩
    exact hdd.of_silent rfl rfl hdd.active hhandlers (by simp [greeted]) (by simp [greeted])
  · cases hinject

/-- The socket takes the request. -/
theorem flushed_request (h : Requesting down proxy w)
    (ht : (system cfg).Turn w (.flushed .remote) w') : InCommand down proxy w' [] := by
  obtain ⟨id,hs,x,said,replies,entries,hi,hd,hspent,hin,hl,hq,hentries⟩ := h
  obtain ⟨w₀,stmts,cause,hinject,heval⟩ := ht
  simp only [system,inject] at hinject
  split at hinject
  · cases hinject
    have hdd := hd.drained
    obtain ⟨hrun,hhandlers⟩ := runs_requestSent (w:=w.takeQueue .remote) cfg hl
    have hnotify : Runs cfg (w.takeQueue .remote) ((w.chan .remote).queue.map
        (fun entry : Msg×Listener => Stmt.notify .remote entry.2 true))
        (requested (w.takeQueue .remote) id) := by
      rw [chan_remote,hq]
      exact runs_notify_last hentries hrun
    obtain rfl := eval_unique heval (runs_of_call rfl hnotify)
    refine ⟨hs,said,replies,hi,?_,hspent,quiet_of_nil rfl,?_⟩
    · exact hdd.of_silent rfl rfl hdd.active hhandlers (by simp [requested]) (by simp [requested])
    · change _∈w.remote.sent++w.remote.queue.map Prod.fst
      rw [hq]
      simp
  · cases hinject

/-- A dialogue is held on an open channel. -/
theorem dialogue_not_connecting (hd : Dialogue down proxy rs said replies w) :
    ¬Connecting down proxy w := by
  intro h
  have hactive : w.remote.life=.active := of_decide_eq_true hd.active
  rw [h.life] at hactive
  cases hactive

/-- The promise has not succeeded during a dialogue. -/
theorem dialogue_not_opened (hd : Dialogue down proxy rs said replies w) : ¬Opened down proxy w := by
  intro h
  obtain ⟨ctx,hpending⟩ := down.pending hd.client
  obtain ⟨ctx',hsucceeded⟩ := down.succeeded h.client
  rw [hpending] at hsucceeded
  cases hsucceeded

/-- Nor has it failed. -/
theorem dialogue_not_failed (hd : Dialogue down proxy rs said replies w) : ¬Failed down proxy w := by
  intro h
  obtain ⟨ctx,hpending⟩ := down.pending hd.client
  obtain ⟨ctx',hfailed⟩ := down.failed h.client
  rw [hpending] at hfailed
  cases hfailed

/-- The socket of the remote channel takes its writes during a dialogue. -/
theorem flushed_dialogue (h : Live down proxy w) (hd : Dialogue down proxy rs said replies w)
    (ht : (system cfg).Turn w (.flushed .remote) w') : Next down proxy w' := by
  cases h with
  | connecting h => exact absurd h (dialogue_not_connecting hd)
  | greeting h =>
    have hm := flushed_greeting h ht
    obtain ⟨_,_,_,_,_,hdm,_⟩ := id hm
    exact .dialogue (.method [] hm) hdm
  | requesting h =>
    have hc := flushed_request h ht
    obtain ⟨_,_,_,_,hdc,_⟩ := id hc
    exact .dialogue (.command [] hc) hdc
  | method buffered h =>
    obtain ⟨address,port,userName,passwd,hproxy,hd,hq⟩ := h
    obtain rfl := turn_flushed_quiet hq ht
    exact .dialogue (.method buffered ⟨address,port,userName,passwd,hproxy,hd.drained,
      quiet_of_nil rfl⟩) hd.drained
  | auth buffered h =>
    obtain ⟨address,port,userName,passwd,hproxy,hd,hq⟩ := h
    obtain rfl := turn_flushed_quiet hq ht
    exact .dialogue (.auth buffered ⟨address,port,userName,passwd,hproxy,hd.drained,
      quiet_of_nil rfl⟩) hd.drained
  | command buffered h =>
    obtain ⟨hs,said,replies,hi,hd,hspent,hq,hsent⟩ := h
    obtain rfl := turn_flushed_quiet hq ht
    exact .dialogue (.command buffered ⟨hs,said,replies,hi,hd.drained,hspent,quiet_of_nil rfl,
      List.mem_append_left _ hsent⟩) hd.drained
  | stalled h =>
    obtain ⟨rs,said,replies,hd,hin,hq,hreplies⟩ := h
    obtain rfl := turn_flushed_quiet hq ht
    exact .dialogue (.stalled ⟨rs,said,replies,hd.drained,hin,quiet_of_nil rfl,hreplies⟩) hd.drained
  | opened h => exact absurd h (dialogue_not_opened hd)
  | failed h => exact absurd h (dialogue_not_failed hd)

/-- The socket of the remote channel takes its writes. -/
theorem flushed_remote (h : Live down proxy w)
    (ht : (system cfg).Turn w (.flushed .remote) w') : Live down proxy w' := by
  rcases live_shape h with hc|⟨_,_,_,hd⟩|hopened|hfailed
  · have hactive : w.remote.life=.active := of_decide_eq_true (active_of_flushed ht)
    rw [hc.life] at hactive
    cases hactive
  · exact (flushed_dialogue h hd ht).live
  · obtain rfl := turn_flushed_quiet hopened.quiet ht
    have hwritten := written_takeQueue w .remote
    exact .opened ⟨down.told_of_eq hopened.client rfl rfl,hopened.remote,quiet_of_nil rfl,
      hopened.life,hopened.reached,
      answered_mono hopened.answered rfl (fun _ hm => List.mem_append_left _ hm)
        (fun _ hm => hwritten ▸ hm),hopened.spoken.mono rfl (hwritten ▸ List.prefix_rfl)⟩
  · obtain rfl := turn_flushed_quiet hfailed.quiet ht
    exact .failed ⟨down.refused_of_eq hfailed.client rfl rfl,quiet_of_nil rfl,hfailed.life,
      hfailed.silent,hfailed.inert,hfailed.replies,
      hfailed.spoken.mono rfl (written_takeQueue w .remote ▸ List.prefix_rfl)⟩

end Flushes

section Reads

variable {cfg : Config} {w w' : World} {proxy : Proxy} {request : Socks5CommandRequest}
  {down : Downstream cfg request} {data : Bytes}

/-- No handler of the remote pipeline waits for the end of a read or of its
channel. -/
theorem live_silent (h : Live down proxy w) :
    ∀ x∈w.handlers .remote, reacts .readComplete x=false ∧ reacts .inactive x=false := by
  cases h with
  | connecting h =>
    rw [h.remote]
    simp [reacts]
  | greeting h =>
    obtain ⟨_,_,_,_,_,_,hd,_⟩ := h
    rw [hd.remote]
    simp [reacts]
  | method buffered h =>
    obtain ⟨_,_,_,_,_,hd,_⟩ := h
    rw [hd.remote]
    simp [reacts]
  | auth buffered h =>
    obtain ⟨_,_,_,_,_,hd,_⟩ := h
    rw [hd.remote]
    simp [reacts]
  | requesting h =>
    obtain ⟨_,hs,x,_,_,_,_,hd,hspent,hin,_⟩ := h
    rw [hd.remote]
    intro y hm
    rcases List.mem_append.mp hm with hm|hm
    · exact ⟨(hspent y hm).idle.1 _,(hspent y hm).idle.1 _⟩
    · rw [List.mem_singleton.mp hm]
      exact ⟨hin.readComplete,hin.inactive⟩
  | command buffered h =>
    obtain ⟨hs,_,_,_,hd,hspent,_⟩ := h
    have hidle : ∀ y∈hs, Idle y := fun y hm => (hspent y hm).idle
    rw [hd.remote]
    exact fun y hm => ⟨silent_append hidle (by simp [reacts]) y hm,
      silent_append hidle (by simp [reacts]) y hm⟩
  | stalled h =>
    obtain ⟨rs,_,_,hd,hin,_⟩ := h
    rw [hd.remote]
    exact fun y hm => ⟨(hin y hm).readComplete,(hin y hm).inactive⟩
  | opened h => exact fun y hm => ⟨(h.remote y hm).1 _,(h.remote y hm).1 _⟩
  | failed h => exact fun y hm => ⟨(h.silent y hm).2,(h.silent y hm).1⟩

/-- Bytes for handlers that have nothing left to do. -/
theorem turn_read_inert {s : Side} (hin : ∀ h∈w.handlers s, Inert h)
    (ht : (system cfg).Turn w (.read s data) w') : w'=w := by
  cases hfind : (w.handlers s).find? (reacts (.read (.bytes data))) with
  | none =>
    have hnone : ∀ h∈w.handlers s, reacts (.read (.bytes data)) h=false := by
      simpa using List.find?_eq_none.mp hfind
    exact turn_read_silent hnone (fun h hm => (hin h hm).readComplete) ht
  | some h =>
    obtain ⟨hr,pre,post,hsplit,hpre⟩ := List.find?_eq_some_iff_append.mp hfind
    obtain ⟨id,hl,hfire⟩ := perform_pipelineFire cfg (.read (.bytes data)) hsplit
      (by simpa using hpre) hr
    have hmem : h∈w.handlers s := by
      rw [hsplit]
      simp
    rw [(hin h hmem).read cfg w s id data hr] at hfire
    obtain ⟨w₀,stmts,x,hinject,heval⟩ := ht
    simp only [system,inject] at hinject
    split at hinject
    · cases hinject
      exact eval_unique heval ((runs_of_call hfire runs_nil).cons
        (runs_pipelineFire_none (fun y hm => (hin y hm).readComplete)))
    · cases hinject

/-- A decoder that takes the bytes decides the next stage. -/
theorem turn_read_takes (pre : List Handler) {post : List Handler} {decoder : Handler}
    (ha : w.isActive .remote=true) (hh : w.handlers .remote=pre++decoder::post)
    (hpre : ∀ x∈pre, reacts (.read (.bytes data)) x=false)
    (hr : reacts (.read (.bytes data)) decoder=true)
    (htakes : ∀ id, (w.pipe .remote).Located id pre decoder post →
      ∃ w₁, Takes cfg w .remote id (.read (.bytes data)) decoder w₁ ∧ Next down proxy w₁)
    (ht : (system cfg).Turn w (.read .remote data) w') : Next down proxy w' := by
  obtain ⟨id,hl,hfire⟩ := perform_pipelineFire cfg (.read (.bytes data)) hh hpre hr
  obtain ⟨w₁,htake,hnext⟩ := htakes id hl
  have hturn := turn_read ha (htake _ hfire) (fun x hm => (live_silent hnext.live x hm).1)
  obtain rfl := ht.deterministic hturn
  exact hnext

/-- Bytes of the server in the middle of the dialogue. -/
theorem read_dialogue {rs : List Handler} {said replies : List SocksMessage}
    (h : Live down proxy w) (hd : Dialogue down proxy rs said replies w)
    (ht : (system cfg).Turn w (.read .remote data) w') : Next down proxy w' := by
  cases h with
  | connecting h => exact absurd h (dialogue_not_connecting hd)
  | greeting h =>
    obtain ⟨_,_,_,_,_,_,hdg,_⟩ := id h
    have hw : w'=w := by
      refine turn_read_silent ?_ (fun x hm => (live_silent (.greeting h) x hm).1) ht
      rw [hdg.remote]
      simp [reacts,readsMessage]
    exact hw ▸ .dialogue (.greeting h) hd
  | method buffered h =>
    obtain ⟨address,port,userName,passwd,hproxy,hdm,hq⟩ := h
    exact turn_read_takes [.socks5ClientEncoder] hdm.active hdm.remote
      (by simp [reacts,readsMessage]) rfl (fun _ hl => initial_takes cfg data hproxy hdm hq hl) ht
  | auth buffered h =>
    obtain ⟨address,port,userName,passwd,hproxy,hda,hq⟩ := h
    exact turn_read_takes introduced hda.active hda.remote
      (fun x hm => (introduced_spent x hm).idle.1 _) rfl
      (fun _ hl => auth_takes cfg data hproxy hda hq hl) ht
  | command buffered h =>
    obtain ⟨hs,said,replies,hi,hdc,hspent,hq,hsent⟩ := h
    exact turn_read_takes hs hdc.active hdc.remote (fun x hm => (hspent x hm).idle.1 _) rfl
      (fun _ hl => command_takes cfg data hi hdc hspent hq hsent hl) ht
  | requesting h =>
    obtain ⟨_,hs,x,_,_,_,_,hdr,hspent,hin,_⟩ := id h
    have hall : ∀ y∈w.handlers .remote, Inert y := by
      rw [hdr.remote]
      intro y hm
      rcases List.mem_append.mp hm with hm|hm
      · exact inert_of_idle (hspent y hm).idle
      · rw [List.mem_singleton.mp hm]
        exact hin
    exact turn_read_inert hall ht ▸ .dialogue (.requesting h) hd
  | stalled h =>
    obtain ⟨rs,_,_,hds,hin,_⟩ := id h
    exact turn_read_inert (hds.remote ▸ hin) ht ▸ .dialogue (.stalled h) hd
  | opened h => exact absurd h (dialogue_not_opened hd)
  | failed h => exact absurd h (dialogue_not_failed hd)

/-- Bytes of the server. -/
theorem read_remote (h : Live down proxy w)
    (ht : (system cfg).Turn w (.read .remote data) w') : Live down proxy w' := by
  have ha := active_of_read ht
  rcases live_shape h with hc|⟨_,_,_,hd⟩|ho|hf
  · have hactive : w.remote.life=.active := of_decide_eq_true ha
    rw [hc.life] at hactive
    cases hactive
  · exact (read_dialogue h hd ht).live
  · exact turn_read_inert (fun x hm => inert_of_idle (ho.remote x hm)) ht ▸ h
  · exact turn_read_inert (hf.inert ha) ht ▸ h

end Reads

/-- The promise of the request is pending. -/
def PromisePending (w : World) : Prop :=
  ∃ promise, w.promise=some promise ∧ promise.state=.pending

/-- Ends of an attempt that no handler reports: a failed connect, and an end of
the remote channel while the promise is pending, unless it is an exception and
a handler of the pipeline takes it. -/
def Unreported (w : World) : Event → Prop
  | .connectFailed => True
  | .peerClose .remote => PromisePending w
  | .writeError .remote => PromisePending w
  | .ioException .remote => PromisePending w ∧
      ∀ h∈w.handlers .remote, reacts (.exceptionCaught .ioException) h=false
  | _ => False

section Ends

variable {cfg : Config} {w w' : World} {proxy : Proxy} {request : Socks5CommandRequest}
  {down : Downstream cfg request} {event : Event} {rs : List Handler} {said replies : List SocksMessage}

theorem pending_promise {cs : List Handler} (h : down.waiting cs w) : PromisePending w := by
  obtain ⟨ctx,hp⟩ := down.pending h
  exact ⟨_,hp,rfl⟩

/-- A completed promise leaves nothing unreported. -/
theorem reported_of_state {ctx : ℕ} {state : PromiseState}
    (hp : w.promise=some ⟨request,ctx,state⟩) (hs : state≠.pending) (he : Ends .remote event) :
    ¬Unreported w event := by
  have hnot : ¬PromisePending w := by
    rintro ⟨promise,hpromise,hstate⟩
    rw [hp] at hpromise
    cases hpromise
    exact hs hstate
  rcases he with rfl|rfl|rfl
  · exact hnot
  · exact fun h => hnot h.1
  · exact hnot

/-- An end of the remote channel that nobody takes while the promise is
pending. -/
theorem unreported_of_ends (hp : PromisePending w) (he : Ends .remote event)
    (hn : ∀ h∈w.handlers .remote, reacts (.exceptionCaught .ioException) h=false) :
    Unreported w event := by
  rcases he with rfl|rfl|rfl
  · exact hp
  · exact ⟨hp,hn⟩
  · exact hp

/-- A channel that is closed loses the writes its socket has not taken. -/
theorem written_shut (w : World) : (w.upd .remote shut).written .remote<+:w.written .remote :=
  ⟨w.remote.queue.map Prod.fst,by simp [World.written,World.upd,shut]⟩

/-- The end of the remote channel in the middle of a dialogue. -/
theorem ends_dialogue (hd : Dialogue down proxy rs said replies w) (he : Ends .remote event)
    (hn : ∀ h∈rs, reacts (.exceptionCaught .ioException) h=false)
    (hs : ∀ h∈rs, reacts .inactive h=false)
    (hq : ∀ entry∈w.remote.queue, listenerBody .remote false entry.2=[])
    (ht : (system cfg).Turn w event w') : Dead down proxy w' ∧ Unreported w event := by
  have hnone : ∀ h∈w.handlers .remote, reacts (.exceptionCaught .ioException) h=false := by
    rw [hd.remote]
    exact hn
  obtain ⟨ha,x,heval⟩ := turn_ends he hnone ht
  obtain rfl := eval_unique heval (runs_of_call (perform_close ha) (runs_notify_empty hq))
  refine ⟨⟨⟨[],down.waiting_of_eq hd.client rfl rfl⟩,rfl,?_,hd.spoken.mono rfl (written_shut w)⟩,
    unreported_of_ends (pending_promise hd.client) he hnone⟩
  change ∀ h∈w.handlers .remote, reacts .inactive h=false
  rw [hd.remote]
  exact hs

/-- The same when the handlers have nothing left to do. -/
theorem ends_inert (hd : Dialogue down proxy rs said replies w) (he : Ends .remote event)
    (hin : ∀ h∈rs, Inert h) (hq : ∀ entry∈w.remote.queue, listenerBody .remote false entry.2=[])
    (ht : (system cfg).Turn w event w') : Dead down proxy w' ∧ Unreported w event :=
  ends_dialogue hd he (fun h hm => (hin h hm).exceptionCaught _) (fun h hm => (hin h hm).inactive)
    hq ht

/-- A quiet queue is failed without effect. -/
theorem quiet_failed (hq : Quiet w .remote) :
    ∀ entry∈w.remote.queue, listenerBody .remote false entry.2=[] := by
  intro entry he
  have hnone : entry.2=.none := hq entry he
  rw [hnone]
  rfl

/-- The listener of the greeting writes nothing. -/
theorem greeted_written (w : World) {id : ℕ} {userName passwd : String} :
    (greeted (w.upd .remote shut) id userName passwd request).written .remote<+:
      w.written .remote := by
  simpa [greeted] using written_shut w

/-- Closing the remote channel while the greeting waits in its queue. -/
theorem runs_close_greeting (cfg : Config) {id : ℕ} {userName passwd : String}
    (ha : w.isActive .remote=true)
    (hl : (w.pipe .remote).Located id [] (.socksClientInitializer userName passwd request)
      [.socks5ClientEncoder])
    (hq : w.remote.queue=[(.encoded greeting,.greetingSent id userName passwd request)]) :
    Runs cfg w [.close .remote] (greeted (w.upd .remote shut) id userName passwd request) ∧
      ∀ h∈(greeted (w.upd .remote shut) id userName passwd request).handlers .remote,
        reacts .inactive h=false ∧ reacts .readComplete h=false := by
  obtain ⟨hrun,hhandlers⟩ := runs_greetingSent (w:=w.upd .remote shut) cfg false hl
  have hclose : perform cfg (.close .remote) w=.call (w.upd .remote shut)
      [.notify .remote (.greetingSent id userName passwd request) false] drop := by
    rw [perform_close ha,chan_remote,hq]
    rfl
  refine ⟨runs_of_call hclose (runs_of_call rfl hrun),?_⟩
  rw [hhandlers]
  simp [reacts]

/-- The initializer takes an exception and fails the promise. -/
theorem runs_exception_greeting (cfg : Config) {down : Downstream cfg request}
    {userName passwd : String}
    (hd : Dialogue down proxy [.socksClientInitializer userName passwd request,
      .socks5ClientEncoder] said replies w) :
    ∃ w', Runs cfg w [.pipelineFire .remote (.exceptionCaught .ioException)] w' ∧
      w'.remote=w.remote ∧ w'.log=w.log ∧ down.refused w' := by
  have hh : w.handlers .remote=[]++Handler.socksClientInitializer userName passwd request::
      [Handler.socks5ClientEncoder] := hd.remote
  obtain ⟨id,hl,hfire⟩ := perform_pipelineFire cfg (.exceptionCaught .ioException) hh (by simp) rfl
  have hnext : Runs cfg w [.ctxFire .remote id (.exceptionCaught .ioException)] w :=
    runs_ctxFire_none hl (by simp [reacts])
  obtain ⟨w',hrun,hremote,hlog,hrefused⟩ := down.fail hd.client
  exact ⟨w',runs_of_call hfire (hnext.cons hrun),hremote,hlog,hrefused⟩

/-- The end of the remote channel while the greeting waits: an exception is
reported by the initializer, the other ends are not. -/
theorem ends_greeting (h : Greeting down proxy w) (he : Ends .remote event)
    (ht : (system cfg).Turn w event w') :
    (Live down proxy w' ∧ ¬Unreported w event) ∨ (Dead down proxy w' ∧ Unreported w event) := by
  obtain ⟨id,address,port,userName,passwd,hproxy,hd,hl,hq⟩ := h
  have hpending := pending_promise hd.client
  obtain ⟨hclose,hsilent⟩ := runs_close_greeting cfg hd.active hl hq
  have hdead : Dead down proxy (greeted (w.upd .remote shut) id userName passwd request) :=
    ⟨⟨[],down.waiting_of_eq hd.client rfl rfl⟩,rfl,fun x hm => (hsilent x hm).1,
      hd.spoken.mono (by simp [greeted]) (greeted_written w)⟩
  obtain ⟨w₀,stmts,x,hinject,heval⟩ := ht
  rcases he with rfl|rfl|rfl
  · simp only [system,inject] at hinject
    split at hinject
    · cases hinject
      obtain rfl := eval_unique heval hclose
      exact .inr ⟨hdead,hpending⟩
    · cases hinject
  · simp only [system,inject] at hinject
    split at hinject
    · cases hinject
      obtain ⟨w₁,hfire,hremote,hlog,hrefused⟩ := runs_exception_greeting cfg hd
      have hpipe : w₁.pipe .remote=w.pipe .remote := congrArg Channel.pipeline hremote
      have hactive : w₁.isActive .remote=true :=
        (congrArg (fun c : Channel => decide (c.life=.active)) hremote).trans hd.active
      obtain ⟨hclose₁,hsilent₁⟩ := runs_close_greeting cfg hactive (hpipe ▸ hl) (hremote ▸ hq)
      obtain rfl := eval_unique heval (hfire.cons hclose₁)
      have hreported : ¬Unreported w (.ioException .remote) := by
        rintro ⟨-,hnone⟩
        have htakes := hnone _ (hd.remote ▸ List.mem_cons_self)
        cases htakes
      have hspoken : Spoken proxy request (greeted (w₁.upd .remote shut) id userName passwd request) :=
        (hd.spoken.of_remote hlog hremote).mono (by simp [greeted]) (greeted_written w₁)
      refine .inl ⟨.failed ⟨down.refused_of_eq hrefused rfl rfl,quiet_of_nil rfl,?_,hsilent₁,
        fun ha => ?_,?_,hspoken⟩,hreported⟩
      · change Life.closed≠.connecting
        simp
      · cases ha
      · have hheard : repliesIn w₁.log=[] := by rw [hlog,hd.heard]
        change ∀ message∈repliesIn w₁.log, _
        simp [hheard]
    · cases hinject
  · simp only [system,inject] at hinject
    split at hinject
    · cases hinject
      obtain rfl := eval_unique heval hclose
      exact .inr ⟨hdead,hpending⟩
    · cases hinject

/-- The end of the remote channel in any stage. -/
theorem ends_remote (h : Live down proxy w) (he : Ends .remote event)
    (ht : (system cfg).Turn w event w') :
    (Live down proxy w' ∧ ¬Unreported w event) ∨ (Dead down proxy w' ∧ Unreported w event) := by
  cases h with
  | connecting h =>
    obtain ⟨w₀,stmts,x,hinject,-⟩ := ht
    have hactive : w.isActive .remote=false := by simp [World.isActive,World.chan,h.life]
    rcases he with rfl|rfl|rfl <;> simp [system,inject,hactive] at hinject
  | greeting h => exact ends_greeting h he ht
  | method buffered h =>
    obtain ⟨_,_,_,_,_,hd,hq⟩ := h
    exact .inr (ends_dialogue hd he (by simp [reacts]) (by simp [reacts]) (quiet_failed hq) ht)
  | auth buffered h =>
    obtain ⟨_,_,_,_,_,hd,hq⟩ := h
    exact .inr (ends_dialogue hd he (by simp [reacts]) (by simp [reacts]) (quiet_failed hq) ht)
  | requesting h =>
    obtain ⟨id,hs,x,_,_,entries,_,hd,hspent,hin,_,hq,hentries⟩ := h
    refine .inr (ends_inert hd he ?_ ?_ ht)
    · intro y hm
      rcases List.mem_append.mp hm with hm|hm
      · exact inert_of_idle (hspent y hm).idle
      · rw [List.mem_singleton.mp hm]
        exact hin
    · rw [hq]
      intro entry hm
      rcases List.mem_append.mp hm with hm|hm
      · rw [hentries entry hm]
        rfl
      · rw [List.mem_singleton.mp hm]
        rfl
  | command buffered h =>
    obtain ⟨hs,_,_,_,hd,hspent,hq,_⟩ := h
    have hidle : ∀ x∈hs, Idle x := fun x hm => (hspent x hm).idle
    exact .inr (ends_dialogue hd he (silent_append hidle (by simp [reacts]))
      (silent_append hidle (by simp [reacts])) (quiet_failed hq) ht)
  | stalled h =>
    obtain ⟨rs,_,_,hd,hin,hq,_⟩ := h
    exact .inr (ends_inert hd he hin (quiet_failed hq) ht)
  | opened h =>
    obtain ⟨ha,x,heval⟩ := turn_ends he (fun x hm => (h.remote x hm).1 _) ht
    obtain rfl := eval_unique heval (runs_close_quiet ha h.quiet)
    obtain ⟨ctx,hpromise⟩ := down.succeeded h.client
    refine .inl ⟨.opened ⟨down.told_of_eq h.client rfl rfl,h.remote,quiet_of_nil rfl,.inr rfl,
      h.reached,?_,h.spoken.mono rfl (written_shut w)⟩,reported_of_state hpromise (by simp) he⟩
    refine answered_mono h.answered rfl (fun _ hm => hm) (fun message hm => ?_)
    have hsent : message∈w.remote.sent := by simpa [World.written,World.upd,shut] using hm
    exact List.mem_append_left _ hsent
  | failed h =>
    have ha : w.isActive .remote=true := by
      obtain ⟨w₀,stmts,x,hinject,-⟩ := ht
      rcases he with rfl|rfl|rfl
      all_goals
        simp only [system,inject] at hinject
        split at hinject
      · assumption
      · cases hinject
      · assumption
      · cases hinject
      · rename_i hboth
        exact (Bool.and_eq_true_iff.mp hboth).1
      · cases hinject
    obtain ⟨-,x,heval⟩ := turn_ends he (fun x hm => (h.inert ha x hm).exceptionCaught _) ht
    obtain rfl := eval_unique heval (runs_close_quiet ha h.quiet)
    obtain ⟨ctx,hpromise⟩ := down.failed h.client
    refine .inl ⟨.failed ⟨down.refused_of_eq h.client rfl rfl,quiet_of_nil rfl,?_,h.silent,
      fun ha => ?_,h.replies,h.spoken.mono rfl (written_shut w)⟩,
      reported_of_state hpromise (by simp) he⟩
    · change Life.closed≠.connecting
      simp
    · cases ha

/-- The end of the remote channel reaches its handlers. -/
theorem inactive_remote (h : Live down proxy w) (ho : Orderly w)
    (ht : (system cfg).Turn w (.inactive .remote) w') : Live down proxy w' := by
  have hclosed : w.remote.life=.closed := by
    obtain ⟨w₀,stmts,x,hinject,-⟩ := ht
    simp only [system,inject] at hinject
    split at hinject
    · rename_i hp
      exact ho .remote hp
    · cases hinject
  rcases live_shape h with h|⟨_,_,_,hd⟩|h|h
  · rw [h.life] at hclosed
    cases hclosed
  · have hactive : w.remote.life=.active := of_decide_eq_true hd.active
    rw [hactive] at hclosed
    cases hclosed
  · obtain ⟨-,rfl⟩ := turn_inactive_silent (fun x hm => (h.remote x hm).1 _) ht
    refine .opened ⟨down.told_of_eq h.client rfl rfl,?_,h.quiet,h.life,h.reached,?_,
      h.spoken.mono rfl List.prefix_rfl⟩
    · intro x hm
      cases hm
    · exact answered_mono h.answered rfl (fun _ hm => hm) (fun _ hm => hm)
  · obtain ⟨-,rfl⟩ := turn_inactive_silent (fun x hm => (h.silent x hm).1) ht
    refine .failed ⟨down.refused_of_eq h.client rfl rfl,h.quiet,h.life,?_,?_,h.replies,
      h.spoken.mono rfl List.prefix_rfl⟩
    · intro x hm
      cases hm
    · intro _ x hm
      cases hm

end Ends

end ProxyDroid.HandshakeEvents
