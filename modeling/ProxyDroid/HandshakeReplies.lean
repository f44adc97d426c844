import ProxyDroid.HandshakeStages

/-!
# Replies of an upstream server

What the decoders of the dialogue do with the bytes of the server. A reply may
arrive in pieces or together with later ones: bytes behind a reply go to the
decoder that its handler has just installed, so one read can carry the
dialogue through several stages.
-/

namespace ProxyDroid.HandshakeReplies

open CallSemantics HandlerPipeline ConnectionTypes ConnectionHandlers ConnectionSystem
open ConnectionRules TunnelPhases CommandReply HandshakeStages

section Completing

variable {cfg : Config} {w : World} {proxy : Proxy} {request : Socks5CommandRequest}
  {hs : List Handler} {said replies : List SocksMessage} {buffered : Bytes} {id : ℕ}

/-- Failing the promise while the remote handlers have nothing left to do. -/
theorem runs_setFailure (cfg : Config) {down : Downstream cfg request} (hc : down.waiting [] w)
    (ha : w.isActive .remote=true) (hq : Quiet w .remote)
    (hin : ∀ h∈w.handlers .remote, Inert h)
    (hreplies : ∀ message∈repliesIn w.log, Refusing message → Reported message)
    (hspoken : Spoken proxy request w) :
    ∃ w', Runs cfg w [.setFailure] w' ∧ w'.remote=w.remote ∧ w'.log=w.log ∧ Failed down proxy w' := by
  obtain ⟨w',hrun,hremote,hlog,hrefused⟩ := down.fail hc
  have hpipe : w'.handlers .remote=w.handlers .remote :=
    congrArg (fun c : Channel => c.pipeline.handlers) hremote
  refine ⟨w',hrun,hremote,hlog,hrefused,?_,?_,?_,?_,hlog ▸ hreplies,hspoken.of_remote hlog hremote⟩
  · rw [Quiet,chan_remote,hremote]
    exact hq
  · rw [hremote]
    have hlife : w.remote.life=.active := of_decide_eq_true ha
    simp [hlife]
  · intro h hm
    have hinert := hin h (hpipe ▸ hm)
    exact ⟨hinert.inactive,hinert.readComplete⟩
  · intro _ h hm
    exact hin h (hpipe ▸ hm)

/-- A decoded command response succeeds the promise and removes its handler. -/
theorem runs_commandResponse (cfg : Config) {down : Downstream cfg request}
    {response : CommandResponse} {id' : ℕ} (hi : Introduced proxy said replies)
    (hd : Dialogue down proxy (hs++[Handler.socks5CommandResponseDecoder .success,
      .socksCommandResponseHandler]) (said++[SocksMessage.commandRequest request])
      (replies++[SocksMessage.commandResponse response]) w)
    (hr : response.decoded=true) (hspent : ∀ h∈hs, Spent h) (hq : Quiet w .remote)
    (hsent : .encoded (.commandRequest request)∈w.remote.sent)
    (hl : (w.pipe .remote).Located id hs (.socks5CommandResponseDecoder .success)
      [.socksCommandResponseHandler])
    (hl' : (w.pipe .remote).Located id' (hs++[Handler.socks5CommandResponseDecoder .success])
      .socksCommandResponseHandler []) :
    ∃ w', Runs cfg w (SocksClientInitializer.commandResponseRead0 id' response) w' ∧
      (w'.pipe .remote).Located id hs (.socks5CommandResponseDecoder .success) [] ∧
      w'.isActive .remote=true ∧ Opened down proxy w' := by
  obtain ⟨w₁,hsucceed,hremote,hlog,hs₁⟩ := down.succeed hd.client
  have hpipe : w₁.pipe .remote=w.pipe .remote := congrArg Channel.pipeline hremote
  have hl₁ : ((w₁.updPipe .remote (fun p => p.remove id')).pipe .remote).Located id hs
      (.socks5CommandResponseDecoder .success) [] := by
    have hlater := Pipeline.Located.remove_later [] hl hl'
    simpa [hpipe] using hlater
  have hhandlers : (w₁.updPipe .remote (fun p => p.remove id')).handlers .remote=
      hs++[Handler.socks5CommandResponseDecoder .success] := hl₁.handlers
  have hwritten : (w₁.updPipe .remote (fun p => p.remove id')).written .remote=w.written .remote := by
    rw [updPipe_written,World.written,chan_remote,hremote]
    rfl
  have hbody : SocksClientInitializer.commandResponseRead0 id' response=
      [.setSuccess,.remove .remote id'] := by
    rw [SocksClientInitializer.commandResponseRead0,if_pos hr]
  have hactive : w₁.remote.life=.active := by
    rw [hremote]
    exact of_decide_eq_true hd.active
  refine ⟨w₁.updPipe .remote (fun p => p.remove id'),?_,hl₁,decide_eq_true hactive,
    down.told_of_eq hs₁ rfl rfl,?_,?_,.inl hactive,?_,?_,?_⟩
  · rw [hbody]
    exact hsucceed.cons (runs_remove (hpipe ▸ hl'))
  · rw [hhandlers]
    intro h hm
    rcases List.mem_append.mp hm with hm|hm
    · exact (hspent h hm).idle
    · rw [List.mem_singleton.mp hm]
      exact Spent.idle (.inr (.inr (.inr rfl)))
  · rw [quiet_updPipe,Quiet,chan_remote,hremote]
    exact hq
  · rw [updPipe_log,hlog]
    exact hd.reached
  · obtain ⟨address,port,userName,passwd,rfl⟩ := hd.socks
    refine ⟨said,replies,response,hi,hr,?_,?_,?_⟩
    · rw [updPipe_log,hlog,hd.heard]
    · change _∈w₁.remote.sent
      rw [hremote]
      exact hsent
    · rw [hwritten,hd.said]
      exact fun _ hm => hm
  · exact (hd.spoken.of_remote hlog hremote).of_written (by simp) updPipe_written

/-- Bytes for the decoder of the command response: more are needed, they are
ignored, or they open the tunnel. -/
theorem command_takes (cfg : Config) {down : Downstream cfg request} (data : Bytes)
    (hi : Introduced proxy said replies)
    (hd : Dialogue down proxy (hs++[Handler.socks5CommandResponseDecoder (.init buffered),
      .socksCommandResponseHandler]) (said++[SocksMessage.commandRequest request]) replies w)
    (hspent : ∀ h∈hs, Spent h) (hq : Quiet w .remote)
    (hsent : .encoded (.commandRequest request)∈w.remote.sent)
    (hl : (w.pipe .remote).Located id hs (.socks5CommandResponseDecoder (.init buffered))
      [.socksCommandResponseHandler]) :
    ∃ w', Takes cfg w .remote id (.read (.bytes data))
        (.socks5CommandResponseDecoder (.init buffered)) w' ∧ Next down proxy w' := by
  cases hp : cfg.parseCommandResponse (buffered++data) with
  | incomplete =>
    have hbody : body cfg w .remote id (.read (.bytes data))
        (.socks5CommandResponseDecoder (.init buffered))=
        [.assign .remote id (.socks5CommandResponseDecoder (.init (buffered++data)))] := by
      rw [body_command]
      simp [decodeOnce,hp]
    have hla := hl.assign (.socks5CommandResponseDecoder (.init (buffered++data)))
    have hda : Dialogue down proxy _ _ _ (w.updPipe .remote (fun p => p.assign id
        (.socks5CommandResponseDecoder (.init (buffered++data))))) :=
      hd.of_silent rfl rfl hd.active hla.handlers (by simp) (by simp)
    exact ⟨_,takes_of_runs (hbody ▸ runs_assign),.dialogue (.command (buffered++data)
      ⟨hs,said,replies,hi,hda,hspent,by simpa using hq,hsent⟩) hda⟩
  | malformed =>
    have hbody : body cfg w .remote id (.read (.bytes data))
        (.socks5CommandResponseDecoder (.init buffered))=
        .assign .remote id (.socks5CommandResponseDecoder .failure)::
          emitReply id (.commandResponse (commandReply none)) := by
      rw [body_command]
      simp [decodeOnce,hp]
    obtain ⟨hle,id',hl',hemit⟩ := runs_emit cfg (.socks5CommandResponseDecoder .failure)
      (.commandResponse (commandReply none)) hl rfl
    have hde := hd.emitted hle (by simp [Reported]) (.answered hi _)
    refine ⟨_,takes_of_runs (hbody ▸ hemit _ (takes_of_runs runs_nil)),
      .dialogue (.stalled ⟨_,_,_,hde,?_,?_,?_⟩) hde⟩
    · intro h hm
      rcases List.mem_append.mp hm with hm|hm
      · exact inert_of_idle (hspent h hm).idle
      · simp only [List.mem_cons,List.not_mem_nil,or_false] at hm
        rcases hm with rfl|rfl
        · exact inert_of_waiting (.inr (.inr (.inl rfl)))
        · exact inert_of_waiting (.inr (.inr (.inr (.inr (.inr rfl)))))
    · simpa [afterEmit] using hq
    · intro response hm
      rcases List.mem_append.mp hm with hm|hm
      · cases hi <;> simp at hm
      · cases List.mem_singleton.mp hm
        rfl
  | message response rest =>
    have hbody : body cfg w .remote id (.read (.bytes data))
        (.socks5CommandResponseDecoder (.init buffered))=
        (.assign .remote id (.socks5CommandResponseDecoder .success)::
          emitReply id (.commandResponse (commandReply (some response))))++
          fireRest .remote id rest := by
      rw [body_command]
      simp [decodeOnce,hp]
    obtain ⟨hle,id',hl',hemit⟩ := runs_emit cfg (.socks5CommandResponseDecoder .success)
      (.commandResponse (commandReply (some response))) hl rfl
    have hdn := hd.emitted hle (by simp [Reported]) (.answered hi _)
    obtain ⟨w',hrun,hl₁,hactive,hopened⟩ := runs_commandResponse cfg hi hdn rfl hspent
      (by simpa [afterEmit] using hq) hsent hle hl'
    have hrest := runs_fireRest_none cfg rest hl₁ (by simp)
    exact ⟨w',takes_of_runs (hbody ▸ (hemit w' (takes_of_runs hrun)).append hrest),.opened hopened hactive⟩

end Completing

section Sending

variable {cfg : Config} {w : World} {proxy : Proxy} {request : Socks5CommandRequest}
  {hs pre post : List Handler} {h decoder : Handler} {said replies : List SocksMessage}
  {message : SocksMessage} {listener : Listener} {id id' : ℕ}

/-- A message written from a position behind the encoder reaches it. -/
theorem perform_write_socks (cfg : Config) (message : SocksMessage) (listener : Listener)
    (hl : (w.pipe .remote).Located id (.socks5ClientEncoder::hs) h post)
    (hs' : ∀ x∈hs, intercepts (.socks message) x=false) :
    ∃ encoder, (w.pipe .remote).Located encoder [] .socks5ClientEncoder (hs++h::post) ∧
      perform cfg (.write .remote (some id) (.socks message) listener true) w=
        .call w (writeBody cfg .remote encoder (.socks message) listener true
          .socks5ClientEncoder) drop := by
  have hl₀ : (w.pipe .remote).Located id ([]++Handler.socks5ClientEncoder::hs) h post := hl
  obtain ⟨encoder,hprev,hle⟩ := hl₀.prevWhere_eq (q:=intercepts (.socks message)) hs' rfl
  refine ⟨encoder,hle,?_⟩
  simp only [perform,hprev,hle.find]

/-- What the encoder makes of a message is queued; the socket takes it now or
later. -/
theorem runs_encoder_remote {P : World → Prop} (cfg : Config) (message : SocksMessage)
    (listener : Listener) (hl : (w.pipe .remote).Located id pre .socks5ClientEncoder post)
    (ha : w.isActive .remote=true) (hq : Quiet w .remote)
    (hlater : P (w.enqueue .remote (.encoded message) listener).attempt)
    (hnow : ∃ w', Runs cfg ((w.enqueue .remote (.encoded message) listener).attempt.takeQueue
      .remote) (listenerBody .remote true listener) w' ∧ P w') :
    ∃ w', Runs cfg w (writeBody cfg .remote id (.socks message) listener true
      .socks5ClientEncoder) w' ∧ P w' := by
  have hhead : perform cfg (.write .remote (some id) (.encoded message) listener true) w=
      .call (w.enqueue .remote (.encoded message) listener) [.flush .remote] drop := by
    have hnone := hl.prevWhere_none (q:=intercepts (.encoded message))
      (fun x _ => intercepts_encoded message x)
    simp only [perform,hnone]
    exact headWrite_active (.inr ⟨message,rfl⟩) ha
  cases hn : cfg.flushNow (w.enqueue .remote (.encoded message) listener).flushes with
  | false => exact ⟨_,runs_of_call hhead (runs_flush_later hn),hlater⟩
  | true =>
    obtain ⟨w',hrun,hp⟩ := hnow
    have hentries : ∀ entry∈w.remote.queue, entry.2=.none := hq
    have hnotify : Runs cfg ((w.enqueue .remote (.encoded message) listener).attempt.takeQueue
        .remote) ((w.remote.queue++[(Msg.encoded message,listener)]).map
          (fun entry : Msg×Listener => .notify .remote entry.2 true)) w' :=
      runs_notify_last hentries hrun
    exact ⟨w',runs_of_call hhead (runs_flush_now hn hnotify),hp⟩

/-- State after the listener of the request: its handler is replaced by the
decoder and the handler of the response. -/
def requested (w : World) (id : ℕ) : World :=
  ((w.updPipe .remote (fun p => p.remove id)).updPipe .remote (fun p =>
    p.insertAt p.contexts.length none (.socks5CommandResponseDecoder (.init [])))).updPipe .remote
      (fun p => p.insertAt p.contexts.length none .socksCommandResponseHandler)

/-- The listener of the request. -/
theorem runs_requestSent (cfg : Config) (hl : (w.pipe .remote).Located id hs h []) :
    Runs cfg w (listenerBody .remote true (.requestSent id)) (requested w id) ∧
      (requested w id).handlers .remote=
        hs++[Handler.socks5CommandResponseDecoder (.init []),.socksCommandResponseHandler] := by
  refine ⟨(runs_remove hl).cons (runs_addLast.cons runs_addLast),?_⟩
  have hremove : ((w.pipe .remote).remove id).handlers=hs := by simpa using hl.handlers_remove
  simp [requested,hremove]

/-- A decoder in front of the handler of the request stays where it is. -/
theorem located_requested (hd : (w.pipe .remote).Located id pre decoder [h])
    (hl : (w.pipe .remote).Located id' (pre++[decoder]) h []) :
    ((requested w id').pipe .remote).Located id pre decoder
      [.socks5CommandResponseDecoder (.init []),.socksCommandResponseHandler] := by
  have hremove := hd.remove_later [] hl
  have hadd := (hremove.insertAt_length none (.socks5CommandResponseDecoder (.init []))).insertAt_length
    none .socksCommandResponseHandler
  simpa [requested] using hadd

/-- The handler of a reply sends the request; bytes behind the reply go to
the decoder of the response when the socket has taken the request at once. -/
theorem runs_commandRequest (cfg : Config) {down : Downstream cfg request} (rest : Bytes)
    (hs : List Handler) (hi : Introduced proxy said replies)
    (hd : Dialogue down proxy (pre++[decoder,h]) said replies w) (hq : Quiet w .remote)
    (he : pre++[decoder]=.socks5ClientEncoder::hs) (hspent : ∀ x∈pre++[decoder], Spent x)
    (hs' : ∀ x∈hs, ∀ m, intercepts (.socks m) x=false)
    (hin : Inert h) (hread : ∀ data, reacts (.read (.bytes data)) h=false)
    (hl : (w.pipe .remote).Located id pre decoder [h])
    (hl' : (w.pipe .remote).Located id' (pre++[decoder]) h []) :
    ∃ w₁, Runs cfg w [.write .remote (some id') (.socks (.commandRequest request))
        (.requestSent id') true] w₁ ∧
      ∃ w₂, Runs cfg w₁ (fireRest .remote id rest) w₂ ∧ Next down proxy w₂ := by
  have hle : (w.pipe .remote).Located id' (.socks5ClientEncoder::hs) h [] := he ▸ hl'
  obtain ⟨encoder,hle,hwrite⟩ := perform_write_socks cfg (.commandRequest request)
    (.requestSent id') hle (fun x hx => hs' x hx _)
  let queued := (w.enqueue .remote (.encoded (.commandRequest request)) (.requestSent id')).attempt
  have hdq : Dialogue down proxy (pre++[decoder,h]) (said++[SocksMessage.commandRequest request]) replies
      queued := hd.queued _ _ (.asked hi)
  have hdd := hdq.drained
  have hld : ((queued.takeQueue .remote).pipe .remote).Located id' (pre++[decoder]) h [] := hl'
  obtain ⟨hsent,hhandlers⟩ := runs_requestSent cfg hld
  have hdr : Dialogue down proxy ((pre++[decoder])++[Handler.socks5CommandResponseDecoder (.init []),
      .socksCommandResponseHandler]) (said++[SocksMessage.commandRequest request]) replies
      (requested (queued.takeQueue .remote) id') :=
    hdd.of_silent rfl rfl hdd.active hhandlers (by simp [requested]) (by simp [requested])
  have hquiet : Quiet (requested (queued.takeQueue .remote) id') .remote := quiet_of_nil rfl
  have htaken : .encoded (.commandRequest request)∈
      (requested (queued.takeQueue .remote) id').remote.sent := by
    change _∈w.remote.sent++(w.remote.queue++[_]).map Prod.fst
    simp
  obtain ⟨w₁,hrun,hrest⟩ := runs_encoder_remote (P:=fun w₁ => ∃ w₂,
      Runs cfg w₁ (fireRest .remote id rest) w₂ ∧ Next down proxy w₂) cfg
      (.commandRequest request) (.requestSent id') hle hd.active hq
    ⟨queued,runs_fireRest_none cfg rest hl (by simp [hread]),
      .dialogue (.requesting ⟨id',pre++[decoder],h,said,replies,w.remote.queue,hi,
        by simpa using hdq,hspent,hin,hl',rfl,hq⟩) hdq⟩
    ⟨_,hsent,runs_fireRest cfg rest (located_requested hl hld) rfl
      (.dialogue (.command [] ⟨_,said,replies,hi,hdr,hspent,hquiet,htaken⟩) hdr)
      (fun _ hl₁ => command_takes cfg rest hi hdr hspent hquiet htaken hl₁)⟩
  exact ⟨w₁,runs_of_call hwrite hrun,hrest⟩

/-- A reply that fails the promise is the first one by which the server
refuses. -/
theorem emitted_replies {rs : List Handler} {reply : SocksMessage}
    (hd : Dialogue down proxy rs said replies w)
    (hs : ∀ message∈replies, ¬Refusing message) (hr : Reported reply) :
    (∀ message∈repliesIn (afterEmit w id h reply).log, Refusing message → Reported message) ∧
      ∃ message∈repliesIn (afterEmit w id h reply).log, Reported message := by
  have hlog : repliesIn (afterEmit w id h reply).log=replies++[reply] := by
    simp [afterEmit,hd.heard]
  rw [hlog]
  refine ⟨fun message hm href => ?_,reply,by simp,hr⟩
  rcases List.mem_append.mp hm with hm|hm
  · exact absurd href (hs message hm)
  · rw [List.mem_singleton.mp hm]
    exact hr

/-- A reply that fails the promise; bytes behind it are dropped. -/
theorem runs_refused (cfg : Config) {down : Downstream cfg request} (proxy : Proxy) (rest : Bytes)
    (hc : down.waiting [] w) (ha : w.isActive .remote=true) (hq : Quiet w .remote)
    (hl : (w.pipe .remote).Located id pre decoder [h])
    (hin : ∀ x∈pre++[decoder,h], Inert x) (hread : ∀ data, reacts (.read (.bytes data)) h=false)
    (hreplies : (∀ message∈repliesIn w.log, Refusing message → Reported message) ∧
      ∃ message∈repliesIn w.log, Reported message) (hspoken : Spoken proxy request w) :
    ∃ w₁, Runs cfg w [.setFailure] w₁ ∧
      ∃ w₂, Runs cfg w₁ (fireRest .remote id rest) w₂ ∧ Next down proxy w₂ := by
  have hall : ∀ x∈w.handlers .remote, Inert x := by
    have hh : w.handlers .remote=pre++[decoder,h] := hl.handlers
    rw [hh]
    exact hin
  obtain ⟨w₁,hrun,hremote,hlog,hfailed⟩ := runs_setFailure cfg hc ha hq hall hreplies.1 hspoken
  have hl₁ : (w₁.pipe .remote).Located id pre decoder [h] := by
    have hpipe : w₁.pipe .remote=w.pipe .remote := congrArg Channel.pipeline hremote
    exact hpipe ▸ hl
  exact ⟨w₁,hrun,w₁,runs_fireRest_none cfg rest hl₁ (by simp [hread]),
    .failed hfailed (hlog ▸ hreplies.2)⟩

end Sending

section Authentication

variable {cfg : Config} {w : World} {proxy : Proxy} {request : Socks5CommandRequest}
  {address : String} {port : ℕ} {userName passwd : String} {buffered : Bytes} {id : ℕ}

/-- The first two handlers of the dialogue once the method is selected. -/
def introduced : List Handler := [.socks5ClientEncoder,.socks5InitialResponseDecoder .success]

theorem introduced_spent : ∀ h∈introduced, Spent h := by
  intro h hm
  simp only [introduced,List.mem_cons,List.not_mem_nil,or_false] at hm
  exact hm.imp id Or.inl

/-- The selected method is followed by two handlers without work. -/
theorem introduced_inert {h h' : Handler} (hh : Inert h) (hh' : Inert h') :
    ∀ x∈introduced++[h,h'], Inert x := by
  intro x hm
  rcases List.mem_append.mp hm with hm|hm
  · exact inert_of_idle (introduced_spent x hm).idle
  · simp only [List.mem_cons,List.not_mem_nil,or_false] at hm
    rcases hm with rfl|rfl
    · exact hh
    · exact hh'

/-- Bytes for the decoder of the authentication status. -/
theorem auth_takes (cfg : Config) {down : Downstream cfg request} (data : Bytes)
    (hproxy : proxy=.socks5 address port userName passwd)
    (hd : Dialogue down proxy (introduced++[Handler.socks5PasswordAuthResponseDecoder (.init buffered),
      .socks5PasswordAuthResponseHandler request])
      (greeting::credentials userName passwd) [.initialResponse ⟨true,passwordAuth⟩] w)
    (hq : Quiet w .remote)
    (hl : (w.pipe .remote).Located id introduced
      (.socks5PasswordAuthResponseDecoder (.init buffered))
      [.socks5PasswordAuthResponseHandler request]) :
    ∃ w', Takes cfg w .remote id (.read (.bytes data))
        (.socks5PasswordAuthResponseDecoder (.init buffered)) w' ∧ Next down proxy w' := by
  cases hp : cfg.parsePasswordAuthResponse (buffered++data) with
  | incomplete =>
    have hbody : body cfg w .remote id (.read (.bytes data))
        (.socks5PasswordAuthResponseDecoder (.init buffered))=
        [.assign .remote id (.socks5PasswordAuthResponseDecoder (.init (buffered++data)))] := by
      rw [body_auth]
      simp [decodeOnce,hp]
    have hla := hl.assign (.socks5PasswordAuthResponseDecoder (.init (buffered++data)))
    have hda : Dialogue down proxy _ _ _ (w.updPipe .remote (fun p => p.assign id
        (.socks5PasswordAuthResponseDecoder (.init (buffered++data))))) :=
      hd.of_silent rfl rfl hd.active hla.handlers (by simp) (by simp)
    exact ⟨_,takes_of_runs (hbody ▸ runs_assign),.dialogue (.auth (buffered++data)
      ⟨address,port,userName,passwd,hproxy,hda,by simpa using hq⟩) hda⟩
  | malformed =>
    have hbody : body cfg w .remote id (.read (.bytes data))
        (.socks5PasswordAuthResponseDecoder (.init buffered))=
        (.assign .remote id (.socks5PasswordAuthResponseDecoder .failure)::
          emitReply id (.passwordAuthResponse (authReply none)))++fireRest .remote id [] := by
      rw [body_auth]
      simp [decodeOnce,hp,fireRest]
    obtain ⟨hle,id',hl',hemit⟩ := runs_emit cfg (.socks5PasswordAuthResponseDecoder .failure)
      (.passwordAuthResponse (authReply none)) hl rfl
    have hpending : down.waiting [] (afterEmit w id (.socks5PasswordAuthResponseDecoder .failure)
        (.passwordAuthResponse (authReply none))) := down.waiting_of_eq hd.client rfl rfl
    obtain ⟨w₁,hrun,w₂,hrest,hlive⟩ := runs_refused cfg proxy [] hpending hd.active
      (by simpa [afterEmit] using hq) hle (introduced_inert (inert_of_waiting (.inr (.inl rfl)))
        (inert_of_waiting (.inr (.inr (.inr (.inr (.inl ⟨request,rfl⟩))))))) (fun _ => rfl)
      (emitted_replies hd (by simp [Refusing]) (by simp [Reported,authReply]))
      (hd.spoken_emitted (.judged hproxy _))
    exact ⟨w₂,takes_of_runs (hbody ▸ (hemit w₁ (takes_of_runs hrun)).append hrest),hlive⟩
  | message status rest =>
    have hbody : body cfg w .remote id (.read (.bytes data))
        (.socks5PasswordAuthResponseDecoder (.init buffered))=
        (.assign .remote id (.socks5PasswordAuthResponseDecoder .success)::
          emitReply id (.passwordAuthResponse (authReply (some status))))++
          fireRest .remote id rest := by
      rw [body_auth]
      simp [decodeOnce,hp]
    obtain ⟨hle,id',hl',hemit⟩ := runs_emit cfg (.socks5PasswordAuthResponseDecoder .success)
      (.passwordAuthResponse (authReply (some status))) hl rfl
    let emitted := afterEmit w id (.socks5PasswordAuthResponseDecoder .success)
      (.passwordAuthResponse (authReply (some status)))
    have hquiet : Quiet emitted .remote := by simpa [emitted,afterEmit] using hq
    by_cases hstatus : status=statusSuccess
    · have hdn := hd.emitted hle (by simp [Reported,authReply,hstatus])
        (.judged hproxy _)
      have hi : Introduced proxy (greeting::credentials userName passwd)
          ([SocksMessage.initialResponse ⟨true,passwordAuth⟩]++
            [SocksMessage.passwordAuthResponse (authReply (some status))]) := by
        rw [hstatus]
        exact .password hproxy
      have hread : body cfg emitted .remote id'
          (.read (.socks (.passwordAuthResponse (authReply (some status)))))
          (.socks5PasswordAuthResponseHandler request)=
          [.write .remote (some id') (.socks (.commandRequest request)) (.requestSent id') true] := by
        change SocksClientInitializer.passwordAuthResponseRead0 id' request _=_
        simp [SocksClientInitializer.passwordAuthResponseRead0,authReply,hstatus]
      obtain ⟨w₁,hrun,w₂,hrest,hlive⟩ := runs_commandRequest cfg rest
        [.socks5InitialResponseDecoder .success,.socks5PasswordAuthResponseDecoder .success]
        hi hdn hquiet rfl (by simp [introduced,Spent]) (by simp [intercepts])
        (inert_of_waiting (.inr (.inr (.inr (.inr (.inl ⟨request,rfl⟩)))))) (fun _ => rfl) hle hl'
      exact ⟨w₂,takes_of_runs (hbody ▸ (hemit w₁ (takes_of_runs (hread ▸ hrun))).append hrest),hlive⟩
    · have hread : body cfg emitted .remote id'
          (.read (.socks (.passwordAuthResponse (authReply (some status)))))
          (.socks5PasswordAuthResponseHandler request)=[.setFailure] := by
        change SocksClientInitializer.passwordAuthResponseRead0 id' request _=_
        simp [SocksClientInitializer.passwordAuthResponseRead0,authReply,hstatus]
      have hpending : down.waiting [] emitted := down.waiting_of_eq hd.client rfl rfl
      obtain ⟨w₁,hrun,w₂,hrest,hlive⟩ := runs_refused cfg proxy rest hpending hd.active hquiet hle
        (introduced_inert (inert_of_idle (Spent.idle (.inr (.inr (.inl rfl)))))
          (inert_of_waiting (.inr (.inr (.inr (.inr (.inl ⟨request,rfl⟩))))))) (fun _ => rfl)
        (emitted_replies hd (by simp [Refusing]) (by simp [Reported,authReply,hstatus]))
        (hd.spoken_emitted (.judged hproxy _))
      exact ⟨w₂,takes_of_runs (hbody ▸ (hemit w₁ (takes_of_runs (hread ▸ hrun))).append hrest),hlive⟩

/-- Bytes behind the method selection go to the decoder of the status. -/
theorem auth_rest (cfg : Config) {down : Downstream cfg request} (rest : Bytes)
    (hproxy : proxy=.socks5 address port userName passwd)
    (hd : Dialogue down proxy (introduced++[Handler.socks5PasswordAuthResponseDecoder (.init []),
      .socks5PasswordAuthResponseHandler request])
      (greeting::credentials userName passwd) [.initialResponse ⟨true,passwordAuth⟩] w)
    (hq : Quiet w .remote)
    (hl : (w.pipe .remote).Located id [.socks5ClientEncoder] (.socks5InitialResponseDecoder .success)
      [.socks5PasswordAuthResponseDecoder (.init []),.socks5PasswordAuthResponseHandler request]) :
    ∃ w', Runs cfg w (fireRest .remote id rest) w' ∧ Next down proxy w' :=
  runs_fireRest cfg rest hl rfl
    (.dialogue (.auth [] ⟨address,port,userName,passwd,hproxy,hd,hq⟩) hd)
    (fun _ hl' => auth_takes cfg rest hproxy hd hq hl')

/-- The handlers of the status take the place of that of the selection. -/
abbrev exchange (id : ℕ) (request : Socks5CommandRequest) : List Stmt :=
  [.remove .remote id,.addLast .remote none (.socks5PasswordAuthResponseDecoder (.init [])),
    .addLast .remote none (.socks5PasswordAuthResponseHandler request)]

/-- State after this. -/
def exchanged (w : World) (id : ℕ) (request : Socks5CommandRequest) : World :=
  ((w.updPipe .remote (fun p => p.remove id)).updPipe .remote (fun p =>
    p.insertAt p.contexts.length none (.socks5PasswordAuthResponseDecoder (.init [])))).updPipe
      .remote (fun p => p.insertAt p.contexts.length none (.socks5PasswordAuthResponseHandler request))

section Selection

variable {id' : ℕ} {down : Downstream cfg request}

theorem runs_exchange (hl' : (w.pipe .remote).Located id' introduced
    (.socks5InitialResponseHandler userName passwd request) []) :
    Runs cfg w (exchange id' request) (exchanged w id' request) :=
  (runs_remove hl').cons (runs_addLast.cons runs_addLast)

/-- The decoder of the selection stays where it is. -/
theorem located_exchanged
    (hl : (w.pipe .remote).Located id [.socks5ClientEncoder] (.socks5InitialResponseDecoder .success)
      [.socks5InitialResponseHandler userName passwd request])
    (hl' : (w.pipe .remote).Located id' introduced
      (.socks5InitialResponseHandler userName passwd request) []) :
    ((exchanged w id' request).pipe .remote).Located id [.socks5ClientEncoder]
      (.socks5InitialResponseDecoder .success)
      [.socks5PasswordAuthResponseDecoder (.init []),.socks5PasswordAuthResponseHandler request] := by
  have hremove := hl.remove_later [] hl'
  have hadd := (hremove.insertAt_length none
    (.socks5PasswordAuthResponseDecoder (.init []))).insertAt_length none
      (.socks5PasswordAuthResponseHandler request)
  simpa [exchanged] using hadd

/-- The dialogue goes on with the new handlers. -/
theorem dialogue_exchanged
    (hd : Dialogue down proxy (introduced++
      [Handler.socks5InitialResponseHandler userName passwd request]) [greeting]
      [.initialResponse ⟨true,passwordAuth⟩] w)
    (hl : ((exchanged w id' request).pipe .remote).Located id [.socks5ClientEncoder]
      (.socks5InitialResponseDecoder .success)
      [.socks5PasswordAuthResponseDecoder (.init []),.socks5PasswordAuthResponseHandler request]) :
    Dialogue down proxy (introduced++[Handler.socks5PasswordAuthResponseDecoder (.init []),
      .socks5PasswordAuthResponseHandler request]) [greeting]
      [.initialResponse ⟨true,passwordAuth⟩] (exchanged w id' request) :=
  hd.of_silent rfl rfl hd.active hl.handlers (by simp [exchanged]) (by simp [exchanged])

/-- The server selects the password and the message can be made: it is sent from the context that
has just left the pipeline. -/
theorem runs_passwordAuth (rest : Bytes) (hproxy : proxy=.socks5 address port userName passwd)
    (hfits : passwordAuthRequestFits userName passwd=true)
    (hd : Dialogue down proxy (introduced++
      [Handler.socks5InitialResponseHandler userName passwd request]) [greeting]
      [.initialResponse ⟨true,passwordAuth⟩] w) (hq : Quiet w .remote)
    (hl : (w.pipe .remote).Located id [.socks5ClientEncoder] (.socks5InitialResponseDecoder .success)
      [.socks5InitialResponseHandler userName passwd request])
    (hl' : (w.pipe .remote).Located id' introduced
      (.socks5InitialResponseHandler userName passwd request) []) :
    ∃ w₁, Runs cfg w (exchange id' request++
        [.write .remote (some id') (.socks (.passwordAuthRequest userName passwd)) .none true]) w₁ ∧
      ∃ w₂, Runs cfg w₁ (fireRest .remote id rest) w₂ ∧ Next down proxy w₂ := by
  let waiting := exchanged w id' request
  have hlw := located_exchanged hl hl'
  have hleft : (waiting.pipe .remote).Left id' id := by
    have hremove := hl.left_remove hl'
    simp only [waiting,exchanged,pipe_updPipe_same]
    exact (hremove.insertAt _ none _).insertAt _ none _
  have hdw := dialogue_exchanged hd hlw
  have hqw : Quiet waiting .remote := by simpa [waiting,exchanged] using hq
  have hsplit : [Handler.socks5ClientEncoder]++[Handler.socks5InitialResponseDecoder .success]=
      []++Handler.socks5ClientEncoder::[Handler.socks5InitialResponseDecoder .success] := rfl
  obtain ⟨encoder,hprev,hle⟩ := hleft.prevWhere_eq
    (q:=intercepts (.socks (.passwordAuthRequest userName passwd))) _ hlw hsplit
    (by simp [intercepts]) rfl
  have hwrite : perform cfg (.write .remote (some id')
      (.socks (.passwordAuthRequest userName passwd)) .none true) waiting=
      .call waiting (writeBody cfg .remote encoder (.socks (.passwordAuthRequest userName passwd))
        .none true .socks5ClientEncoder) drop := by
    simp only [perform,hprev,hle.find]
  have hsaid : [greeting]++[SocksMessage.passwordAuthRequest userName passwd]=
      greeting::credentials userName passwd := by
    rw [credentials,if_pos hfits]
    rfl
  have hdq := hdw.queued (.passwordAuthRequest userName passwd) .none (hsaid ▸ .password hproxy)
  rw [hsaid] at hdq
  have hqq : Quiet (waiting.enqueue .remote (.encoded (.passwordAuthRequest userName passwd))
      .none).attempt .remote := by
    intro entry he
    change entry∈waiting.remote.queue++[_] at he
    rcases List.mem_append.mp he with he|he
    · exact hqw entry he
    · rw [List.mem_singleton.mp he]
  obtain ⟨w₁,hrun,hrest⟩ := runs_encoder_remote (P:=fun w₁ => ∃ w₂,
      Runs cfg w₁ (fireRest .remote id rest) w₂ ∧ Next down proxy w₂) cfg
    (.passwordAuthRequest userName passwd) .none hle hdw.active hqw
    (auth_rest cfg rest hproxy hdq hqq hlw)
    ⟨_,runs_nil,auth_rest cfg rest hproxy hdq.drained (quiet_of_nil rfl) hlw⟩
  exact ⟨w₁,(runs_exchange hl').append (runs_of_call hwrite hrun),hrest⟩

/-- The server selects the password and the message cannot be made: the exception finds nobody, and
the answer to a password that was not sent is awaited. -/
theorem throws_passwordAuth (rest : Bytes) (hproxy : proxy=.socks5 address port userName passwd)
    (hfits : passwordAuthRequestFits userName passwd=false)
    (hd : Dialogue down proxy (introduced++
      [Handler.socks5InitialResponseHandler userName passwd request]) [greeting]
      [.initialResponse ⟨true,passwordAuth⟩] w) (hq : Quiet w .remote)
    (hl : (w.pipe .remote).Located id [.socks5ClientEncoder] (.socks5InitialResponseDecoder .success)
      [.socks5InitialResponseHandler userName passwd request])
    (hl' : (w.pipe .remote).Located id' introduced
      (.socks5InitialResponseHandler userName passwd request) []) :
    Eval (perform cfg) w (exchange id' request++[.raise .illegalArgument]) (exchanged w id' request)
        (some .illegalArgument) ∧
      Runs cfg (exchanged w id' request)
        [.invoke .remote id' (.exceptionCaught .illegalArgument)] (exchanged w id' request) ∧
      ∃ w₂, Runs cfg (exchanged w id' request) (fireRest .remote id rest) w₂ ∧
        Next down proxy w₂ := by
  have hlw := located_exchanged hl hl'
  have hdw := dialogue_exchanged hd hlw
  have hsaid : [greeting]=greeting::credentials userName passwd := by
    rw [credentials,if_neg (by simp [hfits])]
  rw [hsaid] at hdw
  refine ⟨Eval.append (runs_exchange hl') (.throw rfl),runs_invoke_none (fun h hm => ?_),
    auth_rest cfg rest hproxy hdw (by simpa [exchanged] using hq) hlw⟩
  rw [hdw.remote] at hm
  simp only [introduced,List.mem_append,List.mem_cons,List.not_mem_nil,or_false] at hm
  rcases hm with (rfl|rfl)|rfl|rfl
  all_goals rfl

end Selection

/-- Bytes for the decoder of the method selection. -/
theorem initial_takes (cfg : Config) {down : Downstream cfg request} (data : Bytes)
    (hproxy : proxy=.socks5 address port userName passwd)
    (hd : Dialogue down proxy [.socks5ClientEncoder,
      .socks5InitialResponseDecoder (.init buffered),
      .socks5InitialResponseHandler userName passwd request] [greeting] [] w)
    (hq : Quiet w .remote)
    (hl : (w.pipe .remote).Located id [.socks5ClientEncoder]
      (.socks5InitialResponseDecoder (.init buffered))
      [.socks5InitialResponseHandler userName passwd request]) :
    ∃ w', Takes cfg w .remote id (.read (.bytes data))
        (.socks5InitialResponseDecoder (.init buffered)) w' ∧ Next down proxy w' := by
  have hencoder : Inert .socks5ClientEncoder := inert_of_idle (Spent.idle (.inl rfl))
  have hhandler : Inert (.socks5InitialResponseHandler userName passwd request) :=
    inert_of_waiting (.inr (.inr (.inr (.inl ⟨userName,passwd,request,rfl⟩))))
  cases hp : cfg.parseInitialResponse (buffered++data) with
  | incomplete =>
    have hbody : body cfg w .remote id (.read (.bytes data))
        (.socks5InitialResponseDecoder (.init buffered))=
        [.assign .remote id (.socks5InitialResponseDecoder (.init (buffered++data)))] := by
      rw [body_initial]
      simp [decodeOnce,hp]
    have hla := hl.assign (.socks5InitialResponseDecoder (.init (buffered++data)))
    have hda : Dialogue down proxy _ _ _ (w.updPipe .remote (fun p => p.assign id
        (.socks5InitialResponseDecoder (.init (buffered++data))))) :=
      hd.of_silent rfl rfl hd.active hla.handlers (by simp) (by simp)
    exact ⟨_,takes_of_runs (hbody ▸ runs_assign),.dialogue (.method (buffered++data)
      ⟨address,port,userName,passwd,hproxy,hda,by simpa using hq⟩) hda⟩
  | malformed =>
    have hbody : body cfg w .remote id (.read (.bytes data))
        (.socks5InitialResponseDecoder (.init buffered))=
        (.assign .remote id (.socks5InitialResponseDecoder .failure)::
          emitReply id (.initialResponse (initialReply none)))++fireRest .remote id [] := by
      rw [body_initial]
      simp [decodeOnce,hp,fireRest]
    obtain ⟨hle,id',hl',hemit⟩ := runs_emit cfg (.socks5InitialResponseDecoder .failure)
      (.initialResponse (initialReply none)) hl rfl
    have hpending : down.waiting [] (afterEmit w id (.socks5InitialResponseDecoder .failure)
        (.initialResponse (initialReply none))) := down.waiting_of_eq hd.client rfl rfl
    obtain ⟨w₁,hrun,w₂,hrest,hlive⟩ := runs_refused cfg proxy [] hpending hd.active
      (by simpa [afterEmit] using hq) hle (by simp [hencoder,hhandler,inert_of_waiting])
      (fun _ => rfl) (emitted_replies hd (by simp) (by simp [Reported,initialReply]))
      (hd.spoken_emitted (.selected _))
    exact ⟨w₂,takes_of_runs (hbody ▸ (hemit w₁ (takes_of_runs hrun)).append hrest),hlive⟩
  | message method rest =>
    have hbody : body cfg w .remote id (.read (.bytes data))
        (.socks5InitialResponseDecoder (.init buffered))=
        (.assign .remote id (.socks5InitialResponseDecoder .success)::
          emitReply id (.initialResponse (initialReply (some method))))++
          fireRest .remote id rest := by
      rw [body_initial]
      simp [decodeOnce,hp]
    obtain ⟨hle,id',hl',hemit⟩ := runs_emit cfg (.socks5InitialResponseDecoder .success)
      (.initialResponse (initialReply (some method))) hl rfl
    let emitted := afterEmit w id (.socks5InitialResponseDecoder .success)
      (.initialResponse (initialReply (some method)))
    have hquiet : Quiet emitted .remote := by simpa [emitted,afterEmit] using hq
    have hdn := hd.emitted hle (by simp [Reported,initialReply]) (.selected _)
    by_cases hnone : method=noAuth
    · have hi : Introduced proxy [greeting]
          ([]++[SocksMessage.initialResponse (initialReply (some method))]) := by
        rw [hnone]
        exact .noAuth
      have hread : body cfg emitted .remote id'
          (.read (.socks (.initialResponse (initialReply (some method)))))
          (.socks5InitialResponseHandler userName passwd request)=
          [.write .remote (some id') (.socks (.commandRequest request)) (.requestSent id') true] := by
        change SocksClientInitializer.initialResponseRead0 id' userName passwd request
            (initialReply (some method))=_
        simp [SocksClientInitializer.initialResponseRead0,initialReply,hnone]
      obtain ⟨w₁,hrun,w₂,hrest,hlive⟩ := runs_commandRequest cfg rest
        [.socks5InitialResponseDecoder .success] hi hdn hquiet rfl (by simp [Spent])
        (by simp [intercepts]) hhandler (fun _ => rfl) hle hl'
      exact ⟨w₂,takes_of_runs (hbody ▸ (hemit w₁ (takes_of_runs (hread ▸ hrun))).append hrest),hlive⟩
    · by_cases hpassword : method=passwordAuth
      · have hread : body cfg emitted .remote id'
            (.read (.socks (.initialResponse (initialReply (some method)))))
            (.socks5InitialResponseHandler userName passwd request)=
            exchange id' request++
              [if passwordAuthRequestFits userName passwd then
                .write .remote (some id') (.socks (.passwordAuthRequest userName passwd)) .none true
              else .raise .illegalArgument] := by
          change SocksClientInitializer.initialResponseRead0 id' userName passwd request
            (initialReply (some method))=_
          simp [SocksClientInitializer.initialResponseRead0,initialReply,hpassword,noAuth,
            passwordAuth]
        have hde : Dialogue down proxy
            (introduced++[Handler.socks5InitialResponseHandler userName passwd request]) [greeting]
            [.initialResponse ⟨true,passwordAuth⟩] emitted := by
          have hheard : []++[SocksMessage.initialResponse (initialReply (some method))]=
              [SocksMessage.initialResponse ⟨true,passwordAuth⟩] := by
            simp [initialReply,hpassword]
          rw [hheard] at hdn
          exact hdn
        cases hfits : passwordAuthRequestFits userName passwd with
        | true =>
          rw [if_pos hfits] at hread
          obtain ⟨w₁,hrun,w₂,hrest,hlive⟩ := runs_passwordAuth rest hproxy hfits hde hquiet hle hl'
          exact ⟨w₂,takes_of_runs (hbody ▸
            (hemit w₁ (takes_of_runs (hread ▸ hrun))).append hrest),hlive⟩
        | false =>
          rw [if_neg (by simp [hfits])] at hread
          obtain ⟨hthrow,hcaught,w₂,hrest,hlive⟩ :=
            throws_passwordAuth rest hproxy hfits hde hquiet hle hl'
          have htakes : Takes cfg emitted .remote id'
              (.read (.socks (.initialResponse (initialReply (some method)))))
              (.socks5InitialResponseHandler userName passwd request)
              (exchanged emitted id' request) :=
            takes_of_throw (hread ▸ hthrow) (by simp) hcaught
          exact ⟨w₂,takes_of_runs (hbody ▸ (hemit _ htakes).append hrest),hlive⟩
      · have hread : body cfg emitted .remote id'
            (.read (.socks (.initialResponse (initialReply (some method)))))
            (.socks5InitialResponseHandler userName passwd request)=[] := by
          change SocksClientInitializer.initialResponseRead0 id' userName passwd request
            (initialReply (some method))=_
          simp [SocksClientInitializer.initialResponseRead0,initialReply,hnone,hpassword]
        have hrest := runs_fireRest_none cfg rest hle (by simp [reacts,readsMessage])
        refine ⟨emitted,takes_of_runs (hbody ▸ (hemit emitted (takes_of_runs (hread ▸ runs_nil))).append hrest),
          .dialogue (.stalled ⟨_,_,_,hdn,?_,hquiet,by simp⟩) hdn⟩
        have hdecoder : Inert (.socks5InitialResponseDecoder .success) :=
          inert_of_idle (Spent.idle (.inr (.inl rfl)))
        simp [hencoder,hdecoder,hhandler]

end Authentication

end ProxyDroid.HandshakeReplies
