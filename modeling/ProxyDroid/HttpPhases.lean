import ProxyDroid.ServerNamePhases

/-!
# Phases of a stream that is not TLS

With interception on, other streams meet an HTTP decoder and a check handler.
The first request the decoder emits settles the connection: a malformed one
gets the direct follow-up with no encoder on the remote channel, a request
that is not intercepted gets the follow-up with an encoder.
-/

namespace ProxyDroid.HttpPhases

open CallSemantics HandlerPipeline ConnectionTypes ConnectionHandlers ConnectionSystem
open ConnectionRules TunnelPhases ServerNamePhases

variable {cfg : Config} {w : World} {front rear cs rs : List Handler} {id : ℕ}
  {request : Socks5CommandRequest} {data : Bytes}

/-- Handlers of the client pipeline between the codecs and the HTTP decoder. -/
abbrev selectedHttp (request : Socks5CommandRequest) : List Handler :=
  [.protocolSelectHandler request .success,.httpInterceptorHandler request]

/-- With interception on, other bytes are handed to a new HTTP decoder. -/
theorem selecting_http {buffered rest : Bytes} {type versionHigh versionLow : UInt8}
    (ht : Tunnel w front rear [.protocolSelectHandler request (.init buffered)] rs)
    (hb : buffered++data=type::versionHigh::versionLow::rest)
    (hm : cfg.rules.mitmConfig.isSome=true)
    (hv : ProtocolSelectHandler.isTls type versionHigh versionLow=false) :
    ∃ w₁ id, Tunnel w₁ front rear
        (selectedHttp request++[Handler.httpRequestDecoder [],.httpCheckHandler request]) rs ∧
      Leads w w₁ [] [] [.selected false] ∧
      (w₁.pipe .client).Located id (front++selectedHttp request) (.httpRequestDecoder [])
        [.httpCheckHandler request] ∧
      ∀ w', Takes cfg w₁ .client id (.read (.bytes (buffered++data))) (.httpRequestDecoder []) w' →
        Runs cfg w [.pipelineFire .client (.read (.bytes data))] w' := by
  obtain ⟨id,hl,hrun⟩ := ht.read_selecting cfg hb
  rw [hv] at hrun
  let added := (w.note (.selected false)).updPipe .client
    (fun p => p.insertAt p.contexts.length none (.httpInterceptorHandler request))
  have hla : (added.pipe .client).Located id front
      (.protocolSelectHandler request (.init buffered)) [.httpInterceptorHandler request] := by
    simpa [added] using hl.insertAt_length none (.httpInterceptorHandler request)
  have hhandlers : added.handlers .client=
      (front++[Handler.protocolSelectHandler request (.init buffered)])++
        Handler.httpInterceptorHandler request::[] := by
    simpa using hla.handlers
  obtain ⟨id₁,hl₁,hfire₁⟩ := perform_pipelineFire cfg .active hhandlers
    (silent_append ht.frontIdle (by simp [reacts])) rfl
  let checked := added.updPipe .client (withCheck request)
  have hl₂ : (checked.pipe .client).Located id₁
      (front++[Handler.protocolSelectHandler request (.init buffered)]) (.httpInterceptorHandler request)
      [.httpRequestDecoder [],.httpCheckHandler request] := by
    simpa [checked] using located_withCheck hl₁
  have hactive : Runs cfg added [.pipelineFire .client .active] checked :=
    runs_of_call hfire₁ (runs_withCheck.append (runs_ctxFire_none hl₂ (by simp [reacts])))
  let assigned := checked.updPipe .client
    (fun p => p.assign id (.protocolSelectHandler request .success))
  have hls : (assigned.pipe .client).Located id front (.protocolSelectHandler request .success)
      ([Handler.httpInterceptorHandler request]++
        Handler.httpRequestDecoder []::[Handler.httpCheckHandler request]) := by
    simpa [assigned,checked] using (located_withCheck hla).assign _
  obtain ⟨id',hl',hfire⟩ := perform_ctxFire cfg (.read (.bytes (buffered++data)))
    [.httpInterceptorHandler request] hls (by simp [reacts,readsMessage]) rfl
  refine ⟨assigned,id',?_,?_,hl',fun w' htake => hrun w' ?_⟩
  · exact ht.of_pipes hls.handlers (by simpa [assigned,checked,added] using ht.remote)
      (by simp [assigned,checked,added]) (by simp [assigned,checked,added])
  · constructor <;> simp [assigned,checked,added]
  · have hselect : ProtocolSelectHandler.select cfg.rules request false=
        [.addLast .client none (.httpInterceptorHandler request)] := by
      simp [ProtocolSelectHandler.select,hm]
    rw [hselect]
    exact runs_addLast.append (hactive.cons (runs_assign.cons (htake _ hfire)))

/-- A relay handler passes an object on to the other channel. -/
theorem runs_relay {w' : World} {s : Side} {message : Msg} (ha : w.isActive s.other=true)
    (hw : Runs cfg w [.write s.other none message .none true] w') :
    Runs cfg w (body cfg w s id (.read message) .relayHandler) w' := by
  change Runs cfg w (RelayHandler.channelRead w s message) _
  rw [RelayHandler.channelRead,if_pos ha]
  exact hw

/-- Without an encoder the remote channel refuses HTTP objects. -/
theorem runs_write_http_refused {object : HttpObject}
    (ht : Tunnel w front rear cs [.relayHandler]) :
    Runs cfg w [.write .remote none (.http object) .none true] w := by
  refine runs_write_refused (by simp) (by simp) ?_
  rw [ht.remote]
  exact transparent_append ht.rearIdle (by simp) (by simp [intercepts])

/-- An object from the decoder is refused when no encoder is there. -/
theorem runs_objects_refused (objects : List HttpObject) {history : List Bytes}
    (ht : Tunnel w front rear cs [.relayHandler])
    (hl : (w.pipe .client).Located id (front++selectedHttp request) (.httpRequestDecoder history)
      [.relayHandler]) :
    Runs cfg w (objects.map (fun object => fireRead .client id (.http object))) w := by
  induction objects with
  | nil => exact runs_nil
  | cons object objects ih =>
    obtain ⟨id',hl',hfire⟩ := perform_ctxFire cfg (.read (.http object)) [] hl (by simp) rfl
    have hone := runs_of_call hfire (runs_relay ht.remoteActive (runs_write_http_refused ht))
    exact hone.cons ih

/-- An object that the encoder of the remote channel accepts is encoded. -/
theorem runs_write_http_accepted (cfg : Config) {object : HttpObject} {history : List Msg}
    (ht : Tunnel w front rear cs [.relayHandler,.httpRequestEncoder history])
    (hi : intercepts (.http object) (.httpRequestEncoder history)=true) :
    ∃ w' out, Runs cfg w [.write .remote none (.http object) .none true] w' ∧
      Tunnel w' front rear cs [.relayHandler,.httpRequestEncoder (history++[Msg.http object])] ∧
      Leads w w' [] out [.encoded .remote (.http object)] ∧ w'.pipe .client=w.pipe .client := by
  have hhandlers : (w.pipe .remote).handlers=
      (rear++[Handler.relayHandler])++Handler.httpRequestEncoder history::[] := by
    simpa using ht.remote
  obtain ⟨id,hlast,hl⟩ := Pipeline.lastWhere_eq (q:=intercepts (.http object)) hhandlers (by simp) hi
  have hwrite : perform cfg (.write .remote none (.http object) .none true) w=
      .call w (httpEncoderWrite cfg .remote id .httpRequestEncoder history (.http object) .none true)
        drop := by
    simp only [perform,hlast,hl.find]
    rfl
  let assigned := w.updPipe .remote
    (fun p => p.assign id (.httpRequestEncoder (history++[Msg.http object])))
  let noted := assigned.note (.encoded .remote (.http object))
  have hln : (noted.pipe .remote).Located id (rear++[Handler.relayHandler])
      (.httpRequestEncoder (history++[Msg.http object])) [] := by
    simpa [noted,assigned] using hl.assign _
  have hnoted : Tunnel noted front rear cs
      [.relayHandler,.httpRequestEncoder (history++[Msg.http object])] :=
    ht.of_pipes (by simpa [noted,assigned] using ht.client) (by simpa using hln.handlers)
      (by simp [noted,assigned]) (by simp [noted,assigned])
  have hleads : Leads w noted [] [] [.encoded .remote (.http object)] := by
    constructor <;> simp [noted,assigned]
  have hprefix : Runs cfg w [.assign .remote id (.httpRequestEncoder (history++[Msg.http object])),
      .noteEncoded .remote (.http object)] noted := runs_assign.cons (runs_of_done rfl)
  cases he : cfg.httpEncode history (.http object) with
  | none =>
    refine ⟨noted,[],runs_of_call hwrite ?_,hnoted,hleads,by simp [noted,assigned]⟩
    rw [httpEncoderWrite,he]
    exact hprefix.append (runs_of_call rfl runs_nil)
  | some encoded =>
    have hhead : Runs cfg noted [.write .remote (some id) (.bytes encoded) .none true]
        (accept cfg noted .remote (.bytes encoded)) := by
      refine runs_headWrite (.inl ⟨encoded,rfl⟩) hnoted.remoteActive hnoted.remoteQuiet ?_
      have hnone := hln.prevWhere_none (q:=intercepts (.bytes encoded))
        (transparent_append ht.rearIdle (by simp) (by simp [intercepts]))
      simp only [perform,hnone]
    refine ⟨accept cfg noted .remote (.bytes encoded),[.bytes encoded],runs_of_call hwrite ?_,
      hnoted.accept_write _ _,?_,by simp [noted,assigned]⟩
    · rw [httpEncoderWrite,he]
      exact hprefix.append hhead
    · constructor <;> simp [noted,assigned]

/-- What one HTTP object does on a remote channel with an encoder. -/
theorem runs_write_http (cfg : Config) (object : HttpObject) {history : List Msg}
    (ht : Tunnel w front rear cs [.relayHandler,.httpRequestEncoder history]) :
    ∃ w' history' out seen, Runs cfg w [.write .remote none (.http object) .none true] w' ∧
      Tunnel w' front rear cs [.relayHandler,.httpRequestEncoder history'] ∧
      Leads w w' [] out seen ∧ w'.pipe .client=w.pipe .client := by
  by_cases hi : intercepts (.http object) (.httpRequestEncoder history)=true
  · obtain ⟨w',out,hrun,ht',hleads,hpipe⟩ := runs_write_http_accepted cfg ht hi
    exact ⟨w',_,out,_,hrun,ht',hleads,hpipe⟩
  · refine ⟨w,history,[],[],runs_write_refused (by simp) (by simp) ?_,ht,.refl w,rfl⟩
    rw [ht.remote]
    refine transparent_append ht.rearIdle (by simp) ?_
    intro x hx
    simp only [List.mem_cons,List.not_mem_nil,or_false] at hx
    rcases hx with rfl|rfl
    · rfl
    · simpa using hi

/-- Objects from the decoder go through the encoder of the remote channel. -/
theorem runs_objects_forwarded (cfg : Config) (objects : List HttpObject) {history : List Bytes}
    {sent : List Msg} (ht : Tunnel w front rear cs [.relayHandler,.httpRequestEncoder sent])
    (hl : (w.pipe .client).Located id (front++selectedHttp request) (.httpRequestDecoder history)
      [.relayHandler]) :
    ∃ w' sent' out seen,
      Runs cfg w (objects.map (fun object => fireRead .client id (.http object))) w' ∧
      Tunnel w' front rear cs [.relayHandler,.httpRequestEncoder sent'] ∧ Leads w w' [] out seen := by
  induction objects generalizing w sent with
  | nil => exact ⟨w,sent,[],[],runs_nil,ht,.refl w⟩
  | cons object objects ih =>
    obtain ⟨id',-,hfire⟩ := perform_ctxFire cfg (.read (.http object)) [] hl (by simp) rfl
    obtain ⟨w₁,sent₁,out₁,seen₁,hwrite,ht₁,hleads₁,hpipe⟩ := runs_write_http cfg object ht
    obtain ⟨w₂,sent₂,out₂,seen₂,hrest,ht₂,hleads₂⟩ := ih ht₁ (hpipe ▸ hl)
    exact ⟨w₂,sent₂,_,_,(runs_of_call hfire (runs_relay ht.remoteActive hwrite)).cons hrest,ht₂,
      hleads₁.trans hleads₂⟩

/-- A malformed request gets the direct follow-up and is refused itself. -/
theorem runs_check_malformed (cfg : Config) {history : List Bytes} {message : HttpRequest}
    (ht : Tunnel w front rear
      (selectedHttp request++[Handler.httpRequestDecoder history,.httpCheckHandler request]) [])
    (hl : (w.pipe .client).Located id (front++selectedHttp request) (.httpRequestDecoder history)
      [.httpCheckHandler request])
    (hd : message.decoded=false) :
    ∃ w', Runs cfg w [fireRead .client id (.http (.request message))] w' ∧
      Tunnel w' front rear (selectedHttp request++[Handler.httpRequestDecoder history,.relayHandler])
        [.relayHandler] ∧
      (w'.pipe .client).Located id (front++selectedHttp request) (.httpRequestDecoder history)
        [.relayHandler] ∧ Leads w w' [] [] [] := by
  obtain ⟨id',hl',hfire⟩ := perform_ctxFire cfg (.read (.http (.request message))) [] hl (by simp) rfl
  have hfollow := ht.follow_up
  have hlf : ((followedUp w).pipe .client).Located id (front++selectedHttp request)
      (.httpRequestDecoder history) ([]++Handler.httpCheckHandler request::[Handler.relayHandler]) := by
    simpa [followedUp] using hl.insertAt_length none .relayHandler
  have hlc : ((followedUp w).pipe .client).Located id'
      (front++selectedHttp request++Handler.httpRequestDecoder history::[]) (.httpCheckHandler request)
      [.relayHandler] := by
    simpa [followedUp] using hl'.insertAt_length none .relayHandler
  let removed := (followedUp w).updPipe .client (fun p => p.remove id')
  have hlr : (removed.pipe .client).Located id (front++selectedHttp request)
      (.httpRequestDecoder history) [.relayHandler] := by
    simpa [removed] using hlf.remove_later _ hlc
  have hremoved : Tunnel removed front rear
      (selectedHttp request++[Handler.httpRequestDecoder history,.relayHandler]) [.relayHandler] :=
    hfollow.on_client (by simpa [removed] using hlr.handlers)
  have hhandlers : removed.handlers .client=
      (front++(selectedHttp request++[Handler.httpRequestDecoder history]))++Handler.relayHandler::[] := by
    rw [hremoved.client]
    simp
  obtain ⟨id₂,-,hagain⟩ := perform_pipelineFire cfg (.read (.http (.request message))) hhandlers
    (silent_append ht.frontIdle (by simp [reacts,readsMessage])) rfl
  have hrefused := runs_of_call hagain
    (runs_relay hremoved.remoteActive (runs_write_http_refused hremoved))
  have hbody : body cfg w .client id' (.read (.http (.request message)))
      (.httpCheckHandler request)=DirectAction.doFollowUp++
        [Stmt.remove .client id',.pipelineFire .client (.read (.http (.request message)))] := by
    change HttpInterceptorHandler.checkRead0 cfg.rules id' request message=_
    simp [HttpInterceptorHandler.checkRead0,hd]
  refine ⟨removed,runs_of_call hfire (hbody ▸ ?_),hremoved,hlr,?_⟩
  · exact runs_doFollowUp.append ((runs_remove hlc).cons hrefused)
  · constructor <;> simp [removed,followedUp]

/-- A request that is not intercepted gets the follow-up and an encoder. -/
theorem runs_check_direct (cfg : Config) {history : List Bytes} {message : HttpRequest}
    (ht : Tunnel w front rear
      (selectedHttp request++[Handler.httpRequestDecoder history,.httpCheckHandler request]) [])
    (hl : (w.pipe .client).Located id (front++selectedHttp request) (.httpRequestDecoder history)
      [.httpCheckHandler request])
    (hd : message.decoded=true)
    (hm : cfg.rules.mitmConfig.bind
      (fun matcher => matcher (HttpInterceptorHandler.hostOf request message))=none) :
    ∃ w' sent out seen, Runs cfg w [fireRead .client id (.http (.request message))] w' ∧
      Tunnel w' front rear (selectedHttp request++[Handler.httpRequestDecoder history,.relayHandler])
        [.relayHandler,.httpRequestEncoder sent] ∧
      (w'.pipe .client).Located id (front++selectedHttp request) (.httpRequestDecoder history)
        [.relayHandler] ∧ Leads w w' [] out seen := by
  obtain ⟨id',hl',hfire⟩ := perform_ctxFire cfg (.read (.http (.request message))) [] hl (by simp) rfl
  have hfollow := ht.follow_up
  let encoding := (followedUp w).updPipe .remote
    (fun p => p.insertAt p.contexts.length none (.httpRequestEncoder []))
  have hlf : (encoding.pipe .client).Located id (front++selectedHttp request)
      (.httpRequestDecoder history) ([]++Handler.httpCheckHandler request::[Handler.relayHandler]) := by
    simpa [encoding,followedUp] using hl.insertAt_length none .relayHandler
  have hlc : (encoding.pipe .client).Located id'
      (front++selectedHttp request++Handler.httpRequestDecoder history::[]) (.httpCheckHandler request)
      [.relayHandler] := by
    simpa [encoding,followedUp] using hl'.insertAt_length none .relayHandler
  let removed := encoding.updPipe .client (fun p => p.remove id')
  have hlr : (removed.pipe .client).Located id (front++selectedHttp request)
      (.httpRequestDecoder history) [.relayHandler] := by
    simpa [removed] using hlf.remove_later _ hlc
  have hremoved : Tunnel removed front rear
      (selectedHttp request++[Handler.httpRequestDecoder history,.relayHandler])
      [.relayHandler,.httpRequestEncoder []] :=
    hfollow.of_pipes (by simpa using hlr.handlers) (by simp [removed,encoding,hfollow.remote])
      (by simp [removed,encoding]) (by simp [removed,encoding])
  have hhandlers : removed.handlers .client=
      (front++(selectedHttp request++[Handler.httpRequestDecoder history]))++Handler.relayHandler::[] := by
    rw [hremoved.client]
    simp
  obtain ⟨id₂,-,hagain⟩ := perform_pipelineFire cfg (.read (.http (.request message))) hhandlers
    (silent_append ht.frontIdle (by simp [reacts,readsMessage])) rfl
  obtain ⟨w',sent,out,seen,hwrite,ht',hleads,hpipe⟩ :=
    runs_write_http cfg (.request message) hremoved
  have hbody : body cfg w .client id' (.read (.http (.request message)))
      (.httpCheckHandler request)=DirectAction.doFollowUp++
        [Stmt.addLast .remote none (.httpRequestEncoder []),
          .remove .client id',.pipelineFire .client (.read (.http (.request message)))] := by
    change HttpInterceptorHandler.checkRead0 cfg.rules id' request message=_
    simp [HttpInterceptorHandler.checkRead0,hd,hm]
  have hto : Leads w removed [] [] [] := by
    constructor <;> simp [removed,encoding,followedUp]
  refine ⟨w',sent,_,_,runs_of_call hfire (hbody ▸ ?_),ht',hpipe ▸ hlr,hto.trans hleads⟩
  exact runs_doFollowUp.append (runs_addLast.cons ((runs_remove hlc).cons
    (runs_of_call hagain (runs_relay hremoved.remoteActive hwrite))))

end ProxyDroid.HttpPhases
