import ProxyDroid.InterceptedWrites

/-!
# Messages of an intercepted connection

`MitmInitializer` puts HTTP codecs and a message handler into the client
pipeline and HTTP codecs into the remote one, each followed by a relay
handler. The first complete request adds the two handlers that correct its
length and call the interceptor; every later one finds their names taken.
A response passes the same two handlers in the other order.
-/

namespace ProxyDroid.InterceptedMessages

open CallSemantics HandlerPipeline PipelineViews ConnectionTypes ConnectionHandlers
open ConnectionSystem ConnectionRules ConnectionInvariants InterceptedWrites

/-- The handlers that the first request adds. -/
def interceptors (i : HttpInterceptor) (called : Bool) : List (Option Label×Handler) :=
  if called then
    [(some .correctCRLFHander,.correctCRLFHander),(some .mitmHandler,.mitmHandler i)]
  else []

/-- Client handlers from the message handler on. -/
def messageTags (i : HttpInterceptor) (called : Bool) : List (Option Label×Handler) :=
  (some .httpMessageHandler,.httpMessageHandler i)::(interceptors i called++[(none,Handler.relayHandler)])

/-- Client handlers of an intercepted connection behind the leading ones. -/
def clientTags (i : HttpInterceptor) (called : Bool) : List (Option Label×Handler) :=
  [(none,Handler.httpResponseEncoder []),(none,.httpRequestDecoder []),(none,.httpObjectAggregator [])]++
    messageTags i called

/-- Remote handlers of an intercepted connection behind the leading ones. -/
def remoteTags : List (Option Label×Handler) :=
  [(none,.loggingHandler),(none,.httpResponseDecoder []),(none,.httpObjectAggregator []),
    (none,.httpRequestEncoder []),(none,.relayHandler)]

/-- A handler that was there before the interception: it is no aggregator and
does not use a name of the interception. -/
structure Earlier (t : Option Label×Handler) : Prop where
  /-- Its name. -/
  name : t.1≠some .httpMessageHandler ∧ t.1≠some .mitmHandler ∧ t.1≠some .correctCRLFHander
  /-- It makes no complete messages. -/
  aggregator : ∀ history, t.2≠.httpObjectAggregator history

/-- An intercepted connection, before or after its first request. -/
structure Wired (i : HttpInterceptor) (lead rear : List (Option Label×Handler)) (called : Bool)
    (w : World) : Prop where
  /-- Client pipeline. -/
  client : tags w .client=lead++clientTags i called
  /-- Remote pipeline. -/
  remote : tags w .remote=rear++remoteTags
  /-- Handlers before the interception. -/
  earlier : ∀ t∈lead++rear, Earlier t
  /-- Who waits for writes to the client. -/
  clientCalm : Calm Benign w .client
  /-- Who waits for writes to the remote. -/
  remoteCalm : Calm Unheard w .remote

section Wired

variable {i : HttpInterceptor} {lead rear : List (Option Label×Handler)} {called closing : Bool}
  {w w' : World}

/-- What happens below the codecs of the remote channel. -/
theorem Wired.below_remote (h : Wired i lead rear called w) (hb : Below closing .remote w w')
    (hc : Calm Unheard w' .remote) : Wired i lead rear called w' where
  client := (hb.tags .client).trans h.client
  remote := (hb.tags .remote).trans h.remote
  earlier := h.earlier
  clientCalm := by
    have hother := hb.other .client (by simp)
    exact h.clientCalm.of_same (hb.tags .client) hother.2.2 hother.2.1
  remoteCalm := hc

/-- What happens below the codecs of the client channel. -/
theorem Wired.below_client (h : Wired i lead rear called w) (hb : Below closing .client w w')
    (hc : Calm Benign w' .client) : Wired i lead rear called w' where
  client := (hb.tags .client).trans h.client
  remote := (hb.tags .remote).trans h.remote
  earlier := h.earlier
  clientCalm := hc
  remoteCalm := by
    have hother := hb.other .remote (by simp)
    exact h.remoteCalm.of_same (hb.tags .remote) hother.2.2 hother.2.1

theorem tags_note {obs : Obs} {s : Side} : tags (w.note obs) s=tags w s := by
  rw [tags,note_pipe]

/-- An observation leaves everything in place. -/
theorem Wired.note (h : Wired i lead rear called w) (obs : Obs) :
    Wired i lead rear called (w.note obs) where
  client := tags_note.trans h.client
  remote := tags_note.trans h.remote
  earlier := h.earlier
  clientCalm := h.clientCalm.of_same tags_note (by rw [note_chan]) (by rw [note_chan])
  remoteCalm := h.remoteCalm.of_same tags_note (by rw [note_chan]) (by rw [note_chan])

end Wired

section Encoders

variable {cfg : Config} {closing : Bool} {w : World} {s : Side} {C : Listener → Prop}
  {listener : Listener} {id : ℕ} {pre post : List (Option Label×Handler)}
  {x : Option Label×Handler} {message : Msg}

/-- An encoder records what it is handed and writes the bytes it makes of it,
or refuses. -/
theorem runs_encoder {wrap : List Msg → Handler} {history : List Msg} (hwraps : Wraps cfg)
    (hflush : ∀ w, Calm C w s → ∃ w', Runs cfg w [.flush s] w' ∧ Below closing s w w' ∧
      Calm C w' s)
    (hl : C listener) (hfail : listenerBody s false listener=[])
    (hwrap : dim (wrap (history++[message]))=x.2) (hc : Calm C w s)
    (hv : Viewed tag (w.pipe s) id pre x post) :
    ∃ w', Runs cfg w (httpEncoderWrite cfg s id wrap history message listener true) w' ∧
      Below closing s (w.note (.encoded s message)) w' ∧ Calm C w' s := by
  let noted := w.note (.encoded s message)
  let assigned := noted.updPipe s (fun p => p.assign id (wrap (history++[message])))
  have hcomm : (w.updPipe s (fun p => p.assign id (wrap (history++[message])))).note
      (.encoded s message)=assigned := by cases s <;> rfl
  have hstart : Runs cfg w [.assign s id (wrap (history++[message])),.noteEncoded s message]
      assigned := by
    rw [←hcomm]
    exact runs_assign.cons (runs_of_done rfl)
  have hvn : Viewed tag (noted.pipe s) id pre x post := by rwa [note_pipe]
  have hassign : Below closing s noted assigned := below_assign hvn hwrap.symm
  have hnoted : Calm C noted s := hc.of_same tags_note (by rw [note_chan]) (by rw [note_chan])
  have hassigned : Calm C assigned s :=
    hnoted.of_same (hassign.tags s) updPipe_life updPipe_queue
  have hva : Viewed tag (assigned.pipe s) id pre x post := by
    rw [pipe_updPipe_same]
    refine hvn.assign (fun c hcx => ?_)
    rw [←hcx] at hwrap ⊢
    exact Prod.ext rfl hwrap
  rw [httpEncoderWrite]
  cases hencode : cfg.httpEncode history message with
  | none =>
    refine ⟨assigned,hstart.append (runs_of_call rfl ?_),hassign,hassigned⟩
    rw [hfail]
    exact runs_nil
  | some data =>
    obtain ⟨w',hrun,hbelow,hcalm⟩ := runs_bytes_from hwraps hflush hl (.inl hfail) _ assigned pre
      post x id data rfl hassigned hva
    exact ⟨w',hstart.append hrun,hassign.trans hbelow,hcalm⟩

end Encoders

section Names

variable {cfg : Config} {w : World} {s : Side} {base label : Label} {h k : Handler} {id : ℕ}
  {pre post : List (Option Label×Handler)}

/-- Whether a tag carries a name. -/
def named (label : Label) (t : Option Label×Handler) : Bool := t.1==some label

theorem named_eq_false {t : Option Label×Handler} (h : t.1≠some label) : named label t=false := by
  simpa [named] using h

theorem hasLabel_tag (p : Pipeline Label Handler) : p.hasLabel label=(view tag p).any (named label) :=
  hasLabel_viewed (fun _ => rfl)

theorem indexOfLabel_tag (p : Pipeline Label Handler) :
    p.indexOfLabel label=(view tag p).findIdx (named label) :=
  indexOfLabel_viewed (fun _ => rfl)

/-- The first context under a name. -/
theorem hasLabel_of_view {p : Pipeline Label Handler} (hv : view tag p=pre++(some base,k)::post) :
    p.hasLabel base=true := by
  rw [hasLabel_tag,hv]
  simp [named]

theorem indexOfLabel_of_view {p : Pipeline Label Handler}
    (hv : view tag p=pre++(some base,k)::post) (hpre : ∀ t∈pre, t.1≠some base) :
    p.indexOfLabel base=pre.length := by
  have hnone : pre.findIdx (named base)=pre.length :=
    List.findIdx_eq_length.mpr (fun t ht => named_eq_false (hpre t ht))
  rw [indexOfLabel_tag,hv,List.findIdx_append,hnone]
  simp [named,List.findIdx_cons]

/-- A name that nobody carries. -/
theorem hasLabel_free {p : Pipeline Label Handler} (hfree : ∀ t∈view tag p, t.1≠some label) :
    p.hasLabel label=false := by
  rw [hasLabel_tag,List.any_eq_false]
  intro t ht
  simp [named_eq_false (hfree t ht)]

/-- `addAfter` under a free name. -/
theorem runs_addAfter (hv : tags w s=pre++(some base,k)::post) (hpre : ∀ t∈pre, t.1≠some base)
    (hfree : ∀ t∈tags w s, t.1≠some label) :
    Runs cfg w [.addAfter s base label h]
      (w.updPipe s (fun p => p.insertAt (pre.length+1) (some label) h)) := by
  refine runs_of_done ?_
  simp only [perform,hasLabel_of_view hv,if_true,addNamed,Option.any_some,hasLabel_free hfree,
    indexOfLabel_of_view hv hpre]
  rfl

/-- `addBefore` under a free name. -/
theorem runs_addBefore (hv : tags w s=pre++(some base,k)::post) (hpre : ∀ t∈pre, t.1≠some base)
    (hfree : ∀ t∈tags w s, t.1≠some label) :
    Runs cfg w [.addBefore s base label h]
      (w.updPipe s (fun p => p.insertAt pre.length (some label) h)) := by
  refine runs_of_done ?_
  simp only [perform,hasLabel_of_view hv,if_true,addNamed,Option.any_some,hasLabel_free hfree,
    indexOfLabel_of_view hv hpre]
  rfl

/-- `addAfter` under a name that is taken throws. -/
theorem perform_addAfter_taken (hb : (w.pipe s).hasLabel base=true)
    (hl : (w.pipe s).hasLabel label=true) :
    perform cfg (.addAfter s base label h) w=
      .throw .illegalArgument (w.note (.threw s .illegalArgument)) := by
  simp [perform,hb,addNamed,hl]

end Names

section Delivery

variable {cfg : Config} {w : World} {s : Side} {id : ℕ} {label : Option Label} {h : Handler}
  {pre post : List (Option Label×Handler)} {x : Option Label×Handler}

/-- Whether a handler is a codec with a history. -/
def isCodec : Handler → Bool
  | .sslHandler _ | .httpResponseDecoder _ | .httpObjectAggregator _ | .httpRequestEncoder _
  | .httpResponseEncoder _ => true
  | _ => false

/-- Other handlers are seen as they are. -/
theorem eq_of_dim {k : Handler} (hd : dim k=h) (hk : isCodec h=false) : k=h := by
  cases k <;> first | exact hd | (subst hd; cases hk)

/-- The handler at a position that is no codec. -/
theorem find_viewed (hv : Viewed tag (w.pipe s) id pre (label,h) post) (hk : isCodec h=false) :
    (w.pipe s).find id=some h := by
  obtain ⟨c,-,-,hc,hfind⟩ := hv.find
  have hd : dim c.handler=h := congrArg Prod.snd hc
  rw [hfind,eq_of_dim hd hk]

/-- Delivery to a position, whose codec may have a history. -/
theorem deliver_viewed (cfg : Config) (event : Inbound)
    (hv : Viewed tag (w.pipe s) id pre (label,h) post) :
    ∃ k∈w.handlers s, dim k=h ∧ deliver cfg w s event (some id)=
      .call w (body cfg w s id event k) (rescueOf s id event) := by
  obtain ⟨c,hmem,-,hc,hfind⟩ := hv.find
  refine ⟨c.handler,List.mem_map_of_mem hmem,congrArg Prod.snd hc,?_⟩
  simp only [deliver,hfind]

/-- An event from the head reaches the first handler that takes it. -/
theorem perform_pipelineFire_viewed (cfg : Config) (event : Inbound)
    (pre : List (Option Label×Handler))
    (hview : tags w s=pre++(label,h)::post) (hpre : ∀ t∈pre, takesEvent event t=false)
    (hh : reacts event h=true) :
    ∃ id, ∃ k∈w.handlers s, Viewed tag (w.pipe s) id pre (label,h) post ∧ dim k=h ∧
      perform cfg (.pipelineFire s event) w=
        .call w (body cfg w s id event k) (rescueOf s id event) := by
  obtain ⟨id,hfirst,hv⟩ := firstWhere_viewed (reacts_tag event) hview hpre hh
  obtain ⟨k,hmem,hk,hdeliver⟩ := deliver_viewed cfg event hv
  refine ⟨id,k,hmem,hv,hk,?_⟩
  simp only [perform,hfirst,hdeliver]

/-- An event passed on reaches the next handler that takes it. -/
theorem perform_ctxFire_next (cfg : Config) (event : Inbound) (mid : List (Option Label×Handler))
    (hv : Viewed tag (w.pipe s) id pre x (mid++(label,h)::post))
    (hmid : ∀ t∈mid, takesEvent event t=false) (hh : reacts event h=true) :
    ∃ id', ∃ k∈w.handlers s, Viewed tag (w.pipe s) id' (pre++x::mid) (label,h) post ∧ dim k=h ∧
      perform cfg (.ctxFire s id event) w=
        .call w (body cfg w s id' event k) (rescueOf s id' event) := by
  obtain ⟨id',hnext,hv'⟩ := hv.nextWhere (reacts_tag event) hmid hh
  obtain ⟨k,hmem,hk,hdeliver⟩ := deliver_viewed cfg event hv'
  refine ⟨id',k,hmem,hv',hk,?_⟩
  simp only [perform,hnext,hdeliver]

/-- The same for a handler that is no codec. -/
theorem perform_ctxFire_viewed (cfg : Config) (event : Inbound)
    (mid : List (Option Label×Handler))
    (hv : Viewed tag (w.pipe s) id pre x (mid++(label,h)::post))
    (hmid : ∀ t∈mid, takesEvent event t=false) (hh : reacts event h=true)
    (hk : isCodec h=false) :
    ∃ id', Viewed tag (w.pipe s) id' (pre++x::mid) (label,h) post ∧
      perform cfg (.ctxFire s id event) w=
        .call w (body cfg w s id' event h) (rescueOf s id' event) := by
  obtain ⟨id',k,-,hv',hd,hfire⟩ := perform_ctxFire_next cfg event mid hv hmid hh
  cases eq_of_dim hd hk
  exact ⟨id',hv',hfire⟩

/-- An event that no later handler takes is discarded. -/
theorem runs_ctxFire_last {event : Inbound} (hv : Viewed tag (w.pipe s) id pre x post)
    (hpost : ∀ t∈post, takesEvent event t=false) : Runs cfg w [.ctxFire s id event] w := by
  refine runs_of_done ?_
  simp only [perform,hv.nextWhere_none (reacts_tag event) hpost]
  rfl

/-- An event that no handler takes is discarded. -/
theorem runs_pipelineFire_last {event : Inbound} (hnone : ∀ t∈tags w s, takesEvent event t=false) :
    Runs cfg w [.pipelineFire s event] w := by
  refine runs_of_done ?_
  simp only [perform,firstWhere_viewed_none (reacts_tag event) hnone]
  rfl

/-- An event invoked on a context whose handler does not take it is passed on. -/
theorem perform_invoke_viewed (cfg : Config) (event : Inbound)
    (mid : List (Option Label×Handler)) {label' : Option Label} {h' : Handler}
    (hv : Viewed tag (w.pipe s) id pre (label',h') (mid++(label,h)::post))
    (hk' : isCodec h'=false) (hn : reacts event h'=false)
    (hmid : ∀ t∈mid, takesEvent event t=false) (hh : reacts event h=true)
    (hk : isCodec h=false) :
    ∃ id', perform cfg (.invoke s id event) w=
      .call w (body cfg w s id' event h) (rescueOf s id' event) := by
  obtain ⟨id',hnext,hv'⟩ := hv.nextWhere (reacts_tag event) hmid hh
  refine ⟨id',?_⟩
  simp only [perform,find_viewed hv hk',hn,Bool.false_eq_true,if_false,hnext,deliver,
    find_viewed hv' hk]

end Delivery

/-- What a message does on an intercepted connection. -/
structure Sees (i : HttpInterceptor) (lead rear : List (Option Label×Handler)) (called : Bool)
    (w w' : World) (seen : List Obs) : Prop where
  /-- The connection afterwards. -/
  wired : Wired i lead rear called w'
  /-- The observations. -/
  log : w'.log=w.log++seen
  /-- The remote channel is left open. -/
  remote : w'.isActive .remote=w.isActive .remote
  /-- The client channel may be closed. -/
  client : w'.isActive .client=true → w.isActive .client=true

section Sees

variable {i : HttpInterceptor} {lead rear : List (Option Label×Handler)} {called called' : Bool}
  {w w₁ w₂ : World} {a b : List Obs}

/-- Messages one after the other. -/
theorem Sees.trans (h : Sees i lead rear called w w₁ a) (k : Sees i lead rear called' w₁ w₂ b) :
    Sees i lead rear called' w w₂ (a++b) where
  wired := k.wired
  log := by rw [k.log,h.log,List.append_assoc]
  remote := k.remote.trans h.remote
  client := fun ha => h.client (k.client ha)

/-- An observation alone. -/
theorem Wired.sees_note (h : Wired i lead rear called w) (obs : Obs) :
    Sees i lead rear called w (w.note obs) [obs] :=
  ⟨h.note obs,note_log,note_isActive,fun ha => by rwa [note_isActive] at ha⟩

theorem viewed_note {T : Type} {v : Ctx Label Handler → T} {s : Side} {id : ℕ}
    {pre post : List T} {x : T} (obs : Obs) (hv : Viewed v (w.pipe s) id pre x post) :
    Viewed v ((w.note obs).pipe s) id pre x post := by
  rwa [note_pipe]

end Sees

/-- The request that reaches the encoder of the remote channel, if it is open. -/
def handed (w : World) (request : FullHttpRequest) : List Obs :=
  if w.isActive .remote then [.encoded .remote (.fullRequest request)] else []

section Requests

variable {cfg : Config} {i : HttpInterceptor} {lead rear : List (Option Label×Handler)}
  {called : Bool} {w : World} {id : ℕ} {request : FullHttpRequest}

theorem eq_httpRequestEncoder {h : Handler} (hd : dim h=.httpRequestEncoder []) :
    ∃ history, h=.httpRequestEncoder history := by
  cases h <;> first | exact ⟨_,rfl⟩ | cases hd

/-- A message for the upstream goes through the encoder of the remote channel. -/
theorem runs_request_encoder (hwraps : Wraps cfg) {pre post : List (Option Label×Handler)}
    (message : Msg) (hview : tags w .remote=pre++(none,Handler.httpRequestEncoder [])::post)
    (hpost : ∀ t∈post, takesWrite message t=false)
    (hm : intercepts message (.httpRequestEncoder [])=true) (hc : Calm Unheard w .remote) :
    ∃ w', Runs cfg w [.write .remote none message .none true] w' ∧
      Below false .remote (w.note (.encoded .remote message)) w' ∧ Calm Unheard w' .remote := by
  obtain ⟨id,hlast,hv⟩ := lastWhere_viewed (intercepts_tag message) hview hpost hm
  obtain ⟨c,-,-,hcx,hfind⟩ := hv.find
  obtain ⟨history,hh⟩ := eq_httpRequestEncoder (congrArg Prod.snd hcx)
  have hwrite : perform cfg (.write .remote none message .none true) w=
      .call w (httpEncoderWrite cfg .remote id .httpRequestEncoder history message .none true)
        drop := by
    simp only [perform,hlast,hfind,hh]
    rfl
  have hencoded : ∃ w', Runs cfg w (httpEncoderWrite cfg .remote id .httpRequestEncoder history
      message .none true) w' ∧ Below false .remote (w.note (.encoded .remote message)) w' ∧
      Calm Unheard w' .remote :=
    runs_encoder hwraps (fun _ => runs_flush_unheard) rfl rfl rfl hc hv
  obtain ⟨w',hrun,hbelow,hcalm⟩ := hencoded
  exact ⟨w',runs_of_call hwrite hrun,hbelow,hcalm⟩

/-- A request that a relay handler reads goes through the encoder of the
remote channel. -/
theorem Wired.runs_upstream (h : Wired i lead rear called w) (hwraps : Wraps cfg)
    (request : FullHttpRequest) :
    ∃ w', Runs cfg w (RelayHandler.channelRead w .client (.fullRequest request)) w' ∧
      Sees i lead rear called w w' (handed w request) := by
  rw [RelayHandler.channelRead,handed]
  cases ha : w.isActive .remote with
  | false => exact ⟨w,by simpa [Side.other,ha] using runs_nil,⟨h,by simp,rfl,fun h => h⟩⟩
  | true =>
    have hview : tags w .remote=
        (rear++[(none,Handler.loggingHandler),(none,.httpResponseDecoder []),
          (none,.httpObjectAggregator [])])++(none,Handler.httpRequestEncoder [])::[(none,Handler.relayHandler)] := by
      rw [h.remote,remoteTags,List.append_assoc]
      rfl
    obtain ⟨w',hrun,hbelow,hcalm⟩ := runs_request_encoder hwraps (.fullRequest request) hview
      (by simp [takesWrite,intercepts]) rfl h.remoteCalm
    refine ⟨w',?_,(h.note _).below_remote hbelow hcalm,?_,?_,?_⟩
    · simpa [Side.other,ha] using hrun
    · rw [hbelow.log]
      simp
    · rw [hbelow.stays rfl,note_isActive,ha]
    · intro hact
      rwa [(hbelow.other .client (by simp)).1,note_isActive] at hact

/-- Where complete requests come from. -/
abbrev Aggregated (w : World) (id : ℕ) (i : HttpInterceptor)
    (lead : List (Option Label×Handler)) (called : Bool) : Prop :=
  Viewed tag (w.pipe .client) id
    (lead++[(none,Handler.httpResponseEncoder []),(none,.httpRequestDecoder [])])
    (none,.httpObjectAggregator []) (messageTags i called)

/-- Client handlers before the message handler. -/
abbrev beforeMessages (lead : List (Option Label×Handler)) : List (Option Label×Handler) :=
  (lead++[(none,Handler.httpResponseEncoder []),(none,.httpRequestDecoder [])])++
    [(none,Handler.httpObjectAggregator [])]

theorem clientTags_eq (called : Bool) :
    lead++clientTags i called=beforeMessages lead++messageTags i called := by
  simp [clientTags,beforeMessages]

/-- Handlers before the message handler do not carry a name of the
interception. -/
theorem Wired.unnamed (h : Wired i lead rear called w) :
    ∀ t∈beforeMessages lead, t.1≠some .httpMessageHandler ∧ t.1≠some .mitmHandler ∧
      t.1≠some .correctCRLFHander := by
  intro t ht
  simp only [beforeMessages,List.append_assoc,List.mem_append,List.mem_cons,List.not_mem_nil,
    or_false] at ht
  rcases ht with ht|(rfl|rfl)|rfl
  · exact (h.earlier t (List.mem_append_left _ ht)).name
  · simp
  · simp
  · simp

/-- The two handlers of the interception are put behind the message handler. -/
theorem Wired.runs_install (cfg : Config) (h : Wired i lead rear false w)
    (hv : Viewed tag (w.pipe .client) id (beforeMessages lead)
      (some .httpMessageHandler,.httpMessageHandler i) [(none,.relayHandler)]) :
    ∃ w', Runs cfg w
        [.addAfter .client .httpMessageHandler .mitmHandler (.mitmHandler i),
          .addBefore .client .mitmHandler .correctCRLFHander .correctCRLFHander] w' ∧
      Sees i lead rear true w w' [] ∧
      Viewed tag (w'.pipe .client) id (beforeMessages lead)
        (some .httpMessageHandler,.httpMessageHandler i)
        [(some .correctCRLFHander,.correctCRLFHander),(some .mitmHandler,.mitmHandler i),
          (none,.relayHandler)] := by
  have hnames := h.unnamed
  let one := w.updPipe .client (fun p =>
    p.insertAt ((beforeMessages lead).length+1) (some .mitmHandler) (.mitmHandler i))
  let two := one.updPipe .client (fun p =>
    p.insertAt ((beforeMessages lead).length+1) (some .correctCRLFHander) .correctCRLFHander)
  have hone : Viewed tag (one.pipe .client) id (beforeMessages lead)
      (some .httpMessageHandler,.httpMessageHandler i)
      [(some .mitmHandler,.mitmHandler i),(none,.relayHandler)] := by
    rw [pipe_updPipe_same]
    exact hv.insert_behind _ _
  have htwo : Viewed tag (two.pipe .client) id (beforeMessages lead)
      (some .httpMessageHandler,.httpMessageHandler i)
      [(some .correctCRLFHander,.correctCRLFHander),(some .mitmHandler,.mitmHandler i),
        (none,.relayHandler)] := by
    rw [pipe_updPipe_same]
    exact hone.insert_behind _ _
  have hafter : Runs cfg w
      [.addAfter .client .httpMessageHandler .mitmHandler (.mitmHandler i)] one := by
    refine runs_addAfter hv.view (fun t ht => (hnames t ht).1) ?_
    rw [tags,hv.view]
    intro t ht
    rcases List.mem_append.mp ht with ht|ht
    · exact (hnames t ht).2.1
    · simp only [List.mem_cons,List.not_mem_nil,or_false] at ht
      rcases ht with rfl|rfl <;> simp
  have hbefore : Runs cfg one
      [.addBefore .client .mitmHandler .correctCRLFHander .correctCRLFHander] two := by
    have hsplit : tags one .client=(beforeMessages lead++
        [(some Label.httpMessageHandler,Handler.httpMessageHandler i)])++
        (some Label.mitmHandler,Handler.mitmHandler i)::[(none,Handler.relayHandler)] := by
      rw [tags,hone.view]
      simp
    have hlen : (beforeMessages lead).length+1=(beforeMessages lead++
        [(some Label.httpMessageHandler,Handler.httpMessageHandler i)]).length := by simp
    change Runs cfg one _ (one.updPipe .client (fun p => p.insertAt _ _ _))
    rw [hlen]
    refine runs_addBefore hsplit (fun t ht => ?_) (fun t ht => ?_)
    · rcases List.mem_append.mp ht with ht|ht
      · exact (hnames t ht).2.1
      · rw [List.mem_singleton.mp ht]
        simp
    · rw [tags,hone.view] at ht
      rcases List.mem_append.mp ht with ht|ht
      · exact (hnames t ht).2.2
      · simp only [List.mem_cons,List.not_mem_nil,or_false] at ht
        rcases ht with rfl|rfl|rfl <;> simp
  have hclient : tags two .client=lead++clientTags i true := by
    rw [tags,htwo.view,clientTags_eq]
    rfl
  have hremote : tags two .remote=tags w .remote := by simp [two,one,tags]
  have hlife (s : Side) : (two.chan s).life=(w.chan s).life := updPipe_life.trans updPipe_life
  have hqueue (s : Side) : (two.chan s).queue=(w.chan s).queue := updPipe_queue.trans updPipe_queue
  have hcarriers : ∀ t∈tags two .client, Carrier t := by
    have hcar := h.clientCalm.carriers
    rw [tags,hv.view] at hcar
    rw [tags,htwo.view]
    intro t ht
    rcases List.mem_append.mp ht with hb|ht
    · exact hcar t (List.mem_append_left _ hb)
    · simp only [List.mem_cons,List.not_mem_nil,or_false] at ht
      rcases ht with rfl|rfl|rfl|rfl <;> exact fun _ hc => by cases hc
  have hcalm : Calm Benign two .client :=
    ⟨hcarriers,hlife .client ▸ h.clientCalm.life,hqueue .client ▸ h.clientCalm.queue⟩
  have hwired : Wired i lead rear true two :=
    ⟨hclient,hremote.trans h.remote,h.earlier,hcalm,
      h.remoteCalm.of_same hremote (hlife .remote) (hqueue .remote)⟩
  have hactive (s : Side) : two.isActive s=w.isActive s := updPipe_isActive.trans updPipe_isActive
  refine ⟨two,hafter.cons hbefore,⟨hwired,?_,hactive .remote,fun ha => ?_⟩,htwo⟩
  · simp [two,one]
  · rwa [hactive] at ha

/-- The first request adds the two handlers, is corrected and given to the
interceptor, and its result goes to the remote channel. -/
theorem Wired.first_request (cfg : Config) (h : Wired i lead rear false w) (hwraps : Wraps cfg)
    (hv : Aggregated w id i lead false) (request : FullHttpRequest) :
    ∃ w', Runs cfg w [fireRead .client id (.fullRequest request)] w' ∧
      Sees i lead rear true w w'
        ([Obs.requestRead request,.onRequest (CorrectCRLFHander.correctRequest request)]++
          handed w (i.onRequest (CorrectCRLFHander.correctRequest request))) := by
  let corrected := CorrectCRLFHander.correctRequest request
  obtain ⟨id₁,hv₁,hfire₁⟩ := perform_ctxFire_viewed cfg (.read (.fullRequest request)) [] hv (by simp)
    rfl rfl
  have hsees₁ := h.sees_note (.requestRead request)
  obtain ⟨w₁,hinstall,hsees₂,hvm⟩ := hsees₁.wired.runs_install cfg (viewed_note _ hv₁)
  obtain ⟨id₂,hv₂,hfire₂⟩ := perform_ctxFire_viewed cfg (.read (.fullRequest request)) [] hvm (by simp)
    rfl rfl
  obtain ⟨id₃,hv₃,hfire₃⟩ := perform_ctxFire_viewed cfg (.read (.fullRequest corrected)) [] hv₂
    (by simp) rfl rfl
  have hsees₃ := hsees₂.wired.sees_note (.onRequest corrected)
  have hv₃' := viewed_note (.onRequest corrected) hv₃
  obtain ⟨id₄,-,hfire₄⟩ := perform_ctxFire_viewed cfg (.read (.fullRequest (i.onRequest corrected)))
    [] hv₃' (by simp) rfl rfl
  obtain ⟨w',hup,hsees₄⟩ := hsees₃.wired.runs_upstream hwraps (i.onRequest corrected)
  have hall := ((hsees₁.trans hsees₂).trans hsees₃).trans hsees₄
  have hhanded : handed (w₁.note (.onRequest corrected)) (i.onRequest corrected)=
      handed w (i.onRequest corrected) := by
    rw [handed,handed,((hsees₁.trans hsees₂).trans hsees₃).remote]
  rw [hhanded] at hall
  refine ⟨w',runs_of_call hfire₁ ?_,hall⟩
  have hmitm : Runs cfg w₁ [fireRead .client id₂ (.fullRequest corrected)] w' :=
    runs_of_call hfire₃ ((runs_of_done rfl).cons (runs_of_call hfire₄ hup))
  exact (runs_of_done rfl).cons (hinstall.append (runs_of_call hfire₂ hmitm))

/-- A later request finds the names taken: the message handler throws, and the
relay handler behind it closes the client channel. -/
theorem Wired.later_request (cfg : Config) (h : Wired i lead rear true w)
    (hv : Aggregated w id i lead true) (request : FullHttpRequest) :
    ∃ w', Runs cfg w [fireRead .client id (.fullRequest request)] w' ∧
      Sees i lead rear true w w' [.requestRead request,.threw .client .illegalArgument] ∧
      w'.isActive .client=false := by
  obtain ⟨id₁,hv₁,hfire₁⟩ := perform_ctxFire_viewed cfg (.read (.fullRequest request)) [] hv (by simp)
    rfl rfl
  let noted := w.note (.requestRead request)
  let failed := noted.note (.threw .client .illegalArgument)
  have hsees := (h.sees_note (.requestRead request)).trans
    ((h.note (.requestRead request)).sees_note (.threw .client .illegalArgument))
  have hvn := viewed_note (.requestRead request) hv₁
  have hbody : Eval (perform cfg) w (body cfg w .client id₁ (.read (.fullRequest request))
      (.httpMessageHandler i)) failed (some .illegalArgument) := by
    have hnote : perform cfg (.noteRequest request) w=.done noted := rfl
    refine .done hnote (.throw (perform_addAfter_taken ?_ ?_))
    · exact hasLabel_of_view hvn.view
    · have hview : view tag (noted.pipe .client)=(beforeMessages lead++
          [(some Label.httpMessageHandler,Handler.httpMessageHandler i),
            (some .correctCRLFHander,.correctCRLFHander)])++
          (some Label.mitmHandler,Handler.mitmHandler i)::[(none,Handler.relayHandler)] := by
        rw [hvn.view]
        simp [interceptors]
      exact hasLabel_of_view hview
  have hvf := viewed_note (.threw .client .illegalArgument) hvn
  obtain ⟨id₂,hinvoke⟩ := perform_invoke_viewed cfg (.exceptionCaught .illegalArgument)
    (interceptors i true) hvf rfl rfl (by simp [interceptors,takesEvent,reacts]) rfl rfl
  obtain ⟨w',hclose,hbelow,hcalm,hclosed⟩ := runs_close_calm cfg (fun _ h => h)
    hsees.wired.clientCalm
  refine ⟨w',runs_of_rescue hfire₁ hbody (x:=none) (runs_of_call hinvoke hclose),
    ⟨hsees.wired.below_client hbelow hcalm,?_,?_,fun ha => hsees.client (hbelow.active ha)⟩,hclosed⟩
  · rw [hbelow.log,hsees.log]
    rfl
  · rw [(hbelow.other .remote (by simp)).1,hsees.remote]

end Requests

/-- What a response from the remote channel shows: the interceptor is called
once a request has put it into the pipeline. -/
def answered (i : HttpInterceptor) (called : Bool) (response : FullHttpResponse) : List Obs :=
  if called then
    [.onResponse response,
      .encoded .client (.fullResponse (CorrectCRLFHander.correctResponse (i.onResponse response)))]
  else [.encoded .client (.fullResponse response)]

section Responses

variable {cfg : Config} {i : HttpInterceptor} {lead rear : List (Option Label×Handler)}
  {called : Bool} {w : World} {id : ℕ} {response : FullHttpResponse} {listener : Listener}

theorem eq_httpResponseEncoder {h : Handler} (hd : dim h=.httpResponseEncoder []) :
    ∃ history, h=.httpResponseEncoder history := by
  cases h <;> first | exact ⟨_,rfl⟩ | cases hd

/-- A response at the encoder of the client channel. -/
theorem Wired.runs_response_encoder (h : Wired i lead rear called w) (hwraps : Wraps cfg)
    (source : Option ℕ) (response : FullHttpResponse) (hl : Benign listener)
    (hfail : listenerBody .client false listener=[])
    (hv : Viewed tag (w.pipe .client) id lead (none,.httpResponseEncoder [])
      ([(none,Handler.httpRequestDecoder []),(none,.httpObjectAggregator [])]++messageTags i called))
    (hp : ∀ k, (w.pipe .client).find id=some k →
      perform cfg (.write .client source (.fullResponse response) listener true) w=
        .call w (writeBody cfg .client id (.fullResponse response) listener true k) drop) :
    ∃ w', Runs cfg w [.write .client source (.fullResponse response) listener true] w' ∧
      Sees i lead rear called w w' [.encoded .client (.fullResponse response)] := by
  obtain ⟨c,-,-,hc,hfind⟩ := hv.find
  obtain ⟨history,hh⟩ := eq_httpResponseEncoder (congrArg Prod.snd hc)
  rw [hh] at hfind
  have hencoded : ∃ w', Runs cfg w (httpEncoderWrite cfg .client id .httpResponseEncoder history
      (.fullResponse response) listener true) w' ∧
      Below true .client (w.note (.encoded .client (.fullResponse response))) w' ∧
      Calm Benign w' .client :=
    runs_encoder hwraps (fun _ => runs_flush_benign hwraps) hl hfail rfl h.clientCalm hv
  obtain ⟨w',hrun,hbelow,hcalm⟩ := hencoded
  have hsees := h.sees_note (.encoded .client (.fullResponse response))
  refine ⟨w',runs_of_call (hp _ hfind) hrun,hsees.wired.below_client hbelow hcalm,?_,?_,
    fun ha => hsees.client (hbelow.active ha)⟩
  · rw [hbelow.log,hsees.log]
  · rw [(hbelow.other .remote (by simp)).1,hsees.remote]

/-- A response that a relay handler reads, before any request. -/
theorem Wired.runs_plain_response (h : Wired i lead rear false w) (hwraps : Wraps cfg)
    (response : FullHttpResponse) :
    ∃ w', Runs cfg w [.write .client none (.fullResponse response) .none true] w' ∧
      Sees i lead rear false w w' [.encoded .client (.fullResponse response)] := by
  obtain ⟨id,hlast,hv⟩ := lastWhere_viewed (intercepts_tag (.fullResponse response)) h.client
    (by simp [messageTags,interceptors,takesWrite,intercepts]) rfl
  refine h.runs_response_encoder hwraps none response (.inl (.inl rfl)) rfl hv (fun k hfind => ?_)
  simp only [perform,hlast,hfind]

/-- A response that a relay handler reads, after the first request. -/
theorem Wired.runs_intercepted_response (h : Wired i lead rear true w) (hwraps : Wraps cfg)
    (response : FullHttpResponse) :
    ∃ w', Runs cfg w [.write .client none (.fullResponse response) .none true] w' ∧
      Sees i lead rear true w w'
        [.onResponse response,.encoded .client
          (.fullResponse (CorrectCRLFHander.correctResponse (i.onResponse response)))] := by
  have hview : tags w .client=(beforeMessages lead++
      [(some Label.httpMessageHandler,Handler.httpMessageHandler i),
        (some .correctCRLFHander,.correctCRLFHander)])++
      (some Label.mitmHandler,Handler.mitmHandler i)::[(none,Handler.relayHandler)] := by
    rw [h.client,clientTags_eq]
    simp [messageTags,interceptors]
  obtain ⟨id,hlast,hv⟩ := lastWhere_viewed (intercepts_tag (.fullResponse response)) hview
    (by simp [takesWrite,intercepts]) rfl
  have hmitm : perform cfg (.write .client none (.fullResponse response) .none true) w=
      .call w (MitmHandler.write id i (.fullResponse response) .none true) drop := by
    simp only [perform,hlast,find_viewed hv rfl]
    rfl
  have hsees₁ := h.sees_note (.onResponse response)
  have hvn : Viewed tag ((w.note (.onResponse response)).pipe .client) id
      ((beforeMessages lead++[(some Label.httpMessageHandler,Handler.httpMessageHandler i)])++
        (some Label.correctCRLFHander,Handler.correctCRLFHander)::[])
      (some .mitmHandler,.mitmHandler i) [(none,.relayHandler)] := by
    simpa using viewed_note (.onResponse response) hv
  obtain ⟨id₂,hprev₂,hv₂⟩ := hvn.prevWhere
    (intercepts_tag (.fullResponse (i.onResponse response))) (by simp) rfl
  have hcrlf : perform cfg (.write .client (some id) (.fullResponse (i.onResponse response))
      .responseWritten true) (w.note (.onResponse response))=
      .call (w.note (.onResponse response)) (CorrectCRLFHander.write id₂
        (.fullResponse (i.onResponse response)) .responseWritten true) drop := by
    simp only [perform,hprev₂,find_viewed hv₂ rfl]
    rfl
  let corrected := CorrectCRLFHander.correctResponse (i.onResponse response)
  have hv₂' : Viewed tag ((w.note (.onResponse response)).pipe .client) id₂
      (lead++(none,Handler.httpResponseEncoder [])::[(none,Handler.httpRequestDecoder []),
        (none,.httpObjectAggregator []),(some Label.httpMessageHandler,.httpMessageHandler i)])
      (some .correctCRLFHander,.correctCRLFHander)
      [(some .mitmHandler,.mitmHandler i),(none,.relayHandler)] := by
    simpa [beforeMessages] using hv₂
  obtain ⟨id₃,hprev₃,hv₃⟩ := hv₂'.prevWhere (intercepts_tag (.fullResponse corrected))
    (by simp [takesWrite,intercepts]) rfl
  obtain ⟨w',hrun,hsees₂⟩ := hsees₁.wired.runs_response_encoder hwraps (some id₂) corrected
    (.inr rfl) rfl hv₃ (fun k hfind => by simp only [perform,hprev₃,hfind])
  exact ⟨w',runs_of_call hmitm ((runs_of_done rfl).cons (runs_of_call hcrlf hrun)),
    hsees₁.trans hsees₂⟩

/-- Where complete responses come from. -/
abbrev Answering (w : World) (id : ℕ) (rear : List (Option Label×Handler)) : Prop :=
  Viewed tag (w.pipe .remote) id
    (rear++[(none,Handler.loggingHandler),(none,.httpResponseDecoder [])])
    (none,.httpObjectAggregator []) [(none,.httpRequestEncoder []),(none,.relayHandler)]

/-- A complete response is passed on while the client channel is open. -/
theorem Wired.runs_response (cfg : Config) (h : Wired i lead rear called w) (hwraps : Wraps cfg)
    (hv : Answering w id rear) (response : FullHttpResponse) :
    ∃ w', Runs cfg w [fireRead .remote id (.fullResponse response)] w' ∧
      Sees i lead rear called w w'
        (if w.isActive .client then answered i called response else []) := by
  obtain ⟨id₁,-,hfire⟩ := perform_ctxFire_viewed cfg (.read (.fullResponse response))
    [(none,.httpRequestEncoder [])] hv (by simp [takesEvent,reacts,readsMessage]) rfl rfl
  have hbody : body cfg w .remote id₁ (.read (.fullResponse response)) .relayHandler=
      RelayHandler.channelRead w .remote (.fullResponse response) := rfl
  rw [hbody,RelayHandler.channelRead] at hfire
  cases ha : w.isActive .client with
  | false =>
    rw [Side.other,ha] at hfire
    exact ⟨w,runs_of_call hfire runs_nil,h,by simp,rfl,fun hact => hact⟩
  | true =>
    rw [Side.other,ha] at hfire
    cases called with
    | false =>
      obtain ⟨w',hrun,hsees⟩ := h.runs_plain_response hwraps response
      exact ⟨w',runs_of_call hfire hrun,hsees⟩
    | true =>
      obtain ⟨w',hrun,hsees⟩ := h.runs_intercepted_response hwraps response
      exact ⟨w',runs_of_call hfire hrun,hsees⟩

end Responses

end ProxyDroid.InterceptedMessages
