import ProxyDroid.InterceptedRuns
import ProxyDroid.TunnelPhases

/-!
# Termination of an intercepted TLS connection

When the server name of a client hello is intercepted, `SniHandler` gives its
place to a TLS handler, puts another one before the remote pipeline and adds an
`HttpInterceptorHandler`. The re-fired `channelActive` starts both engines and
adds the HTTP decoder with the check handler. Until the decoder has read the
head of a request, nothing above the engines changes.
-/

namespace ProxyDroid.TlsTermination

open CallSemantics HandlerPipeline PipelineViews ConnectionTypes ConnectionHandlers
open ConnectionSystem ConnectionRules ConnectionInvariants TunnelPhases InterceptedWrites
open InterceptedMessages InterceptedRuns

/-- TLS engines start a handshake and wrap what is written to them, without
plaintext for the pipeline and without failing. -/
structure Engines (cfg : Config) : Prop where
  /-- Written data. -/
  wraps : Wraps cfg
  /-- The start of a handshake. -/
  starts : ∀ s history, (cfg.tls s history .start).plain=[] ∧ (cfg.tls s history .start).failed=false

/-- Handlers that were added without a name. -/
def unnamed (hs : List Handler) : List (Option Label×Handler) := hs.map (fun h => (none,h))

/-- Handlers of the client before its TLS handler. -/
def selected (request : Socks5CommandRequest) (front : List Handler) : List (Option Label×Handler) :=
  unnamed front++[(none,Handler.protocolSelectHandler request .success)]

/-- An `SniHandler` that waits for the end of a client hello. -/
structure Looking (request : Socks5CommandRequest) (front rear : List Handler) (buffered : Bytes)
    (w : World) : Prop where
  /-- Client pipeline. -/
  client : tags w .client=selected request front++[(none,Handler.sniHandler request buffered)]
  /-- Remote pipeline. -/
  remote : tags w .remote=unnamed rear
  /-- The client codecs have done their work. -/
  frontIdle : ∀ h∈front, Idle h
  /-- The remote codecs have done their work. -/
  rearIdle : ∀ h∈rear, Idle h
  /-- Who waits for writes. -/
  calm : ∀ s, Calm Unheard w s

/-- Handlers of the client up to the HTTP decoder, which has read `past`. -/
def secured (request : Socks5CommandRequest) (front : List Handler) (past : List Bytes) :
    List (Option Label×Handler) :=
  selected request front++[(some Label.downStreamTlshandler,Handler.sslHandler []),
    (none,.httpInterceptorHandler request),(none,.httpRequestDecoder past)]

/-- Handlers of the remote behind its TLS handler. -/
def securedRemote (rear : List Handler) : List (Option Label×Handler) :=
  (some .upstreamTlsHandler,.sslHandler [])::unnamed rear

/-- TLS is terminated and the head of a request is awaited; the end of the remote
channel may have been handled. -/
structure Terminated (request : Socks5CommandRequest) (front rear : List Handler)
    (past : List Bytes) (w : World) : Prop where
  /-- Client pipeline. -/
  client : tags w .client=secured request front past++[(none,Handler.httpCheckHandler request)]
  /-- Remote pipeline. -/
  remote : tags w .remote=securedRemote rear ∨ tags w .remote=[]
  /-- The client codecs have done their work. -/
  frontIdle : ∀ h∈front, Idle h
  /-- The remote codecs have done their work. -/
  rearIdle : ∀ h∈rear, Idle h
  /-- Who waits for writes. -/
  calm : ∀ s, Calm Unheard w s

section Names

variable {hs : List Handler}

/-- Idle handlers take no event. -/
theorem unnamed_silent (hidle : ∀ h∈hs, Idle h) (event : Inbound) :
    ∀ t∈unnamed hs, takesEvent event t=false := by
  intro t ht
  obtain ⟨h,hh,rfl⟩ := List.mem_map.mp ht
  exact (hidle h hh).1 event

/-- Idle handlers take no bytes. -/
theorem unnamed_carrier (hidle : ∀ h∈hs, Idle h) : ∀ t∈unnamed hs, Carrier t := by
  intro t ht data hd
  obtain ⟨h,hh,rfl⟩ := List.mem_map.mp ht
  rw [takesWrite,(hidle h hh).2 (.bytes data) (by simp)] at hd
  cases hd

theorem unnamed_label (label : Label) : ∀ t∈unnamed hs, t.1≠some label := by
  intro t ht
  obtain ⟨h,hh,rfl⟩ := List.mem_map.mp ht
  simp

/-- An idle handler is no codec with a history. -/
theorem isCodec_of_idle {h : Handler} (hi : Idle h) : isCodec h=false := by
  cases h with
  | sslHandler => exact absurd (hi.1 .active) (by simp [reacts])
  | httpResponseDecoder => exact absurd (hi.1 .inactive) (by simp [reacts])
  | httpObjectAggregator =>
    exact absurd (hi.1 (.read (.http (.content [] true)))) (by simp [reacts,readsMessage])
  | httpRequestEncoder =>
    exact absurd (hi.2 (.http (.content [] true)) (by simp)) (by simp [intercepts])
  | httpResponseEncoder =>
    exact absurd (hi.2 (.http (.content [] true)) (by simp)) (by simp [intercepts])
  | _ => rfl

theorem unnamed_earlier (hidle : ∀ h∈hs, Idle h) : ∀ t∈unnamed hs, Earlier t := by
  intro t ht
  obtain ⟨h,hh,rfl⟩ := List.mem_map.mp ht
  refine ⟨by simp,fun history he => ?_⟩
  have hcodec := isCodec_of_idle (hidle h hh)
  rw [show h=_ from he] at hcodec
  cases hcodec

end Names

section Engines

variable {cfg : Config} {w : World} {s : Side} {id : ℕ} {pre post : List (Option Label×Handler)}
  {x : Option Label×Handler} {history : List TlsInput} {input : TlsInput}

/-- A TLS engine takes an input; what it decrypts is handled above it. -/
theorem runs_engine (hwraps : Wraps cfg) (hv : Viewed tag (w.pipe s) id pre x post)
    (hx : x.2=.sslHandler []) (hc : Calm Unheard w s)
    (hfailed : (cfg.tls s history input).failed=false) :
    ∃ w₁, Below false s w w₁ ∧ Calm Unheard w₁ s ∧
      ∀ w', Runs cfg w₁ ((cfg.tls s history input).plain.map
          (fun chunk => fireRead s id (.bytes chunk))) w' →
        Runs cfg w (SslHandler.step cfg s id history input .none true) w' := by
  let assigned := w.updPipe s (fun p => p.assign id (.sslHandler (history++[input])))
  have hassign : Below false s w assigned := below_assign hv hx
  have hassigned : Calm Unheard assigned s :=
    hc.of_same (hassign.tags s) updPipe_life updPipe_queue
  obtain ⟨w₁,hwrite,hbelow,hcalm⟩ := runs_bytes_from hwraps (fun _ => runs_flush_unheard) rfl
    (.inl rfl) _ assigned pre post x id (cfg.tls s history input).network rfl hassigned
    ((hassign.same s).viewed hv)
  refine ⟨w₁,hassign.trans hbelow,hcalm,fun w' hfire => ?_⟩
  rw [SslHandler.step,hfailed]
  exact ((runs_assign.cons hwrite).append hfire).append runs_nil

/-- An engine that decrypts nothing. -/
theorem runs_engine_silent (hwraps : Wraps cfg) (hv : Viewed tag (w.pipe s) id pre x post)
    (hx : x.2=.sslHandler []) (hc : Calm Unheard w s)
    (hout : (cfg.tls s history input).plain=[] ∧ (cfg.tls s history input).failed=false) :
    ∃ w', Runs cfg w (SslHandler.step cfg s id history input .none true) w' ∧
      Below false s w w' ∧ Calm Unheard w' s := by
  obtain ⟨w₁,hbelow,hcalm,hstep⟩ := runs_engine hwraps hv hx hc hout.2
  rw [hout.1] at hstep
  exact ⟨w₁,hstep w₁ runs_nil,hbelow,hcalm⟩

end Engines

section Active

variable {cfg : Config} {w : World} {s : Side} {id id' : ℕ} {pre post : List (Option Label×Handler)}
  {label : Option Label} {h : Handler} {request : Socks5CommandRequest} {front rear : List Handler}

/-- An event passed on by a context that gave up its place. -/
theorem perform_ctxFire_replaced (cfg : Config) (event : Inbound)
    (hr : Replaced (w.pipe s) id id') (hv : Viewed tag (w.pipe s) id' pre (label,h) post)
    (hh : reacts event h=true) :
    ∃ k, dim k=h ∧ perform cfg (.ctxFire s id event) w=
      .call w (body cfg w s id' event k) (rescueOf s id' event) := by
  obtain ⟨k,-,hk,hdeliver⟩ := deliver_viewed cfg event hv
  refine ⟨k,hk,?_⟩
  simp only [perform,hr.nextWhere (reacts_tag event) hv hh,hdeliver]

/-- `channelActive` starts the engine before it is passed on. -/
theorem runs_engine_active (hengines : Engines cfg) {k : Handler}
    (hv : Viewed tag (w.pipe s) id pre (label,.sslHandler []) post) (hk : dim k=.sslHandler [])
    (hc : Calm Unheard w s) :
    ∃ w₁, Below false s w w₁ ∧ Calm Unheard w₁ s ∧
      ∀ w', Runs cfg w₁ [.ctxFire s id .active] w' → Runs cfg w (body cfg w s id .active k) w' := by
  obtain ⟨history,rfl⟩ := eq_sslHandler hk
  obtain ⟨w₁,hrun,hbelow,hcalm⟩ := runs_engine_silent hengines.wraps hv rfl hc
    (hengines.starts s history)
  exact ⟨w₁,hbelow,hcalm,fun w' hrest => hrun.append hrest⟩

/-- `channelActive` of the remote pipeline starts its engine. -/
theorem runs_active_remote (hengines : Engines cfg) (hview : tags w .remote=securedRemote rear)
    (hidle : ∀ h∈rear, Idle h) (hc : Calm Unheard w .remote) :
    ∃ w', Runs cfg w [.pipelineFire .remote .active] w' ∧ Below false .remote w w' ∧
      Calm Unheard w' .remote := by
  obtain ⟨id,k,-,hv,hk,hfire⟩ := perform_pipelineFire_viewed cfg .active [] hview (by simp) rfl
  obtain ⟨w₁,hbelow,hcalm,hbody⟩ := runs_engine_active hengines hv hk hc
  have hlast : Runs cfg w₁ [.ctxFire .remote id .active] w₁ :=
    runs_ctxFire_last ((hbelow.same .remote).viewed hv) (unnamed_silent hidle .active)
  exact ⟨w₁,runs_of_call hfire (hbody w₁ hlast),hbelow,hcalm⟩

/-- The pipelines when the re-fired `channelActive` sets out: the context `id` of
the `SniHandler` has given its place to `id'`. -/
structure Prepared (request : Socks5CommandRequest) (front rear : List Handler) (id id' : ℕ)
    (w : World) : Prop where
  /-- Client pipeline. -/
  client : Viewed tag (w.pipe .client) id'
    (selected request front) (some .downStreamTlshandler,.sslHandler []) [(none,.httpInterceptorHandler request)]
  /-- The exchange. -/
  replaced : Replaced (w.pipe .client) id id'
  /-- Remote pipeline. -/
  remote : tags w .remote=securedRemote rear
  /-- Who waits for writes. -/
  calm : ∀ s, Calm Unheard w s

/-- What happens below the codecs of one side leaves both calm. -/
theorem calm_of_below {w' : World} (hb : Below false s w w') (hc : ∀ t, Calm Unheard w t)
    (hs : Calm Unheard w' s) (t : Side) : Calm Unheard w' t := by
  by_cases hts : t=s
  · exact hts ▸ hs
  · exact (hc t).of_same (hb.tags t) (hb.other t hts).2.2 (hb.other t hts).2.1

/-- A handler that takes no raw bytes. -/
theorem carrier_of_plain {t : Option Label×Handler} (h : takesWrite (.bytes []) t=false) :
    Carrier t := by
  intro data hd
  have hsame : takesWrite (.bytes data) t=takesWrite (.bytes []) t := by
    obtain ⟨label,k⟩ := t
    cases k <;> rfl
  rw [hsame,h] at hd
  cases hd

theorem carriers_of_plain {ts : List (Option Label×Handler)}
    (h : ∀ t∈ts, takesWrite (.bytes []) t=false) : ∀ t∈ts, Carrier t :=
  fun t ht => carrier_of_plain (h t ht)

/-- The re-fired `channelActive` starts the engine of the client, and the
interceptor adds its decoder and its check handler. -/
theorem Prepared.runs_active (hp : Prepared request front rear id id' w) (hengines : Engines cfg)
    (hidle : ∀ h∈front, Idle h) :
    ∃ w', Runs cfg w [.pipelineFire .client .active] w' ∧
      Viewed tag (w'.pipe .client) id'
        (selected request front)
        (some .downStreamTlshandler,.sslHandler [])
        [(none,.httpInterceptorHandler request),(none,.httpRequestDecoder []),
          (none,.httpCheckHandler request)] ∧
      Replaced (w'.pipe .client) id id' ∧ tags w' .remote=tags w .remote ∧
      ∀ s, Calm Unheard w' s := by
  have hsilent : ∀ t∈selected request front,
      takesEvent .active t=false := by
    intro t ht
    rcases List.mem_append.mp ht with ht|ht
    · exact unnamed_silent hidle .active t ht
    · rw [List.mem_singleton.mp ht]
      rfl
  obtain ⟨id₁,k,-,hv₁,hk,hfire⟩ := perform_pipelineFire_viewed cfg .active _ hp.client.view hsilent rfl
  cases hp.client.unique hv₁
  obtain ⟨w₁,hbelow,hcalm,hbody⟩ := runs_engine_active hengines hv₁ hk (hp.calm .client)
  obtain ⟨id₂,hv₂,hnext⟩ := perform_ctxFire_viewed cfg .active []
    ((hbelow.same .client).viewed hv₁) (by simp) rfl rfl
  obtain ⟨w₂,hadd,hext⟩ := runs_addLast_all cfg .client
    [.httpRequestDecoder [],.httpCheckHandler request] w₁
  have hlast : Runs cfg w₂ [.ctxFire .client id₂ .active] w₂ :=
    runs_ctxFire_last (hext.viewed hv₂) (by simp [only,dim,takesEvent,reacts])
  have hboth := calm_of_below hbelow hp.calm hcalm
  refine ⟨w₂,runs_of_call hfire (hbody w₂ (runs_of_call hnext (hadd.append hlast))),
    hext.viewed ((hbelow.same .client).viewed hv₁),
    hext.replaced (hp.replaced.same (hbelow.same .client)),?_,fun s => ?_⟩
  · rw [hext.tags,hbelow.tags]
    exact List.append_nil _
  · refine hext.calm (hboth s) (carriers_of_plain ?_)
    cases s <;> simp [only,dim,takesWrite,intercepts]

end Active

section Lookup

variable {cfg : Config} {w : World} {id : ℕ} {request : Socks5CommandRequest}
  {front rear : List Handler} {buffered : Bytes}

/-- The handlers before the `SniHandler` take none of its events. -/
theorem select_label (label : Label) :
    ∀ t∈selected request front, t.1≠some label := by
  intro t ht
  rcases List.mem_append.mp ht with ht|ht
  · exact unnamed_label label t ht
  · rw [List.mem_singleton.mp ht]
    simp

/-- The lookup exchanges the handlers. -/
theorem Looking.runs_prepare (cfg : Config) (h : Looking request front rear buffered w)
    (hv : Viewed tag (w.pipe .client) id
      (selected request front)
      (none,.sniHandler request buffered) []) (hello : Bytes) :
    ∃ id' w', Runs cfg w [.assign .client id (.sniHandler request hello),
        .replace .client id .downStreamTlshandler (.sslHandler []),
        .addFirst .remote (some .upstreamTlsHandler) (.sslHandler []),
        .addLast .client none (.httpInterceptorHandler request)] w' ∧
      Prepared request front rear id id' w' := by
  let w₁ := w.updPipe .client (fun p => p.assign id (.sniHandler request hello))
  have hv₁ : Viewed tag (w₁.pipe .client) id
      (selected request front)
      (none,.sniHandler request hello) [] := by
    rw [pipe_updPipe_same]
    refine hv.assign (fun c hc => ?_)
    have hlabel : c.label=none := congrArg Prod.fst hc
    exact Prod.ext hlabel rfl
  have hfree : (w₁.pipe .client).hasLabel .downStreamTlshandler=false := by
    refine hasLabel_free (fun t ht => ?_)
    rw [hv₁.view] at ht
    rcases List.mem_append.mp ht with ht|ht
    · exact select_label _ t ht
    · rw [List.mem_singleton.mp ht]
      simp
  let w₂ := w₁.updPipe .client (fun p => p.replace id (some .downStreamTlshandler) (.sslHandler []))
  have hreplace : Runs cfg w₁ [.replace .client id .downStreamTlshandler (.sslHandler [])] w₂ := by
    refine runs_of_done ?_
    simp only [perform,hv₁.has,hfree,Bool.not_false,Bool.and_self,if_true]
    rfl
  obtain ⟨hv₂,hr₂⟩ := hv₁.replace (some .downStreamTlshandler) (.sslHandler [])
  let w₃ := w₂.updPipe .remote
    (fun p => p.insertAt 0 (some .upstreamTlsHandler) (.sslHandler []))
  have hremote : tags w₂ .remote=unnamed rear := by
    rw [tags,pipe_updPipe_of_ne (by simp),pipe_updPipe_of_ne (by simp)]
    exact h.remote
  have hfirst : Runs cfg w₂ [.addFirst .remote (some .upstreamTlsHandler) (.sslHandler [])] w₃ := by
    refine runs_of_done ?_
    have hnone : (w₂.pipe .remote).hasLabel .upstreamTlsHandler=false :=
      hasLabel_free (fun t ht => unnamed_label _ t (by rwa [←hremote]))
    simp only [perform,addNamed,Option.any_some,hnone]
    rfl
  have hviews₃ : tags w₃ .remote=securedRemote rear := by
    rw [tags,pipe_updPipe_same,view_insertAt,←tags,hremote]
    rfl
  let w₄ := w₃.updPipe .client
    (fun p => p.insertAt p.contexts.length none (.httpInterceptorHandler request))
  have hlast : Runs cfg w₃ [.addLast .client none (.httpInterceptorHandler request)] w₄ :=
    runs_addLast
  have hpipe₃ : w₃.pipe .client=
      (w₁.pipe .client).replace id (some .downStreamTlshandler) (.sslHandler []) := by
    rw [pipe_updPipe_of_ne (by simp),pipe_updPipe_same]
  have hclient : Viewed tag (w₄.pipe .client) (w₁.pipe .client).nextId
      (selected request front)
      (some .downStreamTlshandler,.sslHandler []) [(none,.httpInterceptorHandler request)] := by
    rw [pipe_updPipe_same,hpipe₃]
    exact hv₂.insert_last none (.httpInterceptorHandler request)
  have hviews₄ : tags w₄ .remote=securedRemote rear := by
    rw [tags,pipe_updPipe_of_ne (by simp)]
    exact hviews₃
  refine ⟨_,w₄,runs_assign.cons (hreplace.cons (hfirst.cons hlast)),hclient,?_,hviews₄,fun s => ?_⟩
  · rw [pipe_updPipe_same,hpipe₃]
    exact hr₂.insertAt _ _ _
  · have hlife : (w₄.chan s).life=(w.chan s).life :=
      updPipe_life.trans (updPipe_life.trans (updPipe_life.trans updPipe_life))
    have hqueue : (w₄.chan s).queue=(w.chan s).queue :=
      updPipe_queue.trans (updPipe_queue.trans (updPipe_queue.trans updPipe_queue))
    refine ⟨?_,hlife ▸ (h.calm s).life,hqueue ▸ (h.calm s).queue⟩
    cases s with
    | client =>
      rw [tags,hclient.view]
      intro t ht
      rcases List.mem_append.mp ht with ht|ht
      · rcases List.mem_append.mp ht with ht|ht
        · exact unnamed_carrier h.frontIdle t ht
        · rw [List.mem_singleton.mp ht]
          exact carrier_of_plain rfl
      · simp only [List.mem_cons,List.not_mem_nil,or_false] at ht
        rcases ht with rfl|rfl
        · exact fun _ _ => rfl
        · exact carrier_of_plain rfl
    | remote =>
      rw [hviews₄]
      intro t ht
      rcases List.mem_cons.mp ht with rfl|ht
      · exact fun _ _ => rfl
      · exact unnamed_carrier h.rearIdle t ht

/-- A client hello without plaintext: an engine answers it without failing. -/
def Greets (cfg : Config) (hello : Bytes) : Prop :=
  ∀ history, (cfg.tls .client history (.fromNetwork hello)).plain=[] ∧
    (cfg.tls .client history (.fromNetwork hello)).failed=false

/-- An intercepted server name terminates TLS. -/
theorem Looking.runs_lookup (h : Looking request front rear buffered w) (hengines : Engines cfg)
    {data : Bytes} {host : String} {i : HttpInterceptor}
    (hv : Viewed tag (w.pipe .client) id
      (selected request front)
      (none,.sniHandler request buffered) [])
    (hhello : cfg.clientHello (buffered++data)=some (some host)) (hhost : host≠"")
    (hmatch : cfg.rules.mitmConfig.bind (fun matcher => matcher host)=some i)
    (hgreets : Greets cfg (buffered++data)) :
    ∃ w', Runs cfg w (SniHandler.channelRead cfg id request buffered data) w' ∧
      Terminated request front rear [] w' := by
  obtain ⟨id',w₁,hprepare,hp⟩ := h.runs_prepare cfg hv (buffered++data)
  obtain ⟨w₂,hactive,hv₂,hr₂,hremote₂,hcalm₂⟩ := hp.runs_active hengines h.frontIdle
  obtain ⟨w₃,hactive',hbelow₃,hcalm₃⟩ := runs_active_remote hengines (hremote₂.trans hp.remote)
    h.rearIdle (hcalm₂ .remote)
  have hv₃ := (hbelow₃.same .client).viewed hv₂
  obtain ⟨k,hk,hfire⟩ := perform_ctxFire_replaced cfg (.read (.bytes (buffered++data)))
    (hr₂.same (hbelow₃.same .client)) hv₃ rfl
  obtain ⟨history,rfl⟩ := eq_sslHandler hk
  have hboth₃ := calm_of_below hbelow₃ hcalm₂ hcalm₃
  obtain ⟨w₄,hengine,hbelow₄,hcalm₄⟩ := runs_engine_silent hengines.wraps hv₃ rfl (hboth₃ .client)
    (hgreets history)
  have hbody : SniHandler.channelRead cfg id request buffered data=
      [Stmt.assign .client id (.sniHandler request (buffered++data)),
        .replace .client id .downStreamTlshandler (.sslHandler []),
        .addFirst .remote (some .upstreamTlsHandler) (.sslHandler []),
        .addLast .client none (.httpInterceptorHandler request)]++
      [Stmt.pipelineFire .client .active,.pipelineFire .remote .active,
        fireRead .client id (.bytes (buffered++data))] := by
    simp [SniHandler.channelRead,SniHandler.onLookupComplete,hhello,hhost,hmatch]
  refine ⟨w₄,?_,?_,?_,h.frontIdle,h.rearIdle,calm_of_below hbelow₄ hboth₃ hcalm₄⟩
  · rw [hbody]
    exact hprepare.append (hactive.cons (hactive'.cons (runs_of_call hfire hengine)))
  · rw [hbelow₄.tags,tags,hv₃.view]
    simp [secured]
  · rw [hbelow₄.tags,hbelow₃.tags,hremote₂,hp.remote]
    exact .inl rfl

end Lookup

section Reads

variable {cfg : Config} {w w' : World} {s : Side} {id : ℕ} {request : Socks5CommandRequest}
  {front rear : List Handler} {past : List Bytes} {data : Bytes} {label : Option Label}
  {h : Handler} {post : List (Option Label×Handler)}

/-- Bytes from the client pass the selected handlers. -/
theorem runs_selected (cfg : Config) (hview : tags w .client=selected request front++(label,h)::post)
    (hidle : ∀ h∈front, Idle h) (hdata : data≠[]) (hh : reacts (.read (.bytes data)) h=true) :
    ∃ id, ∃ k∈w.handlers .client,
      Viewed tag (w.pipe .client) id (selected request front) (label,h) post ∧ dim k=h ∧
      ∀ w', Runs cfg w (body cfg w .client id (.read (.bytes data)) k) w' →
        Runs cfg w [.pipelineFire .client (.read (.bytes data))] w' := by
  rw [selected,List.append_assoc,List.singleton_append] at hview
  obtain ⟨id₀,k₀,-,hv₀,hk₀,hfire⟩ := perform_pipelineFire_viewed cfg (.read (.bytes data)) _ hview
    (unnamed_silent hidle _) rfl
  cases eq_of_dim hk₀ rfl
  obtain ⟨id,k,hmem,hv,hk,hnext⟩ := perform_ctxFire_next cfg (.read (.bytes data)) [] hv₀ (by simp) hh
  refine ⟨id,k,hmem,hv,hk,fun w' hrun => runs_of_call hfire ?_⟩
  change Runs cfg w (fireRest .client id₀ data) w'
  rw [fireRest,if_neg hdata]
  exact runs_of_call hnext hrun

/-- A read is what its `channelRead` does. -/
theorem eq_of_turn_read (hrun : Runs cfg w [.pipelineFire s (.read (.bytes data))] w')
    (hcomplete : ∀ t∈tags w' s, takesEvent .readComplete t=false) {w₁ : World}
    (hturn : (system cfg).Turn w (.read s data) w₁) : w₁=w' := by
  obtain ⟨w₀,stmts,x,hinject,heval⟩ := hturn
  simp only [system,inject] at hinject
  split at hinject
  · cases hinject
    exact eval_unique heval (hrun.cons (runs_pipelineFire_last hcomplete))
  · cases hinject

/-- Nobody waits for the end of a read. -/
theorem Terminated.complete (ht : Terminated request front rear past w) (s : Side) :
    ∀ t∈tags w s, takesEvent .readComplete t=false := by
  cases s with
  | client =>
    rw [ht.client,secured,selected]
    simp only [List.append_assoc]
    intro t hm
    rcases List.mem_append.mp hm with hm|hm
    · exact unnamed_silent ht.frontIdle _ t hm
    · simp only [List.cons_append,List.nil_append,List.mem_cons,List.not_mem_nil,or_false] at hm
      rcases hm with rfl|rfl|rfl|rfl|rfl <;> rfl
  | remote =>
    rcases ht.remote with hr|hr
    · rw [hr]
      intro t hm
      rcases List.mem_cons.mp hm with rfl|hm
      · rfl
      · exact unnamed_silent ht.rearIdle _ t hm
    · rw [hr]
      simp

/-- The read that completes the hello of an intercepted server name. -/
theorem Looking.turn {buffered : Bytes} (h : Looking request front rear buffered w)
    (hengines : Engines cfg) {host : String} {i : HttpInterceptor} (hdata : data≠[])
    (hhello : cfg.clientHello (buffered++data)=some (some host)) (hhost : host≠"")
    (hmatch : cfg.rules.mitmConfig.bind (fun matcher => matcher host)=some i)
    (hgreets : Greets cfg (buffered++data))
    (hturn : (system cfg).Turn w (.read .client data) w') : Terminated request front rear [] w' := by
  obtain ⟨id,k,-,hv,hk,hread⟩ := runs_selected cfg h.client h.frontIdle hdata rfl
  cases eq_of_dim hk rfl
  obtain ⟨w₁,hrun,hterminated⟩ := h.runs_lookup hengines hv hhello hhost hmatch hgreets
  cases eq_of_turn_read (hread w₁ hrun) (hterminated.complete .client) hturn
  exact hterminated

/-- Decrypted chunks from which the decoder emits nothing. -/
def Mute (cfg : Config) : List Bytes → List Bytes → Prop
  | _,[] => True
  | past,chunk::chunks => cfg.httpDecode .client past chunk=[] ∧ Mute cfg (past++[chunk]) chunks

/-- Events before the head of the first request: reads whose decrypted bytes do not
complete a head, flushes, and everything that ends the remote channel. -/
def Undecided (cfg : Config) (w : World) : Event → Prop
  | .read .client data => ∀ history past, .sslHandler history∈w.handlers .client →
      .httpRequestDecoder past∈w.handlers .client →
      (cfg.tls .client history (.fromNetwork data)).failed=false ∧
        Mute cfg past (cfg.tls .client history (.fromNetwork data)).plain
  | .read .remote data => ∀ history, .sslHandler history∈w.handlers .remote →
      (cfg.tls .remote history (.fromNetwork data)).failed=false
  | .flushed _ | .peerClose .remote | .ioException .remote | .writeError .remote
  | .inactive .remote => True
  | _ => False

/-- What carries bytes on a terminated connection. -/
theorem secured_carrier (hidle : ∀ h∈front, Idle h) :
    ∀ t∈secured request front past++[(none,Handler.httpCheckHandler request)], Carrier t := by
  rw [secured,selected]
  simp only [List.append_assoc]
  intro t hm
  rcases List.mem_append.mp hm with hm|hm
  · exact unnamed_carrier hidle t hm
  · simp only [List.cons_append,List.nil_append,List.mem_cons,List.not_mem_nil,or_false] at hm
    rcases hm with rfl|rfl|rfl|rfl|rfl
    · exact carrier_of_plain rfl
    · exact fun _ _ => rfl
    · exact carrier_of_plain rfl
    · exact carrier_of_plain rfl
    · exact carrier_of_plain rfl

/-- What happens below the codecs keeps the connection terminated. -/
theorem Terminated.below {closing : Bool} (ht : Terminated request front rear past w)
    (hb : Below closing s w w') (hc : Calm Unheard w' s) :
    Terminated request front rear past w' := by
  refine ⟨(hb.tags .client).trans ht.client,?_,ht.frontIdle,ht.rearIdle,fun t => ?_⟩
  · rw [hb.tags]
    exact ht.remote
  · by_cases hts : t=s
    · exact hts ▸ hc
    · exact (ht.calm t).of_same (hb.tags t) (hb.other t hts).2.2 (hb.other t hts).2.1

/-- Chunks that do not complete a head stay in the decoder. -/
theorem Terminated.runs_chunks (ht : Terminated request front rear past w) (chunks : List Bytes)
    (hmute : Mute cfg past chunks)
    (hv : Viewed tag (w.pipe .client) id (selected request front)
      (some .downStreamTlshandler,.sslHandler [])
      [(none,.httpInterceptorHandler request),(none,.httpRequestDecoder past),
        (none,.httpCheckHandler request)]) :
    ∃ w', Runs cfg w (chunks.map (fun chunk => fireRead .client id (.bytes chunk))) w' ∧
      Terminated request front rear (past++chunks) w' := by
  induction chunks generalizing w past with
  | nil => exact ⟨w,runs_nil,by simpa using ht⟩
  | cons chunk chunks ih =>
    obtain ⟨hdecode,hmute⟩ := hmute
    obtain ⟨id₁,k,-,hv₁,hk,hnext⟩ := perform_ctxFire_next cfg (.read (.bytes chunk))
      [(none,.httpInterceptorHandler request)] hv (by simp [takesEvent,reacts,readsMessage]) rfl
    cases eq_of_dim hk rfl
    let w₁ := w.updPipe .client (fun p => p.assign id₁ (.httpRequestDecoder (past++[chunk])))
    have hassign : Runs cfg w
        (body cfg w .client id₁ (.read (.bytes chunk)) (.httpRequestDecoder past)) w₁ := by
      change Runs cfg w (httpDecoderRead cfg .client id₁ .httpRequestDecoder past chunk) w₁
      rw [httpDecoderRead,hdecode]
      exact runs_assign
    have hview : Viewed tag (w₁.pipe .client) id (selected request front)
        (some .downStreamTlshandler,.sslHandler [])
        [(none,.httpInterceptorHandler request),(none,.httpRequestDecoder (past++[chunk])),
          (none,.httpCheckHandler request)] := by
      rw [pipe_updPipe_same]
      refine Viewed.assign_behind [(none,Handler.httpInterceptorHandler request)] hv hv₁ (fun c hc => ?_)
      have hlabel : c.label=none := congrArg Prod.fst hc
      exact Prod.ext hlabel rfl
    have hclient : tags w₁ .client=
        secured request front (past++[chunk])++[(none,Handler.httpCheckHandler request)] := by
      rw [tags,hview.view]
      simp [secured]
    have hremote : tags w₁ .remote=tags w .remote := by
      rw [tags,pipe_updPipe_of_ne (by simp)]
    have hterminated : Terminated request front rear (past++[chunk]) w₁ := by
      refine ⟨hclient,hremote ▸ ht.remote,ht.frontIdle,ht.rearIdle,fun s => ?_⟩
      refine ⟨?_,?_,?_⟩
      · cases s with
        | client => exact hclient ▸ secured_carrier ht.frontIdle
        | remote => exact hremote ▸ (ht.calm .remote).carriers
      · rw [show (w₁.chan s).life=(w.chan s).life from updPipe_life]
        exact (ht.calm s).life
      · rw [show (w₁.chan s).queue=(w.chan s).queue from updPipe_queue]
        exact (ht.calm s).queue
    obtain ⟨w',hrun,hresult⟩ := ih hterminated hmute hview
    rw [List.append_assoc,List.singleton_append] at hresult
    exact ⟨w',(runs_of_call hnext hassign).cons hrun,hresult⟩

/-- A read of the client that does not complete a head. -/
theorem Terminated.read_client (ht : Terminated request front rear past w) (hwraps : Wraps cfg)
    (hu : Undecided cfg w (.read .client data))
    (hturn : (system cfg).Turn w (.read .client data) w') :
    ∃ past', Terminated request front rear past' w' := by
  have hview : tags w .client=selected request front++(some Label.downStreamTlshandler,Handler.sslHandler [])::
      [(none,Handler.httpInterceptorHandler request),(none,.httpRequestDecoder past),
        (none,.httpCheckHandler request)] := by
    rw [ht.client,secured]
    simp
  by_cases hdata : data=[]
  · rw [selected,List.append_assoc,List.singleton_append] at hview
    obtain ⟨id₀,k₀,-,hv₀,hk₀,hfire⟩ := perform_pipelineFire_viewed cfg (.read (.bytes data)) _ hview
      (unnamed_silent ht.frontIdle _) rfl
    cases eq_of_dim hk₀ rfl
    have hrun : Runs cfg w [.pipelineFire .client (.read (.bytes data))] w := by
      refine runs_of_call hfire ?_
      change Runs cfg w (fireRest .client id₀ data) w
      rw [fireRest,if_pos hdata]
      exact runs_nil
    cases eq_of_turn_read hrun (ht.complete .client) hturn
    exact ⟨past,ht⟩
  · obtain ⟨id,k,hmem,hv,hk,hread⟩ := runs_selected cfg hview ht.frontIdle hdata rfl
    obtain ⟨history,rfl⟩ := eq_sslHandler hk
    have hdecoder : .httpRequestDecoder past∈w.handlers .client := by
      have htag : (none,.httpRequestDecoder past)∈tags w .client := by simp [hview]
      obtain ⟨c,hc,htag⟩ := List.mem_map.mp htag
      have hhandler : c.handler=.httpRequestDecoder past := eq_of_dim (congrArg Prod.snd htag) rfl
      rw [←hhandler]
      exact List.mem_map_of_mem hc
    obtain ⟨hfailed,hmute⟩ := hu history past hmem hdecoder
    obtain ⟨w₁,hbelow,hcalm,hstep⟩ := runs_engine hwraps hv rfl (ht.calm .client) hfailed
    obtain ⟨w₂,hchunks,hterminated⟩ := (ht.below hbelow hcalm).runs_chunks _ hmute
      ((hbelow.same .client).viewed hv)
    cases eq_of_turn_read (hread w₂ (hstep w₂ hchunks)) (hterminated.complete .client) hturn
    exact ⟨_,hterminated⟩

/-- What the engine of the remote decrypts is read by nobody. -/
theorem runs_discarded (cfg : Config) {pre : List (Option Label×Handler)} {x : Option Label×Handler}
    (hv : Viewed tag (w.pipe s) id pre x post) (hpost : ∀ event, ∀ t∈post, takesEvent event t=false)
    (chunks : List Bytes) :
    Runs cfg w (chunks.map (fun chunk => fireRead s id (.bytes chunk))) w := by
  induction chunks with
  | nil => exact runs_nil
  | cons chunk chunks ih => exact (runs_ctxFire_last hv (hpost _)).cons ih

/-- A read of the remote. -/
theorem Terminated.read_remote (ht : Terminated request front rear past w) (hwraps : Wraps cfg)
    (hu : Undecided cfg w (.read .remote data))
    (hturn : (system cfg).Turn w (.read .remote data) w') :
    Terminated request front rear past w' := by
  rcases ht.remote with hr|hr
  · obtain ⟨id,k,hmem,hv,hk,hfire⟩ := perform_pipelineFire_viewed cfg (.read (.bytes data))
      [] hr (by simp) rfl
    obtain ⟨history,rfl⟩ := eq_sslHandler hk
    obtain ⟨w₁,hbelow,hcalm,hstep⟩ := runs_engine hwraps hv rfl (ht.calm .remote) (hu history hmem)
    have hrest := runs_discarded cfg ((hbelow.same .remote).viewed hv)
      (unnamed_silent ht.rearIdle) (cfg.tls .remote history (.fromNetwork data)).plain
    have hterminated := ht.below hbelow hcalm
    cases eq_of_turn_read (runs_of_call hfire (hstep w₁ hrest)) (hterminated.complete .remote) hturn
    exact hterminated
  · have hnone : ∀ t∈tags w .remote, takesEvent (.read (.bytes data)) t=false := by
      rw [hr]
      simp
    cases eq_of_turn_read (runs_pipelineFire_last hnone) (ht.complete .remote) hturn
    exact ht

/-- Handlers none of whose tags takes an event. -/
theorem silent_handlers {event : Inbound} (hsilent : ∀ t∈tags w s, takesEvent event t=false) :
    ∀ x∈w.handlers s, reacts event x=false := by
  intro x hx
  obtain ⟨c,hc,rfl⟩ := List.mem_map.mp hx
  rw [reacts_tag]
  exact hsilent _ (List.mem_map_of_mem hc)

/-- The remote handlers take nothing but reads and `channelActive`. -/
theorem Terminated.silent_remote (ht : Terminated request front rear past w) {event : Inbound}
    (hssl : reacts event (.sslHandler [])=false) :
    ∀ x∈w.handlers .remote, reacts event x=false := by
  refine silent_handlers ?_
  rcases ht.remote with hr|hr
  · rw [hr]
    intro t hm
    rcases List.mem_cons.mp hm with rfl|hm
    · exact hssl
    · exact unnamed_silent ht.rearIdle _ t hm
  · rw [hr]
    simp

/-- The remote channel is closed from outside. -/
theorem Terminated.ends (ht : Terminated request front rear past w) {event : Event}
    (he : Ends .remote event) (hturn : (system cfg).Turn w event w') :
    Terminated request front rear past w' := by
  obtain ⟨ha,x,heval⟩ := turn_ends he (ht.silent_remote rfl) hturn
  cases eval_unique heval (runs_close_quiet ha (ht.calm .remote).queue)
  have hshut : Below true .remote w (w.upd .remote shut) :=
    below_upd (fun _ => rfl) (fun _ h => by cases h) (by simp)
  refine ht.below hshut ⟨hshut.tags .remote ▸ (ht.calm .remote).carriers,?_,?_⟩
  · rw [chan_upd_same]
    exact .inr rfl
  · rw [chan_upd_same]
    exact fun entry he => by cases he

/-- The end of the remote channel is handled. -/
theorem Terminated.inactive (ht : Terminated request front rear past w)
    (hturn : (system cfg).Turn w (.inactive .remote) w') :
    Terminated request front rear past w' := by
  obtain ⟨-,rfl⟩ := turn_inactive_silent (ht.silent_remote rfl) hturn
  refine ⟨ht.client,.inr rfl,ht.frontIdle,ht.rearIdle,fun s => ?_⟩
  cases s with
  | client =>
    have hcalm := ht.calm .client
    exact ⟨hcalm.carriers,hcalm.life,hcalm.queue⟩
  | remote =>
    have hcalm := ht.calm .remote
    refine ⟨fun t hm => ?_,hcalm.life,hcalm.queue⟩
    cases hm

/-- The socket of a side takes the queued writes. -/
theorem Terminated.flushed (ht : Terminated request front rear past w)
    (hturn : (system cfg).Turn w (.flushed s) w') : Terminated request front rear past w' := by
  cases turn_flushed_quiet (ht.calm s).queue hturn
  have htaken : Below false s w (w.takeQueue s) :=
    below_upd (fun _ => rfl) (fun _ h => h) (fun _ _ => rfl)
  refine ht.below htaken ⟨htaken.tags s ▸ (ht.calm s).carriers,?_,?_⟩
  · rw [World.takeQueue,chan_upd_same]
    exact (ht.calm s).life
  · rw [World.takeQueue,chan_upd_same]
    exact fun entry he => by cases he

/-- Before the head of a request is complete, TLS stays terminated. -/
theorem Terminated.turn (ht : Terminated request front rear past w) (hwraps : Wraps cfg)
    {event : Event} (hu : Undecided cfg w event) (hturn : (system cfg).Turn w event w') :
    ∃ past', Terminated request front rear past' w' := by
  cases event with
  | read s data =>
    cases s with
    | client => exact ht.read_client hwraps hu hturn
    | remote => exact ⟨past,ht.read_remote hwraps hu hturn⟩
  | flushed s => exact ⟨past,ht.flushed hturn⟩
  | peerClose s =>
    cases s with
    | client => exact absurd hu id
    | remote => exact ⟨past,ht.ends (.inl rfl) hturn⟩
  | ioException s =>
    cases s with
    | client => exact absurd hu id
    | remote => exact ⟨past,ht.ends (.inr (.inl rfl)) hturn⟩
  | writeError s =>
    cases s with
    | client => exact absurd hu id
    | remote => exact ⟨past,ht.ends (.inr (.inr rfl)) hturn⟩
  | inactive s =>
    cases s with
    | client => exact absurd hu id
    | remote => exact ⟨past,ht.inactive hturn⟩
  | connected => exact absurd hu id
  | connectFailed => exact absurd hu id

/-- So it does in every run of such events. -/
theorem Terminated.run (ht : Terminated request front rear past w) (hwraps : Wraps cfg)
    {events : List Event} (hrun : (system cfg).RunUnder (Undecided cfg) w events w') :
    ∃ past', Terminated request front rear past' w' := by
  induction hrun with
  | nil => exact ⟨past,ht⟩
  | snoc run meets turn ih =>
    obtain ⟨past',hlast⟩ := ih
    exact hlast.turn hwraps meets turn

end Reads

end ProxyDroid.TlsTermination
