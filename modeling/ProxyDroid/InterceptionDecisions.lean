import ProxyDroid.TlsTermination
import ProxyDroid.TunnelResults

/-!
# The two interception decisions

`SniHandler` decides by the server name whether TLS is terminated, and
`HttpCheckHandler` decides again by the `Host` field of the first decrypted
request which interceptor, if any, gets the messages. Both ask the same matcher,
for names from different sources.
-/

namespace ProxyDroid.InterceptionDecisions

open CallSemantics HandlerPipeline PipelineViews ConnectionTypes ConnectionHandlers
open ConnectionSystem ConnectionRules ConnectionInvariants TunnelPhases InterceptedWrites
open InterceptedMessages InterceptedRuns TlsTermination

/-- An aggregator keeps the head of a request until its body is complete. -/
def Aggregates (cfg : Config) : Prop :=
  ∀ history head, head.decoded=true → cfg.aggregate .client history (.request head)=[]

/-- Whether a handler is an `HttpRequestDecoder`. -/
def isRequestDecoder : Handler → Bool
  | .httpRequestDecoder _ => true
  | _ => false

/-- Whether a tag is that of an `HttpRequestDecoder`. -/
def decodes (t : Option Label×Handler) : Bool := isRequestDecoder t.2

theorem isRequestDecoder_tag (c : Ctx Label Handler) :
    isRequestDecoder c.handler=decodes (tag c) := by
  obtain ⟨id,label,h⟩ := c
  cases h <;> rfl

section Check

variable {cfg : Config} {w w' : World} {id : ℕ} {request : Socks5CommandRequest}
  {front rear : List Handler} {past : List Bytes} {head : HttpRequest} {i : HttpInterceptor}

/-- The HTTP decoder of a terminated connection. -/
theorem decoder_of_terminated (ht : Terminated request front rear past w) :
    ∃ id, (w.pipe .client).firstWhere isRequestDecoder=some id ∧
      Viewed tag (w.pipe .client) id (selected request front++
          [(some Label.downStreamTlshandler,Handler.sslHandler []),(none,.httpInterceptorHandler request)])
        (none,.httpRequestDecoder past) [(none,.httpCheckHandler request)] := by
  have hview : tags w .client=(selected request front++
      [(some Label.downStreamTlshandler,Handler.sslHandler []),(none,.httpInterceptorHandler request)])++
      (none,Handler.httpRequestDecoder past)::[(none,Handler.httpCheckHandler request)] := by
    rw [ht.client,secured]
    simp
  refine firstWhere_viewed isRequestDecoder_tag hview (fun t hm => ?_) rfl
  rw [selected,List.append_assoc] at hm
  rcases List.mem_append.mp hm with hm|hm
  · obtain ⟨h,hh,rfl⟩ := List.mem_map.mp hm
    have hidle := (ht.frontIdle h hh).1 .inactive
    cases h <;> first | rfl | cases hidle
  · simp only [List.cons_append,List.nil_append,List.mem_cons,List.not_mem_nil,or_false] at hm
    rcases hm with rfl|rfl|rfl <;> rfl

/-- Handlers of a terminated connection that stay when it is intercepted. -/
theorem secured_earlier (hidle : ∀ h∈front, Idle h) :
    ∀ t∈secured request front past, Earlier t := by
  rw [secured,selected,List.append_assoc]
  intro t hm
  rcases List.mem_append.mp hm with hm|hm
  · exact unnamed_earlier hidle t hm
  · simp only [List.cons_append,List.nil_append,List.mem_cons,List.not_mem_nil,or_false] at hm
    rcases hm with rfl|rfl|rfl|rfl <;> exact ⟨by simp,by simp⟩

theorem remote_earlier (ht : Terminated request front rear past w) :
    ∀ t∈tags w .remote, Earlier t := by
  rcases ht.remote with hr|hr
  · rw [hr]
    intro t hm
    rcases List.mem_cons.mp hm with rfl|hm
    · exact ⟨by simp,by simp⟩
    · exact unnamed_earlier ht.rearIdle t hm
  · rw [hr]
    simp

/-- Handlers up to the HTTP decoder take no HTTP objects. -/
theorem secured_silent (hidle : ∀ h∈front, Idle h) (object : HttpObject) :
    ∀ t∈secured request front past, takesEvent (.read (.http object)) t=false := by
  rw [secured,selected,List.append_assoc]
  intro t hm
  rcases List.mem_append.mp hm with hm|hm
  · exact unnamed_silent hidle _ t hm
  · simp only [List.cons_append,List.nil_append,List.mem_cons,List.not_mem_nil,or_false] at hm
    rcases hm with rfl|rfl|rfl|rfl <;> rfl

/-- The client pipeline without one of its handlers. -/
def leave (id : ℕ) (w : World) : World := w.updPipe .client (fun p => p.remove id)

section Leave

variable {pre post : List (Option Label×Handler)} {x : Option Label×Handler}

theorem runs_leave (cfg : Config) (hv : Viewed tag (w.pipe .client) id pre x post) :
    Runs cfg w [.remove .client id] (leave id w) := by
  refine runs_of_done ?_
  simp only [perform,hv.has,if_true]
  rfl

theorem tags_leave (hv : Viewed tag (w.pipe .client) id pre x post) :
    tags (leave id w) .client=pre++post := by
  rw [tags,leave,pipe_updPipe_same,view_remove hv]

theorem tags_leave_remote : tags (leave id w) .remote=tags w .remote := by
  rw [tags,leave,pipe_updPipe_of_ne (by simp)]

/-- Removing a client handler keeps a side calm. -/
theorem calm_leave {C : Listener → Prop} {s : Side}
    (hv : Viewed tag (w.pipe .client) id pre x post) (hc : Calm C w s) : Calm C (leave id w) s := by
  refine ⟨fun t ht => hc.carriers t ?_,?_,?_⟩
  · cases s with
    | client =>
      rw [tags_leave hv] at ht
      rw [tags,hv.view]
      rcases List.mem_append.mp ht with ht|ht
      · exact List.mem_append_left _ ht
      · exact List.mem_append_right _ (List.mem_cons_of_mem _ ht)
    | remote => rwa [tags_leave_remote] at ht
  · rw [leave,updPipe_life]
    exact hc.life
  · rw [leave,updPipe_queue]
    exact hc.queue

end Leave

/-- The handlers of the initializer carry bytes. -/
theorem initializer_carrier (i : HttpInterceptor) (s : Side) : ∀ t∈initializerTags i s, Carrier t := by
  refine carriers_of_plain ?_
  cases s <;> simp [initializerTags,clientTags,messageTags,interceptors,remoteTags,takesWrite,
    intercepts]

/-- The initializer of an interceptor, added by the check handler, sets the
connection up for it; the head then waits in the aggregator. -/
theorem runs_intercepted (ht : Terminated request front rear past w)
    (haggregates : Aggregates cfg) (hdecoded : head.decoded=true)
    (hv : Viewed tag (w.pipe .client) id (secured request front past)
      (none,.httpCheckHandler request) []) :
    ∃ w', Runs cfg w [.addInitializer i,.remove .client id,
        .pipelineFire .client (.read (.http (.request head)))] w' ∧
      Wired i (secured request front past) (tags w .remote) false w' := by
  have hfree : ∀ t∈tags w .client, t.1≠some .httpMessageHandler := by
    rw [ht.client]
    intro t hm
    rcases List.mem_append.mp hm with hm|hm
    · exact (secured_earlier ht.frontIdle t hm).name.1
    · rw [List.mem_singleton.mp hm]
      simp
  obtain ⟨w₁,hadd,hext⟩ := runs_addInitializer cfg i hfree
  have hv₁ := hext.viewed hv
  let w₂ := leave id w₁
  have hcalm₂ : ∀ s, Calm Unheard w₂ s := fun s =>
    calm_leave hv₁ (hext.calm (ht.calm s) (initializer_carrier i s))
  have hwired : Wired i (secured request front past) (tags w .remote) false w₂ := by
    refine ⟨tags_leave hv₁,tags_leave_remote.trans (hext.tags .remote),fun t hm => ?_,?_,
      hcalm₂ .remote⟩
    · rcases List.mem_append.mp hm with hm|hm
      · exact secured_earlier ht.frontIdle t hm
      · exact remote_earlier ht t hm
    · exact ⟨(hcalm₂ .client).carriers,(hcalm₂ .client).life,
        fun entry he => .inl (.inl ((hcalm₂ .client).queue entry he))⟩
  have hview : tags w₂ .client=(secured request front past++
      [(none,Handler.httpResponseEncoder []),(none,.httpRequestDecoder [])])++
      (none,Handler.httpObjectAggregator [])::messageTags i false := by
    rw [hwired.client,clientTags]
    simp
  have hsilent : ∀ t∈secured request front past++
      [(none,Handler.httpResponseEncoder []),(none,.httpRequestDecoder [])],
      takesEvent (.read (.http (.request head))) t=false := by
    intro t hm
    rcases List.mem_append.mp hm with hm|hm
    · exact secured_silent ht.frontIdle _ t hm
    · simp only [List.mem_cons,List.not_mem_nil,or_false] at hm
      rcases hm with rfl|rfl <;> rfl
  obtain ⟨id₃,k,-,hv₃,hk,hfire⟩ := perform_pipelineFire_viewed cfg (.read (.http (.request head)))
    _ hview hsilent rfl
  obtain ⟨history,rfl⟩ : ∃ history, k=.httpObjectAggregator history := by
    cases k <;> first | exact ⟨_,rfl⟩ | cases hk
  let w₃ := w₂.updPipe .client
    (fun p => p.assign id₃ (.httpObjectAggregator (history++[.request head])))
  have hbelow : Below false .client w₂ w₃ := below_assign hv₃ rfl
  have hassign : Runs cfg w₂ (body cfg w₂ .client id₃ (.read (.http (.request head)))
      (.httpObjectAggregator history)) w₃ := by
    change Runs cfg w₂ (aggregatorRead cfg .client id₃ history (.request head)) w₃
    rw [aggregatorRead,haggregates history head hdecoded]
    exact runs_assign
  refine ⟨w₃,hadd.cons ((runs_leave cfg hv₁).cons (runs_of_call hfire hassign)),
    hwired.below_client hbelow ?_⟩
  exact hwired.clientCalm.of_same (hbelow.tags .client) updPipe_life updPipe_queue

/-- Handlers of the remote take no HTTP objects. -/
theorem remote_transparent (ht : Terminated request front rear past w) (object : HttpObject) :
    ∀ t∈tags w .remote, takesWrite (.http object) t=false := by
  rcases ht.remote with hr|hr
  · rw [hr]
    intro t hm
    rcases List.mem_cons.mp hm with rfl|hm
    · rfl
    · obtain ⟨h,hh,rfl⟩ := List.mem_map.mp hm
      exact (ht.rearIdle h hh).2 _ (by simp)
  · rw [hr]
    simp

/-- The head of a request on its way through a relay handler, with or without an
encoder behind the relay handler of the remote. -/
theorem runs_head_relayed (hwraps : Wraps cfg) {rs : List (Option Label×Handler)}
    {codecs : List Handler} (hcodecs : codecs=[] ∨ codecs=[.httpRequestEncoder []])
    (hremote : tags w .remote=rs++(none,Handler.relayHandler)::unnamed codecs)
    (hclear : ∀ t∈rs, takesWrite (.http (.request head)) t=false) (hc : Calm Unheard w .remote) :
    ∃ w', Runs cfg w (RelayHandler.channelRead w .client (.http (.request head))) w' ∧
      tags w' .client=tags w .client := by
  rw [RelayHandler.channelRead]
  cases ha : w.isActive Side.client.other with
  | false => exact ⟨w,runs_nil,rfl⟩
  | true =>
    rcases hcodecs with rfl|rfl
    · have hnone : (w.pipe .remote).lastWhere (intercepts (.http (.request head)))=none := by
        refine lastWhere_viewed_none (intercepts_tag _) (fun t hm => ?_)
        rw [←tags,hremote] at hm
        rcases List.mem_append.mp hm with hm|hm
        · exact hclear t hm
        · rw [List.mem_singleton.mp hm]
          rfl
      have hwrite : perform cfg (.write .remote none (.http (.request head)) .none true) w=
          .call w [.notify .remote .none false] drop := by
        simp only [perform,hnone]
        rfl
      exact ⟨w,runs_of_call hwrite (runs_of_call rfl runs_nil),rfl⟩
    · have hview : tags w .remote=(rs++[(none,Handler.relayHandler)])++(none,Handler.httpRequestEncoder [])::[] := by
        rw [hremote,List.append_assoc]
        rfl
      obtain ⟨w',hrun,hbelow,-⟩ := runs_request_encoder hwraps (.http (.request head)) hview
        (by simp) rfl hc
      exact ⟨w',hrun,(hbelow.tags .client).trans tags_note⟩

/-- Without an interceptor the check handler makes the direct follow-up. -/
theorem runs_unintercepted (ht : Terminated request front rear past w) (hwraps : Wraps cfg)
    (head : HttpRequest)
    (hv : Viewed tag (w.pipe .client) id (secured request front past)
      (none,.httpCheckHandler request) [])
    {codecs : List Handler} (hcodecs : codecs=[] ∨ codecs=[.httpRequestEncoder []]) :
    ∃ w', Runs cfg w (DirectAction.doFollowUp++codecs.map (fun h => .addLast .remote none h)++
        [Stmt.remove .client id,.pipelineFire .client (.read (.http (.request head)))]) w' ∧
      tags w' .client=secured request front past++[(none,Handler.relayHandler)] := by
  obtain ⟨w₁,hadd₁,hext₁⟩ := runs_addLast_all cfg .client [.relayHandler] w
  obtain ⟨w₂,hadd₂,hext₂⟩ := runs_addLast_all cfg .remote (.relayHandler::codecs) w₁
  have hext := hext₁.trans hext₂
  have hv₂ := hext.viewed hv
  have hcarrier : ∀ t∈(Handler.relayHandler::codecs).map (fun h => ((none : Option Label),dim h)),
      Carrier t := by
    refine carriers_of_plain ?_
    rcases hcodecs with rfl|rfl <;> simp [dim,takesWrite,intercepts]
  have hremote : tags (leave id w₂) .remote=
      tags w .remote++(none,Handler.relayHandler)::unnamed codecs := by
    rw [tags_leave_remote,hext.tags]
    rcases hcodecs with rfl|rfl <;> rfl
  have hclient : tags (leave id w₂) .client=secured request front past++[(none,Handler.relayHandler)] :=
    tags_leave hv₂
  have hcalm : Calm Unheard (leave id w₂) .remote :=
    calm_leave hv₂ (hext.calm (ht.calm .remote) hcarrier)
  obtain ⟨id₃,k,-,hv₃,hk,hfire⟩ := perform_pipelineFire_viewed cfg (.read (.http (.request head)))
    _ hclient (secured_silent ht.frontIdle _) rfl
  cases eq_of_dim hk rfl
  obtain ⟨w',hrelay,htags⟩ := runs_head_relayed hwraps hcodecs hremote
    (remote_transparent ht (.request head)) hcalm
  refine ⟨w',?_,htags.trans hclient⟩
  exact (hadd₁.append hadd₂).append ((runs_leave cfg hv₂).cons (runs_of_call hfire hrelay))

/-- A connection is intercepted for one interceptor. -/
theorem wired_unique {lead pre rs : List (Option Label×Handler)} {j : HttpInterceptor}
    (h : Wired i lead rs false w) (hview : tags w .client=pre++clientTags j false) : i=j := by
  have htail : clientTags i false=clientTags j false :=
    (List.append_inj' (h.client.symm.trans hview) rfl).2
  simp only [clientTags,messageTags,List.cons_append,List.nil_append,List.cons.injEq,
    Prod.mk.injEq,Handler.httpMessageHandler.injEq] at htail
  exact htail.2.2.2.1.2

/-- Without a message handler a connection is not intercepted. -/
theorem not_wired {lead rs : List (Option Label×Handler)} {called : Bool}
    (hfree : ∀ t∈tags w .client, t.1≠some .httpMessageHandler) : ¬Wired i lead rs called w := by
  intro h
  refine hfree (some .httpMessageHandler,.httpMessageHandler i) ?_ rfl
  rw [h.client]
  simp [clientTags,messageTags]

/-- The check handler sets the connection up for the interceptor of the host it
reads, and for no other. -/
theorem check_decides (ht : Terminated request front rear past w) (hwraps : Wraps cfg)
    (haggregates : Aggregates cfg) (head : HttpRequest)
    (hv : Viewed tag (w.pipe .client) id (selected request front++
        [(some Label.downStreamTlshandler,Handler.sslHandler []),(none,.httpInterceptorHandler request)])
      (none,.httpRequestDecoder past) [(none,.httpCheckHandler request)]) :
    ∃ w', Runs cfg w [fireRead .client id (.http (.request head))] w' ∧
      ∀ i, (∃ lead rs, Wired i lead rs false w') ↔ head.decoded=true ∧
        cfg.rules.mitmConfig.bind (fun matcher =>
          matcher (HttpInterceptorHandler.hostOf request head))=some i := by
  obtain ⟨id₁,hv₁,hnext⟩ := perform_ctxFire_viewed cfg (.read (.http (.request head))) [] hv (by simp)
    rfl rfl
  have hsecured : Viewed tag (w.pipe .client) id₁ (secured request front past)
      (none,.httpCheckHandler request) [] := by
    simpa [secured] using hv₁
  have hnone : ∀ w', tags w' .client=secured request front past++[(none,Handler.relayHandler)] →
      ∀ i, ¬∃ lead rs, Wired i lead rs false w' := by
    rintro w' htags i ⟨lead,rs,hwired⟩
    refine not_wired (fun t hm => ?_) hwired
    rw [htags] at hm
    rcases List.mem_append.mp hm with hm|hm
    · exact (secured_earlier ht.frontIdle t hm).name.1
    · rw [List.mem_singleton.mp hm]
      simp
  have hbody : body cfg w .client id₁ (.read (.http (.request head))) (.httpCheckHandler request)=
      HttpInterceptorHandler.checkRead0 cfg.rules id₁ request head := rfl
  cases hdecoded : head.decoded with
  | false =>
    obtain ⟨w',hrun,htags⟩ := runs_unintercepted ht hwraps head hsecured (.inl rfl)
    refine ⟨w',runs_of_call hnext ?_,fun i => iff_of_false (hnone w' htags i) (by simp)⟩
    rw [hbody,HttpInterceptorHandler.checkRead0,hdecoded]
    exact hrun
  | true =>
    cases hmatch : cfg.rules.mitmConfig.bind (fun matcher =>
        matcher (HttpInterceptorHandler.hostOf request head)) with
    | none =>
      obtain ⟨w',hrun,htags⟩ := runs_unintercepted ht hwraps head hsecured (.inr rfl)
      refine ⟨w',runs_of_call hnext ?_,fun i => iff_of_false (hnone w' htags i) (by simp)⟩
      rw [hbody,HttpInterceptorHandler.checkRead0,hdecoded,if_pos rfl,hmatch]
      exact hrun
    | some j =>
      obtain ⟨w',hrun,hwired⟩ := runs_intercepted ht haggregates hdecoded hsecured (i:=j)
      refine ⟨w',runs_of_call hnext ?_,fun i => ⟨?_,?_⟩⟩
      · rw [hbody,HttpInterceptorHandler.checkRead0,hdecoded,if_pos rfl,hmatch]
        exact hrun
      · rintro ⟨lead,rs,hi⟩
        exact ⟨rfl,congrArg some (wired_unique hi hwired.client).symm⟩
      · rintro ⟨-,hi⟩
        cases hi
        exact ⟨_,_,hwired⟩

/-- The first complete request that follows is processed by an interceptor, whatever responses and
flushes come before it. -/
def Processes (cfg : Config) (i : HttpInterceptor) (w : World) : Prop :=
  ∀ before w₁ full, (messageSystem cfg).Run w before w₁ → requests before=[] →
    w₁.isActive .client=true →
      ∃ w₂, (messageSystem cfg).Turn w₁ (.request full) w₂ ∧
        w₂.log=w₁.log++([Obs.requestRead full,.onRequest (CorrectCRLFHander.correctRequest full)]++
          handed w₁ (i.onRequest (CorrectCRLFHander.correctRequest full)))

/-- On a connection that is set up for an interceptor, this one processes the first request. -/
theorem processes_of_wired {lead rs : List (Option Label×Handler)} (h : Wired i lead rs false w)
    (hwraps : Wraps cfg) : Processes cfg i w := by
  intro before w₁ full hrun hnone hactive
  have hwired : Wired i lead rs false w₁ := by
    have hlater := wired_run h hwraps hrun
    rwa [hnone] at hlater
  obtain ⟨id,hid,-⟩ := client_aggregator hwired
  have hinject : messageInject (.request full) w₁=
      some (w₁,[fireRead .client id (.fullRequest full)]) := by
    simp only [messageInject,emit,hactive,hid,if_true,Option.map_some]
  obtain ⟨w₂,hruns,hsees⟩ := runs_message hwired hwraps hinject
  exact ⟨w₂,⟨_,_,_,hinject,hruns⟩,hsees.log⟩

end Check

section Results

variable {cfg : Config} {w w₀ w₁ : World} {request : Socks5CommandRequest}
  {front rear : List Handler} {buffered data : Bytes} {host : String} {i : HttpInterceptor}
  {events : List Event}

/-- A read completes a client hello whose server name is intercepted by `i`. After
any events before the head of the first decrypted request, the head sets the
connection up for `i` exactly when it is decodable and the matcher gives `i`
for its `Host` field, or for the requested address when there is none. Then the
first complete request goes to `i`. -/
theorem decisions_agree_iff (h : Looking request front rear buffered w₀) (hengines : Engines cfg)
    (haggregates : Aggregates cfg) (hdata : data≠[])
    (hhello : cfg.clientHello (buffered++data)=some (some host)) (hhost : host≠"")
    (hmatch : cfg.rules.mitmConfig.bind (fun matcher => matcher host)=some i)
    (hgreets : Greets cfg (buffered++data))
    (hturn : (system cfg).Turn w₀ (.read .client data) w₁)
    (hrun : (system cfg).RunUnder (Undecided cfg) w₁ events w) (head : HttpRequest) :
    ∃ id w', (w.pipe .client).firstWhere isRequestDecoder=some id ∧
      Runs cfg w [fireRead .client id (.http (.request head))] w' ∧
      ((∃ lead rs, Wired i lead rs false w') ↔ head.decoded=true ∧
        cfg.rules.mitmConfig.bind (fun matcher =>
          matcher (HttpInterceptorHandler.hostOf request head))=some i) ∧
      ((∃ lead rs, Wired i lead rs false w') → Processes cfg i w') := by
  have hterminated := h.turn hengines hdata hhello hhost hmatch hgreets hturn
  obtain ⟨past,hlast⟩ := hterminated.run hengines.wraps hrun
  obtain ⟨id,hfirst,hv⟩ := decoder_of_terminated hlast
  obtain ⟨w',hchecked,hiff⟩ := check_decides hlast hengines.wraps haggregates head hv
  refine ⟨id,w',hfirst,hchecked,hiff i,?_⟩
  rintro ⟨lead,rs,hwired⟩
  exact processes_of_wired hwired hengines.wraps

/-- A matcher for one host. -/
def oneHost (name : String) : Option HttpInterceptor := if name="a" then some keep else none

/-- A request for that host. -/
def namedBytes : Bytes :=
  [0x47,0x45,0x54,0x20,0x2f,0x20,0x48,0x54,0x54,0x50,0x2f,0x31,0x2e,0x31,0x0d,0x0a,
    0x48,0x6f,0x73,0x74,0x3a,0x20,0x61,0x0d,0x0a,0x0d,0x0a]

/-- A request without fields. -/
def hostlessBytes : Bytes :=
  [0x47,0x45,0x54,0x20,0x2f,0x20,0x48,0x54,0x54,0x50,0x2f,0x31,0x2e,0x31,0x0d,0x0a,0x0d,0x0a]

/-- The head of the first one. -/
def namedHead : HttpRequest := ⟨true,"GET / HTTP/1.1",[("Host","a")]⟩

/-- The head of the second one. -/
def hostlessHead : HttpRequest := ⟨true,"GET / HTTP/1.1",[]⟩

/-- The key exchange and the end of the client's handshake. -/
def sampleFinish : Bytes :=
  [0x16,0x03,0x03,0x01,0x06,0x10,0x00,0x01,0x02,0x01,0x00]++List.replicate 256 0x5a++
    [0x14,0x03,0x03,0x00,0x01,0x01,0x16,0x03,0x03,0x00,0x40]++List.replicate 64 0x5a

/-- A record of application data. -/
def sampleRecord (byte : UInt8) : Bytes := [0x17,0x03,0x03,0x00,0x40]++List.replicate 64 byte

/-- The client hello with the server name `a`, two records and the requests they hold. -/
def tlsConfig : Config :=
  { TunnelResults.streamConfig (some oneHost) TunnelResults.namedHello (some "a") (fun _ _ data =>
      if data=namedBytes then [.request namedHead,.content [] true]
      else if data=hostlessBytes then [.request hostlessHead,.content [] true]
      else []) with
    tls := fun s _ input => match s,input with
      | .client,.fromNetwork data =>
        ⟨[],if data=sampleRecord 1 then [namedBytes]
          else if data=sampleRecord 2 then [hostlessBytes] else [],false⟩
      | _,_ => ⟨[],[],false⟩
    aggregate := fun _ history object => completed history object
    httpEncode := fun _ message => match message with
      | .fullRequest request => some (encodeRequest request)
      | .http (.request head) =>
        some (encodeRequest ⟨head.initialLine,head.headers,emptyContent⟩)
      | _ => some [] }

/-- An `SniHandler` that has received the first bytes of the hello. -/
def sampleLooking : World :=
  ((system tlsConfig).execute 60 accepted
    (sampleExchange++[.read .client (TunnelResults.namedHello.take 10)])).getD accepted

/-- State after the hello. -/
def sampleSecured : World :=
  ((system tlsConfig).execute 60 sampleLooking
    [.read .client (TunnelResults.namedHello.drop 10)]).getD accepted

/-- State after the handshake. -/
def sampleFinished : World :=
  ((system tlsConfig).execute 60 sampleSecured [.read .client sampleFinish]).getD accepted

/-- The `SniHandler` waits for the end of the hello. -/
theorem looking_sample : Looking sampleRequest CommandReply.socksCodecs []
    (TunnelResults.namedHello.take 10) sampleLooking := by
  refine ⟨rfl,rfl,CommandReply.socksCodecs_idle,by simp,fun s => ⟨?_,?_,?_⟩⟩
  · cases s with
    | client =>
      refine carriers_of_plain (fun t hm => ?_)
      have hmem : t∈selected sampleRequest CommandReply.socksCodecs++
        [(none,.sniHandler sampleRequest (TunnelResults.namedHello.take 10))] := hm
      simp only [selected,unnamed,CommandReply.socksCodecs,List.map_cons,List.map_nil,
        List.cons_append,List.nil_append,List.mem_cons,List.not_mem_nil,or_false] at hmem
      rcases hmem with rfl|rfl|rfl|rfl|rfl|rfl <;> rfl
    | remote =>
      intro t hm
      cases hm
  · cases s <;> exact .inl rfl
  · intro entry he
    cases s <;> cases he

/-- A request for the host of the hello is intercepted by its interceptor. -/
theorem same_host_agrees :
    ∃ id w', (sampleFinished.pipe .client).firstWhere isRequestDecoder=some id ∧
      Runs tlsConfig sampleFinished [fireRead .client id (.http (.request namedHead))] w' ∧
      (∃ lead rs, Wired keep lead rs false w') ∧ Processes tlsConfig keep w' := by
  have hhello : (system tlsConfig).Run sampleLooking
      ([]++[.read .client (TunnelResults.namedHello.drop 10)]) sampleSecured :=
    System.execute_run accepted rfl
  obtain ⟨w,hnil,-,hturn⟩ := hhello.last
  cases hnil.eq_of_nil
  have hengines : Engines tlsConfig := by
    refine ⟨fun s _ _ => ?_,fun s _ => ?_⟩ <;> cases s <;> exact ⟨rfl,rfl⟩
  -- the rest of the handshake decrypts to nothing
  have hfinish : (system tlsConfig).RunUnder (Undecided tlsConfig) sampleSecured
      ([]++[.read .client sampleFinish]) sampleFinished := by
    have hrun : (system tlsConfig).Run sampleSecured ([]++[.read .client sampleFinish])
        sampleFinished := System.execute_run accepted rfl
    obtain ⟨w,hnil,-,hturn⟩ := hrun.last
    cases hnil.eq_of_nil
    exact .snoc .nil (fun _ _ _ _ => ⟨rfl,trivial⟩) hturn
  obtain ⟨id,w',hfirst,hchecked,hiff,hprocesses⟩ := decisions_agree_iff looking_sample hengines
    (fun history head _ => completed_request history head) (by decide) rfl (by decide) rfl
    (fun _ => ⟨rfl,rfl⟩) hturn hfinish namedHead
  have hhost : HttpInterceptorHandler.hostOf sampleRequest namedHead="a" := by decide +kernel
  have hwired := hiff.mpr ⟨rfl,by rw [hhost]; rfl⟩
  exact ⟨id,w',hfirst,hchecked,hwired,hprocesses hwired⟩

/-- The SOCKS exchange, the client's handshake and a record with a request without `Host`. -/
def sampleHostless : List Event :=
  sampleExchange++[.read .client TunnelResults.namedHello,.read .client sampleFinish,
    .read .client (sampleRecord 2)]

/-- State after these events. -/
def sampleSkipped : World :=
  ((system tlsConfig).execute 60 accepted sampleHostless).getD accepted

/-- The server name is intercepted and TLS is terminated, but no interceptor gets
the request, which is forwarded as it is. -/
theorem hostless_request_skips_interception :
    (system tlsConfig).Run accepted sampleHostless sampleSkipped ∧
      tlsConfig.clientHello TunnelResults.namedHello=some (some "a") ∧
      oneHost "a"=some keep ∧
      (sampleSkipped.pipe .client).hasLabel .downStreamTlshandler=true ∧
      .encoded .remote (.http (.request hostlessHead))∈sampleSkipped.log ∧
      ∀ i lead rs called, ¬Wired i lead rs called sampleSkipped := by
  have hfree : (sampleSkipped.pipe .client).hasLabel .httpMessageHandler=false := by decide
  refine ⟨System.execute_run accepted (by decide),rfl,rfl,by decide,by decide,fun i lead rs called h => ?_⟩
  have hview : tags sampleSkipped .client=(lead++[(none,Handler.httpResponseEncoder []),
      (none,.httpRequestDecoder []),(none,.httpObjectAggregator [])])++
      (some Label.httpMessageHandler,Handler.httpMessageHandler i)::
        (interceptors i called++[(none,Handler.relayHandler)]) := by
    rw [h.client,clientTags,messageTags,List.append_assoc]
  rw [hasLabel_of_view hview] at hfree
  cases hfree

end Results

end ProxyDroid.InterceptionDecisions
