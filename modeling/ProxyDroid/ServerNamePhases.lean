import ProxyDroid.TunnelPhases

/-!
# Phases of a TLS stream

With interception on, TLS streams meet an `SniHandler`. A named host that is
not intercepted gets the direct follow-up. Without a server name the lookup
throws at every read, and each time the handler's own `exceptionCaught` adds
an interceptor whose `channelActive` is passed on to all others.
-/

namespace ProxyDroid.ServerNamePhases

open CallSemantics HandlerPipeline ConnectionTypes ConnectionHandlers ConnectionSystem
open ConnectionRules TunnelPhases

variable {cfg : Config} {w : World} {front rear cs rs : List Handler} {id : ℕ}
  {request : Socks5CommandRequest} {data : Bytes}

/-- While the host is not known, or is empty, the bytes are buffered. -/
theorem sni_waits {h : Handler} {buffered : Bytes}
    (ht : Tunnel w front rear (h::.sniHandler request buffered::cs) rs)
    (hl : (w.pipe .client).Located id (front++[h]) (.sniHandler request buffered) cs)
    (hc : cfg.clientHello (buffered++data)=none ∨ cfg.clientHello (buffered++data)=some (some "")) :
    ∃ w', Takes cfg w .client id (.read (.bytes data)) (.sniHandler request buffered) w' ∧
      Tunnel w' front rear (h::.sniHandler request (buffered++data)::cs) rs ∧
      Leads w w' [] [] [] := by
  have hbody : body cfg w .client id (.read (.bytes data)) (.sniHandler request buffered)=
      [.assign .client id (.sniHandler request (buffered++data))] := by
    change SniHandler.channelRead cfg id request buffered data=_
    rcases hc with hc|hc <;> simp [SniHandler.channelRead,SniHandler.onLookupComplete,hc]
  refine ⟨_,takes_of_runs (hbody ▸ runs_assign),ht.on_client ?_,leads_updPipe⟩
  simpa using (hl.assign _).handlers

/-- A named host that is not intercepted gets the direct follow-up, and the
buffered bytes go to the remote. -/
theorem sni_direct {buffered : Bytes} {host : String} {h : Handler}
    (ht : Tunnel w front rear [h,.sniHandler request buffered] [])
    (hl : (w.pipe .client).Located id (front++[h]) (.sniHandler request buffered) [])
    (hsilent : reacts .active h=false)
    (hc : cfg.clientHello (buffered++data)=some (some host)) (hn : host≠"")
    (hm : cfg.rules.mitmConfig.bind (fun matcher => matcher host)=none) :
    ∃ w', Takes cfg w .client id (.read (.bytes data)) (.sniHandler request buffered) w' ∧
      Tunnel w' front rear [h,.relayHandler] [.relayHandler] ∧
      Leads w w' [] [.bytes (buffered++data)] [] := by
  let assigned := w.updPipe .client
    (fun p => p.assign id (.sniHandler request (buffered++data)))
  have hla : (assigned.pipe .client).Located id (front++[h])
      (.sniHandler request (buffered++data)) [] := by
    simpa [assigned] using hl.assign _
  have hassigned : Tunnel assigned front rear [h,.sniHandler request (buffered++data)] [] :=
    ht.on_client (by simpa [assigned] using hla.handlers)
  have hfollow := hassigned.follow_up
  have hlf : ((followedUp assigned).pipe .client).Located id (front++[h])
      (.sniHandler request (buffered++data)) [.relayHandler] := by
    simpa [followedUp] using hla.insertAt_length none .relayHandler
  let removed := (followedUp assigned).updPipe .client (fun p => p.remove id)
  have hremoved : Tunnel removed front rear [h,.relayHandler] [.relayHandler] :=
    hfollow.on_client (by simpa using hlf.handlers_remove)
  have hclear : ∀ x∈removed.handlers .remote, intercepts (.bytes (buffered++data)) x=false := by
    rw [hremoved.remote]
    exact transparent_append hremoved.rearIdle (by simp) (by simp [intercepts])
  obtain ⟨id',hn',hl'⟩ := hlf.nextWhere_remove (q:=reacts (.read (.bytes (buffered++data)))) rfl
  have hfire : perform cfg (.ctxFire .client id (.read (.bytes (buffered++data)))) removed=
      .call removed (body cfg removed .client id' (.read (.bytes (buffered++data))) .relayHandler)
        (rescueOf .client id' (.read (.bytes (buffered++data)))) := by
    change deliver cfg removed .client _ ((removed.pipe .client).nextWhere id _)=_
    have hnext : (removed.pipe .client).nextWhere id
        (reacts (.read (.bytes (buffered++data))))=some id' := by
      simpa [removed] using hn'
    rw [hnext]
    exact deliver_located (by simpa [removed] using hl')
  have hbody : body cfg w .client id (.read (.bytes data)) (.sniHandler request buffered)=
      .assign .client id (.sniHandler request (buffered++data))::(DirectAction.doFollowUp++
        [Stmt.remove .client id,.pipelineFire .client .active,.pipelineFire .remote .active,
          fireRead .client id (.bytes (buffered++data))]) := by
    change SniHandler.channelRead cfg id request buffered data=_
    simp [SniHandler.channelRead,SniHandler.onLookupComplete,hc,hn,hm,DirectAction.doFollowUp]
  have hclient : Runs cfg removed [.pipelineFire .client .active] removed := by
    refine runs_active_relay .client (front++[h]) ?_ (silent_append ht.frontIdle ?_)
    · simpa using hremoved.client
    · simpa using hsilent
  have hremote : Runs cfg removed [.pipelineFire .remote .active] removed :=
    runs_active_relay .remote rear hremoved.remote (fun x hx => (ht.rearIdle x hx).1 _)
  have hrelay := runs_of_call hfire
    (runs_relay_bytes hremoved.remoteActive hremoved.remoteQuiet hclear)
  refine ⟨accept cfg removed .remote (.bytes (buffered++data)),takes_of_runs (hbody ▸ ?_),
    hremoved.accept_write _ _,?_⟩
  · exact runs_assign.cons (runs_doFollowUp.append
      ((runs_remove hlf).cons (hclient.cons (hremote.cons hrelay))))
  · constructor <;> simp [removed,assigned,followedUp]

/-- Whether a handler is an `HttpInterceptorHandler`. -/
def isInterceptor : Handler → Bool
  | .httpInterceptorHandler _ => true
  | _ => false

/-- Idle handlers are not interceptors. -/
theorem isInterceptor_of_idle {h : Handler} (hi : Idle h) : isInterceptor h=false := by
  cases h <;> first | rfl | exact absurd (hi.1 .active) (by simp [reacts])

/-- The handlers that pile up behind an `SniHandler` that keeps failing. -/
def Spare (request : Socks5CommandRequest) (h : Handler) : Prop :=
  h=.httpInterceptorHandler request ∨ h=.httpRequestDecoder [] ∨ h=.httpCheckHandler request

/-- Among spare handlers only interceptors take `channelActive`. -/
theorem Spare.reacts_active {h : Handler} (hs : Spare request h) :
    reacts .active h=isInterceptor h := by
  rcases hs with rfl|rfl|rfl <;> rfl

/-- The first interceptor among spare handlers. -/
theorem exists_first_interceptor {hs : List Handler} (hspare : ∀ h∈hs, Spare request h)
    (hpos : 0<hs.countP isInterceptor) :
    ∃ mid rest, hs=mid++Handler.httpInterceptorHandler request::rest ∧
      (∀ h∈mid, reacts .active h=false) ∧ hs.countP isInterceptor=rest.countP isInterceptor+1 := by
  have hsome : (hs.find? isInterceptor).isSome=true :=
    List.find?_isSome.mpr (List.countP_pos_iff.mp hpos)
  obtain ⟨y,hy⟩ := Option.isSome_iff_exists.mp hsome
  obtain ⟨hq,mid,rest,rfl,hmid⟩ := List.find?_eq_some_iff_append.mp hy
  obtain rfl : y=.httpInterceptorHandler request := by
    rcases hspare y (by simp) with rfl|rfl|rfl
    · rfl
    · cases hq
    · cases hq
  have hnone : ∀ h∈mid, isInterceptor h=false := by simpa using hmid
  refine ⟨mid,rest,rfl,fun h hm => ?_,?_⟩
  · rw [(hspare h (by simp [hm])).reacts_active,hnone h hm]
  · rw [List.countP_append,List.countP_eq_zero.mpr (by simpa using hnone),List.countP_cons]
    simp only [isInterceptor,if_true]
    omega

/-- What an interceptor adds to the client pipeline. -/
def withCheck (request : Socks5CommandRequest) (p : Pipeline Label Handler) :
    Pipeline Label Handler :=
  (p.addLast (.httpRequestDecoder [])).addLast (.httpCheckHandler request)

theorem withCheck_handlers (p : Pipeline Label Handler) : (withCheck request p).handlers=
    p.handlers++[Handler.httpRequestDecoder [],.httpCheckHandler request] := by
  simp [withCheck,Pipeline.addLast]

/-- The additions keep every position. -/
theorem located_withCheck {p : Pipeline Label Handler} {pre post : List Handler} {h : Handler}
    (hl : p.Located id pre h post) : (withCheck request p).Located id pre h
      (post++[Handler.httpRequestDecoder [],.httpCheckHandler request]) := by
  have hadd := (hl.insertAt_length none (.httpRequestDecoder [])).insertAt_length none
    (.httpCheckHandler request)
  rw [List.append_assoc] at hadd
  exact hadd

theorem runs_withCheck : Runs cfg w [.addLast .client none (.httpRequestDecoder []),
    .addLast .client none (.httpCheckHandler request)] (w.updPipe .client (withCheck request)) := by
  have hboth : Runs cfg w [.addLast .client none (.httpRequestDecoder []),
      .addLast .client none (.httpCheckHandler request)] _ := runs_addLast.cons runs_addLast
  rwa [updPipe_updPipe] at hboth

/-- `channelActive` of an interceptor runs through all interceptors behind
it, and each of them adds a decoder and a check handler. -/
theorem runs_interceptors_active (cfg : Config) {pre post : List Handler} (n : ℕ)
    (hl : (w.pipe .client).Located id pre (.httpInterceptorHandler request) post)
    (hs : ∀ h∈post, Spare request h) (hn : post.countP isInterceptor=n) :
    ∃ g extra, Runs cfg w (body cfg w .client id .active (.httpInterceptorHandler request))
        (w.updPipe .client g) ∧
      (g (w.pipe .client)).handlers=w.handlers .client++extra ∧
      ∀ h∈extra, Spare request h ∧ isInterceptor h=false := by
  have hspare : ∀ h∈[.httpRequestDecoder [],.httpCheckHandler request],
      Spare request h ∧ isInterceptor h=false := by
    intro h hm
    simp only [List.mem_cons,List.not_mem_nil,or_false] at hm
    rcases hm with rfl|rfl
    · exact ⟨.inr (.inl rfl),rfl⟩
    · exact ⟨.inr (.inr rfl),rfl⟩
  induction n generalizing w id pre post with
  | zero =>
    have hpost : ∀ h∈post, isInterceptor h=false := by
      simpa using List.countP_eq_zero.mp hn
    have hsilent : ∀ h∈post++[Handler.httpRequestDecoder [],.httpCheckHandler request],
        reacts .active h=false := by
      intro h hm
      rcases List.mem_append.mp hm with hm|hm
      · rw [(hs h hm).reacts_active,hpost h hm]
      · rw [(hspare h hm).1.reacts_active,(hspare h hm).2]
    have hlast : Runs cfg (w.updPipe .client (withCheck request)) [.ctxFire .client id .active] _ :=
      runs_ctxFire_none (by simpa using located_withCheck hl) hsilent
    exact ⟨withCheck request,_,runs_withCheck.append hlast,withCheck_handlers _,hspare⟩
  | succ n ih =>
    obtain ⟨mid,rest,rfl,hmid,hcount⟩ := exists_first_interceptor hs (by omega)
    have hlw : ((w.updPipe .client (withCheck request)).pipe .client).Located id pre
        (.httpInterceptorHandler request) (mid++Handler.httpInterceptorHandler request::
          (rest++[Handler.httpRequestDecoder [],.httpCheckHandler request])) := by
      simpa using located_withCheck hl
    obtain ⟨id',hl',hfire⟩ := perform_ctxFire cfg .active mid hlw hmid rfl
    have hrest : ∀ h∈rest++[Handler.httpRequestDecoder [],.httpCheckHandler request],
        Spare request h := by
      intro h hm
      rcases List.mem_append.mp hm with hm|hm
      · exact hs h (by simp [hm])
      · exact (hspare h hm).1
    obtain ⟨g,extra,hrun,hg,hextra⟩ := ih hl' hrest (by simp [isInterceptor]; omega)
    refine ⟨fun p => g (withCheck request p),
      [Handler.httpRequestDecoder [],.httpCheckHandler request]++extra,?_,?_,?_⟩
    · rw [←updPipe_updPipe]
      exact runs_withCheck.append (runs_of_call hfire hrun)
    · have hall : (g (withCheck request (w.pipe .client))).handlers=
          (withCheck request (w.pipe .client)).handlers++extra := by simpa using hg
      rw [hall,withCheck_handlers,List.append_assoc]
      rfl
    · intro h hm
      rcases List.mem_append.mp hm with hm|hm
      · exact hspare h hm
      · exact hextra h hm

/-- Without a server name the lookup throws; the handler keeps its bytes and
adds one more interceptor. -/
theorem sni_nameless {buffered : Bytes} {h : Handler}
    (ht : Tunnel w front rear (h::.sniHandler request buffered::cs) [])
    (hl : (w.pipe .client).Located id (front++[h]) (.sniHandler request buffered) cs)
    (hsilent : reacts .active h=false) (hs : ∀ x∈cs, Spare request x)
    (hc : cfg.clientHello (buffered++data)=some none) :
    ∃ w' cs', Takes cfg w .client id (.read (.bytes data)) (.sniHandler request buffered) w' ∧
      Tunnel w' front rear (h::.sniHandler request (buffered++data)::cs') [] ∧
      Leads w w' [] [] [] ∧ (∀ x∈cs', Spare request x) ∧
      cs'.countP isInterceptor=cs.countP isInterceptor+1 := by
  let assigned := w.updPipe .client
    (fun p => p.assign id (.sniHandler request (buffered++data)))
  have hla : (assigned.pipe .client).Located id (front++[h])
      (.sniHandler request (buffered++data)) cs := by
    simpa [assigned] using hl.assign _
  have hassigned : Tunnel assigned front rear (h::.sniHandler request (buffered++data)::cs) [] :=
    ht.on_client (by simpa [assigned] using hla.handlers)
  let added := assigned.updPipe .client
    (fun p => p.insertAt p.contexts.length none (.httpInterceptorHandler request))
  have hadded : Tunnel added front rear (h::.sniHandler request (buffered++data)::
      (cs++[Handler.httpInterceptorHandler request])) [] :=
    hassigned.on_client (by simp [hassigned.client])
  have hspare : ∀ x∈cs++[Handler.httpInterceptorHandler request], Spare request x := by
    intro x hx
    rcases List.mem_append.mp hx with hx|hx
    · exact hs x hx
    · exact .inl (List.mem_singleton.mp hx)
  obtain ⟨mid,rest,hsplit,hmid,hcount⟩ := exists_first_interceptor hspare
    (by simp [isInterceptor])
  have hhandlers : added.handlers .client=
      (front++h::.sniHandler request (buffered++data)::mid)++
        Handler.httpInterceptorHandler request::rest := by
    rw [hadded.client,hsplit]
    simp
  obtain ⟨id',hl',hfire⟩ := perform_pipelineFire cfg .active hhandlers
    (silent_append ht.frontIdle (by
      intro x hx
      simp only [List.mem_cons] at hx
      rcases hx with rfl|rfl|hx
      · exact hsilent
      · rfl
      · exact hmid x hx)) rfl
  obtain ⟨g,extra,hrun,hg,hextra⟩ := runs_interceptors_active cfg _ hl'
    (fun x hx => hspare x (by rw [hsplit]; simp [hx])) rfl
  have hfinal : Tunnel (added.updPipe .client g) front rear (h::.sniHandler request (buffered++data)::
      (cs++[Handler.httpInterceptorHandler request]++extra)) [] :=
    hadded.on_client (by rw [hg,hadded.client]; simp)
  have hthrow : Eval (perform cfg) w (body cfg w .client id (.read (.bytes data))
      (.sniHandler request buffered)) assigned (some .illegalArgument) := by
    change Eval _ _ (SniHandler.channelRead cfg id request buffered data) _ _
    rw [SniHandler.channelRead,hc]
    exact .done rfl (.throw rfl)
  have hremote : Runs cfg (added.updPipe .client g) [.pipelineFire .remote .active] _ :=
    runs_pipelineFire_none (by
      rw [hfinal.remote]
      exact silent_append ht.rearIdle (by simp))
  have hcaught : Runs cfg assigned [.invoke .client id (.exceptionCaught .illegalArgument)]
      (added.updPipe .client g) :=
    runs_of_call (perform_invoke hla rfl) (runs_addLast.cons ((runs_of_call hfire hrun).cons hremote))
  refine ⟨_,_,takes_of_throw hthrow (by simp) hcaught,hfinal,?_,?_,?_⟩
  · constructor <;> simp [added,assigned]
  · intro x hx
    rcases List.mem_append.mp hx with hx|hx
    · exact hspare x hx
    · exact (hextra x hx).1
  · have hnone : extra.countP isInterceptor=0 :=
      List.countP_eq_zero.mpr (fun x hx => by simp [(hextra x hx).2])
    rw [List.countP_append,hnone]
    simp [isInterceptor]

end ProxyDroid.ServerNamePhases
