import ProxyDroid.ConnectionInvariants

/-!
# Names of handlers

Handlers are added under an explicit name only after the protocol of the
client has been selected. The contract of a statement says that it adds no
name before, and follows from the contracts of the statements it calls.
-/

namespace ProxyDroid.ConnectionNames

open CallSemantics HandlerPipeline ConnectionTypes ConnectionHandlers ConnectionSystem
open ConnectionRules ConnectionInvariants

/-- Handlers that add others under a name, or add such handlers. -/
def givesNames : Handler → Bool
  | .sniHandler _ _ => true
  | .httpInterceptorHandler _ => true
  | .httpCheckHandler _ => true
  | .httpMessageHandler _ => true
  | _ => false

/-- A protocol has been selected. -/
def Selected (w : World) : Prop := ∃ isTls, .selected isTls∈w.log

/-- No handler has a name or can give one. -/
def Nameless (w : World) : Prop :=
  ∀ s, ∀ c∈(w.pipe s).contexts, c.label=none ∧ givesNames c.handler=false

/-- Names wait for the selection. -/
def Early (w : World) : Prop := Selected w ∨ Nameless w

/-- Statements that give no name. -/
def Plain : Stmt → Prop
  | .addLast _ label h => label=none ∧ givesNames h=false
  | .addFirst _ label h => label=none ∧ givesNames h=false
  | .addAfterCtx _ _ h => givesNames h=false
  | .assign _ _ h => givesNames h=false
  | .addAfter _ _ _ _ => False
  | .addBefore _ _ _ _ => False
  | .replace _ _ _ _ => False
  | .addInitializer _ => False
  | _ => True

/-- The contract of a statement. -/
structure Contract (stmt : Stmt) (w w' : World) (x : Option Throwable) : Prop where
  /-- It forgets nothing. -/
  logged : Logged w w'
  /-- The selection is recorded. -/
  selected : ∀ isTls, stmt=.noteSelected isTls → Selected w'
  /-- It gives no name too early. -/
  early : Plain stmt → Early w → Early w'

section Bodies

variable {cfg : Config} {w : World} {s : Side} {id : ℕ} {h : Handler}

/-- A body of one statement. -/
theorem plain_single {stmt : Stmt} (h : Plain stmt) : ∀ x∈[stmt], Plain x :=
  List.forall_mem_singleton.mpr h

theorem plain_fireRest (rest : Bytes) : ∀ stmt∈fireRest s id rest, Plain stmt := by
  unfold fireRest
  split <;> simp [Plain]

theorem plain_decodeOnce {α : Type} {wrap : DecoderState → Handler} {emit : Option α → List Stmt}
    {parse : Bytes → Parse α} {state : DecoderState} {data : Bytes}
    (hwrap : ∀ state, givesNames (wrap state)=false)
    (hemit : ∀ result, ∀ stmt∈emit result, Plain stmt) :
    ∀ stmt∈decodeOnce s id wrap emit parse state data, Plain stmt := by
  unfold decodeOnce
  split
  · exact plain_fireRest data
  · simp
  · split
    · simp [Plain,hwrap]
    · simp only [List.cons_append,List.forall_mem_cons,List.forall_mem_append]
      exact ⟨hwrap _,hemit _,plain_fireRest _⟩
    · simp only [List.forall_mem_cons]
      exact ⟨hwrap _,hemit _⟩

theorem plain_tls {history : List TlsInput} {input : TlsInput} {listener : Listener}
    {flush : Bool} : ∀ stmt∈SslHandler.step cfg s id history input listener flush, Plain stmt := by
  simp only [SslHandler.step,List.forall_mem_append,List.forall_mem_map,List.forall_mem_cons]
  refine ⟨⟨⟨rfl,trivial,by simp⟩,fun _ _ => trivial⟩,?_⟩
  split <;> simp [Plain]

/-- What the server side of the SOCKS exchange reads. -/
theorem plain_socksServer (id : ℕ) (message : SocksMessage) :
    ∀ stmt∈SocksServerHandler.channelRead0 id message, Plain stmt := by
  cases message with
  | socks4CommandRequest connect =>
    cases connect <;>
      simp [SocksServerHandler.channelRead0,SocksServerHandler.handOver,Plain,givesNames]
  | commandRequest request =>
    simp only [SocksServerHandler.channelRead0]
    split <;> simp [SocksServerHandler.handOver,Plain,givesNames]
  | _ => simp [SocksServerHandler.channelRead0,Plain,givesNames]

/-- Reads of a handler that can give no name, unless it selects the protocol. -/
theorem plain_read (message : Msg) (hn : givesNames h=false)
    (hs : ∀ request state, h≠.protocolSelectHandler request state) :
    ∀ stmt∈channelRead cfg w s id message h, Plain stmt := by
  have hpass : ∀ stmt∈[fireRead s id message], Plain stmt := plain_single trivial
  cases h with
  | sniHandler | httpInterceptorHandler | httpCheckHandler | httpMessageHandler => cases hn
  | protocolSelectHandler request state => exact absurd rfl (hs request state)
  | socksPortUnificationServerHandler =>
    cases message with
    | bytes data =>
      simp only [channelRead,SocksPortUnificationServerHandler.channelRead]
      split
      · simp
      · split
        · simp [Plain,givesNames]
        · split <;> simp [Plain,givesNames]
    | _ => exact hpass
  | socksServerHandler =>
    cases message with
    | socks request => exact plain_socksServer id request
    | _ => exact hpass
  | upstreamMatchHandler =>
    cases message with
    | socks request =>
      cases request <;> simp [channelRead,UpstreamMatchHandler.channelRead0,Plain,givesNames]
    | _ => exact hpass
  | socks5InitialResponseHandler userName passwd request =>
    simp only [channelRead]
    split
    · unfold SocksClientInitializer.initialResponseRead0
      split
      · split
        · simp [Plain]
        · split
          · cases hfits : passwordAuthRequestFits userName passwd <;> simp [Plain,givesNames]
          · simp [Plain]
      · simp [Plain]
    · exact hpass
  | socks5PasswordAuthResponseHandler request =>
    simp only [channelRead]
    split
    · unfold SocksClientInitializer.passwordAuthResponseRead0
      split <;> simp [Plain]
    · exact hpass
  | socksCommandResponseHandler =>
    simp only [channelRead]
    split
    · unfold SocksClientInitializer.commandResponseRead0
      split <;> simp [Plain]
    · exact hpass
  | sslHandler history =>
    cases message with
    | bytes data => exact plain_tls
    | _ => exact hpass
  | httpRequestDecoder history | httpResponseDecoder history =>
    cases message with
    | bytes data =>
      simp only [channelRead,httpDecoderRead,List.forall_mem_cons,List.forall_mem_map]
      exact ⟨rfl,fun _ _ => trivial⟩
    | _ => exact hpass
  | httpObjectAggregator history =>
    cases message with
    | http object =>
      simp only [channelRead,aggregatorRead,List.forall_mem_cons,List.forall_mem_map]
      exact ⟨rfl,fun _ _ => trivial⟩
    | _ => exact hpass
  | mitmHandler httpInterceptor =>
    cases message with
    | fullRequest request => simp [channelRead,MitmHandler.channelRead,Plain]
    | _ => exact plain_single trivial
  | correctCRLFHander => cases message <;> exact plain_single trivial
  | relayHandler =>
    simp only [channelRead,RelayHandler.channelRead]
    split <;> simp [Plain]
  | socks4ServerDecoder | socks5InitialRequestDecoder | socks5CommandRequestDecoder
    | socks5InitialResponseDecoder | socks5PasswordAuthResponseDecoder
    | socks5CommandResponseDecoder =>
    cases message with
    | bytes data =>
      simp only [channelRead,socksDecoderRead]
      exact plain_decodeOnce (fun _ => rfl) (fun _ => by simp [Plain])
    | _ => exact hpass
  | _ =>
    cases message with
    | bytes data =>
      intro stmt hm
      cases hm
    | _ => exact hpass

/-- The same for every inbound event. -/
theorem plain_body {event : Inbound} (hn : givesNames h=false)
    (hs : ∀ request state, h≠.protocolSelectHandler request state) :
    ∀ stmt∈body cfg w s id event h, Plain stmt := by
  cases event with
  | read message => exact plain_read message hn hs
  | registered => exact plain_single trivial
  | readComplete => cases h <;> exact plain_single trivial
  | active =>
    cases h with
    | upstreamHandler proxy request =>
      cases proxy <;> exact plain_single trivial
    | connectHandler proxy request =>
      cases proxy <;> simp [body,channelActive,ConnectHandler.channelActive,
        ConnectHandler.plainChannelActive,ConnectHandler.socks5ChannelActive,Plain,givesNames]
    | socksClientInitializer =>
      simp [body,channelActive,SocksClientInitializer.channelActive,Plain,givesNames]
    | sslHandler history =>
      simp only [body,channelActive,List.forall_mem_append]
      exact ⟨plain_tls,by simp [Plain]⟩
    | httpInterceptorHandler => cases hn
    | relayHandler =>
      intro stmt hm
      cases hm
    | _ => exact plain_single trivial
  | inactive =>
    cases h with
    | httpRequestDecoder history | httpResponseDecoder history =>
      simp only [body,channelInactive,httpDecoderInactive,List.forall_mem_append,List.forall_mem_map]
      exact ⟨fun _ _ => trivial,plain_single trivial⟩
    | relayHandler =>
      simp only [body,channelInactive,RelayHandler.channelInactive]
      split <;> simp [Plain]
    | _ => exact plain_single trivial
  | exceptionCaught cause =>
    cases h with
    | sniHandler => cases hn
    | socksClientInitializer =>
      simp [body,exceptionCaught,SocksClientInitializer.exceptionCaught,Plain]
    | _ => exact plain_single trivial

/-- Writes give no names. -/
theorem plain_write {message : Msg} {listener : Listener} {flush : Bool} :
    ∀ stmt∈writeBody cfg s id message listener flush h, Plain stmt := by
  have hencoder : ∀ (wrap : List Msg → Handler) (history : List Msg),
      (∀ l, givesNames (wrap l)=false) →
      ∀ stmt∈httpEncoderWrite cfg s id wrap history message listener flush, Plain stmt := by
    intro wrap history hwrap
    simp only [httpEncoderWrite,List.forall_mem_cons]
    refine ⟨hwrap _,trivial,?_,by simp⟩
    split <;> trivial
  cases h with
  | sslHandler history =>
    cases message with
    | bytes data => exact plain_tls
    | _ => exact plain_single trivial
  | httpRequestEncoder history => exact hencoder .httpRequestEncoder history (fun _ => rfl)
  | httpResponseEncoder history => exact hencoder .httpResponseEncoder history (fun _ => rfl)
  | mitmHandler =>
    cases message with
    | fullResponse response => simp [writeBody,MitmHandler.write,Plain]
    | _ => exact plain_single trivial
  | correctCRLFHander => cases message <;> exact plain_single trivial
  | _ => cases message <;> exact plain_single trivial

/-- Listeners give no names. -/
theorem plain_listener {ok : Bool} (listener : Listener) :
    ∀ stmt∈listenerBody s ok listener, Plain stmt := by
  cases listener with
  | none => simp [listenerBody]
  | close => simp [listenerBody,Plain]
  | connected id => cases ok <;> simp [listenerBody,Plain]
  | greetingSent =>
    simp [listenerBody,SocksClientInitializer.greetingSent,Plain,givesNames]
  | requestSent id =>
    cases ok <;> simp [listenerBody,SocksClientInitializer.requestSent,Plain,givesNames]
  | responseWritten => cases ok <;> simp [listenerBody,MitmHandler.responseWritten,Plain]

end Bodies

section Statements

variable {cfg : Config} {w w₁ w' : World} {s : Side} {id : ℕ} {x : Option Throwable}
  {stmts : List Stmt} {rescue : Throwable → World → List Stmt}

/-- How an effect ends under the contracts. -/
abbrev Result (cfg : Config) (effect : Effect) (w' : World) (x : Option Throwable) : Prop :=
  Settles (perform cfg) Contract effect w' x

theorem selected_of_logged (h : Logged w w') (hs : Selected w) : Selected w' := by
  obtain ⟨isTls,hm⟩ := hs
  exact ⟨isTls,h.mem hm⟩

/-- A step that keeps the pipelines free of names. -/
theorem early_of (hlog : Logged w w') (h : Nameless w → Nameless w') (he : Early w) : Early w' :=
  he.imp (selected_of_logged hlog) h

theorem nameless_of_pipes (h : ∀ s, w'.pipe s=w.pipe s) (hn : Nameless w) : Nameless w' := by
  intro s
  rw [h s]
  exact hn s

/-- A change of one pipeline. -/
theorem nameless_updPipe {g : Pipeline Label Handler → Pipeline Label Handler}
    (h : Nameless w → ∀ c∈(g (w.pipe s)).contexts, c.label=none ∧ givesNames c.handler=false)
    (hn : Nameless w) : Nameless (w.updPipe s g) := by
  intro t
  by_cases hts : t=s
  · subst hts
    rw [pipe_updPipe_same]
    exact h hn
  · rw [pipe_updPipe_of_ne hts]
    exact hn t

theorem logged_steps (h : Steps Contract w stmts w' x) : Logged w w' :=
  h.related (L:=fun _ _ => True) (R:=Logged) (fun _ => logged_of_eq rfl) (fun _ _ _ => Logged.trans)
    (fun _ _ _ _ h => h) (fun _ _ _ _ _ hc => hc.logged) (fun _ _ => trivial)

/-- Statements that give no name, one after the other. -/
theorem early_steps (h : Steps Contract w stmts w' x) (hp : ∀ stmt∈stmts, Plain stmt)
    (he : Early w) : Early w' :=
  h.related (L:=fun stmt _ => Plain stmt) (R:=fun w w' => Early w → Early w') (fun _ h => h)
    (fun _ _ _ h k he => k (h he)) (fun _ _ _ _ h => h) (fun _ _ _ _ hp hc => hc.early hp) hp he

/-- A call forgets nothing. -/
theorem logged_call (h : Result cfg (.call w₁ stmts rescue) w' x) (hk : Logged w w₁) :
    Logged w w' := by
  cases h with
  | call inner h => exact hk.trans (logged_steps h)
  | rescue inner h caught => exact hk.trans ((logged_steps h).trans (logged_steps caught))

/-- A call whose statements give no name. -/
theorem early_call (h : Result cfg (.call w₁ stmts rescue) w' x)
    (hp : ∀ stmt∈stmts, Plain stmt) (hr : ∀ e w₂, ∀ stmt∈rescue e w₂, Plain stmt)
    (he : Early w₁) : Early w' := by
  cases h with
  | call inner h => exact early_steps h hp he
  | rescue inner h caught => exact early_steps caught (hr _ _) (early_steps h hp he)

theorem plain_rescueOf {event : Inbound} (e : Throwable) (w : World) :
    ∀ stmt∈rescueOf s id event e w, Plain stmt := by
  unfold rescueOf
  split <;> simp [Plain]

/-- The selecting handler records its choice before it acts on it. -/
theorem early_select {request : Socks5CommandRequest} {state : SelectState} {event : Inbound}
    (h : Result cfg (.call w (body cfg w s id event (.protocolSelectHandler request state))
      (rescueOf s id event)) w' x) (he : Early w) : Early w' := by
  have hplain : (∀ stmt∈body cfg w s id event (.protocolSelectHandler request state), Plain stmt) →
      Early w' := fun hp => early_call h hp plain_rescueOf he
  have hselect : ∀ isTls rest, body cfg w s id event (.protocolSelectHandler request state)=
      .noteSelected isTls::rest → Early w' := by
    intro isTls rest hbody
    rw [hbody] at h
    have hsteps : ∀ {w₂ y}, Steps Contract w (.noteSelected isTls::rest) w₂ y → Selected w₂ := by
      intro w₂ y hs
      cases hs with
      | cons hc hrest => exact selected_of_logged (logged_steps hrest) (hc.selected _ rfl)
      | throw hc => exact hc.selected _ rfl
    cases h with
    | call inner h => exact .inl (hsteps h)
    | rescue inner h caught => exact .inl (selected_of_logged (logged_steps caught) (hsteps h))
  cases event with
  | read message =>
    cases message with
    | bytes data =>
      cases state with
      | success => exact hplain (plain_fireRest data)
      | init cumulation =>
        have hbody : body cfg w s id (.read (.bytes data))
            (.protocolSelectHandler request (.init cumulation))=
            ProtocolSelectHandler.channelRead cfg.rules id request (.init cumulation) data := rfl
        rw [hbody] at hplain hselect
        simp only [ProtocolSelectHandler.channelRead] at hplain hselect
        split at hplain
        · rename_i a b c rest hbytes
          rw [hbytes] at hselect
          exact hselect _ _ rfl
        · exact hplain (by simp [Plain,givesNames])
    | _ => exact hplain (by simp [body,channelRead,Plain])
  | _ => exact hplain (by simp [body,channelActive,channelInactive,exceptionCaught,Plain])

/-- An event is delivered. -/
theorem contract_deliver {event : Inbound} {target : Option ℕ}
    (h : Result cfg (deliver cfg w s event target) w' x) :
    Logged w w' ∧ (Early w → Early w') := by
  cases target with
  | none =>
    cases h
    exact ⟨logged_of_eq rfl,fun he => he⟩
  | some id =>
    rw [deliver] at h
    split at h
    · exact ⟨logged_call h (logged_of_eq rfl),early_call h (by simp [Plain]) (by simp [drop])⟩
    · rename_i y hy
      have hlog := logged_call h (logged_of_eq rfl)
      refine ⟨hlog,fun he => ?_⟩
      rcases he with hs|hn
      · exact .inl (selected_of_logged hlog hs)
      · obtain ⟨c,hc,rfl⟩ := Option.map_eq_some_iff.mp hy
        have hnames := (hn s c (List.mem_of_find?_eq_some hc)).2
        by_cases hsel : ∃ request state, c.handler=.protocolSelectHandler request state
        · obtain ⟨request,state,hh⟩ := hsel
          rw [hh] at h
          exact early_select h (.inr hn)
        · have hne : ∀ request state, c.handler≠.protocolSelectHandler request state :=
            fun request state hh => hsel ⟨request,state,hh⟩
          exact early_call h (plain_body hnames hne) plain_rescueOf (.inr hn)

/-- What reaches the head of a pipeline. -/
theorem contract_headWrite {message : Msg} {listener : Listener} {flush : Bool}
    (h : Result cfg (headWrite w s message listener flush) w' x) :
    Logged w w' ∧ (Early w → Early w') := by
  have hrefuse : Result cfg (.call w [.notify s listener false] drop) w' x →
      Logged w w' ∧ (Early w → Early w') :=
    fun h => ⟨logged_call h (logged_of_eq rfl),early_call h (by simp [Plain]) (by simp [drop])⟩
  have hqueue : Logged w (w.enqueue s message listener) ∧
      (Early w → Early (w.enqueue s message listener)) := by
    have hlog : Logged w (w.enqueue s message listener) := logged_upd s _
    refine ⟨hlog,early_of hlog (nameless_of_pipes (fun t => ?_))⟩
    cases s <;> cases t <;> rfl
  have haccept : Result cfg (if w.isActive s then
      if flush then .call (w.enqueue s message listener) [.flush s] drop
      else .done (w.enqueue s message listener)
    else .call w [.notify s listener false] drop) w' x → Logged w w' ∧ (Early w → Early w') := by
    intro h
    split at h
    · split at h
      · exact ⟨logged_call h hqueue.1,
          fun he => early_call h (by simp [Plain]) (by simp [drop]) (hqueue.2 he)⟩
      · cases h
        exact hqueue
    · exact hrefuse h
  cases message with
  | bytes data => exact haccept h
  | encoded m => exact haccept h
  | socks | http | fullRequest | fullResponse => exact hrefuse h

/-- A handler is added without a name. -/
theorem nameless_insertAt {k : ℕ} {h : Handler} (hh : givesNames h=false) (hn : Nameless w) :
    Nameless (w.updPipe s (fun p => p.insertAt k none h)) := by
  refine nameless_updPipe (fun hn c hc => ?_) hn
  simp only [Pipeline.insertAt,List.mem_append,List.mem_cons] at hc
  rcases hc with hc|rfl|hc
  · exact hn s c (List.mem_of_mem_take hc)
  · exact ⟨rfl,hh⟩
  · exact hn s c (List.mem_of_mem_drop hc)

theorem contract_addNamed {k : ℕ} {label : Option Label} {h : Handler}
    (hr : Result cfg (addNamed w s k label h) w' x) :
    Logged w w' ∧ (label=none → givesNames h=false → Early w → Early w') := by
  unfold addNamed at hr
  split at hr
  · rename_i hlabel
    cases hr
    refine ⟨logged_note,fun hnone _ _ => ?_⟩
    rw [hnone] at hlabel
    cases hlabel
  · cases hr
    have hlog : Logged w (w.updPipe s (fun p => p.insertAt k label h)) := logged_updPipe s _
    refine ⟨hlog,fun hnone hh => early_of hlog ?_⟩
    subst hnone
    exact nameless_insertAt hh

/-- A statement that changes no pipeline. -/
theorem contract_of_pipes {stmt : Stmt} (hlog : Logged w w') (hp : ∀ s, w'.pipe s=w.pipe s)
    (hs : ∀ isTls, stmt≠.noteSelected isTls) : Contract stmt w w' x :=
  ⟨hlog,fun isTls he => absurd he (hs isTls),fun _ => early_of hlog (nameless_of_pipes hp)⟩

/-- A statement that calls others after a change that touches no pipeline. -/
theorem contract_of_call {stmt : Stmt} (h : Result cfg (.call w₁ stmts rescue) w' x)
    (hlog : Logged w w₁) (hpipe : ∀ s, w₁.pipe s=w.pipe s) (hp : ∀ stmt∈stmts, Plain stmt)
    (hr : ∀ e w₂, ∀ stmt∈rescue e w₂, Plain stmt) (hs : ∀ isTls, stmt≠.noteSelected isTls) :
    Contract stmt w w' x :=
  ⟨logged_call h hlog,fun isTls he => absurd he (hs isTls),
    fun _ he => early_call h hp hr (early_of hlog (nameless_of_pipes hpipe) he)⟩

/-- The promise is completed. -/
theorem contract_complete {stmt : Stmt} {state : PromiseState}
    (hs : ∀ isTls, stmt≠.noteSelected isTls) (h : Result cfg (complete w state) w' x) :
    Contract stmt w w' x := by
  unfold complete at h
  split at h
  · cases h
    exact contract_of_pipes (logged_of_eq rfl) (fun _ => rfl) hs
  · split at h
    · refine contract_of_call h (logged_of_eq rfl) (fun t => by cases t <;> rfl) ?_
        (by simp [drop]) hs
      rw [List.forall_mem_append]
      unfold UpstreamMatchHandler.replyListener UpstreamMatchHandler.selectListener
      constructor
      · split <;> simp [Plain]
      · split <;> simp [Plain,givesNames]
    · cases h
      exact contract_of_pipes logged_note (fun t => by cases t <;> rfl) hs

/-- Every statement meets its contract when the statements it calls do. -/
theorem contract_perform (stmt : Stmt) (w w' : World) (x : Option Throwable)
    (h : Result cfg (perform cfg stmt w) w' x) : Contract stmt w w' x := by
  cases stmt with
  | addLast | addFirst =>
    obtain ⟨hlog,he⟩ := contract_addNamed h
    exact ⟨hlog,by simp,fun hp => he hp.1 hp.2⟩
  | addAfterCtx =>
    obtain ⟨hlog,he⟩ := contract_addNamed h
    exact ⟨hlog,by simp,fun hp => he rfl hp⟩
  | addAfter | addBefore =>
    simp only [perform] at h
    split at h
    · exact ⟨(contract_addNamed h).1,by simp,fun hp => absurd hp (fun h => h)⟩
    · cases h
      exact ⟨logged_note,by simp,fun hp => absurd hp (fun h => h)⟩
  | remove s id =>
    simp only [perform] at h
    split at h
    · cases h
      have hlog : Logged w (w.updPipe s (fun p => p.remove id)) := logged_updPipe s _
      exact ⟨hlog,by simp,fun _ => early_of hlog (nameless_updPipe (fun hn c hc =>
        hn s c (List.mem_of_mem_filter hc)))⟩
    · cases h
      exact contract_of_pipes logged_note (fun t => by cases t <;> rfl) (by simp)
  | replace s id label h' =>
    simp only [perform] at h
    split at h
    · cases h
      exact ⟨logged_updPipe s _,by simp,fun hp => absurd hp (fun h => h)⟩
    · cases h
      exact ⟨logged_note,by simp,fun hp => absurd hp (fun h => h)⟩
  | assign s id h' =>
    cases h
    have hlog : Logged w (w.updPipe s (fun p => p.assign id h')) := logged_updPipe s _
    refine ⟨hlog,by simp,fun hp => early_of hlog (nameless_updPipe (fun hn c hc => ?_))⟩
    obtain ⟨d,hd,rfl⟩ := List.mem_map.mp hc
    split
    · exact ⟨(hn s d hd).1,hp⟩
    · exact hn s d hd
  | addInitializer httpInterceptor =>
    exact ⟨logged_call h (logged_of_eq rfl),by simp,fun hp => absurd hp (fun h => h)⟩
  | pipelineFire | ctxFire =>
    obtain ⟨hlog,he⟩ := contract_deliver h
    exact ⟨hlog,by simp,fun _ => he⟩
  | invoke s id event =>
    have hdeliver : ∀ target, Result cfg (deliver cfg w s event target) w' x →
        Contract (.invoke s id event) w w' x := by
      intro target h
      obtain ⟨hlog,he⟩ := contract_deliver h
      exact ⟨hlog,by simp,fun _ => he⟩
    simp only [perform] at h
    split at h
    · split at h
      · exact hdeliver _ h
      · exact hdeliver _ h
    · exact hdeliver _ h
  | write s source message listener flush =>
    have hhead : Result cfg (headWrite w s message listener flush) w' x →
        Contract (.write s source message listener flush) w w' x := by
      intro h
      obtain ⟨hlog,he⟩ := contract_headWrite h
      exact ⟨hlog,by simp,fun _ => he⟩
    simp only [perform] at h
    split at h
    · exact hhead h
    · split at h
      · exact hhead h
      · exact contract_of_call h (logged_of_eq rfl) (fun _ => rfl) plain_write (by simp [drop])
          (by simp)
  | flush s =>
    simp only [perform] at h
    split at h
    · exact contract_of_call h (logged_of_eq rfl) (fun t => by cases t <;> rfl) (by simp [Plain])
        (by simp [drop]) (by simp)
    · cases h
      exact contract_of_pipes (logged_of_eq rfl) (fun t => by cases t <;> rfl) (by simp)
  | drain s =>
    refine contract_of_call h (logged_upd s _) (fun t => ?_) ?_ (by simp [drop]) (by simp)
    · cases s <;> cases t <;> rfl
    · exact List.forall_mem_map.mpr (fun _ _ => trivial)
  | notify s listener ok =>
    exact contract_of_call h (logged_of_eq rfl) (fun _ => rfl) (plain_listener listener)
      (by simp [drop]) (by simp)
  | closeOnFlush s =>
    simp only [perform] at h
    split at h
    · exact contract_of_call h (logged_of_eq rfl) (fun _ => rfl) (by simp [Plain]) (by simp [drop])
        (by simp)
    · cases h
      exact contract_of_pipes (logged_of_eq rfl) (fun _ => rfl) (by simp)
  | close s =>
    simp only [perform] at h
    split at h
    · refine contract_of_call h (logged_upd s shut) (fun t => ?_) ?_ (by simp [drop]) (by simp)
      · cases s <;> cases t <;> rfl
      · exact List.forall_mem_map.mpr (fun _ _ => trivial)
    · refine contract_of_call h (logged_upd s _) (fun t => ?_) ?_ (by simp [drop]) (by simp)
      · cases s <;> cases t <;> rfl
      · exact List.forall_mem_map.mpr (fun _ _ => trivial)
    · cases h
      exact contract_of_pipes (logged_of_eq rfl) (fun _ => rfl) (by simp)
  | destroy s =>
    cases h
    have hlog : Logged w (w.updPipe s (fun p => ⟨[],p.nextId,p.detached,by simp,by simp⟩)) :=
      logged_updPipe s _
    exact ⟨hlog,by simp,fun _ => early_of hlog (nameless_updPipe (fun _ c hc => by cases hc))⟩
  | newPromise request id =>
    cases h
    exact contract_of_pipes (logged_of_eq rfl) (fun t => by cases t <;> rfl) (by simp)
  | setSuccess | setFailure => exact contract_complete (by simp) h
  | connect id proxy request host port =>
    simp only [perform] at h
    split at h
    · cases h
      refine ⟨logged_note,by simp,fun _ => early_of logged_note (fun hn s c hc => ?_)⟩
      cases s with
      | client => exact hn .client c hc
      | remote =>
        have hc' : c=⟨0,none,.connectHandler proxy request⟩ := List.mem_singleton.mp hc
        rw [hc']
        exact ⟨rfl,rfl⟩
    · cases h
      exact contract_of_pipes (logged_of_eq rfl) (fun _ => rfl) (by simp)
  | raise cause =>
    cases h
    exact contract_of_pipes (logged_of_eq rfl) (fun _ => rfl) (by simp)
  | noteSelected isTls =>
    cases h
    have hselected : Selected (w.note (.selected isTls)) := ⟨isTls,by simp⟩
    exact ⟨logged_note,fun _ _ => hselected,fun _ _ => .inl hselected⟩
  | noteReply | noteRequest | noteOnRequest | noteOnResponse | noteEncoded =>
    cases h
    exact contract_of_pipes logged_note (fun t => by cases t <;> rfl) (by simp)

end Statements

section Turns

variable {cfg : Config} {w w₀ w' : World} {event : Event} {stmts : List Stmt}

/-- What an event starts with: it forgets nothing, leaves the pipelines alone and gives no name. -/
theorem plain_inject (hinject : inject event w=some (w₀,stmts)) :
    Logged w w₀ ∧ (∀ s, w₀.pipe s=w.pipe s) ∧ ∀ stmt∈stmts, Plain stmt := by
  cases event with
  | read s data | peerClose s | ioException s | writeError s | flushed s =>
    simp only [inject] at hinject
    split at hinject
    · cases hinject
      exact ⟨logged_of_eq rfl,fun _ => rfl,by simp [Plain]⟩
    · cases hinject
  | connected =>
    simp only [inject] at hinject
    split at hinject
    · cases hinject
      exact ⟨logged_note,fun t => by cases t <;> rfl,by split <;> simp [Plain]⟩
    · cases hinject
  | connectFailed =>
    simp only [inject] at hinject
    split at hinject
    · cases hinject
      exact ⟨logged_of_eq rfl,fun t => by cases t <;> rfl,by split <;> simp [Plain]⟩
    · cases hinject
  | inactive s =>
    simp only [inject] at hinject
    split at hinject
    · cases hinject
      exact ⟨logged_upd s _,fun t => by cases s <;> cases t <;> rfl,by simp [Plain]⟩
    · cases hinject

/-- Every turn leaves the names to the selection. -/
theorem Early.turn (he : Early w) (ht : (system cfg).Turn w event w') : Early w' := by
  obtain ⟨w₀,stmts,x,hinject,heval⟩ := ht
  obtain ⟨hlog,hpipes,hplain⟩ := plain_inject hinject
  exact early_steps (heval.contracts contract_perform) hplain
    (early_of hlog (nameless_of_pipes hpipes) he)

end Turns

end ProxyDroid.ConnectionNames
