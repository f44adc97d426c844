import ProxyDroid.InterceptedMessages

/-!
# Runs of an intercepted connection

The aggregators of both channels emit complete messages. A run is any order of
requests, responses and flushes on a connection that `MitmInitializer` has
set up; what it shows is determined by its messages.
-/

namespace ProxyDroid.InterceptedRuns

open CallSemantics HandlerPipeline PipelineViews ConnectionTypes ConnectionHandlers
open ConnectionSystem ConnectionRules ConnectionInvariants InterceptedWrites InterceptedMessages

/-- Handlers put at the ends of the pipelines. -/
structure Extends (more : Side → List (Option Label×Handler)) (w w' : World) : Prop where
  /-- The handlers of a side. -/
  tags : ∀ s, tags w' s=tags w s++more s
  /-- Positions stay. -/
  viewed : ∀ {s id pre x post}, Viewed tag (w.pipe s) id pre x post →
    Viewed tag (w'.pipe s) id pre x (post++more s)
  /-- Contexts that gave up their place do not come back. -/
  replaced : ∀ {s id id'}, Replaced (w.pipe s) id id' → Replaced (w'.pipe s) id id'
  /-- Nothing is observed. -/
  log : w'.log=w.log
  /-- The channels stay as they are. -/
  chan : ∀ s, (w'.chan s).life=(w.chan s).life ∧ (w'.chan s).queue=(w.chan s).queue

/-- Handlers for one side. -/
def only (s : Side) (ts : List (Option Label×Handler)) (t : Side) : List (Option Label×Handler) :=
  if t=s then ts else []

section Installation

variable {cfg : Config} {w w₁ w₂ : World} {more more' : Side → List (Option Label×Handler)}
  {s : Side} {label : Option Label} {h : Handler}

theorem Extends.trans (a : Extends more w w₁) (b : Extends more' w₁ w₂) :
    Extends (fun s => more s++more' s) w w₂ where
  tags := fun s => by rw [b.tags,a.tags,List.append_assoc]
  viewed := fun hv => by
    rw [←List.append_assoc]
    exact b.viewed (a.viewed hv)
  replaced := fun hr => b.replaced (a.replaced hr)
  log := b.log.trans a.log
  chan := fun s => ⟨(b.chan s).1.trans (a.chan s).1,(b.chan s).2.trans (a.chan s).2⟩

/-- Handlers that carry bytes leave a side calm. -/
theorem Extends.calm {C : Listener → Prop} (h : Extends more w w₁) (hc : Calm C w s)
    (hmore : ∀ t∈more s, Carrier t) : Calm C w₁ s := by
  refine ⟨fun t ht => ?_,(h.chan s).1 ▸ hc.life,(h.chan s).2 ▸ hc.queue⟩
  rw [h.tags] at ht
  rcases List.mem_append.mp ht with ht|ht
  · exact hc.carriers t ht
  · exact hmore t ht

/-- A handler put at the end of a pipeline. -/
theorem extends_added (w : World) (s : Side) (label : Option Label) (h : Handler) :
    Extends (only s [(label,dim h)]) w
    (w.updPipe s (fun p => p.insertAt p.contexts.length label h)) where
  tags := by
    intro t
    by_cases hts : t=s
    · subst hts
      rw [InterceptedWrites.tags,pipe_updPipe_same,view_insertAt_length,only,if_pos rfl]
      rfl
    · rw [InterceptedWrites.tags,pipe_updPipe_of_ne hts,only,if_neg hts,List.append_nil]
  viewed := by
    intro t id pre x post hv
    by_cases hts : t=s
    · subst hts
      rw [pipe_updPipe_same,only,if_pos rfl]
      exact hv.insert_last label h
    · rw [pipe_updPipe_of_ne hts,only,if_neg hts,List.append_nil]
      exact hv
  replaced := by
    intro t id id' hr
    by_cases hts : t=s
    · subst hts
      rw [pipe_updPipe_same]
      exact hr.insertAt _ _ _
    · rwa [pipe_updPipe_of_ne hts]
  log := updPipe_log
  chan := fun _ => ⟨updPipe_life,updPipe_queue⟩

/-- `addLast` under a free name. -/
theorem runs_addLast_named {name : Label} (hfree : ∀ t∈tags w s, t.1≠some name) :
    Runs cfg w [.addLast s (some name) h]
      (w.updPipe s (fun p => p.insertAt p.contexts.length (some name) h)) := by
  refine runs_of_done ?_
  have hany : (some name).any (w.pipe s).hasLabel=false := hasLabel_free hfree
  simp only [perform,addNamed,hany]
  cases s <;> rfl

/-- `addLast` of several handlers without names. -/
theorem runs_addLast_all (cfg : Config) (s : Side) (hs : List Handler) (w : World) :
    ∃ w', Runs cfg w (hs.map (fun h => .addLast s none h)) w' ∧
      Extends (only s (hs.map (fun h => (none,dim h)))) w w' := by
  induction hs generalizing w with
  | nil =>
    refine ⟨w,runs_nil,fun t => ?_,fun {t} _ _ _ _ hv => ?_,fun h => h,rfl,
      fun _ => ⟨rfl,rfl⟩⟩
    · simp [only]
    · by_cases hts : t=s <;> simpa [only,hts] using hv
  | cons h hs ih =>
    obtain ⟨w',hrun,hext⟩ := ih (w.updPipe s (fun p => p.insertAt p.contexts.length none h))
    have hall := (extends_added w s none h).trans hext
    have hmore : (fun t => only s [(none,dim h)] t++only s (hs.map (fun h => (none,dim h))) t)=
        only s ((h::hs).map (fun h => (none,dim h))) := by
      funext t
      by_cases hts : t=s <;> simp [only,hts]
    exact ⟨w',runs_addLast.cons hrun,hmore ▸ hall⟩

/-- What `MitmInitializer` adds to a side. -/
def initializerTags (i : HttpInterceptor) : Side → List (Option Label×Handler)
  | .client => clientTags i false
  | .remote => remoteTags

/-- `MitmInitializer` puts the codecs and the message handler at the end of the
client pipeline and the codecs at the end of the remote one. -/
theorem runs_addInitializer (cfg : Config) (i : HttpInterceptor)
    (hfree : ∀ t∈tags w .client, t.1≠some .httpMessageHandler) :
    ∃ w', Runs cfg w [.addInitializer i] w' ∧
      Extends (initializerTags i) w w' := by
  obtain ⟨w₁,hrun₁,hext₁⟩ := runs_addLast_all cfg .client
    [.httpResponseEncoder [],.httpRequestDecoder [],.httpObjectAggregator []] w
  let named := w₁.updPipe .client (fun p => p.insertAt p.contexts.length
    (some .httpMessageHandler) (.httpMessageHandler i))
  have hname : Runs cfg w₁
      [.addLast .client (some .httpMessageHandler) (.httpMessageHandler i)] named := by
    refine runs_addLast_named (fun t ht => ?_)
    rw [hext₁.tags] at ht
    rcases List.mem_append.mp ht with ht|ht
    · exact hfree t ht
    · simp only [only,if_true,List.map_cons,List.map_nil,List.mem_cons,List.not_mem_nil,
        or_false] at ht
      rcases ht with rfl|rfl|rfl <;> simp
  have hext₂ := extends_added w₁ .client (some .httpMessageHandler) (.httpMessageHandler i)
  obtain ⟨w₂,hrun₂,hext₃⟩ := runs_addLast_all cfg .remote
    [.loggingHandler,.httpResponseDecoder [],.httpObjectAggregator [],.httpRequestEncoder []] named
  obtain ⟨w₃,hrun₃,hext₄⟩ := runs_addLast_all cfg .client [.relayHandler] w₂
  obtain ⟨w₄,hrun₄,hext₅⟩ := runs_addLast_all cfg .remote [.relayHandler] w₃
  have hall := (((hext₁.trans hext₂).trans hext₃).trans hext₄).trans hext₅
  have hrun := (((hrun₁.append hname).append hrun₂).append hrun₃).append hrun₄
  refine ⟨w₄,runs_of_call rfl hrun,?_⟩
  convert hall using 2 with s
  cases s <;> rfl

end Installation

/-- What an intercepted connection may see. -/
inductive Message where
  /-- The aggregator of the client channel has a complete request. -/
  | request (request : FullHttpRequest)
  /-- The aggregator of the remote channel has a complete response. -/
  | response (response : FullHttpResponse)
  /-- The socket takes the queued writes of a channel. -/
  | flushed (s : Side)

/-- Whether a handler is an `HttpObjectAggregator`. -/
def isAggregator : Handler → Bool
  | .httpObjectAggregator _ => true
  | _ => false

/-- A complete message is passed on by the aggregator of an open channel. -/
def emit (w : World) (s : Side) (message : Msg) : Option (World×List Stmt) :=
  if w.isActive s then
    ((w.pipe s).firstWhere isAggregator).map (fun id => (w,[fireRead s id message]))
  else none

/-- When a message can be seen, and what handling it starts with. -/
def messageInject (message : Message) (w : World) : Option (World×List Stmt) :=
  match message with
  | .request request => emit w .client (.fullRequest request)
  | .response response => emit w .remote (.fullResponse response)
  | .flushed s => inject (.flushed s) w

/-- An intercepted connection under a configuration. -/
def messageSystem (cfg : Config) : System World Message Stmt Throwable :=
  ⟨perform cfg,messageInject⟩

section Turns

variable {cfg : Config} {i : HttpInterceptor} {lead rear : List (Option Label×Handler)}
  {called : Bool} {w w' : World}

/-- Whether a tag is that of an aggregator. -/
def aggregates (t : Option Label×Handler) : Bool := isAggregator t.2

theorem isAggregator_tag (c : Ctx Label Handler) : isAggregator c.handler=aggregates (tag c) := by
  obtain ⟨id,label,h⟩ := c
  cases h <;> rfl

theorem not_aggregates_of_earlier {t : Option Label×Handler} (h : Earlier t) : aggregates t=false := by
  obtain ⟨label,k⟩ := t
  have hk := h.aggregator
  cases k with
  | httpObjectAggregator history => exact absurd rfl (hk history)
  | _ => rfl

/-- The aggregator of the client channel. -/
theorem client_aggregator (h : Wired i lead rear called w) :
    ∃ id, (w.pipe .client).firstWhere isAggregator=some id ∧ Aggregated w id i lead called := by
  have hview : tags w .client=(lead++[(none,Handler.httpResponseEncoder []),
      (none,.httpRequestDecoder [])])++(none,Handler.httpObjectAggregator [])::messageTags i called := by
    rw [h.client,clientTags]
    simp
  refine firstWhere_viewed isAggregator_tag hview (fun t ht => ?_) rfl
  rcases List.mem_append.mp ht with ht|ht
  · exact not_aggregates_of_earlier (h.earlier t (List.mem_append_left _ ht))
  · simp only [List.mem_cons,List.not_mem_nil,or_false] at ht
    rcases ht with rfl|rfl <;> rfl

/-- The aggregator of the remote channel. -/
theorem remote_aggregator (h : Wired i lead rear called w) :
    ∃ id, (w.pipe .remote).firstWhere isAggregator=some id ∧ Answering w id rear := by
  have hview : tags w .remote=(rear++[(none,Handler.loggingHandler),(none,.httpResponseDecoder [])])++
      (none,Handler.httpObjectAggregator [])::[(none,Handler.httpRequestEncoder []),(none,.relayHandler)] := by
    rw [h.remote,remoteTags]
    simp
  refine firstWhere_viewed isAggregator_tag hview (fun t ht => ?_) rfl
  rcases List.mem_append.mp ht with ht|ht
  · exact not_aggregates_of_earlier (h.earlier t (List.mem_append_right _ ht))
  · simp only [List.mem_cons,List.not_mem_nil,or_false] at ht
    rcases ht with rfl|rfl <;> rfl

/-- What a message shows, depending on whether there was a request before. -/
def shown (i : HttpInterceptor) (called : Bool) (w : World) : Message → List Obs
  | .request request =>
    if called then [.requestRead request,.threw .client .illegalArgument]
    else [Obs.requestRead request,.onRequest (CorrectCRLFHander.correctRequest request)]++
      handed w (i.onRequest (CorrectCRLFHander.correctRequest request))
  | .response response => if w.isActive .client then answered i called response else []
  | .flushed _ => []

/-- Whether there has been a request after a message. -/
def calledAfter (called : Bool) : Message → Bool
  | .request _ => true
  | .response _ | .flushed _ => called

/-- The socket of the client takes the queued writes. -/
theorem runs_client_flush (h : Wired i lead rear called w) (hwraps : Wraps cfg) :
    ∃ w', Runs cfg w [.drain .client] w' ∧ Sees i lead rear called w w' [] := by
  obtain ⟨w',hrun,hbelow,hcalm⟩ := runs_drained (fun _ _ => runs_notify_benign hwraps) h.clientCalm
  have hcalm' : Calm Benign w' .client :=
    ⟨hcalm.carriers,hcalm.life,fun entry he => .inl (hcalm.queue entry he)⟩
  refine ⟨w',runs_of_call rfl hrun,h.below_client hbelow hcalm',?_,?_,hbelow.active⟩
  · rw [hbelow.log,List.append_nil]
  · exact (hbelow.other .remote (by simp)).1

/-- The socket of the remote takes the queued writes. -/
theorem runs_remote_flush (cfg : Config) (h : Wired i lead rear called w) :
    ∃ w', Runs cfg w [.drain .remote] w' ∧ Sees i lead rear called w w' [] := by
  have hone : ∀ w₁ listener, Calm Unheard w₁ .remote → Unheard listener →
      ∃ w', Runs cfg w₁ [.notify .remote listener true] w' ∧ Below false .remote w₁ w' ∧
        Calm Unheard w' .remote := by
    intro w₁ listener hc hl
    rw [hl]
    exact ⟨w₁,runs_of_call rfl runs_nil,.refl false .remote w₁,hc⟩
  obtain ⟨w',hrun,hbelow,hcalm⟩ := runs_drained hone h.remoteCalm
  refine ⟨w',runs_of_call rfl hrun,h.below_remote hbelow hcalm,?_,hbelow.stays rfl,fun ha => ?_⟩
  · rw [hbelow.log,List.append_nil]
  · rwa [(hbelow.other .client (by simp)).1] at ha

/-- Every message of an intercepted connection is handled to its end. -/
theorem runs_message (h : Wired i lead rear called w) (hwraps : Wraps cfg)
    {message : Message} {w₀ : World} {stmts : List Stmt}
    (hm : messageInject message w=some (w₀,stmts)) :
    ∃ w', Runs cfg w₀ stmts w' ∧
      Sees i lead rear (calledAfter called message) w w' (shown i called w message) := by
  cases message with
  | request request =>
    obtain ⟨id,hid,hv⟩ := client_aggregator h
    simp only [messageInject,emit,hid,Option.map_some] at hm
    split at hm
    · cases hm
      cases called with
      | false => exact h.first_request cfg hwraps hv request
      | true =>
        obtain ⟨w',hrun,hsees,-⟩ := h.later_request cfg hv request
        exact ⟨w',hrun,hsees⟩
    · cases hm
  | response response =>
    obtain ⟨id,hid,hv⟩ := remote_aggregator h
    simp only [messageInject,emit,hid,Option.map_some] at hm
    split at hm
    · cases hm
      exact h.runs_response cfg hwraps hv response
    · cases hm
  | flushed s =>
    simp only [messageInject,inject] at hm
    split at hm
    · cases hm
      cases s with
      | client => exact runs_client_flush h hwraps
      | remote => exact runs_remote_flush cfg h
    · cases hm

/-- One message of an intercepted connection. -/
theorem sees_of_turn (h : Wired i lead rear called w) (hwraps : Wraps cfg) {message : Message}
    (ht : (messageSystem cfg).Turn w message w') :
    Sees i lead rear (calledAfter called message) w w' (shown i called w message) := by
  obtain ⟨w₀,stmts,x,hinject,heval⟩ := ht
  obtain ⟨w₁,hrun,hsees⟩ := runs_message h hwraps hinject
  cases eval_unique heval hrun
  exact hsees

end Turns

/-- The requests read in a run. -/
def requests (messages : List Message) : List FullHttpRequest :=
  messages.filterMap (fun message => match message with
    | .request request => some request
    | _ => none)

theorem requests_append {messages messages' : List Message} :
    requests (messages++messages')=requests messages++requests messages' :=
  List.filterMap_append

/-- The calls of `onRequest`. -/
def calls (log : List Obs) : List FullHttpRequest :=
  log.filterMap (fun obs => match obs with
    | .onRequest request => some request
    | _ => none)

/-- The requests written to the upstream channel. -/
def forwarded (log : List Obs) : List FullHttpRequest :=
  log.filterMap (fun obs => match obs with
    | .encoded .remote (.fullRequest request) => some request
    | _ => none)

/-- Whether a handler has thrown. -/
def thrown (log : List Obs) : Bool :=
  log.any (fun obs => match obs with
    | .threw _ _ => true
    | _ => false)

/-- Every request has been intercepted and forwarded once, in order. -/
structure Faithful (i : HttpInterceptor) (read : List FullHttpRequest) (log : List Obs) : Prop where
  /-- `onRequest` sees every corrected request. -/
  intercepted : calls log=read.map CorrectCRLFHander.correctRequest
  /-- Its results are written upstream. -/
  written : forwarded log=read.map (fun r => i.onRequest (CorrectCRLFHander.correctRequest r))
  /-- No handler throws. -/
  calm : thrown log=false

section Results

variable {cfg : Config} {i : HttpInterceptor} {lead rear : List (Option Label×Handler)}
  {called : Bool} {w w₀ w' : World} {messages : List Message} {read : List FullHttpRequest}
  {log seen : List Obs}

/-- What is shown later is counted on top. -/
theorem Faithful.append {more : List Obs} {read' : List FullHttpRequest} (h : Faithful i read log)
    (h' : Faithful i read' more) : Faithful i (read++read') (log++more) where
  intercepted := by
    rw [calls,List.filterMap_append,List.map_append]
    exact congrArg₂ (·++·) h.intercepted h'.intercepted
  written := by
    rw [forwarded,List.filterMap_append,List.map_append]
    exact congrArg₂ (·++·) h.written h'.written
  calm := by
    rw [thrown,List.any_append]
    exact Bool.or_eq_false_iff.mpr ⟨h.calm,h'.calm⟩

/-- Responses and flushes show nothing of requests. -/
theorem faithful_shown_silent {message : Message} (hm : requests [message]=[]) :
    Faithful i [] (shown i called w message) := by
  cases message with
  | request request => cases hm
  | flushed s => exact ⟨rfl,rfl,rfl⟩
  | response response =>
    rw [shown,answered]
    split <;> cases called <;> exact ⟨rfl,rfl,rfl⟩

/-- The first request is intercepted and forwarded. -/
theorem faithful_shown_first (i : HttpInterceptor) (request : FullHttpRequest)
    (hremote : w.isActive .remote=true) :
    Faithful i [request] (shown i false w (.request request)) := by
  simp only [shown,handed,hremote]
  exact ⟨rfl,rfl,rfl⟩

/-- What the requests of a run have left behind. -/
structure Told (i : HttpInterceptor) (w₀ : World) (read : List FullHttpRequest) (w : World)
    (seen : List Obs) : Prop where
  /-- What the run has shown. -/
  log : w.log=w₀.log++seen
  /-- The upstream channel stays open. -/
  remote : w.isActive .remote=true
  /-- One request is handled. -/
  one : read.length≤1 → Faithful i read seen
  /-- A further one throws. -/
  more : 1<read.length → thrown seen=true

/-- The handlers of the interception stay, with those of the first request. -/
theorem wired_run (h : Wired i lead rear false w₀) (hwraps : Wraps cfg)
    (hrun : (messageSystem cfg).Run w₀ messages w) :
    Wired i lead rear (requests messages≠[]) w := by
  induction hrun with
  | nil => exact h
  | snoc run meets turn ih =>
    have hcalled : ∀ read message,
        calledAfter (read≠[]) message=decide (read++requests [message]≠[]) := by
      intro read message
      cases message <;> simp [calledAfter,requests]
    have hsees := sees_of_turn ih hwraps turn
    rw [requests_append,←hcalled]
    exact hsees.wired

/-- One message adds to what the requests have left behind. -/
theorem Told.turn (h : Told i w₀ read w seen) {message : Message}
    (hsees : Sees i lead rear called w w' (shown i (read≠[]) w message)) :
    Told i w₀ (read++requests [message]) w' (seen++shown i (read≠[]) w message) := by
  refine ⟨?_,hsees.remote.trans h.remote,fun hone => ?_,fun hmore => ?_⟩
  · rw [hsees.log,h.log,List.append_assoc]
  · have hold : read.length≤1 := by
      rw [List.length_append] at hone
      omega
    refine (h.one hold).append ?_
    cases message with
    | request request =>
      have hnone : read=[] := by simpa [requests] using hone
      subst hnone
      exact faithful_shown_first i request h.remote
    | response response => exact faithful_shown_silent rfl
    | flushed s => exact faithful_shown_silent rfl
  · rw [thrown,List.any_append,Bool.or_eq_true]
    by_cases hold : 1<read.length
    · exact .inl (h.more hold)
    · right
      cases message with
      | request request =>
        have hsome : read≠[] := by
          rintro rfl
          simp [requests] at hmore
        simp [shown,hsome]
      | response response => simp [requests,hold] at hmore
      | flushed s => simp [requests,hold] at hmore

/-- A run adds up. -/
theorem told_run (h : Wired i lead rear false w₀) (hwraps : Wraps cfg)
    (hremote : w₀.isActive .remote=true) (hrun : (messageSystem cfg).Run w₀ messages w) :
    ∃ seen, Told i w₀ (requests messages) w seen := by
  induction hrun with
  | nil =>
    refine ⟨[],(List.append_nil _).symm,hremote,fun _ => ⟨rfl,rfl,rfl⟩,fun hmore => ?_⟩
    simp [requests] at hmore
  | snoc run meets turn ih =>
    obtain ⟨seen,htold⟩ := ih
    have hnext := htold.turn (sees_of_turn (wired_run h hwraps run) hwraps turn)
    rw [←requests_append] at hnext
    exact ⟨_,hnext⟩

/-- On an intercepted connection with an open upstream channel, in any order of
requests, responses and flushes: every request is intercepted and forwarded
once and no handler throws exactly when there is at most one request. -/
theorem requests_handled_iff_single (h : Wired i lead rear false w₀) (hwraps : Wraps cfg)
    (hremote : w₀.isActive .remote=true) (hrun : (messageSystem cfg).Run w₀ messages w) :
    ∃ seen, w.log=w₀.log++seen ∧
      (Faithful i (requests messages) seen ↔ (requests messages).length≤1) := by
  obtain ⟨seen,htold⟩ := told_run h hwraps hremote hrun
  refine ⟨seen,htold.log,fun hf => ?_,htold.one⟩
  by_contra hmore
  have hthrown := htold.more (by omega)
  rw [hf.calm] at hthrown
  cases hthrown

/-- An interceptor that keeps every message. -/
def keep : HttpInterceptor := ⟨fun request => request,fun response => response⟩

/-- Head of a request of the sample client. -/
def sampleHead : HttpRequest := ⟨true,"GET / HTTP/1.1",[("Host","1.2.3.4")]⟩

/-- A body without bytes. -/
def emptyContent : ByteBuf := ⟨[],0,Nat.le_refl 0⟩

/-- The complete request. -/
def sampleFull : FullHttpRequest := ⟨"GET / HTTP/1.1",[("Host","1.2.3.4")],emptyContent⟩

/-- Its bytes. -/
def sampleBytes : Bytes :=
  [0x47,0x45,0x54,0x20,0x2f,0x20,0x48,0x54,0x54,0x50,0x2f,0x31,0x2e,0x31,0x0d,0x0a,
    0x48,0x6f,0x73,0x74,0x3a,0x20,0x31,0x2e,0x32,0x2e,0x33,0x2e,0x34,0x0d,0x0a,0x0d,0x0a]

/-- The last content of a message completes it. -/
def completed (history : List HttpObject) (object : HttpObject) : List Msg :=
  match history.getLast?,object with
  | some (.request head),.content data true =>
    [.fullRequest ⟨head.initialLine,head.headers,⟨data,data.length,Nat.le_refl _⟩⟩]
  | _,_ => []

/-- A head completes nothing. -/
theorem completed_request (history : List HttpObject) (head : HttpRequest) :
    completed history (.request head)=[] := by
  unfold completed
  cases history.getLast? with
  | none => rfl
  | some last => cases last <;> rfl

/-- The ASCII characters of a text. -/
def ascii (text : String) : Bytes := text.toList.map (fun c => UInt8.ofNat c.toNat)

/-- A complete request on the wire. -/
def encodeRequest (request : FullHttpRequest) : Bytes :=
  ascii request.initialLine++[0x0d,0x0a]++
    request.headers.flatMap (fun field => ascii field.1++[0x3a,0x20]++ascii field.2++[0x0d,0x0a])++
    [0x0d,0x0a]++request.content.data

example : encodeRequest sampleFull=sampleBytes := by decide

/-- Codecs that know the sample request, with every host intercepted. -/
def interceptConfig (i : HttpInterceptor) : Config :=
  { sampleConfig (directRules (some (fun _ => some i))) with
    httpDecode := fun _ _ data =>
      if data=sampleBytes then [.request sampleHead,.content [] true] else []
    aggregate := fun _ history object => completed history object
    httpEncode := fun _ message => match message with
      | .fullRequest request => some (encodeRequest request)
      | _ => none }

/-- Handlers of the client before the interception. -/
def sampleLead : List (Option Label×Handler) :=
  [(none,.socks5CommandRequestDecoder .success),(none,.loggingHandler),
    (none,.socks5InitialRequestDecoder .success),(none,.socks5ServerEncoder),
    (none,.protocolSelectHandler sampleRequest .success),(none,.httpInterceptorHandler sampleRequest),
    (none,.httpRequestDecoder [])]

/-- An open channel with these handlers. -/
def sampleChannel (ts : List (Option Label×Handler)) : Channel :=
  ⟨ts.foldl (fun p t => p.insertAt p.contexts.length t.1 t.2) Pipeline.empty,.active,false,[],[]⟩

/-- An intercepted connection with open channels. -/
def sampleIntercepted (i : HttpInterceptor) : World :=
  { accepted with client := sampleChannel (sampleLead++clientTags i false)
                  remote := sampleChannel remoteTags }

/-- The sample connection is intercepted. -/
theorem wired_sample (i : HttpInterceptor) : Wired i sampleLead [] false (sampleIntercepted i) := by
  refine ⟨rfl,rfl,?_,⟨?_,.inl rfl,?_⟩,⟨?_,.inl rfl,?_⟩⟩
  · intro t ht
    simp only [sampleLead,List.append_nil,List.mem_cons,List.not_mem_nil,or_false] at ht
    rcases ht with rfl|rfl|rfl|rfl|rfl|rfl|rfl <;> exact ⟨by simp,by simp⟩
  · intro t ht data hd
    have hmem : t∈sampleLead++clientTags i false := ht
    simp only [sampleLead,clientTags,messageTags,interceptors,List.cons_append,List.nil_append,
      List.mem_cons,List.not_mem_nil,or_false,Bool.false_eq_true,if_false] at hmem
    rcases hmem with rfl|rfl|rfl|rfl|rfl|rfl|rfl|rfl|rfl|rfl|rfl|rfl <;> cases hd
  · intro entry he
    cases he
  · intro t ht data hd
    have hmem : t∈remoteTags := ht
    simp only [remoteTags,List.mem_cons,List.not_mem_nil,or_false] at hmem
    rcases hmem with rfl|rfl|rfl|rfl|rfl <;> cases hd
  · intro entry he
    cases he

/-- State after one request. -/
def sampleHandled : World :=
  ((messageSystem (interceptConfig keep)).execute 40 (sampleIntercepted keep)
    [.request sampleFull]).getD accepted

/-- A connection with one request. -/
theorem sample_request_handled :
    (messageSystem (interceptConfig keep)).Run (sampleIntercepted keep) [.request sampleFull]
        sampleHandled ∧
      ∃ seen, sampleHandled.log=(sampleIntercepted keep).log++seen ∧
        Faithful keep [sampleFull] seen := by
  have hrun : (messageSystem (interceptConfig keep)).Run (sampleIntercepted keep)
      [.request sampleFull] sampleHandled := System.execute_run accepted rfl
  obtain ⟨seen,hlog,hiff⟩ := requests_handled_iff_single (wired_sample keep)
    (fun _ _ _ => ⟨rfl,rfl⟩) rfl hrun
  exact ⟨hrun,seen,hlog,hiff.mpr (Nat.le_refl 1)⟩

/-- The SOCKS exchange and the same request twice. -/
def sampleTwice : List Event :=
  sampleExchange++[.read .client sampleBytes,.read .client sampleBytes]

/-- State after these events. -/
def sampleThrown : World :=
  ((system (interceptConfig keep)).execute 40 accepted sampleTwice).getD accepted

/-- A client that sends two requests: the second one throws and is not given to
the interceptor. -/
theorem second_request_throws :
    (system (interceptConfig keep)).Run accepted sampleTwice sampleThrown ∧
      sampleThrown.log.count (.requestRead sampleFull)=2 ∧
      .threw .client .illegalArgument∈sampleThrown.log ∧ (calls sampleThrown.log).length=1 ∧
      ¬Faithful keep [sampleFull,sampleFull] sampleThrown.log := by
  have hcalls : (calls sampleThrown.log).length=1 := by decide
  refine ⟨System.execute_run accepted (by decide),by decide,by decide,hcalls,fun h => ?_⟩
  rw [h.intercepted] at hcalls
  cases hcalls

end Results

end ProxyDroid.InterceptedRuns
