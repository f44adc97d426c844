import ProxyDroid.ConnectionInvariants
import ProxyDroid.PipelineViews

/-!
# Writes below the HTTP codecs

Encoded bytes pass the TLS handlers of a channel and are queued. The socket
may take them at once, and a listener of an intercepted response then closes
the client channel behind an empty write. None of this reaches a handler
above the codecs: the handlers stay, up to the histories of their codecs, and
nothing is observed.
-/

namespace ProxyDroid.InterceptedWrites

open CallSemantics HandlerPipeline PipelineViews ConnectionTypes ConnectionHandlers
open ConnectionSystem ConnectionRules ConnectionInvariants

/-- A handler without the history of its codec; that of a request decoder is
kept. -/
def dim : Handler → Handler
  | .sslHandler _ => .sslHandler []
  | .httpResponseDecoder _ => .httpResponseDecoder []
  | .httpObjectAggregator _ => .httpObjectAggregator []
  | .httpRequestEncoder _ => .httpRequestEncoder []
  | .httpResponseEncoder _ => .httpResponseEncoder []
  | h => h

/-- Name and handler of a context, without the history of its codec. -/
def tag (c : Ctx Label Handler) : Option Label×Handler := (c.label,dim c.handler)

/-- Whether the handler of a tag acts on an event. -/
def takesEvent (event : Inbound) (t : Option Label×Handler) : Bool := reacts event t.2

/-- Whether the handler of a tag acts on a write. -/
def takesWrite (message : Msg) (t : Option Label×Handler) : Bool := intercepts message t.2

/-- Histories do not decide which events a handler takes. -/
theorem reacts_tag (event : Inbound) (c : Ctx Label Handler) :
    reacts event c.handler=takesEvent event (tag c) := by
  obtain ⟨id,label,h⟩ := c
  cases event with
  | read message => cases h <;> first | rfl | (cases message <;> rfl)
  | registered | active | readComplete | inactive | exceptionCaught cause => cases h <;> rfl

/-- Histories do not decide which writes a handler takes. -/
theorem intercepts_tag (message : Msg) (c : Ctx Label Handler) :
    intercepts message c.handler=takesWrite message (tag c) := by
  obtain ⟨id,label,h⟩ := c
  cases message with
  | http object => cases object <;> cases h <;> rfl
  | bytes | socks | encoded | fullRequest | fullResponse => cases h <;> rfl

/-- The handlers of a side, without the histories of their codecs. -/
abbrev tags (w : World) (s : Side) : List (Option Label×Handler) := view tag (w.pipe s)

/-- A handler that lets raw bytes pass, or a TLS handler. -/
def Carrier (t : Option Label×Handler) : Prop :=
  ∀ data, takesWrite (.bytes data) t=true → t.2=.sslHandler []

/-- TLS engines wrap what is written to them without failing. -/
def Wraps (cfg : Config) : Prop :=
  ∀ s history data, (cfg.tls s history (.fromPipeline data)).plain=[] ∧
    (cfg.tls s history (.fromPipeline data)).failed=false

/-- What happens below the codecs of a side, with or without closing it. -/
structure Below (closing : Bool) (s : Side) (w w' : World) : Prop where
  /-- All handlers stay. -/
  same : ∀ t, Same tag (w.pipe t) (w'.pipe t)
  /-- Nothing is observed. -/
  log : w'.log=w.log
  /-- The channel is not opened. -/
  active : w'.isActive s=true → w.isActive s=true
  /-- It may be closed only where that is said. -/
  stays : closing=false → w'.isActive s=w.isActive s
  /-- The other channel is left alone. -/
  other : ∀ t, t≠s → w'.isActive t=w.isActive t ∧ (w'.chan t).queue=(w.chan t).queue ∧
    (w'.chan t).life=(w.chan t).life

/-- A side that was connected, whose handlers carry bytes and for whose writes
only some listeners wait. -/
structure Calm (C : Listener → Prop) (w : World) (s : Side) : Prop where
  /-- Only TLS handlers take bytes that are written. -/
  carriers : ∀ t∈tags w s, Carrier t
  /-- The channel is open or closed. -/
  life : (w.chan s).life=.active ∨ (w.chan s).life=.closed
  /-- The listeners that wait. -/
  queue : ∀ entry∈(w.chan s).queue, C entry.2

/-- Listeners that at most close their channel. -/
def Final (listener : Listener) : Prop := listener=.none ∨ listener=.close

/-- Writes that nobody waits for. -/
def Unheard (listener : Listener) : Prop := listener=.none

/-- Listeners of intercepted messages. -/
def Benign (listener : Listener) : Prop := Final listener ∨ listener=.responseWritten

section Below

variable {closing : Bool} {s : Side} {w w₁ w₂ : World}

theorem Below.tags (h : Below closing s w w₁) (t : Side) :
    InterceptedWrites.tags w₁ t=InterceptedWrites.tags w t := (h.same t).shown

theorem Below.refl (closing : Bool) (s : Side) (w : World) : Below closing s w w :=
  ⟨fun _ => .refl _ _,rfl,fun h => h,fun _ => rfl,fun _ _ => ⟨rfl,rfl,rfl⟩⟩

theorem Below.trans (h : Below closing s w w₁) (k : Below closing s w₁ w₂) :
    Below closing s w w₂ where
  same := fun t => (h.same t).trans (k.same t)
  log := k.log.trans h.log
  active := fun ha => h.active (k.active ha)
  stays := fun hc => (k.stays hc).trans (h.stays hc)
  other := fun t ht => ⟨(k.other t ht).1.trans (h.other t ht).1,
    (k.other t ht).2.1.trans (h.other t ht).2.1,(k.other t ht).2.2.trans (h.other t ht).2.2⟩

/-- A change of a channel that keeps its pipeline. -/
theorem below_upd {f : Channel → Channel} (hp : ∀ c, (f c).pipeline=c.pipeline)
    (ha : ∀ c, (f c).life=.active → c.life=.active)
    (hs : closing=false → ∀ c, (f c).life=c.life) : Below closing s w (w.upd s f) where
  same := by
    intro t
    by_cases hts : t=s
    · subst hts
      rw [World.pipe,World.pipe,chan_upd_same,hp]
      exact .refl _ _
    · rw [World.pipe,World.pipe,chan_upd_of_ne hts]
      exact .refl _ _
  log := upd_log
  active := by
    intro h
    rw [World.isActive,chan_upd_same,decide_eq_true_eq] at h
    rw [World.isActive,decide_eq_true_eq]
    exact ha _ h
  stays := by
    intro hc
    rw [World.isActive,chan_upd_same,hs hc]
    rfl
  other := by
    intro t ht
    rw [World.isActive,chan_upd_of_ne ht]
    exact ⟨rfl,rfl,rfl⟩

/-- A codec goes on with its history. -/
theorem below_assign {id : ℕ} {pre post : List (Option Label×Handler)}
    {x : Option Label×Handler} {h : Handler} (hv : Viewed tag (w.pipe s) id pre x post)
    (hx : x.2=dim h) : Below closing s w (w.updPipe s (fun p => p.assign id h)) where
  same := by
    intro t
    by_cases hts : t=s
    · subst hts
      rw [pipe_updPipe_same]
      refine same_assign hv (fun c hc => ?_)
      rw [←hc] at hx ⊢
      exact Prod.ext rfl hx.symm
    · rw [pipe_updPipe_of_ne hts]
      exact .refl _ _
  log := updPipe_log
  active := fun h => by rwa [updPipe_isActive] at h
  stays := fun _ => updPipe_isActive
  other := fun t _ => ⟨updPipe_isActive,updPipe_queue,updPipe_life⟩

end Below

section Writes

variable {cfg : Config} {closing : Bool} {s : Side} {w : World} {C : Listener → Prop} {listener : Listener}

/-- A listener of a closed channel is notified of a failure. -/
theorem runs_notify_lost (hl : listenerBody s false listener=[] ∨ listener=.close)
    (hc : (w.chan s).life=.closed) : Runs cfg w [.notify s listener false] w := by
  have hall : Runs cfg w ([((.bytes [] : Msg),listener)].map
      (fun entry => .notify s entry.2 false)) w := runs_notify_closed hc (by simpa using hl)
  exact hall

/-- One more write that nobody unexpected waits for. -/
theorem Calm.enqueue (h : Calm C w s) (hl : C listener) (message : Msg) :
    Calm C (w.enqueue s message listener) s := by
  refine ⟨?_,?_,fun entry he => ?_⟩
  · rw [tags,World.pipe,World.enqueue,chan_upd_same]
    exact h.carriers
  · rw [World.enqueue,chan_upd_same]
    exact h.life
  · rw [World.enqueue,chan_upd_same] at he
    rcases List.mem_append.mp he with he|he
    · exact h.queue entry he
    · rw [List.mem_singleton.mp he]
      exact hl

/-- A side is calm while its handlers, its life and its queue stay. -/
theorem Calm.of_same {w' : World} (h : Calm C w s) (ht : tags w' s=tags w s)
    (hl : (w'.chan s).life=(w.chan s).life) (hq : (w'.chan s).queue=(w.chan s).queue) :
    Calm C w' s :=
  ⟨ht ▸ h.carriers,hl ▸ h.life,hq ▸ h.queue⟩

theorem isActive_or_closed (h : Calm C w s) :
    w.isActive s=true ∨ (w.isActive s=false ∧ (w.chan s).life=.closed) := by
  rcases h.life with hl|hl
  · exact .inl (by simp [World.isActive,hl])
  · exact .inr ⟨by simp [World.isActive,hl],hl⟩

/-- Bytes that no TLS handler takes any more are queued and flushed, unless the
channel is closed. -/
theorem runs_head_bytes {source : Option ℕ} {data : Bytes}
    (hflush : ∀ w, Calm C w s → ∃ w', Runs cfg w [.flush s] w' ∧ Below closing s w w' ∧ Calm C w' s)
    (hl : C listener) (hfail : listenerBody s false listener=[] ∨ listener=.close)
    (hc : Calm C w s)
    (hp : perform cfg (.write s source (.bytes data) listener true) w=
      headWrite w s (.bytes data) listener true) :
    ∃ w', Runs cfg w [.write s source (.bytes data) listener true] w' ∧ Below closing s w w' ∧
      Calm C w' s := by
  rcases isActive_or_closed hc with ha|⟨hi,hclosed⟩
  · rw [headWrite_active (.inl ⟨data,rfl⟩) ha] at hp
    obtain ⟨w',hrun,hbelow,hcalm⟩ := hflush _ (hc.enqueue hl (.bytes data))
    have hqueued : Below closing s w (w.enqueue s (.bytes data) listener) :=
      below_upd (fun _ => rfl) (fun _ h => h) (fun _ _ => rfl)
    exact ⟨w',runs_of_call hp hrun,hqueued.trans hbelow,hcalm⟩
  · have hlost : headWrite w s (.bytes data) listener true=
        .call w [.notify s listener false] drop := by
      simp [headWrite,hi]
    rw [hlost] at hp
    exact ⟨w,runs_of_call hp (runs_notify_lost hfail hclosed),.refl closing s w,hc⟩

/-- The last element of a list with a property, if there is one. -/
theorem last_or_none {T : Type} (q : T → Bool) (l : List T) :
    (∀ y∈l, q y=false) ∨ ∃ a x b, l=a++x::b ∧ q x=true ∧ ∀ y∈b, q y=false := by
  induction l with
  | nil => exact .inl (by simp)
  | cons y l ih =>
    rcases ih with hnone|⟨a,x,b,rfl,hx,hb⟩
    · cases hy : q y with
      | true => exact .inr ⟨[],y,l,rfl,hy,hnone⟩
      | false =>
        refine .inl (fun z hz => ?_)
        rcases List.mem_cons.mp hz with rfl|hz
        · exact hy
        · exact hnone z hz
    · exact .inr ⟨y::a,x,b,rfl,hx,hb⟩

theorem eq_sslHandler {h : Handler} (hd : dim h=.sslHandler []) :
    ∃ history, h=.sslHandler history := by
  cases h <;> first | exact ⟨_,rfl⟩ | cases hd

/-- A TLS handler wraps what is written to it. -/
theorem step_wraps (hwraps : Wraps cfg) (id : ℕ) (history : List TlsInput) (data : Bytes) :
    SslHandler.step cfg s id history (.fromPipeline data) listener true=
      [.assign s id (.sslHandler (history++[.fromPipeline data])),
        .write s (some id) (.bytes (cfg.tls s history (.fromPipeline data)).network) listener
          true] := by
  obtain ⟨hplain,hfailed⟩ := hwraps s history data
  simp [SslHandler.step,hplain,hfailed]

/-- A TLS handler takes bytes and writes what it makes of them. -/
theorem runs_wrapped {source : Option ℕ} {id : ℕ} {pre post : List (Option Label×Handler)}
    {y : Option Label×Handler} {data : Bytes} (hwraps : Wraps cfg)
    (hv : Viewed tag (w.pipe s) id pre y post) (hssl : y.2=.sslHandler []) (hc : Calm C w s)
    (hp : ∀ h, (w.pipe s).find id=some h →
      perform cfg (.write s source (.bytes data) listener true) w=
        .call w (writeBody cfg s id (.bytes data) listener true h) drop)
    (hrest : ∀ w₁ data', Calm C w₁ s → Viewed tag (w₁.pipe s) id pre y post →
      ∃ w', Runs cfg w₁ [.write s (some id) (.bytes data') listener true] w' ∧ Below closing s w₁ w' ∧
        Calm C w' s) :
    ∃ w', Runs cfg w [.write s source (.bytes data) listener true] w' ∧ Below closing s w w' ∧
      Calm C w' s := by
  obtain ⟨c,-,hid,hcy,hfind⟩ := hv.find
  obtain ⟨history,hh⟩ : ∃ history, c.handler=.sslHandler history := by
    refine eq_sslHandler ?_
    rw [←hssl,←hcy]
    rfl
  rw [hh] at hfind
  have hwrite := hp _ hfind
  change _=Act.call w (SslHandler.step cfg s id history (.fromPipeline data) listener true) drop
    at hwrite
  rw [step_wraps hwraps] at hwrite
  have hassign : Below closing s w (w.updPipe s (fun p => p.assign id
      (.sslHandler (history++[.fromPipeline data])))) := below_assign hv hssl
  have hv₁ : Viewed tag ((w.updPipe s (fun p => p.assign id
      (.sslHandler (history++[.fromPipeline data])))).pipe s) id pre y post := by
    rw [pipe_updPipe_same]
    refine hv.assign (fun d hd => ?_)
    rw [←hd] at hssl ⊢
    exact Prod.ext rfl hssl.symm
  obtain ⟨w',hrun,hbelow,hcalm⟩ := hrest _ _
    (hc.of_same (hassign.tags s) updPipe_life updPipe_queue) hv₁
  exact ⟨w',runs_of_call hwrite (runs_assign.cons hrun),hassign.trans hbelow,hcalm⟩

/-- Bytes written by a context pass the TLS handlers before it. -/
theorem runs_bytes_from (hwraps : Wraps cfg)
    (hflush : ∀ w, Calm C w s → ∃ w', Runs cfg w [.flush s] w' ∧ Below closing s w w' ∧ Calm C w' s)
    (hl : C listener) (hfail : listenerBody s false listener=[] ∨ listener=.close) (n : ℕ) :
    ∀ (w : World) (pre post : List (Option Label×Handler)) (x : Option Label×Handler) (id : ℕ)
      (data : Bytes), pre.length=n → Calm C w s → Viewed tag (w.pipe s) id pre x post →
      ∃ w', Runs cfg w [.write s (some id) (.bytes data) listener true] w' ∧ Below closing s w w' ∧
        Calm C w' s := by
  -- every TLS handler passed leaves fewer contexts before the writing one
  induction n using Nat.strongRecOn with
  | ind n ih =>
    intro w pre post x id data hn hc hv
    have hcar : ∀ t∈pre++x::post, Carrier t := hv.view ▸ hc.carriers
    have hr := intercepts_tag (.bytes data)
    rcases last_or_none (takesWrite (.bytes data)) pre with hnone|⟨pre',y,mid,rfl,hy,hmid⟩
    · refine runs_head_bytes hflush hl hfail hc ?_
      simp only [perform,hv.prevWhere_none hr hnone]
    · obtain ⟨id',hprev,hv'⟩ := hv.prevWhere hr hmid hy
      have hlt : pre'.length<n := by
        rw [←hn,List.length_append,List.length_cons]
        omega
      refine runs_wrapped hwraps hv' (hcar y (by simp) data hy) hc (fun h hfind => ?_)
        (fun w₁ data' hc₁ hv₁ => ih _ hlt w₁ pre' _ y id' data' rfl hc₁ hv₁)
      simp only [perform,hprev,hfind]

/-- Bytes written to a channel pass all its TLS handlers. -/
theorem runs_bytes (hwraps : Wraps cfg)
    (hflush : ∀ w, Calm C w s → ∃ w', Runs cfg w [.flush s] w' ∧ Below closing s w w' ∧ Calm C w' s)
    (hl : C listener) (hfail : listenerBody s false listener=[] ∨ listener=.close)
    (hc : Calm C w s) (data : Bytes) :
    ∃ w', Runs cfg w [.write s none (.bytes data) listener true] w' ∧ Below closing s w w' ∧
      Calm C w' s := by
  have hr := intercepts_tag (.bytes data)
  rcases last_or_none (takesWrite (.bytes data)) (tags w s) with hnone|⟨pre,y,mid,hsplit,hy,hmid⟩
  · refine runs_head_bytes hflush hl hfail hc ?_
    simp only [perform,lastWhere_viewed_none hr hnone]
  · obtain ⟨id,hlast,hv⟩ := lastWhere_viewed hr hsplit hmid hy
    have hcar : ∀ t∈pre++y::mid, Carrier t := hsplit ▸ hc.carriers
    refine runs_wrapped hwraps hv (hcar y (by simp) data hy) hc (fun h hfind => ?_)
      (fun w₁ data' hc₁ hv₁ => runs_bytes_from hwraps hflush hl hfail _ w₁ pre _ y id data' rfl
        hc₁ hv₁)
    simp only [perform,hlast,hfind]

variable {D : Listener → Prop}

/-- Listeners are notified one after the other. -/
theorem runs_notify_all
    (hone : ∀ w₁ listener, Calm D w₁ s → C listener →
      ∃ w', Runs cfg w₁ [.notify s listener true] w' ∧ Below closing s w₁ w' ∧ Calm D w' s)
    (entries : List (Msg×Listener)) (hq : ∀ entry∈entries, C entry.2) (hc : Calm D w s) :
    ∃ w', Runs cfg w (entries.map (fun entry => .notify s entry.2 true)) w' ∧ Below closing s w w' ∧
      Calm D w' s := by
  induction entries generalizing w with
  | nil => exact ⟨w,runs_nil,.refl closing s w,hc⟩
  | cons entry entries ih =>
    obtain ⟨w₁,hrun₁,hbelow₁,hc₁⟩ := hone w entry.2 hc (hq _ List.mem_cons_self)
    obtain ⟨w₂,hrun₂,hbelow₂,hc₂⟩ := ih (fun e he => hq e (List.mem_cons_of_mem _ he)) hc₁
    exact ⟨w₂,hrun₁.cons hrun₂,hbelow₁.trans hbelow₂,hc₂⟩

/-- The socket takes the whole queue, and the listeners are notified. -/
theorem runs_drained
    (hone : ∀ w₁ listener, Calm D w₁ s → C listener →
      ∃ w', Runs cfg w₁ [.notify s listener true] w' ∧ Below closing s w₁ w' ∧ Calm D w' s)
    (hc : Calm C w s) :
    ∃ w', Runs cfg (w.takeQueue s) ((w.chan s).queue.map (fun entry => .notify s entry.2 true)) w' ∧
      Below closing s w w' ∧ Calm D w' s := by
  have htaken : Below closing s w (w.takeQueue s) := below_upd (fun _ => rfl) (fun _ h => h) (fun _ _ => rfl)
  have hempty : Calm D (w.takeQueue s) s := by
    refine ⟨htaken.tags s ▸ hc.carriers,?_,?_⟩
    · rw [World.takeQueue,chan_upd_same]
      exact hc.life
    · rw [World.takeQueue,chan_upd_same]
      simp
  obtain ⟨w',hrun,hbelow,hc'⟩ := runs_notify_all hone (w.chan s).queue hc.queue hempty
  exact ⟨w',hrun,htaken.trans hbelow,hc'⟩

/-- A flush hands the queue to the socket, which may take it at once. -/
theorem runs_flush_calm
    (hone : ∀ w₁ listener, Calm D w₁ s → C listener →
      ∃ w', Runs cfg w₁ [.notify s listener true] w' ∧ Below closing s w₁ w' ∧ Calm D w' s)
    (hDC : ∀ listener, D listener → C listener) (hc : Calm C w s) :
    ∃ w', Runs cfg w [.flush s] w' ∧ Below closing s w w' ∧ Calm C w' s := by
  have hpipe : ∀ t, w.attempt.chan t=w.chan t := fun t => by cases t <;> rfl
  have hattempt : Below closing s w w.attempt := by
    refine ⟨fun t => ?_,rfl,fun h => ?_,fun _ => ?_,fun t _ => ?_⟩
    · rw [World.pipe,World.pipe,hpipe]
      exact .refl _ _
    · rwa [World.isActive,hpipe] at h
    · rw [World.isActive,hpipe]
      rfl
    · rw [World.isActive,hpipe]
      exact ⟨rfl,rfl,rfl⟩
  have hcalm : Calm C w.attempt s :=
    hc.of_same (hattempt.tags s) (by rw [hpipe]) (by rw [hpipe])
  cases hn : cfg.flushNow w.flushes with
  | false => exact ⟨w.attempt,runs_flush_later hn,hattempt,hcalm⟩
  | true =>
    obtain ⟨w',hrun,hbelow,hc'⟩ := runs_drained hone hcalm
    rw [hpipe] at hrun
    exact ⟨w',runs_flush_now hn hrun,hattempt.trans hbelow,hc'.carriers,hc'.life,
      fun entry he => hDC _ (hc'.queue entry he)⟩

/-- Writes that nobody waits for leave their channel open. -/
theorem runs_flush_unheard (hc : Calm Unheard w s) :
    ∃ w', Runs cfg w [.flush s] w' ∧ Below false s w w' ∧ Calm Unheard w' s := by
  refine runs_flush_calm (fun w₁ listener hc₁ hl => ?_) (fun _ h => h) hc
  rw [hl]
  exact ⟨w₁,runs_of_call rfl runs_nil,.refl false s w₁,hc₁⟩

theorem Final.lost {ok : Bool} (h : Final listener) :
    listenerBody s ok listener=[] ∨ listener=.close := by
  rcases h with rfl|rfl
  · exact .inl rfl
  · exact .inr rfl

theorem Benign.lost (h : Benign listener) :
    listenerBody s false listener=[] ∨ listener=.close := by
  rcases h with h|rfl
  · exact h.lost
  · exact .inl rfl

/-- Closing a channel fails what is queued. -/
theorem runs_close_calm (cfg : Config) (hD : ∀ listener, D listener → Benign listener) (hc : Calm D w s) :
    ∃ w', Runs cfg w [.close s] w' ∧ Below true s w w' ∧ Calm D w' s ∧ w'.isActive s=false := by
  rcases isActive_or_closed hc with ha|⟨hi,hclosed⟩
  · have hshut : Below true s w (w.upd s shut) := below_upd (fun _ => rfl) (fun _ h => by cases h) (by simp)
    refine ⟨w.upd s shut,runs_close ha (fun entry he => (hD _ (hc.queue entry he)).lost),hshut,
      ⟨hshut.tags s ▸ hc.carriers,?_,?_⟩,?_⟩
    · rw [chan_upd_same]
      exact .inr rfl
    · rw [chan_upd_same]
      simp [shut]
    · rw [World.isActive,chan_upd_same]
      rfl
  · refine ⟨w,runs_of_done ?_,.refl true s w,hc,hi⟩
    simp only [perform,hclosed]

/-- A listener that at most closes its channel. -/
theorem runs_notify_final (hc : Calm Final w s) (hl : Final listener) :
    ∃ w', Runs cfg w [.notify s listener true] w' ∧ Below true s w w' ∧ Calm Final w' s := by
  rcases hl with rfl|rfl
  · exact ⟨w,runs_of_call rfl runs_nil,.refl true s w,hc⟩
  · obtain ⟨w',hrun,hbelow,hc',-⟩ := runs_close_calm cfg (fun _ h => .inl h) hc
    exact ⟨w',runs_of_call rfl hrun,hbelow,hc'⟩

theorem runs_flush_final (hc : Calm Final w s) :
    ∃ w', Runs cfg w [.flush s] w' ∧ Below true s w w' ∧ Calm Final w' s :=
  runs_flush_calm (fun _ _ => runs_notify_final) (fun _ h => h) hc

/-- `closeOnFlush` where at most closing listeners wait. -/
theorem runs_closeOnFlush_final (hwraps : Wraps cfg) (hc : Calm Final w s) :
    ∃ w', Runs cfg w [.closeOnFlush s] w' ∧ Below true s w w' ∧ Calm Final w' s := by
  cases ha : w.isActive s with
  | false =>
    refine ⟨w,runs_of_done ?_,.refl true s w,hc⟩
    simp [perform,ha]
  | true =>
    have hp : perform cfg (.closeOnFlush s) w=
        .call w [.write s none (.bytes []) .close true] drop := by
      simp [perform,ha]
    have hwrite : ∃ w', Runs cfg w [.write s none (.bytes []) .close true] w' ∧ Below true s w w' ∧
        Calm Final w' s :=
      runs_bytes hwraps (fun _ => runs_flush_final) (.inr rfl) (.inr rfl) hc []
    obtain ⟨w',hrun,hbelow,hc'⟩ := hwrite
    exact ⟨w',runs_of_call hp hrun,hbelow,hc'⟩

/-- A listener of the client channel. -/
theorem runs_notify_benign (hwraps : Wraps cfg) (hc : Calm Final w .client)
    (hl : Benign listener) :
    ∃ w', Runs cfg w [.notify .client listener true] w' ∧ Below true .client w w' ∧
      Calm Final w' .client := by
  rcases hl with hl|rfl
  · exact runs_notify_final hc hl
  · obtain ⟨w',hrun,hbelow,hc'⟩ := runs_closeOnFlush_final hwraps hc
    exact ⟨w',runs_of_call rfl hrun,hbelow,hc'⟩

theorem runs_flush_benign (hwraps : Wraps cfg) (hc : Calm Benign w .client) :
    ∃ w', Runs cfg w [.flush .client] w' ∧ Below true .client w w' ∧ Calm Benign w' .client :=
  runs_flush_calm (fun _ _ => runs_notify_benign hwraps) (fun _ h => .inl h) hc

end Writes

end ProxyDroid.InterceptedWrites
