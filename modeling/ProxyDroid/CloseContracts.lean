import ProxyDroid.ConnectionInvariants
import ProxyDroid.TunnelPhases

/-!
# How the end of a channel spreads through a tunnel

Every statement that the handlers of an open tunnel execute has a contract:
which handlers stay in their pipelines, who may close a channel, and what is
still to happen to a channel whose peer has been closed. The contract of a
statement follows from the contracts of the statements it calls, so all
handlers, codecs and interleavings of listeners are covered at once.
-/

namespace ProxyDroid.CloseContracts

open CallSemantics HandlerPipeline ConnectionTypes ConnectionHandlers ConnectionSystem
open ConnectionRules ConnectionInvariants TunnelPhases

/-- What a handler is to the end of its channel. -/
inductive Role where
  /-- It passes the end of its channel on. -/
  | relay
  /-- It leaves the pipeline. -/
  | guest
  /-- It is installed together with a relay handler. -/
  | interceptor
  /-- Any other handler. -/
  | resident
  deriving DecidableEq

/-- Role of a handler. -/
def role : Handler → Role
  | .relayHandler => .relay
  | .sniHandler _ _ => .guest
  | .httpCheckHandler _ => .guest
  | .httpMessageHandler _ => .interceptor
  | .mitmHandler _ => .interceptor
  | _ => .resident

theorem eq_relay {h : Handler} (hr : role h=.relay) : h=.relayHandler := by
  cases h <;> first | rfl | cases hr

/-- Handlers that the pipeline of a side may hold once the promise of the
request has succeeded. -/
def Tunnelled (s : Side) : Handler → Prop
  | .protocolSelectHandler _ _ => s=.client
  | .sniHandler _ _ => s=.client
  | .httpInterceptorHandler _ => s=.client
  | .httpCheckHandler _ => s=.client
  | .httpMessageHandler _ => s=.client
  | .mitmHandler _ => s=.client
  | .correctCRLFHander => s=.client
  | .sslHandler _ => True
  | .httpRequestDecoder _ => True
  | .httpResponseDecoder _ => True
  | .httpRequestEncoder _ => True
  | .httpResponseEncoder _ => True
  | .httpObjectAggregator _ => True
  | .relayHandler => True
  | h => Idle h

section States

variable (w w' : World) (s : Side)

/-- The channel of a side is closed. -/
def Shut : Prop := (w.chan s).life=.closed

/-- The end of a side would be passed on, or has nobody left to be passed to. -/
def MayClose : Prop := .relayHandler∈w.handlers s ∨ Shut w s.other

/-- The channel is closed, or will be once its queue is flushed. -/
def Ending : Prop := Shut w s ∨ ∃ message, (message,.close)∈(w.chan s).queue

/-- Listeners that writes to a side may have. -/
def Permitted : Listener → Prop
  | .none => True
  | .close => MayClose w s
  | .responseWritten => s=.client ∧ MayClose w s
  | _ => False

/-- A closed channel still has to tell its relay handler, or the other channel
is ending. -/
def Linked : Prop :=
  Shut w s → ((w.chan s).inactivePending=true ∧ .relayHandler∈w.handlers s) ∨ Ending w s.other

/-- What every statement of an open tunnel keeps. -/
structure Sound : Prop where
  /-- Both channels have been opened. -/
  opened : ∀ s, (w.chan s).life=.active ∨ Shut w s
  /-- The handlers are those of a tunnel. -/
  tunnelled : ∀ s, ∀ h∈w.handlers s, Tunnelled s h
  /-- Interceptors stand together with a relay handler. -/
  intercepted : ∀ s, ∀ h∈w.handlers s, role h=.interceptor → .relayHandler∈w.handlers s
  /-- The name that `MitmInitializer` uses belongs to an interceptor. -/
  named : ∀ s, ∀ c∈(w.pipe s).contexts, c.label=some .httpMessageHandler →
    role c.handler=.interceptor
  /-- Who waits for a write may do what it does. -/
  permitted : ∀ s, ∀ entry∈(w.chan s).queue, Permitted w s entry.2
  /-- A closed channel has no queue. -/
  unqueued : ∀ s, Shut w s → (w.chan s).queue=[]

/-- Later states of both channels. -/
structure Grows : Prop where
  /-- Relay handlers, decoders and interceptors stay. -/
  pipes : ∀ s, Pipeline.Evolves role (fun r => r=.guest) (w.pipe s) (w'.pipe s)
  /-- A closed channel stays closed. -/
  shut : ∀ s, Shut w s → Shut w' s

/-- What a statement, as a whole, keeps. -/
structure Kept : Prop where
  /-- The state is sound. -/
  sound : Sound w'
  /-- It is a later state. -/
  grows : Grows w w'
  /-- Channels that are ending go on ending. -/
  ending : ∀ s, Ending w s → Ending w' s
  /-- The end of a channel is not forgotten. -/
  linked : ∀ s, Linked w s → Linked w' s

end States

section Kept

variable {w w' w'' : World} {s : Side}

theorem shut_or_active (h : Sound w) (s : Side) : Shut w s ∨ w.isActive s=true := by
  rcases h.opened s with ha|hs
  · exact .inr (decide_eq_true ha)
  · exact .inl hs

theorem shut_of_inactive (h : Sound w) (ha : ¬w.isActive s=true) : Shut w s :=
  (shut_or_active h s).resolve_right ha

theorem Grows.refl (w : World) : Grows w w := ⟨fun _ => .refl _,fun _ h => h⟩

theorem Grows.trans (h : Grows w w') (k : Grows w' w'') : Grows w w'' :=
  ⟨fun s => (h.pipes s).trans (k.pipes s),fun s hs => k.shut s (h.shut s hs)⟩

/-- Relay handlers stay where they are. -/
theorem Grows.relay (h : Grows w w') (hr : .relayHandler∈w.handlers s) :
    .relayHandler∈w'.handlers s := by
  obtain ⟨c,hc,hh⟩ := List.mem_map.mp hr
  have hrole : role c.handler=.relay := by
    rw [hh]
    rfl
  obtain ⟨d,hd,-,hkind⟩ := (h.pipes s).stays hc (by simp [hrole])
  have hd' : d.handler=.relayHandler := eq_relay (hkind.trans hrole)
  exact hd' ▸ List.mem_map_of_mem hd

theorem Grows.mayClose (h : Grows w w') (hm : MayClose w s) : MayClose w' s :=
  hm.imp h.relay (h.shut _)

theorem Grows.permitted (h : Grows w w') {listener : Listener} (hp : Permitted w s listener) :
    Permitted w' s listener := by
  cases listener with
  | none => trivial
  | close => exact h.mayClose hp
  | responseWritten => exact ⟨hp.1,h.mayClose hp.2⟩
  | connected | greetingSent | requestSent => exact hp

theorem Kept.refl (h : Sound w) : Kept w w := ⟨h,.refl w,fun _ h => h,fun _ h => h⟩

theorem Kept.trans (h : Kept w w') (k : Kept w' w'') : Kept w w'' :=
  ⟨k.sound,h.grows.trans k.grows,fun s hs => k.ending s (h.ending s hs),
    fun s hs => k.linked s (h.linked s hs)⟩

/-- Pipelines and lives that do not change. -/
theorem grows_of_eq (hpipe : ∀ s, w'.pipe s=w.pipe s)
    (hlife : ∀ s, (w'.chan s).life=(w.chan s).life) : Grows w w' := by
  refine ⟨fun s => ?_,fun s hs => ?_⟩
  · rw [hpipe s]
    exact .refl _
  · rw [Shut,hlife s]
    exact hs

/-- A step that leaves the pipelines and the lives of both channels alone and
puts at most permitted writes into the queues. -/
theorem kept_of_queues (h : Sound w) (hpipe : ∀ s, w'.pipe s=w.pipe s)
    (hlife : ∀ s, (w'.chan s).life=(w.chan s).life)
    (hpending : ∀ s, (w'.chan s).inactivePending=(w.chan s).inactivePending)
    (hqueue : ∀ s, ∃ more, (w'.chan s).queue=(w.chan s).queue++more ∧
      (Shut w s → more=[]) ∧ ∀ entry∈more, Permitted w s entry.2) : Kept w w' := by
  have hgrows : Grows w w' := grows_of_eq hpipe hlife
  have hhandlers : ∀ s, w'.handlers s=w.handlers s := fun s => congrArg Pipeline.handlers (hpipe s)
  have hshut : ∀ s, Shut w' s ↔ Shut w s := fun s => by rw [Shut,hlife s,Shut]
  have hending : ∀ s, Ending w s → Ending w' s := by
    rintro s (hs|⟨message,hm⟩)
    · exact .inl (hgrows.shut s hs)
    · obtain ⟨more,hq,-,-⟩ := hqueue s
      exact .inr ⟨message,hq ▸ List.mem_append_left _ hm⟩
  refine ⟨⟨fun s => ?_,fun s => ?_,fun s => ?_,fun s => ?_,fun s => ?_,fun s hs => ?_⟩,hgrows,
    hending,fun s hl hs => ?_⟩
  · rw [hlife s,hshut s]
    exact h.opened s
  · rw [hhandlers s]
    exact h.tunnelled s
  · rw [hhandlers s]
    exact h.intercepted s
  · rw [hpipe s]
    exact h.named s
  · obtain ⟨more,hq,-,hp⟩ := hqueue s
    rw [hq]
    intro entry he
    rcases List.mem_append.mp he with he|he
    · exact hgrows.permitted (h.permitted s entry he)
    · exact hgrows.permitted (hp entry he)
  · obtain ⟨more,hq,hnone,-⟩ := hqueue s
    have hs' := (hshut s).mp hs
    rw [hq,h.unqueued s hs',hnone hs']
    rfl
  · rw [hpending s,hhandlers s]
    exact (hl ((hshut s).mp hs)).imp id (hending _)

/-- A step that changes neither channel. -/
theorem kept_of_eq (h : Sound w) (hc : w'.client=w.client) (hr : w'.remote=w.remote) :
    Kept w w' := by
  have hchan : ∀ s, w'.chan s=w.chan s := by
    intro s
    cases s
    · exact hc
    · exact hr
  refine kept_of_queues h (fun s => congrArg Channel.pipeline (hchan s))
    (fun s => congrArg Channel.life (hchan s)) (fun s => congrArg Channel.inactivePending (hchan s))
    (fun s => ⟨[],?_,fun _ => rfl,by simp⟩)
  rw [hchan s,List.append_nil]

/-- A permitted write is queued. -/
theorem kept_enqueue (h : Sound w) {message : Msg} {listener : Listener}
    (ha : w.isActive s=true) (hp : Permitted w s listener) :
    Kept w (w.enqueue s message listener) := by
  have hlife : (w.chan s).life=.active := of_decide_eq_true ha
  refine kept_of_queues h (fun t => ?_) (fun t => ?_) (fun t => ?_) (fun t => ?_)
  · cases s <;> cases t <;> rfl
  · cases s <;> cases t <;> rfl
  · cases s <;> cases t <;> rfl
  · by_cases hts : t=s
    · subst hts
      refine ⟨[(message,listener)],?_,fun hs => ?_,fun entry he => ?_⟩
      · rw [World.enqueue,chan_upd_same]
      · rw [Shut,hlife] at hs
        cases hs
      · rw [List.mem_singleton.mp he]
        exact hp
    · refine ⟨[],?_,fun _ => rfl,by simp⟩
      rw [World.enqueue,chan_upd_of_ne hts,List.append_nil]

/-- A pipeline evolves. -/
theorem kept_updPipe (h : Sound w) {g : Pipeline Label Handler → Pipeline Label Handler}
    (he : Pipeline.Evolves role (fun r => r=.guest) (w.pipe s) (g (w.pipe s)))
    (ht : ∀ x∈(g (w.pipe s)).handlers, Tunnelled s x)
    (hi : ∀ x∈(g (w.pipe s)).handlers, role x=.interceptor →
      .relayHandler∈w.handlers s ∨ .relayHandler∈(g (w.pipe s)).handlers)
    (hn : ∀ c∈(g (w.pipe s)).contexts, c.label=some .httpMessageHandler →
      role c.handler=.interceptor) : Kept w (w.updPipe s g) := by
  have hlife : ∀ t, ((w.updPipe s g).chan t).life=(w.chan t).life := fun t => updPipe_life
  have hqueue : ∀ t, ((w.updPipe s g).chan t).queue=(w.chan t).queue := fun t => updPipe_queue
  have hpending : ∀ t, ((w.updPipe s g).chan t).inactivePending=(w.chan t).inactivePending := by
    intro t
    cases s <;> cases t <;> rfl
  have hshut : ∀ t, Shut (w.updPipe s g) t ↔ Shut w t := fun t => by rw [Shut,hlife t,Shut]
  have hgrows : Grows w (w.updPipe s g) := by
    refine ⟨fun t => ?_,fun t => (hshut t).mpr⟩
    by_cases hts : t=s
    · subst hts
      rw [pipe_updPipe_same]
      exact he
    · rw [pipe_updPipe_of_ne hts]
      exact .refl _
  have hending : ∀ t, Ending w t → Ending (w.updPipe s g) t := by
    intro t ht
    rw [Ending,hshut t,hqueue t]
    exact ht
  refine ⟨⟨fun t => ?_,fun t => ?_,fun t => ?_,fun t => ?_,fun t => ?_,fun t hs => ?_⟩,hgrows,
    hending,fun t hl hs => ?_⟩
  · rw [hlife t,hshut t]
    exact h.opened t
  · by_cases hts : t=s
    · subst hts
      rw [handlers_updPipe_same]
      exact ht
    · rw [handlers_updPipe_of_ne hts]
      exact h.tunnelled t
  · by_cases hts : t=s
    · subst hts
      intro y hy hrole
      rw [handlers_updPipe_same] at hy
      rcases hi y hy hrole with hr|hr
      · exact hgrows.relay hr
      · rw [handlers_updPipe_same]
        exact hr
    · rw [handlers_updPipe_of_ne hts]
      exact h.intercepted t
  · by_cases hts : t=s
    · subst hts
      rw [pipe_updPipe_same]
      exact hn
    · rw [pipe_updPipe_of_ne hts]
      exact h.named t
  · rw [hqueue t]
    exact fun entry he => hgrows.permitted (h.permitted t entry he)
  · rw [hqueue t]
    exact h.unqueued t ((hshut t).mp hs)
  · rw [hpending t]
    exact (hl ((hshut t).mp hs)).imp (fun hr => ⟨hr.1,hgrows.relay hr.2⟩) (hending _)

/-- An open channel that may be closed is closed. -/
theorem kept_shut (h : Sound w) (hm : MayClose w s) : Kept w (w.upd s shut) := by
  have hpipe : ∀ t, (w.upd s shut).pipe t=w.pipe t := by
    intro t
    cases s <;> cases t <;> rfl
  have hhandlers : ∀ t, (w.upd s shut).handlers t=w.handlers t :=
    fun t => congrArg Pipeline.handlers (hpipe t)
  have hdone : Shut (w.upd s shut) s := by
    rw [Shut,chan_upd_same]
    rfl
  have hgrows : Grows w (w.upd s shut) := by
    refine ⟨fun t => ?_,fun t ht => ?_⟩
    · rw [hpipe t]
      exact .refl _
    · by_cases hts : t=s
      · exact hts ▸ hdone
      · rw [Shut,chan_upd_of_ne hts]
        exact ht
  have hending : ∀ t, Ending w t → Ending (w.upd s shut) t := by
    intro t ht
    by_cases hts : t=s
    · exact .inl (hts ▸ hdone)
    · rw [Ending,Shut,chan_upd_of_ne hts]
      exact ht
  refine ⟨⟨fun t => ?_,fun t => ?_,fun t => ?_,fun t => ?_,fun t => ?_,fun t hs => ?_⟩,hgrows,
    hending,fun t hl hs => ?_⟩
  · by_cases hts : t=s
    · exact .inr (hts ▸ hdone)
    · rw [Shut,chan_upd_of_ne hts]
      exact h.opened t
  · rw [hhandlers t]
    exact h.tunnelled t
  · rw [hhandlers t]
    exact h.intercepted t
  · rw [hpipe t]
    exact h.named t
  · by_cases hts : t=s
    · subst hts
      rw [chan_upd_same]
      exact fun entry he => absurd he (by simp [shut])
    · rw [chan_upd_of_ne hts]
      exact fun entry he => hgrows.permitted (h.permitted t entry he)
  · by_cases hts : t=s
    · subst hts
      rw [chan_upd_same]
      rfl
    · rw [chan_upd_of_ne hts]
      rw [Shut,chan_upd_of_ne hts] at hs
      exact h.unqueued t hs
  · by_cases hts : t=s
    · subst hts
      rw [chan_upd_same,hhandlers t]
      exact hm.imp (fun hr => ⟨rfl,hr⟩) (fun ho => .inl (hgrows.shut _ ho))
    · have hother : t.other=s := by cases s <;> cases t <;> first | rfl | exact absurd rfl hts
      rw [hother]
      exact .inr (.inl hdone)

end Kept

/-- A context holds a handler of a role, or has left. -/
def Holds (w : World) (s : Side) (id : ℕ) (r : Role) : Prop :=
  id<(w.pipe s).nextId ∧ ∀ c∈(w.pipe s).contexts, c.id=id → role c.handler=r

/-- A handler that may be added to a side. -/
def Fit (w : World) (s : Side) (h : Handler) : Prop :=
  Tunnelled s h ∧ (role h=.interceptor → .relayHandler∈w.handlers s)

/-- Statements that the handlers of a tunnel may execute. -/
def Licensed (w : World) : Stmt → Prop
  | .addLast s label h => Fit w s h ∧ label≠some .httpMessageHandler
  | .addFirst s label h => Fit w s h ∧ label≠some .httpMessageHandler
  | .addAfterCtx s _ h => Fit w s h
  | .addAfter s _ label h => Fit w s h ∧ label≠.httpMessageHandler
  | .addBefore s _ label h => Fit w s h ∧ label≠.httpMessageHandler
  | .remove s id => Holds w s id .guest
  | .replace s id label h => Holds w s id .guest ∧ Fit w s h ∧ label≠.httpMessageHandler
  | .assign s id h => Fit w s h ∧ Holds w s id (role h)
  | .pipelineFire s event => event=.inactive → Shut w s
  | .ctxFire s _ event => event=.inactive → Shut w s
  | .invoke s _ event => event=.inactive → Shut w s
  | .write s _ _ listener _ => Permitted w s listener
  | .notify s listener _ => Permitted w s listener
  | .closeOnFlush s => MayClose w s
  | .close s => MayClose w s
  | .destroy _ => False
  | .newPromise _ _ => False
  | .setSuccess => False
  | .setFailure => False
  | .connect _ _ _ _ _ => False
  | .addInitializer _ | .flush _ | .drain _ | .raise _ | .noteSelected _ | .noteReply _
  | .noteRequest _ | .noteOnRequest _ | .noteOnResponse _ | .noteEncoded _ _ => True

/-- A relay handler comes after the context `id`. -/
abbrev RelayAhead (w : World) (s : Side) (id : ℕ) : Prop := (w.pipe s).Ahead role .relay id

/-- What a statement achieves for the channel it is about. -/
def Achieves (w w' : World) : Stmt → Prop
  | .close s => Shut w' s
  | .notify s .close _ => Shut w' s
  | .closeOnFlush s => Ending w' s
  | .write s _ (.bytes _) .close _ => Ending w' s
  | .pipelineFire s .inactive => .relayHandler∈w.handlers s → Ending w' s.other
  | .ctxFire s id .inactive => RelayAhead w s id → Ending w' s.other
  | _ => True

/-- Statements that never throw. -/
def Calm : Stmt → Prop
  | .addLast _ _ _ => False
  | .addFirst _ _ _ => False
  | .addAfterCtx _ _ _ => False
  | .addAfter _ _ _ _ => False
  | .addBefore _ _ _ _ => False
  | .remove _ _ => False
  | .replace _ _ _ _ => False
  | .setSuccess => False
  | .setFailure => False
  | .raise _ => False
  | .addInitializer _ | .assign _ _ _ | .pipelineFire _ _ | .ctxFire _ _ _ | .invoke _ _ _
  | .write _ _ _ _ _ | .flush _ | .drain _ | .notify _ _ _ | .closeOnFlush _ | .close _
  | .destroy _ | .newPromise _ _ | .connect _ _ _ _ _ | .noteSelected _ | .noteReply _
  | .noteRequest _ | .noteOnRequest _ | .noteOnResponse _ | .noteEncoded _ _ => True

/-- What a licensed statement does to a sound state. -/
structure Outcome (stmt : Stmt) (w w' : World) (x : Option Throwable) : Prop where
  /-- It keeps what every statement keeps. -/
  kept : Kept w w'
  /-- It achieves what it is for. -/
  achieves : Achieves w w' stmt
  /-- It throws only where it may. -/
  calm : Calm stmt → x=none

/-- The contract of a statement. -/
def Contract (stmt : Stmt) (w w' : World) (x : Option Throwable) : Prop :=
  Sound w → Licensed w stmt → Outcome stmt w w' x

section Licences

variable {w w' : World} {s : Side} {id : ℕ} {stmt : Stmt} {stmts : List Stmt}
  {x : Option Throwable}

theorem Grows.holds (h : Grows w w') {r : Role} (hh : Holds w s id r) : Holds w' s id r := by
  refine ⟨Nat.lt_of_lt_of_le hh.1 (h.pipes s).nextId,fun c hc he => ?_⟩
  obtain ⟨d,hd,hid,hkind⟩ := (h.pipes s).kinds c hc (he ▸ hh.1)
  rw [←hkind]
  exact hh.2 d hd (hid.trans he)

theorem Grows.fit (h : Grows w w') {x : Handler} (hf : Fit w s x) : Fit w' s x :=
  ⟨hf.1,fun hi => h.relay (hf.2 hi)⟩

/-- No licence is revoked. -/
theorem Grows.licensed (h : Grows w w') (hl : Licensed w stmt) : Licensed w' stmt := by
  cases stmt with
  | addLast | addFirst | addAfter | addBefore => exact ⟨h.fit hl.1,hl.2⟩
  | addAfterCtx => exact h.fit hl
  | remove => exact h.holds hl
  | replace => exact ⟨h.holds hl.1,h.fit hl.2.1,hl.2.2⟩
  | assign => exact ⟨h.fit hl.1,h.holds hl.2⟩
  | pipelineFire | ctxFire | invoke => exact fun he => h.shut _ (hl he)
  | write | notify => exact h.permitted hl
  | closeOnFlush | close => exact h.mayClose hl
  | destroy | newPromise | setSuccess | setFailure | connect => exact hl
  | addInitializer | flush | drain | raise | noteSelected | noteReply | noteRequest
    | noteOnRequest | noteOnResponse | noteEncoded => trivial

/-- Licensed statements one after the other. -/
theorem kept_steps (h : Steps Contract w stmts w' x) (hw : Sound w)
    (hl : ∀ stmt∈stmts, Licensed w stmt) : Kept w w' :=
  h.related (L:=fun stmt w => Sound w ∧ Licensed w stmt) (R:=fun w w' => Sound w → Kept w w')
    (fun _ hs => .refl hs) (fun _ _ _ h k hs => (h hs).trans (k (h hs).sound))
    (fun _ _ _ hk hl => ⟨(hk hl.1).sound,(hk hl.1).grows.licensed hl.2⟩)
    (fun _ _ _ _ hl hc hs => (hc hs hl.2).kept) (fun stmt hm => ⟨hw,hl stmt hm⟩) hw

/-- Calm licensed statements are all executed. -/
theorem achieved_steps (h : Steps Contract w stmts w' x) (hw : Sound w)
    (hl : ∀ stmt∈stmts, Licensed w stmt) (hc : ∀ stmt∈stmts, Calm stmt) :
    x=none ∧ ∀ stmt∈stmts, ∃ w₁ w₂, Kept w w₁ ∧ Outcome stmt w₁ w₂ none ∧ Kept w₂ w' := by
  have hL : ∀ stmt w w', (Sound w → Kept w w') → Sound w ∧ Licensed w stmt →
      Sound w' ∧ Licensed w' stmt :=
    fun _ _ _ hk hl => ⟨(hk hl.1).sound,(hk hl.1).grows.licensed hl.2⟩
  have hK : ∀ stmt w w' x, Sound w ∧ Licensed w stmt → Contract stmt w w' x → Sound w → Kept w w' :=
    fun _ _ _ _ hl hc hs => (hc hs hl.2).kept
  have hx : x=none := h.calm (L:=fun stmt w => Sound w ∧ Licensed w stmt)
    (R:=fun w w' => Sound w → Kept w w') (fun _ _ _ _ hl hk hcalm => (hk hl.1 hl.2).calm hcalm)
    hL hK (fun stmt hm => ⟨hw,hl stmt hm⟩) hc
  refine ⟨hx,fun stmt hm => ?_⟩
  obtain ⟨w₁,w₂,hbefore,hl',hk,hafter⟩ := h.reaches (L:=fun stmt w => Sound w ∧ Licensed w stmt)
    (R:=fun w w' => Sound w → Kept w w') (fun _ hs => .refl hs)
    (fun _ _ _ h k hs => (h hs).trans (k (h hs).sound)) hL hK (fun stmt hm => ⟨hw,hl stmt hm⟩) hx hm
  have hout := hk hl'.1 hl'.2
  exact ⟨w₁,w₂,hbefore hw,hout,hafter hout.kept.sound⟩

end Licences

section Bodies

variable {cfg : Config} {w : World} {s : Side} {id : ℕ} {h : Handler}

/-- The context that an identity names in a state. -/
structure Found (w : World) (s : Side) (id : ℕ) (h : Handler) : Prop where
  /-- Its handler is in the pipeline. -/
  mem : h∈w.handlers s
  /-- It has a role. -/
  holds : Holds w s id (role h)

theorem found_of_find (hf : (w.pipe s).find id=some h) : Found w s id h := by
  obtain ⟨c,hc,hh⟩ := Option.map_eq_some_iff.mp hf
  have hm := List.mem_of_find?_eq_some hc
  have hid : c.id=id := by simpa using List.find?_some hc
  refine ⟨hh ▸ List.mem_map_of_mem hm,hid ▸ (w.pipe s).fresh c hm,fun d hd he => ?_⟩
  rw [Pipeline.eq_of_id hd hm (he.trans hid.symm),hh]

theorem licensed_followUp : ∀ stmt∈DirectAction.doFollowUp, Licensed w stmt := by
  simp [DirectAction.doFollowUp,Licensed,Fit,Tunnelled,role]

theorem licensed_fireRest (rest : Bytes) : ∀ stmt∈fireRest s id rest, Licensed w stmt := by
  unfold fireRest
  split <;> simp [Licensed]

/-- The selecting handler. -/
theorem licensed_select (rules : Rules) (request : Socks5CommandRequest) (state : SelectState)
    (data : Bytes) (hf : Found w .client id (.protocolSelectHandler request state)) :
    ∀ stmt∈ProtocolSelectHandler.channelRead rules id request state data, Licensed w stmt := by
  have hassign : ∀ state', Licensed w (.assign .client id (.protocolSelectHandler request state')) :=
    fun _ => ⟨⟨rfl,fun h => by cases h⟩,hf.holds⟩
  cases state with
  | success => exact licensed_fireRest data
  | init cumulation =>
    simp only [ProtocolSelectHandler.channelRead]
    split
    · simp only [List.cons_append,List.forall_mem_cons,List.forall_mem_append]
      refine ⟨trivial,?_,by simp [Licensed],hassign _,by simp [Licensed],by simp⟩
      unfold ProtocolSelectHandler.select
      split
      · split <;> simp [Licensed,Fit,Tunnelled,role]
      · exact licensed_followUp
    · simpa using hassign _

/-- The handler that looks up the server name. -/
theorem licensed_sni (request : Socks5CommandRequest) (cumulation data : Bytes)
    (hf : Found w .client id (.sniHandler request cumulation)) :
    ∀ stmt∈SniHandler.channelRead cfg id request cumulation data, Licensed w stmt := by
  have hguest : Holds w .client id .guest := hf.holds
  simp only [SniHandler.channelRead,List.forall_mem_cons]
  refine ⟨⟨⟨rfl,fun h => by cases h⟩,hguest⟩,?_⟩
  split
  · simp
  · simp [Licensed]
  · rename_i hostname _
    rw [List.forall_mem_append]
    refine ⟨?_,by split <;> simp [Licensed]⟩
    unfold SniHandler.onLookupComplete
    split
    · simp
    · split
      · rw [List.forall_mem_append]
        exact ⟨licensed_followUp,by simp [Licensed,hguest]⟩
      · simp [Licensed,Fit,Tunnelled,role,hguest]

/-- One input of a TLS engine that does not fail. -/
theorem licensed_tls (htls : ∀ s history input, (cfg.tls s history input).failed=false)
    (history : List TlsInput) (input : TlsInput) {listener : Listener} (flush : Bool)
    (hf : Found w s id (.sslHandler history)) (hp : Permitted w s listener) :
    ∀ stmt∈SslHandler.step cfg s id history input listener flush, Licensed w stmt := by
  have hassign : Licensed w (.assign s id (.sslHandler (history++[input]))) :=
    ⟨⟨trivial,fun h => by cases h⟩,hf.holds⟩
  simp only [SslHandler.step,htls,Bool.false_eq_true,if_false,List.append_nil,List.cons_append,
    List.nil_append,List.forall_mem_cons,List.forall_mem_map]
  exact ⟨hassign,hp,fun chunk _ => by simp [Licensed]⟩

/-- Reads of all handlers of a tunnel. -/
theorem licensed_read (htls : ∀ s history input, (cfg.tls s history input).failed=false)
    (hw : Sound w) (message : Msg) (hf : Found w s id h) (hr : reacts (.read message) h=true) :
    ∀ stmt∈channelRead cfg w s id message h, Licensed w stmt := by
  have ht := hw.tunnelled s h hf.mem
  have hpass : ∀ stmt∈[fireRead s id message], Licensed w stmt := by simp [Licensed]
  cases h with
  | protocolSelectHandler request state =>
    cases (show s=.client from ht)
    cases message with
    | bytes data => exact licensed_select cfg.rules request state data hf
    | _ => exact hpass
  | sniHandler request cumulation =>
    cases (show s=.client from ht)
    cases message with
    | bytes data => exact licensed_sni request cumulation data hf
    | _ => exact hpass
  | sslHandler history =>
    cases message with
    | bytes data => exact licensed_tls htls history _ true hf trivial
    | _ => exact hpass
  | httpRequestDecoder history =>
    cases message with
    | bytes data =>
      simp only [channelRead,httpDecoderRead,List.forall_mem_cons,List.forall_mem_map]
      exact ⟨⟨⟨trivial,fun h => by cases h⟩,hf.holds⟩,fun object _ => by simp [Licensed]⟩
    | _ => exact hpass
  | httpResponseDecoder history =>
    cases message with
    | bytes data =>
      simp only [channelRead,httpDecoderRead,List.forall_mem_cons,List.forall_mem_map]
      exact ⟨⟨⟨trivial,fun h => by cases h⟩,hf.holds⟩,fun object _ => by simp [Licensed]⟩
    | _ => exact hpass
  | httpCheckHandler request =>
    cases (show s=.client from ht)
    have hguest : Holds w .client id .guest := hf.holds
    cases message with
    | http object =>
      cases object with
      | request head =>
        simp only [channelRead,HttpInterceptorHandler.checkRead0,List.forall_mem_append]
        refine ⟨?_,by simp [Licensed,hguest]⟩
        split
        · split
          · rw [List.forall_mem_append]
            exact ⟨licensed_followUp,by simp [Licensed,Fit,Tunnelled,role]⟩
          · simp [Licensed]
        · exact licensed_followUp
      | _ => exact hpass
    | _ => exact hpass
  | httpObjectAggregator history =>
    cases message with
    | http object =>
      simp only [channelRead,aggregatorRead,List.forall_mem_cons,List.forall_mem_map]
      exact ⟨⟨⟨trivial,fun h => by cases h⟩,hf.holds⟩,fun emitted _ => by simp [Licensed]⟩
    | _ => exact hpass
  | httpMessageHandler httpInterceptor =>
    cases (show s=.client from ht)
    have hrelay := hw.intercepted .client _ hf.mem rfl
    cases message with
    | fullRequest request =>
      simp [channelRead,HttpInterceptorHandler.messageRead,Licensed,Fit,Tunnelled,role,hrelay]
    | _ => exact hpass
  | mitmHandler httpInterceptor =>
    cases message with
    | fullRequest request => simp [channelRead,MitmHandler.channelRead,Licensed]
    | _ => simp [channelRead,MitmHandler.channelRead,Licensed]
  | correctCRLFHander =>
    cases message with
    | fullRequest request => simp [channelRead,CorrectCRLFHander.channelRead,Licensed]
    | _ => simp [channelRead,CorrectCRLFHander.channelRead,Licensed]
  | relayHandler =>
    simp only [channelRead,RelayHandler.channelRead]
    split <;> simp [Licensed,Permitted]
  | httpInterceptorHandler | httpResponseEncoder | httpRequestEncoder =>
    cases message <;> cases hr
  | _ => exact absurd hr (by simp [(show Idle _ from ht).1])

/-- What a handler of a tunnel does on an event it takes. -/
theorem licensed_body (htls : ∀ s history input, (cfg.tls s history input).failed=false)
    (hw : Sound w) {event : Inbound} (hf : Found w s id h) (hr : reacts event h=true)
    (hi : event=.inactive → Shut w s) : ∀ stmt∈body cfg w s id event h, Licensed w stmt := by
  have hpass : ∀ stmt∈[Stmt.ctxFire s id event], Licensed w stmt := by
    intro stmt hm
    rw [List.mem_singleton.mp hm]
    exact hi
  cases event with
  | read message => exact licensed_read htls hw message hf hr
  | registered => exact hpass
  | readComplete =>
    have ht := hw.tunnelled s h hf.mem
    cases h with
    | socksServerHandler => exact absurd hr (by simp [(show Idle _ from ht).1])
    | _ => exact hpass
  | active =>
    have ht := hw.tunnelled s h hf.mem
    cases h with
    | upstreamHandler | connectHandler | socksClientInitializer =>
      exact absurd hr (by simp [(show Idle _ from ht).1])
    | sslHandler history =>
      simp only [body,channelActive,List.forall_mem_append]
      exact ⟨licensed_tls htls history _ true hf trivial,by simp [Licensed]⟩
    | httpInterceptorHandler request =>
      simp [body,channelActive,HttpInterceptorHandler.channelActive,Licensed,Fit,Tunnelled,role]
    | relayHandler => simp [body,channelActive]
    | _ => exact hpass
  | inactive =>
    have hs := hi rfl
    cases h with
    | httpRequestDecoder history | httpResponseDecoder history =>
      simp only [body,channelInactive,httpDecoderInactive,List.forall_mem_append,List.forall_mem_map]
      exact ⟨fun object _ => by simp [Licensed],by simp [Licensed,hs]⟩
    | relayHandler =>
      have hother : s.other.other=s := by cases s <;> rfl
      simp only [body,channelInactive,RelayHandler.channelInactive]
      split <;> simp [Licensed,MayClose,hother,hs]
    | _ => exact hpass
  | exceptionCaught cause =>
    have ht := hw.tunnelled s h hf.mem
    cases h with
    | socksServerHandler | upstreamMatchHandler | connectHandler | socksClientInitializer =>
      exact absurd hr (by simp [(show Idle _ from ht).1])
    | sniHandler request cumulation =>
      simp [body,exceptionCaught,SniHandler.exceptionCaught,Licensed,Fit,Tunnelled,role]
    | relayHandler =>
      have hrelay : MayClose w s := .inl hf.mem
      simp [body,exceptionCaught,RelayHandler.exceptionCaught,Licensed,hrelay]
    | _ => exact hpass

/-- What a handler of a tunnel does on a write. -/
theorem licensed_write (htls : ∀ s history input, (cfg.tls s history input).failed=false)
    (hw : Sound w) (message : Msg) {listener : Listener} (flush : Bool) (hf : Found w s id h)
    (hp : Permitted w s listener) :
    ∀ stmt∈writeBody cfg s id message listener flush h, Licensed w stmt := by
  have ht := hw.tunnelled s h hf.mem
  have hpass : ∀ passed, ∀ stmt∈[Stmt.write s (some id) passed listener flush],
      Licensed w stmt := by
    intro passed stmt hm
    rw [List.mem_singleton.mp hm]
    exact hp
  have hencoder : ∀ (wrap : List Msg → Handler) (history : List Msg),
      (∀ l, Fit w s (wrap l)) → (∀ l, Holds w s id (role (wrap l))) →
      ∀ stmt∈httpEncoderWrite cfg s id wrap history message listener flush, Licensed w stmt := by
    intro wrap history hfit hholds
    simp only [httpEncoderWrite,List.forall_mem_cons]
    refine ⟨⟨hfit _,hholds _⟩,trivial,?_,by simp⟩
    split <;> exact hp
  cases h with
  | sslHandler history =>
    cases message with
    | bytes data => exact licensed_tls htls history _ flush hf hp
    | _ => exact hpass _
  | httpRequestEncoder history =>
    exact hencoder .httpRequestEncoder history (fun _ => ⟨trivial,fun h => by cases h⟩)
      (fun _ => hf.holds)
  | httpResponseEncoder history =>
    exact hencoder .httpResponseEncoder history (fun _ => ⟨trivial,fun h => by cases h⟩)
      (fun _ => hf.holds)
  | mitmHandler httpInterceptor =>
    cases (show s=.client from ht)
    have hrelay : MayClose w .client := .inl (hw.intercepted .client _ hf.mem rfl)
    cases message with
    | fullResponse response => simp [writeBody,MitmHandler.write,Licensed,Permitted,hrelay]
    | _ => exact hpass _
  | correctCRLFHander =>
    cases (show s=.client from ht)
    cases message with
    | fullResponse response => simp [writeBody,CorrectCRLFHander.write,Licensed,hp]
    | _ => exact hpass _
  | _ =>
    cases message with
    | _ => exact hpass _

end Bodies

section Statements

variable {cfg : Config} {w w₁ w' : World} {s : Side} {id : ℕ} {x : Option Throwable}
  {stmts : List Stmt} {rescue : Throwable → World → List Stmt}

/-- How an effect ends under the contracts. -/
abbrev Result (cfg : Config) (effect : Effect) (w' : World) (x : Option Throwable) : Prop :=
  Settles (perform cfg) Contract effect w' x

/-- A call whose statements are licensed. -/
theorem kept_call (h : Result cfg (.call w₁ stmts rescue) w' x) (hk : Kept w w₁)
    (hl : ∀ stmt∈stmts, Licensed w₁ stmt)
    (hr : ∀ e w₂, Kept w₁ w₂ → ∀ stmt∈rescue e w₂, Licensed w₂ stmt) : Kept w w' ∧ x=none := by
  cases h with
  | call inner h => exact ⟨hk.trans (kept_steps h hk.sound hl),rfl⟩
  | rescue inner h caught =>
    have hbody := kept_steps h hk.sound hl
    exact ⟨hk.trans (hbody.trans (kept_steps caught hbody.sound (hr _ _ hbody))),rfl⟩

/-- A call whose exceptions are dropped. -/
theorem kept_drop (h : Result cfg (.call w₁ stmts drop) w' x) (hk : Kept w w₁)
    (hl : ∀ stmt∈stmts, Licensed w₁ stmt) : Kept w w' ∧ x=none :=
  kept_call h hk hl (fun _ _ _ => by simp [drop])

/-- All statements of a call that never throw are executed. -/
theorem achieved_call (h : Result cfg (.call w₁ stmts rescue) w' x) (hw : Sound w₁)
    (hl : ∀ stmt∈stmts, Licensed w₁ stmt) (hc : ∀ stmt∈stmts, Calm stmt) :
    ∀ stmt∈stmts, ∃ a b, Kept w₁ a ∧ Outcome stmt a b none ∧ Kept b w' := by
  cases h with
  | call inner h => exact (achieved_steps h hw hl hc).2
  | rescue inner h caught => exact absurd (achieved_steps h hw hl hc).1 (by simp)

/-- A pipeline evolves by at most one handler that fits. -/
theorem kept_fit (hw : Sound w) {g : Pipeline Label Handler → Pipeline Label Handler} {h : Handler}
    (he : Pipeline.Evolves role (fun r => r=.guest) (w.pipe s) (g (w.pipe s))) (hf : Fit w s h)
    (hmem : ∀ c∈(g (w.pipe s)).contexts, c∈(w.pipe s).contexts ∨
      (c.handler=h ∧ (c.label=some .httpMessageHandler → role h=.interceptor))) :
    Kept w (w.updPipe s g) := by
  have hhandlers : ∀ y∈(g (w.pipe s)).handlers, y∈w.handlers s ∨ y=h := by
    intro y hy
    obtain ⟨c,hc,rfl⟩ := List.mem_map.mp hy
    exact (hmem c hc).imp (fun hc => List.mem_map_of_mem hc) And.left
  refine kept_updPipe hw he (fun y hy => ?_) (fun y hy hi => ?_) (fun c hc hl => ?_)
  · rcases hhandlers y hy with hy|rfl
    · exact hw.tunnelled s y hy
    · exact hf.1
  · rcases hhandlers y hy with hy|rfl
    · exact .inl (hw.intercepted s y hy hi)
    · exact .inl (hf.2 hi)
  · rcases hmem c hc with hc|⟨hh,hn⟩
    · exact hw.named s c hc hl
    · rw [hh]
      exact hn hl

/-- The contexts around an added handler were there before. -/
theorem mem_insertAt {p : Pipeline Label Handler} {k : ℕ} {label : Option Label} {h : Handler}
    {c : Ctx Label Handler} (hc : c∈(p.insertAt k label h).contexts) :
    c∈p.contexts ∨ c=⟨p.nextId,label,h⟩ := by
  simp only [Pipeline.insertAt,List.mem_append,List.mem_cons] at hc
  rcases hc with hc|hc|hc
  · exact .inl (List.mem_of_mem_take hc)
  · exact .inr hc
  · exact .inl (List.mem_of_mem_drop hc)

/-- Adding a handler, under a name that is free or not at all. -/
theorem kept_addNamed (hw : Sound w) {k : ℕ} {label : Option Label} {h : Handler}
    (hf : Fit w s h) (hn : label≠some .httpMessageHandler)
    (hr : Result cfg (addNamed w s k label h) w' x) : Kept w w' := by
  unfold addNamed at hr
  split at hr
  · cases hr
    exact kept_of_eq hw rfl rfl
  · cases hr
    refine kept_fit hw (Pipeline.evolves_insertAt _ _ _ _) hf (fun c hc => ?_)
    refine (mem_insertAt hc).imp id (fun he => ?_)
    subst he
    exact ⟨rfl,fun hl => absurd hl hn⟩

/-- A guest leaves. -/
theorem kept_remove (hw : Sound w) (hg : Holds w s id .guest) :
    Kept w (w.updPipe s (fun p => p.remove id)) :=
  kept_fit hw (Pipeline.evolves_remove hg.2) (h:=.sslHandler []) ⟨trivial,fun h => by cases h⟩
    (fun _ hc => .inl (List.mem_of_mem_filter hc))

/-- A guest is exchanged for another handler. -/
theorem kept_replace (hw : Sound w) {label : Label} {h : Handler} (hg : Holds w s id .guest)
    (hf : Fit w s h) (hn : label≠.httpMessageHandler) :
    Kept w (w.updPipe s (fun p => p.replace id (some label) h)) := by
  refine kept_fit hw (Pipeline.evolves_replace hg.1 hg.2) hf (fun c hc => ?_)
  refine (mem_insertAt (List.mem_of_mem_filter hc)).imp (fun hc => hc) (fun he => ?_)
  subst he
  exact ⟨rfl,fun hl => absurd (Option.some.inj hl) hn⟩

/-- The fields of a handler change. -/
theorem kept_assign (hw : Sound w) {h : Handler} (hf : Fit w s h) (hh : Holds w s id (role h)) :
    Kept w (w.updPipe s (fun p => p.assign id h)) := by
  refine kept_fit hw (Pipeline.evolves_assign hh.2) hf (fun c hc => ?_)
  obtain ⟨d,hd,rfl⟩ := List.mem_map.mp hc
  split
  · rename_i he
    have hrole : role d.handler=role h := hh.2 d hd (by simpa using he)
    exact .inr ⟨rfl,fun hl => hrole ▸ hw.named s d hd hl⟩
  · exact .inl hd

/-- The body of a handler, with exceptions going to the same context. -/
theorem kept_body (htls : ∀ s history input, (cfg.tls s history input).failed=false)
    (hw : Sound w) {event : Inbound} {h : Handler} (hf : (w.pipe s).find id=some h)
    (hr : reacts event h=true) (hi : event=.inactive → Shut w s)
    (h : Result cfg (.call w (body cfg w s id event h) (rescueOf s id event)) w' x) :
    Kept w w' ∧ x=none := by
  refine kept_call h (.refl hw) (licensed_body htls hw (found_of_find hf) hr hi) (fun e w₂ _ => ?_)
  unfold rescueOf
  split <;> simp [Licensed]

/-- An event is delivered to a context that takes it. -/
theorem kept_deliver (htls : ∀ s history input, (cfg.tls s history input).failed=false)
    (hw : Sound w) {event : Inbound} {target : Option ℕ}
    (ht : ∀ id h, target=some id → (w.pipe s).find id=some h → reacts event h=true)
    (hi : event=.inactive → Shut w s) (h : Result cfg (deliver cfg w s event target) w' x) :
    Kept w w' ∧ x=none := by
  cases target with
  | none =>
    cases h
    exact ⟨.refl hw,rfl⟩
  | some id =>
    rw [deliver] at h
    split at h
    · exact kept_drop h (.refl hw) (by simpa [Licensed] using hi)
    · rename_i y hy
      exact kept_body htls hw hy (ht id y rfl hy) hi h

/-- What reaches the head of a pipeline. -/
theorem kept_headWrite (hw : Sound w) {message : Msg} {listener : Listener} {flush : Bool}
    (hp : Permitted w s listener) (h : Result cfg (headWrite w s message listener flush) w' x) :
    Kept w w' ∧ x=none := by
  have hrefuse : Result cfg (.call w [.notify s listener false] drop) w' x → Kept w w' ∧ x=none :=
    fun h => kept_drop h (.refl hw) (by simpa [Licensed] using hp)
  have haccept : Result cfg (if w.isActive s then
      if flush then .call (w.enqueue s message listener) [.flush s] drop
      else .done (w.enqueue s message listener)
    else .call w [.notify s listener false] drop) w' x → Kept w w' ∧ x=none := by
    intro h
    split at h
    · rename_i ha
      split at h
      · exact kept_drop h (kept_enqueue hw ha hp) (by simp [Licensed])
      · cases h
        exact ⟨kept_enqueue hw ha hp,rfl⟩
    · exact hrefuse h
  cases message with
  | bytes data => exact haccept h
  | encoded m => exact haccept h
  | socks | http | fullRequest | fullResponse => exact hrefuse h

/-- The empty write of `closeOnFlush` reaches the head of a pipeline. -/
theorem ending_headWrite (hw : Sound w) {data : Bytes} {flush : Bool} (hm : MayClose w s)
    (h : Result cfg (headWrite w s (.bytes data) .close flush) w' x) : Ending w' s := by
  simp only [headWrite] at h
  split at h
  · rename_i ha
    have hkept : Kept w (w.enqueue s (.bytes data) .close) := kept_enqueue hw ha hm
    have hending : Ending (w.enqueue s (.bytes data) .close) s := by
      refine .inr ⟨.bytes data,?_⟩
      rw [World.enqueue,chan_upd_same]
      simp
    split at h
    · exact (kept_drop h (.refl hkept.sound) (by simp [Licensed])).1.ending s hending
    · cases h
      exact hending
  · obtain ⟨a,b,-,hout,hafter⟩ := achieved_call h hw (by simpa [Licensed,Permitted] using hm)
      (by simp [Calm]) _ List.mem_cons_self
    exact .inl (hafter.grows.shut s hout.achieves)

/-- A write that waits to close its channel is passed on by every handler. -/
theorem ending_writeBody (htls : ∀ s history input, (cfg.tls s history input).failed=false)
    (hw : Sound w) {data : Bytes} {flush : Bool} {h : Handler} (hf : Found w s id h)
    (hm : MayClose w s)
    (hr : Result cfg (.call w (writeBody cfg s id (.bytes data) .close flush h) drop) w' x) :
    Ending w' s := by
  have hl := licensed_write htls hw (.bytes data) flush hf
    (show Permitted w s .close from hm)
  have ht := hw.tunnelled s h hf.mem
  have hreach : (∀ stmt∈writeBody cfg s id (.bytes data) .close flush h, Calm stmt) →
      ∀ stmt∈writeBody cfg s id (.bytes data) .close flush h,
        (∀ a b, Achieves a b stmt → Ending b s) → Ending w' s := by
    intro hc stmt hmem hstmt
    obtain ⟨a,b,-,hout,hafter⟩ := achieved_call hr hw hl hc stmt hmem
    exact hafter.ending s (hstmt a b hout.achieves)
  have hwrite : writeBody cfg s id (.bytes data) .close flush h=
      [.write s (some id) (.bytes data) .close flush] → Ending w' s := by
    intro he
    rw [he] at hreach
    exact hreach (by simp [Calm]) _ List.mem_cons_self (fun _ _ h => h)
  have hencode : ∀ (wrap : List Msg → Handler) (history : List Msg),
      writeBody cfg s id (.bytes data) .close flush h=
        httpEncoderWrite cfg s id wrap history (.bytes data) .close flush → Ending w' s := by
    intro wrap history he
    rw [he] at hreach
    unfold httpEncoderWrite at hreach
    split at hreach
    · exact hreach (by simp [Calm]) _ (List.mem_cons_of_mem _ (List.mem_cons_of_mem _
        List.mem_cons_self)) (fun _ _ h => h)
    · exact hreach (by simp [Calm]) _ (List.mem_cons_of_mem _ (List.mem_cons_of_mem _
        List.mem_cons_self)) (fun _ _ h => .inl h)
  cases h with
  | sslHandler history =>
    refine hreach ?_ (.write s (some id)
      (.bytes (cfg.tls s history (.fromPipeline data)).network) .close flush) ?_ (fun _ _ h => h)
    · simp only [writeBody,SslHandler.step,htls,Bool.false_eq_true,if_false,List.append_nil,
        List.cons_append,List.nil_append,List.forall_mem_cons,List.forall_mem_map]
      exact ⟨trivial,trivial,fun _ _ => trivial⟩
    · simp [writeBody,SslHandler.step]
  | httpRequestEncoder history => exact hencode .httpRequestEncoder history rfl
  | httpResponseEncoder history => exact hencode .httpResponseEncoder history rfl
  | mitmHandler =>
    cases (show s=.client from ht)
    exact hwrite rfl
  | correctCRLFHander =>
    cases (show s=.client from ht)
    exact hwrite rfl
  | _ => exact hwrite rfl

/-- A write through a pipeline. -/
theorem outcome_write (htls : ∀ s history input, (cfg.tls s history input).failed=false)
    (hw : Sound w) {source : Option ℕ} {message : Msg} {listener : Listener} {flush : Bool}
    (hp : Permitted w s listener)
    (h : Result cfg (perform cfg (.write s source message listener flush) w) w' x) :
    Outcome (.write s source message listener flush) w w' x := by
  have hach : ∀ {w'}, (∀ data, message=.bytes data → listener=.close → Ending w' s) →
      Achieves w w' (.write s source message listener flush) := by
    intro w' h
    cases message with
    | bytes data =>
      cases listener with
      | close => exact h data rfl rfl
      | _ => trivial
    | _ => trivial
  have hhead : Result cfg (headWrite w s message listener flush) w' x →
      Outcome (.write s source message listener flush) w w' x := by
    intro h
    obtain ⟨hkept,hx⟩ := kept_headWrite hw hp h
    refine ⟨hkept,hach (fun data hd hl => ?_),fun _ => hx⟩
    subst hd hl
    exact ending_headWrite hw hp h
  simp only [perform] at h
  split at h
  · exact hhead h
  · split at h
    · exact hhead h
    · rename_i y hy
      have hf := found_of_find hy
      obtain ⟨hkept,hx⟩ := kept_drop h (.refl hw) (licensed_write htls hw message flush hf hp)
      refine ⟨hkept,hach (fun data hd hl => ?_),fun _ => hx⟩
      subst hd hl
      exact ending_writeBody htls hw hf hp h

/-- The socket takes a queue whose listeners are then notified; one of them may
close the channel. -/
theorem kept_drain (hw : Sound w) (h : Result cfg (perform cfg (.drain s) w) w' x) :
    Kept w w' ∧ x=none := by
  have hpipe : ∀ t, (w.takeQueue s).pipe t=w.pipe t := by
    intro t
    cases s <;> cases t <;> rfl
  have hlife : ∀ t, ((w.takeQueue s).chan t).life=(w.chan t).life := by
    intro t
    cases s <;> cases t <;> rfl
  have hpending : ∀ t, ((w.takeQueue s).chan t).inactivePending=(w.chan t).inactivePending := by
    intro t
    cases s <;> cases t <;> rfl
  have hhandlers : ∀ t, (w.takeQueue s).handlers t=w.handlers t :=
    fun t => congrArg Pipeline.handlers (hpipe t)
  have hshut : ∀ t, Shut (w.takeQueue s) t ↔ Shut w t := fun t => by rw [Shut,hlife t,Shut]
  have hempty : ((w.takeQueue s).chan s).queue=[] := by
    rw [World.takeQueue,chan_upd_same]
  have hother : ∀ t, t≠s → ((w.takeQueue s).chan t).queue=(w.chan t).queue := by
    intro t hts
    rw [World.takeQueue,chan_upd_of_ne hts]
  have hgrows : Grows w (w.takeQueue s) := grows_of_eq hpipe hlife
  have hsound : Sound (w.takeQueue s) := by
    refine ⟨fun t => ?_,fun t => ?_,fun t => ?_,fun t => ?_,fun t => ?_,fun t hs => ?_⟩
    · rw [hlife t,hshut t]
      exact hw.opened t
    · rw [hhandlers t]
      exact hw.tunnelled t
    · rw [hhandlers t]
      exact hw.intercepted t
    · rw [hpipe t]
      exact hw.named t
    · by_cases hts : t=s
      · subst hts
        simp [hempty]
      · rw [hother t hts]
        exact fun entry he => hgrows.permitted (hw.permitted t entry he)
    · by_cases hts : t=s
      · exact hts ▸ hempty
      · rw [hother t hts]
        exact hw.unqueued t ((hshut t).mp hs)
  have hl : ∀ stmt∈(w.chan s).queue.map (fun entry => Stmt.notify s entry.2 true),
      Licensed (w.takeQueue s) stmt :=
    List.forall_mem_map.mpr (fun entry he => hgrows.permitted (hw.permitted s entry he))
  have hc : ∀ stmt∈(w.chan s).queue.map (fun entry => Stmt.notify s entry.2 true), Calm stmt :=
    List.forall_mem_map.mpr (fun _ _ => trivial)
  obtain ⟨hkept,hx⟩ := kept_drop h (.refl hsound) hl
  have hclosed : (∃ message, (message,.close)∈(w.chan s).queue) → Shut w' s := by
    rintro ⟨message,hm⟩
    have hstmt : Stmt.notify s .close true∈
        (w.chan s).queue.map (fun entry : Msg×Listener => Stmt.notify s entry.2 true) :=
      List.mem_map.mpr ⟨_,hm,rfl⟩
    obtain ⟨a,b,-,hout,hafter⟩ := achieved_call h hsound hl hc _ hstmt
    exact hafter.grows.shut s hout.achieves
  have hending : ∀ t, Ending w t → Ending w' t := by
    intro t ht
    by_cases hts : t=s
    · subst hts
      exact .inl (ht.elim (fun hs => hkept.grows.shut _ ((hshut t).mpr hs)) hclosed)
    · refine hkept.ending t ?_
      rw [Ending,hshut t,hother t hts]
      exact ht
  refine ⟨⟨hkept.sound,hgrows.trans hkept.grows,hending,fun t hlinked => ?_⟩,hx⟩
  by_cases hts : t=s
  · subst hts
    refine hkept.linked t (fun hs => ?_)
    have hne : t.other≠t := by cases t <;> simp [Side.other]
    rw [hpending t,hhandlers t,Ending,hshut t.other,hother _ hne]
    exact hlinked ((hshut t).mp hs)
  · have hback : t.other=s := by cases s <;> cases t <;> first | rfl | exact absurd rfl hts
    by_cases hclosing : Ending w s
    · exact fun _ => .inr (hback ▸ hending s hclosing)
    · refine hkept.linked t (fun hs => ?_)
      rw [hpending t,hhandlers t]
      exact .inl ((hlinked ((hshut t).mp hs)).resolve_right (hback ▸ hclosing))

/-- A channel is closed and the listeners of its queue are told. -/
theorem outcome_close (hw : Sound w) (hm : MayClose w s)
    (h : Result cfg (perform cfg (.close s) w) w' x) : Outcome (.close s) w w' x := by
  simp only [perform] at h
  split at h
  · have hkept := kept_shut hw hm
    have hl : ∀ stmt∈(w.chan s).queue.map (fun entry => Stmt.notify s entry.2 false),
        Licensed (w.upd s shut) stmt :=
      List.forall_mem_map.mpr (fun entry he => hkept.grows.permitted (hw.permitted s entry he))
    obtain ⟨hafter,hx⟩ := kept_drop h (.refl hkept.sound) hl
    refine ⟨hkept.trans hafter,hafter.grows.shut s ?_,fun _ => hx⟩
    rw [Shut,chan_upd_same]
  · rename_i hlife
    rcases hw.opened s with ha|hs
    · rw [hlife] at ha
      cases ha
    · rw [Shut,hlife] at hs
      cases hs
  · rename_i hactive _
    cases h
    exact ⟨.refl hw,(hw.opened s).resolve_left hactive,fun _ => rfl⟩

/-- A future listener is notified. -/
theorem outcome_notify (hw : Sound w) {listener : Listener} {ok : Bool}
    (hp : Permitted w s listener) (h : Result cfg (perform cfg (.notify s listener ok) w) w' x) :
    Outcome (.notify s listener ok) w w' x := by
  have h' : Result cfg (.call w (listenerBody s ok listener) drop) w' x := h
  cases listener with
  | none =>
    obtain ⟨hkept,hx⟩ := kept_drop h' (.refl hw) (by simp [listenerBody])
    exact ⟨hkept,trivial,fun _ => hx⟩
  | close =>
    have hl : ∀ stmt∈listenerBody s ok .close, Licensed w stmt := by
      simpa [listenerBody,Licensed] using (show MayClose w s from hp)
    obtain ⟨hkept,hx⟩ := kept_drop h' (.refl hw) hl
    obtain ⟨a,b,-,hout,hafter⟩ := achieved_call h' hw hl (by simp [listenerBody,Calm]) (.close s)
      List.mem_cons_self
    exact ⟨hkept,hafter.grows.shut s hout.achieves,fun _ => hx⟩
  | responseWritten =>
    obtain ⟨rfl,hm⟩ := hp
    have hl : ∀ stmt∈listenerBody .client ok .responseWritten, Licensed w stmt := by
      simp only [listenerBody,MitmHandler.responseWritten]
      split
      · simpa [Licensed] using hm
      · simp
    obtain ⟨hkept,hx⟩ := kept_drop h' (.refl hw) hl
    exact ⟨hkept,trivial,fun _ => hx⟩
  | connected | greetingSent | requestSent => exact absurd hp id

/-- A channel is closed once its queue is flushed. -/
theorem outcome_closeOnFlush (hw : Sound w) (hm : MayClose w s)
    (h : Result cfg (perform cfg (.closeOnFlush s) w) w' x) : Outcome (.closeOnFlush s) w w' x := by
  simp only [perform] at h
  split at h
  · have hl : ∀ stmt∈[Stmt.write s none (.bytes []) .close true], Licensed w stmt := by
      simpa [Licensed,Permitted] using hm
    obtain ⟨hkept,hx⟩ := kept_drop h (.refl hw) hl
    obtain ⟨a,b,-,hout,hafter⟩ := achieved_call h hw hl (by simp [Calm]) _ List.mem_cons_self
    exact ⟨hkept,hafter.ending s hout.achieves,fun _ => hx⟩
  · rename_i ha
    cases h
    exact ⟨.refl hw,.inl (shut_of_inactive hw ha),fun _ => rfl⟩

/-- The client pipeline after the codecs of `initChannel` are added. -/
def clientCodecs (p : Pipeline Label Handler) : Pipeline Label Handler :=
  ((p.addLast (.httpResponseEncoder [])).addLast (.httpRequestDecoder [])).addLast
    (.httpObjectAggregator [])

/-- The client pipeline after `initChannel`. -/
def clientInstalled (httpInterceptor : HttpInterceptor) (p : Pipeline Label Handler) :
    Pipeline Label Handler :=
  ((clientCodecs p).insertAt (clientCodecs p).contexts.length (some .httpMessageHandler)
    (.httpMessageHandler httpInterceptor)).addLast .relayHandler

/-- The remote pipeline after `initChannel`. -/
def remoteInstalled (p : Pipeline Label Handler) : Pipeline Label Handler :=
  ((((p.addLast .loggingHandler).addLast (.httpResponseDecoder [])).addLast
    (.httpObjectAggregator [])).addLast (.httpRequestEncoder [])).addLast .relayHandler

/-- A handler is added without a name. -/
theorem eval_addLast {h : Handler} (he : Eval (perform cfg) w (.addLast s none h::stmts) w' x) :
    Eval (perform cfg) (w.updPipe s (fun p => p.addLast h)) stmts w' x :=
  Eval.rest runs_addLast he

/-- Changes of the two pipelines do not depend on their order. -/
theorem updPipe_comm {f g : Pipeline Label Handler → Pipeline Label Handler} :
    (w.updPipe .remote f).updPipe .client g=(w.updPipe .client g).updPipe .remote f := rfl

/-- `initChannel` installs its handlers, or finds its name taken. -/
theorem eval_initChannel {httpInterceptor : HttpInterceptor}
    (he : Eval (perform cfg) w (HttpInterceptorHandler.initChannel httpInterceptor) w' x) :
    (x=none ∧ w'=(w.updPipe .client (clientInstalled httpInterceptor)).updPipe .remote
      remoteInstalled) ∨
      (x=some .illegalArgument ∧
        w'=(w.updPipe .client clientCodecs).note (.threw .client .illegalArgument) ∧
        (clientCodecs (w.pipe .client)).hasLabel .httpMessageHandler=true) := by
  have hcodecs : Eval (perform cfg) (w.updPipe .client clientCodecs)
      (.addLast .client (some .httpMessageHandler) (.httpMessageHandler httpInterceptor)::
        [Stmt.addLast .remote none .loggingHandler,.addLast .remote none (.httpResponseDecoder []),
          .addLast .remote none (.httpObjectAggregator []),
          .addLast .remote none (.httpRequestEncoder []),
          .addLast .client none .relayHandler,.addLast .remote none .relayHandler]) w' x :=
    eval_addLast (eval_addLast (eval_addLast he))
  have hadd : perform cfg (.addLast .client (some .httpMessageHandler)
      (.httpMessageHandler httpInterceptor)) (w.updPipe .client clientCodecs)=
      if (clientCodecs (w.pipe .client)).hasLabel .httpMessageHandler then
        .throw .illegalArgument
          ((w.updPipe .client clientCodecs).note (.threw .client .illegalArgument))
      else .done ((w.updPipe .client clientCodecs).updPipe .client (fun p =>
        p.insertAt p.contexts.length (some .httpMessageHandler)
          (.httpMessageHandler httpInterceptor))) := rfl
  cases hlabel : (clientCodecs (w.pipe .client)).hasLabel .httpMessageHandler with
  | true =>
    rw [hlabel,if_pos rfl] at hadd
    obtain ⟨rfl,rfl⟩ := hcodecs.deterministic (.throw hadd)
    exact .inr ⟨rfl,rfl,rfl⟩
  | false =>
    rw [hlabel,if_neg (by simp)] at hadd
    have hrest := Eval.rest (.done hadd (.nil _)) hcodecs
    have hlast := eval_addLast (eval_addLast (eval_addLast (eval_addLast (eval_addLast
      (eval_addLast hrest)))))
    simp only [updPipe_updPipe,updPipe_comm] at hlast
    obtain ⟨hw,hx⟩ := hlast.deterministic (.nil _)
    exact .inl ⟨hx,hw⟩

/-- A handler that needs no relay handler is added. -/
theorem kept_addLast (hw : Sound w) (h : Handler) (ht : Tunnelled s h)
    (hr : role h≠.interceptor) : Kept w (w.updPipe s (fun p => p.addLast h)) := by
  refine kept_fit hw (Pipeline.evolves_insertAt _ _ _ _) (h:=h) ⟨ht,fun hi => absurd hi hr⟩
    (fun c hc => ?_)
  refine (mem_insertAt hc).imp (fun hc => hc) (fun he => ?_)
  subst he
  exact ⟨rfl,fun hl => by cases hl⟩

/-- The codecs of `initChannel` fit. -/
theorem kept_clientCodecs (hw : Sound w) : Kept w (w.updPipe .client clientCodecs) := by
  have h₁ := kept_addLast (s:=.client) hw (.httpResponseEncoder []) trivial (by simp [role])
  have h₂ := kept_addLast (s:=.client) h₁.sound (.httpRequestDecoder []) trivial (by simp [role])
  have h₃ := kept_addLast (s:=.client) h₂.sound (.httpObjectAggregator []) trivial (by simp [role])
  have hall := h₁.trans (h₂.trans h₃)
  simp only [updPipe_updPipe] at hall
  exact hall

/-- The handlers of `initChannel` come with their relay handler. -/
theorem kept_clientInstalled (hw : Sound w) (httpInterceptor : HttpInterceptor) :
    Kept w (w.updPipe .client (clientInstalled httpInterceptor)) := by
  have hcodecs := kept_clientCodecs hw
  let p := clientCodecs (w.pipe .client)
  have hpipe : (w.updPipe .client clientCodecs).pipe .client=p := rfl
  have hhandlers : ∀ y∈(clientInstalled httpInterceptor (w.pipe .client)).handlers,
      y∈p.handlers ∨ y=.httpMessageHandler httpInterceptor ∨ y=.relayHandler := by
    intro y hy
    simp only [clientInstalled,Pipeline.addLast,Pipeline.handlers_insertAt_length,List.mem_append,
      List.mem_singleton,or_assoc] at hy
    exact hy
  have hinstall : Kept (w.updPipe .client clientCodecs) ((w.updPipe .client clientCodecs).updPipe
      .client (fun p => (p.insertAt p.contexts.length (some .httpMessageHandler)
        (.httpMessageHandler httpInterceptor)).addLast .relayHandler)) := by
    refine kept_updPipe hcodecs.sound ((Pipeline.evolves_insertAt _ _ _ _).trans
      (Pipeline.evolves_insertAt _ _ _ _)) (fun y hy => ?_) (fun y _ _ => .inr ?_) (fun c hc hl => ?_)
    · rcases hhandlers y hy with hy|rfl|rfl
      · exact hcodecs.sound.tunnelled .client y hy
      · exact rfl
      · exact trivial
    · simp [Pipeline.addLast]
    · rcases mem_insertAt hc with hc|rfl
      · rcases mem_insertAt hc with hc|rfl
        · exact hcodecs.sound.named .client c hc hl
        · rfl
      · cases hl
  exact hcodecs.trans hinstall

/-- The handlers of `initChannel` on the remote side fit. -/
theorem kept_remoteInstalled (hw : Sound w) : Kept w (w.updPipe .remote remoteInstalled) := by
  have hidle : Idle .loggingHandler := by
    refine ⟨fun event => ?_,fun message _ => ?_⟩
    · cases event with
      | read message => cases message <;> rfl
      | _ => rfl
    · cases message <;> rfl
  have h₁ := kept_addLast (s:=.remote) hw .loggingHandler hidle (by simp [role])
  have h₂ := kept_addLast (s:=.remote) h₁.sound (.httpResponseDecoder []) trivial (by simp [role])
  have h₃ := kept_addLast (s:=.remote) h₂.sound (.httpObjectAggregator []) trivial (by simp [role])
  have h₄ := kept_addLast (s:=.remote) h₃.sound (.httpRequestEncoder []) trivial (by simp [role])
  have h₅ := kept_addLast (s:=.remote) h₄.sound .relayHandler trivial (by simp [role])
  have hall := h₁.trans (h₂.trans (h₃.trans (h₄.trans h₅)))
  simp only [updPipe_updPipe] at hall
  exact hall

/-- A `MitmInitializer` is added; if its name is taken the client, which then
has a relay handler, is closed. -/
theorem kept_addInitializer (hw : Sound w) {httpInterceptor : HttpInterceptor}
    (h : Result cfg (perform cfg (.addInitializer httpInterceptor) w) w' x) :
    Kept w w' ∧ x=none := by
  have h' : Result cfg (.call w (HttpInterceptorHandler.initChannel httpInterceptor) closeClient)
    w' x := h
  cases h' with
  | call inner steps =>
    rcases eval_initChannel inner with ⟨-,rfl⟩|⟨hx,-,-⟩
    · have hclient := kept_clientInstalled hw httpInterceptor
      exact ⟨hclient.trans (kept_remoteInstalled hclient.sound),rfl⟩
    · cases hx
  | rescue inner steps caught =>
    rcases eval_initChannel inner with ⟨hx,-⟩|⟨-,rfl,hlabel⟩
    · cases hx
    · have hcodecs := kept_clientCodecs hw
      have hnote : Kept (w.updPipe .client clientCodecs) ((w.updPipe .client clientCodecs).note
          (.threw .client .illegalArgument)) := kept_of_eq hcodecs.sound rfl rfl
      obtain ⟨c,hc,hl⟩ := List.any_eq_true.mp hlabel
      have hrole := hcodecs.sound.named .client c hc (by simpa using hl)
      have hrelay := hnote.grows.relay
        (hcodecs.sound.intercepted .client _ (List.mem_map_of_mem hc) hrole)
      have hclose := kept_steps caught hnote.sound (by
        have hm : MayClose ((w.updPipe .client clientCodecs).note
          (.threw .client .illegalArgument)) .client := .inl hrelay
        simpa [closeClient,Licensed] using hm)
      exact ⟨hcodecs.trans (hnote.trans hclose),rfl⟩

/-- The end of a channel reaches the handlers in front of a relay handler, and
then the relay handler. -/
theorem ending_deliver (htls : ∀ s history input, (cfg.tls s history input).failed=false)
    (hw : Sound w) {d : Ctx Label Handler} (hd : d∈(w.pipe s).contexts)
    (hr : reacts .inactive d.handler=true)
    (hcase : role d.handler=.relay ∨ RelayAhead w s d.id) (hs : Shut w s)
    (h : Result cfg (deliver cfg w s .inactive (some d.id)) w' x) : Ending w' s.other := by
  have hfind := Pipeline.find_of_mem hd
  rw [deliver,hfind] at h
  dsimp only at h
  have hl := licensed_body htls hw (found_of_find hfind) hr (fun _ => hs)
  have hpass : role d.handler=.resident → RelayAhead w s d.id →
      (∀ stmt∈body cfg w s d.id .inactive d.handler, Calm stmt) →
      .ctxFire s d.id .inactive∈body cfg w s d.id .inactive d.handler → Ending w' s.other := by
    intro hrole hahead hc hm
    obtain ⟨a,b,hbefore,hout,hafter⟩ := achieved_call h hw hl hc _ hm
    refine hafter.ending _ (hout.achieves ((hbefore.grows.pipes s).ahead hahead (by simp) ?_))
    intro c hcm he
    rw [Pipeline.eq_of_id hcm hd he,hrole]
    simp
  cases hh : d.handler with
  | relayHandler =>
    rw [hh] at h hl
    simp only [body,channelInactive,RelayHandler.channelInactive] at h hl
    split at h
    · rename_i ha
      rw [if_pos ha] at hl
      obtain ⟨a,b,-,hout,hafter⟩ := achieved_call h hw hl (by simp [Calm]) _ List.mem_cons_self
      exact hafter.ending _ hout.achieves
    · rename_i ha
      have hkept := (kept_call h (.refl hw) (by simp) (fun _ _ _ => by simp [rescueOf,Licensed])).1
      exact .inl (hkept.grows.shut _ (shut_of_inactive hw ha))
  | httpRequestDecoder history | httpResponseDecoder history =>
    rw [hh] at hcase hpass
    refine hpass rfl (hcase.resolve_left (by simp [role])) ?_ ?_
    · simp only [body,channelInactive,httpDecoderInactive,List.forall_mem_append,
        List.forall_mem_map]
      exact ⟨fun _ _ => trivial,by simp [Calm]⟩
    · simp [body,channelInactive,httpDecoderInactive]
  | _ =>
    rw [hh] at hr
    cases hr

/-- The end of a channel starts at the head of its pipeline. -/
theorem outcome_pipelineFire (htls : ∀ s history input, (cfg.tls s history input).failed=false)
    (hw : Sound w) {event : Inbound} (hi : event=.inactive → Shut w s)
    (h : Result cfg (perform cfg (.pipelineFire s event) w) w' x) :
    Outcome (.pipelineFire s event) w w' x := by
  obtain ⟨hkept,hx⟩ := kept_deliver htls hw
    (fun _ _ ht hf => Pipeline.firstWhere_find ht hf) hi h
  refine ⟨hkept,?_,fun _ => hx⟩
  cases event with
  | inactive =>
    intro hrelay
    obtain ⟨c,hc,hh⟩ := List.mem_map.mp hrelay
    have hreacts : ∀ y, role y=.relay → reacts .inactive y=true := by
      intro y hy
      rw [eq_relay hy]
      rfl
    obtain ⟨d,hd,hn,hr,hcase⟩ := Pipeline.nearest_ahead (List.nil_append _).symm hreacts hc
      (by rw [hh]; rfl)
    have h' : Result cfg (deliver cfg w s .inactive ((w.pipe s).firstWhere (reacts .inactive)))
      w' x := h
    rw [Pipeline.firstWhere,hn] at h'
    exact ending_deliver htls hw hd hr hcase (hi rfl) h'
  | registered | active | read | readComplete | exceptionCaught => trivial

/-- The end of a channel is passed on. -/
theorem outcome_ctxFire (htls : ∀ s history input, (cfg.tls s history input).failed=false)
    (hw : Sound w) {event : Inbound} (hi : event=.inactive → Shut w s)
    (h : Result cfg (perform cfg (.ctxFire s id event) w) w' x) :
    Outcome (.ctxFire s id event) w w' x := by
  obtain ⟨hkept,hx⟩ := kept_deliver htls hw
    (fun _ _ ht hf => Pipeline.nextWhere_find ht hf) hi h
  refine ⟨hkept,?_,fun _ => hx⟩
  cases event with
  | inactive =>
    intro hahead
    obtain ⟨d,hd,hn,hr,hcase⟩ := hahead.nextWhere (f:=reacts .inactive)
      (fun y hy => by rw [eq_relay hy]; rfl)
    have h' : Result cfg (deliver cfg w s .inactive ((w.pipe s).nextWhere id (reacts .inactive)))
      w' x := h
    rw [hn] at h'
    exact ending_deliver htls hw hd hr hcase (hi rfl) h'
  | registered | active | read | readComplete | exceptionCaught => trivial

/-- An event is given to a context itself. -/
theorem kept_invoke (htls : ∀ s history input, (cfg.tls s history input).failed=false)
    (hw : Sound w) {event : Inbound} (hi : event=.inactive → Shut w s)
    (h : Result cfg (perform cfg (.invoke s id event) w) w' x) : Kept w w' ∧ x=none := by
  simp only [perform] at h
  split at h
  · rename_i y hy
    split at h
    · rename_i hr
      refine kept_deliver htls hw (fun i z ht hf => ?_) hi h
      cases ht
      rw [hy] at hf
      cases hf
      exact hr
    · exact kept_deliver htls hw (fun _ _ ht hf => Pipeline.nextWhere_find ht hf) hi h
  · exact kept_deliver htls hw (fun _ _ ht hf => Pipeline.nextWhere_find ht hf) hi h

/-- Every statement meets its contract when the statements it calls do. -/
theorem contract_perform (htls : ∀ s history input, (cfg.tls s history input).failed=false)
    (stmt : Stmt) (w w' : World) (x : Option Throwable)
    (h : Result cfg (perform cfg stmt w) w' x) : Contract stmt w w' x := by
  intro hw hl
  cases stmt with
  | addLast | addFirst => exact ⟨kept_addNamed hw hl.1 hl.2 h,trivial,fun hc => absurd hc id⟩
  | addAfterCtx => exact ⟨kept_addNamed hw hl (by simp) h,trivial,fun hc => absurd hc id⟩
  | addAfter s base label y | addBefore s base label y =>
    refine ⟨?_,trivial,fun hc => absurd hc id⟩
    simp only [perform] at h
    split at h
    · exact kept_addNamed hw hl.1 (by simpa using hl.2) h
    · cases h
      exact kept_of_eq hw rfl rfl
  | remove s id =>
    refine ⟨?_,trivial,fun hc => absurd hc (fun h => h)⟩
    simp only [perform] at h
    split at h
    · cases h
      exact kept_remove hw hl
    · cases h
      exact kept_of_eq hw rfl rfl
  | replace s id label y =>
    refine ⟨?_,trivial,fun hc => absurd hc (fun h => h)⟩
    simp only [perform] at h
    split at h
    · cases h
      exact kept_replace hw hl.1 hl.2.1 hl.2.2
    · cases h
      exact kept_of_eq hw rfl rfl
  | assign s id y =>
    cases h
    exact ⟨kept_assign hw hl.1 hl.2,trivial,fun _ => rfl⟩
  | addInitializer httpInterceptor =>
    obtain ⟨hkept,hx⟩ := kept_addInitializer hw h
    exact ⟨hkept,trivial,fun _ => hx⟩
  | pipelineFire s event => exact outcome_pipelineFire htls hw hl h
  | ctxFire s id event => exact outcome_ctxFire htls hw hl h
  | invoke s id event =>
    obtain ⟨hkept,hx⟩ := kept_invoke htls hw hl h
    exact ⟨hkept,trivial,fun _ => hx⟩
  | write => exact outcome_write htls hw hl h
  | flush s =>
    simp only [perform] at h
    split at h
    · obtain ⟨hkept,hx⟩ := kept_drop h (kept_of_eq hw rfl rfl) (by simp [Licensed])
      exact ⟨hkept,trivial,fun _ => hx⟩
    · cases h
      exact ⟨kept_of_eq hw rfl rfl,trivial,fun _ => rfl⟩
  | drain s =>
    obtain ⟨hkept,hx⟩ := kept_drain hw h
    exact ⟨hkept,trivial,fun _ => hx⟩
  | notify => exact outcome_notify hw hl h
  | closeOnFlush => exact outcome_closeOnFlush hw hl h
  | close => exact outcome_close hw hl h
  | destroy | newPromise | setSuccess | setFailure | connect => exact absurd hl id
  | raise cause =>
    cases h
    exact ⟨.refl hw,trivial,fun hc => absurd hc id⟩
  | noteSelected | noteReply | noteRequest | noteOnRequest | noteOnResponse | noteEncoded =>
    cases h
    exact ⟨kept_of_eq hw rfl rfl,trivial,fun _ => rfl⟩

end Statements

end ProxyDroid.CloseContracts
