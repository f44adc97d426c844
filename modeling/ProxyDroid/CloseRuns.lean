import ProxyDroid.CloseContracts
import ProxyDroid.ConnectionNames
import ProxyDroid.HandshakeResults

/-!
# Both channels of a connection end together

An end of a channel is passed on by its relay handler, and relay handlers are
installed by the follow-up, which waits for bytes of the client. An end that
comes later, or finds the other channel closed, spreads over every run of the
connection: once nothing is pending, both channels are closed or none is. An
end that comes earlier, while the upstream is connected to, during its
handshake or before the protocol is selected, leaves the other channel open.
-/

namespace ProxyDroid.CloseRuns

open CallSemantics HandlerPipeline ConnectionTypes ConnectionHandlers ConnectionSystem
open ConnectionRules ConnectionInvariants TunnelPhases CommandReply CloseContracts
open ConnectionNames (Early Nameless)
open HandshakeStages HandshakeEvents HandshakeRuns HandshakeResults

/-- A channel ends before its pipeline has a relay handler, while the other channel is not closed.
A failed connect is such an end. -/
def EndsEarly (w : World) (event : Event) : Prop :=
  event=.connectFailed ∨ ∃ s, Ends s event ∧ ¬MayClose w s

/-- The channels of an open tunnel: what the end of one of them means for the other is not
forgotten. -/
structure Coupled (w : World) : Prop where
  /-- The handlers and listeners are those of a tunnel. -/
  sound : Sound w
  /-- A closed channel is still to be passed on, or the other channel is ending. -/
  linked : ∀ s, Linked w s

section Tunnels

variable {cfg : Config} {w w' : World} {s : Side} {event : Event} {stmts : List Stmt}
  {x : Option Throwable}

theorem other_other (s : Side) : s.other.other=s := by cases s <;> rfl

/-- Licensed statements keep the channels coupled. -/
theorem Coupled.eval (htls : ∀ s history input, (cfg.tls s history input).failed=false)
    (h : Coupled w) (hl : ∀ stmt∈stmts, Licensed w stmt) (he : Eval (perform cfg) w stmts w' x) :
    Coupled w' := by
  have hkept := kept_steps (he.contracts (contract_perform htls)) h.sound hl
  exact ⟨hkept.sound,fun s => hkept.linked s (h.linked s)⟩

/-- The state in which `channelInactive` is fired. -/
def informed (w : World) (s : Side) : World := w.upd s (fun c => { c with inactivePending := false })

theorem informed_life (t : Side) : ((informed w s).chan t).life=(w.chan t).life := by
  cases s <;> cases t <;> rfl

theorem informed_queue (t : Side) : ((informed w s).chan t).queue=(w.chan t).queue := by
  cases s <;> cases t <;> rfl

theorem informed_pipe (t : Side) : (informed w s).pipe t=w.pipe t := by
  cases s <;> cases t <;> rfl

theorem ending_informed {t : Side} (h : Ending w t) : Ending (informed w s) t := by
  rw [Ending,Shut,informed_life,informed_queue]
  exact h

/-- Soundness does not depend on what is left to be told. -/
theorem sound_informed (h : Sound w) : Sound (informed w s) := by
  have hgrows : Grows w (informed w s) := grows_of_eq informed_pipe informed_life
  have hhandlers : ∀ t, (informed w s).handlers t=w.handlers t :=
    fun t => congrArg Pipeline.handlers (informed_pipe t)
  refine ⟨fun t => ?_,fun t => ?_,fun t => ?_,fun t => ?_,fun t => ?_,fun t => ?_⟩
  · rw [Shut,informed_life]
    exact h.opened t
  · rw [hhandlers]
    exact h.tunnelled t
  · rw [hhandlers]
    exact h.intercepted t
  · rw [informed_pipe]
    exact h.named t
  · rw [informed_queue]
    exact fun entry he => hgrows.permitted (h.permitted t entry he)
  · rw [Shut,informed_life,informed_queue]
    exact h.unqueued t

/-- A closed channel whose pipeline has been taken apart, when the other channel is ending. -/
theorem coupled_destroyed (h : Sound w) (hs : Shut w s) (he : Ending w s.other) :
    Coupled (w.updPipe s (fun p => ⟨[],p.nextId,p.detached,by simp,by simp⟩)) := by
  have hshut : ∀ t, Shut (w.updPipe s (fun p => ⟨[],p.nextId,p.detached,by simp,by simp⟩)) t ↔
      Shut w t := fun t => by rw [Shut,updPipe_life,Shut]
  have hending : Ending (w.updPipe s (fun p => ⟨[],p.nextId,p.detached,by simp,by simp⟩)) s.other := by
    rw [Ending,hshut,updPipe_queue]
    exact he
  refine ⟨⟨fun t => ?_,fun t y hy => ?_,fun t y hy => ?_,fun t c hc => ?_,fun t entry hm => ?_,
    fun t ht => ?_⟩,fun t ht => .inr ?_⟩
  · rw [updPipe_life,hshut]
    exact h.opened t
  · by_cases hts : t=s
    · subst hts
      rw [handlers_updPipe_same] at hy
      cases hy
    · rw [handlers_updPipe_of_ne hts] at hy
      exact h.tunnelled t y hy
  · by_cases hts : t=s
    · subst hts
      rw [handlers_updPipe_same] at hy
      cases hy
    · rw [handlers_updPipe_of_ne hts] at hy ⊢
      exact h.intercepted t y hy
  · by_cases hts : t=s
    · subst hts
      rw [pipe_updPipe_same] at hc
      cases hc
    · rw [pipe_updPipe_of_ne hts] at hc
      exact h.named t c hc
  · rw [updPipe_queue] at hm
    -- only the other channel has a queue, and it may be closed now
    have hts : t=s.other := by
      cases s <;> cases t <;> first | rfl | (rw [h.unqueued _ hs] at hm; cases hm)
    have hmay : MayClose (w.updPipe s (fun p => ⟨[],p.nextId,p.detached,by simp,by simp⟩)) t := by
      rw [MayClose,hts,other_other,hshut]
      exact .inr hs
    have hp := h.permitted t entry hm
    cases hl : entry.2 with
    | none => trivial
    | close => exact hmay
    | responseWritten =>
      rw [hl] at hp
      exact ⟨hp.1,hmay⟩
    | connected | greetingSent | requestSent =>
      rw [hl] at hp
      exact hp
  · rw [updPipe_queue]
    exact h.unqueued t ((hshut t).mp ht)
  · by_cases hts : t=s
    · rw [hts]
      exact hending
    · have hto : t.other=s := by cases s <;> cases t <;> first | rfl | exact absurd rfl hts
      rw [hto]
      exact .inl ((hshut s).mpr hs)

/-- The end of a channel is told to its handlers and its pipeline is taken apart. -/
theorem Coupled.inactive (htls : ∀ s history input, (cfg.tls s history input).failed=false)
    (h : Coupled w) (ho : Orderly w) (ht : (system cfg).Turn w (.inactive s) w') : Coupled w' := by
  obtain ⟨w₀,stmts,x,hinject,heval⟩ := ht
  simp only [system,inject] at hinject
  split at hinject
  · rename_i hp
    cases hinject
    have hs : Shut w s := ho s hp
    have hs₀ : Shut (informed w s) s := by
      rw [Shut,informed_life]
      exact hs
    have hsound : Sound (informed w s) := sound_informed h.sound
    have hfire : ∀ {w₁ y}, Eval (perform cfg) (informed w s) [.pipelineFire s .inactive] w₁ y →
        y=none ∧ Kept (informed w s) w₁ ∧ Ending w₁ s.other := by
      intro w₁ y he
      have hsteps := he.contracts (contract_perform htls)
      have hl : ∀ stmt∈[Stmt.pipelineFire s .inactive], Licensed (informed w s) stmt :=
        List.forall_mem_singleton.mpr (fun _ => hs₀)
      have hkept := kept_steps hsteps hsound hl
      obtain ⟨hy,hall⟩ := achieved_steps hsteps hsound hl (by simp [Calm])
      refine ⟨hy,hkept,?_⟩
      rcases h.linked s hs with ⟨-,hrelay⟩|hending
      · obtain ⟨w₂,w₃,hbefore,hout,hafter⟩ := hall _ List.mem_cons_self
        have hrelay₀ : .relayHandler∈(informed w s).handlers s := by
          rw [World.handlers,informed_pipe]
          exact hrelay
        exact hafter.ending _ (hout.achieves (hbefore.grows.relay hrelay₀))
      · exact hkept.ending _ (ending_informed hending)
    rcases Eval.split heval with ⟨w₁,hfirst,hrest⟩|⟨e,-,hfirst⟩
    · obtain ⟨-,hkept,hending⟩ := hfire hfirst
      obtain rfl := eval_unique hrest (runs_of_done rfl)
      exact coupled_destroyed hkept.sound (hkept.grows.shut s hs₀) hending
    · exact absurd (hfire hfirst).1 (by simp)
  · cases hinject

/-- What an event starts in a tunnel, the end of a closed channel and early ends apart. -/
theorem licensed_inject {w₀ : World} (h : Sound w) (hi : ∀ s, event≠.inactive s)
    (hn : ¬EndsEarly w event) (hinject : inject event w=some (w₀,stmts)) :
    w₀=w ∧ ∀ stmt∈stmts, Licensed w stmt := by
  have hmay : ∀ s, Ends s event → MayClose w s :=
    fun s he => Classical.byContradiction (fun hm => hn (.inr ⟨s,he,hm⟩))
  have hlife : w.remote.life≠.connecting := by
    intro hl
    rcases h.opened .remote with ha|hs
    · rw [chan_remote,hl] at ha
      cases ha
    · rw [Shut,chan_remote,hl] at hs
      cases hs
  cases event with
  | inactive s => exact absurd rfl (hi s)
  | connected | connectFailed => simp [inject,hlife] at hinject
  | read s data | flushed s =>
    simp only [inject] at hinject
    split at hinject
    · cases hinject
      exact ⟨rfl,by simp [Licensed]⟩
    · cases hinject
  | peerClose s | ioException s | writeError s =>
    have hm := hmay s (by simp [Ends])
    simp only [inject] at hinject
    split at hinject
    · cases hinject
      exact ⟨rfl,by simp [Licensed,hm]⟩
    · cases hinject

/-- Every event that is no early end keeps the channels coupled. -/
theorem Coupled.turn (htls : ∀ s history input, (cfg.tls s history input).failed=false)
    (h : Coupled w) (ho : Orderly w) (hn : ¬EndsEarly w event)
    (ht : (system cfg).Turn w event w') : Coupled w' := by
  by_cases hi : ∃ s, event=.inactive s
  · obtain ⟨s,rfl⟩ := hi
    exact h.inactive htls ho ht
  · obtain ⟨w₀,stmts,x,hinject,heval⟩ := ht
    obtain ⟨rfl,hl⟩ := licensed_inject h.sound (fun s he => hi ⟨s,he⟩) hn hinject
    exact h.eval htls hl heval

end Tunnels

section Attempts

variable {cfg : Config} {w w' w₀ : World} {proxy : Proxy} {request : Socks5CommandRequest}
  {event : Event} {events : List Event}

/-- The promise of the attempt has not been completed, and its remote channel is not closed. -/
structure Unanswered (cfg : Config) (request : Socks5CommandRequest) (proxy : Proxy) (w : World) :
    Prop where
  /-- The stage of the attempt. -/
  live : Live (openClient cfg request) proxy w
  /-- The connect is in progress, or the dialogue with the server. -/
  stage : Connecting (openClient cfg request) proxy w ∨
    ∃ rs said replies, Dialogue (openClient cfg request) proxy rs said replies w

/-- The client side of such an attempt. -/
theorem Unanswered.pending (h : Unanswered cfg request proxy w) : ∃ cs, Pending request cs w ∧
    ∀ x∈cs, x=.upstreamHandler proxy request := by
  rcases h.stage with hc|⟨rs,said,replies,hd⟩
  · exact ⟨_,Dialing.client hc.client,fun x hx => List.mem_singleton.mp hx⟩
  · exact ⟨_,hd.client,by simp⟩

/-- No channel of such an attempt is closed. -/
theorem Unanswered.not_shut (h : Unanswered cfg request proxy w) (s : Side) : ¬Shut w s := by
  intro hs
  cases s with
  | client =>
    obtain ⟨cs,hp,-⟩ := h.pending
    have hl : w.client.life=.active := of_decide_eq_true hp.active
    rw [Shut,chan_client,hl] at hs
    cases hs
  | remote =>
    rcases h.stage with hc|⟨rs,said,replies,hd⟩
    · rw [Shut,chan_remote,hc.life] at hs
      cases hs
    · have hl : w.remote.life=.active := of_decide_eq_true hd.active
      rw [Shut,chan_remote,hl] at hs
      cases hs

/-- The handlers of its client leave bytes and the end of a read to nobody. -/
theorem Unanswered.silent (h : Unanswered cfg request proxy w) {x : Handler}
    (hx : x∈w.handlers .client) : (∀ message, reacts (.read message) x=false) ∧
      reacts .readComplete x=false ∧ reacts .inactive x=false := by
  obtain ⟨cs,hp,hcs⟩ := h.pending
  rw [hp.handlers] at hx
  rcases List.mem_append.mp hx with hx|hx
  · exact ⟨fun message => (socksCodecs_idle x hx).1 _,(socksCodecs_idle x hx).1 _,
      (socksCodecs_idle x hx).1 _⟩
  · rw [hcs x hx]
    exact ⟨fun message => rfl,rfl,rfl⟩

/-- Whatever ends a channel of it comes early. -/
theorem Unanswered.endsEarly (h : Unanswered cfg request proxy w) {s : Side} (he : Ends s event) :
    EndsEarly w event := by
  refine .inr ⟨s,he,?_⟩
  rintro (hr|hs)
  · have hnone : reacts .inactive .relayHandler=false := by
      cases s with
      | client => exact (h.silent hr).2.2
      | remote => exact (live_silent h.live _ hr).2
    cases hnone
  · exact h.not_shut _ hs

/-- A pending promise leaves the attempt unanswered. -/
theorem unanswered_of_pending {cs : List Handler} (h : Live (openClient cfg request) proxy w)
    (hp : Pending request cs w) : Unanswered cfg request proxy w := by
  obtain ⟨_,_,hpending,-⟩ := hp.promise
  rcases live_shape h with hc|hd|ho|hf
  · exact ⟨h,.inl hc⟩
  · exact ⟨h,.inr hd⟩
  · obtain ⟨_,hs⟩ := Succeeded.promise ho.client
    rw [hpending] at hs
    cases hs
  · obtain ⟨_,hs⟩ := Refused.promise hf.client
    rw [hpending] at hs
    cases hs

/-- A reply of the server has failed the promise. -/
def ServerRefused (w : World) : Prop := ∃ message, .reply message∈w.log ∧ Reported message

/-- One event that is no early end leaves an attempt unanswered, opens a tunnel, or is the reply by
which the server refuses. -/
theorem Unanswered.turn (h : Unanswered cfg request proxy w) (ho : Orderly w)
    (hn : ¬EndsEarly w event) (ht : (system cfg).Turn w event w') :
    Unanswered cfg request proxy w' ∨
      (Opened (openClient cfg request) proxy w' ∧ w'.isActive .remote=true) ∨ ServerRefused w' := by
  have hnext : Next (openClient cfg request) proxy w' → Unanswered cfg request proxy w' ∨
      (Opened (openClient cfg request) proxy w' ∧ w'.isActive .remote=true) ∨ ServerRefused w' := by
    rintro (⟨hl,hd⟩|⟨hopened,ha⟩|⟨-,message,hm,hr⟩)
    · exact .inl ⟨hl,.inr ⟨_,_,_,hd⟩⟩
    · exact .inr (.inl ⟨hopened,ha⟩)
    · exact .inr (.inr ⟨message,mem_repliesIn.mp hm,hr⟩)
  have hdialogue : w.isActive .remote=true →
      ∃ rs said replies, Dialogue (openClient cfg request) proxy rs said replies w := by
    intro ha
    rcases h.stage with hc|hd
    · have hl : w.remote.life=.active := of_decide_eq_true ha
      rw [hc.life] at hl
      cases hl
    · exact hd
  cases event with
  | connected => exact hnext (connected_next h.live ht)
  | connectFailed => exact absurd (.inl rfl) hn
  | peerClose s | ioException s | writeError s =>
    exact absurd (h.endsEarly (s:=s) (by simp [Ends])) hn
  | inactive s =>
    obtain ⟨w₀,stmts,x,hinject,-⟩ := ht
    simp only [system,inject] at hinject
    split at hinject
    · rename_i hp
      exact absurd (ho s hp) (h.not_shut s)
    · cases hinject
  | read s data =>
    cases s with
    | client =>
      obtain rfl := turn_read_silent (fun x hx => (h.silent hx).1 _)
        (fun x hx => (h.silent hx).2.1) ht
      exact .inl h
    | remote =>
      obtain ⟨rs,said,replies,hd⟩ := hdialogue (active_of_read ht)
      exact hnext (read_dialogue h.live hd ht)
  | flushed s =>
    cases s with
    | client =>
      obtain ⟨cs,hp,-⟩ := h.pending
      have hupstream : Upstream (.flushed .client) := trivial
      have haside := open_aside (live_status h.live) ho hupstream trivial ht
      exact .inl (unanswered_of_pending (live_aside h.live haside) (haside.waiting cs hp))
    | remote =>
      obtain ⟨rs,said,replies,hd⟩ := hdialogue (active_of_flushed ht)
      exact hnext (flushed_dialogue h.live hd ht)

end Attempts

end ProxyDroid.CloseRuns
