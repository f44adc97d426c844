import ProxyDroid.ConnectionRules

/-!
# Invariants of every run

Facts about the two channels that no statement can break, whichever handler
executes it, and what an event that has been handled says about the state
before it.
-/

namespace ProxyDroid.ConnectionInvariants

open CallSemantics HandlerPipeline ConnectionTypes ConnectionHandlers ConnectionSystem
open ConnectionRules

/-- State that a statement leaves or hands to the body it calls. -/
def stateOf : Effect → World
  | .done w => w
  | .throw _ w => w
  | .call w _ _ => w

/-- What one statement does to the channels: it changes a pipeline, a queue or
nothing, closes a channel, or opens the remote one. -/
inductive Change (w : World) : World → Prop
  | same {w' : World} (hc : w'.client=w.client) (hr : w'.remote=w.remote) : Change w w'
  | pipe (s : Side) (g : Pipeline Label Handler → Pipeline Label Handler) :
      Change w (w.updPipe s g)
  | enqueue (s : Side) (message : Msg) (listener : Listener) (h : w.isActive s=true) :
      Change w (w.enqueue s message listener)
  | takeQueue (s : Side) : Change w (w.takeQueue s)
  | close (s : Side) (h : (w.chan s).life=.active) : Change w (w.upd s shut)
  | abort (s : Side) (h : (w.chan s).life=.connecting) :
      Change w (w.upd s (fun c => { c with life := .closed, queue := [] }))
  | connect {w' : World} (p : Pipeline Label Handler) (h : w.remote.life=.idle)
      (hc : w'.client=w.client) (hr : w'.remote=⟨p,.connecting,false,[],[]⟩) : Change w w'

section Statements

variable {cfg : Config} {w : World}

theorem change_deliver (s : Side) (event : Inbound) (target : Option ℕ) :
    Change w (stateOf (deliver cfg w s event target)) := by
  cases target with
  | none => exact .same rfl rfl
  | some id =>
    rw [deliver]
    split <;> exact .same rfl rfl

theorem change_headWrite (s : Side) (message : Msg) (listener : Listener) (flush : Bool) :
    Change w (stateOf (headWrite w s message listener flush)) := by
  have haccept : Change w (stateOf (if w.isActive s then
      if flush then .call (w.enqueue s message listener) [.flush s] drop
      else .done (w.enqueue s message listener)
    else .call w [.notify s listener false] drop)) := by
    split
    · rename_i ha
      split <;> exact .enqueue s message listener ha
    · exact .same rfl rfl
  cases message with
  | bytes data => exact haccept
  | encoded m => exact haccept
  | socks | http | fullRequest | fullResponse => exact .same rfl rfl

theorem change_addNamed (s : Side) (k : ℕ) (label : Option Label) (h : Handler) :
    Change w (stateOf (addNamed w s k label h)) := by
  unfold addNamed
  split
  · exact .same rfl rfl
  · exact .pipe s (fun p => p.insertAt k label h)

theorem change_complete (state : PromiseState) : Change w (stateOf (complete w state)) := by
  unfold complete
  split
  · exact .same rfl rfl
  · split <;> exact .same rfl rfl

/-- Every statement makes one of these changes. -/
theorem change_perform (cfg : Config) (stmt : Stmt) (w : World) :
    Change w (stateOf (perform cfg stmt w)) := by
  cases stmt with
  | addLast | addFirst | addAfterCtx => exact change_addNamed _ _ _ _
  | addAfter | addBefore =>
    simp only [perform]
    split
    · exact change_addNamed _ _ _ _
    · exact .same rfl rfl
  | remove s id =>
    simp only [perform]
    split
    · exact .pipe s (fun p => p.remove id)
    · exact .same rfl rfl
  | replace s id label h =>
    simp only [perform]
    split
    · exact .pipe s (fun p => p.replace id (some label) h)
    · exact .same rfl rfl
  | assign s id h => exact .pipe s (fun p => p.assign id h)
  | destroy s => exact .pipe s (fun p => ⟨[],p.nextId,p.detached,by simp,by simp⟩)
  | pipelineFire | ctxFire => exact change_deliver _ _ _
  | invoke =>
    simp only [perform]
    split
    · split <;> exact change_deliver _ _ _
    · exact change_deliver _ _ _
  | write s source message listener flush =>
    simp only [perform]
    split
    · exact change_headWrite _ _ _ _
    · split
      · exact change_headWrite _ _ _ _
      · exact .same rfl rfl
  | flush =>
    simp only [perform]
    split <;> exact .same rfl rfl
  | drain s => exact .takeQueue s
  | closeOnFlush =>
    simp only [perform]
    split <;> exact .same rfl rfl
  | close s =>
    simp only [perform]
    split
    · rename_i h
      exact .close s h
    · rename_i h
      exact .abort s h
    · exact .same rfl rfl
  | setSuccess | setFailure => exact change_complete _
  | connect id proxy request host port =>
    simp only [perform]
    split
    · rename_i h
      exact .connect _ h rfl rfl
    · exact .same rfl rfl
  | addInitializer | notify | newPromise | raise | noteSelected | noteReply | noteRequest
    | noteOnRequest | noteOnResponse | noteEncoded => exact .same rfl rfl

end Statements

/-- A channel that waits for `channelInactive` is closed. -/
def Orderly (w : World) : Prop :=
  ∀ s, (w.chan s).inactivePending=true → (w.chan s).life=.closed

/-- No change breaks the order of a channel's life. -/
theorem Orderly.change {w w' : World} (h : Orderly w) (hc : Change w w') : Orderly w' := by
  cases hc with
  | same hc hr =>
    intro s
    cases s with
    | client => simpa only [chan_client,hc] using h .client
    | remote => simpa only [chan_remote,hr] using h .remote
  | pipe s g =>
    intro t
    cases s <;> cases t <;> first | exact h .client | exact h .remote
  | enqueue s | takeQueue s =>
    intro t
    cases s <;> cases t <;> first | exact h .client | exact h .remote
  | close s hl =>
    intro t
    cases s <;> cases t <;> first | exact fun _ => rfl | exact h .client | exact h .remote
  | abort s hl =>
    intro t
    cases s <;> cases t <;> first | exact fun _ => rfl | exact h .client | exact h .remote
  | connect p hl hc hr =>
    intro s hp
    cases s with
    | client =>
      rw [chan_client,hc] at hp ⊢
      exact h .client hp
    | remote =>
      rw [chan_remote,hr] at hp
      cases hp

/-- Every evaluation keeps it. -/
theorem Orderly.eval {cfg : Config} {w w' : World} {stmts : List Stmt} {x : Option Throwable}
    (h : Orderly w) (he : Eval (perform cfg) w stmts w' x) : Orderly w' := by
  refine he.preserves ?_ ?_ ?_ h
  · intro stmt s s₁ hs hp
    have hchange := change_perform cfg stmt s
    rw [hp] at hchange
    exact hs.change hchange
  · intro stmt s e s₁ hs hp
    have hchange := change_perform cfg stmt s
    rw [hp] at hchange
    exact hs.change hchange
  · intro stmt s s₁ body rescue hs hp
    have hchange := change_perform cfg stmt s
    rw [hp] at hchange
    exact hs.change hchange

/-- Every turn keeps it. -/
theorem Orderly.turn {cfg : Config} {w w' : World} {event : Event} (h : Orderly w)
    (ht : (system cfg).Turn w event w') : Orderly w' := by
  obtain ⟨w₀,stmts,x,hinject,heval⟩ := ht
  refine Orderly.eval ?_ heval
  cases event with
  | read s data | peerClose s | ioException s | writeError s | flushed s =>
    simp only [system,inject] at hinject
    split at hinject
    · cases hinject
      exact h
    · cases hinject
  | connected =>
    simp only [system,inject] at hinject
    split at hinject
    · rename_i hlife
      cases hinject
      intro s hp
      cases s with
      | client => exact h .client hp
      | remote =>
        have hclosed := h .remote hp
        rw [chan_remote,hlife] at hclosed
        cases hclosed
    · cases hinject
  | connectFailed =>
    simp only [system,inject] at hinject
    split at hinject
    · cases hinject
      intro s hp
      cases s with
      | client => exact h .client hp
      | remote => rfl
    · cases hinject
  | inactive s =>
    simp only [system,inject] at hinject
    split at hinject
    · cases hinject
      intro t
      cases s <;> cases t <;>
        first | exact h .client | exact h .remote | exact fun hp => by cases hp
    · cases hinject

/-- The log has grown. -/
def Logged (w w' : World) : Prop := ∃ seen, w'.log=w.log++seen

section Log

variable {w w₁ w' : World}

theorem logged_of_eq (h : w'.log=w.log) : Logged w w' := ⟨[],by simpa using h⟩

theorem logged_note {obs : Obs} : Logged w (w.note obs) := ⟨[obs],rfl⟩

theorem logged_upd (s : Side) (f : Channel → Channel) : Logged w (w.upd s f) :=
  logged_of_eq upd_log

theorem logged_updPipe (s : Side) (g : Pipeline Label Handler → Pipeline Label Handler) :
    Logged w (w.updPipe s g) := logged_of_eq updPipe_log

theorem Logged.trans (h : Logged w w₁) (k : Logged w₁ w') : Logged w w' := by
  obtain ⟨seen,hlog⟩ := h
  obtain ⟨more,hlog'⟩ := k
  exact ⟨seen++more,by rw [hlog',hlog,List.append_assoc]⟩

/-- Observations are not forgotten. -/
theorem Logged.mem (h : Logged w w') {obs : Obs} (hm : obs∈w.log) : obs∈w'.log := by
  obtain ⟨seen,hlog⟩ := h
  rw [hlog]
  exact List.mem_append_left _ hm

end Log

section Turns

variable {cfg : Config} {w w' w₁ : World} {s : Side} {event : Event}

/-- Statements that run to their end have no other outcome. -/
theorem eval_unique {stmts : List Stmt} {x : Option Throwable}
    (he : Eval (perform cfg) w stmts w' x) (hr : Runs cfg w stmts w₁) : w'=w₁ :=
  (he.deterministic hr).1

/-- Bytes arrive on an open channel. -/
theorem active_of_read {data : Bytes} (ht : (system cfg).Turn w (.read s data) w') :
    w.isActive s=true := by
  obtain ⟨w₀,stmts,x,hinject,-⟩ := ht
  simp only [system,inject] at hinject
  split at hinject
  · assumption
  · cases hinject

/-- Queued writes are taken from an open channel. -/
theorem active_of_flushed (ht : (system cfg).Turn w (.flushed s) w') : w.isActive s=true := by
  obtain ⟨w₀,stmts,x,hinject,-⟩ := ht
  simp only [system,inject] at hinject
  split at hinject
  · rename_i ha
    exact (Bool.and_eq_true_iff.mp ha).1
  · cases hinject

/-- The socket takes queued writes that nobody waits for. -/
theorem turn_flushed_quiet (hq : Quiet w s) (ht : (system cfg).Turn w (.flushed s) w') :
    w'=w.takeQueue s := by
  obtain ⟨w₀,stmts,x,hinject,heval⟩ := ht
  simp only [system,inject] at hinject
  split at hinject
  · cases hinject
    exact eval_unique heval (runs_of_call rfl (runs_notify_none hq))
  · cases hinject

/-- Bytes that no handler takes. -/
theorem turn_read_silent {data : Bytes}
    (hr : ∀ h∈w.handlers s, reacts (.read (.bytes data)) h=false)
    (hc : ∀ h∈w.handlers s, reacts .readComplete h=false)
    (ht : (system cfg).Turn w (.read s data) w') : w'=w := by
  obtain ⟨w₀,stmts,x,hinject,heval⟩ := ht
  simp only [system,inject] at hinject
  split at hinject
  · cases hinject
    exact eval_unique heval ((runs_pipelineFire_none hr).cons (runs_pipelineFire_none hc))
  · cases hinject

/-- Listeners that a failed write does not wake, and closing ones, find the
channel closed. -/
theorem runs_notify_closed {ok : Bool} {entries : List (Msg×Listener)}
    (hc : (w.chan s).life=.closed)
    (hq : ∀ entry∈entries, listenerBody s ok entry.2=[] ∨ entry.2=.close) :
    Runs cfg w (entries.map (fun entry => .notify s entry.2 ok)) w := by
  have hclose : Runs cfg w [.close s] w := by
    refine runs_of_done ?_
    simp only [perform,hc]
  induction entries with
  | nil => exact runs_nil
  | cons entry entries ih =>
    obtain ⟨message,listener⟩ := entry
    refine Runs.cons ?_ (ih (fun e he => hq e (List.mem_cons_of_mem _ he)))
    rcases hq _ List.mem_cons_self with hn|hn
    · refine runs_of_call rfl ?_
      rw [hn]
      exact runs_nil
    · cases hn
      exact runs_of_call rfl hclose

/-- Closing an open channel whose listeners do not act on a failure, except
by closing it. -/
theorem runs_close (ha : w.isActive s=true)
    (hq : ∀ entry∈(w.chan s).queue, listenerBody s false entry.2=[] ∨ entry.2=.close) :
    Runs cfg w [.close s] (w.upd s shut) := by
  refine runs_of_call (perform_close ha) (runs_notify_closed ?_ hq)
  rw [chan_upd_same]
  rfl

/-- Closing a channel whose queued writes nobody waits for. -/
theorem runs_close_quiet (ha : w.isActive s=true) (hq : Quiet w s) :
    Runs cfg w [.close s] (w.upd s shut) :=
  runs_of_call (perform_close ha) (runs_notify_none hq)

/-- Events after which a channel is closed from outside. -/
def Ends (s : Side) (event : Event) : Prop :=
  event=.peerClose s ∨ event=.ioException s ∨ event=.writeError s

/-- Such an event finds the channel open and, unless a handler takes the
exception, just closes it. -/
theorem turn_ends (he : Ends s event)
    (hn : ∀ h∈w.handlers s, reacts (.exceptionCaught .ioException) h=false)
    (ht : (system cfg).Turn w event w') :
    w.isActive s=true ∧ ∃ x, Eval (perform cfg) w [.close s] w' x := by
  obtain ⟨w₀,stmts,x,hinject,heval⟩ := ht
  rcases he with rfl|rfl|rfl
  · simp only [system,inject] at hinject
    split at hinject
    · rename_i ha
      cases hinject
      exact ⟨ha,x,heval⟩
    · cases hinject
  · simp only [system,inject] at hinject
    split at hinject
    · rename_i ha
      cases hinject
      have hfire : Runs cfg w [.pipelineFire s (.exceptionCaught .ioException)] w :=
        runs_pipelineFire_none hn
      exact ⟨ha,x,Eval.rest hfire heval⟩
    · cases hinject
  · simp only [system,inject] at hinject
    split at hinject
    · rename_i ha
      cases hinject
      have hboth := Bool.and_eq_true_iff.mp ha
      exact ⟨hboth.1,x,heval⟩
    · cases hinject

/-- The end of a channel that no handler takes. -/
theorem turn_inactive_silent (hn : ∀ h∈w.handlers s, reacts .inactive h=false)
    (ht : (system cfg).Turn w (.inactive s) w') :
    (w.chan s).inactivePending=true ∧
      w'=(w.upd s (fun c => { c with inactivePending := false })).updPipe s
        (fun p => ⟨[],p.nextId,p.detached,by simp,by simp⟩) := by
  obtain ⟨w₀,stmts,x,hinject,heval⟩ := ht
  simp only [system,inject] at hinject
  split at hinject
  · rename_i hp
    cases hinject
    refine ⟨hp,eval_unique heval ((runs_pipelineFire_none ?_).cons (runs_of_done rfl))⟩
    intro h hm
    refine hn h ?_
    cases s <;> exact hm
  · cases hinject

end Turns

/-- Nothing is left to do for the event loop itself: no connect is in progress,
no write waits for its socket and no channel waits for `channelInactive`. -/
def Quiescent (w : World) : Prop :=
  inject .connected w=none ∧ ∀ s, inject (.flushed s) w=none ∧ inject (.inactive s) w=none

section Quiescence

variable {w : World}

theorem Quiescent.life (h : Quiescent w) : w.remote.life≠.connecting := by
  intro hl
  have hnone := h.1
  simp [inject,hl] at hnone

theorem Quiescent.queue (h : Quiescent w) {s : Side} (ha : w.isActive s=true) :
    (w.chan s).queue=[] := by
  have hnone := (h.2 s).1
  simpa [inject,ha] using hnone

theorem Quiescent.inactivePending (h : Quiescent w) (s : Side) :
    (w.chan s).inactivePending=false := by
  have hnone := (h.2 s).2
  simpa [inject] using hnone

end Quiescence

end ProxyDroid.ConnectionInvariants
