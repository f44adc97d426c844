import ProxyDroid.ConnectionSystem

/-!
# Evaluation rules of the connection

One rule for each statement that the phase lemmas use, stated on the
handlers of a pipeline and not on its contexts. A rule of an event says that
delivering it amounts to the body of the handler that takes it.
-/

namespace ProxyDroid.ConnectionRules

open CallSemantics HandlerPipeline ConnectionTypes ConnectionHandlers ConnectionSystem

section Worlds

variable {w : World} {s t : Side} {f : Channel → Channel}
  {g : Pipeline Label Handler → Pipeline Label Handler} {obs : Obs}

@[simp] theorem pipe_handlers : (w.pipe s).handlers=w.handlers s := rfl

@[simp] theorem chan_client : w.chan .client=w.client := rfl

@[simp] theorem chan_remote : w.chan .remote=w.remote := rfl

@[simp] theorem chan_upd_same : (w.upd s f).chan s=f (w.chan s) := by
  cases s <;> rfl

@[simp] theorem chan_upd_of_ne (h : t≠s) : (w.upd s f).chan t=w.chan t := by
  cases s <;> cases t <;> first | rfl | exact absurd rfl h

@[simp] theorem upd_promise : (w.upd s f).promise=w.promise := by cases s <;> rfl

@[simp] theorem upd_connecting : (w.upd s f).connecting=w.connecting := by cases s <;> rfl

@[simp] theorem upd_flushes : (w.upd s f).flushes=w.flushes := by cases s <;> rfl

@[simp] theorem upd_log : (w.upd s f).log=w.log := by cases s <;> rfl

@[simp] theorem pipe_updPipe_same : (w.updPipe s g).pipe s=g (w.pipe s) := by
  cases s <;> rfl

@[simp] theorem pipe_updPipe_of_ne (h : t≠s) : (w.updPipe s g).pipe t=w.pipe t := by
  rw [World.pipe,World.updPipe,chan_upd_of_ne h]
  rfl

@[simp] theorem handlers_updPipe_same :
    (w.updPipe s g).handlers s=(g (w.pipe s)).handlers := by
  rw [World.handlers,pipe_updPipe_same]

@[simp] theorem handlers_updPipe_of_ne (h : t≠s) :
    (w.updPipe s g).handlers t=w.handlers t := by
  rw [World.handlers,pipe_updPipe_of_ne h,World.handlers]

@[simp] theorem updPipe_isActive : (w.updPipe s g).isActive t=w.isActive t := by
  cases s <;> cases t <;> rfl

@[simp] theorem updPipe_life : ((w.updPipe s g).chan t).life=(w.chan t).life := by
  cases s <;> cases t <;> rfl

@[simp] theorem updPipe_queue : ((w.updPipe s g).chan t).queue=(w.chan t).queue := by
  cases s <;> cases t <;> rfl

@[simp] theorem updPipe_written : (w.updPipe s g).written t=w.written t := by
  cases s <;> cases t <;> rfl

@[simp] theorem updPipe_promise : (w.updPipe s g).promise=w.promise := by cases s <;> rfl

@[simp] theorem updPipe_connecting : (w.updPipe s g).connecting=w.connecting := by
  cases s <;> rfl

@[simp] theorem updPipe_log : (w.updPipe s g).log=w.log := by cases s <;> rfl

/-- Two changes of one pipeline are one change. -/
theorem updPipe_updPipe {g' : Pipeline Label Handler → Pipeline Label Handler} :
    (w.updPipe s g).updPipe s g'=w.updPipe s (fun p => g' (g p)) := by cases s <;> rfl

@[simp] theorem note_chan : (w.note obs).chan s=w.chan s := by cases s <;> rfl

@[simp] theorem note_pipe : (w.note obs).pipe s=w.pipe s := by cases s <;> rfl

@[simp] theorem note_handlers : (w.note obs).handlers s=w.handlers s := by
  rw [World.handlers,note_pipe,World.handlers]

@[simp] theorem note_isActive : (w.note obs).isActive s=w.isActive s := by cases s <;> rfl

@[simp] theorem note_written : (w.note obs).written s=w.written s := by cases s <;> rfl

@[simp] theorem note_promise : (w.note obs).promise=w.promise := rfl

@[simp] theorem note_log : (w.note obs).log=w.log++[obs] := rfl

end Worlds

/-- Every queued write of a side has no listener. -/
def Quiet (w : World) (s : Side) : Prop := ∀ entry∈(w.chan s).queue, entry.2=.none

theorem quiet_of_nil {w : World} {s : Side} (h : (w.chan s).queue=[]) : Quiet w s := by
  intro entry he
  rw [h] at he
  cases he

@[simp] theorem quiet_updPipe {w : World} {s t : Side}
    {g : Pipeline Label Handler → Pipeline Label Handler} :
    Quiet (w.updPipe s g) t ↔ Quiet w t := by
  rw [Quiet,updPipe_queue,Quiet]

@[simp] theorem quiet_note {w : World} {obs : Obs} {t : Side} :
    Quiet (w.note obs) t ↔ Quiet w t := by
  rw [Quiet,note_chan,Quiet]

/-- State after an attempt to flush a side without listeners. -/
def tryFlush (cfg : Config) (w : World) (s : Side) : World :=
  if cfg.flushNow w.flushes then w.attempt.takeQueue s else w.attempt

/-- State after a write without a listener and its flush. -/
def accept (cfg : Config) (w : World) (s : Side) (message : Msg) : World :=
  tryFlush cfg (w.enqueue s message .none) s

section Accept

variable {cfg : Config} {w : World} {s t : Side} {message : Msg}

@[simp] theorem accept_pipe : (accept cfg w s message).pipe t=w.pipe t := by
  unfold accept tryFlush
  split <;> cases s <;> cases t <;> rfl

@[simp] theorem accept_handlers : (accept cfg w s message).handlers t=w.handlers t := by
  rw [World.handlers,accept_pipe,World.handlers]

@[simp] theorem accept_isActive : (accept cfg w s message).isActive t=w.isActive t := by
  unfold accept tryFlush
  split <;> cases s <;> cases t <;> rfl

@[simp] theorem accept_promise : (accept cfg w s message).promise=w.promise := by
  unfold accept tryFlush
  split <;> cases s <;> rfl

@[simp] theorem accept_log : (accept cfg w s message).log=w.log := by
  unfold accept tryFlush
  split <;> cases s <;> rfl

/-- A write leaves the other channel alone. -/
theorem accept_chan_of_ne (h : t≠s) : (accept cfg w s message).chan t=w.chan t := by
  unfold accept tryFlush
  split <;> cases s <;> cases t <;> first | rfl | exact absurd rfl h

/-- An accepted write is the last one written to its side. -/
@[simp] theorem accept_written_same :
    (accept cfg w s message).written s=w.written s++[message] := by
  unfold accept tryFlush World.written
  split <;> cases s <;> simp [World.enqueue,World.takeQueue,World.attempt,World.upd]

/-- A write changes nothing on the other side. -/
@[simp] theorem accept_written_of_ne (h : t≠s) :
    (accept cfg w s message).written t=w.written t := by
  unfold accept tryFlush World.written
  split <;> cases s <;> cases t <;> first | rfl | exact absurd rfl h

/-- What is left in the queue of a side after a write to it. -/
theorem accept_queue_same : ((accept cfg w s message).chan s).queue=
    if cfg.flushNow w.flushes then [] else (w.chan s).queue++[(message,.none)] := by
  unfold accept tryFlush
  cases s <;> simp only [World.enqueue,upd_flushes] <;> split <;> rfl

/-- A write leaves the other queue alone. -/
theorem accept_queue_of_ne (h : t≠s) :
    ((accept cfg w s message).chan t).queue=(w.chan t).queue := by rw [accept_chan_of_ne h]

/-- A write without a listener keeps the queues free of listeners. -/
theorem accept_quiet (h : Quiet w t) : Quiet (accept cfg w s message) t := by
  intro entry he
  by_cases hst : t=s
  · subst hst
    rw [accept_queue_same] at he
    split at he
    · cases he
    · rcases List.mem_append.mp he with he|he
      · exact h entry he
      · rw [List.mem_singleton.mp he]
  · rw [accept_queue_of_ne hst] at he
    exact h entry he

end Accept

/-- The statements run to their end without an exception. -/
def Runs (cfg : Config) (w : World) (stmts : List Stmt) (w' : World) : Prop :=
  Eval (perform cfg) w stmts w' none

section Runs

variable {cfg : Config} {w w₁ w₂ w₃ : World} {s : Side} {id : ℕ} {stmt : Stmt}
  {stmts stmts' : List Stmt} {pre post : List Handler} {h h' : Handler} {event : Inbound}
  {message : Msg}

theorem runs_nil : Runs cfg w [] w := .nil w

/-- Statement lists run one after the other. -/
theorem Runs.append (h : Runs cfg w stmts w₁) (k : Runs cfg w₁ stmts' w₂) :
    Runs cfg w (stmts++stmts') w₂ := Eval.append h k

/-- The first statement, then the others. -/
theorem Runs.cons (h : Runs cfg w [stmt] w₁) (k : Runs cfg w₁ stmts w₂) :
    Runs cfg w (stmt::stmts) w₂ := by
  have hall := h.append k
  exact hall

theorem runs_of_done (h : perform cfg stmt w=.done w₁) : Runs cfg w [stmt] w₁ :=
  .done h (.nil _)

theorem runs_of_call {rescue : Throwable → World → List Stmt}
    (h : perform cfg stmt w=.call w₁ stmts rescue) (k : Runs cfg w₁ stmts w₂) :
    Runs cfg w [stmt] w₂ := .call h k (.nil _)

/-- A call whose body throws ends with its rescue statements. -/
theorem runs_of_rescue {rescue : Throwable → World → List Stmt} {cause : Throwable}
    {x : Option Throwable} (h : perform cfg stmt w=.call w₁ stmts rescue)
    (k : Eval (perform cfg) w₁ stmts w₂ (some cause))
    (r : Eval (perform cfg) w₂ (rescue cause w₂) w₃ x) : Runs cfg w [stmt] w₃ :=
  .rescue h k r (.nil _)

theorem runs_addLast : Runs cfg w [.addLast s none h]
    (w.updPipe s (fun p => p.insertAt p.contexts.length none h)) := by
  refine runs_of_done ?_
  cases s <;> rfl

theorem runs_assign : Runs cfg w [.assign s id h] (w.updPipe s (fun p => p.assign id h)) :=
  runs_of_done rfl

theorem runs_noteSelected {isTls : Bool} :
    Runs cfg w [.noteSelected isTls] (w.note (.selected isTls)) := runs_of_done rfl

theorem runs_remove (hl : (w.pipe s).Located id pre h post) :
    Runs cfg w [.remove s id] (w.updPipe s (fun p => p.remove id)) := by
  refine runs_of_done ?_
  change (if (w.pipe s).has id then _ else _)=_
  rw [if_pos hl.has]

/-- Delivering to a position executes the body of its handler. -/
theorem deliver_located (hl : (w.pipe s).Located id pre h post) :
    deliver cfg w s event (some id)=.call w (body cfg w s id event h) (rescueOf s id event) := by
  rw [deliver,hl.find]

/-- An event from the head calls the first handler that takes it. -/
theorem perform_pipelineFire (cfg : Config) (event : Inbound) (hh : w.handlers s=pre++h::post)
    (hpre : ∀ x∈pre, reacts event x=false) (hq : reacts event h=true) :
    ∃ id, (w.pipe s).Located id pre h post ∧ perform cfg (.pipelineFire s event) w=
      .call w (body cfg w s id event h) (rescueOf s id event) := by
  obtain ⟨id,hf,hl⟩ := Pipeline.firstWhere_eq hh hpre hq
  refine ⟨id,hl,?_⟩
  change deliver cfg w s event ((w.pipe s).firstWhere (reacts event))=_
  rw [hf,deliver_located hl]

/-- An event that no handler takes changes nothing. -/
theorem runs_pipelineFire_none (hh : ∀ x∈w.handlers s, reacts event x=false) :
    Runs cfg w [.pipelineFire s event] w := by
  refine runs_of_done ?_
  change deliver cfg w s event ((w.pipe s).firstWhere (reacts event))=_
  rw [Pipeline.firstWhere_none hh]
  rfl

/-- An event passed on calls the next handler that takes it. -/
theorem perform_ctxFire (cfg : Config) (event : Inbound) (mid : List Handler)
    (hl : (w.pipe s).Located id pre h (mid++h'::post))
    (hmid : ∀ x∈mid, reacts event x=false) (hq : reacts event h'=true) :
    ∃ id', (w.pipe s).Located id' (pre++h::mid) h' post ∧ perform cfg (.ctxFire s id event) w=
      .call w (body cfg w s id' event h') (rescueOf s id' event) := by
  obtain ⟨id',hf,hl'⟩ := hl.nextWhere_eq hmid hq
  refine ⟨id',hl',?_⟩
  change deliver cfg w s event ((w.pipe s).nextWhere id (reacts event))=_
  rw [hf,deliver_located hl']

/-- An event passed on that no later handler takes changes nothing. -/
theorem runs_ctxFire_none (hl : (w.pipe s).Located id pre h post)
    (hpost : ∀ x∈post, reacts event x=false) : Runs cfg w [.ctxFire s id event] w := by
  refine runs_of_done ?_
  change deliver cfg w s event ((w.pipe s).nextWhere id (reacts event))=_
  rw [hl.nextWhere_none hpost]
  rfl

/-- A handler takes an event and the whole delivery ends in `w₁`, whether its
method returns or throws. -/
def Takes (cfg : Config) (w : World) (s : Side) (id : ℕ) (event : Inbound) (h : Handler)
    (w₁ : World) : Prop :=
  ∀ stmt, perform cfg stmt w=.call w (body cfg w s id event h) (rescueOf s id event) →
    Runs cfg w [stmt] w₁

/-- A method that returns. -/
theorem takes_of_runs (k : Runs cfg w (body cfg w s id event h) w₁) :
    Takes cfg w s id event h w₁ := fun _ hp => runs_of_call hp k

/-- A method that throws is followed by `exceptionCaught` of its context. -/
theorem takes_of_throw {cause : Throwable}
    (k : Eval (perform cfg) w (body cfg w s id event h) w₁ (some cause))
    (he : ∀ cause, event≠.exceptionCaught cause)
    (r : Runs cfg w₁ [.invoke s id (.exceptionCaught cause)] w₂) :
    Takes cfg w s id event h w₂ := by
  intro stmt hp
  refine runs_of_rescue hp k (x:=none) ?_
  cases event with
  | exceptionCaught c => exact absurd rfl (he c)
  | registered | active | read | readComplete | inactive => exact r

/-- An event invoked on a position whose handler takes it. -/
theorem perform_invoke (hl : (w.pipe s).Located id pre h post) (hq : reacts event h=true) :
    perform cfg (.invoke s id event) w=
      .call w (body cfg w s id event h) (rescueOf s id event) := by
  simp only [perform,hl.find,hq,if_true]
  exact deliver_located hl

/-- An event invoked on a context, present or not, changes nothing when no handler takes it. -/
theorem runs_invoke_none (hh : ∀ x∈w.handlers s, reacts event x=false) :
    Runs cfg w [.invoke s id event] w := by
  have hpass : deliver cfg w s event ((w.pipe s).nextWhere id (reacts event))=.done w := by
    rw [Pipeline.nextWhere_none hh]
    rfl
  refine runs_of_done ?_
  simp only [perform]
  split
  · rename_i h hf
    rw [if_neg (by simp [hh h (Pipeline.mem_of_find hf)])]
    exact hpass
  · exact hpass

/-- Listeners without a body for the outcome are notified without effect. -/
theorem runs_notify_empty {ok : Bool} {entries : List (Msg×Listener)}
    (hq : ∀ entry∈entries, listenerBody s ok entry.2=[]) :
    Runs cfg w (entries.map (fun entry => .notify s entry.2 ok)) w := by
  induction entries with
  | nil => exact runs_nil
  | cons entry entries ih =>
    have hbody : perform cfg (.notify s entry.2 ok) w=.call w [] drop := by
      rw [←hq entry (by simp)]
      rfl
    exact (runs_of_call hbody runs_nil).cons (ih (fun e h => hq e (List.mem_cons_of_mem _ h)))

/-- Entries without a listener are notified without effect. -/
theorem runs_notify_none {ok : Bool} {entries : List (Msg×Listener)}
    (hq : ∀ entry∈entries, entry.2=.none) :
    Runs cfg w (entries.map (fun entry => .notify s entry.2 ok)) w := by
  refine runs_notify_empty (fun entry he => ?_)
  rw [hq entry he]
  rfl

/-- After listeners that do nothing, the last one is notified. -/
theorem runs_notify_last {ok : Bool} {entries : List (Msg×Listener)} {listener : Listener}
    (hq : ∀ entry∈entries, entry.2=.none) (k : Runs cfg w (listenerBody s ok listener) w₁) :
    Runs cfg w ((entries++[(message,listener)]).map (fun entry => .notify s entry.2 ok)) w₁ := by
  rw [List.map_append]
  exact (runs_notify_none hq).append (runs_of_call rfl k)

/-- A flush that the socket takes at once notifies the listeners. -/
theorem runs_flush_now (hn : cfg.flushNow w.flushes=true)
    (k : Runs cfg (w.attempt.takeQueue s)
      ((w.chan s).queue.map (fun entry => .notify s entry.2 true)) w₁) :
    Runs cfg w [.flush s] w₁ := by
  have hf : perform cfg (.flush s) w=.call w.attempt [.drain s] drop := by
    change (if cfg.flushNow w.flushes then _ else _)=_
    rw [if_pos hn]
  have hc : (w.attempt.chan s).queue=(w.chan s).queue := by cases s <;> rfl
  refine runs_of_call hf (runs_of_call rfl ?_)
  rw [hc]
  exact k

/-- A flush that the socket does not take leaves the queue. -/
theorem runs_flush_later (hn : cfg.flushNow w.flushes=false) :
    Runs cfg w [.flush s] w.attempt := by
  refine runs_of_done ?_
  change (if cfg.flushNow w.flushes then _ else _)=_
  rw [hn]
  rfl

/-- A flush attempt of a quiet side. -/
theorem runs_flush (hquiet : Quiet w s) : Runs cfg w [.flush s] (tryFlush cfg w s) := by
  unfold tryFlush
  cases hn : cfg.flushNow w.flushes with
  | true => exact runs_flush_now hn (runs_notify_none hquiet)
  | false => exact runs_flush_later hn

/-- An active channel after it is closed. -/
def shut (c : Channel) : Channel :=
  { c with life := .closed, inactivePending := true, queue := [] }

/-- Closing an active channel fails its queued writes. -/
theorem perform_close (h : w.isActive s=true) : perform cfg (.close s) w=
    .call (w.upd s shut) ((w.chan s).queue.map (fun entry => .notify s entry.2 false)) drop := by
  have hlife : (w.chan s).life=.active := of_decide_eq_true h
  simp only [perform,hlife]
  rfl

/-- Messages that the head of a pipeline hands to the socket. -/
def Transmittable (message : Msg) : Prop :=
  (∃ data, message=.bytes data) ∨ ∃ encoded, message=.encoded encoded

/-- The head of an active channel queues and flushes what it can hand on. -/
theorem headWrite_active {listener : Listener} (hm : Transmittable message)
    (ha : w.isActive s=true) : headWrite w s message listener true=
      .call (w.enqueue s message listener) [.flush s] drop := by
  rcases hm with ⟨data,rfl⟩|⟨encoded,rfl⟩ <;> simp only [headWrite,ha,if_true]

/-- What reaches the head of a quiet active channel is accepted. -/
theorem runs_headWrite (hm : Transmittable message) (ha : w.isActive s=true)
    (hquiet : Quiet w s) {source : Option ℕ}
    (hp : perform cfg (.write s source message .none true) w=headWrite w s message .none true) :
    Runs cfg w [.write s source message .none true] (accept cfg w s message) := by
  refine runs_of_call (hp.trans (headWrite_active hm ha)) (runs_flush fun entry he => ?_)
  rw [World.enqueue,chan_upd_same] at he
  rcases List.mem_append.mp he with he|he
  · exact hquiet entry he
  · rw [List.mem_singleton.mp he]

/-- A write from the tail of raw bytes that no handler takes. -/
theorem runs_write_bytes (ha : w.isActive s=true) (hquiet : Quiet w s) {data : Bytes}
    (hh : ∀ x∈w.handlers s, intercepts (.bytes data) x=false) :
    Runs cfg w [.write s none (.bytes data) .none true] (accept cfg w s (.bytes data)) := by
  refine runs_headWrite (.inl ⟨data,rfl⟩) ha hquiet ?_
  simp only [perform,Pipeline.lastWhere_none hh]

/-- Other objects that reach the head are refused without effect. -/
theorem runs_write_refused (hm : ∀ data, message≠.bytes data) (he : ∀ m, message≠.encoded m)
    (hh : ∀ x∈w.handlers s, intercepts message x=false) {flush : Bool} :
    Runs cfg w [.write s none message .none flush] w := by
  have hr : headWrite w s message .none flush=.call w [.notify s .none false] drop := by
    cases message with
    | bytes data => exact absurd rfl (hm data)
    | encoded m => exact absurd rfl (he m)
    | socks | http | fullRequest | fullResponse => rfl
  have hp : perform cfg (.write s none message .none flush) w=
      .call w [.notify s .none false] drop := by
    simp only [perform,Pipeline.lastWhere_none hh,hr]
  exact runs_of_call hp (runs_of_call rfl runs_nil)

/-- A read is handled to its end when no handler waits for its completion. -/
theorem turn_read {data : Bytes} (ha : w.isActive s=true)
    (h : Runs cfg w [.pipelineFire s (.read (.bytes data))] w₁)
    (hq : ∀ x∈w₁.handlers s, reacts .readComplete x=false) :
    (system cfg).Turn w (.read s data) w₁ := by
  refine ⟨w,_,none,?_,h.cons (runs_pipelineFire_none hq)⟩
  change (if w.isActive s then _ else _)=_
  rw [if_pos ha]

end Runs

end ProxyDroid.ConnectionRules
