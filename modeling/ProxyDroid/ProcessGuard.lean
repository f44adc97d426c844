import ProxyDroid.CallSemantics

/-!
# One guard thread of the process pool

`GuardedProcessPool.Guard.looper` as the steps of a thread: it starts a
process while its generation is the current one, reports the first outcome
through a queue of capacity one, waits, and cleans up in its `finally` block.
What the environment decides is a choice given to the step; other threads can
interrupt the guard, take its result and see its process exit.
-/

namespace ProxyDroid.ProcessGuard

/-- A process: whether it has exited and whether it has been destroyed. -/
structure Process where
  /-- The exit value is there. -/
  exited : Bool
  /-- `destroy()` has been called. -/
  destroyed : Bool
  deriving DecidableEq

/-- Nothing of the process is left running by the pool. -/
def Process.Ended (p : Process) : Prop := p.exited=true ∨ p.destroyed=true

/-- Outcome of one `ProcessBuilder.start`. -/
inductive Spawn where
  | started
  | threw (ioException : ℕ)
  deriving DecidableEq

/-- Elements of `excQueue`. -/
inductive Result where
  | dummy
  | exception (ioException : ℕ)
  deriving DecidableEq

/-- Where a guard thread is: `check` is the head of the loop, `push` the
report inside it, `final` the entry of the `finally` block, `compat` and
`destroy` its two ways to end the process, `finalWait` and `finalPush` its last
statements. -/
inductive GuardPc where
  | unborn
  | check
  | spawn
  | callback
  | push
  | waitFor
  | catchIo (ioException : ℕ)
  | final
  | compat
  | destroy
  | finalWait
  | finalPush
  | done
  deriving DecidableEq

/-- What the environment decides in a step of a guard. -/
inductive Choice where
  | proceed
  | ioException (e : ℕ)
  | interrupted
  deriving DecidableEq

/-- A guard thread with the fields and local variables it uses. -/
structure Guard where
  /-- The set of threads it was started for. -/
  host : ℕ
  /-- Where it is. -/
  pc : GuardPc
  /-- Interrupt status of the thread. -/
  interrupted : Bool
  /-- Whether a restart callback was given. -/
  onRestartCallback : Bool
  /-- Whether the variable `callback` holds it. -/
  callback : Bool
  /-- `process`. -/
  process : Option Process
  /-- Processes it held before. -/
  earlier : List Process
  /-- `pushed`. -/
  pushed : Bool
  /-- `excQueue`. -/
  excQueue : Option Result
  /-- Outcomes of `ProcessBuilder.start`, oldest first. -/
  spawns : List Spawn
  /-- Results ever queued, oldest first. -/
  queued : List Result
  /-- Whether an interrupt has ever reached the thread. -/
  hit : Bool
  deriving DecidableEq

/-- A guard thread that does not exist yet. -/
def Guard.unborn : Guard :=
  ⟨0,.unborn,false,false,false,none,[],false,none,[],[],false⟩

/-- The thread as `start` creates it. -/
def Guard.born (host : ℕ) (onRestartCallback : Bool) : Guard :=
  { Guard.unborn with host := host, pc := .check, onRestartCallback := onRestartCallback }

/-- All processes it has started, oldest first. -/
def Guard.processes (g : Guard) : List Process := g.earlier++g.process.toList

/-- `Guard.pushException`: it continues at `next`; `put` on a thread whose
interrupt status is set throws without queueing, which continues at `thrown`. -/
def Guard.pushException (g : Guard) (result : Result) (next thrown : GuardPc) : Option Guard :=
  if g.pushed then some { g with pc := next }
  else if g.interrupted then some { g with pc := thrown, interrupted := false }
  else if g.excQueue=none then
    some { g with pc := next, pushed := true, excQueue := some result, queued := g.queued++[result] }
  else none

/-- An `InterruptedException`, which clears the interrupt status. -/
def Guard.throwInterrupted (g : Guard) (thrown : GuardPc) : Option Guard :=
  if g.interrupted then some { g with pc := thrown, interrupted := false } else none

/-- `process.waitFor()`. -/
def Guard.waitFor (g : Guard) (choice : Choice) (next thrown : GuardPc) : Option Guard :=
  match choice with
  | .proceed =>
    if g.process.any Process.exited then some { g with pc := next } else none
  | .interrupted => g.throwInterrupted thrown
  | .ioException _ => none

/-- One step of `Guard.looper`. `current` tells whether the guard's set is the
pool's current one, `legacy` whether `SDK_INT` is below 24. -/
def Guard.step (legacy current : Bool) (choice : Choice) (g : Guard) : Option Guard :=
  match g.pc,choice with
  | .check,.proceed => some { g with pc := if current then .spawn else .final }
  | .spawn,.proceed =>
    some { g with
      pc := .callback
      process := some ⟨false,false⟩
      earlier := g.earlier++g.process.toList
      spawns := g.spawns++[.started] }
  | .spawn,.ioException e => some { g with pc := .catchIo e, spawns := g.spawns++[.threw e] }
  | .callback,.proceed =>
    some { g with pc := .push, callback := g.callback || g.onRestartCallback }
  | .callback,.interrupted => if g.callback then g.throwInterrupted .final else none
  | .push,.proceed => g.pushException .dummy .waitFor .final
  | .waitFor,choice => g.waitFor choice .check .final
  | .catchIo e,.proceed => g.pushException (.exception e) .final .final
  | .final,.proceed =>
    some { g with
      pc := if g.process=none then .finalPush else if legacy then .compat else .destroy }
  | .compat,.proceed => some { g with pc := .destroy }
  | .compat,.interrupted => g.throwInterrupted .done
  | .destroy,.proceed =>
    some { g with
      pc := .finalWait
      process := g.process.map (fun p => { p with destroyed := true }) }
  | .finalWait,choice => g.waitFor choice .finalPush .done
  | .finalPush,.proceed => g.pushException .dummy .done .done
  | _,_ => none

/-- `interrupt()` by another thread; a thread that has ended is not affected. -/
def Guard.interrupt (g : Guard) : Guard :=
  if g.pc=.done then g else { g with interrupted := true, hit := true }

/-- The running process exits. -/
def Guard.exit (g : Guard) : Option Guard :=
  if g.process.any (fun p => !p.exited) then
    some { g with process := g.process.map (fun p => { p with exited := true }) }
  else none

/-- `excQueue.take()` by the caller of `start`. -/
def Guard.take (g : Guard) : Option (Result×Guard) :=
  g.excQueue.map (fun result => (result,{ g with excQueue := none }))

/-- Steps that only go on to another place. -/
inductive Goes (current : Bool) (g : Guard) : GuardPc → Prop
  | enter (h : g.pc=.check) (hc : current=true) : Goes current g .spawn
  | stale (h : g.pc=.check) (hc : current=false) : Goes current g .final
  | called (h : g.pc=.callback) : Goes current g .push
  | told (h : g.pc=.push) (hp : g.pushed=true) : Goes current g .waitFor
  | again (h : g.pc=.waitFor) (he : ∀ p∈g.process, p.exited=true) : Goes current g .check
  | caught {e : ℕ} (h : g.pc=.catchIo e) (hp : g.pushed=true) : Goes current g .final
  | empty (h : g.pc=.final) (hp : g.process=none) : Goes current g .finalPush
  | compat (h : g.pc=.final) : Goes current g .compat
  | kill (h : g.pc=.final ∨ g.pc=.compat) : Goes current g .destroy
  | gone (h : g.pc=.finalWait) : Goes current g .finalPush
  | ended (h : g.pc=.finalPush) (hp : g.pushed=true) : Goes current g .done

/-- Places at which an interrupt is answered, and where that leads. -/
inductive Throws (g : Guard) : GuardPc → Prop
  | loop (h : g.pc=.callback ∨ g.pc=.waitFor) : Throws g .final
  | unreported (h : g.pc=.push) (hp : g.pushed=false) : Throws g .final
  | uncaught {e : ℕ} (h : g.pc=.catchIo e) (hp : g.pushed=false) : Throws g .final
  | cleanup (h : g.pc=.compat ∨ g.pc=.finalWait) : Throws g .done
  | silent (h : g.pc=.finalPush) (hp : g.pushed=false) : Throws g .done

/-- Places at which a result is queued, and where that leads. -/
inductive Reports (g : Guard) : Result → GuardPc → Prop
  | started (h : g.pc=.push) : Reports g .dummy .waitFor
  | threw {e : ℕ} (h : g.pc=.catchIo e) : Reports g (.exception e) .final
  | last (h : g.pc=.finalPush) : Reports g .dummy .done

/-- What one step of a guard thread can do. -/
inductive Move (current : Bool) (g : Guard) : Guard → Prop
  | goes {next : GuardPc} (h : Goes current g next) (callback : Bool) :
      Move current g { g with pc := next, callback := callback }
  | throws {next : GuardPc} (h : Throws g next) (hi : g.interrupted=true) :
      Move current g { g with pc := next, interrupted := false }
  | reports {result : Result} {next : GuardPc} (h : Reports g result next) (hp : g.pushed=false)
      (hi : g.interrupted=false) (hq : g.excQueue=none) : Move current g { g with
        pc := next, pushed := true, excQueue := some result, queued := g.queued++[result] }
  | started (h : g.pc=.spawn) : Move current g { g with
      pc := .callback, process := some ⟨false,false⟩, earlier := g.earlier++g.process.toList,
      spawns := g.spawns++[.started] }
  | threw (h : g.pc=.spawn) (e : ℕ) :
      Move current g { g with pc := .catchIo e, spawns := g.spawns++[.threw e] }
  | destroyed (h : g.pc=.destroy) : Move current g { g with
      pc := .finalWait, process := g.process.map (fun p => { p with destroyed := true }) }

section Moves

variable {g g' : Guard} {legacy current : Bool} {choice : Choice}

/-- `pushException` goes on, is interrupted or reports. -/
theorem move_pushException {result : Result} {next thrown : GuardPc}
    (h : g.pushException result next thrown=some g')
    (hgoes : g.pushed=true → Goes current g next) (hthrows : g.pushed=false → Throws g thrown)
    (hreports : Reports g result next) : Move current g g' := by
  unfold Guard.pushException at h
  split at h
  · cases h
    rename_i hp
    exact .goes (hgoes hp) g.callback
  · rename_i hp
    have hp : g.pushed=false := by simpa using hp
    split at h
    · cases h
      rename_i hi
      exact .throws (hthrows hp) hi
    · rename_i hi
      split at h
      · cases h
        exact .reports hreports hp (by simpa using hi) ‹_›
      · cases h

/-- Only an interrupted thread throws. -/
theorem move_throwInterrupted {thrown : GuardPc} (h : g.throwInterrupted thrown=some g')
    (hthrows : Throws g thrown) : Move current g g' := by
  unfold Guard.throwInterrupted at h
  split at h
  · cases h
    rename_i hi
    exact .throws hthrows hi
  · cases h

/-- Waiting ends with the process or with an interrupt. -/
theorem move_waitFor {next thrown : GuardPc} (h : g.waitFor choice next thrown=some g')
    (hgoes : (∀ p∈g.process, p.exited=true) → Goes current g next) (hthrows : Throws g thrown) :
    Move current g g' := by
  unfold Guard.waitFor at h
  cases choice with
  | proceed =>
    dsimp only at h
    split at h
    · cases h
      rename_i he
      refine .goes (hgoes (fun p hp => ?_)) g.callback
      rw [Option.mem_def] at hp
      rw [hp] at he
      exact he
    · cases h
  | interrupted => exact move_throwInterrupted h hthrows
  | ioException e => cases h

/-- Every step is one of these moves. -/
theorem Guard.step_move (h : g.step legacy current choice=some g') : Move current g g' := by
  cases hpc : g.pc with
  | unborn | done => simp [Guard.step,hpc] at h
  | check =>
    cases choice with
    | proceed =>
      simp only [Guard.step,hpc] at h
      cases current with
      | true => cases h; exact .goes (.enter hpc rfl) g.callback
      | false => cases h; exact .goes (.stale hpc rfl) g.callback
    | ioException | interrupted => simp [Guard.step,hpc] at h
  | spawn =>
    cases choice with
    | proceed => simp only [Guard.step,hpc] at h; cases h; exact .started hpc
    | ioException e => simp only [Guard.step,hpc] at h; cases h; exact .threw hpc e
    | interrupted => simp [Guard.step,hpc] at h
  | callback =>
    cases choice with
    | proceed => simp only [Guard.step,hpc] at h; cases h; exact .goes (.called hpc) _
    | ioException e => simp [Guard.step,hpc] at h
    | interrupted =>
      simp only [Guard.step,hpc] at h
      split at h
      · exact move_throwInterrupted h (.loop (.inl hpc))
      · cases h
  | push =>
    cases choice with
    | proceed =>
      simp only [Guard.step,hpc] at h
      exact move_pushException h (.told hpc) (.unreported hpc) (.started hpc)
    | ioException | interrupted => simp [Guard.step,hpc] at h
  | waitFor =>
    have hw : g.waitFor choice .check .final=some g' := by
      cases choice <;> simpa only [Guard.step,hpc] using h
    exact move_waitFor hw (.again hpc) (.loop (.inr hpc))
  | catchIo e =>
    cases choice with
    | proceed =>
      simp only [Guard.step,hpc] at h
      exact move_pushException h (.caught hpc) (.uncaught hpc) (.threw hpc)
    | ioException | interrupted => simp [Guard.step,hpc] at h
  | final =>
    cases choice with
    | proceed =>
      simp only [Guard.step,hpc] at h
      cases h
      by_cases hp : g.process=none
      · rw [if_pos hp]
        exact .goes (.empty hpc hp) g.callback
      · rw [if_neg hp]
        cases legacy with
        | true => exact .goes (.compat hpc) g.callback
        | false => exact .goes (.kill (.inl hpc)) g.callback
    | ioException | interrupted => simp [Guard.step,hpc] at h
  | compat =>
    cases choice with
    | proceed => simp only [Guard.step,hpc] at h; cases h; exact .goes (.kill (.inr hpc)) g.callback
    | ioException e => simp [Guard.step,hpc] at h
    | interrupted =>
      simp only [Guard.step,hpc] at h
      exact move_throwInterrupted h (.cleanup (.inl hpc))
  | destroy =>
    cases choice with
    | proceed => simp only [Guard.step,hpc] at h; cases h; exact .destroyed hpc
    | ioException | interrupted => simp [Guard.step,hpc] at h
  | finalWait =>
    have hw : g.waitFor choice .finalPush .done=some g' := by
      cases choice <;> simpa only [Guard.step,hpc] using h
    exact move_waitFor hw (fun _ => .gone hpc) (.cleanup (.inr hpc))
  | finalPush =>
    cases choice with
    | proceed =>
      simp only [Guard.step,hpc] at h
      exact move_pushException h (.ended hpc) (.silent hpc) (.last hpc)
    | ioException | interrupted => simp [Guard.step,hpc] at h

end Moves

/-- Nothing has been started and nothing reported. -/
def Guard.Fresh (g : Guard) : Prop :=
  g.spawns=[] ∧ g.process=none ∧ g.earlier=[] ∧ g.pushed=false ∧ g.queued=[]

/-- A process has been started and that is reported. -/
def Guard.Told (g : Guard) : Prop :=
  g.pushed=true ∧ g.queued=[.dummy] ∧ .started∈g.spawns

/-- The first start has thrown and that is reported. -/
def Guard.Failed (g : Guard) (e : ℕ) : Prop :=
  g.pushed=true ∧ g.queued=[.exception e] ∧ g.spawns=[.threw e]

/-- The first process has been started and nothing reported. -/
def Guard.First (g : Guard) : Prop :=
  g.spawns=[.started] ∧ g.pushed=false ∧ g.queued=[]

/-- The first start has thrown and nothing is reported. -/
def Guard.Thrown (g : Guard) (e : ℕ) : Prop :=
  g.spawns=[.threw e] ∧ g.pushed=false ∧ g.queued=[]

/-- The only interrupt of the thread has been answered. -/
def Guard.Spent (g : Guard) : Prop := g.hit=true ∧ g.interrupted=false

/-- What has been started and reported in the `finally` block. -/
inductive Guard.Closing (g : Guard) : Prop
  | fresh (h : g.Fresh)
  | told (h : g.Told)
  | failed {e : ℕ} (h : g.Failed e)
  | first (h : g.First) (hs : g.Spent)
  | thrown {e : ℕ} (h : g.Thrown e) (hs : g.Spent)

/-- What has been started and reported when the thread has ended. -/
inductive Guard.Closed (g : Guard) : Prop
  | unstarted (h : g.spawns=[]) (hq : g.queued=[] ∨ g.queued=[.dummy])
  | told (h : g.Told)
  | failed {e : ℕ} (h : g.Failed e)
  | hidden {e : ℕ} (h : g.spawns=[.threw e]) (hq : g.queued=[.dummy])

/-- What has been started and reported, by the place of the thread. -/
def Guard.Reporting (g : Guard) : Prop :=
  match g.pc with
  | .unborn => g.Fresh
  | .check | .spawn => g.Fresh ∨ g.Told
  | .callback | .push => g.First ∨ g.Told
  | .waitFor => g.Told
  | .catchIo e => g.Thrown e ∨ g.Told
  | .final | .compat | .destroy | .finalWait | .finalPush => g.Closing
  | .done => g.Closed

/-- What may still be running, by the place of the thread. -/
def Guard.Cleaning (g : Guard) : Prop :=
  (∀ p∈g.earlier, p.exited=true) ∧
    match g.pc with
    | .unborn | .check | .spawn | .catchIo _ => ∀ p∈g.process, p.exited=true
    | .callback | .push | .waitFor => True
    | .final | .compat | .destroy => (∀ p∈g.process, p.exited=true) ∨ g.Spent
    | .finalWait | .finalPush | .done => ∀ p∈g.process, p.Ended

/-- The invariant of a guard thread. -/
structure Guard.Sound (g : Guard) : Prop where
  /-- Only an interrupt sets the interrupt status. -/
  hit : g.interrupted=true → g.hit=true
  /-- The report matches what happened. -/
  reporting : g.Reporting
  /-- Processes are not left behind. -/
  cleaning : g.Cleaning

section Soundness

variable {g g' : Guard} {current : Bool}

/-- A guard that answers its interrupt has no other to expect. -/
theorem Guard.Sound.spent (h : g.Sound) (hi : g.interrupted=true) (pc : GuardPc) :
    Guard.Spent { g with pc := pc, interrupted := false } := ⟨h.hit hi,rfl⟩

/-- The report does not depend on the place in the `finally` block. -/
theorem Guard.Closing.goes (h : g.Closing) (pc : GuardPc) (callback : Bool) :
    Guard.Closing { g with pc := pc, callback := callback } := by
  cases h with
  | fresh h => exact .fresh h
  | told h => exact .told h
  | failed h => exact .failed h
  | first h hs => exact .first h hs
  | thrown h hs => exact .thrown h hs

/-- An interrupt in the `finally` block leaves the report as it is. -/
theorem Guard.Closing.thrown_out (h : g.Closing) (hi : g.interrupted=true) (pc : GuardPc) :
    Guard.Closed { g with pc := pc, interrupted := false } := by
  cases h with
  | fresh h => exact .unstarted h.1 (.inl h.2.2.2.2)
  | told h => exact .told h
  | failed h => exact .failed h
  | first h hs | thrown h hs =>
    rw [hs.2] at hi
    cases hi

/-- A guard that has reported ends with that report. -/
theorem Guard.Closing.pushed (h : g.Closing) (hp : g.pushed=true) (pc : GuardPc) (callback : Bool) :
    Guard.Closed { g with pc := pc, callback := callback } := by
  cases h with
  | told h => exact .told h
  | failed h => exact .failed h
  | fresh h =>
    rw [h.2.2.2.1] at hp
    cases hp
  | first h hs | thrown h hs =>
    rw [h.2.1] at hp
    cases hp

/-- A guard that has not reported does so at its end. -/
theorem Guard.Closing.reported (h : g.Closing) (hp : g.pushed=false) (pc : GuardPc) :
    Guard.Closed { g with
      pc := pc, pushed := true, excQueue := some .dummy, queued := g.queued++[.dummy] } := by
  cases h with
  | fresh h => exact .unstarted h.1 (.inr (by simp [h.2.2.2.2]))
  | first h hs => exact .told ⟨rfl,by simp [h.2.2],by simp [h.1]⟩
  | thrown h hs => exact .hidden h.1 (by simp [h.2.2])
  | told h | failed h =>
    rw [h.1] at hp
    cases hp

/-- Steps that only go on keep the report. -/
theorem Guard.Sound.reporting_goes (h : g.Sound) {next : GuardPc} (hg : Goes current g next)
    (callback : Bool) : Guard.Reporting { g with pc := next, callback := callback } := by
  have hr := h.reporting
  unfold Guard.Reporting at hr
  cases hg with
  | enter hpc | called hpc =>
    rw [hpc] at hr
    exact hr
  | empty hpc | compat hpc | gone hpc =>
    rw [hpc] at hr
    exact Guard.Closing.goes hr _ callback
  | stale hpc =>
    rw [hpc] at hr
    rcases hr with hf|ht
    · exact .fresh hf
    · exact .told ht
  | told hpc hp =>
    rw [hpc] at hr
    refine hr.resolve_left (fun hf => ?_)
    rw [hf.2.1] at hp
    cases hp
  | again hpc =>
    rw [hpc] at hr
    exact .inr hr
  | caught hpc hp =>
    rw [hpc] at hr
    refine .told (hr.resolve_left (fun hf => ?_))
    rw [hf.2.1] at hp
    cases hp
  | kill hpc =>
    rcases hpc with hpc|hpc
    · rw [hpc] at hr
      exact Guard.Closing.goes hr .destroy callback
    · rw [hpc] at hr
      exact Guard.Closing.goes hr .destroy callback
  | ended hpc hp =>
    rw [hpc] at hr
    exact Guard.Closing.pushed hr hp .done callback

/-- An answered interrupt keeps the report. -/
theorem Guard.Sound.reporting_throws (h : g.Sound) {next : GuardPc} (ht : Throws g next)
    (hi : g.interrupted=true) : Guard.Reporting { g with pc := next, interrupted := false } := by
  have hr := h.reporting
  have hspent := h.spent hi .final
  unfold Guard.Reporting at hr
  cases ht with
  | loop hpc =>
    rcases hpc with hpc|hpc
    · rw [hpc] at hr
      rcases hr with hf|ht
      · exact .first hf hspent
      · exact .told ht
    · rw [hpc] at hr
      exact .told hr
  | unreported hpc hp =>
    rw [hpc] at hr
    rcases hr with hf|ht
    · exact .first hf hspent
    · exact .told ht
  | uncaught hpc hp =>
    rw [hpc] at hr
    rcases hr with hf|ht
    · exact .thrown hf hspent
    · exact .told ht
  | cleanup hpc =>
    rcases hpc with hpc|hpc
    · rw [hpc] at hr
      exact Guard.Closing.thrown_out hr hi .done
    · rw [hpc] at hr
      exact Guard.Closing.thrown_out hr hi .done
  | silent hpc hp =>
    rw [hpc] at hr
    exact Guard.Closing.thrown_out hr hi .done

/-- A queued result is the first one and matches what happened. -/
theorem Guard.Sound.reporting_reports (h : g.Sound) {result : Result} {next : GuardPc}
    (hre : Reports g result next) (hp : g.pushed=false) : Guard.Reporting { g with
      pc := next, pushed := true, excQueue := some result, queued := g.queued++[result] } := by
  have hr := h.reporting
  have hnot : ¬g.Told := fun ht => by rw [ht.1] at hp; cases hp
  unfold Guard.Reporting at hr
  cases hre with
  | started hpc =>
    rw [hpc] at hr
    have hf := hr.resolve_right hnot
    exact ⟨rfl,by simp [hf.2.2],by simp [hf.1]⟩
  | threw hpc =>
    rw [hpc] at hr
    have hf := hr.resolve_right hnot
    exact .failed ⟨rfl,by simp [hf.2.2],hf.1⟩
  | last hpc =>
    rw [hpc] at hr
    exact Guard.Closing.reported hr hp .done

/-- Every move keeps the report true. -/
theorem Guard.Sound.reporting_move (h : g.Sound) (hm : Move current g g') : g'.Reporting := by
  have hr := h.reporting
  cases hm with
  | goes hg callback => exact h.reporting_goes hg callback
  | throws ht hi => exact h.reporting_throws ht hi
  | reports hre hp hi hq => exact h.reporting_reports hre hp
  | started hpc =>
    rw [Guard.Reporting,hpc] at hr
    rcases hr with hf|ht
    · exact .inl ⟨by simp [hf.1],hf.2.2.2⟩
    · exact .inr ⟨ht.1,ht.2.1,List.mem_append_left _ ht.2.2⟩
  | threw hpc e =>
    rw [Guard.Reporting,hpc] at hr
    rcases hr with hf|ht
    · exact .inl ⟨by simp [hf.1],hf.2.2.2⟩
    · exact .inr ⟨ht.1,ht.2.1,List.mem_append_left _ ht.2.2⟩
  | destroyed hpc =>
    rw [Guard.Reporting,hpc] at hr
    cases hr with
    | fresh hf => exact .fresh ⟨hf.1,by simp [hf.2.1],hf.2.2⟩
    | told ht => exact .told ht
    | failed hf => exact .failed hf
    | first hf hs => exact .first hf hs
    | thrown hf hs => exact .thrown hf hs

/-- Processes are not left behind by steps that only go on. -/
theorem Guard.Sound.cleaning_goes (h : g.Sound) {next : GuardPc} (hg : Goes current g next)
    (callback : Bool) : Guard.Cleaning { g with pc := next, callback := callback } := by
  obtain ⟨hearlier,hc⟩ := h.cleaning
  refine ⟨hearlier,?_⟩
  cases hg with
  | enter hpc =>
    rw [hpc] at hc
    exact hc
  | stale hpc | caught hpc =>
    rw [hpc] at hc
    exact .inl hc
  | called | told => trivial
  | again hpc he => exact he
  | empty hpc hp => exact fun p hm => absurd hm (by simp [hp])
  | compat hpc =>
    rw [hpc] at hc
    exact hc
  | kill hpc =>
    rcases hpc with hpc|hpc
    · rw [hpc] at hc
      exact hc
    · rw [hpc] at hc
      exact hc
  | gone hpc | ended hpc =>
    rw [hpc] at hc
    exact hc

/-- Processes are not left behind by an interrupt. -/
theorem Guard.Sound.cleaning_throws (h : g.Sound) {next : GuardPc} (ht : Throws g next)
    (hi : g.interrupted=true) : Guard.Cleaning { g with pc := next, interrupted := false } := by
  obtain ⟨hearlier,hc⟩ := h.cleaning
  have hspent := h.spent hi .final
  refine ⟨hearlier,?_⟩
  cases ht with
  | loop | unreported => exact .inr hspent
  | uncaught hpc =>
    rw [hpc] at hc
    exact .inl hc
  | cleanup hpc =>
    rcases hpc with hpc|hpc
    · rw [hpc] at hc
      rcases hc with he|hs
      · exact fun p hm => .inl (he p hm)
      · rw [hs.2] at hi
        cases hi
    · rw [hpc] at hc
      exact hc
  | silent hpc =>
    rw [hpc] at hc
    exact hc

/-- Every move leaves no process behind. -/
theorem Guard.Sound.cleaning_move (h : g.Sound) (hm : Move current g g') : g'.Cleaning := by
  obtain ⟨hearlier,hc⟩ := h.cleaning
  cases hm with
  | goes hg callback => exact h.cleaning_goes hg callback
  | throws ht hi => exact h.cleaning_throws ht hi
  | reports hre hp hi hq =>
    refine ⟨hearlier,?_⟩
    cases hre with
    | started => trivial
    | threw hpc =>
      rw [hpc] at hc
      exact .inl hc
    | last hpc =>
      rw [hpc] at hc
      exact hc
  | started hpc =>
    rw [hpc] at hc
    refine ⟨fun p hm => ?_,trivial⟩
    rcases List.mem_append.mp hm with hm|hm
    · exact hearlier p hm
    · exact hc p (Option.mem_toList.mp hm)
  | threw hpc e =>
    rw [hpc] at hc
    exact ⟨hearlier,hc⟩
  | destroyed hpc =>
    refine ⟨hearlier,fun p hm => ?_⟩
    obtain ⟨q,-,rfl⟩ := Option.map_eq_some_iff.mp hm
    exact .inr rfl

/-- Every move of a guard keeps its invariant. -/
theorem Guard.Sound.move (h : g.Sound) (hm : Move current g g') : g'.Sound := by
  refine ⟨?_,h.reporting_move hm,h.cleaning_move hm⟩
  cases hm with
  | throws => exact fun hi => by cases hi
  | goes | reports | started | threw | destroyed => exact h.hit

/-- A new guard thread. -/
theorem Guard.sound_born (host : ℕ) (onRestartCallback : Bool) :
    (Guard.born host onRestartCallback).Sound where
  hit := fun hi => absurd hi (by simp [Guard.born,Guard.unborn])
  reporting := .inl ⟨rfl,rfl,rfl,rfl,rfl⟩
  cleaning := by simp [Guard.Cleaning,Guard.born,Guard.unborn]

/-- A thread that does not exist. -/
theorem Guard.sound_unborn : Guard.unborn.Sound where
  hit := fun hi => absurd hi (by simp [Guard.unborn])
  reporting := ⟨rfl,rfl,rfl,rfl,rfl⟩
  cleaning := by simp [Guard.Cleaning,Guard.unborn]

/-- What other threads and the system leave of a guard: its place, its report,
and at least what has ended of its processes. -/
structure Outside (g g' : Guard) : Prop where
  /-- The thread belongs to the same set. -/
  host : g'.host=g.host
  /-- The thread is where it was. -/
  pc : g'.pc=g.pc
  /-- It has started nothing. -/
  spawns : g'.spawns=g.spawns
  /-- It has reported nothing. -/
  pushed : g'.pushed=g.pushed
  /-- Its results are the same. -/
  queued : g'.queued=g.queued
  /-- Its earlier processes are the same. -/
  earlier : g'.earlier=g.earlier
  /-- Its process can only have exited. -/
  process : ∃ f : Process → Process, g'.process=g.process.map f ∧
    ∀ p, (p.exited=true → (f p).exited=true) ∧ (p.Ended → (f p).Ended)
  /-- A thread that has answered its interrupt gets no other. -/
  spent : g.Spent → g'.Spent
  /-- Only an interrupt sets the interrupt status. -/
  hit : g'.interrupted=true → g'.hit=true

theorem Outside.fresh (h : Outside g g') (hf : g.Fresh) : g'.Fresh := by
  obtain ⟨f,hp,-⟩ := h.process
  refine ⟨h.spawns.trans hf.1,?_,h.earlier.trans hf.2.2.1,h.pushed.trans hf.2.2.2.1,
    h.queued.trans hf.2.2.2.2⟩
  rw [hp,hf.2.1]
  rfl

theorem Outside.told (h : Outside g g') (ht : g.Told) : g'.Told :=
  ⟨h.pushed.trans ht.1,h.queued.trans ht.2.1,h.spawns ▸ ht.2.2⟩

theorem Outside.failed {e : ℕ} (h : Outside g g') (hf : g.Failed e) : g'.Failed e :=
  ⟨h.pushed.trans hf.1,h.queued.trans hf.2.1,h.spawns.trans hf.2.2⟩

theorem Outside.first (h : Outside g g') (hf : g.First) : g'.First :=
  ⟨h.spawns.trans hf.1,h.pushed.trans hf.2.1,h.queued.trans hf.2.2⟩

theorem Outside.thrown {e : ℕ} (h : Outside g g') (hf : g.Thrown e) : g'.Thrown e :=
  ⟨h.spawns.trans hf.1,h.pushed.trans hf.2.1,h.queued.trans hf.2.2⟩

theorem Outside.closing (h : Outside g g') (hc : g.Closing) : g'.Closing := by
  cases hc with
  | fresh hf => exact .fresh (h.fresh hf)
  | told ht => exact .told (h.told ht)
  | failed hf => exact .failed (h.failed hf)
  | first hf hs => exact .first (h.first hf) (h.spent hs)
  | thrown hf hs => exact .thrown (h.thrown hf) (h.spent hs)

theorem Outside.closed (h : Outside g g') (hc : g.Closed) : g'.Closed := by
  cases hc with
  | unstarted hs hq => exact .unstarted (h.spawns.trans hs) (h.queued ▸ hq)
  | told ht => exact .told (h.told ht)
  | failed hf => exact .failed (h.failed hf)
  | hidden hs hq => exact .hidden (h.spawns.trans hs) (h.queued.trans hq)

theorem Outside.reporting (h : Outside g g') (hr : g.Reporting) : g'.Reporting := by
  unfold Guard.Reporting at hr ⊢
  rw [h.pc]
  cases hpc : g.pc with
  | unborn =>
    rw [hpc] at hr
    exact h.fresh hr
  | check | spawn =>
    rw [hpc] at hr
    exact hr.imp h.fresh h.told
  | callback | push =>
    rw [hpc] at hr
    exact hr.imp h.first h.told
  | waitFor =>
    rw [hpc] at hr
    exact h.told hr
  | catchIo e =>
    rw [hpc] at hr
    exact hr.imp h.thrown h.told
  | final | compat | destroy | finalWait | finalPush =>
    rw [hpc] at hr
    exact h.closing hr
  | done =>
    rw [hpc] at hr
    exact h.closed hr

theorem Outside.cleaning (h : Outside g g') (hc : g.Cleaning) : g'.Cleaning := by
  obtain ⟨f,hp,hf⟩ := h.process
  obtain ⟨hearlier,hc⟩ := hc
  have hexited : (∀ p∈g.process, p.exited=true) → ∀ p∈g'.process, p.exited=true := by
    intro he p hm
    rw [hp] at hm
    obtain ⟨q,hq,rfl⟩ := Option.map_eq_some_iff.mp hm
    exact (hf q).1 (he q hq)
  have hended : (∀ p∈g.process, p.Ended) → ∀ p∈g'.process, p.Ended := by
    intro he p hm
    rw [hp] at hm
    obtain ⟨q,hq,rfl⟩ := Option.map_eq_some_iff.mp hm
    exact (hf q).2 (he q hq)
  refine ⟨h.earlier ▸ hearlier,?_⟩
  rw [h.pc]
  cases hpc : g.pc with
  | unborn | check | spawn | catchIo e =>
    rw [hpc] at hc
    exact hexited hc
  | callback | push | waitFor => trivial
  | final | compat | destroy =>
    rw [hpc] at hc
    exact hc.imp hexited h.spent
  | finalWait | finalPush | done =>
    rw [hpc] at hc
    exact hended hc

/-- What happens to a guard from outside keeps its invariant. -/
theorem Outside.sound (h : Outside g g') (hs : g.Sound) : g'.Sound :=
  ⟨h.hit,h.reporting hs.reporting,h.cleaning hs.cleaning⟩

/-- An interrupt of a thread that had none before. -/
theorem Guard.Sound.outside_interrupt (h : g.Sound) (hh : g.hit=false) : Outside g g.interrupt := by
  unfold Guard.interrupt
  split
  · exact ⟨rfl,rfl,rfl,rfl,rfl,rfl,⟨fun p => p,by simp,fun p => ⟨fun h => h,fun h => h⟩⟩,fun h => h,h.hit⟩
  · refine ⟨rfl,rfl,rfl,rfl,rfl,rfl,⟨fun p => p,by simp,fun p => ⟨fun h => h,fun h => h⟩⟩,?_,fun _ => rfl⟩
    intro hs
    rw [hs.1] at hh
    cases hh

/-- The process exits. -/
theorem Guard.Sound.outside_exit (h : g.Sound) (he : g.exit=some g') : Outside g g' := by
  unfold Guard.exit at he
  split at he
  · cases he
    exact ⟨rfl,rfl,rfl,rfl,rfl,rfl,⟨fun p => { p with exited := true },rfl,
      fun p => ⟨fun _ => rfl,fun _ => .inl rfl⟩⟩,fun h => h,h.hit⟩
  · cases he

/-- The result is taken. -/
theorem Guard.Sound.outside_take (h : g.Sound) {result : Result} (ht : g.take=some (result,g')) :
    Outside g g' := by
  obtain ⟨r,-,hr⟩ := Option.map_eq_some_iff.mp ht
  cases hr
  exact ⟨rfl,rfl,rfl,rfl,rfl,rfl,⟨fun p => p,by simp,fun p => ⟨fun h => h,fun h => h⟩⟩,fun h => h,h.hit⟩

theorem Goes.alive {next : GuardPc} (h : Goes current g next) :
    (g.pc≠.unborn ∧ g.pc≠.done) ∧ next≠.unborn := by
  cases h with
  | enter hpc | stale hpc | called hpc | told hpc | again hpc | caught hpc | empty hpc | compat hpc
  | gone hpc | ended hpc => simp [hpc]
  | kill hpc => rcases hpc with hpc|hpc <;> simp [hpc]

theorem Throws.alive {next : GuardPc} (h : Throws g next) :
    (g.pc≠.unborn ∧ g.pc≠.done) ∧ next≠.unborn := by
  cases h with
  | loop hpc | cleanup hpc => rcases hpc with hpc|hpc <;> simp [hpc]
  | unreported hpc | uncaught hpc | silent hpc => simp [hpc]

theorem Reports.alive {result : Result} {next : GuardPc} (h : Reports g result next) :
    (g.pc≠.unborn ∧ g.pc≠.done) ∧ next≠.unborn := by
  cases h with
  | started hpc | threw hpc | last hpc => simp [hpc]

/-- Only a thread that is alive makes steps, and it keeps its set. -/
theorem Move.alive (h : Move current g g') :
    (g.pc≠.unborn ∧ g.pc≠.done) ∧ g'.pc≠.unborn ∧ g'.host=g.host := by
  cases h with
  | goes hg => exact ⟨hg.alive.1,hg.alive.2,rfl⟩
  | throws ht => exact ⟨ht.alive.1,ht.alive.2,rfl⟩
  | reports hre => exact ⟨hre.alive.1,hre.alive.2,rfl⟩
  | started hpc | threw hpc | destroyed hpc => simp [hpc]

/-- A thread that has started nothing and is not about to. -/
def Guard.Barren (g : Guard) : Prop :=
  g.spawns=[] ∧ g.processes=[] ∧ g.pc≠.spawn

/-- A thread whose set is retired starts nothing new. -/
theorem Guard.Barren.move (h : g.Barren) (hm : Move false g g') : g'.Barren := by
  obtain ⟨hs,hp,hpc⟩ := h
  cases hm with
  | goes hg =>
    refine ⟨hs,hp,?_⟩
    cases hg <;> simp_all
  | throws ht =>
    refine ⟨hs,hp,?_⟩
    cases ht <;> simp
  | reports hre =>
    refine ⟨hs,hp,?_⟩
    cases hre <;> simp
  | started h | threw h => exact absurd h hpc
  | destroyed h =>
    obtain ⟨hearlier,hprocess⟩ := List.append_eq_nil_iff.mp hp
    have hnone : g.process=none := by simpa using hprocess
    exact ⟨hs,by simp [Guard.processes,hearlier,hnone],by simp⟩

/-- A change from outside that leaves a thread where it is, with what it has
started and reported. -/
structure Passive (g g' : Guard) : Prop where
  /-- The thread belongs to the same set. -/
  host : g'.host=g.host
  /-- The thread is where it was. -/
  pc : g'.pc=g.pc
  /-- It has started nothing. -/
  spawns : g'.spawns=g.spawns
  /-- Its results are the same. -/
  queued : g'.queued=g.queued
  /-- It holds no new process. -/
  processes : g.processes=[] → g'.processes=[]

theorem Passive.refl (g : Guard) : Passive g g := ⟨rfl,rfl,rfl,rfl,fun h => h⟩

theorem Guard.interrupt_passive (g : Guard) : Passive g g.interrupt := by
  unfold Guard.interrupt
  split
  · exact .refl g
  · exact ⟨rfl,rfl,rfl,rfl,fun h => h⟩

theorem Guard.exit_passive (he : g.exit=some g') : Passive g g' := by
  unfold Guard.exit at he
  split at he
  · cases he
    refine ⟨rfl,rfl,rfl,rfl,fun h => ?_⟩
    obtain ⟨hearlier,hprocess⟩ := List.append_eq_nil_iff.mp h
    have hnone : g.process=none := by simpa using hprocess
    simp [Guard.processes,hearlier,hnone]
  · cases he

theorem Guard.take_passive {result : Result} (ht : g.take=some (result,g')) : Passive g g' := by
  obtain ⟨r,-,hr⟩ := Option.map_eq_some_iff.mp ht
  cases hr
  exact ⟨rfl,rfl,rfl,rfl,fun h => h⟩

theorem Guard.Barren.passive (h : g.Barren) (hp : Passive g g') : g'.Barren :=
  ⟨hp.spawns.trans h.1,hp.processes h.2.1,hp.pc ▸ h.2.2⟩

/-- The processes of a thread that does not exist or has ended are gone. -/
theorem Guard.Sound.ended (h : g.Sound) (hpc : g.pc=.unborn ∨ g.pc=.done) :
    ∀ p∈g.processes, p.Ended := by
  intro p hp
  have hc := h.cleaning
  unfold Guard.Cleaning at hc
  rcases List.mem_append.mp hp with hold|hlast
  · exact .inl (hc.1 p hold)
  · have hin : p∈g.process := Option.mem_toList.mp hlast
    rcases hpc with hpc|hpc <;> rw [hpc] at hc
    · exact .inl (hc.2 p hin)
    · exact hc.2 p hin

end Soundness

end ProxyDroid.ProcessGuard
