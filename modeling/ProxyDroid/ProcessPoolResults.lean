import ProxyDroid.ProcessPoolRuns

/-!
# What the process pool guarantees

A call of `start` is told what happened to its first process, unless its
generation is retired before the guard's first check or the guard is
interrupted before it has queued the exception of its first start. A call of
`killAll` that has joined the threads of its set leaves nothing running.
-/

namespace ProxyDroid.ProcessPoolResults

open CallSemantics ProcessGuard ProcessPool ProcessPoolRuns

section Guards

variable {g g' : Guard} {current : Bool}

/-- The `finally` block and the end of the thread. -/
def inFinally : GuardPc → Bool
  | .final | .compat | .destroy | .finalWait | .finalPush | .done => true
  | _ => false

/-- A guard that will not report what happened: it ends without having tried
to start a process, or without having queued the exception of its first start. -/
def Misled (g : Guard) : Prop :=
  inFinally g.pc=true ∧ (g.spawns=[] ∨ ∃ e, g.spawns=[.threw e] ∧ .exception e∉g.queued)

/-- The steps by which a guard comes to be misled: a first check that finds
another generation, and an interrupted report of a first exception. -/
def LateMove (current : Bool) (g : Guard) : Prop :=
  (g.pc=.check ∧ g.spawns=[] ∧ current=false) ∨
    ∃ e, g.pc=.catchIo e ∧ g.pushed=false ∧ g.interrupted=true

theorem faithful_of_started (h : .started∈g.spawns) : ¬Misled g := by
  rintro ⟨-,hs|⟨e,hs,-⟩⟩
  · simp [hs] at h
  · simp [hs] at h

/-- In the `finally` block nothing changes what has been started, and reports
are only added. -/
theorem faithful_of_finally (hn : ¬Misled g) (hf : inFinally g.pc=true) (hs : g'.spawns=g.spawns)
    (hq : ∀ result∈g.queued, result∈g'.queued) : ¬Misled g' := by
  rintro ⟨-,hnil|⟨e,hthrew,he⟩⟩
  · exact hn ⟨hf,.inl (hs ▸ hnil)⟩
  · exact hn ⟨hf,.inr ⟨e,hs ▸ hthrew,fun hm => he (hq _ hm)⟩⟩

theorem faithful_goes (h : g.Sound) (hn : ¬Misled g) (hl : ¬LateMove current g) {next : GuardPc}
    (hg : Goes current g next) (callback : Bool) :
    ¬Misled { g with pc := next, callback := callback } := by
  have hr := h.reporting
  unfold Guard.Reporting at hr
  cases hg with
  | enter | called | told | again => exact fun hm => absurd hm.1 (by simp [inFinally])
  | stale hpc hc =>
    rw [hpc] at hr
    refine faithful_of_started (hr.resolve_left (fun hf => hl (.inl ⟨hpc,hf.1,hc⟩))).2.2
  | caught hpc hp =>
    rw [hpc] at hr
    refine faithful_of_started (hr.resolve_left (fun hf => ?_)).2.2
    rw [hf.2.1] at hp
    cases hp
  | empty hpc | compat hpc | gone hpc | ended hpc =>
    exact faithful_of_finally hn (by rw [hpc]; rfl) rfl (fun _ hm => hm)
  | kill hpc =>
    refine faithful_of_finally hn ?_ rfl (fun _ hm => hm)
    rcases hpc with hpc|hpc <;> rw [hpc] <;> rfl

theorem faithful_throws (h : g.Sound) (hn : ¬Misled g) (hl : ¬LateMove current g) {next : GuardPc}
    (ht : Throws g next) (hi : g.interrupted=true) :
    ¬Misled { g with pc := next, interrupted := false } := by
  have hr := h.reporting
  unfold Guard.Reporting at hr
  cases ht with
  | loop hpc =>
    rcases hpc with hpc|hpc
    · rw [hpc] at hr
      exact faithful_of_started (hr.elim (fun hf => by simp [hf.1]) (fun ht => ht.2.2))
    · rw [hpc] at hr
      exact faithful_of_started hr.2.2
  | unreported hpc =>
    rw [hpc] at hr
    exact faithful_of_started (hr.elim (fun hf => by simp [hf.1]) (fun ht => ht.2.2))
  | uncaught hpc hp => exact absurd (.inr ⟨_,hpc,hp,hi⟩) hl
  | cleanup hpc =>
    refine faithful_of_finally hn ?_ rfl (fun _ hm => hm)
    rcases hpc with hpc|hpc <;> rw [hpc] <;> rfl
  | silent hpc => exact faithful_of_finally hn (by rw [hpc]; rfl) rfl (fun _ hm => hm)

/-- Other steps do not mislead a guard. -/
theorem faithful_move (h : g.Sound) (hn : ¬Misled g) (hl : ¬LateMove current g)
    (hm : Move current g g') : ¬Misled g' := by
  have hr := h.reporting
  unfold Guard.Reporting at hr
  cases hm with
  | goes hg callback => exact faithful_goes h hn hl hg callback
  | throws ht hi => exact faithful_throws h hn hl ht hi
  | reports hre hp hi hq =>
    cases hre with
    | started => exact fun hm => absurd hm.1 (by simp [inFinally])
    | threw hpc =>
      rw [hpc] at hr
      have hthrown := hr.resolve_right (fun ht => by rw [ht.1] at hp; cases hp)
      rintro ⟨-,hs|⟨e,hs,he⟩⟩
      · simp [hthrown.1] at hs
      · have hsame : _=_ := hthrown.1.symm.trans hs
        cases hsame
        exact he (by simp)
    | last hpc =>
      exact faithful_of_finally hn (by rw [hpc]; rfl) rfl (fun _ hm => List.mem_append_left _ hm)
  | started | threw => exact fun hm => absurd hm.1 (by simp [inFinally])
  | destroyed hpc => exact faithful_of_finally hn (by rw [hpc]; rfl) rfl (fun _ hm => hm)

/-- The late steps do. -/
theorem misled_of_late (h : g.Sound) (hl : LateMove current g) (hm : Move current g g') :
    Misled g' := by
  have hr := h.reporting
  unfold Guard.Reporting at hr
  rcases hl with ⟨hpc,hs,hc⟩|⟨e,hpc,hp,hi⟩
  · cases hm with
    | goes hg =>
      cases hg with
      | stale => exact ⟨rfl,.inl hs⟩
      | enter _ hc' => rw [hc] at hc'; cases hc'
      | called h | told h | again h | caught h | empty h | compat h | gone h | ended h =>
        rw [hpc] at h
        cases h
      | kill h => rcases h with h|h <;> rw [hpc] at h <;> cases h
    | throws ht =>
      cases ht with
      | loop h | cleanup h => rcases h with h|h <;> rw [hpc] at h <;> cases h
      | unreported h | uncaught h | silent h => rw [hpc] at h; cases h
    | reports hre =>
      cases hre with
      | started h | threw h | last h => rw [hpc] at h; cases h
    | started h | threw h | destroyed h => rw [hpc] at h; cases h
  · rw [hpc] at hr
    have hthrown := hr.resolve_right (fun ht => by rw [ht.1] at hp; cases hp)
    cases hm with
    | throws ht =>
      cases ht with
      | uncaught => exact ⟨rfl,.inr ⟨e,hthrown.1,by simp [hthrown.2.2]⟩⟩
      | loop h | cleanup h => rcases h with h|h <;> rw [hpc] at h <;> cases h
      | unreported h | silent h => rw [hpc] at h; cases h
    | goes hg =>
      cases hg with
      | caught h hp' => rw [hp] at hp'; cases hp'
      | enter h | stale h | called h | told h | again h | empty h | compat h | gone h | ended h =>
        rw [hpc] at h
        cases h
      | kill h => rcases h with h|h <;> rw [hpc] at h <;> cases h
    | reports _ _ hi' => rw [hi] at hi'; cases hi'
    | started h | threw h | destroyed h => rw [hpc] at h; cases h

/-- What other threads do to a guard does not matter here. -/
theorem misled_passive (hp : Passive g g') : Misled g' ↔ Misled g := by
  unfold Misled
  rw [hp.pc,hp.spawns,hp.queued]

/-- A misled guard stays so. -/
theorem misled_move (h : g.Sound) (hm : Misled g) (hmove : Move current g g') : Misled g' := by
  obtain ⟨hf,hs⟩ := hm
  have hr := h.reporting
  unfold Guard.Reporting at hr
  cases hmove with
  | goes hg =>
    refine ⟨?_,hs⟩
    cases hg with
    | enter h | stale h | called h | told h | again h | caught h => rw [h] at hf; cases hf
    | empty | compat | kill | gone | ended => rfl
  | throws ht =>
    refine ⟨?_,hs⟩
    cases ht with
    | loop h => rcases h with h|h <;> rw [h] at hf <;> cases hf
    | unreported h | uncaught h => rw [h] at hf; cases hf
    | cleanup | silent => rfl
  | reports hre hp =>
    cases hre with
    | started h | threw h => rw [h] at hf; cases hf
    | last h =>
      refine ⟨rfl,hs.imp_right ?_⟩
      rintro ⟨e,hthrew,hnot⟩
      exact ⟨e,hthrew,by simpa using hnot⟩
  | started h | threw h => rw [h] at hf; cases hf
  | destroyed => exact ⟨rfl,hs⟩

/-- A result says what happened: the one for success that a process has been
started, an exception that the first start threw it. -/
def Truthful : Result → List Spawn → Prop
  | .dummy,spawns => .started∈spawns
  | .exception e,spawns => spawns.head?=some (.threw e)

instance (result : Result) (spawns : List Spawn) : Decidable (Truthful result spawns) := by
  cases result <;> unfold Truthful <;> infer_instance

/-- What has been told of a started process or of a first exception is true. -/
theorem told_truthful (h : g.Told) : ∀ result∈g.queued, Truthful result g.spawns := by
  intro result hq
  rw [h.2.1,List.mem_singleton] at hq
  subst hq
  exact h.2.2

theorem failed_truthful {e : ℕ} (h : g.Failed e) : ∀ result∈g.queued, Truthful result g.spawns := by
  intro result hq
  rw [h.2.1,List.mem_singleton] at hq
  subst hq
  rw [h.2.2]
  rfl

/-- The results of a guard that is not misled are truthful. -/
theorem queued_truthful (h : g.Sound) (hn : ¬Misled g) :
    ∀ result∈g.queued, Truthful result g.spawns := by
  have hr := h.reporting
  unfold Guard.Reporting at hr
  have hnone : g.queued=[] → ∀ result∈g.queued, Truthful result g.spawns := by
    intro hq
    simp [hq]
  cases hpc : g.pc with
  | unborn => rw [hpc] at hr; exact hnone hr.2.2.2.2
  | check | spawn => rw [hpc] at hr; exact hr.elim (fun hf => hnone hf.2.2.2.2) told_truthful
  | callback | push | catchIo =>
    rw [hpc] at hr
    exact hr.elim (fun hf => hnone hf.2.2) told_truthful
  | waitFor => rw [hpc] at hr; exact told_truthful hr
  | final | compat | destroy | finalWait | finalPush =>
    rw [hpc] at hr
    cases hr with
    | fresh hf => exact hnone hf.2.2.2.2
    | told ht => exact told_truthful ht
    | failed hf => exact failed_truthful hf
    | first hf | thrown hf => exact hnone hf.2.2
  | done =>
    have hf : inFinally g.pc=true := by rw [hpc]; rfl
    rw [hpc] at hr
    cases hr with
    | unstarted hs => exact absurd ⟨hf,.inl hs⟩ hn
    | told ht => exact told_truthful ht
    | failed ht => exact failed_truthful ht
    | @hidden e hs hq => exact absurd ⟨hf,.inr ⟨e,hs,by simp [hq]⟩⟩ hn

/-- A guard that is not misled has queued one result when it ends. -/
theorem closed_faithful (h : g.Sound) (hd : g.pc=.done) (hn : ¬Misled g) : g.queued.length=1 := by
  have hr := h.reporting
  unfold Guard.Reporting at hr
  have hf : inFinally g.pc=true := by rw [hd]; rfl
  rw [hd] at hr
  cases hr with
  | unstarted hs => exact absurd ⟨hf,.inl hs⟩ hn
  | told ht => rw [ht.2.1]; rfl
  | failed ht => rw [ht.2.1]; rfl
  | hidden hs hq => rw [hq]; rfl

/-- A misled guard has queued no truthful result when it ends. -/
theorem closed_misled (h : g.Sound) (hd : g.pc=.done) (hm : Misled g) :
    ∀ result∈g.queued, ¬Truthful result g.spawns := by
  have hr := h.reporting
  unfold Guard.Reporting at hr
  rw [hd] at hr
  intro result hq htrue
  cases hr with
  | unstarted hs hqueue =>
    rcases hqueue with hqueue|hqueue
    · simp [hqueue] at hq
    · rw [hqueue,List.mem_singleton] at hq
      subst hq
      simp [Truthful,hs] at htrue
  | told ht => exact faithful_of_started ht.2.2 hm
  | failed ht =>
    obtain ⟨-,hs|⟨e',hs,hnot⟩⟩ := hm
    · rw [ht.2.2] at hs
      cases hs
    · rw [ht.2.2] at hs
      cases hs
      exact hnot (by simp [ht.2.1])
  | hidden hs hqueue =>
    rw [hqueue,List.mem_singleton] at hq
    subst hq
    simp [Truthful,hs] at htrue

end Guards

section Starts

variable {s s' : Pool} {t : Step} {legacy : Bool} {i : ℕ}

/-- The call `i` of `start` is told what happened: once its guard has ended,
exactly one result has been queued, and the result the call ends with is
truthful. -/
def Reported (s : Pool) (i : ℕ) : Prop :=
  ((s.guards i).pc=.done → (s.guards i).queued.length=1) ∧
    ∀ result, s.starts i=.finished result → Truthful result (s.guards i).spawns

/-- The guard has ended and nothing waits in its queue: the call has its
result or waits for ever. -/
def Settled (s : Pool) (i : ℕ) : Prop := (s.guards i).pc=.done ∧ (s.guards i).excQueue=none

/-- The step misleads the guard of the call `i`. -/
def Late (i : ℕ) (s : Pool) (t : Step) : Prop :=
  (∃ choice, t=.guard i choice) ∧
    LateMove (decide ((s.guards i).host=s.current)) (s.guards i)

/-- A misled guard stays so in every step of the pool. -/
theorem misled_acts (h : Sound s) (hm : Misled (s.guards i)) (ha : Acts s t s') :
    Misled (s'.guards i) := by
  rcases ha.guard_cases i with hp|⟨set,b,hpc,-⟩|⟨choice,-,hmove⟩
  · exact (misled_passive hp).mpr hm
  · have hf := hm.1
    rw [h.enrolled.unborn hpc] at hf
    cases hf
  · exact misled_move (h.guards i) hm hmove

/-- Only the late steps mislead it. -/
theorem faithful_acts (h : Sound s) (hn : ¬Misled (s.guards i)) (hl : ¬Late i s t)
    (ha : Acts s t s') : ¬Misled (s'.guards i) := by
  rcases ha.guard_cases i with hp|⟨set,b,-,hg⟩|⟨choice,ht,hmove⟩
  · exact fun hm => hn ((misled_passive hp).mp hm)
  · rw [hg]
    exact fun hm => absurd hm.1 (by simp [inFinally,Guard.born])
  · exact faithful_move (h.guards i) hn (fun hlate => hl ⟨⟨choice,ht⟩,hlate⟩) hmove

theorem late_acts (h : Sound s) (hl : Late i s t) (ha : Acts s t s') : Misled (s'.guards i) := by
  obtain ⟨⟨choice,rfl⟩,hlate⟩ := hl
  cases ha with
  | guard choice hmove =>
    simp only [Pool.setGuard,Function.update_self]
    exact misled_of_late (h.guards i) hlate hmove

/-- Every run from a new pool meets the condition for a call, or its guard is
misled. -/
theorem fresh_run {steps : List Step} (hrun : (pool legacy).Run Pool.fresh steps s) :
    ((pool legacy).RunUnder (fun s t => ¬Late i s t) Pool.fresh steps s ∧
      ¬Misled (s.guards i)) ∨ Misled (s.guards i) := by
  have hstart : Sound Pool.fresh ∧ ¬Misled (Pool.fresh.guards i) :=
    ⟨sound_fresh,fun hm => absurd hm.1 (by simp [Pool.fresh,Guard.unborn,inFinally])⟩
  have hbreach : ((pool legacy).RunUnder (fun s t => ¬Late i s t) Pool.fresh steps s ∧
      (Sound s ∧ ¬Misled (s.guards i))) ∨ (Sound s ∧ Misled (s.guards i)) := by
    refine hrun.breach (I:=fun s => Sound s ∧ ¬Misled (s.guards i))
      (B:=fun s => Sound s ∧ Misled (s.guards i)) ?_ ?_ ?_ hstart
    · intro s t s' hs _ hok ht
      have ha := step_acts (System.turn_ofStep.mp ht)
      exact ⟨hs.1.acts ha,faithful_acts hs.1 hs.2 hok ha⟩
    · intro s t s' hs _ hlate ht
      have ha := step_acts (System.turn_ofStep.mp ht)
      exact ⟨hs.1.acts ha,late_acts hs.1 (not_not.mp hlate) ha⟩
    · intro s t s' hs _ ht
      have ha := step_acts (System.turn_ofStep.mp ht)
      exact ⟨hs.1.acts ha,misled_acts hs.1 hs.2 ha⟩
  exact hbreach.imp (fun h => ⟨h.1,h.2.2⟩) (fun h => h.2)

/-- The call of a guard that is not misled is told what happened. -/
theorem reported_of_faithful (h : Sound s) (hn : ¬Misled (s.guards i)) : Reported s i := by
  refine ⟨fun hd => closed_faithful (h.guards i) hd hn,fun result hf => ?_⟩
  refine queued_truthful (h.guards i) hn result ?_
  rw [h.delivered i,hf]
  exact List.mem_append_left _ (List.mem_singleton.mpr rfl)

/-- The call of a misled guard is not. -/
theorem not_reported_of_misled (h : Sound s) (hsettled : Settled s i) (hm : Misled (s.guards i)) :
    ¬Reported s i := by
  obtain ⟨hd,hempty⟩ := hsettled
  rintro ⟨hone,htrue⟩
  have hqueued : (s.guards i).queued=(s.starts i).taken := by
    rw [h.delivered i,hempty]
    exact List.append_nil _
  have hlength := hone hd
  cases hs : s.starts i with
  | finished result =>
    have hin : result∈(s.guards i).queued := by
      rw [hqueued,hs]
      exact List.mem_singleton.mpr rfl
    exact closed_misled (h.guards i) hd hm result hin (htrue result hs)
  | idle | read | entered | spawned | added | waiting =>
    rw [hqueued,hs] at hlength
    cases hlength

/-- A call of `start` is told what happened in every run that does not mislead
its guard, and in no other run that is over for it: the guard must find its
set current when it first looks, and must not be interrupted before it has
queued the exception of its first start. -/
theorem start_reports_iff {steps : List Step} (hrun : (pool legacy).Run Pool.fresh steps s) (i : ℕ) :
    ((pool legacy).RunUnder (fun s t => ¬Late i s t) Pool.fresh steps s → Reported s i) ∧
      (Settled s i →
        (Reported s i ↔ (pool legacy).RunUnder (fun s t => ¬Late i s t) Pool.fresh steps s)) := by
  have hsound : Sound s := sound_fresh.run hrun
  have hforth : (pool legacy).RunUnder (fun s t => ¬Late i s t) Pool.fresh steps s → Reported s i := by
    intro hunder
    have hinv : Sound s ∧ ¬Misled (s.guards i) := by
      refine hunder.invariant (I:=fun s => Sound s ∧ ¬Misled (s.guards i)) ?_ ⟨sound_fresh,?_⟩
      · intro s t s' hs hok ht
        have ha := step_acts (System.turn_ofStep.mp ht)
        exact ⟨hs.1.acts ha,faithful_acts hs.1 hs.2 hok ha⟩
      · exact fun hm => absurd hm.1 (by simp [Pool.fresh,Guard.unborn,inFinally])
    exact reported_of_faithful hsound hinv.2
  refine ⟨hforth,fun hsettled => ⟨fun hreported => ?_,hforth⟩⟩
  rcases fresh_run hrun with ⟨hunder,-⟩|hm
  · exact hunder
  · exact absurd hreported (not_reported_of_misled hsound hsettled hm)

/-- The state of a new pool after the given steps. -/
def after (legacy : Bool) (steps : List Step) : Pool := System.after (step legacy) Pool.fresh steps

/-- A call of `start` up to the wait for its result. -/
def starting (i : ℕ) : List Step := List.replicate 5 (.start i false)

/-- A guard that starts a process, reports it, is interrupted while it waits
and ends, with the call taking its result. -/
def guarded : List Step :=
  starting 0++List.replicate 4 (Step.guard 0 .proceed)++[Step.start 0 false]++
    List.replicate 3 (Step.kill 0 false)++[Step.guard 0 .interrupted]++
    List.replicate 2 (Step.guard 0 .proceed)++[Step.exit 0]++List.replicate 2 (Step.guard 0 .proceed)

/-- An ordinary run for a call that is told of its process. -/
theorem start_reports_guarded : Settled (after false guarded) 0 ∧ Reported (after false guarded) 0 ∧
    (pool false).RunUnder (fun s t => ¬Late 0 s t) Pool.fresh guarded (after false guarded) := by
  have hsettled : Settled (after false guarded) 0 := ⟨by decide,by decide⟩
  have hreported : Reported (after false guarded) 0 := by
    refine ⟨fun _ => by decide,fun result hf => ?_⟩
    have hsame : (after false guarded).starts 0=.finished .dummy := by decide
    rw [hsame] at hf
    cases hf
    decide
  exact ⟨hsettled,hreported,((start_reports_iff (System.run_after (by decide)) 0).2 hsettled).mp hreported⟩

/-- The pool is killed before the guard has looked at it for the first time. -/
def overtaken : List Step :=
  starting 0++List.replicate 3 (Step.kill 0 false)++List.replicate 3 (Step.guard 0 .proceed)

/-- The guard ends without a result and the call waits for ever. -/
theorem start_waits_for_ever : (pool false).Run Pool.fresh overtaken (after false overtaken) ∧
    Settled (after false overtaken) 0 ∧ (after false overtaken).starts 0=.waiting ∧
    ¬Reported (after false overtaken) 0 := by
  have hd : ((after false overtaken).guards 0).pc=.done := by decide
  refine ⟨System.run_after (by decide),⟨hd,by decide⟩,by decide,fun hreported => ?_⟩
  exact absurd (hreported.1 hd) (by decide)

end Starts

section Kills

variable {s s' : Pool} {t : Step} {legacy : Bool} {i j set : ℕ}

/-- A call of `killAll` that has returned does nothing more. -/
theorem returned_acts {joined : Bool} (hk : s.kills j=.returned set joined) (ha : Acts s t s') :
    s'.kills j=.returned set joined := by
  cases ha with
  | swap | lock | interrupt | interrupted | join | giveUp | joined | unlock =>
    simp only [Pool.setKill,Pool.setHolder,Pool.setGuard]
    grind [Function.update_apply]
  | read | enter | spawn | add | leave | take | guard | exit => exact hk

/-- The processes of a thread that is over have ended. -/
theorem over_ended {g : Guard} (h : g.Sound) (ho : Over g) : ∀ p∈g.processes, p.Ended := by
  intro p hp
  rcases ho with hd|hb
  · exact h.ended (.inr hd) p hp
  · rw [hb.2.1] at hp
    cases hp

/-- A call of `start` whose set has been read but whose guard has not been
started, or whose guard will start no process. -/
def Harmless (s : Pool) (set i : ℕ) : Prop :=
  s.starts i=.read set ∨ s.starts i=.entered set ∨
    ((s.guards i).pc≠.unborn ∧ (s.guards i).host=set ∧ (s.guards i).Barren)

theorem Harmless.acts (h : Harmless s set i) (hsound : Sound s) (hlt : set<s.current)
    (ha : Acts s t s') : Harmless s' set i := by
  have hbarren : (s.guards i).pc≠.unborn ∧ (s.guards i).host=set ∧ (s.guards i).Barren →
      Harmless s' set i := by
    rintro ⟨hborn,hhost,hb⟩
    have hkept := hsound.enrolled.kept ha hborn
    exact .inr (.inr ⟨hkept.1,hkept.2.trans hhost,barren_acts ha (hhost ▸ hlt) hb⟩)
  rcases h with hread|hentered|hb
  · cases ha with
    | @enter k set' b hpc hf =>
      by_cases hki : i=k
      · subst hki
        rw [hpc] at hread
        cases hread
        exact .inr (.inl (Function.update_self ..))
      · exact .inl ((Function.update_of_ne hki ..).trans hread)
    | read b hpc | spawn b hpc | add b hpc | leave b hpc | take b hpc =>
      refine .inl ((Function.update_of_ne ?_ ..).trans hread)
      rintro rfl
      rw [hpc] at hread
      cases hread
    | swap | lock | interrupt | interrupted | join | giveUp | joined | unlock | guard | exit =>
      exact .inl hread
  · cases ha with
    | @spawn k set' b hpc =>
      by_cases hki : i=k
      · subst hki
        rw [hpc] at hentered
        cases hentered
        refine .inr (.inr ?_)
        simp only [Pool.setStart,Pool.setGuard,Function.update_self]
        exact ⟨by simp [Guard.born],rfl,rfl,rfl,by simp [Guard.born]⟩
      · exact .inr (.inl ((Function.update_of_ne hki ..).trans hentered))
    | read b hpc | enter b hpc | add b hpc | leave b hpc | take b hpc =>
      refine .inr (.inl ((Function.update_of_ne ?_ ..).trans hentered))
      rintro rfl
      rw [hpc] at hentered
      cases hentered
    | swap | lock | interrupt | interrupted | join | giveUp | joined | unlock | guard | exit =>
      exact .inr (.inl hentered)
  · exact hbarren hb

/-- The guard of such a call has started nothing. -/
theorem Harmless.nothing (h : Harmless s set i) (hsound : Sound s) :
    (s.guards i).spawns=[] ∧ (s.guards i).processes=[] := by
  have hunborn : (s.starts i).born=false → (s.guards i).spawns=[] ∧ (s.guards i).processes=[] := by
    intro hb
    have hr := (hsound.guards i).reporting
    unfold Guard.Reporting at hr
    rw [(hsound.enrolled.born i).mpr hb] at hr
    exact ⟨hr.1,by simp [Guard.processes,hr.2.1,hr.2.2.1]⟩
  rcases h with hread|hentered|⟨-,-,hb⟩
  · exact hunborn (by rw [hread]; rfl)
  · exact hunborn (by rw [hentered]; rfl)
  · exact ⟨hb.1,hb.2.1⟩

/-- What a returned call of `killAll` knows of the later states: the threads
of its set are over, as it left them. -/
structure Quiet (s₀ : Pool) (j set : ℕ) (s : Pool) : Prop where
  /-- The state is one of a run. -/
  sound : Sound s
  /-- The call has returned. -/
  returned : s.kills j=.returned set true
  /-- The threads of the set start no other process. -/
  spawns : ∀ i, (s₀.guards i).pc≠.unborn → (s₀.guards i).host=set →
    (s.guards i).pc≠.unborn ∧ (s.guards i).host=set ∧ (s.guards i).spawns=(s₀.guards i).spawns
  /-- Calls that are late for the set start none at all. -/
  late : ∀ i, s₀.starts i=.read set → Harmless s set i

theorem Quiet.acts {s₀ : Pool} (h : Quiet s₀ j set s) (ha : Acts s t s') : Quiet s₀ j set s' := by
  have hlt : set<s.current := h.sound.retired.lt j set (by rw [h.returned]; rfl)
  refine ⟨h.sound.acts ha,returned_acts h.returned ha,fun i hb hhost => ?_,
    fun i hi => (h.late i hi).acts h.sound hlt ha⟩
  obtain ⟨hborn,hset,hspawns⟩ := h.spawns i hb hhost
  have hkept := h.sound.enrolled.kept ha hborn
  have hover := h.sound.joined.returned j set h.returned i hborn hset
  have hsame := (over_acts h.sound.enrolled ha (hset ▸ hlt) hover).2
  exact ⟨hkept.1,hkept.2.trans hset,hsame.trans hspawns⟩

/-- Once a call of `killAll` has returned with all threads of its set joined,
every process of these threads has exited or been destroyed, they start no
other one, and calls of `start` that have read the set but not entered its
block start none at all. -/
theorem killAll_leaves_nothing {steps more : List Step} (hrun : (pool legacy).Run Pool.fresh steps s)
    (hk : s.kills j=.returned set true) (hmore : (pool legacy).Run s more s') :
    (∀ i, (s'.guards i).pc≠.unborn → (s'.guards i).host=set →
      ∀ p∈(s'.guards i).processes, p.Ended) ∧
    (∀ i, (s.guards i).pc≠.unborn → (s.guards i).host=set →
      (s'.guards i).spawns=(s.guards i).spawns) ∧
    (∀ i, s.starts i=.read set → (s'.guards i).spawns=[] ∧ (s'.guards i).processes=[]) := by
  have hstart : Quiet s j set s :=
    ⟨sound_fresh.run hrun,hk,fun i hb hhost => ⟨hb,hhost,rfl⟩,fun i hi => .inl hi⟩
  have hquiet : Quiet s j set s' :=
    hmore.invariant (fun _ _ _ h _ ht => h.acts (step_acts (System.turn_ofStep.mp ht))) hstart
  refine ⟨fun i hb hhost => ?_,fun i hb hhost => (hquiet.spawns i hb hhost).2.2,
    fun i hi => (hquiet.late i hi).nothing hquiet.sound⟩
  have hover := hquiet.sound.joined.returned j set hquiet.returned i hb hhost
  exact over_ended (hquiet.sound.guards i) hover

/-- Two calls read the first set; one starts its process before the pool is
killed, the other one enters its block afterwards. -/
def killed : List Step := [Step.start 1 false]++guarded++List.replicate 4 (Step.kill 0 false)

/-- The late call goes on to the end of its guard. -/
def afterwards : List Step := List.replicate 4 (Step.start 1 false)++List.replicate 3 (Step.guard 1 .proceed)

/-- Neither guard leaves a process behind. -/
theorem killAll_leaves_nothing_killed :
    ((after false killed).guards 0).spawns=[.started] ∧
    (∀ p∈((after false (killed++afterwards)).guards 0).processes, p.Ended) ∧
    ((after false (killed++afterwards)).guards 1).pc=.done ∧
    ((after false (killed++afterwards)).guards 1).spawns=[] := by
  have hrun : (pool false).Run Pool.fresh killed (after false killed) := System.run_after (by decide)
  have hmore : (pool false).Run (after false killed) afterwards (after false (killed++afterwards)) := by
    refine System.run_ofStep ?_
    rfl
  have hk : (after false killed).kills 0=.returned 0 true := by decide
  have hall := killAll_leaves_nothing hrun hk hmore
  exact ⟨by decide,hall.1 0 (by decide) (by decide),by decide,(hall.2.2 1 (by decide)).1⟩

end Kills

end ProxyDroid.ProcessPoolResults
