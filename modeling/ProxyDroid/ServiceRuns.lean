import ProxyDroid.ServiceLifecycle

/-!
# What the service holds after a stop

The main thread runs one call after the other, so a completed `stopProxy` has
joined every guard thread and removed every registration. The workers and the
VPN descriptors are released by nobody: after a stop they are gone only if
clients have killed every worker and the collector has closed every descriptor.
-/

namespace ProxyDroid.ServiceRuns

open CallSemantics ProcessGuard ServiceLifecycle
open ProcessPool hiding Step step

variable {s s' : Service} {legacy : Bool} {device : ProtectProtocol.Device} {t : Step}

/-- The set that a call of `start` is about to use. -/
def targetSet : StartPc → Option ℕ
  | .read set | .entered set | .spawned set | .added set => some set
  | .idle | .waiting | .finished _ => none

/-- Where the call of `killAll` on the main thread is. -/
def Killing (pool : Pool) (j : ℕ) : Prop :=
  (pool.kills j=.idle ∧ pool.current=j) ∨
    ((pool.kills j).set=some j ∧ pool.current=j+1 ∧ pool.kills j≠.leaving j false ∧
      ∀ joined, pool.kills j≠.returned j joined)

/-- The pool as the calls of one main thread leave it. -/
structure Kept (s : Service) : Prop where
  /-- It is the pool of a run. -/
  sound : ProcessPoolRuns.Sound s.pool
  /-- Earlier calls of `start` have ended. -/
  ended : ∀ i<s.launched, ∃ result, s.pool.starts i=.finished result
  /-- Later ones have not begun. -/
  later : ∀ i, s.launched < i → s.pool.starts i=.idle
  /-- The next one has begun only inside `startProxy`. -/
  calling : s.pc≠.start → s.pool.starts s.launched=.idle
  /-- It has not ended. -/
  unfinished : ∀ result, s.pool.starts s.launched≠.finished result
  /-- It uses the current set. -/
  target : ∀ set, targetSet (s.pool.starts s.launched)=some set → set=s.killed
  /-- The next call of `killAll` has begun only inside `stopProxy`. -/
  killing : s.pc≠.killAll → s.pool.kills s.killed=.idle
  /-- It retires the current set. -/
  retiring : Killing s.pool s.killed
  /-- Later ones have not begun. -/
  unkilled : ∀ j, s.killed<j → s.pool.kills j=.idle
  /-- Guard threads belong to the current set or to earlier ones. -/
  hosts : ∀ i, (s.pool.guards i).pc≠.unborn → (s.pool.guards i).host ≤ s.killed
  /-- Those of earlier sets have ended. -/
  done : ∀ i, (s.pool.guards i).pc≠.unborn → (s.pool.guards i).host<s.killed →
    (s.pool.guards i).pc=.done
  /-- After a stop all have. -/
  quiet : s.pc=.stopSelf ∨ (s.pc=.idle ∧ s.last=.stopped) →
    ∀ i, (s.pool.guards i).pc≠.unborn → (s.pool.guards i).pc=.done

theorem kept_fresh : Kept Service.fresh where
  sound := ProcessPoolRuns.sound_fresh
  ended := by simp [Service.fresh]
  later := by simp [Service.fresh,Pool.fresh]
  calling := by simp [Service.fresh,Pool.fresh]
  unfinished := by simp [Service.fresh,Pool.fresh]
  target := by simp [Service.fresh,Pool.fresh,targetSet]
  killing := by simp [Service.fresh,Pool.fresh]
  retiring := .inl ⟨rfl,rfl⟩
  unkilled := by simp [Service.fresh,Pool.fresh]
  hosts := by simp [Service.fresh,Pool.fresh,Guard.unborn]
  done := by simp [Service.fresh,Pool.fresh,Guard.unborn]
  quiet := by simp [Service.fresh,Pool.fresh,Guard.unborn]

/-- Steps that leave the pool alone. -/
theorem Kept.moved (h : Kept s) (hpool : s'.pool=s.pool) (hl : s'.launched=s.launched)
    (hk : s'.killed=s.killed) (hpc : s'.pc=s.pc ∨ (s.pc≠.start ∧ s.pc≠.killAll))
    (hquiet : s'.pc=.stopSelf ∨ (s'.pc=.idle ∧ s'.last=.stopped) →
      s.pc=.stopSelf ∨ (s.pc=.idle ∧ s.last=.stopped)) : Kept s' where
  sound := by rw [hpool]; exact h.sound
  ended := by rw [hpool,hl]; exact h.ended
  later := by rw [hpool,hl]; exact h.later
  calling := by
    rw [hpool,hl]
    exact fun hne => h.calling (hpc.elim (fun hsame => hsame ▸ hne) (fun hno => hno.1))
  unfinished := by rw [hpool,hl]; exact h.unfinished
  target := by rw [hpool,hl,hk]; exact h.target
  killing := by
    rw [hpool,hk]
    exact fun hne => h.killing (hpc.elim (fun hsame => hsame ▸ hne) (fun hno => hno.2))
  retiring := by rw [hpool,hk]; exact h.retiring
  unkilled := by rw [hpool,hk]; exact h.unkilled
  hosts := by rw [hpool,hk]; exact h.hosts
  done := by rw [hpool,hk]; exact h.done
  quiet := by rw [hpool]; exact fun hq => h.quiet (hquiet hq)

/-- A guard that exists after a step of other threads existed before, in the
same set, and has ended if it had. -/
theorem guard_kept {pool pool' : Pool} {t : ProcessPool.Step} (hs : ProcessPoolRuns.Sound pool)
    (ha : Acts pool t pool') {i : ℕ} (hb : (pool'.guards i).pc≠.unborn)
    (hne : ∀ set, pool.starts i≠.entered set) :
    (pool.guards i).pc≠.unborn ∧ (pool'.guards i).host=(pool.guards i).host ∧
      ((pool.guards i).pc=.done → (pool'.guards i).pc=.done) := by
  have hold : (pool.guards i).pc≠.unborn := by
    rcases ha.guard_cases i with hp|⟨set,b,hpc,-⟩|⟨choice,-,hm⟩
    · rw [hp.pc] at hb
      exact hb
    · exact absurd hpc (hne set)
    · exact hm.alive.1.1
  exact ⟨hold,(hs.enrolled.kept ha hold).2,fun hd => (ProcessPoolRuns.done_acts hs.enrolled ha hd).1⟩

/-- Guard threads and processes. -/
theorem Kept.poolStep (h : Kept s) {t : ProcessPool.Step} (hs : s.poolStep legacy t=some s') :
    Kept s' := by
  have hstep : ∃ pool, ProcessPool.step legacy t s.pool=some pool ∧ s'={ s with pool := pool } ∧
      pool.starts=s.pool.starts ∧ pool.kills=s.pool.kills ∧ pool.current=s.pool.current := by
    cases t with
    | guard i choice | exit i =>
      obtain ⟨pool,hpool,rfl⟩ := Option.map_eq_some_iff.mp hs
      refine ⟨pool,hpool,rfl,?_⟩
      obtain ⟨g,-,rfl⟩ := Option.map_eq_some_iff.mp hpool
      exact ⟨rfl,rfl,rfl⟩
    | start | kill => cases hs
  obtain ⟨pool,hpool,rfl,hstarts,hkills,hcurrent⟩ := hstep
  have ha := ProcessPool.step_acts hpool
  have hentered : ∀ i, (pool.guards i).pc≠.unborn → ∀ set, s.pool.starts i≠.entered set := by
    intro i hb set hpc
    have hborn := (h.sound.acts ha).enrolled.born i
    rw [hstarts,hpc] at hborn
    exact hb (hborn.mpr rfl)
  constructor
  · exact h.sound.acts ha
  · exact hstarts ▸ h.ended
  · exact hstarts ▸ h.later
  · exact hstarts ▸ h.calling
  · exact hstarts ▸ h.unfinished
  · exact hstarts ▸ h.target
  · exact hkills ▸ h.killing
  · have hr := h.retiring
    unfold Killing at hr ⊢
    rw [hkills,hcurrent]
    exact hr
  · exact hkills ▸ h.unkilled
  · intro i hb
    obtain ⟨hold,hhost,-⟩ := guard_kept h.sound ha hb (hentered i hb)
    rw [hhost]
    exact h.hosts i hold
  · intro i hb hlt
    obtain ⟨hold,hhost,hdone⟩ := guard_kept h.sound ha hb (hentered i hb)
    rw [hhost] at hlt
    exact hdone (h.done i hold hlt)
  · intro hq i hb
    obtain ⟨hold,-,hdone⟩ := guard_kept h.sound ha hb (hentered i hb)
    exact hdone (h.quiet hq i hold)

/-- The call of `start` on the main thread leaves other calls alone. -/
theorem start_acts {pool pool' : Pool} {i : ℕ} {b : Bool} (ha : Acts pool (.start i b) pool') :
    pool'.kills=pool.kills ∧ pool'.current=pool.current ∧
      ∀ j≠i, pool'.starts j=pool.starts j := by
  cases ha with
  | read | enter | spawn | add | leave | take =>
    exact ⟨rfl,rfl,fun j hj => Function.update_of_ne hj ..⟩

/-- It uses one set from beginning to end. -/
theorem start_target {pool pool' : Pool} {i : ℕ} {b : Bool} (ha : Acts pool (.start i b) pool')
    {set : ℕ} (ht : targetSet (pool'.starts i)=some set) :
    targetSet (pool.starts i)=some set ∨ (pool.starts i=.idle ∧ set=pool.current) := by
  cases ha with
  | read b hpc =>
    simp only [Pool.setStart,Function.update_self,targetSet] at ht
    exact .inr ⟨hpc,(Option.some.inj ht).symm⟩
  | enter b hpc | spawn b hpc | add b hpc =>
    simp only [Pool.setStart,Function.update_self,targetSet] at ht
    rw [hpc]
    exact .inl ht
  | leave | take =>
    simp only [Pool.setStart,Function.update_self,targetSet] at ht
    cases ht

/-- A guard exists after a step of `start` if it did before, or it is the new
one of the call. -/
theorem start_guard {pool pool' : Pool} {i : ℕ} {b : Bool} (hs : ProcessPoolRuns.Sound pool)
    (ha : Acts pool (.start i b) pool') {k : ℕ} (hb : (pool'.guards k).pc≠.unborn) :
    ((pool.guards k).pc≠.unborn ∧ (pool'.guards k).host=(pool.guards k).host ∧
      ((pool.guards k).pc=.done → (pool'.guards k).pc=.done)) ∨
    ∃ set, targetSet (pool.starts i)=some set ∧ (pool'.guards k).host=set := by
  by_cases hentered : ∃ set, pool.starts k=.entered set ∧ (pool.guards k).pc=.unborn
  · obtain ⟨set,hpc,hu⟩ := hentered
    rcases ha.guard_cases k with hp|⟨set',b',hpc',hg⟩|⟨choice,hlabel,-⟩
    · rw [hp.pc] at hb
      exact absurd hu hb
    · refine .inr ⟨set',?_,by rw [hg]; rfl⟩
      have hki : k=i := by
        by_contra hne
        have hsame := (start_acts ha).2.2 k hne
        have hborn := (hs.acts ha).enrolled.born k
        rw [hsame,hpc'] at hborn
        exact hb (hborn.mpr rfl)
      rw [←hki,hpc']
      rfl
    · cases hlabel
  · refine .inl (guard_kept hs ha hb (fun set hpc => hentered ⟨set,hpc,hs.enrolled.unborn hpc⟩))

theorem Kept.startStep (h : Kept s) (hpc : s.pc=.start) (hs : s.startStep legacy=some s') :
    Kept s' := by
  obtain ⟨pool,hpool,rfl⟩ := Option.map_eq_some_iff.mp hs
  have ha := ProcessPool.step_acts hpool
  obtain ⟨hkills,hcurrent,hstarts⟩ := start_acts ha
  have hidle : s.pool.kills s.killed=.idle := h.killing (by rw [hpc]; simp)
  have hcur : s.pool.current=s.killed := by
    rcases h.retiring with hr|hr
    · exact hr.2
    · have hset := hr.1
      rw [hidle] at hset
      cases hset
  have htarget : ∀ set, targetSet (pool.starts s.launched)=some set → set=s.killed := by
    intro set ht
    rcases start_target ha ht with hold|⟨-,hnew⟩
    · exact h.target set hold
    · exact hnew.trans hcur
  have hhosts : ∀ i, (pool.guards i).pc≠.unborn → (pool.guards i).host ≤ s.killed := by
    intro i hb
    rcases start_guard h.sound ha hb with ⟨hold,hhost,-⟩|⟨set,ht,hhost⟩
    · rw [hhost]
      exact h.hosts i hold
    · exact Nat.le_of_eq (hhost.trans (h.target set ht))
  have hdone : ∀ i, (pool.guards i).pc≠.unborn → (pool.guards i).host<s.killed →
      (pool.guards i).pc=.done := by
    intro i hb hlt
    rcases start_guard h.sound ha hb with ⟨hold,hhost,hd⟩|⟨set,ht,hhost⟩
    · rw [hhost] at hlt
      exact hd (h.done i hold hlt)
    · rw [hhost,h.target set ht] at hlt
      omega
  have hretiring : Killing pool s.killed := by
    have hr := h.retiring
    unfold Killing at hr ⊢
    rw [hkills,hcurrent]
    exact hr
  have hlater : ∀ i, s.launched < i → pool.starts i=.idle := by
    intro i hi
    rw [hstarts i (by omega)]
    exact h.later i hi
  have hended : ∀ i<s.launched, ∃ result, pool.starts i=.finished result := by
    intro i hi
    rw [hstarts i (by omega)]
    exact h.ended i hi
  have hfinished : ∀ {result} {pc : MainPc} {last : Last}, pool.starts s.launched=.finished result →
      pc≠.killAll → (pc=.stopSelf ∨ (pc=.idle ∧ last=.stopped) → False) →
      Kept { s with pc := pc, last := last, launched := s.launched+1, pool := pool } := by
    intro result pc last hf hk hq
    constructor
    · exact h.sound.acts ha
    · intro i hi
      rcases Nat.lt_succ_iff_lt_or_eq.mp hi with hlt|rfl
      · exact hended i hlt
      · exact ⟨result,hf⟩
    · exact fun i hi => hlater i (Nat.lt_of_succ_lt hi)
    · exact fun _ => hlater _ (Nat.lt_succ_self _)
    · intro r hr
      have hnext := hlater (s.launched+1) (Nat.lt_succ_self _)
      dsimp only at hr
      rw [hnext] at hr
      cases hr
    · intro set ht
      have hnext := hlater (s.launched+1) (Nat.lt_succ_self _)
      dsimp only at ht
      rw [hnext] at ht
      cases ht
    · exact fun _ => by rw [hkills]; exact hidle
    · exact hretiring
    · exact hkills ▸ h.unkilled
    · exact hhosts
    · exact hdone
    · exact fun hquiet => (hq hquiet).elim
  split
  · exact hfinished ‹_› (by simp) (by simp)
  · exact hfinished ‹_› (by simp) (by simp)
  · rename_i hdummy hexception
    constructor
    · exact h.sound.acts ha
    · exact hended
    · exact hlater
    · exact fun hne => absurd hpc hne
    · intro result hr
      cases result with
      | dummy => exact hdummy hr
      | exception e => exact hexception e hr
    · exact htarget
    · exact fun _ => by rw [hkills]; exact hidle
    · exact hretiring
    · exact hkills ▸ h.unkilled
    · exact hhosts
    · exact hdone
    · intro hq
      dsimp only at hq
      rw [hpc] at hq
      simp at hq

/-- The call of `killAll` on the main thread leaves other calls alone. -/
theorem kill_acts {pool pool' : Pool} {j : ℕ} {b : Bool} (ha : Acts pool (.kill j b) pool') :
    pool'.starts=pool.starts ∧ ∀ k≠j, pool'.kills k=pool.kills k := by
  cases ha with
  | swap | lock | interrupt | interrupted | join | giveUp | joined | unlock =>
    exact ⟨rfl,fun k hk => Function.update_of_ne hk ..⟩

/-- It goes on with its set, or returns with all threads joined. -/
theorem kill_progress {pool pool' : Pool} {j : ℕ} (h : Killing pool j)
    (ha : Acts pool (.kill j false) pool') : Killing pool' j ∨
      (pool.kills j=.leaving j true ∧ pool'.kills j=.returned j true ∧ pool'.current=j+1) := by
  have hset : pool.kills j≠.idle → (pool.kills j).set=some j ∧ pool.current=j+1 ∧
      pool.kills j≠.leaving j false := by
    intro hne
    exact h.elim (fun hi => absurd hi.1 hne) (fun hk => ⟨hk.1,hk.2.1,hk.2.2.1⟩)
  cases ha with
  | swap b hpc =>
    have hcurrent : pool.current=j := by
      refine h.elim (fun hi => hi.2) (fun hk => ?_)
      have hnone := hk.1
      rw [hpc] at hnone
      cases hnone
    refine .inl (.inr ?_)
    simp [Pool.setKill,KillPc.set,hcurrent]
  | lock b hpc | interrupt b hpc | interrupted b hpc | join b hpc | joined b hpc =>
    obtain ⟨hsome,hcurrent,-⟩ := hset (by rw [hpc]; simp)
    rw [hpc] at hsome
    cases hsome
    refine .inl (.inr ?_)
    simp [Pool.setKill,Pool.setHolder,Pool.setGuard,KillPc.set,hcurrent]
  | @unlock _ set joined b hpc =>
    obtain ⟨hsome,hcurrent,hleaving⟩ := hset (by rw [hpc]; simp)
    rw [hpc] at hsome hleaving
    cases hsome
    cases joined with
    | true => exact .inr ⟨hpc,Function.update_self ..,hcurrent⟩
    | false => exact absurd rfl hleaving

theorem Kept.killStep (h : Kept s) (hpc : s.pc=.killAll) (hs : s.killStep legacy=some s') :
    Kept s' := by
  obtain ⟨pool,hpool,rfl⟩ := Option.map_eq_some_iff.mp hs
  have ha := ProcessPool.step_acts hpool
  obtain ⟨hstarts,hkills⟩ := kill_acts ha
  have hidle : s.pool.starts s.launched=.idle := h.calling (by rw [hpc]; simp)
  have hkept : ∀ i, (pool.guards i).pc≠.unborn → (s.pool.guards i).pc≠.unborn ∧
      (pool.guards i).host=(s.pool.guards i).host ∧
      ((s.pool.guards i).pc=.done → (pool.guards i).pc=.done) := by
    intro i hb
    refine guard_kept h.sound ha hb (fun set hentered => ?_)
    have hborn := (h.sound.acts ha).enrolled.born i
    rw [hstarts,hentered] at hborn
    exact hb (hborn.mpr rfl)
  have hunkilled : ∀ j, s.killed<j → pool.kills j=.idle := by
    intro j hj
    rw [hkills j (by omega)]
    exact h.unkilled j hj
  rcases kill_progress h.retiring ha with hprogress|⟨hleaving,hreturned,hcurrent⟩
  · have hgo : ∀ set joined, pool.kills s.killed≠.returned set joined := by
      intro set joined hr
      rcases hprogress with hi|hk
      · rw [hi.1] at hr
        cases hr
      · have hset := hk.1
        rw [hr] at hset
        cases hset
        exact hk.2.2.2 joined hr
    split
    · exact absurd ‹_› (hgo _ _)
    · constructor
      · exact h.sound.acts ha
      · exact hstarts ▸ h.ended
      · exact hstarts ▸ h.later
      · exact hstarts ▸ h.calling
      · exact hstarts ▸ h.unfinished
      · exact hstarts ▸ h.target
      · exact fun hne => absurd hpc hne
      · exact hprogress
      · exact hunkilled
      · intro i hb
        obtain ⟨hold,hhost,-⟩ := hkept i hb
        exact hhost ▸ h.hosts i hold
      · intro i hb hlt
        obtain ⟨hold,hhost,hdone⟩ := hkept i hb
        exact hdone (h.done i hold (hhost ▸ hlt))
      · intro hq
        dsimp only at hq
        rw [hpc] at hq
        simp at hq
  · have hall : ∀ i, (pool.guards i).pc≠.unborn → (pool.guards i).pc=.done := by
      intro i hb
      obtain ⟨hold,-,hdone⟩ := hkept i hb
      refine hdone ?_
      rcases Nat.lt_or_eq_of_le (h.hosts i hold) with hlt|heq
      · exact h.done i hold hlt
      · refine h.sound.joined.leaving s.killed s.killed hleaving i ?_
        refine (h.sound.enrolled.member i s.killed).mpr ⟨?_,heq⟩
        have hborn : (s.pool.starts i).born=true := by
          by_contra hne
          exact hold ((h.sound.enrolled.born i).mpr (by simpa using hne))
        have hlt : i<s.launched := by
          by_contra hge
          have hnone : s.pool.starts i=.idle := by
            rcases Nat.lt_or_eq_of_le (Nat.le_of_not_lt hge) with hgt|rfl
            · exact h.later i hgt
            · exact hidle
          rw [hnone] at hborn
          cases hborn
        obtain ⟨result,hfinished⟩ := h.ended i hlt
        rw [hfinished]
        rfl
    rw [hreturned]
    constructor
    · exact h.sound.acts ha
    · exact hstarts ▸ h.ended
    · exact hstarts ▸ h.later
    · exact fun _ => by rw [hstarts]; exact hidle
    · exact hstarts ▸ h.unfinished
    · intro set ht
      dsimp only at ht
      rw [hstarts,hidle] at ht
      cases ht
    · exact fun _ => hunkilled _ (Nat.lt_succ_self _)
    · exact .inl ⟨hunkilled _ (Nat.lt_succ_self _),hcurrent⟩
    · exact fun j hj => hunkilled j (Nat.lt_of_succ_lt hj)
    · intro i hb
      obtain ⟨hold,hhost,-⟩ := hkept i hb
      have hle := h.hosts i hold
      dsimp only
      omega
    · exact fun i hb _ => hall i hb
    · exact fun _ => hall

/-- Every step of the service keeps the pool as the main thread leaves it. -/
theorem Kept.step (h : Kept s) (hs : step legacy device t s=some s') : Kept s' := by
  cases t with
  | onStartCommand intent =>
    simp only [ServiceLifecycle.step] at hs
    split at hs
    · rename_i hpc
      cases hs
      refine h.moved ?_ ?_ ?_ (.inr (by simp [hpc])) ?_ <;> cases intent <;> simp [Service.finish]
    · cases hs
  | broadcast =>
    simp only [ServiceLifecycle.step] at hs
    split at hs
    · rename_i hpc
      cases hs
      exact h.moved rfl rfl rfl (.inr (by simp [hpc.1])) (by simp)
    · cases hs
  | main null =>
    simp only [ServiceLifecycle.step,Service.mainStep] at hs
    split at hs
    · cases hs
    · cases hs; exact h.moved rfl rfl rfl (.inr (by simp_all)) (by simp)
    · cases hs; exact h.moved rfl rfl rfl (.inr (by simp_all)) (by simp)
    · cases hs
      refine h.moved ?_ ?_ ?_ (.inr (by simp_all)) ?_ <;> cases null <;> simp [Service.finish]
    · exact h.startStep ‹_› hs
    · cases hs; exact h.moved rfl rfl rfl (.inr (by simp_all)) (by simp [Service.finish])
    · cases hs; exact h.moved rfl rfl rfl (.inr (by simp_all)) (by simp)
    · exact h.killStep ‹_› hs
    · cases hs; exact h.moved rfl rfl rfl (.inr (by simp_all)) (fun _ => .inl ‹_›)
  | pool t => exact h.poolStep hs
  | worker k t =>
    simp only [ServiceLifecycle.step,Service.workerStep] at hs
    split at hs
    · obtain ⟨net,-,rfl⟩ := Option.map_eq_some_iff.mp hs
      exact h.moved rfl rfl rfl (.inl rfl) (fun hq => hq)
    · cases hs
  | finalize k =>
    simp only [ServiceLifecycle.step] at hs
    split at hs
    · cases hs; exact h.moved rfl rfl rfl (.inl rfl) (fun hq => hq)
    · cases hs

/-- How often the receiver is registered, by the place of the main thread. -/
def Registered (s : Service) : Prop :=
  match s.pc with
  | .idle => (s.last=.stopped → s.registered=0) ∧ (s.last=.failed → 0<s.registered)
  | .register | .unregister => True
  | .worker | .establish | .start | .sendFd => 0<s.registered
  | .killAll | .stopSelf => s.registered=0

theorem Registered.step (h : Registered s) (hs : step legacy device t s=some s') :
    Registered s' := by
  unfold Registered at h
  cases t with
  | onStartCommand intent =>
    simp only [ServiceLifecycle.step] at hs
    split at hs
    · cases hs
      cases intent <;> simp [Registered,Service.finish]
    · cases hs
  | broadcast =>
    simp only [ServiceLifecycle.step] at hs
    split at hs
    · cases hs
      trivial
    · cases hs
  | main null =>
    simp only [ServiceLifecycle.step,Service.mainStep] at hs
    split at hs
    · cases hs
    · cases hs; exact Nat.succ_pos _
    · rename_i hpc
      cases hs
      rw [hpc] at h
      exact h
    · rename_i hpc
      cases hs
      rw [hpc] at h
      cases null with
      | true => exact ⟨by simp [Service.finish],fun _ => h⟩
      | false => exact h
    · rename_i hpc
      rw [hpc] at h
      obtain ⟨pool,-,rfl⟩ := Option.map_eq_some_iff.mp hs
      split
      · exact h
      · exact ⟨by simp [Service.finish],fun _ => h⟩
      · simp only [Registered,hpc]
        exact h
    · rename_i hpc
      cases hs
      exact ⟨by simp [Service.finish],by simp [Service.finish]⟩
    · cases hs; rfl
    · rename_i hpc
      rw [hpc] at h
      obtain ⟨pool,-,rfl⟩ := Option.map_eq_some_iff.mp hs
      split
      · exact h
      · simp only [Registered,hpc]
        exact h
    · rename_i hpc
      cases hs
      rw [hpc] at h
      exact ⟨fun _ => h,by simp [Service.finish]⟩
  | pool t =>
    cases t with
    | guard | exit =>
      obtain ⟨pool,-,rfl⟩ := Option.map_eq_some_iff.mp hs
      exact h
    | start | kill => cases hs
  | worker k t =>
    simp only [ServiceLifecycle.step,Service.workerStep] at hs
    split at hs
    · obtain ⟨net,-,rfl⟩ := Option.map_eq_some_iff.mp hs
      exact h
    · cases hs
  | finalize k =>
    simp only [ServiceLifecycle.step] at hs
    split at hs
    · cases hs
      exact h
    · cases hs

/-- The step ends the thread of the worker `k`: one of its clients makes it
throw, or its socket cannot be bound. -/
def Fatal (k : ℕ) (s : Service) (t : Step) : Prop :=
  ∃ choice, t=.worker k (.listener choice) ∧ ProtectRuns.Ends (s.workers k) choice

/-- A worker is told to run and its thread has not ended. -/
def Running (net : ProtectProtocol.Net) : Prop := net.running=true ∧ ¬Over net

section Workers

variable {net net' : ProtectProtocol.Net} {choice : ProtectProtocol.Choice}

/-- The end of the listener thread closes its sockets. -/
theorem over_of_ends (he : ProtectRuns.Ends net choice)
    (hs : ProtectProtocol.Serves device net choice net') : Over net' := by
  cases hs with
  | unbound | stopped => exact .inl rfl
  | crash | unclosed => exact .inr rfl
  | bind hpc | goOn hpc hr | accept hpc | failed hpc | ended hpc | received hpc | unread hpc
  | protect hpc | deny hpc | unboundSocket hpc | answer hpc | unanswered hpc | close hpc =>
    unfold ProtectRuns.Ends at he
    simp_all
  | single hpc =>
    unfold ProtectRuns.Ends at he
    rw [hpc] at he
    simp at he

/-- Only these steps end it. -/
theorem running_serves (h : Running net) (he : ¬ProtectRuns.Ends net choice)
    (hs : ProtectProtocol.Serves device net choice net') : Running net' := by
  obtain ⟨hr,-⟩ := h
  cases hs with
  | unbound hpc => exact absurd (.inr (.inr (.inr ⟨hpc,rfl⟩))) he
  | stopped hpc hstop => rw [hr] at hstop; cases hstop
  | crash hpc hl => exact absurd (.inl ⟨_,_,hpc,hl⟩) he
  | unclosed hpc => exact absurd (.inr (.inl ⟨_,hpc,rfl⟩)) he
  | bind | goOn | accept | failed | ended | received | unread | single | protect | deny
  | unboundSocket | answer | unanswered | close => exact ⟨hr,by simp [Over]⟩

/-- Clients and constructors do not move the listener thread. -/
theorem listener_unmoved {t : ProtectProtocol.Step} (hl : ∀ choice, t≠.listener choice)
    (hstop : t≠.stopThread) (ha : ProtectProtocol.Acts device net t net') :
    net'.pc=net.pc ∧ net'.running=net.running := by
  cases ha with
  | listener => exact absurd rfl (hl _)
  | stopThread => exact absurd rfl hstop
  | channel hs => cases hs <;> exact ⟨rfl,rfl⟩
  | collect | connect | send | close => exact ⟨rfl,rfl⟩

/-- A thread that has ended stays so. -/
theorem over_acts {t : ProtectProtocol.Step} (h : Over net)
    (ha : ProtectProtocol.Acts device net t net') : Over net' := by
  cases ha with
  | listener hs =>
    cases hs with
    | bind hpc | unbound hpc | goOn hpc | stopped hpc | accept hpc | failed hpc | ended hpc
    | received hpc | unread hpc | single hpc | crash hpc | protect hpc | deny hpc
    | unboundSocket hpc | answer hpc | unanswered hpc | close hpc | unclosed hpc =>
      unfold Over at h
      rw [hpc] at h
      simp at h
  | stopThread => exact h
  | channel hs => cases hs <;> exact h
  | collect | connect | send | close => exact h

end Workers

/-- What a step does to the workers and to the VPN descriptors. -/
inductive Effect (device : ProtectProtocol.Device) (s : Service) : Step → Service → Prop
  | none {t : Step} {s' : Service} (hw : ∀ k c, t≠.worker k c) (hf : ∀ k, t≠.finalize k)
      (hs : s'.started=s.started ∧ s'.workers=s.workers)
      (ho : s'.established=s.established ∧ s'.opened=s.opened) : Effect device s t s'
  | started (null : Bool) : Effect device s (.main null) { s with
      pc := .establish, started := s.started+1,
      workers := Function.update s.workers s.started ProtectProtocol.Net.fresh }
  | established (null : Bool) : Effect device s (.main null) { s with
      pc := .start, established := s.established+1, opened := s.opened++[s.established] }
  | served {k : ℕ} {c : ProtectProtocol.Step} {net : ProtectProtocol.Net} (hk : k<s.started)
      (hc : c≠.stopThread) (ha : ProtectProtocol.Acts device (s.workers k) c net) :
      Effect device s (.worker k c) { s with workers := Function.update s.workers k net }
  | finalized {k : ℕ} (hk : k∈s.opened) :
      Effect device s (.finalize k) { s with opened := s.opened.filter (·≠k) }

/-- Every step has one of these effects. -/
theorem step_effect (hs : step legacy device t s=some s') : Effect device s t s' := by
  cases t with
  | onStartCommand intent =>
    simp only [ServiceLifecycle.step] at hs
    split at hs
    · cases hs
      cases intent <;> exact .none (by simp) (by simp) ⟨rfl,rfl⟩ ⟨rfl,rfl⟩
    · cases hs
  | broadcast =>
    simp only [ServiceLifecycle.step] at hs
    split at hs
    · cases hs
      exact .none (by simp) (by simp) ⟨rfl,rfl⟩ ⟨rfl,rfl⟩
    · cases hs
  | main null =>
    simp only [ServiceLifecycle.step,Service.mainStep] at hs
    split at hs
    · cases hs
    · cases hs; exact .none (by simp) (by simp) ⟨rfl,rfl⟩ ⟨rfl,rfl⟩
    · cases hs; exact .started null
    · cases hs
      cases null with
      | true => exact .none (by simp) (by simp) ⟨rfl,rfl⟩ ⟨rfl,rfl⟩
      | false => exact .established false
    · obtain ⟨pool,-,rfl⟩ := Option.map_eq_some_iff.mp hs
      split <;> exact .none (by simp) (by simp) ⟨rfl,rfl⟩ ⟨rfl,rfl⟩
    · cases hs; exact .none (by simp) (by simp) ⟨rfl,rfl⟩ ⟨rfl,rfl⟩
    · cases hs; exact .none (by simp) (by simp) ⟨rfl,rfl⟩ ⟨rfl,rfl⟩
    · obtain ⟨pool,-,rfl⟩ := Option.map_eq_some_iff.mp hs
      split <;> exact .none (by simp) (by simp) ⟨rfl,rfl⟩ ⟨rfl,rfl⟩
    · cases hs; exact .none (by simp) (by simp) ⟨rfl,rfl⟩ ⟨rfl,rfl⟩
  | pool t =>
    cases t with
    | guard | exit =>
      obtain ⟨pool,-,rfl⟩ := Option.map_eq_some_iff.mp hs
      exact .none (by simp) (by simp) ⟨rfl,rfl⟩ ⟨rfl,rfl⟩
    | start | kill => cases hs
  | worker k t =>
    simp only [ServiceLifecycle.step,Service.workerStep] at hs
    split at hs
    · rename_i hk
      obtain ⟨net,hnet,rfl⟩ := Option.map_eq_some_iff.mp hs
      exact .served hk.1 hk.2 (ProtectProtocol.step_acts hnet)
    · cases hs
  | finalize k =>
    simp only [ServiceLifecycle.step] at hs
    split at hs
    · cases hs; exact .finalized ‹_›
    · cases hs

/-- The worker `k` has not been killed. -/
def Spared (s : Service) (k : ℕ) : Prop :=
  Running (s.workers k) ∧ (s.started ≤ k → s.workers k=ProtectProtocol.Net.fresh)

theorem running_fresh : Running ProtectProtocol.Net.fresh := ⟨rfl,by simp [Over,ProtectProtocol.Net.fresh]⟩

/-- A worker runs on until a step that is fatal for it. -/
theorem Spared.effect {k : ℕ} (h : Spared s k) (hf : ¬Fatal k s t) (he : Effect device s t s') :
    Spared s' k := by
  cases he with
  | none hw hfin hs ho =>
    unfold Spared
    rw [hs.1,hs.2]
    exact h
  | started =>
    by_cases hk : k=s.started
    · subst hk
      refine ⟨?_,fun hle => absurd hle (Nat.not_succ_le_self _)⟩
      simp only [Function.update_self]
      exact running_fresh
    · simp only [Spared,Function.update_of_ne hk]
      exact ⟨h.1,fun hle => h.2 (Nat.le_of_succ_le hle)⟩
  | established => exact h
  | @served j c net hj hc ha =>
    by_cases hk : k=j
    · subst hk
      refine ⟨?_,fun hle => absurd hj (Nat.not_lt_of_le hle)⟩
      simp only [Function.update_self]
      by_cases hl : ∃ choice, c=.listener choice
      · obtain ⟨choice,rfl⟩ := hl
        cases ha with
        | listener hs => exact running_serves h.1 (fun hends => hf ⟨choice,rfl,hends⟩) hs
      · have hsame := listener_unmoved (fun choice hc => hl ⟨choice,hc⟩) hc ha
        unfold Running Over
        rw [hsame.1,hsame.2]
        exact h.1
    · simp only [Spared,Function.update_of_ne hk]
      exact h
  | finalized => exact h

/-- A fatal step ends the thread of a worker that has been started. -/
theorem over_of_fatal {k : ℕ} (hf : Fatal k s t) (he : Effect device s t s') :
    Over (s'.workers k) ∧ k<s'.started := by
  obtain ⟨choice,rfl,hends⟩ := hf
  cases he with
  | none hw => exact absurd rfl (hw k _)
  | served hk hc ha =>
    cases ha with
    | listener hs =>
      simp only [Function.update_self]
      exact ⟨over_of_ends hends hs,hk⟩

/-- It stays so. -/
theorem over_effect {k : ℕ} (h : Over (s.workers k) ∧ k<s.started) (he : Effect device s t s') :
    Over (s'.workers k) ∧ k<s'.started := by
  cases he with
  | none hw hfin hs ho =>
    rw [hs.1,hs.2]
    exact h
  | started =>
    have hk : k≠s.started := Nat.ne_of_lt h.2
    simp only [Function.update_of_ne hk]
    exact ⟨h.1,Nat.lt_succ_of_lt h.2⟩
  | established => exact h
  | @served j c net hj hc ha =>
    by_cases hk : k=j
    · subst hk
      simp only [Function.update_self]
      exact ⟨over_acts h.1 ha,hj⟩
    · simp only [Function.update_of_ne hk]
      exact h
  | finalized => exact h

/-- The thread of a worker has ended exactly when a step was fatal for it. -/
theorem worker_over_iff {steps : List Step} {k : ℕ}
    (hrun : (service legacy device).Run Service.fresh steps s) :
    Over (s.workers k) ↔
      ¬(service legacy device).RunUnder (fun s t => ¬Fatal k s t) Service.fresh steps s := by
  have hstart : Spared Service.fresh k := ⟨running_fresh,fun _ => rfl⟩
  have hkeep : ∀ s t s', Spared s k → ¬Fatal k s t → (service legacy device).Turn s t s' →
      Spared s' k :=
    fun s t s' hs hok ht => hs.effect hok (step_effect (System.turn_ofStep.mp ht))
  have hbreach : ((service legacy device).RunUnder (fun s t => ¬Fatal k s t) Service.fresh steps s ∧
      Spared s k) ∨ (Over (s.workers k) ∧ k<s.started) := by
    refine hrun.breach (I:=fun s => Spared s k) (B:=fun s => Over (s.workers k) ∧ k<s.started)
      (fun s t s' hs _ hok ht => hkeep s t s' hs hok ht) ?_ ?_ hstart
    · exact fun s t s' _ _ hf ht =>
        over_of_fatal (not_not.mp hf) (step_effect (System.turn_ofStep.mp ht))
    · exact fun s t s' hs _ ht => over_effect hs (step_effect (System.turn_ofStep.mp ht))
  refine ⟨fun hover hunder => ?_,fun hunder => ?_⟩
  · exact (hunder.invariant hkeep hstart).1.2 hover
  · exact (hbreach.resolve_left (fun hsafe => hunder hsafe.1)).1

/-- The open descriptors are those that have not been finalized. -/
theorem opened_iff {steps : List Step} (hrun : (service legacy device).Run Service.fresh steps s) :
    (∀ k, k∈s.opened ↔ k<s.established ∧ .finalize k∉steps) ∧
      ∀ k, .finalize k∈steps → k<s.established := by
  induction hrun with
  | nil => simp [Service.fresh]
  | @snoc steps t s₁ s₂ _ _ hturn ih =>
    obtain ⟨hopened,hfinalized⟩ := ih
    cases step_effect (System.turn_ofStep.mp hturn) with
    | none hw hf hs ho =>
      rw [ho.1,ho.2]
      have hsame : ∀ k, .finalize k∈steps++[t] ↔ .finalize k∈steps := by
        intro k
        simp [Ne.symm (hf k)]
      simp only [hsame]
      exact ⟨hopened,hfinalized⟩
    | started => simpa using ⟨hopened,hfinalized⟩
    | established =>
      simp only [List.mem_append,List.mem_singleton,reduceCtorEq,or_false]
      refine ⟨fun k => ?_,fun k hk => Nat.lt_succ_of_lt (hfinalized k hk)⟩
      rw [hopened k]
      constructor
      · rintro (⟨hlt,hnot⟩|rfl)
        · exact ⟨Nat.lt_succ_of_lt hlt,hnot⟩
        · exact ⟨Nat.lt_succ_self _,fun hin => Nat.lt_irrefl _ (hfinalized _ hin)⟩
      · rintro ⟨hlt,hnot⟩
        exact (Nat.lt_succ_iff_lt_or_eq.mp hlt).imp_left (fun h => ⟨h,hnot⟩)
    | served => simpa using ⟨hopened,hfinalized⟩
    | @finalized j hj =>
      simp only [List.mem_append,List.mem_singleton,List.mem_filter,decide_eq_true_eq,
        Step.finalize.injEq]
      refine ⟨fun k => ?_,?_⟩
      · rw [hopened k]
        tauto
      · rintro k (hin|rfl)
        · exact hfinalized k hin
        · exact ((hopened k).mp hj).1

/-- After a completed `stopProxy` nothing is held exactly when every worker has
been killed by a client or could not bind its socket, and the collector has
closed every VPN descriptor; after a `startProxy` that has failed midway
something is held in every case. -/
theorem service_balanced_iff {steps : List Step}
    (hrun : (service legacy device).Run Service.fresh steps s) (hidle : s.pc=.idle) :
    (s.last=.stopped → (Clean s ↔
      (∀ k<s.started,
        ¬(service legacy device).RunUnder (fun s t => ¬Fatal k s t) Service.fresh steps s) ∧
      ∀ k<s.established, .finalize k∈steps)) ∧
    (s.last=.failed → ¬Clean s) := by
  have hkept : Kept s :=
    hrun.invariant (fun _ _ _ h _ ht => h.step (System.turn_ofStep.mp ht)) kept_fresh
  have hregistered : Registered s := by
    refine hrun.invariant (fun _ _ _ h _ ht => h.step (System.turn_ofStep.mp ht)) ?_
    exact ⟨by simp [Service.fresh],by simp [Service.fresh]⟩
  unfold Registered at hregistered
  rw [hidle] at hregistered
  have hopened := (opened_iff hrun).1
  refine ⟨fun hstopped => ⟨fun hclean => ⟨fun k hk => ?_,fun k hk => ?_⟩,fun hreleased => ?_⟩,
    fun hfailed hclean => ?_⟩
  · exact (worker_over_iff hrun).mp (hclean.workers k hk)
  · by_contra hnot
    have hin := (hopened k).mpr ⟨hk,hnot⟩
    rw [hclean.opened] at hin
    cases hin
  · have hdone := hkept.quiet (.inr ⟨hidle,hstopped⟩)
    have hguards : ∀ i, (s.pool.guards i).pc=.unborn ∨ (s.pool.guards i).pc=.done := by
      intro i
      by_cases hb : (s.pool.guards i).pc=.unborn
      · exact .inl hb
      · exact .inr (hdone i hb)
    refine ⟨fun k hk => (worker_over_iff hrun).mpr (hreleased.1 k hk),hguards,fun i p hp => ?_,?_,
      hregistered.1 hstopped⟩
    · exact (hkept.sound.guards i).ended (hguards i) p hp
    · refine List.eq_nil_iff_forall_not_mem.mpr (fun k hk => ?_)
      obtain ⟨hlt,hnot⟩ := (hopened k).mp hk
      exact hnot (hreleased.2 k hlt)
  · have hpos := hregistered.2 hfailed
    rw [hclean.registered] at hpos
    exact Nat.lt_irrefl _ hpos

/-- The state after the given steps. -/
def serviceAfter (steps : List Step) : Service :=
  System.after (step false ProtectProtocol.sampleDevice) Service.fresh steps

/-- A start whose process runs, with its worker waiting in `accept`. -/
def starting : List Step :=
  [Step.onStartCommand true]++List.replicate 8 (Step.main false)++
    List.replicate 4 (Step.pool (.guard 0 .proceed))++List.replicate 2 (Step.main false)++
    List.replicate 2 (Step.worker 0 (.listener .proceed))

/-- A stop that interrupts and joins the guard. -/
def stopping : List Step :=
  [Step.broadcast]++List.replicate 5 (Step.main false)++[Step.pool (.guard 0 .interrupted)]++
    List.replicate 2 (Step.pool (.guard 0 .proceed))++[Step.pool (.exit 0)]++
    List.replicate 2 (Step.pool (.guard 0 .proceed))++List.replicate 4 (Step.main false)

/-- A client that kills the worker, and the end of the VPN descriptor. -/
def releasing : List Step :=
  [Step.worker 0 (.other 0 .connect),.worker 0 (.other 0 .close)]++
    List.replicate 3 (Step.worker 0 (.listener .proceed))++[Step.finalize 0]

/-- With them nothing is held after the stop. -/
theorem service_balanced_releasing :
    (serviceAfter (starting++releasing++stopping)).last=.stopped ∧
    Clean (serviceAfter (starting++releasing++stopping)) := by
  have hrun : (service false ProtectProtocol.sampleDevice).Run Service.fresh (starting++releasing++stopping)
      (serviceAfter (starting++releasing++stopping)) := System.run_after (by decide)
  have hlast : (serviceAfter (starting++releasing++stopping)).last=.stopped := by decide
  refine ⟨hlast,((service_balanced_iff hrun (by decide)).1 hlast).mpr ⟨fun k hk => ?_,fun k hk => ?_⟩⟩
  · obtain rfl : k=0 := Nat.lt_one_iff.mp hk
    exact (worker_over_iff hrun).mp (.inr (by decide))
  · obtain rfl : k=0 := Nat.lt_one_iff.mp hk
    decide

/-- After an ordinary start and stop the worker waits in `accept` and the VPN
descriptor is open. -/
theorem service_unbalanced :
    (service false ProtectProtocol.sampleDevice).Run Service.fresh (starting++stopping)
      (serviceAfter (starting++stopping)) ∧
    (serviceAfter (starting++stopping)).pc=.idle ∧ (serviceAfter (starting++stopping)).last=.stopped ∧
    ((serviceAfter (starting++stopping)).workers 0).pc=.accepting ∧
    (serviceAfter (starting++stopping)).opened=[0] ∧ ¬Clean (serviceAfter (starting++stopping)) := by
  have hopened : (serviceAfter (starting++stopping)).opened=[0] := by decide
  refine ⟨System.run_after (by decide),by decide,by decide,by decide,hopened,fun hclean => ?_⟩
  rw [hclean.opened] at hopened
  cases hopened

end ProxyDroid.ServiceRuns
