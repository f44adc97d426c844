import Mathlib.Logic.Function.Basic
import ProxyDroid.CallSemantics

/-!
# Starting and stopping the proxy server

`ProxyServer.startUp` on any number of threads and any number of calls of
`ProxyServer.shutdown`, interleaved statement by statement. Both act on the
fields `isStarted`, `bossGroup` and `workerGroup` and on the global Koin
context, whoever made them: the `finally` block of an old run tears down what a
later run has put there. A run that passes its check alone, when no other run
and no shutdown is on its way, keeps what it made until a shutdown begins.
-/

namespace ProxyDroid.ServerRestart

open CallSemantics

/-- Where a thread is in `startUp`: the last statement it has executed. -/
inductive Pc where
  /-- The thread has not called. -/
  | unborn
  /-- It has called. -/
  | entered
  /-- It has found `isStarted` false. -/
  | checked
  /-- `startKoin`, whose exception is caught. -/
  | koin
  /-- `isStarted = true`. -/
  | started
  /-- `bossGroup = NioEventLoopGroup(1)`. -/
  | boss
  /-- `workerGroup = NioEventLoopGroup()`. -/
  | worker
  /-- `serverBootstrap.group(bossGroup, workerGroup)`. -/
  | grouped
  /-- `bind(port).sync()`; the thread waits for the socket to be closed. -/
  | bound
  /-- The `finally` block is entered. -/
  | closing
  /-- `bossGroup?.shutdownGracefully()`. -/
  | bossShut
  /-- `workerGroup?.shutdownGracefully()`. -/
  | workerShut
  /-- `closeKoin()`. -/
  | koinClosed
  /-- `isStarted = false`, or the check has found it true. -/
  | returned
  deriving DecidableEq

/-- How far a thread is. -/
def Pc.rank : Pc → ℕ
  | .unborn => 0
  | .entered => 1
  | .checked => 2
  | .koin => 3
  | .started => 4
  | .boss => 5
  | .worker => 6
  | .grouped => 7
  | .bound => 8
  | .closing => 9
  | .bossShut => 10
  | .workerShut => 11
  | .koinClosed => 12
  | .returned => 13

/-- The thread has passed its check and has not returned. -/
def Pc.Active (pc : Pc) : Prop := 2≤pc.rank ∧ pc.rank≤12

/-- Where a call of `shutdown` is: the last statement it has executed. -/
inductive StopPc where
  | unborn
  | entered
  | bossShut
  | workerShut
  | koinClosed
  | returned
  deriving DecidableEq

/-- The call has begun and has not returned. -/
def StopPc.Active (pc : StopPc) : Prop := pc≠.unborn ∧ pc≠.returned

/-- A thread in `startUp`. -/
structure Run where
  /-- Where it is. -/
  pc : Pc
  /-- The boss group its bootstrap was given, by the thread that made it. -/
  used : Option ℕ
  /-- It has bound its server socket. -/
  bound : Bool
  /-- A shutdown has begun since it called. -/
  disturbed : Bool

/-- The object `ProxyServer`, the Koin context and the threads; groups are
named by the thread that made them. -/
structure Server (A : Type) where
  /-- `isStarted`. -/
  isStarted : Bool
  /-- `bossGroup`. -/
  bossGroup : Option ℕ
  /-- `workerGroup`. -/
  workerGroup : Option ℕ
  /-- The rules and the channel class of the open context. -/
  context : Option A
  /-- Boss groups that have been asked to shut down. -/
  bossStopped : ℕ → Bool
  /-- Worker groups that have been asked to shut down. -/
  workerStopped : ℕ → Bool
  /-- The threads. -/
  runs : ℕ → Run
  /-- The calls of `shutdown`. -/
  stops : ℕ → StopPc

/-- `group?.shutdownGracefully()`. -/
def shutdownGracefully (group : Option ℕ) (stopped : ℕ → Bool) : ℕ → Bool :=
  match group with
  | none => stopped
  | some i => Function.update stopped i true

namespace Server

variable {A : Type} (s : Server A)

/-- Before any call. -/
def fresh : Server A :=
  ⟨false,none,none,none,fun _ => false,fun _ => false,fun _ => ⟨.unborn,none,false,false⟩,
    fun _ => .unborn⟩

/-- A thread goes on. -/
def goto (i : ℕ) (pc : Pc) : Server A :=
  { s with runs := Function.update s.runs i { s.runs i with pc := pc } }

/-- A call of `shutdown` goes on. -/
def stopAt (k : ℕ) (pc : StopPc) : Server A :=
  { s with stops := Function.update s.stops k pc }

/-- `startKoin`: an open context stays in force. -/
def startKoin (args : A) : Server A := { s with context := s.context.or (some args) }

/-- One statement of a thread in `startUp`; `ok` tells whether `bind` succeeds.
The wait for the closed socket ends after the boss group has been asked to
shut down. -/
def runStep (args : ℕ → A) (i : ℕ) (ok : Bool) : Option (Server A) :=
  match (s.runs i).pc with
  | .unborn => none
  | .entered => some (s.goto i (if s.isStarted then .returned else .checked))
  | .checked => some ((s.startKoin (args i)).goto i .koin)
  | .koin => some ({ s with isStarted := true }.goto i .started)
  | .started => some ({ s with bossGroup := some i }.goto i .boss)
  | .boss => some ({ s with workerGroup := some i }.goto i .worker)
  | .worker =>
    some { s with
      runs := Function.update s.runs i { s.runs i with pc := .grouped, used := s.bossGroup } }
  | .grouped =>
    some (if ok then
      { s with runs := Function.update s.runs i { s.runs i with pc := .bound, bound := true } }
    else s.goto i .closing)
  | .bound =>
    if ∃ g∈(s.runs i).used, s.bossStopped g=true then some (s.goto i .closing) else none
  | .closing =>
    some ({ s with bossStopped := shutdownGracefully s.bossGroup s.bossStopped }.goto i .bossShut)
  | .bossShut =>
    some ({ s with
      workerStopped := shutdownGracefully s.workerGroup s.workerStopped }.goto i .workerShut)
  | .workerShut => some ({ s with context := none }.goto i .koinClosed)
  | .koinClosed => some ({ s with isStarted := false }.goto i .returned)
  | .returned => none

/-- One statement of a call of `shutdown`. -/
def stopStep (k : ℕ) : Option (Server A) :=
  match s.stops k with
  | .unborn => none
  | .entered =>
    some ({ s with
      bossStopped := shutdownGracefully s.bossGroup s.bossStopped }.stopAt k .bossShut)
  | .bossShut =>
    some ({ s with
      workerStopped := shutdownGracefully s.workerGroup s.workerStopped }.stopAt k .workerShut)
  | .workerShut => some ({ s with context := none }.stopAt k .koinClosed)
  | .koinClosed => some ({ s with isStarted := false }.stopAt k .returned)
  | .returned => none

end Server

/-- What happens to the server. -/
inductive Step where
  /-- A thread calls `startUp`. -/
  | startUp (i : ℕ)
  /-- A thread in `startUp` goes on. -/
  | run (i : ℕ) (ok : Bool)
  /-- `shutdown` is called. -/
  | shutdown (k : ℕ)
  /-- A call of `shutdown` goes on. -/
  | stop (k : ℕ)
  deriving DecidableEq

variable {A : Type} {args : ℕ → A} {s s' : Server A}

/-- Meaning of a step; `none` when it cannot happen. -/
def step (args : ℕ → A) (t : Step) (s : Server A) : Option (Server A) :=
  match t with
  | .startUp i =>
    if (s.runs i).pc=.unborn then
      some { s with
        runs := Function.update s.runs i { s.runs i with pc := .entered, disturbed := false } }
    else none
  | .run i ok => s.runStep args i ok
  | .shutdown k =>
    if s.stops k=.unborn then
      some { s.stopAt k .entered with runs := fun i => { s.runs i with disturbed := true } }
    else none
  | .stop k => s.stopStep k

/-- The server, where each thread calls `startUp` with arguments of its own. -/
def server (args : ℕ → A) : System (Server A) Step Empty Empty := .ofStep (step args)

/-- A run whose check is passed alone: no other run is past its check and no
shutdown is on its way. -/
def Alone (s : Server A) (t : Step) : Prop :=
  ∀ i ok, t=.run i ok → (s.runs i).pc=.entered → s.isStarted=false →
    (∀ j, ¬(s.runs j).pc.Active) ∧ ∀ k, ¬(s.stops k).Active

/-- What an active run that no shutdown has disturbed has made is in place. -/
structure Serving (args : ℕ → A) (s : Server A) (i : ℕ) : Prop where
  /-- No shutdown is on its way. -/
  calm : ∀ k, ¬(s.stops k).Active
  /-- The context is the run's own. -/
  context : 3≤(s.runs i).pc.rank → (s.runs i).pc.rank≤8 → s.context=some (args i)
  /-- The server counts as started. -/
  started : 4≤(s.runs i).pc.rank → (s.runs i).pc.rank≤8 → s.isStarted=true
  /-- The boss group is the run's own and is not shut down. -/
  boss : 5≤(s.runs i).pc.rank → (s.runs i).pc.rank≤8 → s.bossGroup=some i ∧ s.bossStopped i=false
  /-- So is the worker group. -/
  worker : 6≤(s.runs i).pc.rank → (s.runs i).pc.rank≤8 →
    s.workerGroup=some i ∧ s.workerStopped i=false
  /-- The bootstrap was given the run's own group. -/
  used : 7≤(s.runs i).pc.rank → (s.runs i).pc.rank≤8 → (s.runs i).used=some i

/-- Runs that have all passed their checks alone. -/
structure Sound (args : ℕ → A) (s : Server A) : Prop where
  /-- At most one run is active. -/
  alone : ∀ i j, (s.runs i).pc.Active → (s.runs j).pc.Active → i=j
  /-- A context is open only during a run. -/
  during : ∀ c, s.context=some c → ∃ i, 3≤(s.runs i).pc.rank ∧ (s.runs i).pc.rank≤11
  /-- A boss group that is not made is neither in its field nor shut down. -/
  boss : ∀ i, (s.runs i).pc.rank<5 → s.bossStopped i=false ∧ s.bossGroup≠some i
  /-- Neither is such a worker group. -/
  worker : ∀ i, (s.runs i).pc.rank<6 → s.workerStopped i=false ∧ s.workerGroup≠some i
  /-- An undisturbed run serves. -/
  serving : ∀ i, (s.runs i).pc.Active → (s.runs i).disturbed=false → Serving args s i
  /-- An undisturbed run that has bound its socket waits for it to be closed. -/
  bound : ∀ i, (s.runs i).bound=true → (s.runs i).disturbed=false → (s.runs i).pc=.bound
  /-- A run that has bound its socket has come that far. -/
  late : ∀ i, (s.runs i).bound=true → 8≤(s.runs i).pc.rank

section Sound

variable {i k : ℕ} {ok : Bool}

theorem sound_fresh : Sound args Server.fresh := by
  constructor <;> simp [Server.fresh,Pc.Active,Pc.rank]

/-- A group that is asked to shut down is the one in the field. -/
theorem shutdownGracefully_eq {group : Option ℕ} {stopped : ℕ → Bool} {j : ℕ}
    (h : group≠some j) : shutdownGracefully group stopped j=stopped j := by
  cases group with
  | none => rfl
  | some i =>
    have hne : j≠i := fun he => h (by rw [he])
    simp [shutdownGracefully,hne]

/-- A step of one run that changes nothing that is shared. -/
theorem sound_private (h : Sound args s) {r : Run}
    (hactive : r.pc.Active → ∀ j, j≠i → ¬(s.runs j).pc.Active)
    (hduring : 3≤(s.runs i).pc.rank → (s.runs i).pc.rank≤11 → 3≤r.pc.rank ∧ r.pc.rank≤11)
    (hrank : (s.runs i).pc.rank≤r.pc.rank)
    (hserving : r.pc.Active → r.disturbed=false →
      Serving args { s with runs := Function.update s.runs i r } i)
    (hbound : r.bound=true → r.disturbed=false → r.pc=.bound)
    (hlate : r.bound=true → 8≤r.pc.rank) :
    Sound args { s with runs := Function.update s.runs i r } := by
  have hself : Function.update s.runs i r i=r := Function.update_self i r s.runs
  have hother : ∀ j, j≠i → Function.update s.runs i r j=s.runs j :=
    fun j hj => Function.update_of_ne hj r s.runs
  constructor
  · intro j l hj hl
    dsimp only at hj hl
    by_cases hji : j=i
    · subst hji
      by_contra hne
      rw [hself] at hj
      rw [hother l (Ne.symm hne)] at hl
      exact hactive hj l (Ne.symm hne) hl
    · rw [hother j hji] at hj
      by_cases hli : l=i
      · subst hli
        rw [hself] at hl
        exact absurd hj (hactive hl j hji)
      · rw [hother l hli] at hl
        exact h.alone j l hj hl
  · intro c hc
    dsimp only
    obtain ⟨j,hj⟩ := h.during c hc
    by_cases hji : j=i
    · subst hji
      exact ⟨j,by rw [hself]; exact hduring hj.1 hj.2⟩
    · exact ⟨j,by rw [hother j hji]; exact hj⟩
  · intro j hj
    dsimp only at hj ⊢
    by_cases hji : j=i
    · subst hji
      rw [hself] at hj
      exact h.boss j (by omega)
    · rw [hother j hji] at hj
      exact h.boss j hj
  · intro j hj
    dsimp only at hj ⊢
    by_cases hji : j=i
    · subst hji
      rw [hself] at hj
      exact h.worker j (by omega)
    · rw [hother j hji] at hj
      exact h.worker j hj
  · intro j hj hd
    by_cases hji : j=i
    · subst hji
      dsimp only at hj hd
      rw [hself] at hj hd
      exact hserving hj hd
    · dsimp only at hj hd
      rw [hother j hji] at hj hd
      obtain ⟨hcalm,hcontext,hstarted,hboss,hworker,hused⟩ := h.serving j hj hd
      constructor <;> simpa only [hother j hji]
  · intro j hb hd
    dsimp only at hb hd ⊢
    by_cases hji : j=i
    · subst hji
      rw [hself] at hb hd ⊢
      exact hbound hb hd
    · rw [hother j hji] at hb hd ⊢
      exact h.bound j hb hd
  · intro j hb
    dsimp only at hb ⊢
    by_cases hji : j=i
    · subst hji
      rw [hself] at hb ⊢
      exact hlate hb
    · rw [hother j hji] at hb ⊢
      exact h.late j hb

/-- A step of the active run, by which it changes what is shared. -/
theorem sound_active (h : Sound args s) (hi : (s.runs i).pc.Active) {r : Run}
    (hruns : s'.runs=Function.update s.runs i r)
    (hduring : ∀ c, s'.context=some c → 3≤r.pc.rank ∧ r.pc.rank≤11)
    (hboss : ∀ j, j≠i → s.bossGroup≠some j →
      s'.bossStopped j=s.bossStopped j ∧ s'.bossGroup≠some j)
    (hworker : ∀ j, j≠i → s.workerGroup≠some j →
      s'.workerStopped j=s.workerStopped j ∧ s'.workerGroup≠some j)
    (hunmade : r.pc.rank<5 → s'.bossStopped i=false ∧ s'.bossGroup≠some i)
    (hunstaffed : r.pc.rank<6 → s'.workerStopped i=false ∧ s'.workerGroup≠some i)
    (hserving : r.pc.Active → r.disturbed=false → Serving args s' i)
    (hbound : r.bound=true → r.disturbed=false → r.pc=.bound)
    (hlate : r.bound=true → 8≤r.pc.rank) : Sound args s' := by
  have hself : s'.runs i=r := by rw [hruns,Function.update_self]
  have hother : ∀ j, j≠i → s'.runs j=s.runs j :=
    fun j hj => by rw [hruns,Function.update_of_ne hj]
  have hidle : ∀ j, j≠i → ¬(s.runs j).pc.Active := fun j hj ha => hj (h.alone j i ha hi)
  have hactive : ∀ j, (s'.runs j).pc.Active → j=i := by
    intro j hj
    by_contra hne
    rw [hother j hne] at hj
    exact hidle j hne hj
  constructor
  · intro j l hj hl
    rw [hactive j hj,hactive l hl]
  · intro c hc
    exact ⟨i,by rw [hself]; exact hduring c hc⟩
  · intro j hj
    by_cases hji : j=i
    · subst hji
      rw [hself] at hj
      exact hunmade hj
    · rw [hother j hji] at hj
      obtain ⟨hs,hg⟩ := h.boss j hj
      obtain ⟨hs',hg'⟩ := hboss j hji hg
      exact ⟨hs'.trans hs,hg'⟩
  · intro j hj
    by_cases hji : j=i
    · subst hji
      rw [hself] at hj
      exact hunstaffed hj
    · rw [hother j hji] at hj
      obtain ⟨hs,hg⟩ := h.worker j hj
      obtain ⟨hs',hg'⟩ := hworker j hji hg
      exact ⟨hs'.trans hs,hg'⟩
  · intro j hj hd
    obtain rfl := hactive j hj
    rw [hself] at hj hd
    exact hserving hj hd
  · intro j hb hd
    by_cases hji : j=i
    · subst hji
      rw [hself] at hb hd ⊢
      exact hbound hb hd
    · rw [hother j hji] at hb hd ⊢
      exact h.bound j hb hd
  · intro j hb
    by_cases hji : j=i
    · subst hji
      rw [hself] at hb ⊢
      exact hlate hb
    · rw [hother j hji] at hb ⊢
      exact h.late j hb

/-- A run that has not come so far has not bound its socket. -/
theorem unbound_of_rank (h : Sound args s) (hr : (s.runs i).pc.rank<8) : (s.runs i).bound≠true := by
  intro hb
  have hl := h.late i hb
  omega

/-- A call of `startUp` changes nothing that is shared. -/
theorem sound_startUp (h : Sound args s) (ht : step args (.startUp i) s=some s') :
    Sound args s' := by
  simp only [step] at ht
  split_ifs at ht with hpc
  cases ht
  have hunbound : (s.runs i).bound≠true := unbound_of_rank h (by simp [hpc,Pc.rank])
  refine sound_private h ?_ ?_ ?_ ?_ ?_ ?_
  · intro ha
    exact absurd ha (by simp [Pc.Active,Pc.rank])
  · simp [hpc,Pc.rank]
  · simp [hpc,Pc.rank]
  · intro ha
    exact absurd ha (by simp [Pc.Active,Pc.rank])
  · exact fun hb => absurd hb hunbound
  · exact fun hb => absurd hb hunbound

/-- A shutdown that begins disturbs every run. -/
theorem sound_shutdown (h : Sound args s) (ht : step args (.shutdown k) s=some s') :
    Sound args s' := by
  simp only [step] at ht
  split_ifs at ht with hpc
  cases ht
  exact ⟨h.alone,h.during,h.boss,h.worker,fun i _ hd => absurd hd (by simp),
    fun i _ hd => absurd hd (by simp),h.late⟩

/-- A shutdown that goes on has disturbed every active run at its beginning. -/
theorem disturbed_of_stop (h : Sound args s) (hk : (s.stops k).Active) (hi : (s.runs i).pc.Active) :
    (s.runs i).disturbed=true := by
  by_contra hd
  exact (h.serving i hi (by simpa using hd)).calm k hk

/-- A shutdown that goes on asks groups that are made to shut down and closes the context. -/
theorem sound_stop (h : Sound args s) (ht : step args (.stop k) s=some s') : Sound args s' := by
  have hactive : (s.stops k).Active := by
    simp only [step,Server.stopStep] at ht
    constructor <;> intro hk <;> simp [hk] at ht
  have hserving : ∀ i, (s.runs i).pc.Active → (s.runs i).disturbed=false → Serving args s' i :=
    fun i hi hd => absurd (disturbed_of_stop h hactive hi) (by simp [hd])
  simp only [step,Server.stopStep] at ht
  cases hk : s.stops k with
  | unborn | returned => simp [hk] at ht
  | entered =>
    simp only [hk,Option.some.injEq] at ht
    subst ht
    refine ⟨h.alone,h.during,fun i hi => ?_,h.worker,hserving,h.bound,h.late⟩
    obtain ⟨hs,hg⟩ := h.boss i hi
    exact ⟨(shutdownGracefully_eq hg).trans hs,hg⟩
  | bossShut =>
    simp only [hk,Option.some.injEq] at ht
    subst ht
    refine ⟨h.alone,h.during,h.boss,fun i hi => ?_,hserving,h.bound,h.late⟩
    obtain ⟨hs,hg⟩ := h.worker i hi
    exact ⟨(shutdownGracefully_eq hg).trans hs,hg⟩
  | workerShut =>
    simp only [hk,Option.some.injEq] at ht
    subst ht
    exact ⟨h.alone,fun c hc => absurd hc (by simp [Server.stopAt]),h.boss,h.worker,hserving,h.bound,
      h.late⟩
  | koinClosed =>
    simp only [hk,Option.some.injEq] at ht
    subst ht
    exact ⟨h.alone,h.during,h.boss,h.worker,hserving,h.bound,h.late⟩

/-- The check of a run: it returns, or it is alone. -/
theorem sound_check (h : Sound args s) (hpc : (s.runs i).pc=.entered)
    (hok : s.isStarted=false → (∀ j, ¬(s.runs j).pc.Active) ∧ ∀ k, ¬(s.stops k).Active) :
    Sound args (s.goto i (if s.isStarted then .returned else .checked)) := by
  have hunbound : (s.runs i).bound≠true := unbound_of_rank h (by simp [hpc,Pc.rank])
  cases hs : s.isStarted with
  | true =>
    refine sound_private h ?_ ?_ ?_ ?_ ?_ ?_
    · intro ha
      exact absurd ha (by simp [Pc.Active,Pc.rank])
    · simp [hpc,Pc.rank]
    · simp [hpc,Pc.rank]
    · intro ha
      exact absurd ha (by simp [Pc.Active,Pc.rank])
    · exact fun hb => absurd hb hunbound
    · exact fun hb => absurd hb hunbound
  | false =>
    obtain ⟨hidle,hcalm⟩ := hok hs
    refine sound_private h (fun _ j _ => hidle j) ?_ ?_ ?_ ?_ ?_
    · simp [hpc,Pc.rank]
    · simp [hpc,Pc.rank]
    · intro _ _
      constructor
      · exact hcalm
      all_goals simp [Pc.rank]
    · exact fun hb => absurd hb hunbound
    · exact fun hb => absurd hb hunbound

/-- What a run makes before it binds its socket. -/
theorem sound_setUp (h : Sound args s) (hr : 2≤(s.runs i).pc.rank ∧ (s.runs i).pc.rank≤5)
    (ht : s.runStep args i ok=some s') : Sound args s' := by
  have hi : (s.runs i).pc.Active := ⟨hr.1,by omega⟩
  have hunbound : (s.runs i).bound≠true := unbound_of_rank h (by omega)
  unfold Server.runStep at ht
  cases hpc : (s.runs i).pc with
  | checked =>
    simp only [hpc,Option.some.injEq] at ht
    subst ht
    -- A context that is open would belong to a run further on, but this one is alone.
    have hclosed : s.context=none := by
      by_contra hc
      obtain ⟨c,hc⟩ := Option.ne_none_iff_exists'.mp hc
      obtain ⟨j,hj⟩ := h.during c hc
      obtain rfl := h.alone j i ⟨by omega,by omega⟩ hi
      simp [hpc,Pc.rank] at hj
    refine sound_active h hi (r := { s.runs i with pc := .koin }) rfl ?_ ?_ ?_ ?_ ?_ ?_ ?_ ?_
    · simp [Pc.rank]
    · exact fun j _ hg => ⟨rfl,hg⟩
    · exact fun j _ hg => ⟨rfl,hg⟩
    · exact fun _ => h.boss i (by simp [hpc,Pc.rank])
    · exact fun _ => h.worker i (by simp [hpc,Pc.rank])
    · intro _ hd
      obtain ⟨hcalm,-⟩ := h.serving i hi hd
      constructor
      · exact hcalm
      · simp [Server.goto,Server.startKoin,hclosed]
      all_goals simp [Server.goto,Pc.rank]
    · exact fun hb => absurd hb hunbound
    · exact fun hb => absurd hb hunbound
  | koin =>
    simp only [hpc,Option.some.injEq] at ht
    subst ht
    refine sound_active h hi (r := { s.runs i with pc := .started }) rfl ?_ ?_ ?_ ?_ ?_ ?_ ?_ ?_
    · simp [Pc.rank]
    · exact fun j _ hg => ⟨rfl,hg⟩
    · exact fun j _ hg => ⟨rfl,hg⟩
    · exact fun _ => h.boss i (by simp [hpc,Pc.rank])
    · exact fun _ => h.worker i (by simp [hpc,Pc.rank])
    · intro _ hd
      obtain ⟨hcalm,hcontext,-⟩ := h.serving i hi hd
      constructor
      · exact hcalm
      · exact fun _ _ => hcontext (by simp [hpc,Pc.rank]) (by simp [hpc,Pc.rank])
      · exact fun _ _ => rfl
      all_goals simp [Server.goto,Pc.rank]
    · exact fun hb => absurd hb hunbound
    · exact fun hb => absurd hb hunbound
  | started =>
    simp only [hpc,Option.some.injEq] at ht
    subst ht
    refine sound_active h hi (r := { s.runs i with pc := .boss }) rfl ?_ ?_ ?_ ?_ ?_ ?_ ?_ ?_
    · simp [Pc.rank]
    · exact fun j hj _ => ⟨rfl,by simpa [Server.goto] using Ne.symm hj⟩
    · exact fun j _ hg => ⟨rfl,hg⟩
    · simp [Pc.rank]
    · exact fun _ => h.worker i (by simp [hpc,Pc.rank])
    · intro _ hd
      obtain ⟨hcalm,hcontext,hstarted,-⟩ := h.serving i hi hd
      have hlive := (h.boss i (by simp [hpc,Pc.rank])).1
      constructor
      · exact hcalm
      · exact fun _ _ => hcontext (by simp [hpc,Pc.rank]) (by simp [hpc,Pc.rank])
      · exact fun _ _ => hstarted (by simp [hpc,Pc.rank]) (by simp [hpc,Pc.rank])
      · exact fun _ _ => ⟨rfl,hlive⟩
      all_goals simp [Server.goto,Pc.rank]
    · exact fun hb => absurd hb hunbound
    · exact fun hb => absurd hb hunbound
  | boss =>
    simp only [hpc,Option.some.injEq] at ht
    subst ht
    refine sound_active h hi (r := { s.runs i with pc := .worker }) rfl ?_ ?_ ?_ ?_ ?_ ?_ ?_ ?_
    · simp [Pc.rank]
    · exact fun j _ hg => ⟨rfl,hg⟩
    · exact fun j hj _ => ⟨rfl,by simpa [Server.goto] using Ne.symm hj⟩
    · simp [Pc.rank]
    · simp [Pc.rank]
    · intro _ hd
      obtain ⟨hcalm,hcontext,hstarted,hboss,-⟩ := h.serving i hi hd
      have hlive := (h.worker i (by simp [hpc,Pc.rank])).1
      constructor
      · exact hcalm
      · exact fun _ _ => hcontext (by simp [hpc,Pc.rank]) (by simp [hpc,Pc.rank])
      · exact fun _ _ => hstarted (by simp [hpc,Pc.rank]) (by simp [hpc,Pc.rank])
      · exact fun _ _ => hboss (by simp [hpc,Pc.rank]) (by simp [hpc,Pc.rank])
      · exact fun _ _ => ⟨rfl,hlive⟩
      all_goals simp [Server.goto,Pc.rank]
    · exact fun hb => absurd hb hunbound
    · exact fun hb => absurd hb hunbound
  | _ => simp [hpc,Pc.rank] at hr

/-- The bootstrap, the socket and the wait for its end touch nothing that is shared; an
undisturbed run waits for ever. -/
theorem sound_serve (h : Sound args s) (hr : 6≤(s.runs i).pc.rank ∧ (s.runs i).pc.rank≤8)
    (ht : s.runStep args i ok=some s') : Sound args s' := by
  have hi : (s.runs i).pc.Active := ⟨by omega,by omega⟩
  have hidle : ∀ j, j≠i → ¬(s.runs j).pc.Active := fun j hj ha => hj (h.alone j i ha hi)
  unfold Server.runStep at ht
  cases hpc : (s.runs i).pc with
  | worker =>
    simp only [hpc,Option.some.injEq] at ht
    subst ht
    have hunbound : (s.runs i).bound≠true := unbound_of_rank h (by simp [hpc,Pc.rank])
    refine sound_private h (fun _ => hidle) ?_ ?_ ?_ ?_ ?_
    · simp [Pc.rank]
    · simp [hpc,Pc.rank]
    · intro _ hd
      obtain ⟨hcalm,hcontext,hstarted,hboss,hworker,-⟩ := h.serving i hi hd
      simp only [hpc,Pc.rank] at hcontext hstarted hboss hworker
      constructor <;> simp_all [Pc.rank]
    · exact fun hb => absurd hb hunbound
    · exact fun hb => absurd hb hunbound
  | grouped =>
    simp only [hpc,Option.some.injEq] at ht
    have hunbound : (s.runs i).bound≠true := unbound_of_rank h (by simp [hpc,Pc.rank])
    cases ok with
    | true =>
      simp only [if_true] at ht
      subst ht
      refine sound_private h (fun _ => hidle) ?_ ?_ ?_ ?_ ?_
      · simp [Pc.rank]
      · simp [hpc,Pc.rank]
      · intro _ hd
        obtain ⟨hcalm,hcontext,hstarted,hboss,hworker,hused⟩ := h.serving i hi hd
        simp only [hpc,Pc.rank] at hcontext hstarted hboss hworker hused
        constructor <;> simp_all [Pc.rank]
      · exact fun _ _ => rfl
      · simp [Pc.rank]
    | false =>
      simp only [Bool.false_eq_true,if_false] at ht
      subst ht
      refine sound_private h (fun _ => hidle) ?_ ?_ ?_ ?_ ?_
      · simp [Pc.rank]
      · simp [hpc,Pc.rank]
      · intro _ hd
        constructor
        · exact (h.serving i hi hd).calm
        all_goals simp [Pc.rank]
      · exact fun hb => absurd hb hunbound
      · exact fun hb => absurd hb hunbound
  | bound =>
    simp only [hpc] at ht
    split_ifs at ht with hstopped
    cases ht
    -- The boss group of an undisturbed run is not shut down.
    have hdisturbed : (s.runs i).disturbed≠false := by
      intro hd
      obtain ⟨-,-,-,hboss,-,hused⟩ := h.serving i hi hd
      simp only [hpc,Pc.rank] at hboss hused
      obtain ⟨g,hg,hs⟩ := hstopped
      rw [hused (by omega) (by omega),Option.mem_some_iff] at hg
      rw [← hg,(hboss (by omega) (by omega)).2] at hs
      cases hs
    refine sound_private h (fun _ => hidle) ?_ ?_ ?_ ?_ ?_
    · simp [Pc.rank]
    · simp [hpc,Pc.rank]
    · exact fun _ hd => absurd hd hdisturbed
    · exact fun _ hd => absurd hd hdisturbed
    · simp [Pc.rank]
  | _ => simp [hpc,Pc.rank] at hr

/-- The `finally` block of the only active run. -/
theorem sound_tearDown (h : Sound args s) (hr : 9≤(s.runs i).pc.rank ∧ (s.runs i).pc.rank≤12)
    (ht : s.runStep args i ok=some s') : Sound args s' := by
  have hi : (s.runs i).pc.Active := ⟨by omega,by omega⟩
  have hbound : ∀ pc, (s.runs i).bound=true → (s.runs i).disturbed=false → pc=Pc.bound := by
    intro pc hb hd
    rw [h.bound i hb hd] at hr
    simp [Pc.rank] at hr
  have hcalm : (s.runs i).disturbed=false → ∀ k, ¬(s.stops k).Active :=
    fun hd => (h.serving i hi hd).calm
  unfold Server.runStep at ht
  cases hpc : (s.runs i).pc with
  | closing =>
    simp only [hpc,Option.some.injEq] at ht
    subst ht
    refine sound_active h hi (r := { s.runs i with pc := .bossShut }) rfl ?_ ?_ ?_ ?_ ?_ ?_ ?_ ?_
    · simp [Pc.rank]
    · exact fun j _ hg => ⟨shutdownGracefully_eq hg,hg⟩
    · exact fun j _ hg => ⟨rfl,hg⟩
    · simp [Pc.rank]
    · simp [Pc.rank]
    · exact fun _ hd => ⟨hcalm hd,by simp [Server.goto,Pc.rank],by simp [Server.goto,Pc.rank],
        by simp [Server.goto,Pc.rank],by simp [Server.goto,Pc.rank],by simp [Server.goto,Pc.rank]⟩
    · exact hbound _
    · simp [Pc.rank]
  | bossShut =>
    simp only [hpc,Option.some.injEq] at ht
    subst ht
    refine sound_active h hi (r := { s.runs i with pc := .workerShut }) rfl ?_ ?_ ?_ ?_ ?_ ?_ ?_ ?_
    · simp [Pc.rank]
    · exact fun j _ hg => ⟨rfl,hg⟩
    · exact fun j _ hg => ⟨shutdownGracefully_eq hg,hg⟩
    · simp [Pc.rank]
    · simp [Pc.rank]
    · exact fun _ hd => ⟨hcalm hd,by simp [Server.goto,Pc.rank],by simp [Server.goto,Pc.rank],
        by simp [Server.goto,Pc.rank],by simp [Server.goto,Pc.rank],by simp [Server.goto,Pc.rank]⟩
    · exact hbound _
    · simp [Pc.rank]
  | workerShut =>
    simp only [hpc,Option.some.injEq] at ht
    subst ht
    refine sound_active h hi (r := { s.runs i with pc := .koinClosed }) rfl ?_ ?_ ?_ ?_ ?_ ?_ ?_ ?_
    · simp [Server.goto]
    · exact fun j _ hg => ⟨rfl,hg⟩
    · exact fun j _ hg => ⟨rfl,hg⟩
    · simp [Pc.rank]
    · simp [Pc.rank]
    · exact fun _ hd => ⟨hcalm hd,by simp [Server.goto,Pc.rank],by simp [Server.goto,Pc.rank],
        by simp [Server.goto,Pc.rank],by simp [Server.goto,Pc.rank],by simp [Server.goto,Pc.rank]⟩
    · exact hbound _
    · simp [Pc.rank]
  | koinClosed =>
    simp only [hpc,Option.some.injEq] at ht
    subst ht
    have hclosed : ∀ c, s.context≠some c := by
      intro c hc
      obtain ⟨j,hj⟩ := h.during c hc
      obtain rfl := h.alone j i ⟨by omega,by omega⟩ hi
      simp [hpc,Pc.rank] at hj
    refine sound_active h hi (r := { s.runs i with pc := .returned }) rfl ?_ ?_ ?_ ?_ ?_ ?_ ?_ ?_
    · exact fun c hc => absurd hc (hclosed c)
    · exact fun j _ hg => ⟨rfl,hg⟩
    · exact fun j _ hg => ⟨rfl,hg⟩
    · simp [Pc.rank]
    · simp [Pc.rank]
    · exact fun ha => absurd ha (by simp [Pc.Active,Pc.rank])
    · exact hbound _
    · simp [Pc.rank]
  | _ => simp [hpc,Pc.rank] at hr

/-- Every step by which no run passes its check beside others keeps the server sound. -/
theorem sound_step {t : Step} (h : Sound args s) (hok : Alone s t) (ht : step args t s=some s') :
    Sound args s' := by
  cases t with
  | startUp i => exact sound_startUp h ht
  | shutdown k => exact sound_shutdown h ht
  | stop k => exact sound_stop h ht
  | run i ok =>
    have hrank : (s.runs i).pc.rank≤1 ∨ (2≤(s.runs i).pc.rank ∧ (s.runs i).pc.rank≤5) ∨
        (6≤(s.runs i).pc.rank ∧ (s.runs i).pc.rank≤8) ∨
        (9≤(s.runs i).pc.rank ∧ (s.runs i).pc.rank≤12) ∨ 13≤(s.runs i).pc.rank := by omega
    rcases hrank with hr|hr|hr|hr|hr
    · cases hpc : (s.runs i).pc with
      | unborn => simp [step,Server.runStep,hpc] at ht
      | entered =>
        simp only [step,Server.runStep,hpc,Option.some.injEq] at ht
        subst ht
        exact sound_check h hpc (hok i ok rfl hpc)
      | _ => simp [hpc,Pc.rank] at hr
    · exact sound_setUp h hr ht
    · exact sound_serve h hr ht
    · exact sound_tearDown h hr ht
    · cases hpc : (s.runs i).pc with
      | returned => simp [step,Server.runStep,hpc] at ht
      | _ => simp [hpc,Pc.rank] at hr

end Sound

/-- The server that a run has bound is in force, as long as no shutdown has begun since the
run was entered. -/
def InForce (args : ℕ → A) (s : Server A) (i : ℕ) : Prop :=
  (s.runs i).bound=true → (s.runs i).disturbed=false →
    s.isStarted=true ∧ s.bossStopped i=false ∧ s.workerStopped i=false ∧ s.context=some (args i)

/-- In every state of every interleaving in which each run passes its check alone, a run that
has bound its socket is in force until a shutdown begins. -/
theorem restarted_in_force {events : List Step}
    (hrun : (server args).RunUnder Alone Server.fresh events s) (i : ℕ) : InForce args s i := by
  have hsound : Sound args s := by
    refine hrun.invariant (I:=Sound args) ?_ sound_fresh
    intro s₁ t s₂ h hok ht
    exact sound_step h hok (System.turn_ofStep.mp ht)
  intro hb hd
  have hpc := hsound.bound i hb hd
  obtain ⟨-,hcontext,hstarted,hboss,hworker,-⟩ :=
    hsound.serving i (by simp [hpc,Pc.Active,Pc.rank]) hd
  simp only [hpc,Pc.rank] at hcontext hstarted hboss hworker
  exact ⟨hstarted (by omega) (by omega),(hboss (by omega) (by omega)).2,
    (hworker (by omega) (by omega)).2,hcontext (by omega) (by omega)⟩

/-- A run up to its bound socket. -/
def bindRun (i : ℕ) : List Step := .startUp i::List.replicate 7 (.run i true)

/-- A call of `shutdown` from its beginning to its end. -/
def stopRun (k : ℕ) : List Step := .shutdown k::List.replicate 4 (.stop k)

/-- The state after some steps, where each thread has its own number for arguments. -/
def sampleServer (events : List Step) : Server ℕ := System.after (step id) Server.fresh events

/-- The step is not the check of a run. -/
def unchecked (s : Server A) : Step → Bool
  | .run i _ => (s.runs i).pc≠.entered
  | _ => true

/-- Only the check of a run has to be passed alone. -/
theorem alone_of_unchecked {t : Step} (h : unchecked s t=true) : Alone s t := by
  intro i ok ht hpc
  subst ht
  simp [unchecked,hpc] at h

/-- Steps without a check are a run. -/
theorem run_unchecked {events : List Step} (h : events.foldlM
    (fun s t => if unchecked s t then step args t s else none) s=some s') :
    (server args).RunUnder Alone s events s' :=
  (System.runUnder_ofStep h).mono (fun _ _ => alone_of_unchecked)

/-- A run from its bound socket to its return, after a shutdown. -/
def endRun (i : ℕ) : List Step := List.replicate 5 (.run i true)

/-- The first run is started, shut down and returns, and then the second one is started. -/
def restart : List Step := bindRun 0++stopRun 0++endRun 0++[.startUp 1]

/-- The first thread that calls is alone. -/
theorem alone_first : Alone (sampleServer [.startUp 0]) (.run 0 true) := by
  intro i ok _ _ _
  refine ⟨fun j ha => ?_,fun k ha => ha.1 rfl⟩
  have hrank : ((sampleServer [.startUp 0]).runs j).pc.rank≤1 := by
    cases j with
    | zero => exact Nat.le_refl 1
    | succ j => exact Nat.zero_le 1
  have hactive := ha.1
  omega

/-- So is the thread that calls when the first one has returned. -/
theorem alone_second : Alone (sampleServer restart) (.run 1 true) := by
  intro i ok _ _ _
  refine ⟨fun j ha => ?_,fun k ha => ?_⟩
  · have hrank : ((sampleServer restart).runs j).pc.rank≤1 ∨
        ((sampleServer restart).runs j).pc.rank=13 := by
      cases j with
      | zero => exact .inr rfl
      | succ j =>
        cases j with
        | zero => exact .inl (Nat.le_refl 1)
        | succ j => exact .inl (Nat.zero_le 1)
    obtain ⟨hlow,hhigh⟩ := ha
    omega
  · cases k with
    | zero => exact ha.2 rfl
    | succ k => exact ha.1 rfl

/-- The second run is in force once it has bound its socket: the first one has been shut down and
has returned before. -/
theorem second_run_in_force :
    ((sampleServer (restart++List.replicate 7 (.run 1 true))).runs 1).bound=true ∧
      ((sampleServer (restart++List.replicate 7 (.run 1 true))).runs 1).disturbed=false ∧
      InForce id (sampleServer (restart++List.replicate 7 (.run 1 true))) 1 := by
  have hfirst : (server id).RunUnder Alone Server.fresh [.startUp 0]
      (sampleServer [.startUp 0]) := run_unchecked rfl
  have hserved : (server id).RunUnder Alone (sampleServer [.startUp 0,.run 0 true])
      (List.replicate 6 (.run 0 true)++stopRun 0++endRun 0++[.startUp 1]) (sampleServer restart) :=
    run_unchecked rfl
  have hrestarted : (server id).RunUnder Alone Server.fresh restart (sampleServer restart) :=
    (hfirst.snoc alone_first (System.turn_ofStep.mpr rfl)).trans hserved
  have hbound : (server id).RunUnder Alone (sampleServer (restart++[.run 1 true]))
      (List.replicate 6 (.run 1 true))
      (sampleServer (restart++List.replicate 7 (.run 1 true))) := run_unchecked rfl
  have hrun : (server id).RunUnder Alone Server.fresh (restart++List.replicate 7 (.run 1 true))
      (sampleServer (restart++List.replicate 7 (.run 1 true))) :=
    (hrestarted.snoc alone_second (System.turn_ofStep.mpr rfl)).trans hbound
  exact ⟨rfl,rfl,restarted_in_force hrun 1⟩

/-- The first run is shut down, a second one is started and bound, and then the first one
enters its `finally` block and shuts down the second one's group. -/
theorem old_run_tears_down :
    (server id).Run Server.fresh
        (bindRun 0++stopRun 0++bindRun 1++[.run 0 true,.run 0 true])
        (sampleServer (bindRun 0++stopRun 0++bindRun 1++[.run 0 true,.run 0 true])) ∧
      ¬InForce id (sampleServer (bindRun 0++stopRun 0++bindRun 1++[.run 0 true,.run 0 true])) 1 := by
  refine ⟨System.run_after rfl,fun h => ?_⟩
  have hstopped := (h rfl rfl).2.1
  cases hstopped

end ProxyDroid.ServerRestart
