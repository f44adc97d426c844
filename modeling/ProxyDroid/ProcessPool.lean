import ProxyDroid.ProcessGuard
import Mathlib.Logic.Function.Basic

/-!
# The guarded process pool

`GuardedProcessPool` as a system of threads: any number of `start` and
`killAll` calls, the guard threads they create and stop, and the monitors of
the thread sets. The pool's atomic reference holds the number of its current
set; `killAll` puts a new set in its place and retires the old one.
-/

namespace ProxyDroid.ProcessPool

open CallSemantics ProcessGuard

/-- Who is inside a `synchronized` block. -/
inductive Owner where
  | start (i : ℕ)
  | kill (j : ℕ)
  deriving DecidableEq

/-- Where a call of `start` is: it has read the reference, entered the block of
that set, started its guard thread, added it to the set, left the block to
wait for the result, and ended with it. -/
inductive StartPc where
  | idle
  | read (set : ℕ)
  | entered (set : ℕ)
  | spawned (set : ℕ)
  | added (set : ℕ)
  | waiting
  | finished (result : Result)
  deriving DecidableEq

/-- Where a call of `killAll` is: it has swapped the set, interrupts and joins
the threads of the old one, leaves the block and returns. `joined` is false
when the call was itself interrupted. -/
inductive KillPc where
  | idle
  | swapped (set : ℕ)
  | interrupting (set : ℕ) (todo : List ℕ)
  | joining (set : ℕ) (todo : List ℕ)
  | leaving (set : ℕ) (joined : Bool)
  | returned (set : ℕ) (joined : Bool)
  deriving DecidableEq

/-- State of the pool and of all threads that use it. The guard thread of the
start call `i` has the same number. -/
structure Pool where
  /-- `guardThreads`: the number of the current set. -/
  current : ℕ
  /-- Threads in each set. -/
  members : ℕ → List ℕ
  /-- Owner of the monitor of each set. -/
  holder : ℕ → Option Owner
  /-- Calls of `start`. -/
  starts : ℕ → StartPc
  /-- Guard threads. -/
  guards : ℕ → Guard
  /-- Calls of `killAll`. -/
  kills : ℕ → KillPc

namespace Pool

variable (s : Pool)

/-- A new pool. -/
def fresh : Pool := ⟨0,fun _ => [],fun _ => none,fun _ => .idle,fun _ => Guard.unborn,fun _ => .idle⟩

/-- Move a call of `start`. -/
def setStart (i : ℕ) (pc : StartPc) : Pool := { s with starts := Function.update s.starts i pc }

/-- Move a call of `killAll`. -/
def setKill (j : ℕ) (pc : KillPc) : Pool := { s with kills := Function.update s.kills j pc }

/-- Change a guard thread. -/
def setGuard (i : ℕ) (g : Guard) : Pool := { s with guards := Function.update s.guards i g }

/-- Enter or leave a monitor. -/
def setHolder (set : ℕ) (owner : Option Owner) : Pool :=
  { s with holder := Function.update s.holder set owner }

/-- Add a thread to a set. -/
def addMember (set i : ℕ) : Pool :=
  { s with members := Function.update s.members set (s.members set++[i]) }

/-- `GuardedProcessPool.start`, one step of the call `i`. -/
def startStep (i : ℕ) (onRestartCallback : Bool) : Option Pool :=
  match s.starts i with
  | .idle => some (s.setStart i (.read s.current))
  | .read set =>
    if s.holder set=none then some ((s.setHolder set (some (.start i))).setStart i (.entered set))
    else none
  | .entered set => some ((s.setGuard i (Guard.born set onRestartCallback)).setStart i (.spawned set))
  | .spawned set => some ((s.addMember set i).setStart i (.added set))
  | .added set => some ((s.setHolder set none).setStart i .waiting)
  | .waiting =>
    (s.guards i).take.map (fun taken => (s.setGuard i taken.2).setStart i (.finished taken.1))
  | .finished _ => none

/-- `GuardedProcessPool.killAll`, one step of the call `j`; `interrupted` is an
interrupt of the calling thread while it joins. -/
def killStep (j : ℕ) (interrupted : Bool) : Option Pool :=
  match s.kills j with
  | .idle => some { s.setKill j (.swapped s.current) with current := s.current+1 }
  | .swapped set =>
    if s.holder set=none then
      some ((s.setHolder set (some (.kill j))).setKill j (.interrupting set (s.members set)))
    else none
  | .interrupting set [] => some (s.setKill j (.joining set (s.members set)))
  | .interrupting set (i::todo) =>
    some ((s.setGuard i (s.guards i).interrupt).setKill j (.interrupting set todo))
  | .joining set [] => some (s.setKill j (.leaving set true))
  | .joining set (i::todo) =>
    if interrupted then some (s.setKill j (.leaving set false))
    else if (s.guards i).pc=.done then some (s.setKill j (.joining set todo)) else none
  | .leaving set joined => some ((s.setHolder set none).setKill j (.returned set joined))
  | .returned _ _ => none

/-- One step of the guard thread `i`. -/
def guardStep (legacy : Bool) (i : ℕ) (choice : Choice) : Option Pool :=
  ((s.guards i).step legacy (decide ((s.guards i).host=s.current)) choice).map (s.setGuard i)

/-- The process of the guard `i` exits. -/
def exitStep (i : ℕ) : Option Pool := (s.guards i).exit.map (s.setGuard i)

end Pool

/-- Steps of the threads and of their environment. -/
inductive Step where
  | start (i : ℕ) (onRestartCallback : Bool)
  | guard (i : ℕ) (choice : Choice)
  | kill (j : ℕ) (interrupted : Bool)
  | exit (i : ℕ)
  deriving DecidableEq

/-- Meaning of a step; `none` when it cannot happen. -/
def step (legacy : Bool) (t : Step) (s : Pool) : Option Pool :=
  match t with
  | .start i onRestartCallback => s.startStep i onRestartCallback
  | .guard i choice => s.guardStep legacy i choice
  | .kill j interrupted => s.killStep j interrupted
  | .exit i => s.exitStep i

/-- The pool on a system whose `SDK_INT` is below 24 or not. -/
def pool (legacy : Bool) : System Pool Step Empty Empty := .ofStep (step legacy)

/-- The set whose monitor a call of `start` holds. -/
def StartPc.holds : StartPc → Option ℕ
  | .entered set | .spawned set | .added set => some set
  | _ => none

/-- Whether the guard thread of a call of `start` exists. -/
def StartPc.born : StartPc → Bool
  | .idle | .read _ | .entered _ => false
  | _ => true

/-- The result a call of `start` has taken. -/
def StartPc.taken : StartPc → List Result
  | .finished result => [result]
  | _ => []

/-- The set whose monitor a call of `killAll` holds. -/
def KillPc.holds : KillPc → Option ℕ
  | .interrupting set _ | .joining set _ | .leaving set _ => some set
  | _ => none

/-- The set a call of `killAll` has retired. -/
def KillPc.set : KillPc → Option ℕ
  | .idle => none
  | .swapped set | .interrupting set _ | .joining set _ | .leaving set _ | .returned set _ => some set

/-- What one step of any thread can do. -/
inductive Acts (s : Pool) : Step → Pool → Prop
  | read {i : ℕ} (b : Bool) (h : s.starts i=.idle) :
      Acts s (.start i b) (s.setStart i (.read s.current))
  | enter {i set : ℕ} (b : Bool) (h : s.starts i=.read set) (hf : s.holder set=none) :
      Acts s (.start i b) ((s.setHolder set (some (.start i))).setStart i (.entered set))
  | spawn {i set : ℕ} (b : Bool) (h : s.starts i=.entered set) :
      Acts s (.start i b) ((s.setGuard i (Guard.born set b)).setStart i (.spawned set))
  | add {i set : ℕ} (b : Bool) (h : s.starts i=.spawned set) :
      Acts s (.start i b) ((s.addMember set i).setStart i (.added set))
  | leave {i set : ℕ} (b : Bool) (h : s.starts i=.added set) :
      Acts s (.start i b) ((s.setHolder set none).setStart i .waiting)
  | take {i : ℕ} {result : Result} {g : Guard} (b : Bool) (h : s.starts i=.waiting)
      (ht : (s.guards i).take=some (result,g)) :
      Acts s (.start i b) ((s.setGuard i g).setStart i (.finished result))
  | swap {j : ℕ} (b : Bool) (h : s.kills j=.idle) :
      Acts s (.kill j b) { s.setKill j (.swapped s.current) with current := s.current+1 }
  | lock {j set : ℕ} (b : Bool) (h : s.kills j=.swapped set) (hf : s.holder set=none) :
      Acts s (.kill j b)
        ((s.setHolder set (some (.kill j))).setKill j (.interrupting set (s.members set)))
  | interrupt {j set i : ℕ} {todo : List ℕ} (b : Bool) (h : s.kills j=.interrupting set (i::todo)) :
      Acts s (.kill j b) ((s.setGuard i (s.guards i).interrupt).setKill j (.interrupting set todo))
  | interrupted {j set : ℕ} (b : Bool) (h : s.kills j=.interrupting set []) :
      Acts s (.kill j b) (s.setKill j (.joining set (s.members set)))
  | join {j set i : ℕ} {todo : List ℕ} (b : Bool) (h : s.kills j=.joining set (i::todo))
      (hd : (s.guards i).pc=.done) : Acts s (.kill j b) (s.setKill j (.joining set todo))
  | giveUp {j set : ℕ} {todo : List ℕ} (h : s.kills j=.joining set todo) :
      Acts s (.kill j true) (s.setKill j (.leaving set false))
  | joined {j set : ℕ} (b : Bool) (h : s.kills j=.joining set []) :
      Acts s (.kill j b) (s.setKill j (.leaving set true))
  | unlock {j set : ℕ} {joined : Bool} (b : Bool) (h : s.kills j=.leaving set joined) :
      Acts s (.kill j b) ((s.setHolder set none).setKill j (.returned set joined))
  | guard {i : ℕ} {g : Guard} (choice : Choice)
      (hm : Move (decide ((s.guards i).host=s.current)) (s.guards i) g) :
      Acts s (.guard i choice) (s.setGuard i g)
  | exit {i : ℕ} {g : Guard} (he : (s.guards i).exit=some g) : Acts s (.exit i) (s.setGuard i g)

section Inversion

variable {s s' : Pool} {legacy : Bool} {t : Step}

/-- A step of a start call. -/
theorem acts_start {i : ℕ} {b : Bool} (h : s.startStep i b=some s') : Acts s (.start i b) s' := by
  unfold Pool.startStep at h
  split at h
  · cases h; exact .read b ‹_›
  · split at h
    · cases h; exact .enter b ‹_› ‹_›
    · cases h
  · cases h; exact .spawn b ‹_›
  · cases h; exact .add b ‹_›
  · cases h; exact .leave b ‹_›
  · obtain ⟨⟨result,g⟩,ht,rfl⟩ := Option.map_eq_some_iff.mp h
    exact .take b ‹_› ht
  · cases h

/-- A step of a call of `killAll`. -/
theorem acts_kill {j : ℕ} {b : Bool} (h : s.killStep j b=some s') : Acts s (.kill j b) s' := by
  unfold Pool.killStep at h
  split at h
  · cases h; exact .swap b ‹_›
  · split at h
    · cases h; exact .lock b ‹_› ‹_›
    · cases h
  · cases h; exact .interrupted b ‹_›
  · cases h; exact .interrupt b ‹_›
  · cases h; exact .joined b ‹_›
  · split at h
    · rename_i hb
      subst hb
      cases h
      exact .giveUp ‹_›
    · split at h
      · cases h; exact .join b ‹_› ‹_›
      · cases h
  · cases h; exact .unlock b ‹_›
  · cases h

/-- Every step is one of these. -/
theorem step_acts (h : step legacy t s=some s') : Acts s t s' := by
  cases t with
  | start i b => exact acts_start h
  | kill j b => exact acts_kill h
  | guard i choice =>
    obtain ⟨g,hg,rfl⟩ := Option.map_eq_some_iff.mp h
    exact .guard choice (Guard.step_move hg)
  | exit i =>
    obtain ⟨g,hg,rfl⟩ := Option.map_eq_some_iff.mp h
    exact .exit hg

end Inversion

/-- What a step does to the guard thread `k`: its own move, its birth, or
something that leaves it where it is. -/
inductive Happens (s s' : Pool) (t : Step) (k : ℕ) : Guard → Prop
  | same : Happens s s' t k (s.guards k)
  | born {set : ℕ} (h : s.starts k=.entered set) (b : Bool) : Happens s s' t k (Guard.born set b)
  | take {result : Result} {g : Guard} (h : s.starts k=.waiting) (h' : s'.starts k=.finished result)
      (ht : (s.guards k).take=some (result,g)) : Happens s s' t k g
  | interrupt {j set : ℕ} {todo : List ℕ} (h : s.kills j=.interrupting set (k::todo))
      (h' : s'.kills j=.interrupting set todo) : Happens s s' t k (s.guards k).interrupt
  | move {g : Guard} (choice : Choice) (ht : t=.guard k choice)
      (hm : Move (decide ((s.guards k).host=s.current)) (s.guards k) g) : Happens s s' t k g
  | exit {g : Guard} (he : (s.guards k).exit=some g) : Happens s s' t k g

/-- Every step does one of these to a guard thread. -/
theorem Acts.happens {s s' : Pool} {t : Step} (h : Acts s t s') (k : ℕ) :
    Happens s s' t k (s'.guards k) := by
  have hset : ∀ {i : ℕ} {g : Guard}, (k=i → Happens s s' t k g) →
      Happens s s' t k (Function.update s.guards i g k) := by
    intro i g hg
    by_cases hk : k=i
    · subst hk
      rw [Function.update_self]
      exact hg rfl
    · rw [Function.update_of_ne hk]
      exact .same
  cases h with
  | spawn b h => exact hset (fun hk => .born (hk ▸ h) b)
  | take b h ht =>
    refine hset (fun hk => ?_)
    subst hk
    exact .take h (Function.update_self ..) ht
  | interrupt b h =>
    refine hset (fun hk => ?_)
    subst hk
    exact .interrupt h (Function.update_self ..)
  | guard choice hm =>
    refine hset (fun hk => ?_)
    subst hk
    exact .move choice rfl hm
  | exit he => exact hset (fun hk => .exit (hk ▸ he))
  | read | enter | add | leave | swap | lock | interrupted | join | giveUp | joined | unlock =>
    exact .same

/-- A step leaves a guard thread where it is, creates it, or is its own. -/
theorem Acts.guard_cases {s s' : Pool} {t : Step} (h : Acts s t s') (k : ℕ) :
    Passive (s.guards k) (s'.guards k) ∨
      (∃ set b, s.starts k=.entered set ∧ s'.guards k=Guard.born set b) ∨
      ∃ choice, t=.guard k choice ∧
        Move (decide ((s.guards k).host=s.current)) (s.guards k) (s'.guards k) := by
  have hh := h.happens k
  generalize s'.guards k=g at hh ⊢
  cases hh with
  | same => exact .inl (.refl _)
  | born h b => exact .inr (.inl ⟨_,b,h,rfl⟩)
  | take h h' ht => exact .inl (Guard.take_passive ht)
  | interrupt => exact .inl (Guard.interrupt_passive _)
  | move choice ht hm => exact .inr (.inr ⟨choice,ht,hm⟩)
  | exit he => exact .inl (Guard.exit_passive he)

end ProxyDroid.ProcessPool
