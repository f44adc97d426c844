import ProxyDroid.ProcessPoolRuns
import ProxyDroid.ProtectRuns

/-!
# The life cycle of the proxy service

`ProxyService.onStartCommand`, `startProxy` and `stopProxy` on the main thread,
over the process pool and the listener threads: every `startProxy` creates a
`ProtectWorker` and a VPN descriptor and starts a guarded process; `stopProxy`
runs for a stop broadcast. Guard threads, processes, listener threads and the
collector interleave with the main thread. The proxy server that is started
and shut down on the way holds none of these resources and is left out.
-/

namespace ProxyDroid.ServiceLifecycle

open CallSemantics ProcessGuard ProcessPool ProtectProtocol

/-- Where the main thread is: the statements of `onStartCommand` and
`startProxy` from `registerReceiver` to `sendFd`, and those of `stopProxy`. -/
inductive MainPc where
  | idle
  | register
  | worker
  | establish
  | start
  | sendFd
  | unregister
  | killAll
  | stopSelf
  deriving DecidableEq

/-- How the last call on the main thread has ended. -/
inductive Last where
  | none
  | ignored
  | started
  | failed
  | stopped
  deriving DecidableEq

/-- State of the service. -/
structure Service where
  /-- Where the main thread is. -/
  pc : MainPc
  /-- The last call that has ended. -/
  last : Last
  /-- How often `controlBroadcastReceiver` is registered. -/
  registered : ℕ
  /-- How many workers have been started. -/
  started : ℕ
  /-- The listener thread of each worker with its clients. -/
  workers : ℕ → Net
  /-- How many VPN descriptors have been established. -/
  established : ℕ
  /-- Those that are open. -/
  opened : List ℕ
  /-- How many calls of `processes.start` have ended. -/
  launched : ℕ
  /-- How many calls of `processes.killAll` have ended. -/
  killed : ℕ
  /-- `processes`. -/
  pool : Pool

namespace Service

variable (s : Service)

/-- A new service. -/
def fresh : Service := ⟨.idle,.none,0,0,fun _ => Net.fresh,0,[],0,0,Pool.fresh⟩

/-- The call on the main thread ends. -/
def finish (last : Last) : Service := { s with pc := .idle, last := last }

/-- The main thread goes on in `processes.start`; an exception leaves
`startProxy`. -/
def startStep (legacy : Bool) : Option Service :=
  (ProcessPool.step legacy (.start s.launched true) s.pool).map (fun pool =>
    match pool.starts s.launched with
    | .finished .dummy => { s with pc := .sendFd, launched := s.launched+1, pool := pool }
    | .finished (.exception _) =>
      ({ s with launched := s.launched+1, pool := pool } : Service).finish .failed
    | _ => { s with pool := pool })

/-- The main thread goes on in `processes.killAll`; nobody interrupts it. -/
def killStep (legacy : Bool) : Option Service :=
  (ProcessPool.step legacy (.kill s.killed false) s.pool).map (fun pool =>
    match pool.kills s.killed with
    | .returned _ _ => { s with pc := .stopSelf, killed := s.killed+1, pool := pool }
    | _ => { s with pool := pool })

/-- One statement of the main thread; `null` is the result of `establish()`.
The result of `sendFd` is not used, and `unregisterReceiver` removes every
registration of the receiver. -/
def mainStep (legacy null : Bool) : Option Service :=
  match s.pc with
  | .idle => none
  | .register => some { s with pc := .worker, registered := s.registered+1 }
  | .worker =>
    some { s with
      pc := .establish
      started := s.started+1
      workers := Function.update s.workers s.started Net.fresh }
  | .establish =>
    some (if null then s.finish .failed
    else { s with
      pc := .start
      established := s.established+1
      opened := s.opened++[s.established] })
  | .start => s.startStep legacy
  | .sendFd => some (s.finish .started)
  | .unregister => some { s with pc := .killAll, registered := 0 }
  | .killAll => s.killStep legacy
  | .stopSelf => some (s.finish .stopped)

/-- Steps of the pool that are not taken by the main thread. -/
def poolStep (legacy : Bool) (t : ProcessPool.Step) : Option Service :=
  match t with
  | .guard _ _ | .exit _ =>
    (ProcessPool.step legacy t s.pool).map (fun pool => { s with pool := pool })
  | .start _ _ | .kill _ _ => none

/-- Steps of a worker and its clients; `stopThread` is not called. -/
def workerStep (device : Device) (k : ℕ) (t : ProtectProtocol.Step) : Option Service :=
  if k<s.started ∧ t≠.stopThread then
    (ProtectProtocol.step device t (s.workers k)).map (fun net =>
      { s with workers := Function.update s.workers k net })
  else none

end Service

/-- What happens to the service. -/
inductive Step where
  /-- `onStartCommand` is called, with an intent or with null. -/
  | onStartCommand (intent : Bool)
  /-- A stop broadcast reaches the receiver. -/
  | broadcast
  /-- The main thread goes on. -/
  | main (null : Bool)
  /-- A guard thread or a process goes on. -/
  | pool (t : ProcessPool.Step)
  /-- A worker or one of its clients goes on. -/
  | worker (k : ℕ) (t : ProtectProtocol.Step)
  /-- A VPN descriptor that nobody refers to is finalized. -/
  | finalize (k : ℕ)
  deriving DecidableEq

/-- Meaning of a step; `none` when it cannot happen. -/
def step (legacy : Bool) (device : Device) (t : Step) (s : Service) : Option Service :=
  match t with
  | .onStartCommand intent =>
    if s.pc=.idle then
      some (if intent then { s with pc := .register } else s.finish .ignored)
    else none
  | .broadcast => if s.pc=.idle ∧ 0<s.registered then some { s with pc := .unregister } else none
  | .main null => s.mainStep legacy null
  | .pool t => s.poolStep legacy t
  | .worker k t => s.workerStep device k t
  | .finalize k => if k∈s.opened then some { s with opened := s.opened.filter (·≠k) } else none

/-- The service on a device. -/
def service (legacy : Bool) (device : Device) : System Service Step Empty Empty :=
  .ofStep (step legacy device)

/-- A worker's thread has ended. -/
def Over (net : Net) : Prop := net.pc=.returned ∨ net.pc=.crashed

/-- Nothing that a `startProxy` has acquired is held. -/
structure Clean (s : Service) : Prop where
  /-- No worker is running or blocked in `accept`. -/
  workers : ∀ k<s.started, Over (s.workers k)
  /-- No guard thread is alive. -/
  guards : ∀ i, (s.pool.guards i).pc=.unborn ∨ (s.pool.guards i).pc=.done
  /-- No process is. -/
  processes : ∀ i, ∀ p∈(s.pool.guards i).processes, p.Ended
  /-- VPN descriptors are closed. -/
  opened : s.opened=[]
  /-- The receiver is not registered. -/
  registered : s.registered=0

end ProxyDroid.ServiceLifecycle
