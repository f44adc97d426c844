import Mathlib.Data.List.Nodup
import Mathlib.Logic.Function.Basic
import ProxyDroid.CallSemantics

/-!
# Requests to the VPN helper

`VpnHelper` keeps one callback for each kind of request and launches a `HelperActivity` that
answers it: at once, or after a dialog of the system has returned a result. A request of a kind
whose callback is still kept is refused. Callbacks run on the main thread and may make requests
themselves or throw. Each answer reaches the callback of the request its activity was launched
for, once or, if the callback throws on success, a second time as a failure; but a request whose
activity never answers keeps its place, and every later one of its kind is refused. An exception
that an activity does not catch ends the process. All calls are made on the main thread.
-/

namespace ProxyDroid.HelperRequests

open CallSemantics

/-- The kinds of requests: `startProxy`, `stopProxy` and `installCA`. -/
inductive Kind where
  | start
  | stop
  | install
  deriving DecidableEq

/-- The message of a refused request. -/
def Kind.busy : Kind → String
  | .start => "starting...."
  | .stop => "stopping...."
  | .install => "installing...."

/-- What is given to a callback as its throwable. -/
inductive Cause where
  /-- A `Throwable` with a message. -/
  | throwable (message : String)
  /-- An exception that has been caught. -/
  | caught
  deriving DecidableEq

/-- The arguments of a callback. -/
structure Answer where
  result : Bool
  throwable : Option Cause
  deriving DecidableEq

/-- A `HelperActivity`. -/
structure Activity where
  /-- The request it was launched for. -/
  request : ℕ
  /-- Its command. -/
  kind : Kind
  /-- Whether it has been created and waits for a result. -/
  waiting : Bool
  deriving DecidableEq

/-- Where an activity has called the callback from. -/
inductive Place where
  /-- The `try` block of `startProxy` or `stopProxy`. -/
  | tryBlock
  /-- Its `catch` block. -/
  | catchBlock
  /-- `onActivityResult` itself. -/
  | plain
  deriving DecidableEq

/-- A callback that an activity has called. -/
structure Active where
  /-- The activity. -/
  activity : Activity
  /-- The place of the call. -/
  place : Place
  deriving DecidableEq

/-- The helper, its activities and the main thread. -/
structure Helper where
  /-- The callbacks that are kept, by the numbers of their requests. -/
  pending : Kind → Option ℕ
  /-- The activities that are not finished. -/
  activities : List Activity
  /-- The callback that an activity has called, while it runs. -/
  active : Option Active
  /-- The number of callbacks of refused requests that run, each one in the one before. -/
  refusing : ℕ
  /-- The calls of callbacks, by request, the first one first. -/
  told : List (ℕ×Answer)
  /-- The number of requests. -/
  requests : ℕ
  /-- Whether an exception has left the main thread. -/
  crashed : Bool

namespace Helper

variable (h : Helper)

/-- No request has been made. -/
def fresh : Helper := ⟨fun _ => none,[],none,0,[],0,false⟩

/-- A callback is called. -/
def tell (request : ℕ) (answer : Answer) : Helper := {h with told:=h.told++[(request,answer)]}

/-- `VpnHelper.startProxy`, `stopProxy` and `installCA`. The callback is kept before the
activity is launched, whether that succeeds or throws. -/
def request (kind : Kind) (launched : Bool) : Helper :=
  if h.pending kind≠none then
    {h.tell h.requests ⟨false,some (.throwable kind.busy)⟩ with
      refusing:=h.refusing+1,requests:=h.requests+1}
  else
    {h with
      pending:=Function.update h.pending kind (some h.requests),
      activities:=if launched=true then ⟨h.requests,kind,false⟩::h.activities else h.activities,
      requests:=h.requests+1}

/-- The callback is forgotten and the activity finished. -/
def finish (a : Activity) : Helper :=
  {h with pending:=Function.update h.pending a.kind none,activities:=h.activities.erase a,active:=none}

/-- An activity calls the callback of its kind, if there is one, and goes on behind the call. -/
def invoke (a : Activity) (place : Place) (answer : Answer) : Helper :=
  match h.pending a.kind with
  | none => h.finish a
  | some request => {h.tell request answer with active:=some ⟨a,place⟩}

/-- `startProxy` and `stopProxy` of the activity: the service is started or the broadcast sent,
or an exception is caught. -/
def command (a : Activity) (done : Bool) : Helper :=
  if done=true then h.invoke a .tryBlock ⟨true,none⟩
  else h.invoke a .catchBlock ⟨false,some .caught⟩

/-- The activity waits for a result. -/
def await (a : Activity) : Helper :=
  {h with activities:={a with waiting:=true}::h.activities.erase a}

/-- The dialog of the system is asked for. Nothing catches the exception that `certBytes` throws
when there is no certificate to install, or `startActivityForResult` without such a dialog. -/
def ask (a : Activity) (asked : Bool) : Helper :=
  if asked=true then h.await a else {h with crashed:=true}

/-- `onCreate`. -/
def onCreate (a : Activity) (prepared asked done : Bool) : Helper :=
  match a.kind with
  | .install => h.ask a asked
  | .start => if prepared=true then h.command a done else h.ask a asked
  | .stop => h.command a done

/-- `onActivityResult`; no result is asked for by the command that stops the proxy. -/
def onActivityResult (a : Activity) (ok done : Bool) : Helper :=
  match a.kind with
  | .install => h.invoke a .plain ⟨ok,none⟩
  | .start => if ok=true then h.command a done else h.invoke a .plain ⟨false,none⟩
  | .stop => if ok=true then h else {h with activities:=h.activities.erase a}

/-- The callback that runs throws. -/
def thrown (active : Active) : Helper :=
  match active.place with
  | .tryBlock => h.invoke active.activity .catchBlock ⟨false,some .caught⟩
  | .catchBlock => {h.finish active.activity with crashed:=true}
  | .plain => {h with active:=none,crashed:=true}

end Helper

/-- What happens on the main thread. -/
inductive Event where
  /-- A request is made; the activity is launched or `startActivity` throws. -/
  | request (kind : Kind) (launched : Bool)
  /-- An activity is created. Either the VPN is prepared or a dialog is asked for; the dialog is
  shown and the service started, or an exception is thrown. -/
  | create (a : Activity) (prepared asked done : Bool)
  /-- An activity gets a result. -/
  | result (a : Activity) (ok done : Bool)
  /-- An activity goes away without an answer. -/
  | lost (a : Activity)
  /-- The callback that runs returns. -/
  | returns
  /-- The callback that runs throws an exception. -/
  | throws

/-- One step of the main thread. Requests come from the application or from a callback that
runs; activities are served when no callback runs. -/
def step : Event → Helper → Option Helper
  | .request kind launched,h => if h.crashed=false then some (h.request kind launched) else none
  | .create a prepared asked done,h =>
    if h.crashed=false ∧ h.active=none ∧ h.refusing=0 ∧ a∈h.activities ∧ a.waiting=false then
      some (h.onCreate a prepared asked done)
    else none
  | .result a ok done,h =>
    if h.crashed=false ∧ h.active=none ∧ h.refusing=0 ∧ a∈h.activities ∧ a.waiting=true then
      some (h.onActivityResult a ok done)
    else none
  | .lost a,h =>
    if h.crashed=false ∧ h.active=none ∧ h.refusing=0 ∧ a∈h.activities then
      some {h with activities:=h.activities.erase a}
    else none
  | .returns,h =>
    if h.crashed=true then none
    else if 0<h.refusing then some {h with refusing:=h.refusing-1}
    else h.active.map (fun active => h.finish active.activity)
  | .throws,h =>
    if h.crashed=true then none
    else if 0<h.refusing then some {h with refusing:=h.refusing-1}
    else h.active.map h.thrown

/-- What the callback of a request has been told, the first answer first. -/
def Helper.answers (h : Helper) (request : ℕ) : List Answer :=
  (h.told.filter (fun call => call.1=request)).map Prod.snd

theorem answers_tell (h : Helper) (n m : ℕ) (answer : Answer) :
    (h.tell n answer).answers m=if m=n then h.answers n++[answer] else h.answers m := by
  unfold Helper.answers Helper.tell
  rw [List.filter_append,List.map_append]
  by_cases hm : m=n
  · subst hm
    simp
  · have hn : n≠m := fun he => hm he.symm
    simp [hm,hn]

/-- The answer that the request has succeeded. -/
def success : Answer := ⟨true,none⟩

/-- The answer that an exception has been caught. -/
def failure : Answer := ⟨false,some .caught⟩

/-- The answers to a callback that has been called from a place, while it runs. -/
def Running : Place → List Answer → Prop
  | .tryBlock,answers => answers=[success]
  | .catchBlock,answers => answers=[failure] ∨ answers=[success,failure]
  | .plain,answers => ∃ answer, answers=[answer]

/-- All the answers to a callback: one, or a failure after a success on which it has thrown. -/
def Settled (answers : List Answer) : Prop :=
  (∃ answer, answers=[answer]) ∨ answers=[success,failure]

theorem Running.settled {place : Place} {answers : List Answer} (h : Running place answers) :
    Settled answers := by
  cases place with
  | tryBlock => exact .inl ⟨_,h⟩
  | catchBlock =>
    rcases h with h|h
    · exact .inl ⟨_,h⟩
    · exact .inr h
  | plain => exact .inl h

/-- What holds on every run. -/
structure Inv (h : Helper) : Prop where
  /-- The callback kept for the kind of an activity is the one of its request. -/
  owner : ∀ a∈h.activities, h.pending a.kind=some a.request
  /-- There is one activity of a kind at a time. -/
  kinds : (h.activities.map Activity.kind).Nodup
  /-- The activity whose callback runs is not finished. -/
  active : ∀ {x}, h.active=some x → x.activity∈h.activities
  /-- A callback that is kept is the one of a request. -/
  below : ∀ {k n}, h.pending k=some n → n<h.requests
  /-- Different kinds keep the callbacks of different requests. -/
  distinct : ∀ {k k' n}, h.pending k=some n → h.pending k'=some n → k=k'
  /-- Nothing is told about requests that are to come. -/
  unknown : ∀ {n}, h.requests≤n → h.answers n=[]
  /-- A callback that is kept and does not run has been told nothing, or has ended the process. -/
  waiting : ∀ {k n}, h.pending k=some n → (∀ {x}, h.active=some x → x.activity.request≠n) →
    h.answers n=[] ∨ h.crashed=true ∧ Settled (h.answers n)
  /-- A callback that runs has been told what it was called with. -/
  running : ∀ {x}, h.active=some x → Running x.place (h.answers x.activity.request)
  /-- The other callbacks have been answered. -/
  settled : ∀ {n}, n<h.requests → (∀ k, h.pending k≠some n) → Settled (h.answers n)

theorem inv_fresh : Inv .fresh where
  owner := fun a ha => (by cases ha)
  kinds := List.nodup_nil
  active := fun hx => (by cases hx)
  below := fun hp => (by cases hp)
  distinct := fun hp => (by cases hp)
  unknown := fun _ => rfl
  waiting := fun hp => (by cases hp)
  running := fun hx => (by cases hx)
  settled := fun hn => absurd hn (Nat.not_lt_zero _)

namespace Inv

variable {h : Helper} (hi : Inv h)

include hi

/-- Two activities of a kind are one. -/
theorem eq_of_kind {a b : Activity} (ha : a∈h.activities) (hb : b∈h.activities)
    (hk : a.kind=b.kind) : a=b :=
  List.inj_on_of_nodup_map hi.kinds ha hb hk

/-- A refused request is answered at once. -/
theorem refuse (kind : Kind) :
    Inv {h.tell h.requests ⟨false,some (.throwable kind.busy)⟩ with
      refusing:=h.refusing+1,requests:=h.requests+1} := by
  have hold : ∀ {n}, n<h.requests → ∀ answer, (h.tell h.requests answer).answers n=h.answers n := by
    intro n hn answer
    rw [answers_tell,if_neg (Nat.ne_of_lt hn)]
  refine ⟨hi.owner,hi.kinds,hi.active,fun hp => Nat.lt_succ_of_lt (hi.below hp),hi.distinct,
    ?_,?_,?_,?_⟩
  · intro n hn
    change (h.tell h.requests _).answers n=[]
    have hlt : h.requests<n := hn
    rw [answers_tell,if_neg (Nat.ne_of_gt hlt)]
    exact hi.unknown (Nat.le_of_lt hlt)
  · intro k n hp hx
    change (h.tell h.requests _).answers n=[] ∨ h.crashed=true ∧
      Settled ((h.tell h.requests _).answers n)
    rw [hold (hi.below hp)]
    exact hi.waiting hp hx
  · intro x hx
    have hn := hi.below (hi.owner _ (hi.active hx))
    change Running x.place ((h.tell h.requests _).answers _)
    rw [hold hn]
    exact hi.running hx
  · intro n hn hp
    change Settled ((h.tell h.requests _).answers n)
    rcases Nat.lt_or_ge n h.requests with hlt|hge
    · rw [hold hlt]
      exact hi.settled hlt hp
    · have he : n=h.requests := Nat.le_antisymm (Nat.le_of_lt_succ hn) hge
      rw [he,answers_tell,if_pos rfl,hi.unknown (Nat.le_refl _)]
      exact .inl ⟨_,rfl⟩

/-- The callback of a request is kept; its activity may be launched. -/
theorem keep {kind : Kind} (hnone : h.pending kind=none) (launched : Bool) :
    Inv {h with
      pending:=Function.update h.pending kind (some h.requests),
      activities:=if launched=true then ⟨h.requests,kind,false⟩::h.activities else h.activities,
      requests:=h.requests+1} := by
  have hupdate : ∀ {k n}, Function.update h.pending kind (some h.requests) k=some n ↔
      k=kind ∧ n=h.requests ∨ k≠kind ∧ h.pending k=some n := by
    intro k n
    by_cases hk : k=kind
    · subst hk
      simp [eq_comm]
    · simp [hk]
  have hother : ∀ a∈h.activities, a.kind≠kind := by
    intro a ha he
    have := hi.owner a ha
    rw [he,hnone] at this
    cases this
  have howner : ∀ a∈h.activities,
      Function.update h.pending kind (some h.requests) a.kind=some a.request := fun a ha =>
    hupdate.mpr (.inr ⟨hother a ha,hi.owner a ha⟩)
  refine ⟨?_,?_,?_,?_,?_,?_,?_,?_,?_⟩
  · intro a ha
    cases launched with
    | false => exact howner a ha
    | true =>
      rcases List.mem_cons.mp ha with rfl|ha
      · exact hupdate.mpr (.inl ⟨rfl,rfl⟩)
      · exact howner a ha
  · cases launched with
    | false => exact hi.kinds
    | true =>
      refine List.nodup_cons.mpr ⟨fun hmem => ?_,hi.kinds⟩
      obtain ⟨a,ha,hk⟩ := List.mem_map.mp hmem
      exact hother a ha hk
  · intro x hx
    cases launched with
    | false => exact hi.active hx
    | true => exact List.mem_cons_of_mem _ (hi.active hx)
  · intro k n hp
    rcases hupdate.mp hp with ⟨-,rfl⟩|⟨-,hp⟩
    · exact Nat.lt_succ_self _
    · exact Nat.lt_succ_of_lt (hi.below hp)
  · intro k k' n hp hp'
    rcases hupdate.mp hp with ⟨rfl,rfl⟩|⟨hk,hp⟩
    · rcases hupdate.mp hp' with ⟨rfl,-⟩|⟨-,hp'⟩
      · rfl
      · exact absurd (hi.below hp') (Nat.lt_irrefl _)
    · rcases hupdate.mp hp' with ⟨-,rfl⟩|⟨-,hp'⟩
      · exact absurd (hi.below hp) (Nat.lt_irrefl _)
      · exact hi.distinct hp hp'
  · exact fun hn => hi.unknown (Nat.le_of_succ_le hn)
  · intro k n hp hx
    rcases hupdate.mp hp with ⟨-,rfl⟩|⟨-,hp⟩
    · exact .inl (hi.unknown (Nat.le_refl _))
    · exact hi.waiting hp hx
  · exact hi.running
  · intro n hn hp
    have hlt : n<h.requests := by
      refine Nat.lt_of_le_of_ne (Nat.le_of_lt_succ hn) (fun he => hp kind ?_)
      exact hupdate.mpr (.inl ⟨rfl,he⟩)
    refine hi.settled hlt (fun k hk => hp k (hupdate.mpr (.inr ⟨fun he => ?_,hk⟩)))
    rw [he,hnone] at hk
    cases hk

/-- A request is refused or kept. -/
theorem request (kind : Kind) (launched : Bool) : Inv (h.request kind launched) := by
  unfold Helper.request
  by_cases hp : h.pending kind=none
  · rw [if_neg (fun hne => hne hp)]
    exact hi.keep hp launched
  · rw [if_pos hp]
    exact hi.refuse kind

/-- The activity of the callback that runs is finished. -/
theorem finish {x : Active} (hx : h.active=some x) : Inv (h.finish x.activity) := by
  have hmem := hi.active hx
  have hown := hi.owner _ hmem
  have hupdate : ∀ {k n}, Function.update h.pending x.activity.kind none k=some n ↔
      k≠x.activity.kind ∧ h.pending k=some n := by
    intro k n
    by_cases hk : k=x.activity.kind
    · subst hk
      simp
    · simp [hk]
  have hnodup : h.activities.Nodup := List.Nodup.of_map _ hi.kinds
  refine ⟨?_,?_,?_,?_,?_,?_,?_,?_,?_⟩
  · intro a ha
    have hne := (hnodup.mem_erase_iff.mp ha).1
    have hold := (hnodup.mem_erase_iff.mp ha).2
    exact hupdate.mpr ⟨fun hk => hne (hi.eq_of_kind hold hmem hk),hi.owner a hold⟩
  · exact hi.kinds.sublist (List.erase_sublist.map _)
  · intro y hy
    cases hy
  · exact fun hp => hi.below (hupdate.mp hp).2
  · exact fun hp hp' => hi.distinct (hupdate.mp hp).2 (hupdate.mp hp').2
  · exact hi.unknown
  · intro k n hp _
    obtain ⟨hk,hp⟩ := hupdate.mp hp
    refine hi.waiting hp (fun {y} hy hn => ?_)
    rw [hx] at hy
    cases hy
    rw [hn] at hown
    exact hk (hi.distinct hp hown)
  · intro y hy
    cases hy
  · intro n hn hp
    by_cases he : n=x.activity.request
    · subst he
      exact (hi.running hx).settled
    · refine hi.settled hn (fun k hk => hp k (hupdate.mpr ⟨fun hkind => he ?_,hk⟩))
      rw [hkind,hown] at hk
      exact (Option.some.inj hk).symm

/-- An activity calls its callback. -/
theorem invoke {a : Activity} (ha : a∈h.activities)
    (hactive : ∀ {x}, h.active=some x → x.activity=a) {place : Place} {answer : Answer}
    (hrun : Running place (h.answers a.request++[answer])) : Inv (h.invoke a place answer) := by
  have hown := hi.owner a ha
  have hanswers : ∀ m, (h.tell a.request answer).answers m=
      if m=a.request then h.answers a.request++[answer] else h.answers m := fun m =>
    answers_tell h a.request m answer
  unfold Helper.invoke
  rw [hown]
  refine ⟨hi.owner,hi.kinds,?_,hi.below,hi.distinct,?_,?_,?_,?_⟩
  · intro x hx
    cases hx
    exact ha
  · intro n hn
    change (h.tell a.request answer).answers n=[]
    have hlt := hi.below hown
    have hne : n≠a.request := fun he => absurd hlt (by rw [←he]; exact Nat.not_lt.mpr hn)
    rw [hanswers,if_neg hne]
    exact hi.unknown hn
  · intro k n hp hx
    change (h.tell a.request answer).answers n=[] ∨ h.crashed=true ∧
      Settled ((h.tell a.request answer).answers n)
    have hne : n≠a.request := fun he => hx rfl he.symm
    rw [hanswers,if_neg hne]
    refine hi.waiting hp (fun {x} hx => ?_)
    rw [hactive hx]
    exact fun he => hne he.symm
  · intro x hx
    cases hx
    change Running place ((h.tell a.request answer).answers a.request)
    rw [hanswers,if_pos rfl]
    exact hrun
  · intro n hn hp
    change Settled ((h.tell a.request answer).answers n)
    have hne : n≠a.request := fun he => hp a.kind (by rw [he]; exact hown)
    rw [hanswers,if_neg hne]
    exact hi.settled hn hp

/-- An activity that is served has not called its callback yet. -/
theorem answers_idle (hc : h.crashed=false) (hnone : h.active=none) {a : Activity}
    (ha : a∈h.activities) : h.answers a.request=[] := by
  have hw := hi.waiting (hi.owner a ha) (fun {x} hx => by rw [hnone] at hx; cases hx)
  exact hw.resolve_right (fun hcrash => by rw [hc] at hcrash; cases hcrash.1)

/-- The activity calls its callback for the first time. -/
theorem invoke_first (hc : h.crashed=false) (hnone : h.active=none) {a : Activity}
    (ha : a∈h.activities) {place : Place} {answer : Answer} (hrun : Running place [answer]) :
    Inv (h.invoke a place answer) := by
  refine hi.invoke ha (fun {x} hx => ?_) ?_
  · rw [hnone] at hx
    cases hx
  · rw [hi.answers_idle hc hnone ha]
    exact hrun

/-- The activity runs its command. -/
theorem command (hc : h.crashed=false) (hnone : h.active=none) {a : Activity}
    (ha : a∈h.activities) (done : Bool) : Inv (h.command a done) := by
  unfold Helper.command
  cases done with
  | true => exact hi.invoke_first hc hnone ha rfl
  | false => exact hi.invoke_first hc hnone ha (.inl rfl)

/-- The activities change, each of them for one of the same kind and request. -/
theorem activities {as : List Activity} (hnone : h.active=none)
    (hsame : ∀ a∈as, ∃ b∈h.activities, b.kind=a.kind ∧ b.request=a.request)
    (hkinds : (as.map Activity.kind).Nodup) : Inv {h with activities:=as} := by
  refine ⟨fun a ha => ?_,hkinds,fun {x} hx => ?_,hi.below,hi.distinct,hi.unknown,hi.waiting,
    hi.running,hi.settled⟩
  · obtain ⟨b,hb,hk,hr⟩ := hsame a ha
    rw [←hk,←hr]
    exact hi.owner b hb
  · rw [show h.active=some x from hx] at hnone
    cases hnone

/-- The activity waits for a result. -/
theorem await (hnone : h.active=none) {a : Activity} (ha : a∈h.activities) : Inv (h.await a) := by
  have hperm := (List.perm_cons_erase ha).map Activity.kind
  refine hi.activities hnone (fun b hb => ?_) (hperm.nodup_iff.mp hi.kinds)
  rcases List.mem_cons.mp hb with rfl|hb
  · exact ⟨a,ha,rfl,rfl⟩
  · exact ⟨b,List.mem_of_mem_erase hb,rfl,rfl⟩

/-- An activity goes away. -/
theorem erase (hnone : h.active=none) (a : Activity) :
    Inv {h with activities:=h.activities.erase a} :=
  hi.activities hnone (fun b hb => ⟨b,List.mem_of_mem_erase hb,rfl,rfl⟩)
    (hi.kinds.sublist (List.erase_sublist.map _))

/-- After a crash only what has been told matters. -/
theorem crash : Inv {h with crashed:=true} :=
  ⟨hi.owner,hi.kinds,hi.active,hi.below,hi.distinct,hi.unknown,
    fun hp hx => (hi.waiting hp hx).imp_right (fun hw => ⟨rfl,hw.2⟩),hi.running,hi.settled⟩

theorem ask (hnone : h.active=none) {a : Activity} (ha : a∈h.activities) (asked : Bool) :
    Inv (h.ask a asked) := by
  cases asked with
  | true => exact hi.await hnone ha
  | false => exact hi.crash

theorem onCreate (hc : h.crashed=false) (hnone : h.active=none) {a : Activity}
    (ha : a∈h.activities) (prepared asked done : Bool) :
    Inv (h.onCreate a prepared asked done) := by
  unfold Helper.onCreate
  split
  · exact hi.ask hnone ha asked
  · cases prepared with
    | true => exact hi.command hc hnone ha done
    | false => exact hi.ask hnone ha asked
  · exact hi.command hc hnone ha done

theorem onActivityResult (hc : h.crashed=false) (hnone : h.active=none) {a : Activity}
    (ha : a∈h.activities) (ok done : Bool) : Inv (h.onActivityResult a ok done) := by
  unfold Helper.onActivityResult
  split
  · exact hi.invoke_first hc hnone ha ⟨_,rfl⟩
  · cases ok with
    | true => exact hi.command hc hnone ha done
    | false => exact hi.invoke_first hc hnone ha ⟨_,rfl⟩
  · cases ok with
    | true => exact hi
    | false => exact hi.erase hnone a

theorem refusing (n : ℕ) : Inv {h with refusing:=n} :=
  ⟨hi.owner,hi.kinds,hi.active,hi.below,hi.distinct,hi.unknown,hi.waiting,hi.running,hi.settled⟩

/-- The callback that runs throws: it is told once more, or the process ends. -/
theorem thrown {x : Active} (hx : h.active=some x) : Inv (h.thrown x) := by
  have hrun := hi.running hx
  have hsame : ∀ {y}, h.active=some y → y.activity=x.activity := by
    intro y hy
    rw [hx] at hy
    cases hy
    rfl
  unfold Helper.thrown
  split
  · rename_i hplace
    rw [hplace] at hrun
    refine hi.invoke (hi.active hx) hsame ?_
    rw [show h.answers x.activity.request=[success] from hrun]
    exact .inr rfl
  · exact (hi.finish hx).crash
  · refine ⟨hi.owner,hi.kinds,fun hy => (by cases hy),hi.below,hi.distinct,hi.unknown,
      fun {k n} hp _ => ?_,fun hy => (by cases hy),hi.settled⟩
    by_cases hn : n=x.activity.request
    · subst hn
      exact .inr ⟨rfl,hrun.settled⟩
    · refine (hi.waiting hp (fun {y} hy => ?_)).imp_right (fun hw => ⟨rfl,hw.2⟩)
      rw [hsame hy]
      exact fun he => hn he.symm

/-- Every step of the main thread keeps the invariant. -/
theorem stepped {ev : Event} {h' : Helper} (hstep : step ev h=some h') : Inv h' := by
  cases ev with
  | request kind launched =>
    obtain ⟨-,hs⟩ := Option.ite_none_right_eq_some.mp hstep
    cases hs
    exact hi.request kind launched
  | create a prepared asked done =>
    obtain ⟨⟨hc,hnone,-,ha,-⟩,hs⟩ := Option.ite_none_right_eq_some.mp hstep
    cases hs
    exact hi.onCreate hc hnone ha prepared asked done
  | result a ok done =>
    obtain ⟨⟨hc,hnone,-,ha,-⟩,hs⟩ := Option.ite_none_right_eq_some.mp hstep
    cases hs
    exact hi.onActivityResult hc hnone ha ok done
  | lost a =>
    obtain ⟨⟨-,hnone,-,-⟩,hs⟩ := Option.ite_none_right_eq_some.mp hstep
    cases hs
    exact hi.erase hnone a
  | returns =>
    simp only [step] at hstep
    split_ifs at hstep with hc hr
    · cases hstep
      exact hi.refusing _
    · obtain ⟨x,hx,rfl⟩ := Option.map_eq_some_iff.mp hstep
      exact hi.finish hx
  | throws =>
    simp only [step] at hstep
    split_ifs at hstep with hc hr
    · cases hstep
      exact hi.refusing _
    · obtain ⟨x,hx,rfl⟩ := Option.map_eq_some_iff.mp hstep
      exact hi.thrown hx

end Inv

/-- The invariant holds on every run. -/
theorem run_inv {evs : List Event} {h : Helper} (run : (System.ofStep step).Run .fresh evs h) :
    Inv h :=
  run.invariant (I:=Inv) (fun _ _ _ hi _ ht => hi.stepped (System.turn_ofStep.mp ht)) inv_fresh

/-- On every run each activity answers the request it was launched for, and the callback of a
request is kept without an answer, or has been told one thing, or a failure after a success on
which it has thrown. No request is lost and none is answered for another one. -/
theorem helper_answers {evs : List Event} {h : Helper}
    (run : (System.ofStep step).Run .fresh evs h) :
    (∀ a∈h.activities, h.pending a.kind=some a.request) ∧
      ∀ n<h.requests, (∃ k, h.pending k=some n) ∧ h.answers n=[] ∨ Settled (h.answers n) := by
  have hi := run_inv run
  refine ⟨hi.owner,fun n hn => ?_⟩
  by_cases hp : ∃ k, h.pending k=some n
  · obtain ⟨k,hk⟩ := hp
    by_cases hx : ∃ x, h.active=some x ∧ x.activity.request=n
    · obtain ⟨x,hx,rfl⟩ := hx
      exact .inr (hi.running hx).settled
    · rcases hi.waiting hk (fun {x} hactive he => hx ⟨x,hactive,he⟩) with hnone|hcrash
      · exact .inl ⟨⟨k,hk⟩,hnone⟩
      · exact .inr hcrash.2
  · exact .inr (hi.settled hn (fun k hk => hp ⟨k,hk⟩))

/-- The proxy is started, the dialog of the system is shown and accepted, and the callback is
called. -/
def sampleEvents : List Event :=
  [Event.request .start true,.create ⟨0,.start,false⟩ false true true,
    .result ⟨0,.start,true⟩ true true]

/-- The callback runs. -/
def sampleRunning : Helper := System.after step .fresh sampleEvents

theorem run_sampleRunning : (System.ofStep step).Run .fresh sampleEvents sampleRunning :=
  System.run_after (by decide +kernel)

theorem helper_answers_sample : sampleRunning.answers 0=[success] ∧
    ((∃ k, sampleRunning.pending k=some 0) ∧ sampleRunning.answers 0=[] ∨
      Settled (sampleRunning.answers 0)) :=
  ⟨by decide +kernel,(helper_answers run_sampleRunning).2 0 (by decide +kernel)⟩

/-- A request that is made while the callback of its kind is kept, is refused. -/
theorem request_refused {h h' : Helper} {kind : Kind} {launched : Bool} {n : ℕ}
    (hp : h.pending kind=some n) (hstep : step (.request kind launched) h=some h') :
    h'.pending=h.pending ∧ h'.activities=h.activities ∧
      h'.told=h.told++[(h.requests,⟨false,some (.throwable kind.busy)⟩)] := by
  obtain ⟨-,hs⟩ := Option.ite_none_right_eq_some.mp hstep
  cases hs
  rw [Helper.request,if_pos (by rw [hp]; exact Option.some_ne_none n)]
  exact ⟨rfl,rfl,rfl⟩

/-- A callback is still kept while it runs: a request of the same kind that it makes is always
refused, whatever it has been told. -/
theorem own_request_refused {evs : List Event} {h h' : Helper} {x : Active} {launched : Bool}
    (run : (System.ofStep step).Run .fresh evs h) (hx : h.active=some x)
    (hstep : step (.request x.activity.kind launched) h=some h') :
    h'.pending=h.pending ∧ h'.activities=h.activities ∧
      h'.told=h.told++[(h.requests,⟨false,some (.throwable x.activity.kind.busy)⟩)] :=
  have hi := run_inv run
  request_refused (hi.owner _ (hi.active hx)) hstep

theorem own_request_refused_sample :
    (sampleRunning.request .start true).told=
      sampleRunning.told++[(1,⟨false,some (.throwable "starting....")⟩)] :=
  (own_request_refused (x:=⟨⟨0,.start,true⟩,.tryBlock⟩) run_sampleRunning (by decide +kernel)
    rfl).2.2

/-- The callback of a request is kept although none of its activities is left. -/
def Orphaned (kind : Kind) (n : ℕ) (h : Helper) : Prop :=
  h.pending kind=some n ∧ ∀ a∈h.activities, a.kind≠kind

section Orphaned

variable {h : Helper} {kind : Kind} {n : ℕ}

theorem Orphaned.finish (ho : Orphaned kind n h) {a : Activity} (hk : a.kind≠kind) :
    Orphaned kind n (h.finish a) := by
  refine ⟨?_,fun b hb => ho.2 b (List.mem_of_mem_erase hb)⟩
  change Function.update h.pending a.kind none kind=some n
  rw [Function.update_of_ne (fun he => hk he.symm)]
  exact ho.1

theorem Orphaned.invoke (ho : Orphaned kind n h) {a : Activity} (hk : a.kind≠kind) (place : Place)
    (answer : Answer) : Orphaned kind n (h.invoke a place answer) := by
  unfold Helper.invoke
  split
  · exact ho.finish hk
  · exact ho

theorem Orphaned.command (ho : Orphaned kind n h) {a : Activity} (hk : a.kind≠kind) (done : Bool) :
    Orphaned kind n (h.command a done) := by
  cases done with
  | true => exact ho.invoke hk _ _
  | false => exact ho.invoke hk _ _

theorem Orphaned.await (ho : Orphaned kind n h) {a : Activity} (hk : a.kind≠kind) :
    Orphaned kind n (h.await a) := by
  refine ⟨ho.1,fun b hb => ?_⟩
  rcases List.mem_cons.mp hb with rfl|hb
  · exact hk
  · exact ho.2 b (List.mem_of_mem_erase hb)

theorem Orphaned.ask (ho : Orphaned kind n h) {a : Activity} (hk : a.kind≠kind) (asked : Bool) :
    Orphaned kind n (h.ask a asked) := by
  cases asked with
  | true => exact ho.await hk
  | false => exact ho

theorem Orphaned.onCreate (ho : Orphaned kind n h) {a : Activity} (hk : a.kind≠kind)
    (prepared asked done : Bool) : Orphaned kind n (h.onCreate a prepared asked done) := by
  unfold Helper.onCreate
  split
  · exact ho.ask hk asked
  · split_ifs
    · exact ho.command hk done
    · exact ho.ask hk asked
  · exact ho.command hk done

theorem Orphaned.erase (ho : Orphaned kind n h) (a : Activity) :
    Orphaned kind n {h with activities:=h.activities.erase a} :=
  ⟨ho.1,fun b hb => ho.2 b (List.mem_of_mem_erase hb)⟩

theorem Orphaned.onActivityResult (ho : Orphaned kind n h) {a : Activity} (hk : a.kind≠kind)
    (ok done : Bool) : Orphaned kind n (h.onActivityResult a ok done) := by
  unfold Helper.onActivityResult
  split
  · exact ho.invoke hk _ _
  · split_ifs
    · exact ho.command hk done
    · exact ho.invoke hk _ _
  · split_ifs
    · exact ho
    · exact ho.erase a

theorem Orphaned.thrown (ho : Orphaned kind n h) {x : Active} (hk : x.activity.kind≠kind) :
    Orphaned kind n (h.thrown x) := by
  unfold Helper.thrown
  split
  · exact ho.invoke hk _ _
  · exact ho.finish hk
  · exact ho

theorem Orphaned.request (ho : Orphaned kind n h) (other : Kind) (launched : Bool) :
    Orphaned kind n (h.request other launched) := by
  unfold Helper.request
  by_cases hp : h.pending other=none
  · have hne : other≠kind := by
      rintro rfl
      rw [ho.1] at hp
      cases hp
    rw [if_neg (fun hsome => hsome hp)]
    refine ⟨?_,fun a ha => ?_⟩
    · change Function.update h.pending other (some h.requests) kind=some n
      rw [Function.update_of_ne (fun he => hne he.symm)]
      exact ho.1
    · cases launched with
      | false => exact ho.2 a ha
      | true =>
        rcases List.mem_cons.mp ha with rfl|ha
        · exact hne
        · exact ho.2 a ha
  · rw [if_pos hp]
    exact ho

/-- No step of the main thread forgets the callback. -/
theorem Orphaned.stepped {ev : Event} {h' : Helper} (ho : Orphaned kind n h) (hi : Inv h)
    (hstep : step ev h=some h') : Orphaned kind n h' := by
  have hactive : ∀ {x}, h.active=some x → x.activity.kind≠kind := fun hx => ho.2 _ (hi.active hx)
  cases ev with
  | request other launched =>
    obtain ⟨-,hs⟩ := Option.ite_none_right_eq_some.mp hstep
    cases hs
    exact ho.request other launched
  | create a prepared asked done =>
    obtain ⟨⟨-,-,-,ha,-⟩,hs⟩ := Option.ite_none_right_eq_some.mp hstep
    cases hs
    exact ho.onCreate (ho.2 a ha) prepared asked done
  | result a ok done =>
    obtain ⟨⟨-,-,-,ha,-⟩,hs⟩ := Option.ite_none_right_eq_some.mp hstep
    cases hs
    exact ho.onActivityResult (ho.2 a ha) ok done
  | lost a =>
    obtain ⟨-,hs⟩ := Option.ite_none_right_eq_some.mp hstep
    cases hs
    exact ho.erase a
  | returns =>
    simp only [step] at hstep
    split_ifs at hstep
    · cases hstep
      exact ho
    · obtain ⟨x,hx,rfl⟩ := Option.map_eq_some_iff.mp hstep
      exact ho.finish (hactive hx)
  | throws =>
    simp only [step] at hstep
    split_ifs at hstep
    · cases hstep
      exact ho
    · obtain ⟨x,hx,rfl⟩ := Option.map_eq_some_iff.mp hstep
      exact ho.thrown (hactive hx)

end Orphaned

/-- Once the activity of a request could not be launched or has gone away without an answer,
every later request of its kind is refused, on every run. -/
theorem orphan_blocks {evs more : List Event} {h h' h'' : Helper} {kind : Kind} {n : ℕ}
    {launched : Bool} (run : (System.ofStep step).Run .fresh evs h) (ho : Orphaned kind n h)
    (later : (System.ofStep step).Run h more h')
    (hstep : step (.request kind launched) h'=some h'') :
    h''.told=h'.told++[(h'.requests,⟨false,some (.throwable kind.busy)⟩)] := by
  have hkept := later.invariant (I:=fun h => Inv h ∧ Orphaned kind n h)
    (fun _ _ _ hi _ ht =>
      have hs := System.turn_ofStep.mp ht
      ⟨hi.1.stepped hs,hi.2.stepped hi.1 hs⟩) ⟨run_inv run,ho⟩
  exact (request_refused hkept.2.1 hstep).2.2

/-- A request whose activity could not be launched. -/
def sampleOrphan : Helper := Helper.fresh.request .start false

/-- Later the proxy is stopped. -/
def sampleLater : List Event :=
  [Event.request .stop true,.create ⟨1,.stop,false⟩ true true true,.returns]

theorem orphan_blocks_sample :
    ((System.after step sampleOrphan sampleLater).request .start true).told=
      [(1,success),(2,⟨false,some (.throwable "starting....")⟩)] := by
  have hrun : (System.ofStep step).Run .fresh [Event.request .start false] sampleOrphan :=
    System.run_ofStep rfl
  have hlater : (System.ofStep step).Run sampleOrphan sampleLater
      (System.after step sampleOrphan sampleLater) := System.run_after (by decide +kernel)
  have horphan : Orphaned .start 0 sampleOrphan := ⟨by decide,by decide⟩
  have htold : ((System.after step sampleOrphan sampleLater).request .start true).told=
      (System.after step sampleOrphan sampleLater).told++
        [((System.after step sampleOrphan sampleLater).requests,
          ⟨false,some (.throwable "starting....")⟩)] := orphan_blocks hrun horphan hlater rfl
  rw [htold]
  decide +kernel

end ProxyDroid.HelperRequests
