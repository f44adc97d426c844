import Mathlib.Data.Int.Notation
import ProxyDroid.CallSemantics

/-!
# Handing the VPN descriptor to the tunnel process

The service and `tun2socks` meet at a Unix socket. The process binds the socket, accepts
connections until it has received a descriptor, and closes the socket. The service connects and
sends the descriptor of the VPN, at most ten times with growing pauses: the main thread does so
for the first process and the guard thread for every process that is started again. Both sides
run concurrently and the process may end at any time. A process that waits for its descriptor
always has a sender that still tries, until that sender has given up after its pauses.
-/

namespace ProxyDroid.DescriptorHandover

open CallSemantics

/-- What `recvmsg` does on an accepted connection. -/
inductive Recvmsg where
  | failed
  /-- It returns, with the descriptor of the message, if there is one: a connection that is closed
  without a message leaves the control buffer as it has been prepared. -/
  | returned (descriptor : Option ℤ)

/-- `ancil_recv_fd`. The control buffer is prepared with one descriptor, `-1`, and its length is
read back from the buffer. -/
def ancilRecvFd : Recvmsg → Option ℤ
  | .failed => none
  | .returned descriptor => some (descriptor.getD (-1))

/-- Where the process is in `main`. -/
inductive Process where
  /-- There is no process. -/
  | absent
  /-- It has not bound the socket yet. -/
  | starting
  /-- It is in the loop around `accept`, with what has been sent on the connections that it has
  not accepted. -/
  | listening (queue : List (Option ℤ))
  /-- It has received a descriptor. -/
  | running (fd : ℤ)
  deriving DecidableEq

/-- A call of `sendFd`, with the pauses it has made in milliseconds. -/
inductive Sender where
  | idle
  | sending (tries waited : ℕ)
  | ended (result : Bool) (waited : ℕ)
  deriving DecidableEq

/-- How a call of `JniHelper.sendFd` ends when the process listens. -/
inductive Outcome where
  /-- `socket` fails. -/
  | noSocket
  /-- `ancil_send_fd` fails and the connection is closed. -/
  | notSent
  /-- The descriptor is sent. -/
  | sent
  deriving DecidableEq

/-- The threads that call `sendFd`. -/
inductive Caller where
  | main
  | guard
  deriving DecidableEq

/-- The two sides. -/
structure Handover where
  /-- How many processes have been started. -/
  generation : ℕ
  /-- The last of them. -/
  process : Process
  /-- `sendFd` on the main thread. -/
  main : Sender
  /-- `sendFd` in the callback of the guard thread. -/
  guard : Sender
  deriving DecidableEq

namespace Handover

variable (s : Handover)

/-- Before `processes.start`. -/
def fresh : Handover := ⟨0,.absent,.idle,.idle⟩

/-- The call of a thread. -/
def sender : Caller → Sender
  | .main => s.main
  | .guard => s.guard

/-- A thread goes on in its call. -/
def setSender (caller : Caller) (sender : Sender) : Handover :=
  match caller with
  | .main => {s with main:=sender}
  | .guard => {s with guard:=sender}

/-- The guard thread starts a process. The first one lets `processes.start` return to the main
thread; each further one is followed by the callback. -/
def spawn : Handover :=
  if s.generation=0 then {s with generation:=1,process:=.starting,main:=.sending 0 0}
  else {s with generation:=s.generation+1,process:=.starting,guard:=.sending 0 0}

/-- The thread that sends to the last process. -/
def responsible : Caller := if s.generation≤1 then .main else .guard

end Handover

/-- The pause before a try. -/
def pause (tries : ℕ) : ℕ := 30 <<< tries

/-- `sendFd` behind a try that has failed. -/
def failed (tries waited : ℕ) : Sender :=
  if tries+1<10 then .sending (tries+1) (waited+pause tries) else .ended false (waited+pause tries)

/-- What happens next. -/
inductive Event where
  /-- The guard thread starts a process. -/
  | spawn
  /-- The process binds the socket and listens. -/
  | listen
  /-- A thread makes a pause and tries to send the descriptor. -/
  | attempt (caller : Caller) (outcome : Outcome)
  /-- The process accepts a connection; `recvmsg` works or fails. -/
  | accept (works : Bool)
  /-- The process ends. -/
  | exit
  deriving DecidableEq

/-- One step, for the descriptor of the VPN. A connection waits while the backlog is full, and
the guard thread starts the next process when its callback has returned. -/
def step (fd : ℤ) : Event → Handover → Option Handover
  | .spawn,s =>
    match s.process,s.guard with
    | .absent,.idle | .absent,.ended _ _ => some s.spawn
    | _,_ => none
  | .listen,s => if s.process=.starting then some {s with process:=.listening []} else none
  | .attempt caller outcome,s =>
    match s.sender caller,s.process with
    | .sending tries waited,.listening queue =>
      match outcome with
      | .noSocket => some (s.setSender caller (failed tries waited))
      | .notSent =>
        if queue.length≤5 then
          some (({s with process:=.listening (queue++[none])} : Handover).setSender caller
            (failed tries waited))
        else none
      | .sent =>
        if queue.length≤5 then
          some (({s with process:=.listening (queue++[some fd])} : Handover).setSender caller
            (.ended true (waited+pause tries)))
        else none
    | .sending tries waited,_ => some (s.setSender caller (failed tries waited))
    | _,_ => none
  | .accept works,s =>
    match s.process with
    | .listening (message::queue) =>
      match ancilRecvFd (if works=true then .returned message else .failed) with
      | none => some {s with process:=.listening queue}
      | some received => some {s with process:=.running received}
    | _ => none
  | .exit,s => if s.process≠.absent then some {s with process:=.absent} else none

/-- The pauses of a call double; ten of them make 30690 milliseconds. -/
def Timely : Sender → Prop
  | .idle => True
  | .sending tries waited => tries<10 ∧ waited+30=pause tries
  | .ended result waited => result=false → waited=30690

/-- A call that has not sent the descriptor. -/
def Unsent : Sender → Prop
  | .idle => False
  | .sending _ _ => True
  | .ended result _ => result=false

theorem timely_failed {tries waited : ℕ} (h : Timely (.sending tries waited)) :
    Timely (failed tries waited) := by
  obtain ⟨hlt,hw⟩ := h
  have hnext : pause (tries+1)=2*pause tries := Nat.shiftLeft_succ 30 tries
  unfold failed
  by_cases hmore : tries+1<10
  · rw [if_pos hmore]
    exact ⟨hmore,by omega⟩
  · rw [if_neg hmore]
    intro _
    have hlast : tries=9 := by omega
    have hpause : pause 9=15360 := rfl
    subst hlast
    omega

theorem unsent_failed (tries waited : ℕ) : Unsent (failed tries waited) := by
  unfold failed
  split_ifs
  · trivial
  · rfl

@[simp] theorem setSender_process (s : Handover) (caller : Caller) (sender : Sender) :
    (s.setSender caller sender).process=s.process := by
  cases caller with
  | main => rfl
  | guard => rfl

/-- What holds of the calls on every run. -/
structure Calls (s : Handover) : Prop where
  main : Timely s.main
  guard : Timely s.guard
  /-- The guard thread does not call before a process is started again. -/
  first : s.generation≤1 → s.guard=.idle

theorem Calls.timely {s : Handover} (h : Calls s) (caller : Caller) : Timely (s.sender caller) := by
  cases caller with
  | main => exact h.main
  | guard => exact h.guard

/-- A thread goes on in its call. -/
theorem Calls.setSender {s : Handover} (h : Calls s) {caller : Caller} {sender : Sender}
    (ht : Timely sender) (hbusy : s.sender caller≠.idle) (process : Process) :
    Calls (({s with process:=process} : Handover).setSender caller sender) := by
  cases caller with
  | main => exact ⟨ht,h.guard,h.first⟩
  | guard => exact ⟨h.main,ht,fun hg => absurd (h.first hg) hbusy⟩

/-- What can happen when a thread tries: the call goes on or ends, and the process may find a
connection. -/
theorem attempt_cases {fd : ℤ} {s s' : Handover} {caller : Caller} {outcome : Outcome}
    (h : step fd (.attempt caller outcome) s=some s') :
    ∃ tries waited, s.sender caller=.sending tries waited ∧
      (s'=s.setSender caller (failed tries waited) ∨
        ∃ queue, s.process=.listening queue ∧
          (outcome=.notSent ∧
              s'=({s with process:=.listening (queue++[none])} : Handover).setSender caller
                (failed tries waited) ∨
            outcome=.sent ∧
              s'=({s with process:=.listening (queue++[some fd])} : Handover).setSender caller
                (.ended true (waited+pause tries)))) := by
  simp only [step] at h
  split at h
  · rename_i tries waited queue hs hp
    refine ⟨tries,waited,hs,?_⟩
    cases outcome with
    | noSocket =>
      cases h
      exact .inl rfl
    | notSent =>
      obtain ⟨-,hc⟩ := Option.ite_none_right_eq_some.mp h
      cases hc
      exact .inr ⟨queue,hp,.inl ⟨rfl,rfl⟩⟩
    | sent =>
      obtain ⟨-,hc⟩ := Option.ite_none_right_eq_some.mp h
      cases hc
      exact .inr ⟨queue,hp,.inr ⟨rfl,rfl⟩⟩
  · rename_i tries waited hs _
    cases h
    exact ⟨tries,waited,hs,.inl rfl⟩
  · cases h

/-- What can happen when the process accepts. -/
theorem accept_cases {fd : ℤ} {s s' : Handover} {works : Bool}
    (h : step fd (.accept works) s=some s') :
    ∃ message queue, s.process=.listening (message::queue) ∧
      s'={s with process:=
        if works=true then .running (message.getD (-1)) else .listening queue} := by
  simp only [step] at h
  split at h
  · rename_i message queue hp
    refine ⟨message,queue,hp,?_⟩
    cases works with
    | true =>
      cases h
      rfl
    | false =>
      cases h
      rfl
  · cases h

/-- The guard thread starts a process when there is none. -/
theorem spawn_cases {fd : ℤ} {s s' : Handover} (h : step fd .spawn s=some s') : s'=s.spawn := by
  simp only [step] at h
  split at h
  · cases h
    rfl
  · cases h
    rfl
  · cases h

theorem Calls.stepped {fd : ℤ} {s s' : Handover} {ev : Event} (h : Calls s)
    (hstep : step fd ev s=some s') : Calls s' := by
  cases ev with
  | spawn =>
    rw [spawn_cases hstep]
    unfold Handover.spawn
    by_cases hg : s.generation=0
    · rw [if_pos hg]
      exact ⟨⟨by decide,rfl⟩,h.guard,fun _ => h.first (by omega)⟩
    · rw [if_neg hg]
      refine ⟨h.main,⟨by decide,rfl⟩,fun hle => ?_⟩
      have : s.generation+1≤1 := hle
      omega
  | listen =>
    obtain ⟨-,hc⟩ := Option.ite_none_right_eq_some.mp hstep
    cases hc
    exact ⟨h.main,h.guard,h.first⟩
  | attempt caller outcome =>
    obtain ⟨tries,waited,hs,hcase⟩ := attempt_cases hstep
    have htimely := h.timely caller
    rw [hs] at htimely
    have hended : Timely (.ended true (waited+pause tries)) := fun hf => (by cases hf)
    have hbusy : s.sender caller≠.idle := by
      rw [hs]
      exact fun hc => (by cases hc)
    rcases hcase with rfl|⟨queue,-,⟨-,rfl⟩|⟨-,rfl⟩⟩
    · exact h.setSender (timely_failed htimely) hbusy s.process
    · exact h.setSender (timely_failed htimely) hbusy _
    · exact h.setSender hended hbusy _
  | accept works =>
    obtain ⟨message,queue,-,rfl⟩ := accept_cases hstep
    exact ⟨h.main,h.guard,h.first⟩
  | exit =>
    obtain ⟨-,hc⟩ := Option.ite_none_right_eq_some.mp hstep
    cases hc
    exact ⟨h.main,h.guard,h.first⟩

/-- Everything that is sent, and what is received, meets a condition. -/
def Descriptors (good : Option ℤ → Prop) (s : Handover) : Prop :=
  match s.process with
  | .absent | .starting => True
  | .listening queue => ∀ message∈queue, good message
  | .running x => ∃ message, good message ∧ x=message.getD (-1)

/-- The service has connected to the process and fails to send. -/
def FailsToSend (s : Handover) (ev : Event) : Prop :=
  ∃ caller queue, ev=.attempt caller .notSent ∧ s.process=.listening queue

/-- What is received has been sent. -/
theorem Descriptors.stepped {good : Option ℤ → Prop} {fd : ℤ} {s s' : Handover} {ev : Event}
    (h : Descriptors good s) (hsent : good (some fd))
    (hnot : FailsToSend s ev → good none)
    (hstep : step fd ev s=some s') : Descriptors good s' := by
  cases ev with
  | spawn =>
    rw [spawn_cases hstep]
    unfold Handover.spawn
    split_ifs
    · trivial
    · trivial
  | listen =>
    obtain ⟨-,hc⟩ := Option.ite_none_right_eq_some.mp hstep
    cases hc
    exact fun message hm => (by cases hm)
  | attempt caller outcome =>
    have happend : ∀ {queue : List (Option ℤ)} {message : Option ℤ},
        s.process=.listening queue → good message → ∀ m∈queue++[message], good m := by
      intro queue message hp hgood m hm
      unfold Descriptors at h
      rw [hp] at h
      rcases List.mem_append.mp hm with hold|hnew
      · exact h m hold
      · rw [List.mem_singleton.mp hnew]
        exact hgood
    obtain ⟨tries,waited,-,hcase⟩ := attempt_cases hstep
    unfold Descriptors
    rcases hcase with rfl|⟨queue,hp,⟨rfl,rfl⟩|⟨-,rfl⟩⟩
    · rw [setSender_process]
      exact h
    · rw [setSender_process]
      exact happend hp (hnot ⟨caller,queue,rfl,hp⟩)
    · rw [setSender_process]
      exact happend hp hsent
  | accept works =>
    obtain ⟨message,queue,hp,rfl⟩ := accept_cases hstep
    unfold Descriptors at h
    rw [hp] at h
    cases works with
    | true => exact ⟨message,h message List.mem_cons_self,rfl⟩
    | false => exact fun m hm => h m (List.mem_cons_of_mem message hm)
  | exit =>
    obtain ⟨-,hc⟩ := Option.ite_none_right_eq_some.mp hstep
    cases hc
    trivial

/-- A process that has received a descriptor has the one of the VPN, or `-1`; and `-1` only if
the service has connected and then failed to send, which the process takes for a descriptor. -/
theorem received_is_sent {fd : ℤ} {evs : List Event} {s : Handover} {x : ℤ}
    (h : (System.ofStep (step fd)).Run .fresh evs s) (hx : s.process=.running x) :
    x=fd ∨ x=-1 ∧ ∃ before ev after s₁, evs=before++ev::after ∧
      (System.ofStep (step fd)).Run .fresh before s₁ ∧ FailsToSend s₁ ev := by
  have hgood : ∀ {good : Option ℤ → Prop}, Descriptors good s → ∃ message, good message ∧
      x=message.getD (-1) := by
    intro good hd
    unfold Descriptors at hd
    rwa [hx] at hd
  rcases h.under_or_breaks (fun s ev => ¬FailsToSend s ev) with
    hsends|⟨before,ev,after,s₁,hevs,hbefore,hfails⟩
  · have hd := hsends.invariant (I:=Descriptors (fun m => m=some fd))
      (fun _ _ _ hd hok ht => hd.stepped rfl (fun hc => absurd hc hok) (System.turn_ofStep.mp ht))
      trivial
    obtain ⟨message,rfl,hm⟩ := hgood hd
    exact .inl hm
  · have hd := h.invariant (I:=Descriptors (fun m => m=some fd ∨ m=none))
      (fun _ _ _ hd _ ht => hd.stepped (.inl rfl) (fun _ => .inr rfl) (System.turn_ofStep.mp ht))
      trivial
    obtain ⟨message,rfl|rfl,hm⟩ := hgood hd
    · exact .inl hm
    · exact .inr ⟨hm,before,ev,after,s₁,hevs,hbefore,not_not.mp hfails⟩

/-- The service connects but fails to send. -/
def sampleLost : List Event := [Event.spawn,.listen,.attempt .main .notSent,.accept true]

theorem received_is_sent_sample :
    (System.after (step 42) .fresh sampleLost).process=.running (-1) ∧
      ((-1 : ℤ)=42 ∨ (-1 : ℤ)=-1 ∧ ∃ before ev after s₁, sampleLost=before++ev::after ∧
        (System.ofStep (step 42)).Run .fresh before s₁ ∧ FailsToSend s₁ ev) :=
  ⟨by decide +kernel,received_is_sent (System.run_after (by decide +kernel)) (by decide +kernel)⟩

theorem sender_setSender (s : Handover) (caller other : Caller) (sender : Sender) :
    (s.setSender caller sender).sender other=if other=caller then sender else s.sender other := by
  cases caller with
  | main =>
    cases other with
    | main => rfl
    | guard => rfl
  | guard =>
    cases other with
    | main => rfl
    | guard => rfl

theorem responsible_setSender (s : Handover) (caller : Caller) (sender : Sender) :
    (s.setSender caller sender).responsible=s.responsible := by
  cases caller with
  | main => rfl
  | guard => rfl

/-- The process has nothing to receive. -/
def Handover.Waiting (s : Handover) : Prop := s.process=.starting ∨ s.process=.listening []

/-- While the process waits, the call for it has not ended with success. -/
def Served (s : Handover) : Prop := s.Waiting → Unsent (s.sender s.responsible)

theorem served_fresh : Served .fresh := by
  rintro (hw|hw)
  · cases hw
  · cases hw

theorem Served.stepped {fd : ℤ} {s s' : Handover} {ev : Event} (h : Served s)
    (hok : ev≠.accept false) (hstep : step fd ev s=some s') : Served s' := by
  cases ev with
  | spawn =>
    rw [spawn_cases hstep]
    intro _
    unfold Handover.spawn Handover.responsible
    by_cases hg : s.generation=0
    · rw [if_pos hg]
      trivial
    · rw [if_neg hg]
      have hne : ¬s.generation+1≤1 := by omega
      simp only [if_neg hne]
      trivial
  | listen =>
    obtain ⟨hp,hc⟩ := Option.ite_none_right_eq_some.mp hstep
    cases hc
    exact fun _ => h (.inl hp)
  | attempt caller outcome =>
    obtain ⟨tries,waited,-,hcase⟩ := attempt_cases hstep
    -- A connection that has come in is something to receive.
    have hfull : ∀ {queue : List (Option ℤ)} {message : Option ℤ} {sender : Sender},
        Served (({s with process:=.listening (queue++[message])} : Handover).setSender caller
          sender) := by
      intro queue message sender hw
      unfold Handover.Waiting at hw
      rw [setSender_process] at hw
      rcases hw with hw|hw
      · cases hw
      · exact absurd (Process.listening.inj hw) (by simp)
    rcases hcase with rfl|⟨queue,-,⟨-,rfl⟩|⟨-,rfl⟩⟩
    · intro hw
      unfold Handover.Waiting at hw
      rw [setSender_process] at hw
      rw [responsible_setSender,sender_setSender]
      split_ifs
      · exact unsent_failed tries waited
      · exact h hw
    · exact hfull
    · exact hfull
  | accept works =>
    cases works with
    | false => exact absurd rfl hok
    | true =>
      obtain ⟨message,queue,-,rfl⟩ := accept_cases hstep
      rintro (hw|hw)
      · cases hw
      · cases hw
  | exit =>
    obtain ⟨-,hc⟩ := Option.ite_none_right_eq_some.mp hstep
    cases hc
    rintro (hw|hw)
    · cases hw
    · cases hw

/-- A listening process without connections receives the descriptor if the next try works. -/
theorem delivers {fd : ℤ} {s : Handover} {caller : Caller} {tries waited : ℕ}
    (hs : s.sender caller=.sending tries waited) (hp : s.process=.listening []) :
    ∃ s', (System.ofStep (step fd)).Run s [.attempt caller .sent,.accept true] s' ∧
      s'.process=.running fd := by
  refine ⟨{({s with process:=.listening [some fd]} : Handover).setSender caller
      (.ended true (waited+pause tries)) with process:=.running fd},System.run_ofStep ?_,rfl⟩
  have hattempt : step fd (.attempt caller .sent) s=
      some (({s with process:=.listening [some fd]} : Handover).setSender caller
        (.ended true (waited+pause tries))) := by
    simp only [step,hs,hp]
    rfl
  rw [List.foldlM_cons,hattempt]
  change step fd (.accept true) _ >>= _=_
  simp only [step,setSender_process]
  rfl

/-- What a process that waits has to do before it can be connected to. -/
def Handover.binding (s : Handover) : List Event := if s.process=.starting then [.listen] else []

/-- As long as `recvmsg` works, a process that waits for its descriptor has a sender: the call
made for it still tries, and once the process listens, its next try hands the descriptor over if
it works, or it has given up after ten tries and pauses of 30690 milliseconds. -/
theorem waiting_has_sender {fd : ℤ} {evs : List Event} {s : Handover}
    (h : (System.ofStep (step fd)).RunUnder (fun _ ev => ev≠.accept false) .fresh evs s)
    (hw : s.Waiting) :
    s.sender s.responsible=.ended false 30690 ∨
      ∃ tries waited, s.sender s.responsible=.sending tries waited ∧ tries<10 ∧
        ∃ s', (System.ofStep (step fd)).Run s
            (s.binding++[.attempt s.responsible .sent,.accept true]) s' ∧
          s'.process=.running fd := by
  obtain ⟨hcalls,hserved⟩ := h.invariant (I:=fun s => Calls s ∧ Served s)
    (fun _ _ _ hi hok ht =>
      have hs := System.turn_ofStep.mp ht
      ⟨hi.1.stepped hs,hi.2.stepped hok hs⟩)
    ⟨⟨trivial,trivial,fun _ => rfl⟩,served_fresh⟩
  have hunsent := hserved hw
  have htimely := hcalls.timely s.responsible
  cases hs : s.sender s.responsible with
  | idle =>
    rw [hs] at hunsent
    exact hunsent.elim
  | ended result waited =>
    rw [hs] at hunsent htimely
    have hresult : result=false := hunsent
    subst hresult
    exact .inl (by rw [show waited=30690 from htimely rfl])
  | sending tries waited =>
    rw [hs] at htimely
    refine .inr ⟨tries,waited,rfl,htimely.1,?_⟩
    have hbind : (System.ofStep (step fd)).Run s s.binding {s with process:=.listening []} := by
      refine System.run_ofStep ?_
      rcases hw with hp|hp
      · simp [Handover.binding,step,hp]
      · have hbound : {s with process:=.listening []}=s := by rw [←hp]
        have hnone : s.binding=[] := by simp [Handover.binding,hp]
        rw [hbound,hnone]
        rfl
    have hsender : ({s with process:=.listening []} : Handover).sender s.responsible=
        .sending tries waited := hs
    obtain ⟨s',hrun,hdone⟩ := delivers hsender rfl
    exact ⟨s',hbind.trans hrun,hdone⟩

/-- The process is started again after it has received the descriptor. -/
def sampleRestart : List Event :=
  [Event.spawn,.listen,.attempt .main .sent,.accept true,.exit,.spawn,.attempt .guard .sent,.listen]

theorem waiting_has_sender_sample :
    (System.after (step 42) .fresh sampleRestart).sender .guard=.ended false 30690 ∨
      ∃ tries waited, (System.after (step 42) .fresh sampleRestart).sender .guard=
          .sending tries waited ∧ tries<10 ∧
        ∃ s', (System.ofStep (step 42)).Run (System.after (step 42) .fresh sampleRestart)
            ((System.after (step 42) .fresh sampleRestart).binding++
              [.attempt .guard .sent,.accept true]) s' ∧
          s'.process=.running 42 := by
  have hrun : (System.ofStep (step 42)).Run .fresh sampleRestart
      (System.after (step 42) .fresh sampleRestart) := System.run_after (by decide +kernel)
  have hworks := System.RunUnder.of_events (P:=fun ev => ev≠.accept false) hrun (by decide +kernel)
  exact waiting_has_sender hworks (.inr (by decide +kernel))

end ProxyDroid.DescriptorHandover
