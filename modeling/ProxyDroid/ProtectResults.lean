import ProxyDroid.ProtectRuns

/-!
# What the protect protocol guarantees

The constructor of a channel returns with its socket confirmed exactly when
nothing has failed for it, since it goes on after every failure. The listener
thread is back in `accept` after its clients exactly when no client has made
it throw what it does not catch.
-/

namespace ProxyDroid.ProtectResults

open CallSemantics ProtectProtocol ProtectRuns

variable {s s' : Net} {device : Device} {t : Step} {i : ℕ}

section Channels

theorem going_fresh (i : ℕ) : Going Net.fresh i := .fresh (.inl rfl) (by simp [Net.fresh])

/-- A constructor that has returned on its way has its socket confirmed. -/
theorem confirmed_of_going (hg : Going s i) (hpc : (s.channels i).pc=.returned) :
    (s.channels i).confirmed=true := by
  cases hg with
  | answered h =>
    rcases h with h|h
    · rw [hpc] at h
      cases h
    · exact h.2
  | fresh h | unsent h => rw [hpc] at h; simp at h
  | sent h | served h | threw h => rw [hpc] at h; cases h

/-- A constructor that has returned from a failure has not. -/
theorem unconfirmed_of_doomed (hd : Doomed s i ∨ (s.channels i).pc=.threw)
    (hpc : (s.channels i).pc=.returned) : (s.channels i).confirmed=false := by
  rcases hd with (h|h)|h
  · exact h.2
  · have hpending := h.1
    rw [hpc] at hpending
    simp at hpending
  · rw [hpc] at h
    cases h

/-- What is confirmed is protected. -/
def Recorded (s : Net) : Prop :=
  ∀ i, (s.channels i).confirmed=true → (.socket i,0)∈s.answers

theorem Recorded.acts (h : Recorded s) (ha : Acts device s t s') : Recorded s' := by
  intro k hk
  cases ha with
  | listener hs =>
    rw [serves_channels hs] at hk
    exact serves_answers hs (h k hk)
  | stopThread | collect | connect | send | close => exact h k hk
  | @channel j outcome s' hs =>
    cases hs with
    | start | connect | refused | found | nullMethod | send =>
      refine h k ?_
      by_cases hkj : k=j
      · subst hkj
        simpa [Net.setChannel,Net.enqueue,Net.push,Net.setLink] using hk
      · simpa [Net.setChannel,Net.enqueue,Net.push,Net.setLink,Function.update_of_ne hkj] using hk
    | unguarded | missing | inaccessible | unsent | answered | unheard =>
      by_cases hkj : k=j
      · subst hkj
        simpa [Net.returns] using hk
      · exact h k (by simpa [Net.returns,Function.update_of_ne hkj] using hk)

/-- With `protectPath` set, a constructor that has returned normally had its
socket confirmed, and thereby protected, exactly when nothing failed for it on
the way: it goes on to return after every failure. -/
theorem channel_protected_iff (hp : device.protectPath=true) {steps : List Step}
    (hrun : (protocol device).Run Net.fresh steps s) (hreturned : (s.channels i).pc=.returned) :
    ((s.channels i).confirmed=true ↔
      (protocol device).RunUnder (fun s t => ¬Fault device i s t) Net.fresh steps s) ∧
    ((s.channels i).confirmed=true → .socket i∈s.secured) := by
  have hstart : (Sound Net.fresh ∧ Unconnected Net.fresh) ∧ Going Net.fresh i :=
    ⟨⟨sound_fresh,fun _ _ => rfl⟩,going_fresh i⟩
  have hkeep : ∀ s t s', (Sound s ∧ Unconnected s) ∧ Going s i → ¬Fault device i s t →
      (protocol device).Turn s t s' → (Sound s' ∧ Unconnected s') ∧ Going s' i := by
    intro s t s' hs hok ht
    have ha := step_acts (System.turn_ofStep.mp ht)
    exact ⟨⟨hs.1.1.acts hs.1.2 ha,hs.1.2.acts hs.1.1 ha⟩,hs.2.acts hp hs.1.1 hs.1.2 hok ha⟩
  have hbreach : ((protocol device).RunUnder (fun s t => ¬Fault device i s t) Net.fresh steps s ∧
      ((Sound s ∧ Unconnected s) ∧ Going s i)) ∨
      ((Sound s ∧ Unconnected s) ∧ (Doomed s i ∨ (s.channels i).pc=.threw)) := by
    refine hrun.breach (I:=fun s => (Sound s ∧ Unconnected s) ∧ Going s i)
      (B:=fun s => (Sound s ∧ Unconnected s) ∧ (Doomed s i ∨ (s.channels i).pc=.threw))
      (fun s t s' hs _ hok ht => hkeep s t s' hs hok ht) ?_ ?_ hstart
    · intro s t s' hs _ hfault ht
      have ha := step_acts (System.turn_ofStep.mp ht)
      exact ⟨⟨hs.1.1.acts hs.1.2 ha,hs.1.2.acts hs.1.1 ha⟩,
        hs.2.fault hs.1.1 hs.1.2 (not_not.mp hfault) ha⟩
    · intro s t s' hs _ ht
      have ha := step_acts (System.turn_ofStep.mp ht)
      exact ⟨⟨hs.1.1.acts hs.1.2 ha,hs.1.2.acts hs.1.1 ha⟩,doomed_acts hs.1.1 hs.2 ha⟩
  have hrecorded : Recorded s := by
    refine hrun.invariant (fun _ _ _ h _ ht => h.acts (step_acts (System.turn_ofStep.mp ht))) ?_
    intro k hk
    cases hk
  refine ⟨⟨fun hconfirmed => ?_,fun hunder => ?_⟩,fun hconfirmed => ?_⟩
  · rcases hbreach with ⟨hunder,-⟩|⟨-,hdoomed⟩
    · exact hunder
    · rw [unconfirmed_of_doomed hdoomed hreturned] at hconfirmed
      cases hconfirmed
  · exact confirmed_of_going (hunder.invariant hkeep hstart).2 hreturned
  · exact (sound_run hstart.1 hrun).1.confirmed _ (hrecorded i hconfirmed)

/-- The state after the given steps on it. -/
def sampleAfter (s : Net) (steps : List Step) : Net := System.after (step sampleDevice) s steps

/-- A channel connects and sends its descriptor; the worker asks for protection
with the given outcome and answers; the constructor returns. -/
def asking (choice : Choice) : List Step :=
  List.replicate 2 (Step.listener .proceed)++List.replicate 4 (Step.channel 0 .proceed)++
    List.replicate 3 (Step.listener .proceed)++[Step.listener choice,.listener .proceed,.channel 0 .proceed]

/-- A channel whose socket is protected. -/
theorem channel_protected_asking :
    (sampleAfter Net.fresh (asking .proceed)).channels 0=⟨.returned,true⟩ ∧
    .socket 0∈(sampleAfter Net.fresh (asking .proceed)).secured ∧
    (protocol sampleDevice).RunUnder (fun s t => ¬Fault sampleDevice 0 s t) Net.fresh
      (asking .proceed) (sampleAfter Net.fresh (asking .proceed)) := by
  have hreturned : (sampleAfter Net.fresh (asking .proceed)).channels 0=⟨.returned,true⟩ := by
    decide
  have hrun : (protocol sampleDevice).Run Net.fresh (asking .proceed)
      (sampleAfter Net.fresh (asking .proceed)) := System.run_after (by decide)
  have hall := channel_protected_iff rfl hrun (congrArg Channel.pc hreturned)
  have hconfirmed := congrArg Channel.confirmed hreturned
  exact ⟨hreturned,hall.2 hconfirmed,hall.1.mp hconfirmed⟩

/-- The worker answers 1 and the constructor returns all the same. -/
theorem channel_unprotected :
    (protocol sampleDevice).Run Net.fresh (asking .denied)
      (sampleAfter Net.fresh (asking .denied)) ∧
    (sampleAfter Net.fresh (asking .denied)).channels 0=⟨.returned,false⟩ ∧
    (sampleAfter Net.fresh (asking .denied)).answers=[(.socket 0,1)] ∧
    .socket 0∉(sampleAfter Net.fresh (asking .denied)).secured :=
  ⟨System.run_after (by decide),by decide,by decide,by decide⟩

end Channels

section Listener

/-- A client makes the listener thread throw: it has sent its byte without
exactly one descriptor, or closed without a byte, or its socket fails to close. -/
def Harmful (s : Net) (t : Step) : Prop :=
  ∃ choice, t=.listener choice ∧
    ((∃ peer received, s.pc=.unpacking peer received ∧ received.length≠1) ∨
      ∃ peer, s.pc=.closing peer ∧ choice=.ioException)

/-- The client that is served has closed its end, and the listener thread has
nothing left to do but to wait. -/
def Idle (device : Device) (s : Net) : Prop :=
  s.listenerStep device .proceed=none ∧ ∀ peer, s.pc.client=some peer → (s.links peer).shut=true

/-- A thread that runs is bound, has not crashed, and has returned only after
it was stopped. -/
def Serving (s : Net) : Prop :=
  s.pc≠.binding ∧ s.pc≠.crashed ∧ (s.pc=.returned → s.running=false)

theorem Serving.acts (h : Serving s) (hh : ¬Harmful s t) (ha : Acts device s t s') : Serving s' := by
  obtain ⟨hb,hc,hr⟩ := h
  cases ha with
  | listener hs =>
    cases hs with
    | bind hpc | unbound hpc => exact absurd hpc hb
    | crash hpc hl => exact absurd ⟨_,rfl,.inl ⟨_,_,hpc,hl⟩⟩ hh
    | unclosed hpc => exact absurd ⟨_,rfl,.inr ⟨_,hpc,rfl⟩⟩ hh
    | stopped hpc hrunning => exact ⟨by simp [Net.hangUp],by simp [Net.hangUp],fun _ => hrunning⟩
    | goOn | accept | failed | ended | received | unread | single | protect | deny | unboundSocket
    | answer | unanswered | close => exact ⟨by simp,by simp,by simp⟩
  | stopThread => exact ⟨hb,hc,fun _ => rfl⟩
  | channel hs => cases hs <;> exact ⟨hb,hc,hr⟩
  | collect | connect | send | close => exact ⟨hb,hc,hr⟩

/-- A harmful client ends the thread. -/
theorem crashed_of_harmful (hh : Harmful s t) (ha : Acts device s t s') : s'.pc=.crashed := by
  obtain ⟨choice,rfl,hcase⟩ := hh
  cases ha with
  | listener hs =>
    rcases hcase with ⟨peer,received,hpc,hl⟩|⟨peer,hpc,rfl⟩
    · cases hs with
      | crash => rfl
      | single h =>
        rw [hpc] at h
        cases h
        exact absurd rfl hl
      | bind h | unbound h | goOn h | stopped h | accept h | failed h | ended h | received h
      | unread h | protect h | deny h | unboundSocket h | answer h | unanswered h | close h
      | unclosed h =>
        rw [hpc] at h
        cases h
    · cases hs with
      | unclosed => rfl
      | unbound h | failed h | unread h | unboundSocket h | unanswered h =>
        rw [hpc] at h
        cases h

/-- A crashed thread does nothing more. -/
theorem crashed_acts (hc : s.pc=.crashed) (ha : Acts device s t s') : s'.pc=.crashed := by
  cases ha with
  | listener hs =>
    cases hs with
    | bind h | unbound h | goOn h | stopped h | accept h | failed h | ended h | received h | unread h
    | single h | crash h | protect h | deny h | unboundSocket h | answer h | unanswered h | close h
    | unclosed h =>
      rw [hc] at h
      cases h
  | stopThread | collect | connect | send | close => exact hc
  | channel hs => cases hs <;> exact hc

/-- A running thread that has nothing to do waits in `accept`. -/
theorem idle_accepting (h : Serving s) (hrunning : s.running=true) (hi : Idle device s) :
    s.pc=.accepting ∧ s.backlog=[] := by
  obtain ⟨hnone,hshut⟩ := hi
  obtain ⟨hb,hc,hr⟩ := h
  unfold Net.listenerStep at hnone
  cases hpc : s.pc with
  | binding => exact absurd hpc hb
  | crashed => exact absurd hpc hc
  | returned => rw [hr hpc] at hrunning; cases hrunning
  | accepting =>
    rw [hpc] at hnone
    cases hbacklog : s.backlog with
    | nil => exact ⟨rfl,rfl⟩
    | cons peer rest => simp [hbacklog] at hnone
  | reading peer =>
    have hclosed := hshut peer (by rw [hpc]; rfl)
    rw [hpc] at hnone
    cases hsent : (s.links peer).sent with
    | nil => simp [hsent,hclosed] at hnone
    | cons received rest => simp [hsent] at hnone
  | unpacking peer received =>
    rw [hpc] at hnone
    dsimp only at hnone
    split at hnone <;> cases hnone
  | loop | protecting | answering | closing => simp [hpc] at hnone

/-- A client that connects, sends a byte with one descriptor and is served;
protection is granted or not. -/
def exchange (k descriptor : ℕ) (granted : Bool) : List Step :=
  [.other k .connect,.other k (.send [descriptor]),.listener .proceed,.listener .proceed,
    .listener .proceed,.listener (if granted then .proceed else .denied),.listener .proceed]

/-- A thread that waits in `accept` answers it. -/
theorem exchange_answered {k descriptor : ℕ} {granted : Bool} (hpc : s.pc=.accepting)
    (hb : s.backlog=[]) (hk : s.links (.other k)=Link.none)
    (hg : granted=true ∨ device.binds=false) :
    ∃ s', (protocol device).Run s (exchange k descriptor granted) s' ∧
      (s'.links (.other k)).answer=some (if granted then 0 else 1) := by
  obtain ⟨pc,running,backlog,links,channels,answers,secured⟩ := s
  dsimp only at hpc hb hk
  subst hpc hb
  have hsteps : ∃ s', (exchange k descriptor granted).foldlM (fun s t => step device t s)
      ⟨.accepting,running,[],links,channels,answers,secured⟩=some s' ∧
      (s'.links (.other k)).answer=some (if granted then 0 else 1) := by
    cases granted with
    | true =>
      simp [exchange,step,Net.otherStep,Net.listenerStep,Net.enqueue,Net.push,Net.setLink,
        Net.listening,hk,Link.none,Link.isOpen]
    | false =>
      have hbinds := hg.resolve_left (by simp)
      simp [exchange,step,Net.otherStep,Net.listenerStep,Net.enqueue,Net.push,Net.setLink,
        Net.listening,hk,Link.none,Link.isOpen,hbinds]
  obtain ⟨s',hfold,hanswer⟩ := hsteps
  exact ⟨s',System.run_ofStep hfold,hanswer⟩

/-- While the listener runs and the client it served has closed, it is back in
`accept` exactly when no client so far was harmful, and from there it answers
the next well-behaved client. -/
theorem listener_survives_iff {steps : List Step} (hrun : (protocol device).Run Net.bound steps s)
    (hrunning : s.running=true) (hidle : Idle device s) :
    (s.pc=.accepting ↔
      (protocol device).RunUnder (fun s t => ¬Harmful s t) Net.bound steps s) ∧
    (s.pc=.accepting → ∀ k descriptor granted, s.links (.other k)=Link.none →
      granted=true ∨ device.binds=false →
      ∃ s', (protocol device).Run s (exchange k descriptor granted) s' ∧
        (s'.links (.other k)).answer=some (if granted then 0 else 1)) := by
  have hstart : Serving Net.bound := ⟨by simp [Net.bound],by simp [Net.bound],by simp [Net.bound]⟩
  have hkeep : ∀ s t s', Serving s → ¬Harmful s t → (protocol device).Turn s t s' → Serving s' :=
    fun s t s' hs hok ht => hs.acts hok (step_acts (System.turn_ofStep.mp ht))
  have hbreach : ((protocol device).RunUnder (fun s t => ¬Harmful s t) Net.bound steps s ∧
      Serving s) ∨ s.pc=.crashed := by
    refine hrun.breach (B:=fun s => s.pc=.crashed)
      (fun s t s' hs _ hok ht => hkeep s t s' hs hok ht) ?_ ?_ hstart
    · exact fun s t s' _ _ hh ht =>
        crashed_of_harmful (not_not.mp hh) (step_acts (System.turn_ofStep.mp ht))
    · exact fun s t s' hc _ ht => crashed_acts hc (step_acts (System.turn_ofStep.mp ht))
  refine ⟨⟨fun hpc => ?_,fun hunder => ?_⟩,fun hpc k descriptor granted hk hg => ?_⟩
  · refine (hbreach.resolve_right (fun hc => ?_)).1
    rw [hpc] at hc
    cases hc
  · exact (idle_accepting (hunder.invariant hkeep hstart) hrunning hidle).1
  · have hserving : Serving s := by
      refine (hbreach.resolve_right (fun hc => ?_)).2
      rw [hpc] at hc
      cases hc
    exact exchange_answered hpc (idle_accepting hserving hrunning hidle).2 hk hg

/-- A client with one descriptor that is not protected and one that closes
after its answer. -/
def harmless : List Step :=
  [Step.listener .proceed]++exchange 0 7 false++[Step.other 0 .close]++List.replicate 2 (Step.listener .proceed)

/-- The listener is back in `accept`, and answers the next client. -/
theorem listener_survives_harmless :
    Idle sampleDevice (sampleAfter Net.bound harmless) ∧
    (protocol sampleDevice).RunUnder (fun s t => ¬Harmful s t) Net.bound harmless
      (sampleAfter Net.bound harmless) ∧
    ∃ s', (protocol sampleDevice).Run (sampleAfter Net.bound harmless) (exchange 1 8 true) s' ∧
      (s'.links (.other 1)).answer=some 0 := by
  have hpc : (sampleAfter Net.bound harmless).pc=.accepting := by decide
  have hidle : Idle sampleDevice (sampleAfter Net.bound harmless) := by
    refine ⟨rfl,fun peer hp => ?_⟩
    rw [hpc] at hp
    cases hp
  have hrun : (protocol sampleDevice).Run Net.bound harmless (sampleAfter Net.bound harmless) :=
    System.run_after (by decide)
  have hall := listener_survives_iff hrun (by decide) hidle
  exact ⟨hidle,hall.1.mp hpc,hall.2 hpc 1 8 true (by decide) (.inl rfl)⟩

/-- A client connects and closes at once. -/
def hasty : List Step :=
  [Step.listener .proceed,.other 0 .connect,.other 0 .close]++List.replicate 3 (Step.listener .proceed)

/-- The listener thread dies of it: `ancillaryFileDescriptors` is null. -/
theorem listener_crashes :
    (protocol sampleDevice).Run Net.bound hasty (sampleAfter Net.bound hasty) ∧
    (sampleAfter Net.bound hasty).running=true ∧
    Idle sampleDevice (sampleAfter Net.bound hasty) ∧
    (sampleAfter Net.bound hasty).pc=.crashed := by
  have hpc : (sampleAfter Net.bound hasty).pc=.crashed := by decide
  refine ⟨System.run_after (by decide),by decide,⟨rfl,fun peer hp => ?_⟩,hpc⟩
  rw [hpc] at hp
  cases hp

end Listener

end ProxyDroid.ProtectResults
