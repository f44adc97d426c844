import ProxyDroid.ProtectProtocol

/-!
# Runs of the protect protocol

What holds in every interleaving of the listener thread, the constructors and
the other clients, the way of one channel through the protocol as long as
nothing fails for it, and the states from which its socket is not confirmed any
more.
-/

namespace ProxyDroid.ProtectRuns

open CallSemantics ProtectProtocol

variable {s s' : Net} {device : Device} {t : Step} {choice : Choice} {i j : ℕ}

/-- Descriptors that the listener thread has received and not answered. -/
def held : ListenerPc → List Descriptor
  | .unpacking _ received => received
  | .protecting _ fd | .answering _ fd _ => [fd]
  | _ => []

/-- The invariant of both sides. -/
structure Sound (s : Net) : Prop where
  /-- Connections in the backlog wait. -/
  queued : ∀ peer∈s.backlog, (s.links peer).stage=.queued
  /-- They wait once. -/
  nodup : s.backlog.Nodup
  /-- The connection that is served has been accepted. -/
  served : ∀ peer, s.pc.client=some peer → (s.links peer).stage=.accepted
  /-- Only the constructor of a channel sends the descriptor of its socket. -/
  owned : ∀ peer, ∀ descriptors∈(s.links peer).sent, ∀ i, .socket i∈descriptors → peer=.channel i
  /-- The listener has received it from there. -/
  held : ∀ i, .socket i∈held s.pc → s.pc.client=some (.channel i)
  /-- A descriptor that will be confirmed is protected. -/
  granted : ∀ peer fd, s.pc=.answering peer fd true → fd∈s.secured
  /-- A descriptor that has been confirmed is protected. -/
  confirmed : ∀ fd, (fd,0)∈s.answers → fd∈s.secured

theorem sound_fresh : Sound Net.fresh := by
  constructor <;> simp [Net.fresh,ListenerPc.client,ProtectRuns.held,Link.none]

/-- The end of the listener thread. -/
theorem Sound.hangUp (h : Sound s) {pc : ListenerPc} (hpc : pc=.returned ∨ pc=.crashed) :
    Sound (s.hangUp pc) where
  queued := by simp [Net.hangUp]
  nodup := by simp [Net.hangUp]
  served := by rcases hpc with rfl|rfl <;> simp [Net.hangUp,ListenerPc.client]
  owned := by
    intro peer descriptors hd i hi
    refine h.owned peer descriptors ?_ i hi
    simp only [Net.hangUp] at hd
    split at hd <;> exact hd
  held := by rcases hpc with rfl|rfl <;> simp [Net.hangUp,ProtectRuns.held]
  granted := by rcases hpc with rfl|rfl <;> simp [Net.hangUp]
  confirmed := h.confirmed

/-- The listener goes on without touching connections. -/
theorem Sound.moveTo (h : Sound s) {pc : ListenerPc}
    (hclient : ∀ peer, pc.client=some peer → s.pc.client=some peer)
    (hheld : ∀ fd∈ProtectRuns.held pc, fd∈ProtectRuns.held s.pc ∧ pc.client=s.pc.client)
    (hgranted : ∀ peer fd, pc=.answering peer fd true → fd∈s.secured) :
    Sound { s with pc := pc } where
  queued := h.queued
  nodup := h.nodup
  served := fun peer hp => h.served peer (hclient peer hp)
  owned := h.owned
  held := fun i hi => (hheld _ hi).2.trans (h.held i (hheld _ hi).1)
  granted := hgranted
  confirmed := h.confirmed

attribute [local grind =] Function.update_apply ListenerPc.client held Link.none

theorem Sound.serves (h : Sound s) (hs : Serves device s choice s') : Sound s' := by
  cases hs with
  | unbound | stopped => exact h.hangUp (.inl rfl)
  | crash | unclosed => exact h.hangUp (.inr rfl)
  | bind | goOn | failed =>
    exact h.moveTo (by simp [ListenerPc.client]) (by simp [ProtectRuns.held]) (by simp)
  | ended hpc | unread hpc | unboundSocket hpc | unanswered hpc =>
    exact h.moveTo (by simp [ListenerPc.client,hpc]) (by simp [ProtectRuns.held]) (by simp)
  | single hpc | deny hpc =>
    exact h.moveTo (by simp [ListenerPc.client,hpc]) (by simp [ProtectRuns.held,ListenerPc.client,hpc])
      (by simp)
  | @accept peer rest hpc hb =>
    obtain ⟨hq,hn,hserved,ho,hh,hg,hc⟩ := h
    constructor <;> simp only [Net.setLink] <;> grind
  | received hpc hsent | close hpc =>
    obtain ⟨hq,hn,hserved,ho,hh,hg,hc⟩ := h
    constructor <;> simp only [Net.setLink] <;> grind
  | protect hpc | answer hpc =>
    obtain ⟨hq,hn,hserved,ho,hh,hg,hc⟩ := h
    constructor <;> simp only [Net.setLink] <;> grind

/-- A constructor moves. -/
theorem Sound.channels (h : Sound s) (channels : ℕ → Channel) :
    Sound { s with channels := channels } :=
  ⟨h.queued,h.nodup,h.served,h.owned,h.held,h.granted,h.confirmed⟩

theorem Sound.enqueue (h : Sound s) {peer : Peer} (hl : s.links peer=Link.none) :
    Sound (s.enqueue peer) := by
  obtain ⟨hq,hn,hserved,ho,hh,hg,hc⟩ := h
  have hnew : peer∉s.backlog := by
    intro hp
    have hstage := hq peer hp
    rw [hl] at hstage
    cases hstage
  constructor <;> simp only [Net.enqueue,Net.setLink]
  · grind
  · exact List.nodup_append.mpr ⟨hn,by simp,by grind⟩
  · grind
  · grind
  · grind
  · grind
  · grind

theorem Sound.push (h : Sound s) {peer : Peer} {descriptors : List Descriptor}
    (hd : ∀ i, .socket i∈descriptors → peer=.channel i) : Sound (s.push peer descriptors) := by
  obtain ⟨hq,hn,hserved,ho,hh,hg,hc⟩ := h
  constructor <;> simp only [Net.push,Net.setLink] <;> grind

theorem Sound.shutdown (h : Sound s) (peer : Peer) : Sound (s.shutdown peer) := by
  obtain ⟨hq,hn,hserved,ho,hh,hg,hc⟩ := h
  constructor <;> simp only [Net.shutdown,Net.setLink] <;> grind

/-- A constructor that has not connected has no connection. -/
def Unconnected (s : Net) : Prop :=
  ∀ i, (s.channels i).pc=.idle ∨ (s.channels i).pc=.connect → s.links (.channel i)=Link.none

theorem Sound.constructs (h : Sound s) (hu : Unconnected s) {outcome : Outcome}
    (hs : Constructs device s i outcome s') : Sound s' := by
  cases hs with
  | connect hpc hl => exact (h.enqueue (hu i (.inr hpc))).channels _
  | send hpc ho =>
    refine Sound.channels (h.push ?_) _
    intro j hj
    rw [List.mem_singleton] at hj
    cases hj
    rfl
  | start | unguarded | refused | found | nullMethod | missing | inaccessible | unsent | answered
  | unheard => exact h.channels _

theorem Sound.acts (h : Sound s) (hu : Unconnected s) (ha : Acts device s t s') : Sound s' := by
  cases ha with
  | listener hs => exact h.serves hs
  | stopThread => exact ⟨h.queued,h.nodup,h.served,h.owned,h.held,h.granted,h.confirmed⟩
  | channel hs => exact h.constructs hu hs
  | collect | close => exact h.shutdown _
  | connect hl hn => exact h.enqueue hn
  | send ho => exact h.push (by simp)

theorem Unconnected.acts (hu : Unconnected s) (h : Sound s) (ha : Acts device s t s') :
    Unconnected s' := by
  intro k hk
  cases ha with
  | listener hs =>
    have hchannels : s'.channels=s.channels := by cases hs <;> rfl
    rw [hchannels] at hk
    have hnone := hu k hk
    have hfree : s.pc.client≠some (.channel k) := by
      intro hc
      have hstage := h.served _ hc
      rw [hnone] at hstage
      cases hstage
    have hwait : .channel k∉s.backlog := by
      intro hb
      have hstage := h.queued _ hb
      rw [hnone] at hstage
      cases hstage
    cases hs with
    | unbound | stopped | crash | unclosed => simp only [Net.hangUp,hnone]; rfl
    | accept | received | answer | close => simp only [Net.setLink]; grind
    | bind | goOn | failed | ended | unread | single | protect | deny | unboundSocket
    | unanswered => exact hnone
  | stopThread => exact hu k hk
  | @channel i outcome s' hs =>
    cases hs with
    | start | unguarded | refused | found | nullMethod | missing | inaccessible | unsent | answered
    | unheard =>
      simp only [Net.setChannel,Net.returns] at hk ⊢
      grind [Unconnected]
    | connect | send =>
      simp only [Net.setChannel,Net.enqueue,Net.push,Net.setLink] at hk ⊢
      grind [Unconnected]
  | collect =>
    simp only [Net.shutdown,Net.setLink] at hk ⊢
    grind [Unconnected]
  | connect | send | close =>
    simp only [Net.shutdown,Net.enqueue,Net.push,Net.setLink] at hk ⊢
    grind [Unconnected]

/-- The listener thread ends in the step: with an exception that it does not
catch, because it cannot bind its socket, or because it has been stopped. -/
def Ends (s : Net) (choice : Choice) : Prop :=
  (∃ peer received, s.pc=.unpacking peer received ∧ received.length≠1) ∨
    (∃ peer, s.pc=.closing peer ∧ choice=.ioException) ∨
    (s.pc=.loop ∧ s.running=false) ∨ (s.pc=.binding ∧ choice=.ioException)

/-- Steps in which something fails for the channel `i`: the connection is
refused, the descriptor cannot be looked up or sent, the constructor gives up
reading, the worker fails or does not protect the descriptor, or the listener
thread ends, before the descriptor has been confirmed. -/
inductive Fault (device : Device) (i : ℕ) (s : Net) : Step → Prop
  | refused (h : (s.channels i).pc=.connect) : Fault device i s (.channel i .ioException)
  | missing (h : (s.channels i).pc=.lookup) (hf : device.getFileDescriptor=false)
      (outcome : Outcome) : Fault device i s (.channel i outcome)
  | inaccessible (h : (s.channels i).pc=.lookup) : Fault device i s (.channel i .reflective)
  | unsent (h : (s.channels i).pc=.send) : Fault device i s (.channel i .ioException)
  | unheard (h : (s.channels i).pc=.read) (hn : (.socket i,0)∉s.answers) :
      Fault device i s (.channel i .ioException)
  | failed {choice : Choice} (h : s.pc.client=some (.channel i)) (hn : (.socket i,0)∉s.answers)
      (hc : choice≠.proceed) : Fault device i s (.listener choice)
  | ended {choice : Choice} (h : (s.links (.channel i)).isOpen=true)
      (hn : (.socket i,0)∉s.answers) (he : Ends s choice) : Fault device i s (.listener choice)

/-- The connection of the channel `i` waits for the listener, with the bytes sent. -/
structure Waiting (s : Net) (i : ℕ) (sent : List (List Descriptor)) : Prop where
  /-- What has been sent. -/
  sent : (s.links (.channel i)).sent=sent
  /-- The constructor keeps the connection open. -/
  shut : (s.links (.channel i)).shut=false
  /-- Nothing has been answered. -/
  answer : (s.links (.channel i)).answer=none
  /-- It is in the backlog or has been accepted. -/
  place : ((s.links (.channel i)).stage=.queued ∧ .channel i∈s.backlog) ∨ s.pc=.reading (.channel i)

/-- The way of a channel when nothing fails for it. -/
inductive Going (s : Net) (i : ℕ) : Prop
  | fresh (hpc : (s.channels i).pc=.idle ∨ (s.channels i).pc=.connect)
      (hn : (.socket i,0)∉s.answers)
  | unsent (hpc : (s.channels i).pc=.lookup ∨ (s.channels i).pc=.send) (hw : Waiting s i [])
      (hn : (.socket i,0)∉s.answers)
  | sent (hpc : (s.channels i).pc=.read) (hw : Waiting s i [[.socket i]])
      (hn : (.socket i,0)∉s.answers)
  | served (hpc : (s.channels i).pc=.read)
      (h : s.pc=.unpacking (.channel i) [.socket i] ∨ s.pc=.protecting (.channel i) (.socket i) ∨
        s.pc=.answering (.channel i) (.socket i) true)
      (hshut : (s.links (.channel i)).shut=false) (ha : (s.links (.channel i)).answer=none)
      (hn : (.socket i,0)∉s.answers)
  | answered (hpc : (s.channels i).pc=.read ∨
        ((s.channels i).pc=.returned ∧ (s.channels i).confirmed=true))
      (ha : (.socket i,0)∈s.answers)
  | threw (hpc : (s.channels i).pc=.threw)

/-- Nothing will confirm the socket of the channel `i`: the listener does not
have its descriptor and will not receive it, or will not grant it. -/
def Mute (s : Net) (i : ℕ) : Prop :=
  (.socket i,0)∉s.answers ∧ .channel i∉s.backlog ∧
    (s.pc.client=some (.channel i) →
      s.pc=.closing (.channel i) ∨ s.pc=.answering (.channel i) (.socket i) false)

/-- The constructor has returned without confirmation, or will not get it. -/
def Doomed (s : Net) (i : ℕ) : Prop :=
  ((s.channels i).pc=.returned ∧ (s.channels i).confirmed=false) ∨
    (((s.channels i).pc=.lookup ∨ (s.channels i).pc=.send ∨ (s.channels i).pc=.read) ∧ Mute s i)

/-- The state of a channel depends on its own connection and constructor. -/
theorem Going.frame (h : Going s i) (hl : s'.links (.channel i)=s.links (.channel i))
    (hc : s'.channels i=s.channels i) (hb : .channel i∈s.backlog → .channel i∈s'.backlog)
    (ha : (.socket i,0)∈s'.answers ↔ (.socket i,0)∈s.answers)
    (hp : s.pc.client=some (.channel i) → s'.pc=s.pc) : Going s' i := by
  have hwait : ∀ {sent}, Waiting s i sent → Waiting s' i sent := by
    rintro sent ⟨hsent,hshut,hanswer,hplace⟩
    refine ⟨hl ▸ hsent,hl ▸ hshut,hl ▸ hanswer,hplace.imp ?_ ?_⟩
    · exact fun hq => ⟨hl ▸ hq.1,hb hq.2⟩
    · exact fun hr => (hp (by rw [hr]; rfl)).trans hr
  cases h with
  | fresh hpc hn => exact .fresh (hc ▸ hpc) (fun hin => hn (ha.mp hin))
  | unsent hpc hw hn => exact .unsent (hc ▸ hpc) (hwait hw) (fun hin => hn (ha.mp hin))
  | sent hpc hw hn => exact .sent (hc ▸ hpc) (hwait hw) (fun hin => hn (ha.mp hin))
  | served hpc hserved hshut hanswer hn =>
    have hsame : s'.pc=s.pc := hp (by rcases hserved with hs|hs|hs <;> rw [hs] <;> rfl)
    exact .served (hc ▸ hpc) (hsame ▸ hserved) (hl ▸ hshut) (hl ▸ hanswer)
      (fun hin => hn (ha.mp hin))
  | answered hpc hin => exact .answered (hc ▸ hpc) (ha.mpr hin)
  | threw hpc => exact .threw (hc ▸ hpc)

/-- The listener thread does not move constructors. -/
theorem serves_channels (hs : Serves device s choice s') : s'.channels=s.channels := by
  cases hs <;> rfl

/-- Answers are not taken back. -/
theorem serves_answers (hs : Serves device s choice s') {answer : Descriptor×ℕ}
    (ha : answer∈s.answers) : answer∈s'.answers := by
  cases hs with
  | answer => exact List.mem_append_left _ ha
  | bind | unbound | goOn | stopped | accept | failed | ended | received | unread | single | crash
  | protect | deny | unboundSocket | unanswered | close | unclosed => exact ha

/-- A channel whose connection the listener does not serve is not answered. -/
theorem serves_unanswered (h : Sound s) (hc : s.pc.client≠some (.channel i))
    (hs : Serves device s choice s') : (.socket i,0)∈s'.answers ↔ (.socket i,0)∈s.answers := by
  refine ⟨fun ha => ?_,serves_answers hs⟩
  cases hs with
  | @answer peer fd granted hpc =>
    refine (List.mem_append.mp ha).elim (fun hold => hold) (fun hnew => absurd ?_ hc)
    have hfd : .socket i=fd := congrArg Prod.fst (List.mem_singleton.mp hnew)
    have hheld : .socket i∈ProtectRuns.held s.pc := by
      rw [hpc,hfd]
      exact List.mem_singleton.mpr rfl
    exact h.held i hheld
  | bind | unbound | goOn | stopped | accept | failed | ended | received | unread | single | crash
  | protect | deny | unboundSocket | unanswered | close | unclosed => exact ha

/-- A connection that waits and is not served is in the backlog. -/
theorem Waiting.backlog {sent : List (List Descriptor)} (h : Waiting s i sent)
    (hc : s.pc.client≠some (.channel i)) :
    (s.links (.channel i)).stage=.queued ∧ .channel i∈s.backlog :=
  h.place.resolve_right (fun hr => hc (by rw [hr]; rfl))

/-- A connection that waits and is served is being read. -/
theorem Waiting.reading {sent : List (List Descriptor)} (h : Waiting s i sent) (hsound : Sound s)
    (hc : s.pc.client=some (.channel i)) : s.pc=.reading (.channel i) := by
  refine h.place.resolve_left (fun hq => ?_)
  have hstage := hsound.served _ hc
  rw [hq.1] at hstage
  cases hstage

/-- A connection that waits is open. -/
theorem Waiting.isOpen {sent : List (List Descriptor)} (h : Waiting s i sent) (hsound : Sound s) :
    (s.links (.channel i)).isOpen=true := by
  rcases h.place with hq|hr
  · simp [Link.isOpen,hq.1,h.shut]
  · simp [Link.isOpen,hsound.served (.channel i) (by rw [hr]; rfl),h.shut]

/-- The listener reads a connection that waits. -/
theorem waiting_reading {sent : List (List Descriptor)} (hw : Waiting s i sent)
    (hpc : s.pc=.reading (.channel i)) (hf : ¬Fault device i s (.listener choice))
    (hn : (.socket i,0)∉s.answers) (hs : Serves device s choice s') :
    ∃ received rest, sent=received::rest ∧ s'.pc=.unpacking (.channel i) received ∧
      (s'.links (.channel i)).shut=false ∧ (s'.links (.channel i)).answer=none ∧
      s'.answers=s.answers := by
  cases hs with
  | ended h hsent hshut =>
    rw [hpc] at h
    cases h
    rw [hw.shut] at hshut
    cases hshut
  | @received peer descriptors rest h hsent =>
    rw [hpc] at h
    cases h
    refine ⟨descriptors,rest,hw.sent.symm.trans hsent,rfl,?_,?_,rfl⟩
    · simp [Net.setLink,hw.shut]
    · simp [Net.setLink,hw.answer]
  | unread => exact absurd (.failed (by rw [hpc]; rfl) hn (by simp)) hf
  | bind h | unbound h | goOn h | stopped h | accept h | failed h | single h | crash h | protect h
  | deny h | unboundSocket h | answer h | unanswered h | close h | unclosed h =>
    rw [hpc] at h
    cases h

/-- The listener serves the channel. -/
theorem going_served (h : Sound s) (hu : Unconnected s) (hg : Going s i)
    (hf : ¬Fault device i s (.listener choice)) (hc : s.pc.client=some (.channel i))
    (hs : Serves device s choice s') : Going s' i := by
  have hchannels := serves_channels hs
  cases hg with
  | fresh hpc =>
    have hstage := h.served _ hc
    rw [hu i hpc] at hstage
    cases hstage
  | unsent hpc hw hn =>
    obtain ⟨received,rest,hsent,-⟩ := waiting_reading hw (hw.reading h hc) hf hn hs
    cases hsent
  | sent hpc hw hn =>
    obtain ⟨received,rest,hsent,hpc',hshut,hanswer,hanswers⟩ :=
      waiting_reading hw (hw.reading h hc) hf hn hs
    cases hsent
    exact .served (hchannels ▸ hpc) (.inl hpc') hshut hanswer (hanswers ▸ hn)
  | served hpc hserved hshut hanswer hn =>
    have hno : choice=.proceed := by
      by_contra hne
      exact hf (.failed hc hn hne)
    cases hs with
    | single h =>
      rcases hserved with hs|hs|hs
      · rw [hs] at h
        cases h
        exact .served hpc (.inr (.inl rfl)) hshut hanswer hn
      · rw [hs] at h
        cases h
      · rw [hs] at h
        cases h
    | crash h hl =>
      rcases hserved with hs|hs|hs
      · rw [hs] at h
        cases h
        exact absurd rfl hl
      · rw [hs] at h
        cases h
      · rw [hs] at h
        cases h
    | protect h =>
      rcases hserved with hs|hs|hs
      · rw [hs] at h
        cases h
      · rw [hs] at h
        cases h
        exact .served hpc (.inr (.inr rfl)) hshut hanswer hn
      · rw [hs] at h
        cases h
    | answer h =>
      rcases hserved with hs|hs|hs
      · rw [hs] at h
        cases h
      · rw [hs] at h
        cases h
      · rw [hs] at h
        cases h
        exact .answered (.inl hpc) (List.mem_append_right _ (List.mem_singleton.mpr rfl))
    | bind h | goOn h | stopped h | accept h | ended h | received h | close h =>
      rcases hserved with hs|hs|hs <;> rw [hs] at h <;> cases h
    | unbound | failed | unread | deny | unboundSocket | unanswered | unclosed => cases hno
  | answered hpc ha => exact .answered (hchannels ▸ hpc) (serves_answers hs ha)
  | threw hpc => exact .threw (hchannels ▸ hpc)

/-- The listener serves another client, or none. -/
theorem going_unserved (h : Sound s) (hu : Unconnected s) (hg : Going s i)
    (hf : ¬Fault device i s (.listener choice)) (hc : s.pc.client≠some (.channel i))
    (hs : Serves device s choice s') : Going s' i := by
  have hanswers := serves_unanswered h hc hs
  have hends : Ends s choice → s'.channels=s.channels → s'.answers=s.answers → Going s' i := by
    intro he hchannels hsame
    cases hg with
    | fresh hpc hn => exact .fresh (hchannels ▸ hpc) (hsame ▸ hn)
    | unsent hpc hw hn | sent hpc hw hn => exact absurd (.ended (hw.isOpen h) hn he) hf
    | served hpc hserved => exact absurd (by rcases hserved with hs|hs|hs <;> rw [hs] <;> rfl) hc
    | answered hpc ha => exact .answered (hchannels ▸ hpc) (hsame ▸ ha)
    | threw hpc => exact .threw (hchannels ▸ hpc)
  have hother : ∀ {peer : Peer}, s.pc.client=some peer → .channel i≠peer := by
    rintro peer hp rfl
    exact hc hp
  cases hs with
  | unbound hpc => exact hends (.inr (.inr (.inr ⟨hpc,rfl⟩))) rfl rfl
  | stopped hpc hr => exact hends (.inr (.inr (.inl ⟨hpc,hr⟩))) rfl rfl
  | crash hpc hl => exact hends (.inl ⟨_,_,hpc,hl⟩) rfl rfl
  | unclosed hpc => exact hends (.inr (.inl ⟨_,hpc,rfl⟩)) rfl rfl
  | @accept peer rest hpc hb =>
    by_cases hp : .channel i=peer
    · subst hp
      have hstage := h.queued (.channel i) (by rw [hb]; exact List.mem_cons_self)
      have hread : ∀ {sent}, Waiting s i sent → Waiting { s.setLink (.channel i)
          { s.links (.channel i) with stage := .accepted } with
          pc := .reading (.channel i), backlog := rest } i sent := by
        intro sent hw
        refine ⟨?_,?_,?_,.inr rfl⟩
        · simp [Net.setLink,hw.sent]
        · simp [Net.setLink,hw.shut]
        · simp [Net.setLink,hw.answer]
      cases hg with
      | fresh hpc =>
        rw [hu i hpc] at hstage
        cases hstage
      | unsent hpc hw hn => exact .unsent hpc (hread hw) hn
      | sent hpc hw hn => exact .sent hpc (hread hw) hn
      | served hpc hserved => exact absurd (by rcases hserved with hs|hs|hs <;> rw [hs] <;> rfl) hc
      | answered hpc ha => exact .answered hpc ha
      | threw hpc => exact .threw hpc
    · refine hg.frame (Function.update_of_ne hp ..) rfl ?_ hanswers (fun hclient => absurd hclient hc)
      rw [hb]
      exact fun hin => (List.mem_cons.mp hin).resolve_left hp
  | received hpc | answer hpc | close hpc =>
    exact hg.frame (Function.update_of_ne (hother (by rw [hpc]; rfl)) ..) rfl (fun hb => hb) hanswers
      (fun hclient => absurd hclient hc)
  | bind | goOn | failed | ended | unread | single | protect | deny | unboundSocket | unanswered =>
    exact hg.frame rfl rfl (fun hb => hb) hanswers (fun hclient => absurd hclient hc)

/-- The constructor of the channel. -/
theorem going_constructs (hp : device.protectPath=true) (h : Sound s) (hu : Unconnected s)
    (hg : Going s i) {outcome : Outcome} (hf : ¬Fault device i s (.channel i outcome))
    (hs : Constructs device s i outcome s') : Going s' i := by
  have hpcs : ∀ pc, (s.setChannel i pc).channels i={ s.channels i with pc := pc } :=
    fun pc => Function.update_self ..
  have hwait : ∀ {pc sent}, Waiting s i sent → Waiting (s.setChannel i pc) i sent :=
    fun hw => ⟨hw.sent,hw.shut,hw.answer,hw.place⟩
  cases hs with
  | start hpc =>
    cases hg with
    | fresh _ hn => exact .fresh (by simp [hpcs]) hn
    | unsent h | answered h => rw [hpc] at h; simp at h
    | sent h | served h | threw h => rw [hpc] at h; cases h
  | unguarded hpc hno => rw [hp] at hno; cases hno
  | connect hpc hl =>
    cases hg with
    | fresh hfresh hn =>
      refine .unsent (.inl ?_) ⟨?_,?_,?_,.inl ⟨?_,?_⟩⟩ hn
      · simp [Net.setChannel]
      · simp [Net.setChannel,Net.enqueue,Net.setLink,hu i hfresh,Link.none]
      · simp [Net.setChannel,Net.enqueue,Net.setLink,hu i hfresh,Link.none]
      · simp [Net.setChannel,Net.enqueue,Net.setLink,hu i hfresh,Link.none]
      · simp [Net.setChannel,Net.enqueue,Net.setLink]
      · simp [Net.setChannel,Net.enqueue,Net.setLink]
    | unsent h | answered h => rw [hpc] at h; simp at h
    | sent h | served h | threw h => rw [hpc] at h; cases h
  | refused hpc => exact absurd (.refused hpc) hf
  | found hpc =>
    cases hg with
    | unsent _ hw hn => exact .unsent (.inr (by simp [hpcs])) (hwait hw) hn
    | fresh h | answered h => rw [hpc] at h; simp at h
    | sent h | served h | threw h => rw [hpc] at h; cases h
  | nullMethod hpc => exact .threw (by simp [hpcs])
  | missing hpc hno => exact absurd (.missing hpc hno _) hf
  | inaccessible hpc => exact absurd (.inaccessible hpc) hf
  | send hpc ho =>
    cases hg with
    | unsent _ hw hn =>
      refine .sent (by simp [Net.setChannel]) ⟨?_,?_,?_,?_⟩ hn
      · simp [Net.setChannel,Net.push,Net.setLink,hw.sent]
      · simp [Net.setChannel,Net.push,Net.setLink,hw.shut]
      · simp [Net.setChannel,Net.push,Net.setLink,hw.answer]
      · simpa [Net.setChannel,Net.push,Net.setLink] using hw.place
    | fresh h | answered h => rw [hpc] at h; simp at h
    | sent h | served h | threw h => rw [hpc] at h; cases h
  | unsent hpc => exact absurd (.unsent hpc) hf
  | answered hpc ha =>
    have hopen : (.socket i,0)∉s.answers → (s.links (.channel i)).answer=none →
        (s.links (.channel i)).isOpen=true → False := by
      intro _ hnone hopen
      rcases ha with ha|ha
      · exact ha hnone
      · simp [Link.isOpen,ha] at hopen
    cases hg with
    | answered _ hin => exact .answered (.inr (by simp [Net.returns,hin])) hin
    | sent _ hw hn => exact (hopen hn hw.answer (hw.isOpen h)).elim
    | served _ hserved hshut hanswer hn =>
      have hclient : s.pc.client=some (.channel i) := by
        rcases hserved with hs|hs|hs <;> rw [hs] <;> rfl
      exact (hopen hn hanswer (by simp [Link.isOpen,h.served _ hclient,hshut])).elim
    | fresh h | unsent h => rw [hpc] at h; simp at h
    | threw h => rw [hpc] at h; cases h
  | unheard hpc =>
    have hin : (.socket i,0)∈s.answers := by
      by_contra hn
      exact hf (.unheard hpc hn)
    exact .answered (.inr (by simp [Net.returns,hin])) hin

/-- Constructors of other channels. -/
theorem going_other (hg : Going s i) (hij : i≠j) {outcome : Outcome}
    (hs : Constructs device s j outcome s') : Going s' i := by
  have hpeer : Peer.channel i≠.channel j := fun hp => hij (Peer.channel.inj hp)
  cases hs with
  | connect =>
    exact hg.frame (Function.update_of_ne hpeer ..) (Function.update_of_ne hij ..)
      (fun hb => List.mem_append_left _ hb) Iff.rfl (fun _ => rfl)
  | send =>
    exact hg.frame (Function.update_of_ne hpeer ..) (Function.update_of_ne hij ..) (fun hb => hb)
      Iff.rfl (fun _ => rfl)
  | start | unguarded | refused | found | nullMethod | missing | inaccessible | unsent | answered
  | unheard =>
    exact hg.frame rfl (Function.update_of_ne hij ..) (fun hb => hb) Iff.rfl (fun _ => rfl)

/-- As long as nothing fails for it a channel goes its way. -/
theorem Going.acts (hp : device.protectPath=true) (h : Sound s) (hu : Unconnected s)
    (hg : Going s i) (hf : ¬Fault device i s t) (ha : Acts device s t s') : Going s' i := by
  cases ha with
  | listener hs =>
    by_cases hc : s.pc.client=some (.channel i)
    · exact going_served h hu hg hf hc hs
    · exact going_unserved h hu hg hf hc hs
  | stopThread => exact hg.frame rfl rfl (fun hb => hb) Iff.rfl (fun _ => rfl)
  | @channel j outcome s' hs =>
    by_cases hij : i=j
    · subst hij
      exact going_constructs hp h hu hg hf hs
    · exact going_other hg hij hs
  | @collect j hpc =>
    by_cases hij : i=j
    · subst hij
      cases hg with
      | answered hpc ha => exact .answered hpc ha
      | threw hpc => exact .threw hpc
      | fresh hfresh | unsent hfresh => rcases hpc with hpc|hpc <;> rw [hpc] at hfresh <;> simp at hfresh
      | sent hfresh | served hfresh => rcases hpc with hpc|hpc <;> rw [hpc] at hfresh <;> cases hfresh
    · have hpeer : Peer.channel i≠.channel j := fun hp => hij (Peer.channel.inj hp)
      exact hg.frame (Function.update_of_ne hpeer ..) rfl (fun hb => hb) Iff.rfl (fun _ => rfl)
  | connect =>
    exact hg.frame rfl rfl (fun hb => List.mem_append_left _ hb) Iff.rfl (fun _ => rfl)
  | send | close => exact hg.frame rfl rfl (fun hb => hb) Iff.rfl (fun _ => rfl)

/-- A connection that nobody will confirm stays so, unless its constructor connects. -/
theorem Mute.serves (h : Sound s) (hm : Mute s i) (hs : Serves device s choice s') : Mute s' i := by
  obtain ⟨hn,hb,hc⟩ := hm
  refine ⟨fun hin => hn ?_,?_,?_⟩
  · by_cases hclient : s.pc.client=some (.channel i)
    · cases hs with
      | @answer peer fd granted hpc =>
        refine (List.mem_append.mp hin).elim (fun hold => hold) (fun hnew => ?_)
        rcases hc hclient with hclosing|hdenied
        · rw [hclosing] at hpc
          cases hpc
        · rw [hdenied] at hpc
          cases hpc
          simp at hnew
      | bind | unbound | goOn | stopped | accept | failed | ended | received | unread | single | crash
      | protect | deny | unboundSocket | unanswered | close | unclosed => exact hin
    · exact (serves_unanswered h hclient hs).mp hin
  · cases hs with
    | accept hpc hbacklog =>
      rw [hbacklog] at hb
      exact fun hin => hb (List.mem_cons_of_mem _ hin)
    | unbound | stopped | crash | unclosed => simp [Net.hangUp]
    | bind | goOn | failed | ended | received | unread | single | protect | deny | unboundSocket
    | answer | unanswered | close => exact hb
  · intro hclient
    cases hs with
    | @accept peer rest hpc hbacklog =>
      have hpeer : peer=.channel i := by simpa [ListenerPc.client] using hclient
      rw [hbacklog,hpeer] at hb
      exact absurd List.mem_cons_self hb
    | unbound | stopped | crash | unclosed => simp [Net.hangUp,ListenerPc.client] at hclient
    | bind | goOn | failed | close => simp [ListenerPc.client] at hclient
    | ended hpc | received hpc | single hpc | protect hpc | deny hpc =>
      have hpeer : _=some (Peer.channel i) := hclient
      have hold := hc (by rw [hpc]; exact hpeer)
      rw [hpc] at hold
      simp at hold
    | unread hpc | unboundSocket hpc | answer hpc | unanswered hpc =>
      have hpeer : _=Peer.channel i := Option.some.inj hclient
      exact .inl (by rw [hpeer])

/-- A constructor that has ended does not move. -/
theorem constructor_ended (hpc : (s.channels i).pc=.returned ∨ (s.channels i).pc=.threw)
    (ha : Acts device s t s') : s'.channels i=s.channels i := by
  cases ha with
  | listener hs => rw [serves_channels hs]
  | stopThread | collect | connect | send | close => rfl
  | @channel j outcome s' hs =>
    by_cases hij : i=j
    · subst hij
      cases hs with
      | start h | unguarded h | connect h | refused h | found h | nullMethod h | missing h
      | inaccessible h | send h | unsent h | answered h | unheard h => rw [h] at hpc; simp at hpc
    · cases hs with
      | start | unguarded | connect | refused | found | nullMethod | missing | inaccessible | send
      | unsent | answered | unheard => exact Function.update_of_ne hij ..

/-- A constructor that cannot be confirmed any more stays so until it ends. -/
theorem doomed_acts (h : Sound s) (hd : Doomed s i ∨ (s.channels i).pc=.threw)
    (ha : Acts device s t s') : Doomed s' i ∨ (s'.channels i).pc=.threw := by
  rcases hd with (hreturned|⟨hpc,hm⟩)|hthrew
  · have hsame := constructor_ended (.inl hreturned.1) ha
    exact .inl (.inl (by rw [hsame]; exact hreturned))
  · cases ha with
    | listener hs =>
      refine .inl (.inr ⟨?_,hm.serves h hs⟩)
      rw [serves_channels hs]
      exact hpc
    | stopThread | collect | send | close => exact .inl (.inr ⟨hpc,hm⟩)
    | connect => exact .inl (.inr ⟨hpc,hm.1,by simpa [Net.enqueue,Net.setLink] using hm.2.1,hm.2.2⟩)
    | @channel j outcome s' hs =>
      by_cases hij : i=j
      · subst hij
        have hreturns : Doomed (s.returns i) i := .inl (by simp [Net.returns,hm.1])
        cases hs with
        | start h | unguarded h | connect h | refused h => rw [h] at hpc; simp at hpc
        | found => exact .inl (.inr ⟨.inr (.inl (by simp [Net.setChannel])),hm⟩)
        | nullMethod => exact .inr (by simp [Net.setChannel])
        | missing | inaccessible | unsent | answered | unheard => exact .inl hreturns
        | send => exact .inl (.inr ⟨.inr (.inr (by simp [Net.setChannel])),hm⟩)
      · refine .inl (.inr ?_)
        cases hs with
        | connect =>
          refine ⟨?_,hm.1,?_,hm.2.2⟩
          · simpa [Net.setChannel,Net.enqueue,Net.setLink,Function.update_of_ne hij] using hpc
          · simpa [Net.setChannel,Net.enqueue,Net.setLink,hij] using hm.2.1
        | start | unguarded | refused | found | nullMethod | missing | inaccessible | send | unsent
        | answered | unheard =>
          refine ⟨?_,hm⟩
          simpa [Net.setChannel,Net.returns,Net.push,Net.setLink,Function.update_of_ne hij] using hpc
  · have hsame := constructor_ended (.inr hthrew) ha
    exact .inr (by rw [hsame]; exact hthrew)

/-- A channel whose connection is open and not confirmed is not confirmed any
more when the listener thread ends. -/
theorem mute_hangUp {pc : ListenerPc} (hn : (.socket i,0)∉s.answers)
    (hpc : pc=.returned ∨ pc=.crashed) : Mute (s.hangUp pc) i := by
  refine ⟨hn,by simp [Net.hangUp],fun hc => ?_⟩
  rcases hpc with rfl|rfl <;> cases hc

/-- The constructors that are on their way, when a step has made them mute. -/
theorem Going.doomed (hg : Going s i) (hu : Unconnected s) (hn : (.socket i,0)∉s.answers)
    (ho : (s.links (.channel i)).stage≠.absent) (hc : s'.channels i=s.channels i) (hm : Mute s' i) :
    Doomed s' i ∨ (s'.channels i).pc=.threw := by
  cases hg with
  | fresh hpc =>
    rw [hu i hpc] at ho
    exact absurd rfl ho
  | unsent hpc => exact .inl (.inr ⟨by rw [hc]; exact hpc.imp_right .inl,hm⟩)
  | sent hpc | served hpc => exact .inl (.inr ⟨.inr (.inr (by rw [hc]; exact hpc)),hm⟩)
  | answered _ ha => exact absurd ha hn
  | threw hpc => exact .inr (by rw [hc]; exact hpc)

/-- The listener fails while it serves the channel. -/
theorem mute_failed (h : Sound s) (hg : Going s i) (hu : Unconnected s)
    (hthrew : (s.channels i).pc≠.threw) (hn : (.socket i,0)∉s.answers)
    (hc : s.pc.client=some (.channel i)) (hchoice : choice≠.proceed)
    (hs : Serves device s choice s') : Mute s' i := by
  have hb : .channel i∉s.backlog := by
    intro hin
    have hstage := h.queued _ hin
    rw [h.served _ hc] at hstage
    cases hstage
  cases hs with
  | unbound => exact mute_hangUp hn (.inl rfl)
  | unclosed => exact mute_hangUp hn (.inr rfl)
  | failed hpc => rw [hpc] at hc; cases hc
  | @unread peer hpc | @unboundSocket peer fd hpc | @unanswered peer fd granted hpc =>
    have hpeer : peer=Peer.channel i := by rw [hpc] at hc; exact Option.some.inj hc
    exact ⟨hn,hb,fun _ => .inl (by rw [hpeer])⟩
  | @deny peer fd hpc =>
    have hpeer : peer=.channel i := by rw [hpc] at hc; exact Option.some.inj hc
    subst hpeer
    refine ⟨hn,hb,fun _ => .inr ?_⟩
    cases hg with
    | served _ hserved =>
      rcases hserved with hs|hs|hs <;> rw [hs] at hpc <;> cases hpc
      rfl
    | fresh hfresh =>
      have hstage := h.served _ hc
      rw [hu i hfresh] at hstage
      cases hstage
    | unsent _ hw | sent _ hw =>
      have hreading := hw.reading h hc
      rw [hreading] at hpc
      cases hpc
    | answered _ ha => exact absurd ha hn
    | threw hpc => exact absurd hpc hthrew
  | bind | goOn | stopped | accept | ended | received | single | crash | protect | answer | close =>
    exact absurd rfl hchoice

/-- The listener thread ends while the connection of the channel is open. -/
theorem mute_ended (hn : (.socket i,0)∉s.answers) (he : Ends s choice)
    (hs : Serves device s choice s') : Mute s' i := by
  cases hs with
  | unbound | stopped => exact mute_hangUp hn (.inl rfl)
  | crash | unclosed => exact mute_hangUp hn (.inr rfl)
  | bind hpc | goOn hpc hr | accept hpc | failed hpc | ended hpc | received hpc | unread hpc
  | protect hpc | deny hpc | unboundSocket hpc | answer hpc | unanswered hpc | close hpc =>
    unfold Ends at he
    simp_all
  | single hpc =>
    unfold Ends at he
    rw [hpc] at he
    simp at he

/-- Once something has failed for it, a channel is not confirmed. -/
theorem Going.fault (h : Sound s) (hu : Unconnected s) (hg : Going s i) (hf : Fault device i s t)
    (ha : Acts device s t s') : Doomed s' i ∨ (s'.channels i).pc=.threw := by
  have hreturns : (.socket i,0)∉s.answers → Doomed (s.returns i) i :=
    fun hn => .inl (by simp [Net.returns,hn])
  have hpending : (s.channels i).pc=.lookup ∨ (s.channels i).pc=.send → (.socket i,0)∉s.answers := by
    intro hpc
    cases hg with
    | unsent _ _ hn => exact hn
    | fresh h | answered h => rcases hpc with hpc|hpc <;> rw [hpc] at h <;> simp at h
    | sent h | served h | threw h => rcases hpc with hpc|hpc <;> rw [hpc] at h <;> cases h
  cases hf with
  | refused hpc =>
    have hnone := hu i (.inr hpc)
    have hn : (.socket i,0)∉s.answers := by
      cases hg with
      | fresh _ hn => exact hn
      | unsent h | answered h => rw [hpc] at h; simp at h
      | sent h | served h | threw h => rw [hpc] at h; cases h
    cases ha with
    | channel hs =>
      cases hs with
      | refused =>
        refine .inl (.inr ⟨.inl (by simp [Net.setChannel]),hn,fun hb => ?_,fun hc => ?_⟩)
        · have hstage := h.queued _ hb
          rw [hnone] at hstage
          cases hstage
        · have hstage := h.served _ hc
          rw [hnone] at hstage
          cases hstage
      | unsent h | unheard h => rw [hpc] at h; cases h
  | missing hpc hno =>
    cases ha with
    | channel hs =>
      cases hs with
      | missing | inaccessible | unsent | unheard => exact .inl (hreturns (hpending (.inl hpc)))
      | found _ hyes | nullMethod _ hyes => rw [hno] at hyes; cases hyes
      | start h | unguarded h | connect h | refused h | send h | answered h => rw [hpc] at h; cases h
  | inaccessible hpc =>
    cases ha with
    | channel hs => cases hs; exact .inl (hreturns (hpending (.inl hpc)))
  | unsent hpc =>
    cases ha with
    | channel hs =>
      cases hs with
      | unsent | unheard => exact .inl (hreturns (hpending (.inr hpc)))
      | refused h => rw [hpc] at h; cases h
  | unheard hpc hn =>
    cases ha with
    | channel hs =>
      cases hs with
      | unsent | unheard => exact .inl (hreturns hn)
      | refused h => rw [hpc] at h; cases h
  | failed hc hn hchoice =>
    cases ha with
    | listener hs =>
      have hsame : s'.channels i=s.channels i := by rw [serves_channels hs]
      by_cases hthrew : (s.channels i).pc=.threw
      · exact .inr (by rw [hsame]; exact hthrew)
      · exact hg.doomed hu hn (by rw [h.served _ hc]; simp) hsame
          (mute_failed h hg hu hthrew hn hc hchoice hs)
  | ended ho hn he =>
    cases ha with
    | listener hs =>
      refine hg.doomed hu hn ?_ (by rw [serves_channels hs]) (mute_ended hn he hs)
      intro habsent
      simp [Link.isOpen,habsent] at ho

/-- Every state of every run keeps the invariant. -/
theorem sound_run {ok : Net → Step → Prop} {steps : List Step} (h : Sound s ∧ Unconnected s)
    (hr : (protocol device).RunUnder ok s steps s') : Sound s' ∧ Unconnected s' := by
  refine hr.invariant (I:=fun s => Sound s ∧ Unconnected s) ?_ h
  intro s t s' hs _ ht
  have ha := step_acts (System.turn_ofStep.mp ht)
  exact ⟨hs.1.acts hs.2 ha,hs.2.acts hs.1 ha⟩

end ProxyDroid.ProtectRuns
