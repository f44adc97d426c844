import ProxyDroid.CallSemantics
import Mathlib.Logic.Function.Basic

/-!
# The protect protocol

The constructor of `CustomNioSocketChannel` sends the descriptor of its socket
to the local socket `protect_path`; the single thread of `ProtectWorker`, a
`LocalSocketListener`, protects it and answers with one byte. Constructors on
different event loops, other clients of the local socket and the listener
thread interleave; every failure is a choice of the environment.
-/

namespace ProxyDroid.ProtectProtocol

open CallSemantics

/-- Who connects to the local socket: the constructor of a channel, or any
other client. -/
inductive Peer where
  | channel (i : ℕ)
  | other (k : ℕ)
  deriving DecidableEq

/-- File descriptors: of the socket of a channel, or of another client. -/
inductive Descriptor where
  | socket (i : ℕ)
  | other (d : ℕ)
  deriving DecidableEq

/-- A connection as the listener has it; it closes the connections it has
accepted, and the end of the thread closes all of them. -/
inductive Stage where
  | absent
  | queued
  | accepted
  | closed
  deriving DecidableEq

/-- A connection to the local socket. -/
structure Link where
  /-- Where it is. -/
  stage : Stage
  /-- Bytes that the listener has not read, each with the descriptors sent
  with it. -/
  sent : List (List Descriptor)
  /-- The client has closed it. -/
  shut : Bool
  /-- The byte that the listener has written. -/
  answer : Option ℕ
  deriving DecidableEq

/-- No connection. -/
def Link.none : Link := ⟨.absent,[],false,Option.none⟩

/-- Bytes can be sent. -/
def Link.isOpen (link : Link) : Bool :=
  (link.stage==.queued || link.stage==.accepted) && !link.shut

/-- Where `LocalSocketListener.run` is: `loop` tests `running`, `unpacking` has
the value of `ancillaryFileDescriptors` (empty when it is null), `closing` is
the end of `use`. -/
inductive ListenerPc where
  | binding
  | loop
  | accepting
  | reading (peer : Peer)
  | unpacking (peer : Peer) (received : List Descriptor)
  | protecting (peer : Peer) (fd : Descriptor)
  | answering (peer : Peer) (fd : Descriptor) (granted : Bool)
  | closing (peer : Peer)
  | returned
  | crashed
  deriving DecidableEq

/-- Where the constructor of a channel is. -/
inductive ChannelPc where
  | idle
  | connect
  | lookup
  | send
  | read
  | returned
  | threw
  deriving DecidableEq

/-- A channel. -/
structure Channel where
  /-- Where its constructor is. -/
  pc : ChannelPc
  /-- Whether the worker had answered 0 for its socket when the constructor
  returned. -/
  confirmed : Bool
  deriving DecidableEq

/-- What does not change: `protectPath` is not empty; the reflective methods
that the channel class has found; whether the worker binds sockets to an
underlying network (`network != null` and `SDK_INT` at least 23) or calls
`protect`. -/
structure Device where
  /-- `protectPath` is set. -/
  protectPath : Bool
  /-- `Socket.getFileDescriptor$` exists. -/
  getFileDescriptor : Bool
  /-- `FileDescriptor.getInt$` exists. -/
  getInt : Bool
  /-- `bindSocket` is used. -/
  binds : Bool

/-- A device that has the reflective methods and calls `protect`. -/
def sampleDevice : Device := ⟨true,true,true,false⟩

/-- State of both sides. -/
structure Net where
  /-- Where the listener thread is. -/
  pc : ListenerPc
  /-- `running`. -/
  running : Bool
  /-- Connections that wait for `accept`. -/
  backlog : List Peer
  /-- Connections. -/
  links : Peer → Link
  /-- Channels. -/
  channels : ℕ → Channel
  /-- Bytes answered so far and the descriptors they were for. -/
  answers : List (Descriptor×ℕ)
  /-- Descriptors for which `protect` or `bindSocket` has succeeded. -/
  secured : List Descriptor

/-- What the environment decides for the listener: the step succeeds, raises
an `IOException`, or `protect` returns false. -/
inductive Choice where
  | proceed
  | ioException
  | denied
  deriving DecidableEq

/-- What the environment decides for a constructor: the step succeeds, raises
an `IOException`, or the reflective call fails. -/
inductive Outcome where
  | proceed
  | ioException
  | reflective
  deriving DecidableEq

/-- What another client does. -/
inductive Action where
  | connect
  | send (descriptors : List ℕ)
  | close
  deriving DecidableEq

namespace Net

variable (s : Net)

/-- Before the listener thread runs. -/
def fresh : Net :=
  ⟨.binding,true,[],fun _ => Link.none,fun _ => ⟨.idle,false⟩,[],[]⟩

/-- The listener thread has bound its socket. -/
def bound : Net := { fresh with pc := .loop }

/-- Change a connection. -/
def setLink (peer : Peer) (link : Link) : Net :=
  { s with links := Function.update s.links peer link }

/-- Move a constructor. -/
def setChannel (i : ℕ) (pc : ChannelPc) : Net :=
  { s with channels := Function.update s.channels i { s.channels i with pc := pc } }

/-- The constructor returns normally. -/
def returns (i : ℕ) : Net :=
  { s with
    channels := Function.update s.channels i ⟨.returned,decide ((.socket i,0)∈s.answers)⟩ }

/-- The listening socket takes connections. -/
def listening : Bool :=
  match s.pc with
  | .binding | .returned | .crashed => false
  | _ => true

/-- The listener thread ends and closes its sockets. -/
def hangUp (pc : ListenerPc) : Net :=
  { s with
    pc := pc
    backlog := []
    links := fun peer =>
      if (s.links peer).stage=.absent then s.links peer
      else { s.links peer with stage := .closed } }

/-- A client connects. -/
def enqueue (peer : Peer) : Net :=
  { s.setLink peer { s.links peer with stage := .queued } with backlog := s.backlog++[peer] }

/-- A client sends a byte with descriptors. -/
def push (peer : Peer) (descriptors : List Descriptor) : Net :=
  s.setLink peer { s.links peer with sent := (s.links peer).sent++[descriptors] }

/-- A client closes its end. -/
def shutdown (peer : Peer) : Net := s.setLink peer { s.links peer with shut := true }

/-- `LocalSocketListener.run` with `ProtectWorker.accept`, one step. -/
def listenerStep (device : Device) (choice : Choice) : Option Net :=
  match s.pc,choice with
  | .binding,.proceed => some { s with pc := .loop }
  | .binding,.ioException => some (s.hangUp .returned)
  | .loop,.proceed => some (if s.running then { s with pc := .accepting } else s.hangUp .returned)
  | .accepting,.proceed =>
    match s.backlog with
    | [] => none
    | peer::rest =>
      some { s.setLink peer { s.links peer with stage := .accepted } with
        pc := .reading peer, backlog := rest }
  | .accepting,.ioException => some { s with pc := .loop }
  | .reading peer,.proceed =>
    match (s.links peer).sent with
    | [] => if (s.links peer).shut then some { s with pc := .unpacking peer [] } else none
    | received::rest =>
      some { s.setLink peer { s.links peer with sent := rest } with pc := .unpacking peer received }
  | .reading peer,.ioException => some { s with pc := .closing peer }
  -- `!!` throws on null and `single()` on several, neither an `IOException`
  | .unpacking peer received,.proceed =>
    match received with
    | [fd] => some { s with pc := .protecting peer fd }
    | _ => some (s.hangUp .crashed)
  | .protecting peer fd,.proceed =>
    some { s with pc := .answering peer fd true, secured := s.secured++[fd] }
  | .protecting peer fd,.denied =>
    if device.binds then none else some { s with pc := .answering peer fd false }
  | .protecting peer _,.ioException =>
    if device.binds then some { s with pc := .closing peer } else none
  | .answering peer fd granted,.proceed =>
    let answer := if granted then 0 else 1
    some { s.setLink peer { s.links peer with answer := some answer } with
      pc := .closing peer, answers := s.answers++[(fd,answer)] }
  | .answering peer _ _,.ioException => some { s with pc := .closing peer }
  | .closing peer,.proceed =>
    some { s.setLink peer { s.links peer with stage := .closed } with pc := .loop }
  | .closing _,.ioException => some (s.hangUp .crashed)
  | _,_ => none

/-- The constructor of `CustomNioSocketChannel`, one step of the channel `i`.
The socket of a failed `connect` is closed, so nothing can be sent through it;
the byte that is read is not looked at. -/
def channelStep (device : Device) (i : ℕ) (outcome : Outcome) : Option Net :=
  match (s.channels i).pc,outcome with
  | .idle,.proceed => some (if device.protectPath then s.setChannel i .connect else s.returns i)
  | .connect,.proceed =>
    if s.listening then some ((s.enqueue (.channel i)).setChannel i .lookup) else none
  | .connect,.ioException => some (s.setChannel i .lookup)
  | .lookup,.proceed =>
    some (if device.getFileDescriptor then
      -- `getInt.invoke` on a null method is a `NullPointerException`
      if device.getInt then s.setChannel i .send else s.setChannel i .threw
    else s.returns i)
  | .lookup,.reflective => if device.getFileDescriptor then some (s.returns i) else none
  | .send,.proceed =>
    if (s.links (.channel i)).isOpen then
      some ((s.push (.channel i) [.socket i]).setChannel i .read)
    else none
  | .send,.ioException => some (s.returns i)
  | .read,.proceed =>
    if (s.links (.channel i)).answer≠none ∨ (s.links (.channel i)).stage=.closed then
      some (s.returns i)
    else none
  | .read,.ioException => some (s.returns i)
  | _,_ => none

/-- One action of another client. -/
def otherStep (k : ℕ) (action : Action) : Option Net :=
  match action with
  | .connect =>
    if s.listening ∧ s.links (.other k)=Link.none then some (s.enqueue (.other k)) else none
  | .send descriptors =>
    if (s.links (.other k)).isOpen then some (s.push (.other k) (descriptors.map .other)) else none
  | .close => if (s.links (.other k)).stage=.absent then none else some (s.shutdown (.other k))

/-- The local socket of a constructor that has ended is collected, which closes it. -/
def collectStep (i : ℕ) : Option Net :=
  if (s.channels i).pc=.returned ∨ (s.channels i).pc=.threw then some (s.shutdown (.channel i))
  else none

end Net

/-- Steps of both sides. -/
inductive Step where
  | listener (choice : Choice)
  | stopThread
  | channel (i : ℕ) (outcome : Outcome)
  | collect (i : ℕ)
  | other (k : ℕ) (action : Action)
  deriving DecidableEq

/-- Meaning of a step; `none` when it cannot happen. -/
def step (device : Device) (t : Step) (s : Net) : Option Net :=
  match t with
  | .listener choice => s.listenerStep device choice
  | .stopThread => some { s with running := false }
  | .channel i outcome => s.channelStep device i outcome
  | .collect i => s.collectStep i
  | .other k action => s.otherStep k action

/-- The protocol on a device. -/
def protocol (device : Device) : System Net Step Empty Empty := .ofStep (step device)

/-- The client that the listener thread serves. -/
def ListenerPc.client : ListenerPc → Option Peer
  | .reading peer | .unpacking peer _ | .protecting peer _ | .answering peer _ _
  | .closing peer => some peer
  | .binding | .loop | .accepting | .returned | .crashed => none

/-- What a step of the listener thread can do. -/
inductive Serves (device : Device) (s : Net) : Choice → Net → Prop
  | bind (h : s.pc=.binding) : Serves device s .proceed { s with pc := .loop }
  | unbound (h : s.pc=.binding) : Serves device s .ioException (s.hangUp .returned)
  | goOn (h : s.pc=.loop) (hr : s.running=true) : Serves device s .proceed { s with pc := .accepting }
  | stopped (h : s.pc=.loop) (hr : s.running=false) : Serves device s .proceed (s.hangUp .returned)
  | accept {peer : Peer} {rest : List Peer} (h : s.pc=.accepting) (hb : s.backlog=peer::rest) :
      Serves device s .proceed { s.setLink peer { s.links peer with stage := .accepted } with
        pc := .reading peer, backlog := rest }
  | failed (h : s.pc=.accepting) : Serves device s .ioException { s with pc := .loop }
  | ended {peer : Peer} (h : s.pc=.reading peer) (hs : (s.links peer).sent=[])
      (hshut : (s.links peer).shut=true) :
      Serves device s .proceed { s with pc := .unpacking peer [] }
  | received {peer : Peer} {descriptors : List Descriptor} {rest : List (List Descriptor)}
      (h : s.pc=.reading peer) (hs : (s.links peer).sent=descriptors::rest) :
      Serves device s .proceed { s.setLink peer { s.links peer with sent := rest } with
        pc := .unpacking peer descriptors }
  | unread {peer : Peer} (h : s.pc=.reading peer) :
      Serves device s .ioException { s with pc := .closing peer }
  | single {peer : Peer} {fd : Descriptor} (h : s.pc=.unpacking peer [fd]) :
      Serves device s .proceed { s with pc := .protecting peer fd }
  | crash {peer : Peer} {descriptors : List Descriptor} (h : s.pc=.unpacking peer descriptors)
      (hl : descriptors.length≠1) : Serves device s .proceed (s.hangUp .crashed)
  | protect {peer : Peer} {fd : Descriptor} (h : s.pc=.protecting peer fd) :
      Serves device s .proceed
        { s with pc := .answering peer fd true, secured := s.secured++[fd] }
  | deny {peer : Peer} {fd : Descriptor} (h : s.pc=.protecting peer fd) (hb : device.binds=false) :
      Serves device s .denied { s with pc := .answering peer fd false }
  | unboundSocket {peer : Peer} {fd : Descriptor} (h : s.pc=.protecting peer fd)
      (hb : device.binds=true) : Serves device s .ioException { s with pc := .closing peer }
  | answer {peer : Peer} {fd : Descriptor} {granted : Bool} (h : s.pc=.answering peer fd granted) :
      Serves device s .proceed { s.setLink peer
          { s.links peer with answer := some (if granted then 0 else 1) } with
        pc := .closing peer, answers := s.answers++[(fd,if granted then 0 else 1)] }
  | unanswered {peer : Peer} {fd : Descriptor} {granted : Bool}
      (h : s.pc=.answering peer fd granted) :
      Serves device s .ioException { s with pc := .closing peer }
  | close {peer : Peer} (h : s.pc=.closing peer) : Serves device s .proceed
      { s.setLink peer { s.links peer with stage := .closed } with pc := .loop }
  | unclosed {peer : Peer} (h : s.pc=.closing peer) :
      Serves device s .ioException (s.hangUp .crashed)

/-- What a step of a constructor can do. -/
inductive Constructs (device : Device) (s : Net) (i : ℕ) : Outcome → Net → Prop
  | start (h : (s.channels i).pc=.idle) (hp : device.protectPath=true) :
      Constructs device s i .proceed (s.setChannel i .connect)
  | unguarded (h : (s.channels i).pc=.idle) (hp : device.protectPath=false) :
      Constructs device s i .proceed (s.returns i)
  | connect (h : (s.channels i).pc=.connect) (hl : s.listening=true) :
      Constructs device s i .proceed ((s.enqueue (.channel i)).setChannel i .lookup)
  | refused (h : (s.channels i).pc=.connect) :
      Constructs device s i .ioException (s.setChannel i .lookup)
  | found (h : (s.channels i).pc=.lookup) (hf : device.getFileDescriptor=true) :
      Constructs device s i .proceed (s.setChannel i .send)
  | nullMethod (h : (s.channels i).pc=.lookup) (hf : device.getFileDescriptor=true) :
      Constructs device s i .proceed (s.setChannel i .threw)
  | missing (h : (s.channels i).pc=.lookup) (hf : device.getFileDescriptor=false) :
      Constructs device s i .proceed (s.returns i)
  | inaccessible (h : (s.channels i).pc=.lookup) : Constructs device s i .reflective (s.returns i)
  | send (h : (s.channels i).pc=.send) (ho : (s.links (.channel i)).isOpen=true) :
      Constructs device s i .proceed ((s.push (.channel i) [.socket i]).setChannel i .read)
  | unsent (h : (s.channels i).pc=.send) : Constructs device s i .ioException (s.returns i)
  | answered (h : (s.channels i).pc=.read)
      (ha : (s.links (.channel i)).answer≠none ∨ (s.links (.channel i)).stage=.closed) :
      Constructs device s i .proceed (s.returns i)
  | unheard (h : (s.channels i).pc=.read) : Constructs device s i .ioException (s.returns i)

/-- What a step of anybody can do. -/
inductive Acts (device : Device) (s : Net) : Step → Net → Prop
  | listener {choice : Choice} {s' : Net} (h : Serves device s choice s') :
      Acts device s (.listener choice) s'
  | stopThread : Acts device s .stopThread { s with running := false }
  | channel {i : ℕ} {outcome : Outcome} {s' : Net} (h : Constructs device s i outcome s') :
      Acts device s (.channel i outcome) s'
  | collect {i : ℕ} (h : (s.channels i).pc=.returned ∨ (s.channels i).pc=.threw) :
      Acts device s (.collect i) (s.shutdown (.channel i))
  | connect {k : ℕ} (hl : s.listening=true) (h : s.links (.other k)=Link.none) :
      Acts device s (.other k .connect) (s.enqueue (.other k))
  | send {k : ℕ} {descriptors : List ℕ} (ho : (s.links (.other k)).isOpen=true) :
      Acts device s (.other k (.send descriptors)) (s.push (.other k) (descriptors.map .other))
  | close {k : ℕ} (h : (s.links (.other k)).stage≠.absent) :
      Acts device s (.other k .close) (s.shutdown (.other k))

section Inversion

variable {s s' : Net} {device : Device} {t : Step}

theorem serves_step {choice : Choice} (h : s.listenerStep device choice=some s') :
    Serves device s choice s' := by
  unfold Net.listenerStep at h
  split at h
  · cases h; exact .bind ‹_›
  · cases h; exact .unbound ‹_›
  · cases h
    by_cases hr : s.running=true
    · rw [if_pos hr]
      exact .goOn ‹_› hr
    · rw [if_neg hr]
      exact .stopped ‹_› (by simpa using hr)
  · split at h
    · cases h
    · cases h; exact .accept ‹_› ‹_›
  · cases h; exact .failed ‹_›
  · split at h
    · split at h
      · cases h; exact .ended ‹_› ‹_› ‹_›
      · cases h
    · cases h; exact .received ‹_› ‹_›
  · cases h; exact .unread ‹_›
  · split at h
    · cases h; exact .single ‹_›
    · rename_i hone
      cases h
      refine .crash ‹_› (fun hl => ?_)
      obtain ⟨fd,rfl⟩ := List.length_eq_one_iff.mp hl
      exact hone fd rfl
  · cases h; exact .protect ‹_›
  · split at h
    · cases h
    · cases h; exact .deny ‹_› (by simp_all)
  · split at h
    · cases h; exact .unboundSocket ‹_› ‹_›
    · cases h
  · cases h; exact .answer ‹_›
  · cases h; exact .unanswered ‹_›
  · cases h; exact .close ‹_›
  · cases h; exact .unclosed ‹_›
  · cases h

theorem constructs_step {i : ℕ} {outcome : Outcome} (h : s.channelStep device i outcome=some s') :
    Constructs device s i outcome s' := by
  unfold Net.channelStep at h
  split at h
  · cases h
    by_cases hp : device.protectPath=true
    · rw [if_pos hp]
      exact .start ‹_› hp
    · rw [if_neg hp]
      exact .unguarded ‹_› (by simpa using hp)
  · split at h
    · cases h; exact .connect ‹_› ‹_›
    · cases h
  · cases h; exact .refused ‹_›
  · cases h
    by_cases hf : device.getFileDescriptor=true
    · rw [if_pos hf]
      split
      · exact .found ‹_› hf
      · exact .nullMethod ‹_› hf
    · rw [if_neg hf]
      exact .missing ‹_› (by simpa using hf)
  · split at h
    · cases h; exact .inaccessible ‹_›
    · cases h
  · split at h
    · cases h; exact .send ‹_› ‹_›
    · cases h
  · cases h; exact .unsent ‹_›
  · split at h
    · cases h; exact .answered ‹_› ‹_›
    · cases h
  · cases h; exact .unheard ‹_›
  · cases h

/-- Every step is one of these. -/
theorem step_acts (h : step device t s=some s') : Acts device s t s' := by
  cases t with
  | listener choice => exact .listener (serves_step h)
  | stopThread => cases h; exact .stopThread
  | channel i outcome => exact .channel (constructs_step h)
  | collect i =>
    simp only [step,Net.collectStep] at h
    split at h
    · cases h; exact .collect ‹_›
    · cases h
  | other k action =>
    cases action with
    | connect =>
      simp only [step,Net.otherStep] at h
      split at h
      · rename_i hc
        cases h
        exact .connect hc.1 hc.2
      · cases h
    | send descriptors =>
      simp only [step,Net.otherStep] at h
      split at h
      · cases h; exact .send ‹_›
      · cases h
    | close =>
      simp only [step,Net.otherStep] at h
      split at h
      · cases h
      · cases h; exact .close ‹_›

end Inversion

end ProxyDroid.ProtectProtocol
