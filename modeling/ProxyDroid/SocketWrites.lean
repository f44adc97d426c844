import Mathlib.Data.List.Infix
import ProxyDroid.CallSemantics
import ProxyDroid.ConnectionTypes

/-!
# Writing to a socket

`CustomNioSocketChannel.doWrite` moves the flushed messages of the outbound buffer to the socket.
The socket takes any part of what it is offered; what it takes is removed from the buffer, and
the promise of a message succeeds with its last byte. The listeners of a promise run at once and
may flush further messages into the buffer that is being written. A write that is not complete
goes on when the socket is writable again or with a task of the event loop. Bytes reach the
socket in the order of their messages, none is lost or repeated, and no message is left behind.

The runs are those of a channel that stays open. Two ways out of `doWrite` are left out: a call of
`write` that throws, which leaves the messages in the buffer with neither `OP_WRITE` nor a task,
and a listener that closes the channel, which fails all promises that are still open.
-/

namespace ProxyDroid.SocketWrites

open CallSemantics
open ConnectionTypes (Bytes)

/-- A flushed entry of `ChannelOutboundBuffer`. -/
structure Entry where
  /-- The message. -/
  message : Bytes
  /-- The reader index of its buffer. -/
  readerIndex : ℕ
  deriving DecidableEq

/-- The readable bytes of an entry. -/
def Entry.readable (e : Entry) : Bytes := e.message.drop e.readerIndex

/-- Reading bytes off an entry. -/
def Entry.skip (e : Entry) (n : ℕ) : Entry := {e with readerIndex:=e.readerIndex+n}

/-- A message before anything of it is written. -/
def Entry.of (message : Bytes) : Entry := ⟨message,0⟩

/-- What follows on `removeBytes`. -/
inductive After where
  /-- Everything that was offered is written; the loop goes on. -/
  | again
  /-- `incompleteWrite`. -/
  | incomplete (setOpWrite : Bool)
  deriving DecidableEq

/-- Where the event loop is in `doWrite`. -/
inductive Pc where
  /-- Not in `doWrite`. -/
  | idle
  /-- In a spin loop, with the number of calls left, the bytes of the buffers, and
  `expectedWrittenBytes` and `writtenBytes`. -/
  | writing (spins : ℕ) (batch : Bytes) (expected written : ℕ)
  /-- In `removeBytes`, about to remove the first entry. -/
  | removing (written : ℕ) (after : After)
  /-- In `super.doWrite`, with its write spin count. -/
  | fallback (spins : ℕ)
  deriving DecidableEq

/-- The channel as the event loop sees it. -/
structure Channel where
  /-- The flushed entries. -/
  flushed : List Entry
  /-- Whether `OP_WRITE` is set. -/
  opWrite : Bool
  /-- The flush tasks in the queue of the event loop. -/
  tasks : ℕ
  /-- Where the event loop is. -/
  pc : Pc
  /-- The bytes the socket has taken. -/
  sent : Bytes
  /-- The messages whose promises have succeeded, the first one first. -/
  completed : List Bytes
  deriving DecidableEq

/-- `getWriteSpinCount`. -/
def writeSpinCount : ℕ := 16

/-- `nioBuffers`: the readable bytes of the entries that have some, up to `Integer.MAX_VALUE`
bytes but at least one entry. -/
def nioBuffers : ℕ → List Entry → List Bytes
  | _,[] => []
  | size,e::es =>
    if e.readable=[] then nioBuffers size es
    else if 2147483647<e.readable.length+size ∧ size≠0 then []
    else e.readable::nioBuffers (size+e.readable.length) es

namespace Channel

variable (c : Channel)

/-- A channel nothing has been written to. -/
def fresh : Channel := ⟨[],false,0,.idle,[],[]⟩

/-- `clearOpWrite` at the end of a write that is complete. -/
def complete : Channel := {c with opWrite:=false,pc:=.idle}

/-- `incompleteWrite`: wait for the socket or leave the rest to a task. -/
def incompleteWrite (setOpWrite : Bool) : Channel :=
  if setOpWrite=true then {c with opWrite:=true,pc:=.idle}
  else {c with opWrite:=false,tasks:=c.tasks+1,pc:=.idle}

/-- The head of the loop of `doWrite`. -/
def loopHead : Channel :=
  if c.flushed=[] then c.complete
  else
    let buffers := nioBuffers 0 c.flushed
    if buffers=[] then {c with pc:=.fallback writeSpinCount}
    else {c with pc:=.writing writeSpinCount buffers.flatten buffers.flatten.length 0}

/-- `doWrite` goes on behind `removeBytes`. -/
def resume : After → Channel
  | .again => c.loopHead
  | .incomplete setOpWrite => c.incompleteWrite setOpWrite

/-- `removeBytes` up to the next entry that is removed. -/
def removeBytes (written : ℕ) (after : After) : Channel :=
  match c.flushed with
  | [] => c.resume after
  | e::es =>
    if e.readable.length≤written then {c with pc:=.removing written after}
    else ({c with flushed:=e.skip written::es} : Channel).resume after

/-- `flush0` of `AbstractUnsafe`. -/
def flush0 : Channel := if c.flushed=[] then c else c.loopHead

/-- `flush0` of `AbstractNioUnsafe`: nothing while the socket is waited for. -/
def nioFlush0 : Channel := if c.opWrite=true then c else c.flush0

/-- Messages are written and flushed. -/
def flush (messages : List Bytes) : Channel := {c with flushed:=c.flushed++messages.map Entry.of}

/-- An entry leaves the buffer, its promise succeeds, and its listeners flush messages. -/
def remove (e : Entry) (es : List Entry) (messages : List Bytes) : Channel :=
  ({c with flushed:=es,completed:=c.completed++[e.message]} : Channel).flush messages

/-- The socket takes bytes in a spin loop of `doWrite`. -/
def written (spins : ℕ) (batch : Bytes) (expected written localWritten : ℕ) : Channel :=
  if localWritten=0 then c.removeBytes written (.incomplete true)
  else
    let c := {c with sent:=c.sent++(batch.drop written).take localWritten}
    if expected-localWritten=0 then c.removeBytes (written+localWritten) .again
    else if spins≤1 then c.removeBytes (written+localWritten) (.incomplete false)
    else
      {c with pc:=.writing (spins-1) batch (expected-localWritten) (written+localWritten)}

/-- The socket takes bytes of the first entry in `super.doWrite`. -/
def writtenFallback (spins : ℕ) (e : Entry) (es : List Entry) (localWritten : ℕ) : Channel :=
  if localWritten=0 then c.incompleteWrite true
  else
    let c := {c with sent:=c.sent++e.readable.take localWritten,flushed:=e.skip localWritten::es}
    if (e.skip localWritten).readable≠[] ∧ spins≤1 then c.incompleteWrite false
    else {c with pc:=.fallback (spins-1)}

/-- `super.doWrite` behind the removal of an entry. -/
def removedFallback (spins : ℕ) : Channel :=
  if spins=0 then c.incompleteWrite false
  else if c.flushed=[] then c.complete
  else {c with pc:=.fallback spins}

end Channel

/-- What happens next on the event loop. -/
inductive Event where
  /-- Messages are written to the channel and flushed. -/
  | flush (messages : List Bytes)
  /-- A flush task is run. -/
  | task
  /-- The socket is writable again. -/
  | writable
  /-- A call of `write` returns the number of bytes the socket has taken. -/
  | wrote (localWritten : ℕ)
  /-- An entry is removed; the listeners of its promise flush messages. -/
  | removed (messages : List Bytes)

/-- One step of the event loop. -/
def step : Event → Channel → Option Channel
  | .flush messages,c => if c.pc=.idle then some (c.flush messages).nioFlush0 else none
  | .task,c =>
    if c.pc=.idle ∧ 0<c.tasks then some {c with tasks:=c.tasks-1}.nioFlush0 else none
  | .writable,c => if c.pc=.idle ∧ c.opWrite=true then some c.flush0 else none
  | .wrote localWritten,c =>
    match c.pc,c.flushed with
    | .writing spins batch expected written,_ =>
      if localWritten≤expected then some (c.written spins batch expected written localWritten)
      else none
    | .fallback spins,e::es =>
      if e.readable≠[] ∧ localWritten≤e.readable.length then
        some (c.writtenFallback spins e es localWritten)
      else none
    | _,_ => none
  | .removed messages,c =>
    match c.pc,c.flushed with
    | .removing written after,e::es =>
      some ((c.remove e es messages).removeBytes (written-e.readable.length) after)
    | .fallback spins,e::es =>
      if e.readable=[] then some ((c.remove e es messages).removedFallback spins) else none
    | _,_ => none

/-- The messages an event brings to the channel. -/
def Event.messages : Event → List Bytes
  | .flush messages | .removed messages => messages
  | .task | .writable | .wrote _ => []

/-- The messages that have been flushed on a run, the first one first. -/
def submitted (evs : List Event) : List Bytes := evs.flatMap Event.messages

/-- The readable bytes of entries, one behind the other. -/
def readables (es : List Entry) : Bytes := es.flatMap Entry.readable

@[simp] theorem readables_nil : readables []=[] := rfl

@[simp] theorem readables_cons (e : Entry) (es : List Entry) :
    readables (e::es)=e.readable++readables es := List.flatMap_cons

@[simp] theorem readables_append (es fs : List Entry) :
    readables (es++fs)=readables es++readables fs := List.flatMap_append

@[simp] theorem readables_of (messages : List Bytes) :
    readables (messages.map Entry.of)=messages.flatten := by
  induction messages with
  | nil => rfl
  | cons message messages ih =>
    rw [List.map_cons,readables_cons,ih]
    rfl

@[simp] theorem map_message_of (messages : List Bytes) :
    (messages.map Entry.of).map Entry.message=messages := by
  rw [List.map_map]
  exact List.map_id messages

@[simp] theorem readable_skip (e : Entry) (n : ℕ) : (e.skip n).readable=e.readable.drop n := by
  simp [Entry.readable,Entry.skip,List.drop_drop]

/-- The buffers that are offered are the first bytes that are to be written. -/
theorem nioBuffers_front (size : ℕ) (es : List Entry) :
    (nioBuffers size es).flatten<+:readables es := by
  fun_induction nioBuffers size es with
  | case1 => exact List.nil_prefix
  | case2 size e es he ih =>
    rw [readables_cons,he]
    exact ih
  | case3 => exact List.nil_prefix
  | case4 size e es he hlimit ih =>
    rw [List.flatten_cons,readables_cons]
    exact (List.prefix_append_right_inj e.readable).mpr ih

/-- The first entry that has bytes is offered. -/
theorem nioBuffers_eq_nil {es : List Entry} (h : (nioBuffers 0 es).flatten=[]) :
    nioBuffers 0 es=[] ∧ readables es=[] := by
  induction es with
  | nil => exact ⟨rfl,rfl⟩
  | cons e es ih =>
    by_cases he : e.readable=[]
    · rw [nioBuffers,if_pos he] at h ⊢
      rw [readables_cons,he]
      exact ih h
    · rw [nioBuffers,if_neg he,if_neg (fun hl => hl.2 rfl)] at h
      exact absurd (List.append_eq_nil_iff.mp h).1 he

/-- The bytes in front of the entries that `doWrite` has written but not yet removed. -/
def ahead : Pc → ℕ
  | .writing _ _ _ written | .removing written _ => written
  | .idle | .fallback _ => 0

/-- What holds where the event loop is. -/
def Phase (c : Channel) : Prop :=
  match c.pc with
  | .idle => (c.flushed≠[] → c.opWrite=true ∨ 0<c.tasks) ∧ (c.opWrite=true → c.flushed≠[])
  | .writing _ batch expected written =>
    batch<+:readables c.flushed ∧ expected+written=batch.length ∧ 0<expected
  | .removing written after =>
    (∃ e es, c.flushed=e::es ∧ e.readable.length≤written) ∧
      written≤(readables c.flushed).length ∧
      (after=.incomplete true → written<(readables c.flushed).length)
  | .fallback spins => ∃ e es, c.flushed=e::es ∧ (spins=0 → e.readable=[])

/-- The buffer holds the messages whose promises are open and, behind the bytes the socket has
taken, all the bytes of the messages. -/
structure Accounts (messages : List Bytes) (written : ℕ) (c : Channel) : Prop where
  /-- Each message has an open promise or a succeeded one, in order. -/
  entries : messages=c.completed++c.flushed.map Entry.message
  /-- Each byte is taken or to be written, in order. -/
  stream : c.sent++(readables c.flushed).drop written=messages.flatten

/-- What holds on every run. -/
structure Inv (messages : List Bytes) (c : Channel) : Prop where
  accounts : Accounts messages (ahead c.pc) c
  phase : Phase c

theorem inv_fresh : Inv [] .fresh := ⟨⟨rfl,rfl⟩,fun h => absurd rfl h,fun h => (by cases h)⟩

section Parts

variable {messages : List Bytes} {c : Channel}

theorem Accounts.complete (h : Accounts messages 0 c) (hnone : c.flushed=[]) :
    Inv messages c.complete :=
  ⟨⟨h.entries,h.stream⟩,fun hne => absurd hnone hne,fun hop => (by cases hop)⟩

theorem Accounts.incompleteWrite (h : Accounts messages 0 c) {setOpWrite : Bool}
    (hset : setOpWrite=true → c.flushed≠[]) : Inv messages (c.incompleteWrite setOpWrite) := by
  cases setOpWrite with
  | true => exact ⟨⟨h.entries,h.stream⟩,fun _ => .inl rfl,fun _ => hset rfl⟩
  | false => exact ⟨⟨h.entries,h.stream⟩,fun _ => .inr (Nat.succ_pos _),fun hop => (by cases hop)⟩

/-- The loop is entered with everything taken accounted for. -/
theorem Accounts.loopHead (h : Accounts messages 0 c) : Inv messages c.loopHead := by
  unfold Channel.loopHead
  by_cases hnone : c.flushed=[]
  · rw [if_pos hnone]
    exact h.complete hnone
  · rw [if_neg hnone]
    obtain ⟨e,es,hes⟩ := List.exists_cons_of_ne_nil hnone
    by_cases hb : nioBuffers 0 c.flushed=[]
    · simp only [if_pos hb]
      exact ⟨⟨h.entries,h.stream⟩,e,es,hes,fun h0 => (by cases h0)⟩
    · simp only [if_neg hb]
      refine ⟨⟨h.entries,h.stream⟩,nioBuffers_front 0 c.flushed,Nat.add_zero _,?_⟩
      rw [List.length_pos_iff]
      exact fun hflat => hb (nioBuffers_eq_nil hflat).1

/-- `doWrite` goes on when what is written has been removed. -/
theorem Accounts.resume (h : Accounts messages 0 c) {after : After}
    (hafter : after=.incomplete true → c.flushed≠[]) : Inv messages (c.resume after) := by
  cases after with
  | again => exact h.loopHead
  | incomplete setOpWrite =>
    exact h.incompleteWrite (fun hset => hafter (by rw [hset]))

/-- `removeBytes` removes what is written from the accounts. -/
theorem Accounts.removeBytes {written : ℕ} (h : Accounts messages written c) {after : After}
    (hle : written≤(readables c.flushed).length)
    (hafter : after=.incomplete true → written<(readables c.flushed).length) :
    Inv messages (c.removeBytes written after) := by
  unfold Channel.removeBytes
  split
  · rename_i hes
    rw [hes] at hle hafter
    have hzero : written=0 := Nat.le_zero.mp hle
    subst hzero
    exact h.resume (fun ha => absurd (hafter ha) (Nat.lt_irrefl 0))
  · rename_i e es hes
    by_cases hlen : e.readable.length≤written
    · rw [if_pos hlen]
      exact ⟨⟨h.entries,h.stream⟩,⟨e,es,hes,hlen⟩,hle,hafter⟩
    · rw [if_neg hlen]
      refine Accounts.resume ⟨?_,?_⟩ (fun _ => List.cons_ne_nil _ _)
      · rw [h.entries,hes]
        rfl
      · rw [←h.stream,hes,readables_cons,readables_cons,readable_skip,List.drop_zero,
          List.drop_append_of_le_length (by omega)]

/-- Flushing adds messages behind the others. -/
theorem Accounts.flush {written : ℕ} (h : Accounts messages written c)
    (hle : written≤(readables c.flushed).length) (more : List Bytes) :
    Accounts (messages++more) written (c.flush more) := by
  refine ⟨?_,?_⟩
  · rw [h.entries,Channel.flush,List.map_append,map_message_of,List.append_assoc]
  · rw [Channel.flush,readables_append,readables_of,List.drop_append_of_le_length hle,
      ←List.append_assoc,h.stream,List.flatten_append]

/-- The first entry leaves the buffer when it is written. -/
theorem Accounts.remove {written : ℕ} (h : Accounts messages written c) {e : Entry}
    {es : List Entry} (hes : c.flushed=e::es) (hlen : e.readable.length≤written)
    (hle : written≤(readables c.flushed).length) (more : List Bytes) :
    Accounts (messages++more) (written-e.readable.length) (c.remove e es more) := by
  refine Accounts.flush ⟨?_,?_⟩ ?_ more
  · rw [h.entries,hes,List.map_cons,List.append_assoc]
    rfl
  · rw [←h.stream,hes,readables_cons,List.drop_append,List.drop_eq_nil_of_le hlen,List.nil_append]
  · rw [hes,readables_cons,List.length_append] at hle
    change _≤(readables es).length
    omega

/-- Writing starts from the idle event loop. -/
theorem Accounts.flush0 (h : Accounts messages 0 c) (hidle : c.pc=.idle)
    (hop : c.opWrite=true → c.flushed≠[]) : Inv messages c.flush0 := by
  unfold Channel.flush0
  by_cases hnone : c.flushed=[]
  · rw [if_pos hnone]
    refine ⟨by rw [hidle]; exact h,?_⟩
    unfold Phase
    rw [hidle]
    exact ⟨fun hne => absurd hnone hne,hop⟩
  · rw [if_neg hnone]
    exact h.loopHead

theorem Accounts.nioFlush0 (h : Accounts messages 0 c) (hidle : c.pc=.idle)
    (hop : c.opWrite=true → c.flushed≠[]) : Inv messages c.nioFlush0 := by
  unfold Channel.nioFlush0
  by_cases hset : c.opWrite=true
  · rw [if_pos hset]
    refine ⟨by rw [hidle]; exact h,?_⟩
    unfold Phase
    rw [hidle]
    exact ⟨fun _ => .inl hset,hop⟩
  · rw [if_neg hset]
    exact h.flush0 hidle hop

/-- The accounts by what the event loop is doing. -/
theorem Inv.accounts_of (h : Inv messages c) {pc : Pc} (hpc : c.pc=pc) :
    Accounts messages (ahead pc) c := by
  rw [←hpc]
  exact h.accounts

/-- The accounts and the arming of an idle event loop. -/
theorem Inv.idle (h : Inv messages c) (hidle : c.pc=.idle) :
    Accounts messages 0 c ∧ (c.flushed≠[] → c.opWrite=true ∨ 0<c.tasks) ∧
      (c.opWrite=true → c.flushed≠[]) := by
  have hp := h.phase
  unfold Phase at hp
  rw [hidle] at hp
  exact ⟨h.accounts_of hidle,hp⟩

/-- The socket takes a part of what it is offered. -/
theorem Inv.written {spins expected written : ℕ} {batch : Bytes} (h : Inv messages c)
    (hpc : c.pc=.writing spins batch expected written) {localWritten : ℕ}
    (hle : localWritten≤expected) :
    Inv messages (c.written spins batch expected written localWritten) := by
  have ha : Accounts messages written c := h.accounts_of hpc
  have hp := h.phase
  unfold Phase at hp
  rw [hpc] at hp
  obtain ⟨hbatch,hsum,hpos⟩ := hp
  have hlen := hbatch.length_le
  unfold Channel.written
  by_cases h0 : localWritten=0
  · rw [if_pos h0]
    exact Accounts.removeBytes ha (by omega) (fun _ => by omega)
  · rw [if_neg h0]
    -- What the socket takes moves from the front of the rest to the bytes it has.
    have hmoved : Accounts messages (written+localWritten)
        {c with sent:=c.sent++(batch.drop written).take localWritten} := by
      refine ⟨ha.entries,?_⟩
      obtain ⟨behind,hb⟩ := hbatch
      rw [←ha.stream,←hb,List.append_assoc,←List.drop_drop]
      rw [List.drop_append_of_le_length (by omega),List.drop_append_of_le_length
        (by rw [List.length_drop]; omega),←List.append_assoc (List.take _ _),List.take_append_drop]
    dsimp only
    by_cases hdone : expected-localWritten=0
    · rw [if_pos hdone]
      exact hmoved.removeBytes (by dsimp only; omega) (fun ha => (by cases ha))
    · rw [if_neg hdone]
      by_cases hspin : spins≤1
      · rw [if_pos hspin]
        exact hmoved.removeBytes (by dsimp only; omega) (fun ha => (by cases ha))
      · rw [if_neg hspin]
        exact ⟨⟨hmoved.entries,hmoved.stream⟩,hbatch,by omega,by omega⟩

/-- The socket takes a part of the first entry. -/
theorem Inv.writtenFallback {spins : ℕ} (h : Inv messages c) (hpc : c.pc=.fallback spins)
    {e : Entry} {es : List Entry} (hes : c.flushed=e::es) (localWritten : ℕ) :
    Inv messages (c.writtenFallback spins e es localWritten) := by
  have ha : Accounts messages 0 c := h.accounts_of hpc
  unfold Channel.writtenFallback
  by_cases h0 : localWritten=0
  · rw [if_pos h0]
    exact Accounts.incompleteWrite ha (fun _ => by rw [hes]; exact List.cons_ne_nil e es)
  · rw [if_neg h0]
    have hmoved : Accounts messages 0 {c with
        sent:=c.sent++e.readable.take localWritten,flushed:=e.skip localWritten::es} := by
      refine ⟨by rw [ha.entries,hes]; rfl,?_⟩
      rw [←ha.stream,hes]
      simp only [List.drop_zero,readables_cons,readable_skip]
      rw [List.append_assoc,←List.append_assoc (List.take _ _),List.take_append_drop]
    dsimp only
    split
    · exact hmoved.incompleteWrite (fun hset => (by cases hset))
    · rename_i hnot
      refine ⟨⟨hmoved.entries,hmoved.stream⟩,_,_,rfl,fun hzero => ?_⟩
      by_contra hne
      exact hnot ⟨hne,by omega⟩

/-- An entry is removed in `removeBytes`. -/
theorem Inv.removed {written : ℕ} {after : After} (h : Inv messages c)
    (hpc : c.pc=.removing written after) {e : Entry} {es : List Entry} (hes : c.flushed=e::es)
    (more : List Bytes) :
    Inv (messages++more) ((c.remove e es more).removeBytes (written-e.readable.length) after) := by
  have ha : Accounts messages written c := h.accounts_of hpc
  have hp := h.phase
  unfold Phase at hp
  rw [hpc] at hp
  obtain ⟨⟨e',es',hes',hlen⟩,hle,hafter⟩ := hp
  obtain ⟨rfl,rfl⟩ := List.cons.inj (hes.symm.trans hes')
  have hrest : (readables (c.remove e es more).flushed).length+e.readable.length=
      (readables c.flushed).length+more.flatten.length := by
    simp only [Channel.remove,Channel.flush,hes,readables_cons,readables_append,readables_of,
      List.length_append]
    omega
  refine (ha.remove hes hlen hle more).removeBytes (by omega) (fun hinc => ?_)
  have := hafter hinc
  omega

/-- An entry without bytes is removed in `super.doWrite`. -/
theorem Inv.removedFallback {spins : ℕ} (h : Inv messages c) (hpc : c.pc=.fallback spins)
    {e : Entry} {es : List Entry} (hes : c.flushed=e::es) (hnone : e.readable=[])
    (more : List Bytes) :
    Inv (messages++more) ((c.remove e es more).removedFallback spins) := by
  have ha : Accounts messages 0 c := h.accounts_of hpc
  have hr : Accounts (messages++more) 0 (c.remove e es more) := by
    have := ha.remove hes (by rw [hnone]; exact Nat.le_refl 0) (Nat.zero_le _) more
    rwa [hnone] at this
  unfold Channel.removedFallback
  by_cases hz : spins=0
  · rw [if_pos hz]
    exact hr.incompleteWrite (fun hset => (by cases hset))
  · rw [if_neg hz]
    by_cases hempty : (c.remove e es more).flushed=[]
    · rw [if_pos hempty]
      exact hr.complete hempty
    · rw [if_neg hempty]
      obtain ⟨f,fs,hfs⟩ := List.exists_cons_of_ne_nil hempty
      exact ⟨⟨hr.entries,hr.stream⟩,f,fs,hfs,fun h0 => absurd h0 hz⟩

/-- Every step of the event loop keeps the accounts. -/
theorem Inv.stepped {ev : Event} {c' : Channel} (h : Inv messages c) (hstep : step ev c=some c') :
    Inv (messages++ev.messages) c' := by
  cases ev with
  | flush more =>
    obtain ⟨hidle,hc⟩ := Option.ite_none_right_eq_some.mp hstep
    cases hc
    obtain ⟨ha,-,hop⟩ := h.idle hidle
    refine (ha.flush (Nat.zero_le _) more).nioFlush0 hidle (fun hset => ?_)
    exact fun hnone => hop hset (List.append_eq_nil_iff.mp hnone).1
  | task =>
    obtain ⟨⟨hidle,-⟩,hc⟩ := Option.ite_none_right_eq_some.mp hstep
    cases hc
    obtain ⟨ha,-,hop⟩ := h.idle hidle
    rw [Event.messages,List.append_nil]
    exact Accounts.nioFlush0 ⟨ha.entries,ha.stream⟩ hidle hop
  | writable =>
    obtain ⟨⟨hidle,-⟩,hc⟩ := Option.ite_none_right_eq_some.mp hstep
    cases hc
    obtain ⟨ha,-,hop⟩ := h.idle hidle
    rw [Event.messages,List.append_nil]
    exact ha.flush0 hidle hop
  | wrote localWritten =>
    rw [Event.messages,List.append_nil]
    simp only [step] at hstep
    split at hstep
    · rename_i hpc
      obtain ⟨hle,hc⟩ := Option.ite_none_right_eq_some.mp hstep
      cases hc
      exact h.written hpc hle
    · rename_i hpc hes
      obtain ⟨-,hc⟩ := Option.ite_none_right_eq_some.mp hstep
      cases hc
      exact h.writtenFallback hpc hes localWritten
    · cases hstep
  | removed more =>
    simp only [step] at hstep
    split at hstep
    · rename_i hpc hes
      cases hstep
      exact h.removed hpc hes more
    · rename_i hpc hes
      obtain ⟨hnone,hc⟩ := Option.ite_none_right_eq_some.mp hstep
      cases hc
      exact h.removedFallback hpc hes hnone more
    · cases hstep

end Parts

/-- The accounts hold on every run. -/
theorem run_inv {evs : List Event} {c : Channel} (h : (System.ofStep step).Run .fresh evs c) :
    Inv (submitted evs) c := by
  have hsim := h.simulates (R:=fun messages c => Inv messages c)
    (fun messages c ev c' hi _ ht => hi.stepped (System.turn_ofStep.mp ht)) inv_fresh
  have hfold : ∀ (evs : List Event) (messages : List Bytes),
      evs.foldl (fun messages ev => messages++ev.messages) messages=messages++submitted evs := by
    intro evs
    induction evs with
    | nil => exact fun messages => (List.append_nil messages).symm
    | cons ev evs ih =>
      intro messages
      rw [List.foldl_cons,ih,submitted,submitted,List.flatMap_cons,List.append_assoc]
  rwa [hfold,List.nil_append] at hsim

/-- What is to be written of an entry is no longer than its message. -/
theorem readables_length_le (es : List Entry) :
    (readables es).length≤(es.map Entry.message).flatten.length := by
  induction es with
  | nil => exact Nat.le_refl 0
  | cons e es ih =>
    rw [readables_cons,List.map_cons,List.flatten_cons,List.length_append,List.length_append]
    have he : e.readable.length≤e.message.length := by
      rw [Entry.readable,List.length_drop]
      exact Nat.sub_le _ _
    omega

/-- An empty buffer means that all is written. -/
theorem Inv.emptied {messages : List Bytes} {c : Channel} (h : Inv messages c)
    (hnone : c.flushed=[]) : c.sent=messages.flatten ∧ c.completed=messages := by
  obtain ⟨hentries,hstream⟩ := h.accounts
  rw [hnone] at hentries hstream
  rw [readables_nil,List.drop_nil,List.append_nil] at hstream
  rw [List.map_nil,List.append_nil] at hentries
  exact ⟨hstream,hentries.symm⟩

/-- On every run the bytes of the flushed messages reach the socket in their order, without
loss, repetition or change. The promises succeed in the order of the messages, each one only
when the socket has taken its whole message; when the buffer is empty, all have. -/
theorem writes_in_order {evs : List Event} {c : Channel}
    (h : (System.ofStep step).Run .fresh evs c) :
    c.sent<+:(submitted evs).flatten ∧ c.completed<+:submitted evs ∧
      c.completed.flatten<+:c.sent ∧
      (c.flushed=[] → c.sent=(submitted evs).flatten ∧ c.completed=submitted evs) := by
  obtain ⟨hentries,hstream⟩ := (run_inv h).accounts
  have hsent : c.sent<+:(submitted evs).flatten := ⟨_,hstream⟩
  have hcompleted : c.completed<+:submitted evs := ⟨_,hentries.symm⟩
  have hflat : c.completed.flatten<+:(submitted evs).flatten := by
    rw [hentries,List.flatten_append]
    exact List.prefix_append _ _
  refine ⟨hsent,hcompleted,List.prefix_of_prefix_length_le hflat hsent ?_,(run_inv h).emptied⟩
  have hle := readables_length_le c.flushed
  have hlen := congrArg List.length hstream
  rw [hentries,List.flatten_append,List.length_append,List.length_append,List.length_drop] at hlen
  omega

/-- Two messages, a socket that takes two bytes and then has to be waited for, and a listener
that writes a third message. -/
def sampleEvents : List Event :=
  [Event.flush [[1,2,3],[4]],.wrote 2,.wrote 0,.writable,.wrote 2,.removed [],.removed [[5]],
    .wrote 0]

theorem run_sample : (System.ofStep step).Run .fresh sampleEvents
    (System.after step .fresh sampleEvents) := System.run_after (by decide +kernel)

theorem writes_in_order_sample :
    (System.after step .fresh sampleEvents).completed<+:submitted sampleEvents :=
  (writes_in_order run_sample).2.1

/-- The bytes and promises that are open, and whether the event loop has left `doWrite`. -/
def remaining (messages : List Bytes) (c : Channel) : ℕ :=
  2*(messages.flatten.length-c.sent.length+(messages.length-c.completed.length))+
    if c.pc=.idle then 1 else 0

section Kept

variable (c : Channel)

/-- Nothing is taken by the socket and no promise succeeds. -/
def Kept (c c' : Channel) : Prop := c'.sent=c.sent ∧ c'.completed=c.completed

theorem kept_incompleteWrite (setOpWrite : Bool) : Kept c (c.incompleteWrite setOpWrite) := by
  cases setOpWrite with
  | true => exact ⟨rfl,rfl⟩
  | false => exact ⟨rfl,rfl⟩

theorem kept_loopHead : Kept c c.loopHead := by
  unfold Channel.loopHead
  dsimp only
  split_ifs
  · exact ⟨rfl,rfl⟩
  · exact ⟨rfl,rfl⟩
  · exact ⟨rfl,rfl⟩

theorem kept_resume (after : After) : Kept c (c.resume after) := by
  cases after with
  | again => exact kept_loopHead c
  | incomplete setOpWrite => exact kept_incompleteWrite c setOpWrite

theorem kept_removeBytes (written : ℕ) (after : After) : Kept c (c.removeBytes written after) := by
  unfold Channel.removeBytes
  split
  · exact kept_resume c after
  · split_ifs
    · exact ⟨rfl,rfl⟩
    · exact kept_resume _ after

theorem kept_removedFallback (spins : ℕ) : Kept c (c.removedFallback spins) := by
  unfold Channel.removedFallback
  split_ifs
  · exact kept_incompleteWrite c false
  · exact ⟨rfl,rfl⟩
  · exact ⟨rfl,rfl⟩

end Kept

section Progress

variable {messages : List Bytes} {c : Channel}

theorem Inv.bounds (h : Inv messages c) :
    c.sent.length≤ messages.flatten.length ∧ c.completed.length≤ messages.length := by
  obtain ⟨hentries,hstream⟩ := h.accounts
  rw [←hstream]
  refine ⟨by rw [List.length_append]; exact Nat.le_add_right _ _,?_⟩
  rw [hentries,List.length_append]
  exact Nat.le_add_right _ _

/-- The socket and the event loop can do a part of what remains, without new messages. -/
def Advances (messages : List Bytes) (c : Channel) : Prop :=
  ∃ ev c', ev.messages=[] ∧ step ev c=some c' ∧ remaining messages c'< remaining messages c

/-- A step that moves bytes or fulfils a promise does a part of what remains. -/
theorem Inv.advances {ev : Event} {c' : Channel} (h : Inv messages c) (hquiet : ev.messages=[])
    (hstep : step ev c=some c')
    (hmore : c.sent.length+c.completed.length<c'.sent.length+c'.completed.length) :
    Advances messages c := by
  have h' := h.stepped hstep
  rw [hquiet,List.append_nil] at h'
  obtain ⟨hs,hc⟩ := h.bounds
  obtain ⟨hs',hc'⟩ := h'.bounds
  refine ⟨ev,c',hquiet,hstep,?_⟩
  unfold remaining
  split_ifs <;> omega

/-- The loop that is entered with messages goes on. -/
theorem loopHead_pc (hne : c.flushed≠[]) : c.loopHead.pc≠.idle := by
  unfold Channel.loopHead
  rw [if_neg hne]
  dsimp only
  split_ifs
  · exact fun h => (by cases h)
  · exact fun h => (by cases h)

/-- Entering the loop leaves less to do. -/
theorem remaining_loopHead (hidle : c.pc=.idle) {c' : Channel} (hne : c'.flushed≠[])
    (hkept : Kept c c') : remaining messages c'.loopHead< remaining messages c := by
  obtain ⟨hs,hc⟩ := kept_loopHead c'
  unfold remaining
  rw [if_pos hidle,if_neg (loopHead_pc hne),hs,hc,hkept.1,hkept.2]
  omega

theorem Inv.advances_idle (h : Inv messages c) (hpc : c.pc=.idle) (hne : c.flushed≠[]) :
    Advances messages c := by
  by_cases hop : c.opWrite=true
  · have hstep : step .writable c=some c.loopHead := by
      simp only [step,hpc,hop,and_self,if_true,Channel.flush0,if_neg hne]
    exact ⟨.writable,_,rfl,hstep,remaining_loopHead hpc hne ⟨rfl,rfl⟩⟩
  · have htasks : 0<c.tasks := ((h.idle hpc).2.1 hne).resolve_left hop
    have hstep : step .task c=some ({c with tasks:=c.tasks-1} : Channel).loopHead := by
      simp only [step,hpc,htasks,and_self,if_true,Channel.nioFlush0,if_neg hop,
        Channel.flush0,if_neg hne]
    exact ⟨.task,_,rfl,hstep,remaining_loopHead hpc hne ⟨rfl,rfl⟩⟩

theorem Inv.advances_writing {spins expected written : ℕ} {batch : Bytes} (h : Inv messages c)
    (hpc : c.pc=.writing spins batch expected written) : Advances messages c := by
  have hp := h.phase
  unfold Phase at hp
  rw [hpc] at hp
  obtain ⟨-,hsum,hpos⟩ := hp
  have hstep : step (.wrote expected) c=
      some (c.written spins batch expected written expected) := by
    simp only [step,hpc,Nat.le_refl,if_true]
  refine h.advances rfl hstep ?_
  unfold Channel.written
  rw [if_neg (by omega)]
  dsimp only
  rw [if_pos (Nat.sub_self expected),(kept_removeBytes _ _ _).1,(kept_removeBytes _ _ _).2]
  dsimp only
  rw [List.length_append,List.length_take,List.length_drop]
  omega

theorem Inv.advances_removing {written : ℕ} {after : After} (h : Inv messages c)
    (hpc : c.pc=.removing written after) : Advances messages c := by
  have hp := h.phase
  unfold Phase at hp
  rw [hpc] at hp
  obtain ⟨⟨e,es,hes,-⟩,-,-⟩ := hp
  have hstep : step (.removed []) c=some
      ((c.remove e es []).removeBytes (written-e.readable.length) after) := by
    simp only [step,hpc,hes]
  refine h.advances rfl hstep ?_
  rw [(kept_removeBytes _ _ _).1,(kept_removeBytes _ _ _).2]
  simp [Channel.remove,Channel.flush]

theorem Inv.advances_fallback {spins : ℕ} (h : Inv messages c) (hpc : c.pc=.fallback spins) :
    Advances messages c := by
  have hp := h.phase
  unfold Phase at hp
  rw [hpc] at hp
  obtain ⟨e,es,hes,-⟩ := hp
  by_cases hnone : e.readable=[]
  · have hstep : step (.removed []) c=some ((c.remove e es []).removedFallback spins) := by
      simp only [step,hpc,hes,hnone,if_true]
    refine h.advances rfl hstep ?_
    rw [(kept_removedFallback _ _).1,(kept_removedFallback _ _).2]
    simp [Channel.remove,Channel.flush]
  · have hpos : 0<e.readable.length := List.length_pos_iff.mpr hnone
    have hstep : step (.wrote e.readable.length) c=
        some (c.writtenFallback spins e es e.readable.length) := by
      simp only [step,hpc,hes]
      rw [if_pos ⟨hnone,Nat.le_refl _⟩]
    refine h.advances rfl hstep ?_
    unfold Channel.writtenFallback
    rw [if_neg (by omega)]
    simp [hpos]

/-- As long as a message is open, something can be done about it. -/
theorem Inv.progress (h : Inv messages c) (hopen : ¬(c.pc=.idle ∧ c.flushed=[])) :
    Advances messages c := by
  cases hpc : c.pc with
  | idle => exact h.advances_idle hpc (fun hnone => hopen ⟨hpc,hnone⟩)
  | writing spins batch expected written => exact h.advances_writing hpc
  | removing written after => exact h.advances_removing hpc
  | fallback spins => exact h.advances_fallback hpc

/-- From every state of a run the buffer is emptied without new messages. -/
theorem Inv.drains (h : Inv messages c) :
    ∃ evs c', (∀ ev∈evs, ev.messages=[]) ∧ (System.ofStep step).Run c evs c' ∧
      c'.pc=.idle ∧ c'.flushed=[] := by
  -- By induction on what remains.
  induction hn : remaining messages c using Nat.strong_induction_on generalizing c with
  | _ n ih =>
    by_cases hopen : c.pc=.idle ∧ c.flushed=[]
    · exact ⟨[],c,fun ev hev => (by cases hev),.nil,hopen⟩
    · obtain ⟨ev,c₁,hquiet,hstep,hlt⟩ := h.progress hopen
      have h₁ := h.stepped hstep
      rw [hquiet,List.append_nil] at h₁
      obtain ⟨evs,c',hall,hrun,hdone⟩ := ih _ (by omega) h₁ rfl
      have hfirst : (System.ofStep step).Run c [ev] c₁ :=
        .snoc .nil trivial (System.turn_ofStep.mpr hstep)
      refine ⟨[ev]++evs,c',fun e he => ?_,hfirst.trans hrun,hdone⟩
      rcases List.mem_append.mp he with hsingle|hrest
      · rw [List.mem_singleton.mp hsingle]
        exact hquiet
      · exact hall e hrest

end Progress

/-- As long as no write throws and the channel is not closed, no message is left behind: an idle
event loop with open messages waits for the socket or has a task, it waits for the socket only
with open messages, and from every state that a run reaches there is a way on without new
messages on which the socket takes all that has been flushed and every promise succeeds. -/
theorem writes_never_stall {evs : List Event} {c : Channel}
    (h : (System.ofStep step).Run .fresh evs c) :
    (c.pc=.idle → (c.flushed≠[] → c.opWrite=true ∨ 0<c.tasks) ∧
      (c.opWrite=true → c.flushed≠[])) ∧
      ∃ more c', submitted more=[] ∧ (System.ofStep step).Run c more c' ∧ c'.pc=.idle ∧
        c'.opWrite=false ∧ c'.sent=(submitted evs).flatten ∧ c'.completed=submitted evs := by
  have hinv := run_inv h
  refine ⟨fun hidle => (hinv.idle hidle).2,?_⟩
  obtain ⟨more,c',hquiet,hrun,hidle,hnone⟩ := hinv.drains
  have hmore : submitted more=[] := List.flatMap_eq_nil_iff.mpr hquiet
  have hall := h.trans hrun
  have hsub : submitted (evs++more)=submitted evs := by
    rw [submitted,List.flatMap_append]
    change submitted evs++submitted more=_
    rw [hmore,List.append_nil]
  obtain ⟨hsent,hcompleted⟩ := (run_inv hall).emptied hnone
  rw [hsub] at hsent hcompleted
  refine ⟨more,c',hmore,hrun,hidle,?_,hsent,hcompleted⟩
  have hop := ((run_inv hall).idle hidle).2.2
  exact Bool.eq_false_iff.mpr (fun hset => hop hset hnone)

theorem writes_never_stall_sample :
    ∃ more c', submitted more=[] ∧
      (System.ofStep step).Run (System.after step .fresh sampleEvents) more c' ∧ c'.pc=.idle ∧
        c'.opWrite=false ∧ c'.sent=(submitted sampleEvents).flatten ∧
        c'.completed=submitted sampleEvents :=
  (writes_never_stall run_sample).2

end ProxyDroid.SocketWrites
