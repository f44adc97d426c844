import ProxyDroid.TunnelPhases
import ProxyDroid.ConnectionInvariants

/-!
# Two channels relayed into each other

After `DirectAction.doFollowUp` each channel ends in a `RelayHandler`. The
sockets may take any part of what is queued, also the first bytes of a write.
A lane is what one channel has received for the bytes read from the other:
flushed bytes and queued bytes together are those read, in order, and the
empty write that closes a lane is queued behind all of them.
-/

namespace ProxyDroid.RelayRuns

open CallSemantics HandlerPipeline ConnectionTypes ConnectionHandlers ConnectionSystem
open ConnectionRules ConnectionInvariants TunnelPhases

/-- What the loop may see of relayed channels. -/
inductive RelayEvent where
  /-- An event of the connection. -/
  | loop (event : Event)
  /-- A socket takes the first writes of a queue and some bytes of the next. -/
  | took (s : Side) (writes bytes : ℕ)

/-- The first bytes of the oldest write. -/
def firstBytes (bytes : ℕ) : List (Msg×Listener) → List Msg
  | (.bytes data,_)::_ => [.bytes (data.take bytes)]
  | _ => []

/-- A queue without the first bytes of its oldest write. -/
def withoutFirst (bytes : ℕ) : List (Msg×Listener) → List (Msg×Listener)
  | (.bytes data,listener)::queue => (.bytes (data.drop bytes),listener)::queue
  | queue => queue

/-- A channel whose socket has taken the first writes and some bytes of the
next one. -/
def takeSome (writes bytes : ℕ) (c : Channel) : Channel :=
  { c with
    sent := c.sent++((c.queue.take writes).map Prod.fst++firstBytes bytes (c.queue.drop writes))
    queue := withoutFirst bytes (c.queue.drop writes) }

/-- When an event can happen, and what handling it starts with. -/
def relayInject (event : RelayEvent) (w : World) : Option (World×List Stmt) :=
  match event with
  | .loop event => inject event w
  | .took s writes bytes =>
    if w.isActive s then
      some (w.upd s (takeSome writes bytes),
        ((w.chan s).queue.take writes).map (fun entry => .notify s entry.2 true))
    else none

/-- The connection with sockets that take their queues piece by piece. -/
def relaySystem (cfg : Config) : System World RelayEvent Stmt Throwable :=
  ⟨perform cfg,relayInject⟩

/-- Bytes read from a channel by an event. -/
def readFrom (s : Side) : RelayEvent → Bytes
  | .loop (.read t data) => if t=s then data else []
  | _ => []

/-- Bytes read from a channel during a run. -/
def received (s : Side) (events : List RelayEvent) : Bytes := events.flatMap (readFrom s)

/-- Bytes a channel has accepted for its socket, flushed or queued. -/
def acceptedBytes (c : Channel) : Bytes := rawBytes (c.sent++c.queue.map Prod.fst)

/-- The empty write that closes a channel waits behind all others, and the
other channel has ended. -/
def Sealed (c other : Channel) : Prop :=
  (∃ waiting, (∀ entry∈waiting, entry.2=.none) ∧ c.queue=waiting++[(.bytes [],.close)]) ∧
    other.life=.closed ∧ other.inactivePending=false

/-- One channel, the bytes read for it from the other one, and how far they
got. -/
structure Lane (lead : List Handler) (input : Bytes) (c other : Channel) : Prop where
  /-- Until its end is handled, a relay handler follows the leading handlers. -/
  piped : c.life=.active ∨ c.inactivePending=true → c.pipeline.handlers=lead++[Handler.relayHandler]
  /-- Bytes written to it meet no handler. -/
  clear : ∀ h∈c.pipeline.handlers, ∀ data, intercepts (.bytes data) h=false
  /-- It was connected before. -/
  life : c.life=.active ∨ c.life=.closed
  /-- It is closed before its end is handled. -/
  order : c.inactivePending=true → c.life=.closed
  /-- Only its end is waited for. -/
  queue : (∀ entry∈c.queue, entry.2=.none) ∨ Sealed c other
  /-- While it is open it has accepted everything. -/
  whole : c.life=.active → acceptedBytes c=input
  /-- Its socket has taken a first part. -/
  delivered : rawBytes c.sent<+:input

section Lane

variable {lead : List Handler} {input : Bytes} {c other other' : Channel} {data : Bytes}

theorem raw_firstBytes (bytes : ℕ) (queue : List (Msg×Listener)) :
    rawBytes (firstBytes bytes queue)++rawBytes ((withoutFirst bytes queue).map Prod.fst)=
      rawBytes (queue.map Prod.fst) := by
  cases queue with
  | nil => rfl
  | cons entry queue =>
    obtain ⟨message,listener⟩ := entry
    cases message with
    | bytes data => simp [firstBytes,withoutFirst,rawBytes,←List.append_assoc]
    | _ => rfl

/-- Taking a part of the queue loses and adds no byte. -/
theorem acceptedBytes_takeSome (writes bytes : ℕ) :
    acceptedBytes (takeSome writes bytes c)=acceptedBytes c := by
  have hsplit : c.queue.map Prod.fst=
      (c.queue.take writes).map Prod.fst++(c.queue.drop writes).map Prod.fst := by
    rw [←List.map_append,List.take_append_drop]
  have hfirst := raw_firstBytes bytes (c.queue.drop writes)
  simp only [acceptedBytes,takeSome,rawBytes_append,hsplit,List.append_assoc,hfirst]

/-- What the socket has taken is a first part of what it was given. -/
theorem sent_le_accepted : rawBytes c.sent<+:acceptedBytes c := by
  rw [acceptedBytes,rawBytes_append]
  exact List.prefix_append _ _

/-- The entries left of a queue have listeners of the queue. -/
theorem withoutFirst_listener {bytes : ℕ} {queue : List (Msg×Listener)}
    (h : ∀ entry∈queue, entry.2=.none) : ∀ entry∈withoutFirst bytes queue, entry.2=.none := by
  cases queue with
  | nil => exact h
  | cons entry queue =>
    obtain ⟨message,listener⟩ := entry
    cases message with
    | bytes data =>
      have hl : listener=.none := h _ List.mem_cons_self
      have hq : ∀ entry∈queue, entry.2=.none := fun e he => h e (List.mem_cons_of_mem _ he)
      intro e he
      rcases List.mem_cons.mp he with rfl|he
      · exact hl
      · exact hq e he
    | _ => exact h

/-- The closing write stays whole. -/
theorem withoutFirst_sealed (bytes : ℕ) (waiting : List (Msg×Listener)) :
    withoutFirst bytes (waiting++[(.bytes [],.close)])=
      withoutFirst bytes waiting++[(.bytes [],.close)] := by
  cases waiting with
  | nil => simp [withoutFirst]
  | cons entry waiting =>
    obtain ⟨message,listener⟩ := entry
    cases message <;> rfl

/-- A change of the other channel that leaves its end handled. -/
theorem Lane.of_other (hl : Lane lead input c other)
    (ho : other.life=.closed → other.inactivePending=false →
      other'.life=.closed ∧ other'.inactivePending=false) : Lane lead input c other' :=
  { hl with queue := hl.queue.imp_right (fun h => ⟨h.1,ho h.2.1 h.2.2⟩) }

/-- More bytes are read for a channel that is closed. -/
theorem Lane.dropped (hl : Lane lead input c other) (hc : c.life=.closed) :
    Lane lead (input++data) c other :=
  { hl with
    whole := fun ha => absurd (ha.symm.trans hc) (by simp)
    delivered := hl.delivered.trans (List.prefix_append _ _) }

/-- A channel is closed, whatever is queued. -/
theorem Lane.close (hl : Lane lead input c other) (ha : c.life=.active) :
    Lane lead input (shut c) other where
  piped := fun _ => hl.piped (.inl ha)
  clear := hl.clear
  life := .inr rfl
  order := fun _ => rfl
  queue := .inl (by simp [shut])
  whole := fun h => absurd h (by simp [shut])
  delivered := hl.delivered

/-- A channel whose end has been handled. -/
def buried (c : Channel) : Channel :=
  { c with
    inactivePending := false
    pipeline := ⟨[],c.pipeline.nextId,c.pipeline.detached,fun _ h => absurd h List.not_mem_nil,
      List.nodup_nil⟩ }

/-- The end of a closed channel is handled. -/
theorem Lane.bury (hl : Lane lead input c other) (hc : c.life=.closed) :
    Lane lead input (buried c) other where
  piped := by simp [buried,hc]
  clear := fun h hm => absurd hm (by simp [buried,Pipeline.handlers])
  life := hl.life
  order := by simp [buried]
  queue := hl.queue
  whole := hl.whole
  delivered := hl.delivered

/-- A write is queued for an open channel. -/
def pushed (message : Msg) (listener : Listener) (c : Channel) : Channel :=
  { c with queue := c.queue++[(message,listener)] }

/-- The bytes of a read are queued behind those read before. -/
theorem Lane.push (data : Bytes) (hl : Lane lead input c other) (ha : c.life=.active)
    (hq : ∀ entry∈c.queue, entry.2=.none) :
    Lane lead (input++data) (pushed (.bytes data) .none c) other where
  piped := hl.piped
  clear := hl.clear
  life := hl.life
  order := hl.order
  queue := by
    refine .inl (fun entry he => ?_)
    rcases List.mem_append.mp he with he|he
    · exact hq entry he
    · rw [List.mem_singleton.mp he]
  whole := by
    intro _
    have hwhole := hl.whole ha
    rw [acceptedBytes] at hwhole ⊢
    simp only [pushed,List.map_append,List.map_cons,List.map_nil,←List.append_assoc]
    rw [rawBytes_append,hwhole,rawBytes_bytes]
  delivered := hl.delivered.trans (List.prefix_append _ _)

/-- The empty write that closes an open channel is queued behind all bytes. -/
theorem Lane.seal (hl : Lane lead input c other)
    (hq : ∀ entry∈c.queue, entry.2=.none) (ho : other.life=.closed)
    (hp : other.inactivePending=false) :
    Lane lead input (pushed (.bytes []) .close c) other where
  piped := hl.piped
  clear := hl.clear
  life := hl.life
  order := hl.order
  queue := .inr ⟨⟨c.queue,hq,rfl⟩,ho,hp⟩
  whole := by
    intro ha
    have hwhole := hl.whole ha
    rw [acceptedBytes] at hwhole ⊢
    simp only [pushed,List.map_append,List.map_cons,List.map_nil,←List.append_assoc]
    rw [rawBytes_append,hwhole,rawBytes_bytes,List.append_nil]
  delivered := hl.delivered

/-- The socket of an open channel takes a part of the queue. -/
theorem Lane.take (hl : Lane lead input c other) (ha : c.life=.active) {writes bytes : ℕ}
    (hq : (∀ entry∈(takeSome writes bytes c).queue, entry.2=.none) ∨
      Sealed (takeSome writes bytes c) other) :
    Lane lead input (takeSome writes bytes c) other where
  piped := hl.piped
  clear := hl.clear
  life := hl.life
  order := hl.order
  queue := hq
  whole := fun _ => (acceptedBytes_takeSome writes bytes).trans (hl.whole ha)
  delivered := by
    have hpart := sent_le_accepted (c:=takeSome writes bytes c)
    rwa [acceptedBytes_takeSome,hl.whole ha] at hpart

/-- The socket takes the whole queue. -/
def drained (c : Channel) : Channel :=
  { c with sent := c.sent++c.queue.map Prod.fst, queue := [] }

theorem drained_eq : drained c=takeSome c.queue.length 0 c := by
  simp [drained,takeSome,firstBytes,withoutFirst]

/-- A drained channel that is open has delivered everything. -/
theorem Lane.drained_sent (hl : Lane lead input c other) (ha : c.life=.active) :
    rawBytes (drained c).sent=input := hl.whole ha

theorem Lane.drain (hl : Lane lead input c other) (ha : c.life=.active) :
    Lane lead input (drained c) other := by
  rw [drained_eq]
  refine hl.take ha (.inl ?_)
  simp [takeSome,withoutFirst]

end Lane

/-- Handlers before a relay handler: codecs that have done their work and, on
the client channel, the selecting handler after its selection. -/
def Leading (s : Side) (lead : List Handler) : Prop :=
  (∀ h∈lead, Idle h) ∨ ∃ front request, s=.client ∧ (∀ h∈front, Idle h) ∧
    lead=front++[Handler.protocolSelectHandler request .success]

section Leading

variable {cfg : Config} {w : World} {s : Side} {lead : List Handler}

/-- Only reads stop at the leading handlers. -/
theorem Leading.silent {event : Inbound} (hlead : Leading s lead)
    (he : ∀ message, event≠.read message) : ∀ h∈lead, reacts event h=false := by
  rcases hlead with hidle|⟨front,request,-,hidle,rfl⟩
  · exact fun h hm => (hidle h hm).1 event
  · refine silent_append hidle (fun h hm => ?_)
    rw [List.mem_singleton.mp hm]
    cases event with
    | read message => exact absurd rfl (he message)
    | registered | active | readComplete | inactive | exceptionCaught => rfl

/-- Bytes reach the relay handler, unless there are none. -/
theorem Leading.read (cfg : Config) (hlead : Leading s lead) (hh : w.handlers s=lead++[Handler.relayHandler])
    (data : Bytes) :
    (data=[] ∧ Runs cfg w [.pipelineFire s (.read (.bytes data))] w) ∨
      ∀ w', Runs cfg w (RelayHandler.channelRead w s (.bytes data)) w' →
        Runs cfg w [.pipelineFire s (.read (.bytes data))] w' := by
  rcases hlead with hidle|⟨front,request,rfl,hidle,rfl⟩
  · obtain ⟨id,hl,hp⟩ := perform_pipelineFire cfg (.read (.bytes data)) hh
      (fun h hm => (hidle h hm).1 _) rfl
    exact .inr (fun w' hrun => runs_of_call hp hrun)
  · have hh' : w.handlers .client=front++Handler.protocolSelectHandler request .success::[Handler.relayHandler] := by
      rw [hh,List.append_assoc,List.singleton_append]
    obtain ⟨id,hl,hp⟩ := perform_pipelineFire cfg (.read (.bytes data)) hh'
      (fun h hm => (hidle h hm).1 _) rfl
    have hbody : body cfg w .client id (.read (.bytes data))
        (.protocolSelectHandler request .success)=fireRest .client id data := rfl
    rw [hbody,fireRest] at hp
    by_cases hd : data=[]
    · rw [if_pos hd] at hp
      exact .inl ⟨hd,runs_of_call hp runs_nil⟩
    · rw [if_neg hd] at hp
      obtain ⟨id',hl',hp'⟩ := perform_ctxFire cfg (.read (.bytes data)) [] hl (by simp) rfl
      exact .inr (fun w' hrun => runs_of_call hp (runs_of_call hp' hrun))

end Leading

/-- Both channels are relayed, with the bytes read for each. -/
def Relaying (lead : Side → List Handler) (input : Side → Bytes) (w : World) : Prop :=
  ∀ s, Lane (lead s) (input s) (w.chan s) (w.chan s.other)

/-- An event of the peer or of the socket of a channel that closes it. -/
def EndsAlone (s : Side) (event : RelayEvent) : Prop := ∃ e, event=.loop e ∧ Ends s e

/-- What one event leaves: both lanes with what it has read, and a channel
that it closes from the other side has delivered all that was read for it. -/
structure Relayed (lead : Side → List Handler) (input : Side → Bytes) (event : RelayEvent)
    (w w' : World) : Prop where
  /-- The lanes after the event. -/
  lanes : Relaying lead (fun s => input s++readFrom s.other event) w'
  /-- A relayed end comes after the bytes. -/
  drained : ∀ s, w.isActive s=true → w'.isActive s=false →
    EndsAlone s event ∨ rawBytes (w'.chan s).sent=input s

section Turns

variable {cfg : Config} {w w' : World} {s t : Side} {lead : Side → List Handler}
  {input : Side → Bytes} {entries : List (Msg×Listener)} {ok : Bool}

@[simp] theorem other_other : s.other.other=s := by cases s <;> rfl

theorem other_ne : s.other≠s := by cases s <;> simp [Side.other]

/-- Both lanes, seen from one channel. -/
theorem relaying_of (h : Lane (lead s) (input s) (w.chan s) (w.chan s.other))
    (k : Lane (lead s.other) (input s.other) (w.chan s.other) (w.chan s)) :
    Relaying lead input w := by
  intro t
  cases s <;> cases t <;> first | exact h | exact k

theorem active_iff : w.isActive s=true ↔ (w.chan s).life=.active := by
  rw [World.isActive,decide_eq_true_eq]

theorem not_active_iff : w.isActive s=false ↔ (w.chan s).life≠.active := by
  rw [World.isActive,decide_eq_false_iff_not]

/-- Nobody but the closing listener waits. -/
theorem Lane.listeners {lead : List Handler} {input : Bytes} {c other : Channel}
    (hl : Lane lead input c other) (s : Side) (ok : Bool) :
    ∀ entry∈c.queue, listenerBody s ok entry.2=[] ∨ entry.2=.close := by
  have hnone {entry : Msg×Listener} (h : entry.2=.none) : listenerBody s ok entry.2=[] := by
    rw [h]
    rfl
  intro entry he
  rcases hl.queue with hq|⟨⟨waiting,hw,hq⟩,-⟩
  · exact .inl (hnone (hq entry he))
  · rw [hq] at he
    rcases List.mem_append.mp he with he|he
    · exact .inl (hnone (hw entry he))
    · rw [List.mem_singleton.mp he]
      exact .inr rfl

/-- An open channel whose other channel is open waits for no end. -/
theorem Lane.quiet {lead : List Handler} {input : Bytes} {c other : Channel}
    (hl : Lane lead input c other) (ho : other.life=.closed → other.inactivePending=true) :
    ∀ entry∈c.queue, entry.2=.none := by
  rcases hl.queue with hq|⟨-,hc,hp⟩
  · exact hq
  · exact absurd (ho hc) (by simp [hp])

/-- What an accepted write leaves in its channel. -/
theorem accept_chan (cfg : Config) (w : World) (s : Side) (message : Msg) :
    (accept cfg w s message).chan s=pushed message .none (w.chan s) ∨
      (accept cfg w s message).chan s=drained (pushed message .none (w.chan s)) := by
  unfold accept tryFlush
  split
  · exact .inr (by cases s <;> rfl)
  · exact .inl (by cases s <;> rfl)

/-- The state after a read of a relayed channel. -/
theorem turn_read_relayed (hlead : ∀ s, Leading s (lead s)) (hr : Relaying lead input w)
    {data : Bytes} (ht : (system cfg).Turn w (.read s data) w') :
    (w'=w ∧ (data=[] ∨ w.isActive s.other=false)) ∨
      (w.isActive s=true ∧ w.isActive s.other=true ∧ w'=accept cfg w s.other (.bytes data)) := by
  obtain ⟨w₀,stmts,x,hinject,heval⟩ := ht
  simp only [system,inject] at hinject
  split at hinject
  · rename_i ha
    cases hinject
    have hopen := active_iff.mp ha
    have hh : w.handlers s=lead s++[Handler.relayHandler] := (hr s).piped (.inl hopen)
    have hcomplete : ∀ h∈w.handlers s, reacts .readComplete h=false := by
      rw [hh]
      intro h hm
      rcases List.mem_append.mp hm with hm|hm
      · exact (hlead s).silent (by simp) h hm
      · rw [List.mem_singleton.mp hm]
        rfl
    rcases (hlead s).read cfg hh data with ⟨hd,hrun⟩|hrun
    · exact .inl ⟨eval_unique heval (hrun.cons (runs_pipelineFire_none hcomplete)),.inl hd⟩
    · cases ho : w.isActive s.other with
      | false =>
        have hbody := hrun w (by simpa [RelayHandler.channelRead,ho] using runs_nil)
        exact .inl ⟨eval_unique heval (hbody.cons (runs_pipelineFire_none hcomplete)),.inr rfl⟩
      | true =>
        have hquiet : Quiet w s.other := by
          refine (hr s.other).quiet (fun hc => ?_)
          rw [other_other,hopen] at hc
          cases hc
        have hbody := hrun (accept cfg w s.other (.bytes data)) (by
          rw [RelayHandler.channelRead,if_pos ho]
          exact runs_write_bytes ho hquiet (fun h hm => (hr s.other).clear h hm data))
        refine .inr ⟨ha,rfl,eval_unique heval (hbody.cons (runs_pipelineFire_none ?_))⟩
        simpa using hcomplete
  · cases hinject

/-- One read of a relayed channel. -/
theorem relayed_read (hlead : ∀ s, Leading s (lead s)) (hr : Relaying lead input w) {data : Bytes}
    (ht : (system cfg).Turn w (.read s data) w') :
    Relayed lead input (.loop (.read s data)) w w' := by
  have hown : readFrom s.other (.loop (.read s data))=[] := if_neg other_ne.symm
  have hother : readFrom s (.loop (.read s data))=data := if_pos rfl
  have hlane := hr s.other
  rw [other_other] at hlane
  rcases turn_read_relayed hlead hr ht with ⟨rfl,hcause⟩|⟨ha,ho,rfl⟩
  · refine ⟨relaying_of (s:=s) ?_ ?_,fun t hact hina => absurd (hact.symm.trans hina) (by simp)⟩
    · rw [hown,List.append_nil]
      exact hr s
    · rw [other_other,hother]
      rcases hcause with rfl|hc
      · rw [List.append_nil]
        exact hlane
      · exact hlane.dropped (hlane.life.resolve_left (not_active_iff.mp hc))
  · have hact := active_iff.mp ho
    have hquiet : ∀ entry∈(w.chan s.other).queue, entry.2=.none := by
      refine hlane.quiet (fun hc => ?_)
      rw [active_iff.mp ha] at hc
      cases hc
    have hsame : (accept cfg w s.other (.bytes data)).chan s=w.chan s :=
      accept_chan_of_ne other_ne.symm
    have hpush := hlane.push data hact hquiet
    refine ⟨relaying_of (s:=s) ?_ ?_,fun t hact hina => ?_⟩
    · rw [hown,List.append_nil,hsame]
      refine (hr s).of_other (fun hc => ?_)
      rw [hact] at hc
      cases hc
    · rw [other_other,hother,hsame]
      rcases accept_chan cfg w s.other (.bytes data) with hc|hc
      · rw [hc]
        exact hpush
      · rw [hc]
        exact hpush.drain hact
    · rw [accept_isActive,hact] at hina
      cases hina

/-- An event that changes one channel and reads nothing. -/
theorem relayed_of_own {event : RelayEvent} (hr : Relaying lead input w)
    (ho : w'.chan s.other=w.chan s.other) (hread : ∀ t, readFrom t event=[])
    (hlane : Lane (lead s) (input s) (w'.chan s) (w.chan s.other))
    (hact : (w.chan s).life=.active)
    (hd : (w'.chan s).life≠.active →
      EndsAlone s event ∨ rawBytes (w'.chan s).sent=input s) :
    Relayed lead input event w w' := by
  have hother := hr s.other
  rw [other_other] at hother
  refine ⟨?_,fun t ha hi => ?_⟩
  · simp only [hread,List.append_nil]
    refine relaying_of (s:=s) (by rwa [ho]) ?_
    rw [ho]
    refine hother.of_other (fun hc => ?_)
    rw [hact] at hc
    cases hc
  · by_cases hts : t=s
    · subst hts
      exact hd (not_active_iff.mp hi)
    · have hto : t=s.other := by cases s <;> cases t <;> first | rfl | exact absurd rfl hts
      rw [hto,not_active_iff,ho,←not_active_iff] at hi
      rw [hto,hi] at ha
      cases ha

/-- The peer or the socket of a relayed channel closes it. -/
theorem turn_ends_relayed (hlead : ∀ s, Leading s (lead s)) (hr : Relaying lead input w)
    {event : Event} (he : Ends s event) (ht : (system cfg).Turn w event w') :
    w.isActive s=true ∧ w'=w.upd s shut := by
  obtain ⟨w₀,stmts,x,hinject,heval⟩ := ht
  have hclose (ha : w.isActive s=true) : Runs cfg w [.close s] (w.upd s shut) :=
    runs_close ha ((hr s).listeners s false)
  rcases he with rfl|rfl|rfl
  · simp only [system,inject] at hinject
    split at hinject
    · rename_i ha
      cases hinject
      exact ⟨ha,eval_unique heval (hclose ha)⟩
    · cases hinject
  · simp only [system,inject] at hinject
    split at hinject
    · rename_i ha
      cases hinject
      obtain ⟨id,hl,hp⟩ := perform_pipelineFire cfg (.exceptionCaught .ioException)
        ((hr s).piped (.inl (active_iff.mp ha))) ((hlead s).silent (by simp)) rfl
      have hagain : Runs cfg (w.upd s shut) [.close s] (w.upd s shut) := by
        refine runs_of_done ?_
        simp only [perform,chan_upd_same,shut]
      exact ⟨ha,eval_unique heval ((runs_of_call hp (hclose ha)).cons hagain)⟩
    · cases hinject
  · simp only [system,inject] at hinject
    split at hinject
    · rename_i ha
      cases hinject
      have hactive := (Bool.and_eq_true_iff.mp ha).1
      exact ⟨hactive,eval_unique heval (hclose hactive)⟩
    · cases hinject

/-- A channel that ends by itself. -/
theorem relayed_ends (hlead : ∀ s, Leading s (lead s)) (hr : Relaying lead input w)
    {event : Event} (he : Ends s event) (ht : (system cfg).Turn w event w') :
    Relayed lead input (.loop event) w w' := by
  obtain ⟨ha,rfl⟩ := turn_ends_relayed hlead hr he ht
  have hact := active_iff.mp ha
  refine relayed_of_own (s:=s) hr (chan_upd_of_ne other_ne) (fun t => ?_) ?_ hact
    (fun _ => .inl ⟨event,rfl,he⟩)
  · rcases he with rfl|rfl|rfl <;> rfl
  · rw [chan_upd_same]
    exact (hr s).close hact

/-- The socket of a channel takes some of its writes, and the closing listener
is notified with the last of them. -/
theorem runs_taken (cfg : Config) (hr : Relaying lead input w) (ha : w.isActive s=true) (writes bytes : ℕ) :
    ∃ w', Runs cfg (w.upd s (takeSome writes bytes))
        (((w.chan s).queue.take writes).map (fun entry => .notify s entry.2 true)) w' ∧
      w'.chan s.other=w.chan s.other ∧
      Lane (lead s) (input s) (w'.chan s) (w.chan s.other) ∧
      ((w'.chan s).life≠.active → rawBytes (w'.chan s).sent=input s) := by
  have hact := active_iff.mp ha
  have hlane := hr s
  have hkept (hq : (∀ entry∈(takeSome writes bytes (w.chan s)).queue, entry.2=.none) ∨
        Sealed (takeSome writes bytes (w.chan s)) (w.chan s.other))
      (hn : ∀ entry∈(w.chan s).queue.take writes, entry.2=.none) :
      ∃ w', Runs cfg (w.upd s (takeSome writes bytes))
          (((w.chan s).queue.take writes).map (fun entry => .notify s entry.2 true)) w' ∧
        w'.chan s.other=w.chan s.other ∧
        Lane (lead s) (input s) (w'.chan s) (w.chan s.other) ∧
        ((w'.chan s).life≠.active → rawBytes (w'.chan s).sent=input s) := by
    refine ⟨_,runs_notify_none hn,chan_upd_of_ne other_ne,?_,fun hne => absurd ?_ hne⟩
    · rw [chan_upd_same]
      exact hlane.take hact hq
    · rw [chan_upd_same]
      exact hact
  rcases hlane.queue with hq|⟨⟨waiting,hw,hq⟩,hend⟩
  · exact hkept (.inl (withoutFirst_listener (fun e he => hq e (List.mem_of_mem_drop he))))
      (fun e he => hq e (List.mem_of_mem_take he))
  · by_cases hlen : writes≤waiting.length
    · refine hkept (.inr ⟨⟨withoutFirst bytes (waiting.drop writes),?_,?_⟩,hend⟩) ?_
      · exact withoutFirst_listener (fun e he => hw e (List.mem_of_mem_drop he))
      · change withoutFirst bytes ((w.chan s).queue.drop writes)=_
        rw [hq,List.drop_append_of_le_length hlen,withoutFirst_sealed]
      · rw [hq,List.take_append_of_le_length hlen]
        exact fun e he => hw e (List.mem_of_mem_take he)
    · have hall : (w.chan s).queue.length≤writes := by
        rw [hq,List.length_append,List.length_singleton]
        omega
      have hdrained : takeSome writes bytes (w.chan s)=drained (w.chan s) := by
        simp [takeSome,drained,List.take_of_length_le hall,List.drop_of_length_le hall,
          firstBytes,withoutFirst]
      have htaken : (w.upd s (takeSome writes bytes)).chan s=drained (w.chan s) := by
        rw [chan_upd_same,hdrained]
      have hopen : (w.upd s (takeSome writes bytes)).isActive s=true := by
        rw [active_iff,htaken]
        exact hact
      refine ⟨(w.upd s (takeSome writes bytes)).upd s shut,?_,?_,?_,?_⟩
      · rw [List.take_of_length_le hall,hq]
        refine runs_notify_last hw (runs_close hopen ?_)
        rw [htaken]
        simp [drained]
      · rw [chan_upd_of_ne other_ne,chan_upd_of_ne other_ne]
      · rw [chan_upd_same,htaken]
        exact (hlane.drain hact).close hact
      · intro _
        rw [chan_upd_same,htaken]
        exact hlane.drained_sent hact

/-- A socket takes some of the writes of a relayed channel. -/
theorem relayed_took {writes bytes : ℕ} (hr : Relaying lead input w)
    (ht : (relaySystem cfg).Turn w (.took s writes bytes) w') :
    Relayed lead input (.took s writes bytes) w w' := by
  obtain ⟨w₀,stmts,x,hinject,heval⟩ := ht
  simp only [relaySystem,relayInject] at hinject
  split at hinject
  · rename_i ha
    cases hinject
    obtain ⟨w₁,hrun,hother,hlane,hsent⟩ := runs_taken cfg hr ha writes bytes
    cases eval_unique heval hrun
    exact relayed_of_own hr hother (fun _ => rfl) hlane (active_iff.mp ha)
      (fun hne => .inr (hsent hne))
  · cases hinject

theorem takeQueue_eq : w.takeQueue s=w.upd s (takeSome (w.chan s).queue.length 0) := by
  cases s with
  | client => exact congrArg (fun c => { w with client := c }) drained_eq
  | remote => exact congrArg (fun c => { w with remote := c }) drained_eq

/-- A socket takes all writes of a relayed channel. -/
theorem relayed_flushed (hr : Relaying lead input w)
    (ht : (system cfg).Turn w (.flushed s) w') :
    Relayed lead input (.loop (.flushed s)) w w' := by
  obtain ⟨w₀,stmts,x,hinject,heval⟩ := ht
  simp only [system,inject] at hinject
  split at hinject
  · rename_i hboth
    cases hinject
    have ha := (Bool.and_eq_true_iff.mp hboth).1
    obtain ⟨w₁,hrun,hother,hlane,hsent⟩ :=
      runs_taken cfg hr ha (w.chan s).queue.length 0
    rw [←takeQueue_eq,List.take_length] at hrun
    cases eval_unique heval (runs_of_call rfl hrun)
    exact relayed_of_own hr hother (fun _ => rfl) hlane (active_iff.mp ha)
      (fun hne => .inr (hsent hne))
  · cases hinject

/-- `closeOnFlush` of an open channel: the closing write is queued behind all
bytes, and the channel is closed once the socket has taken them. -/
theorem runs_closeOnFlush (cfg : Config) (hr : Relaying lead input w) (ha : w.isActive s=true)
    (ho : (w.chan s.other).life=.closed) (hp : (w.chan s.other).inactivePending=false)
    (hq : ∀ entry∈(w.chan s).queue, entry.2=.none) :
    ∃ w', Runs cfg w [.closeOnFlush s] w' ∧ w'.chan s.other=w.chan s.other ∧
      Lane (lead s) (input s) (w'.chan s) (w.chan s.other) ∧
      ((w'.chan s).life≠.active → rawBytes (w'.chan s).sent=input s) := by
  have hact := active_iff.mp ha
  have hclosing : perform cfg (.closeOnFlush s) w=
      .call w [.write s none (.bytes []) .close true] drop := by
    simp only [perform,ha,if_true]
  have hclear : ∀ h∈w.handlers s, intercepts (.bytes []) h=false :=
    fun h hm => (hr s).clear h hm []
  have hwrite : perform cfg (.write s none (.bytes []) .close true) w=
      .call (w.enqueue s (.bytes []) .close) [.flush s] drop := by
    simp only [perform,Pipeline.lastWhere_none hclear]
    exact headWrite_active (.inl ⟨[],rfl⟩) ha
  have hflush {w' : World} (hrun : Runs cfg (w.enqueue s (.bytes []) .close) [.flush s] w') :
      Runs cfg w [.closeOnFlush s] w' := runs_of_call hclosing (runs_of_call hwrite hrun)
  let queued := (w.enqueue s (.bytes []) .close).attempt
  have hchan : queued.chan s=pushed (.bytes []) .close (w.chan s) := by cases s <;> rfl
  have hother : queued.chan s.other=w.chan s.other := by cases s <;> rfl
  have hlane := (hr s).seal hq ho hp
  rw [←hchan] at hlane
  cases hn : cfg.flushNow (w.enqueue s (.bytes []) .close).flushes with
  | false =>
    refine ⟨queued,hflush (runs_flush_later hn),hother,hlane,fun hne => absurd ?_ hne⟩
    rw [hchan]
    exact hact
  | true =>
    have hqueued : Relaying lead input queued := by
      refine relaying_of (s:=s) (by rwa [hother]) ?_
      have hrest := hr s.other
      rw [other_other] at hrest
      rw [hother]
      refine hrest.of_other (fun hc => ?_)
      rw [hact] at hc
      cases hc
    have hopen : queued.isActive s=true := by
      rw [active_iff,hchan]
      exact hact
    obtain ⟨w',hrun,hrest,htaken,hsent⟩ :=
      runs_taken cfg hqueued hopen (queued.chan s).queue.length 0
    rw [←takeQueue_eq,List.take_length] at hrun
    rw [hother] at htaken hrest
    refine ⟨w',hflush (runs_flush_now hn ?_),hrest,htaken,hsent⟩
    have hsame : (queued.chan s).queue=((w.enqueue s (.bytes []) .close).chan s).queue := by
      cases s <;> rfl
    rwa [hsame] at hrun

/-- A relay handler reacts to the end of its channel by closing the other
one. -/
theorem runs_inactive (cfg : Config) (hr : Relaying lead input w) (hc : (w.chan s).life=.closed)
    (hp : (w.chan s).inactivePending=false)
    (hq : ∀ entry∈(w.chan s.other).queue, entry.2=.none) :
    ∃ w', Runs cfg w (RelayHandler.channelInactive w s) w' ∧ w'.chan s=w.chan s ∧
      Lane (lead s.other) (input s.other) (w'.chan s.other) (w.chan s) ∧
      ((w.chan s.other).life=.active → (w'.chan s.other).life≠.active →
        rawBytes (w'.chan s.other).sent=input s.other) ∧
      ((w.chan s.other).life=.closed → w'.chan s.other=w.chan s.other) := by
  rw [RelayHandler.channelInactive]
  have hother := hr s.other
  rw [other_other] at hother
  cases ho : w.isActive s.other with
  | true =>
    have hact := active_iff.mp ho
    obtain ⟨w',hrun,hsame,hlane,hsent⟩ := runs_closeOnFlush cfg hr ho
      (by rwa [other_other]) (by rwa [other_other]) hq
    rw [other_other] at hsame hlane
    refine ⟨w',hrun,hsame,hlane,fun _ => hsent,fun hclosed => ?_⟩
    rw [hact] at hclosed
    cases hclosed
  | false => exact ⟨w,runs_nil,rfl,hother,fun ha hne => absurd ha hne,fun _ => rfl⟩

/-- The end of a relayed channel is handled. -/
theorem relayed_inactive (hlead : ∀ s, Leading s (lead s)) (hr : Relaying lead input w)
    (ht : (system cfg).Turn w (.inactive s) w') :
    Relayed lead input (.loop (.inactive s)) w w' := by
  obtain ⟨w₀,stmts,x,hinject,heval⟩ := ht
  simp only [system,inject] at hinject
  split at hinject
  · rename_i hp
    cases hinject
    let ended := w.upd s (fun c => { c with inactivePending := false })
    have hclosed := (hr s).order hp
    have hother := hr s.other
    rw [other_other] at hother
    have hown : ended.chan s={ w.chan s with inactivePending := false } := chan_upd_same
    have hsame : ended.chan s.other=w.chan s.other := chan_upd_of_ne other_ne
    have hquiet := hother.quiet (fun _ => hp)
    have hended : Relaying lead input ended := by
      refine relaying_of (s:=s) ?_ ?_
      · rw [hown,hsame]
        exact { hr s with piped := by simp [hclosed], order := by simp }
      · rw [hown,hsame]
        exact hother.of_other (fun hc _ => ⟨hc,rfl⟩)
    have hh : ended.handlers s=lead s++[Handler.relayHandler] := by
      rw [World.handlers,World.pipe,hown]
      exact (hr s).piped (.inr hp)
    obtain ⟨id,hl,hfire⟩ := perform_pipelineFire cfg .inactive hh
      ((hlead s).silent (by simp)) rfl
    obtain ⟨w₁,hrun,hkept,hlane,hsent,hstill⟩ := runs_inactive cfg (s:=s) hended
      (by rw [hown]; exact hclosed) (by rw [hown]) (by rwa [hsame])
    have hdestroy : Runs cfg w₁ [.destroy s]
        (w₁.updPipe s (fun p => ⟨[],p.nextId,p.detached,by simp,by simp⟩)) := runs_of_done rfl
    cases eval_unique heval ((runs_of_call hfire hrun).cons hdestroy)
    have hburied : (w₁.updPipe s (fun p => ⟨[],p.nextId,p.detached,by simp,by simp⟩)).chan s=
        buried (w.chan s) := by
      rw [World.updPipe,chan_upd_same,hkept,hown]
      rfl
    have hrest : (w₁.updPipe s (fun p => ⟨[],p.nextId,p.detached,by simp,by simp⟩)).chan s.other=
        w₁.chan s.other := chan_upd_of_ne other_ne
    rw [hsame] at hsent hstill
    refine ⟨relaying_of (s:=s) ?_ ?_,fun t ha hi => ?_⟩
    · rw [hburied,hrest]
      change Lane (lead s) (input s++[]) _ _
      rw [List.append_nil]
      refine ((hr s).bury hclosed).of_other (fun hc hpending => ?_)
      rw [hstill hc]
      exact ⟨hc,hpending⟩
    · rw [hburied,hrest]
      change Lane (lead s.other) (input s.other++[]) _ _
      rw [List.append_nil]
      exact hlane.of_other (fun _ _ => ⟨hclosed,rfl⟩)
    · by_cases hts : t=s
      · subst hts
        rw [active_iff,hclosed] at ha
        cases ha
      · have hto : t=s.other := by cases s <;> cases t <;> first | rfl | exact absurd rfl hts
        subst hto
        rw [not_active_iff,hrest] at hi
        rw [hrest]
        exact .inr (hsent (active_iff.mp ha) hi)
  · cases hinject

/-- One event of two relayed channels. -/
theorem relayed_turn (hlead : ∀ s, Leading s (lead s)) (hr : Relaying lead input w)
    {event : RelayEvent} (ht : (relaySystem cfg).Turn w event w') :
    Relayed lead input event w w' := by
  cases event with
  | took s writes bytes => exact relayed_took hr ht
  | loop event =>
    have hremote : w.remote.life≠.connecting := by
      intro hc
      rcases (hr .remote).life with hl|hl <;> exact absurd (hl.symm.trans hc) (by simp)
    cases event with
    | read s data => exact relayed_read hlead hr ht
    | connected | connectFailed =>
      obtain ⟨w₀,stmts,x,hinject,heval⟩ := ht
      simp only [relaySystem,relayInject,inject,if_neg hremote] at hinject
      cases hinject
    | peerClose s => exact relayed_ends hlead hr (.inl rfl) ht
    | ioException s => exact relayed_ends hlead hr (.inr (.inl rfl)) ht
    | writeError s => exact relayed_ends hlead hr (.inr (.inr rfl)) ht
    | flushed s => exact relayed_flushed hr ht
    | inactive s => exact relayed_inactive hlead hr ht

/-- Every run of two relayed channels. -/
theorem relaying_run {events : List RelayEvent} (hlead : ∀ s, Leading s (lead s))
    (hr : Relaying lead input w) (hrun : (relaySystem cfg).Run w events w') :
    Relaying lead (fun s => input s++received s.other events) w' := by
  induction hrun with
  | nil =>
    simpa [received] using hr
  | snoc run meets turn ih =>
    have hstep := (relayed_turn hlead ih turn).lanes
    simpa [received] using hstep

end Turns

/-- Both channels end in a relay handler and nobody waits for a write; each of
them is open or already closed. -/
structure Installed (w : World) (request : Socks5CommandRequest) (front rear : List Handler) :
    Prop where
  /-- Client pipeline. -/
  client : w.handlers .client=front++[Handler.protocolSelectHandler request .success,.relayHandler]
  /-- Remote pipeline. -/
  remote : w.handlers .remote=rear++[Handler.relayHandler]
  /-- The client codecs have done their work. -/
  frontIdle : ∀ h∈front, Idle h
  /-- The remote codecs have done their work. -/
  rearIdle : ∀ h∈rear, Idle h
  /-- Both channels were connected. -/
  life : ∀ s, (w.chan s).life=.active ∨ (w.chan s).life=.closed
  /-- A channel is closed before its end is handled. -/
  order : Orderly w
  /-- No write waits with a listener. -/
  quiet : ∀ s, Quiet w s

/-- A tunnel in its relaying phase has both relay handlers installed. -/
theorem installed_of_tunnel {w : World} {request : Socks5CommandRequest}
    {front rear : List Handler} (ho : Orderly w)
    (ht : Tunnel w front rear [.protocolSelectHandler request .success,.relayHandler]
      [.relayHandler]) : Installed w request front rear where
  client := ht.client
  remote := ht.remote
  frontIdle := ht.frontIdle
  rearIdle := ht.rearIdle
  life := by
    intro s
    cases s with
    | client => exact .inl (active_iff.mp ht.clientActive)
    | remote => exact .inl (active_iff.mp ht.remoteActive)
  order := ho
  quiet := by
    intro s
    cases s with
    | client => exact ht.clientQuiet
    | remote => exact ht.remoteQuiet

section Results

variable {cfg : Config} {w₀ w : World} {request : Socks5CommandRequest}
  {front rear : List Handler} {events : List RelayEvent}

/-- Handlers before the relay handlers of both channels. -/
def leading (request : Socks5CommandRequest) (front rear : List Handler) : Side → List Handler
  | .client => front++[Handler.protocolSelectHandler request .success]
  | .remote => rear

theorem Installed.leading (h : Installed w₀ request front rear) (s : Side) :
    Leading s (leading request front rear s) := by
  cases s with
  | client => exact .inr ⟨front,request,rfl,h.frontIdle,rfl⟩
  | remote => exact .inl h.rearIdle

/-- Relay handlers start with what each channel has accepted before. -/
theorem Installed.relaying (h : Installed w₀ request front rear) :
    Relaying (RelayRuns.leading request front rear) w₀.raw w₀ := by
  have hpiped : ∀ s, w₀.handlers s=RelayRuns.leading request front rear s++[Handler.relayHandler] := by
    intro s
    cases s with
    | client => simpa [RelayRuns.leading] using h.client
    | remote => exact h.remote
  intro s
  refine ⟨fun _ => hpiped s,fun x hx data => ?_,h.life s,h.order s,.inl (h.quiet s),
    fun _ => rfl,sent_le_accepted⟩
  have hmem : x∈w₀.handlers s := hx
  cases s with
  | client =>
    rw [h.client] at hmem
    exact transparent_append h.frontIdle (by simp) (by simp [intercepts]) x hmem
  | remote =>
    rw [h.remote] at hmem
    exact transparent_append h.rearIdle (by simp) (by simp [intercepts]) x hmem

/-- Two relayed channels, under any sizes of reads and flushes and any ends.
At every moment the bytes a socket has taken are a first part of those read
from the other channel, behind those accepted before the relay handlers were
installed; and an event that closes a channel, other than an end of its own,
finds all of them delivered. -/
theorem relay_in_order_and_drained (h : Installed w₀ request front rear)
    (hrun : (relaySystem cfg).Run w₀ events w) (s : Side) :
    rawBytes (w.chan s).sent<+:w₀.raw s++received s.other events ∧
      ∀ event w', (relaySystem cfg).Turn w event w' → w.isActive s=true → w'.isActive s=false →
        ¬EndsAlone s event → rawBytes (w'.chan s).sent=w₀.raw s++received s.other events := by
  have hlanes := relaying_run h.leading h.relaying hrun
  refine ⟨(hlanes s).delivered,fun event w' hturn ha hi hown => ?_⟩
  exact ((relayed_turn h.leading hlanes hturn).drained s ha hi).resolve_left hown

/-- Both relay handlers on two open channels. -/
def samplePair : World :=
  followedUp { accepted with
    client := ⟨Pipeline.empty.addLast (.protocolSelectHandler sampleRequest .success),
      .active,false,[],[]⟩
    remote := ⟨Pipeline.empty,.active,false,[],[]⟩ }

/-- Sockets that take nothing at once. -/
def slowConfig : Config := { sampleConfig (directRules none) with flushNow := fun _ => false }

/-- The remote sends two chunks and closes; the client has taken one byte. -/
def sampleEnding : List RelayEvent :=
  [.loop (.read .remote [1,2]),.loop (.read .remote [3]),.took .client 0 1,
    .loop (.peerClose .remote),.loop (.inactive .remote)]

/-- State after these events. -/
def sampleHalf : World :=
  ((relaySystem slowConfig).execute 20 samplePair sampleEnding).getD samplePair

/-- State once the socket of the client has taken the rest. -/
def sampleEnd : World :=
  ((relaySystem slowConfig).execute 20 sampleHalf [.loop (.flushed .client)]).getD samplePair

/-- The client receives all three bytes before its channel is closed. -/
theorem sample_ending_drained :
    sampleHalf.isActive .client=true ∧ sampleEnd.isActive .client=false ∧
      rawBytes (sampleHalf.chan .client).sent=[1] ∧
      rawBytes (sampleEnd.chan .client).sent=[1,2,3] := by
  have horder : Orderly samplePair := by
    intro s hp
    cases s <;> cases hp
  have hinstalled : Installed samplePair sampleRequest [] [] :=
    installed_of_tunnel horder ⟨rfl,rfl,by simp,by simp,rfl,rfl,quiet_of_nil rfl,quiet_of_nil rfl⟩
  have hrun : (relaySystem slowConfig).Run samplePair sampleEnding sampleHalf :=
    System.execute_run samplePair rfl
  have hlast : (relaySystem slowConfig).Run sampleHalf ([]++[.loop (.flushed .client)]) sampleEnd :=
    System.execute_run samplePair rfl
  obtain ⟨w,hnil,-,hturn⟩ := hlast.last
  cases hnil.eq_of_nil
  have hdrained := (relay_in_order_and_drained hinstalled hrun .client).2 _ _ hturn rfl rfl
    (by rintro ⟨e,he,hends⟩; cases he; simp [Ends] at hends)
  exact ⟨rfl,rfl,rfl,hdrained⟩

end Results

end ProxyDroid.RelayRuns
