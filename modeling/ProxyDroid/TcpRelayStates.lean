import ProxyDroid.TcpRelay

/-!
# The states of a relayed TCP connection

What holds between any two events of a client: which side is still open and why it is kept,
which operations are in progress on the two stream interfaces, how many bytes the receive window
leaves, and where every byte of both directions is. A client is released in the event that
closes its second side, and the functions that close a side keep this invariant.
-/

namespace ProxyDroid.TcpRelayStates

open CallSemantics CheckedPrograms SocksClient SocksClientRuns TcpRelay
open ConnectionTypes (Bytes)

variable {auth : List AuthInfo} {dest : BAddr} {w : World}

/-- The messages after which a client gives up on its TCP side. -/
def clientFailures : List Note :=
  [.clientError,.clientClosed,.tcpWriteFailed,.tcpOutputFailed,.cannotQueue]

/-- The messages after which a client gives up on its SOCKS side. -/
def socksFailures : List Note := [.socksError,.socksClosed]

/-- None of the messages has been logged. -/
def Without (bad notes : List Note) : Prop := ∀ note∈notes, note∉bad

theorem Without.append {bad notes : List Note} {note : Note} (h : Without bad notes)
    (hnote : note∉bad) : Without bad (notes++[note]) := by
  intro n hn
  rcases List.mem_append.mp hn with hn|hn
  · exact h n hn
  · rw [List.mem_singleton.mp hn]
    exact hnote

theorem Without.before {bad notes more : List Note} (h : Without bad (notes++more)) :
    Without bad notes :=
  fun n hn => h n (List.mem_append_left more hn)

/-- A message of the list has been logged. -/
theorem Without.elim {bad notes : List Note} {note : Note} (h : Without bad (notes++[note]))
    (hnote : note∈bad) : False :=
  h note (by simp) hnote

/-- What the client may have said to the SOCKS server before it is up. -/
def Uttered (auth : List AuthInfo) (dest : BAddr) (wire : Bytes) : Prop :=
  wire<+:hello auth ∨ ∃ said replied, Authenticated auth said replied ∧ wire<+:said++request dest

/-- Bytes of the server that have not been written to the TCP stack yet. -/
def unsent (c : TcpClient) : Bytes :=
  match c.socksRecvBuf with
  | none => []
  | some (data,sent) => data.drop sent

/-- Where the bytes of both directions are, once the SOCKS client is up. -/
structure Carried (auth : List AuthInfo) (dest : BAddr) (w : World)
    (said replied passed got : Bytes) : Prop where
  /-- The server has granted the request. -/
  granted : Granted auth dest said replied
  /-- Behind the handshake, the server gets the bytes of the client. -/
  wire : w.wire=said++passed
  /-- Behind the handshake come the bytes of the server. -/
  heard : w.heard=replied++got
  /-- Bytes of the client are passed on or buffered. -/
  passed : passed++w.client.buf=w.received
  /-- What is written are first bytes of the server. -/
  written : w.written<+:got
  /-- All others are buffered. -/
  got : Without clientFailures w.notes → w.written++unsent w.client=got

/-- Where the bytes of both directions are. -/
structure Streams (auth : List AuthInfo) (dest : BAddr) (w : World) : Prop where
  /-- Until the SOCKS client is up, the bytes of the client are buffered and the server has not
  sent anything for it. -/
  before : w.client.socksUp=false → w.written=[] ∧ w.received=w.client.buf ∧ Uttered auth dest w.wire
  /-- Afterwards, see `Carried`. -/
  up : w.client.socksUp=true → ∃ said replied passed got, Carried auth dest w said replied passed got

/-- What the client holds, with its protocol control block opened or not. -/
structure Held (auth : List AuthInfo) (dest : BAddr) (active : Bool) (w : World) : Prop where
  allocated : w.freed=false
  dead : w.dead=w.client.clientClosed
  opened : w.pcb.opened=active
  /-- Errors are reported, and acknowledgements once the SOCKS client is up. -/
  callbacks : active=true → w.pcb.err=true ∧ w.pcb.sent=w.client.socksUp
  ends : w.ends.length=if active then 0 else 1
  socks : w.socksLive=!w.client.socksClosed
  frees : w.frees=if w.client.socksClosed then 1 else 0
  streams : Streams auth dest w
  /-- The window and the buffered bytes add up. -/
  window : active=true → w.pcb.window+w.client.buf.length=tcpWnd
  /-- Every written byte that is not acknowledged is pending. -/
  pending : active=true → w.client.socksRecvTcpPending=w.pcb.unacked
  /-- Nothing is received from the server before it is up. -/
  idle : w.client.socksUp=false → w.client.socksRecvBuf=none ∧ w.client.socksRecvTcpPending=0
  noBuffer : Note.noBuffer∉w.notes

/-- The operations in progress on the stream interfaces. -/
structure Busy (con : BConnection) (c : TcpClient) : Prop where
  /-- Nothing is sent when nothing is buffered. -/
  quiet : c.buf=[] → con.sending=none
  /-- What is sent are first bytes of the buffer. -/
  sending : c.buf≠[] → ∃ n, con.sending=some n ∧ 0<n ∧ n≤c.buf.length
  /-- Bytes are received into a free buffer only. -/
  free : con.receiving=none ∨ con.receiving=some socksRecvBufSize ∧ c.socksRecvBuf=none
  /-- A free buffer is waiting for bytes as long as the client is open. -/
  receiving : c.clientClosed=false → c.socksRecvBuf=none → con.receiving=some socksRecvBufSize

/-- The SOCKS client of a client. -/
structure Linked (auth : List AuthInfo) (dest : BAddr) (w : World) : Prop where
  before : w.client.socksUp=false →
    Phase auth dest w.client.socksClient w.wire w.heard ∧ w.client.socksClient.state≠.up
  up : w.client.socksUp=true → w.client.socksClient.state=.up ∧
    ∃ con, w.client.socksClient.con=some con ∧ Busy con w.client

/-- Unwritten bytes of the server wait for an acknowledgement. -/
def Waits (c : TcpClient) : Prop :=
  ∀ data sent, c.socksRecvBuf=some (data,sent) →
    sent<data.length ∧ c.socksRecvWaiting=true ∧ 0<c.socksRecvTcpPending

/-- A client between two events. -/
structure Live (auth : List AuthInfo) (dest : BAddr) (w : World) : Prop where
  held : Held auth dest (!w.client.clientClosed) w
  linked : w.client.socksClosed=false → Linked auth dest w
  /-- Data is accepted while there is a SOCKS side. -/
  recv : w.client.clientClosed=false → w.pcb.recv=!w.client.socksClosed
  /-- A client whose TCP side is closed has bytes for the server. -/
  draining : w.client.clientClosed=true → w.client.socksClosed=false ∧ w.client.buf≠[]
  /-- A client whose SOCKS side is closed has bytes for its TCP side. -/
  flushing : w.client.socksClosed=true → w.client.socksUp=true ∧
    (w.client.socksRecvBuf≠none ∨ 0<w.client.socksRecvTcpPending)
  waits : w.client.clientClosed=false → Waits w.client
  sound : w.client.clientClosed=false → Without clientFailures w.notes
  /-- The TCP side is closed for a reason. -/
  clientCause : w.client.clientClosed=true → ¬Without clientFailures w.notes
  /-- The SOCKS side is closed for a reason. -/
  socksCause : w.client.socksClosed=true → ¬Without socksFailures w.notes

/-- A client that has been released. -/
structure Gone (auth : List AuthInfo) (dest : BAddr) (w : World) : Prop where
  freed : w.freed=true
  dead : w.dead=true
  clientClosed : w.client.clientClosed=true
  socksClosed : w.client.socksClosed=true
  opened : w.pcb.opened=false
  ends : w.ends.length=1
  socks : w.socksLive=false
  frees : w.frees=1
  streams : Streams auth dest w
  /-- Unless the SOCKS side has ended first, nothing is left for the server. -/
  drained : Without socksFailures w.notes → w.client.buf=[]
  /-- Unless the TCP side has ended first, nothing is left for it. -/
  flushed : Without clientFailures w.notes → w.client.socksRecvBuf=none ∧ w.pcb.unacked=0
  noBuffer : Note.noBuffer∉w.notes

/-- The invariant of every run. -/
def Inv (auth : List AuthInfo) (dest : BAddr) (w : World) : Prop :=
  Live auth dest w ∨ Gone auth dest w

theorem uttered_nil : Uttered auth dest [] := .inl List.nil_prefix

/-- The invariant holds when a connection has been accepted. -/
theorem inv_accepted (auth : List AuthInfo) (dest : BAddr) : Inv auth dest (.accepted auth dest) := by
  refine .inl ⟨?_,fun _ => ⟨fun _ => ⟨.connecting,?_⟩,?_⟩,fun _ => rfl,?_,?_,?_,?_,?_,?_⟩
  · refine ⟨rfl,rfl,rfl,?_,rfl,rfl,rfl,⟨fun _ => ⟨rfl,rfl,uttered_nil⟩,?_⟩,?_,?_,?_,?_⟩
    · simp [World.accepted]
    · simp [World.accepted]
    · simp [World.accepted]
    · simp [World.accepted]
    · simp [World.accepted]
    · simp [World.accepted]
  · simp [World.accepted,BSocksClient.init]
  · simp [World.accepted]
  · simp [World.accepted]
  · simp [World.accepted]
  · simp [World.accepted,Waits]
  · simp [World.accepted,Without,clientFailures]
  · simp [World.accepted]
  · simp [World.accepted]

/-- Changes that leave every byte where it is. -/
structure SameBytes (w w' : World) : Prop where
  wire : w'.wire=w.wire
  heard : w'.heard=w.heard
  received : w'.received=w.received
  written : w'.written=w.written
  buf : w'.client.buf=w.client.buf
  socksUp : w'.client.socksUp=w.client.socksUp
  socksRecvBuf : w'.client.socksRecvBuf=w.client.socksRecvBuf
  notes : ∃ more, w'.notes=w.notes++more

theorem Streams.same {w' : World} (h : Streams auth dest w) (hs : SameBytes w w') :
    Streams auth dest w' := by
  obtain ⟨more,hnotes⟩ := hs.notes
  refine ⟨fun hup => ?_,fun hup => ?_⟩
  · rw [hs.socksUp] at hup
    rw [hs.written,hs.received,hs.buf,hs.wire]
    exact h.before hup
  · rw [hs.socksUp] at hup
    obtain ⟨said,replied,passed,got,hc⟩ := h.up hup
    refine ⟨said,replied,passed,got,hc.granted,?_,?_,?_,?_,fun hsound => ?_⟩
    · rw [hs.wire]; exact hc.wire
    · rw [hs.heard]; exact hc.heard
    · rw [hs.buf,hs.received]; exact hc.passed
    · rw [hs.written]; exact hc.written
    · rw [hnotes] at hsound
      rw [hs.written,unsent,hs.socksRecvBuf]
      exact hc.got hsound.before

theorem SameBytes.refl (w : World) : SameBytes w w := ⟨rfl,rfl,rfl,rfl,rfl,rfl,rfl,[],by simp⟩

/-- Logging a message. -/
theorem Held.log {active : Bool} {note : Note} (h : Held auth dest active w)
    (hnote : note≠.noBuffer) : Held auth dest active (w.log note) where
  allocated := h.allocated
  dead := h.dead
  opened := h.opened
  callbacks := h.callbacks
  ends := h.ends
  socks := h.socks
  frees := h.frees
  streams := h.streams.same { SameBytes.refl w with notes := ⟨[note],rfl⟩ }
  window := h.window
  pending := h.pending
  idle := h.idle
  noBuffer := by
    have hold := h.noBuffer
    simp [World.log,hold,hnote.symm]

/-- Unless the SOCKS side has ended first, nothing is left for the server. -/
def Drained (w : World) : Prop := Without socksFailures w.notes → w.client.buf=[]

/-- Unless the TCP side has ended first, nothing is left for it. -/
def Flushed (w : World) : Prop :=
  Without clientFailures w.notes → w.client.socksRecvBuf=none ∧ w.pcb.unacked=0

section Primitives

variable {post : World → Prop}

@[simp] theorem safe_access {post : Unit → Prop} :
    Safe w.access post ↔ w.freed=false ∧ post () := by
  simp [World.access]

@[simp] theorem safe_onPcb {f : Pcb → Pcb} :
    Safe (w.onPcb f) post ↔ w.pcb.opened=true ∧ post { w with pcb := f w.pcb } := by
  simp [World.onPcb]

@[simp] theorem safe_freeSocksClient :
    Safe w.freeSocksClient post ↔ w.socksLive=true ∧
      post (({ w with socksLive := false, frees := w.frees+1 } : World).set
        (fun c => { c with socksClosed := true })) := by
  simp [World.freeSocksClient]

end Primitives

/-- `client_dealloc` of a client with two closed sides. -/
theorem clientDealloc_gone (h : Held auth dest false w) (hclient : w.client.clientClosed=true)
    (hsocks : w.client.socksClosed=true) (hdrained : Drained w) (hflushed : Flushed w) :
    Safe w.clientDealloc (Gone auth dest) := by
  have hends := h.ends
  have hlive := h.socks
  have hfrees := h.frees
  rw [hsocks] at hlive hfrees
  simp only [World.clientDealloc,safe_access,safe_bind,safe_demand,safe_pure]
  refine ⟨h.allocated,hclient,hsocks,rfl,h.dead.trans hclient,hclient,hsocks,h.opened,hends,hlive,
    hfrees,?_,hdrained,hflushed,h.noBuffer⟩
  exact h.streams.same { SameBytes.refl w with }

/-- The SOCKS side of a client with an open one has been freed. -/
theorem freeSocksClient_held {active : Bool} (h : Held auth dest active w)
    (hsocks : w.client.socksClosed=false) :
    Safe w.freeSocksClient (fun w₁ => Held auth dest active w₁ ∧
      w₁.client={ w.client with socksClosed := true } ∧ w₁.notes=w.notes ∧ w₁.pcb=w.pcb) := by
  have hlive := h.socks
  have hfrees := h.frees
  rw [hsocks] at hlive hfrees
  rw [safe_freeSocksClient]
  refine ⟨hlive,?_,rfl,rfl,rfl⟩
  exact {
    allocated := h.allocated
    dead := h.dead
    opened := h.opened
    callbacks := h.callbacks
    ends := h.ends
    socks := rfl
    frees := by simp [World.set,hfrees]
    streams := h.streams.same { SameBytes.refl w with }
    window := h.window
    pending := h.pending
    idle := h.idle
    noBuffer := h.noBuffer }

/-- `client_free_socks` of a client whose TCP side is closed. -/
theorem freeSocksWith_gone (freeClient : World → Checked World) (h : Held auth dest false w)
    (hclient : w.client.clientClosed=true) (hsocks : w.client.socksClosed=false)
    (hdrained : Drained w) (hflushed : Flushed w) :
    Safe (w.freeSocksWith freeClient) (Gone auth dest) := by
  have hstop : w.stopReceiving=.ok w := by simp [World.stopReceiving,hclient]
  simp only [World.freeSocksWith,safe_bind,safe_access,safe_demand,hstop,safe_ok]
  refine ⟨h.allocated,hsocks,(freeSocksClient_held h hsocks).mono ?_⟩
  rintro w₁ ⟨hheld,hw,hnotes,hpcb⟩
  have hafter : w₁.afterSocks freeClient=w₁.clientDealloc := by
    simp [World.afterSocks,hw,hclient]
  rw [hafter]
  refine clientDealloc_gone hheld (by rw [hw]; exact hclient) (by rw [hw]) ?_ ?_
  · intro hn
    rw [hnotes] at hn
    rw [hw]
    exact hdrained hn
  · intro hn
    rw [hnotes] at hn
    rw [hw,hpcb]
    exact hflushed hn

/-- The TCP side is marked as closed. -/
theorem Held.markClosed (h : Held auth dest false w) : Held auth dest false w.markClosed where
  allocated := h.allocated
  dead := rfl
  opened := h.opened
  callbacks := nofun
  ends := h.ends
  socks := h.socks
  frees := h.frees
  streams := h.streams.same { SameBytes.refl w with }
  window := nofun
  pending := nofun
  idle := h.idle
  noBuffer := h.noBuffer

/-- The SOCKS client goes on when the TCP side is marked as closed. -/
theorem Linked.markClosed (h : Linked auth dest w) : Linked auth dest w.markClosed where
  before := h.before
  up := by
    intro hup
    obtain ⟨hstate,con,hcon,hbusy⟩ := h.up hup
    exact ⟨hstate,con,hcon,hbusy.quiet,hbusy.sending,hbusy.free,nofun⟩

/-- What is known when the protocol control block of a client is given up. -/
structure Leaving (auth : List AuthInfo) (dest : BAddr) (w : World) : Prop where
  opened : w.client.clientClosed=false
  linked : w.client.socksClosed=false → Linked auth dest w
  failure : w.client.socksClosed=false → ¬Without clientFailures w.notes
  socksCause : w.client.socksClosed=true → ¬Without socksFailures w.notes
  flushed : Flushed w

/-- `client_handle_freed_client`. -/
theorem clientHandleFreedClient_inv (h : Held auth dest false w) (hl : Leaving auth dest w) :
    Safe w.clientHandleFreedClient (fun w' => Inv auth dest w' ∧ w'.client.clientClosed=true) := by
  have hheld := h.markClosed
  simp only [World.clientHandleFreedClient,safe_bind,safe_access,safe_demand]
  refine ⟨h.allocated,hl.opened,safe_ite.mpr ⟨fun hwait => ?_,fun hdone =>
    safe_ite.mpr ⟨fun hsocks => ?_,fun hsocks => ?_⟩⟩⟩
  · obtain ⟨hbuf,hsocks⟩ := hwait
    refine ⟨.inl ?_,rfl⟩
    exact {
      held := hheld.log (by simp)
      linked := fun _ => { (hl.linked hsocks).markClosed with }
      recv := fun hc => by cases hc
      draining := fun _ => ⟨hsocks,hbuf⟩
      flushing := fun hs => absurd (hs.symm.trans hsocks) (by simp)
      waits := fun hc => by cases hc
      sound := fun hc => by cases hc
      clientCause := fun _ hn => hl.failure hsocks hn.before
      socksCause := fun hs => absurd (hs.symm.trans hsocks) (by simp) }
  · refine (freeSocksWith_gone _ hheld rfl hsocks ?_ hl.flushed).mono (fun w' hg => ⟨.inr hg,hg.clientClosed⟩)
    intro _
    by_contra hbuf
    exact hdone ⟨hbuf,hsocks⟩
  · have hs : w.client.socksClosed=true := eq_true_of_ne_false hsocks
    refine (clientDealloc_gone hheld rfl hs ?_ hl.flushed).mono (fun w' hg => ⟨.inr hg,hg.clientClosed⟩)
    exact fun hn => absurd hn (hl.socksCause hs)

/-- The protocol control block given up, without callbacks. -/
def ended (how : End) (w : World) : World :=
  { w with
    pcb := { w.pcb with opened := false, err := false, recv := false, sent := false }
    ends := w.ends++[how] }

theorem Held.ended (h : Held auth dest true w) (how : End) : Held auth dest false (ended how w) where
  allocated := h.allocated
  dead := h.dead
  opened := rfl
  callbacks := nofun
  ends := by
    have hends : w.ends=[] := by simpa using h.ends
    simp [TcpRelayStates.ended,hends]
  socks := h.socks
  frees := h.frees
  streams := h.streams.same { SameBytes.refl w with }
  window := nofun
  pending := nofun
  idle := h.idle
  noBuffer := h.noBuffer

theorem Leaving.ended (h : Leaving auth dest w) (how : End) : Leaving auth dest (ended how w) where
  opened := h.opened
  linked := fun hs => { h.linked hs with }
  failure := h.failure
  socksCause := h.socksCause
  flushed := h.flushed

theorem Leaving.log (h : Leaving auth dest w) (note : Note) : Leaving auth dest (w.log note) where
  opened := h.opened
  linked := fun hs => { h.linked hs with }
  failure := fun hs hn => h.failure hs hn.before
  socksCause := fun hs hn => h.socksCause hs hn.before
  flushed := fun hn => h.flushed hn.before

/-- `client_abort_client`. -/
theorem clientAbortClient_inv (h : Held auth dest true w) (hl : Leaving auth dest w) :
    Safe w.clientAbortClient (fun w' => Inv auth dest w' ∧ w'.client.clientClosed=true) := by
  simp only [World.clientAbortClient,World.removeCallbacks,World.endPcb,safe_bind,safe_access,
    safe_demand,safe_onPcb,safe_pure]
  exact ⟨h.allocated,hl.opened,h.opened,h.opened,
    clientHandleFreedClient_inv (h.ended .aborted) (hl.ended .aborted)⟩

/-- `client_free_client`. -/
theorem clientFreeClient_inv (closeOk : Bool) (h : Held auth dest true w) (hl : Leaving auth dest w) :
    Safe (w.clientFreeClient closeOk)
      (fun w' => Inv auth dest w' ∧ w'.client.clientClosed=true) := by
  simp only [World.clientFreeClient,World.removeCallbacks,safe_bind,safe_access,safe_demand,
    safe_onPcb]
  refine ⟨h.allocated,hl.opened,h.opened,?_⟩
  cases closeOk with
  | true =>
    simp only [World.closePcb,World.endPcb,if_true,safe_bind,safe_onPcb,safe_pure]
    exact ⟨h.opened,clientHandleFreedClient_inv (h.ended .closed) (hl.ended .closed)⟩
  | false =>
    simp only [World.closePcb,World.endPcb,Bool.false_eq_true,if_false,safe_bind,safe_onPcb,safe_pure]
    exact ⟨h.opened,clientHandleFreedClient_inv ((h.log (by simp)).ended .aborted)
      ((hl.log .tcpCloseFailed).ended .aborted)⟩

/-- The receive callback of an open client is removed. -/
theorem stopReceiving_held (h : Held auth dest true w) (hopen : w.client.clientClosed=false) :
    Safe w.stopReceiving (fun w₁ => Held auth dest true w₁ ∧ w₁.client=w.client ∧
      w₁.notes=w.notes ∧ (w.client.socksUp=true → w₁.pcb.recv=false)) := by
  refine safe_ite.mpr ⟨fun _ => ?_,fun hdown => ?_⟩
  · refine safe_onPcb.mpr ⟨h.opened,?_,rfl,rfl,fun _ => rfl⟩
    exact { h with streams := h.streams.same { SameBytes.refl w with } }
  · exact ⟨h,rfl,rfl,fun hup => absurd ⟨hup,hopen⟩ hdown⟩

/-- `client_free_socks`. -/
theorem clientFreeSocks_inv (closeOk : Bool) (h : Held auth dest (!w.client.clientClosed) w)
    (hsocks : w.client.socksClosed=false)
    (hcause : Without socksFailures w.notes → w.client.clientClosed=true ∧ w.client.buf=[])
    (hwaits : w.client.clientClosed=false → Waits w.client)
    (hsound : w.client.clientClosed=false → Without clientFailures w.notes)
    (hfailure : w.client.clientClosed=true → ¬Without clientFailures w.notes) :
    Safe (w.clientFreeSocks closeOk) (Inv auth dest) := by
  cases hclosed : w.client.clientClosed with
  | true =>
    rw [hclosed] at h
    refine (freeSocksWith_gone _ h hclosed hsocks ?_ ?_).mono (fun w' hg => .inr hg)
    · exact fun hn => (hcause hn).2
    · exact fun hn => absurd hn (hfailure hclosed)
  | false =>
    rw [hclosed] at h
    simp only [World.clientFreeSocks,World.freeSocksWith,safe_bind,safe_access,safe_demand]
    refine ⟨h.allocated,hsocks,(stopReceiving_held h hclosed).mono ?_⟩
    rintro w₁ ⟨h₁,hw₁,hnotes₁,hrecv⟩
    refine (freeSocksClient_held h₁ (by rw [hw₁]; exact hsocks)).mono ?_
    rintro w₂ ⟨h₂,hw₂,hnotes₂,hpcb⟩
    rw [hw₁] at hw₂
    rw [hnotes₁] at hnotes₂
    have hs₂ : w₂.client.socksClosed=true := by rw [hw₂]
    have hended : ¬Without socksFailures w₂.notes := by
      intro hn
      rw [hnotes₂] at hn
      exact absurd (hcause hn).1 (by simp [hclosed])
    refine safe_ite.mpr ⟨fun hwait => ?_,fun hdone =>
      safe_ite.mpr ⟨fun hopen => ?_,fun hopen => absurd (by rw [hw₂]; exact hclosed) hopen⟩⟩
    · obtain ⟨hup,hleft,hopen⟩ := hwait
      refine .inl ?_
      exact {
        held := by
          have hheld : Held auth dest true (w₂.log .waitingForClient) := h₂.log (by simp)
          simpa [World.log,hopen] using hheld
        linked := fun hs => absurd (hs.symm.trans hs₂) (by simp)
        recv := fun _ => by
          have hfalse : w₂.pcb.recv=false := by
            rw [hpcb]
            exact hrecv (by simpa [hw₂] using hup)
          simpa [World.log,hs₂] using hfalse
        draining := fun hc => absurd (hc.symm.trans hopen) (by simp)
        flushing := fun _ => ⟨hup,hleft⟩
        waits := fun _ => by
          have := hwaits hclosed
          simpa [World.log,hw₂,Waits] using this
        sound := fun _ => by
          have hn := hsound hclosed
          rw [←hnotes₂] at hn
          exact hn.append (by decide)
        clientCause := fun hc => absurd (hc.symm.trans hopen) (by simp)
        socksCause := fun _ hn => hended hn.before }
    · refine (clientFreeClient_inv closeOk h₂ ?_).mono (fun w' hi => hi.1)
      exact {
        opened := hopen
        linked := fun hs => absurd (hs.symm.trans hs₂) (by simp)
        failure := fun hs => absurd (hs.symm.trans hs₂) (by simp)
        socksCause := fun _ => hended
        flushed := fun _ => by
          have hidle := h₂.idle
          have hpending := h₂.pending rfl
          cases hup : w₂.client.socksUp with
          | false =>
            obtain ⟨hnone,hzero⟩ := hidle hup
            exact ⟨hnone,by omega⟩
          | true =>
            have hnothing : ¬(w₂.client.socksRecvBuf≠none ∨ 0<w₂.client.socksRecvTcpPending) :=
              fun hleft => hdone ⟨hup,hleft,hopen⟩
            rw [not_or,not_ne_iff] at hnothing
            exact ⟨hnothing.1,by omega⟩ }

end ProxyDroid.TcpRelayStates
