import ProxyDroid.TcpRelayStates

/-!
# Runs of a relayed TCP connection

Every event keeps the invariant of a client, the nested ones included, and so does every run.
From it follow what reaches the two peers, what the TCP stack is told about the protocol control
block, and that a client that is kept always waits for something that is in progress.
-/

namespace ProxyDroid.TcpRelayRuns

open CallSemantics CheckedPrograms SocksClient SocksClientRuns TcpRelay TcpRelayStates
open ConnectionTypes (Bytes)

variable {auth : List AuthInfo} {dest : BAddr} {w : World}

/-- A client whose SOCKS side is up, whatever is in progress there. -/
structure Talking (auth : List AuthInfo) (dest : BAddr) (con : BConnection) (w : World) : Prop where
  held : Held auth dest (!w.client.clientClosed) w
  socksOpen : w.client.socksClosed=false
  up : w.client.socksUp=true
  state : w.client.socksClient.state=.up
  con : w.client.socksClient.con=some con
  recv : w.client.clientClosed=false → w.pcb.recv=true
  sound : w.client.clientClosed=false → Without clientFailures w.notes
  clientCause : w.client.clientClosed=true → ¬Without clientFailures w.notes

/-- The connection of the SOCKS client is replaced. -/
def setCon (con : BConnection) (w : World) : World :=
  w.set (fun c => { c with socksClient := { c.socksClient with con := some con } })

theorem live_talking (h : Live auth dest w) (hlive : w.socksLive=true)
    (hstate : w.client.socksClient.state=.up) :
    ∃ con, Talking auth dest con w ∧ Busy con w.client := by
  have hopen : w.client.socksClosed=false := by
    simpa [hlive] using h.held.socks
  have hlinked := h.linked hopen
  have hup : w.client.socksUp=true := by
    by_contra hdown
    exact (hlinked.before (eq_false_of_ne_true hdown)).2 hstate
  obtain ⟨-,con,hcon,hbusy⟩ := hlinked.up hup
  refine ⟨con,⟨h.held,hopen,hup,hstate,hcon,fun ho => ?_,h.sound,h.clientCause⟩,hbusy⟩
  simpa [hopen] using h.recv ho

theorem Talking.linked {con : BConnection} (h : Talking auth dest con w) (hbusy : Busy con w.client) :
    Linked auth dest w :=
  ⟨fun hdown => absurd (hdown.symm.trans h.up) (by simp),fun _ => ⟨h.state,con,h.con,hbusy⟩⟩

theorem Talking.live {con : BConnection} (h : Talking auth dest con w) (hbusy : Busy con w.client)
    (hdraining : w.client.clientClosed=true → w.client.buf≠[])
    (hwaits : w.client.clientClosed=false → Waits w.client) : Live auth dest w where
  held := h.held
  linked := fun _ => h.linked hbusy
  recv := fun ho => by rw [h.socksOpen]; exact h.recv ho
  draining := fun hc => ⟨h.socksOpen,hdraining hc⟩
  flushing := fun hs => absurd (hs.symm.trans h.socksOpen) (by simp)
  waits := hwaits
  sound := h.sound
  clientCause := h.clientCause
  socksCause := fun hs => absurd (hs.symm.trans h.socksOpen) (by simp)

theorem Talking.setCon {con : BConnection} (h : Talking auth dest con w) (con' : BConnection) :
    Talking auth dest con' (setCon con' w) where
  held := { h.held with streams := h.held.streams.same { SameBytes.refl w with } }
  socksOpen := h.socksOpen
  up := h.up
  state := h.state
  con := rfl
  recv := h.recv
  sound := h.sound
  clientCause := h.clientCause

/-- An operation on the interfaces of a connection that is up. -/
theorem Talking.safe_onConnection {con : BConnection} (h : Talking auth dest con w)
    {f : BConnection → Checked BConnection} {post : World → Prop} :
    Safe (w.onConnection f) post ↔ Safe (f con) (fun con' => post (TcpRelayRuns.setCon con' w)) := by
  have hlive := h.held.socks
  rw [h.socksOpen] at hlive
  have hgiven : w.socksLive=true ∧ w.client.socksClient.state=.up := ⟨hlive,h.state⟩
  simp only [World.onConnection,BSocksClient.onConnection,h.con,safe_bind,safe_demand,safe_pure,
    and_iff_right hgiven]
  rfl

/-- The socket has taken bytes of the buffer, and the window opens again. -/
def moved (n : ℕ) (w : World) : World :=
  { w with
    wire := w.wire++w.client.buf.take n
    client := { w.client with buf := w.client.buf.drop n }
    pcb := if w.client.clientClosed=false then { w.pcb with window := w.pcb.window+n } else w.pcb }

theorem held_moved {n : ℕ} (h : Held auth dest (!w.client.clientClosed) w)
    (hup : w.client.socksUp=true) (hn : n≤w.client.buf.length) :
    Held auth dest (!w.client.clientClosed) (moved n w) where
  allocated := h.allocated
  dead := h.dead
  opened := by
    have hopened := h.opened
    dsimp only [TcpRelayRuns.moved]
    split <;> exact hopened
  callbacks := by
    have hcallbacks := h.callbacks
    dsimp only [TcpRelayRuns.moved]
    split <;> exact hcallbacks
  ends := h.ends
  socks := h.socks
  frees := h.frees
  streams := by
    refine ⟨fun hdown => absurd (hdown.symm.trans hup) (by simp),fun _ => ?_⟩
    obtain ⟨said,replied,passed,got,hc⟩ := h.streams.up hup
    refine ⟨said,replied,passed++w.client.buf.take n,got,hc.granted,?_,hc.heard,?_,hc.written,hc.got⟩
    · simp [TcpRelayRuns.moved,hc.wire]
    · simp [TcpRelayRuns.moved,hc.passed]
  window := by
    intro hactive
    have hopen : w.client.clientClosed=false := by simpa using hactive
    have hwindow := h.window hactive
    simp only [TcpRelayRuns.moved,hopen,if_true,List.length_drop]
    omega
  pending := by
    intro hactive
    have hopen : w.client.clientClosed=false := by simpa using hactive
    have hpending := h.pending hactive
    simpa [TcpRelayRuns.moved,hopen] using hpending
  idle := h.idle
  noBuffer := h.noBuffer

theorem Talking.moved {con : BConnection} {n : ℕ} (h : Talking auth dest con w)
    (hn : n≤w.client.buf.length) : Talking auth dest con (moved n w) where
  held := held_moved h.held h.up hn
  socksOpen := h.socksOpen
  up := h.up
  state := h.state
  con := h.con
  recv := by
    have hrecv := h.recv
    dsimp only [TcpRelayRuns.moved]
    split <;> exact hrecv
  sound := h.sound
  clientCause := h.clientCause

/-- `client_socks_send_handler_done` behind the removal of the sent bytes. -/
theorem afterSent_inv (closeOk : Bool) {con : BConnection} (h : Talking auth dest con w)
    (hidle : con.sending=none)
    (hfree : con.receiving=none ∨ con.receiving=some socksRecvBufSize ∧ w.client.socksRecvBuf=none)
    (hreceiving : w.client.clientClosed=false → w.client.socksRecvBuf=none →
      con.receiving=some socksRecvBufSize)
    (hwaits : w.client.clientClosed=false → Waits w.client) :
    Safe (w.afterSent closeOk) (Inv auth dest) := by
  refine safe_ite.mpr ⟨fun hbuf => ?_,fun hempty => safe_ite.mpr ⟨fun hclosed => ?_,fun hopen => ?_⟩⟩
  · have hlen : 0<w.client.buf.length := List.length_pos_of_ne_nil hbuf
    rw [h.safe_onConnection,BConnection.senderSend]
    simp only [safe_bind,safe_demand,safe_pure]
    refine ⟨⟨hlen,hidle⟩,.inl ((h.setCon _).live ?_ (fun _ => hbuf) hwaits)⟩
    exact ⟨fun hnil => absurd hnil hbuf,fun _ => ⟨_,rfl,hlen,Nat.le_refl _⟩,hfree,hreceiving⟩
  · have hbuf : w.client.buf=[] := not_ne_iff.mp hempty
    refine clientFreeSocks_inv closeOk (h.held.log (by simp)) h.socksOpen ?_ ?_ ?_ ?_
    · exact fun _ => ⟨hclosed,hbuf⟩
    · exact hwaits
    · exact fun ho => absurd (ho.symm.trans hclosed) (by simp)
    · exact fun _ hn => h.clientCause hclosed hn.before
  · have hbuf : w.client.buf=[] := not_ne_iff.mp hempty
    refine .inl (h.live ?_ (fun hc => absurd hc hopen) hwaits)
    exact ⟨fun _ => hidle,fun hn => absurd hbuf hn,hfree,hreceiving⟩

/-- The socket has taken bytes of a client that is up. -/
theorem sentEvent_inv {n : ℕ} {alloc : Bool} {answers : Answers} (h : Live auth dest w)
    (hstate : w.client.socksClient.state=.up) :
    Safe (connEvent (.sent n alloc,answers) w) (Inv auth dest) := by
  simp only [connEvent,safe_bind,safe_suppose,safe_access,hstate]
  intro hlive
  obtain ⟨con,ht,hbusy⟩ := live_talking h hlive hstate
  refine ⟨h.held.allocated,?_⟩
  simp only [BSocksClient.onConnection,ht.con,BConnection.sendDone,safe_bind,safe_suppose,safe_pure]
  rintro ⟨hn,hle⟩
  have hbuf : w.client.buf≠[] := by
    intro hnil
    rw [hbusy.quiet hnil,Option.getD_none] at hle
    omega
  obtain ⟨m,hm,-,hmle⟩ := hbusy.sending hbuf
  rw [hm,Option.getD_some] at hle
  have hnle : n≤w.client.buf.length := Nat.le_trans hle hmle
  have hmoved := (ht.setCon { con with sending := none }).moved (n:=n) hnle
  have hafter := afterSent_inv answers.closeOk hmoved rfl hbusy.free hbusy.receiving h.waits
  simp only [World.clientSocksSendHandlerDone,safe_bind,safe_access,safe_demand]
  refine ⟨h.held.allocated,⟨ht.socksOpen,ht.up,hbuf,hn,hnle⟩,safe_ite.mpr ⟨fun hopen => ?_,
    fun hclosed => ?_⟩⟩
  · refine safe_onPcb.mpr ⟨?_,?_⟩
    · have hopened := h.held.opened
      have ho : w.client.clientClosed=false := hopen
      rw [ho] at hopened
      exact hopened
    · have ho : w.client.clientClosed=false := hopen
      simpa [moved,setCon,World.set,ho] using hafter
  · have hc : w.client.clientClosed=true := eq_true_of_ne_false hclosed
    simpa [moved,setCon,World.set,hc] using hafter

/-- What `client_socks_recv_send_out` may change in a client that stays up. -/
structure Wrote (w w' : World) (b : Option (Bytes×ℕ)) : Prop where
  client : ∃ waiting pending, w.client.socksRecvTcpPending≤pending ∧ w'.client={ w.client with
    socksRecvBuf := b
    socksRecvWaiting := waiting
    socksRecvTcpPending := pending }
  notes : w'.notes=w.notes
  recv : w'.pcb.recv=w.pcb.recv

theorem Wrote.trans {w₁ w₂ : World} {b b' : Option (Bytes×ℕ)} (h : Wrote w w₁ b)
    (h' : Wrote w₁ w₂ b') : Wrote w w₂ b' := by
  obtain ⟨waiting,pending,hle,hclient⟩ := h.client
  obtain ⟨waiting',pending',hle',hclient'⟩ := h'.client
  refine ⟨⟨waiting',pending',?_,?_⟩,h'.notes.trans h.notes,h'.recv.trans h.recv⟩
  · rw [hclient] at hle'
    exact Nat.le_trans hle hle'
  · rw [hclient',hclient]

theorem Wrote.buffer {w' : World} {b : Option (Bytes×ℕ)} (h : Wrote w w' b) :
    w'.client.socksRecvBuf=b := by
  obtain ⟨waiting,pending,-,hclient⟩ := h.client
  rw [hclient]

theorem Wrote.socksClosed {w' : World} {b : Option (Bytes×ℕ)} (h : Wrote w w' b) :
    w'.client.socksClosed=w.client.socksClosed := by
  obtain ⟨waiting,pending,-,hclient⟩ := h.client
  rw [hclient]

/-- The SOCKS client goes on behind a buffer that is in use. -/
theorem Wrote.linked {w' : World} {b : Bytes×ℕ} (h : Wrote w w' (some b))
    (hup : w.client.socksUp=true) (hbuf : w.client.socksRecvBuf≠none) (hl : Linked auth dest w) :
    Linked auth dest w' := by
  obtain ⟨waiting,pending,-,hclient⟩ := h.client
  obtain ⟨hstate,con,hcon,hbusy⟩ := hl.up hup
  have hnone : con.receiving=none := hbusy.free.resolve_right (fun hfree => hbuf hfree.2)
  refine ⟨fun hdown => ?_,fun _ => ⟨by rw [hclient]; exact hstate,con,by rw [hclient]; exact hcon,?_⟩⟩
  · rw [hclient] at hdown
    exact absurd (hdown.symm.trans hup) (by simp)
  · rw [hclient]
    exact ⟨hbusy.quiet,hbusy.sending,.inl hnone,nofun⟩

/-- A round of the loop that has queued bytes. -/
theorem queue_held {data : Bytes} {sent n : ℕ} (h : Held auth dest true w)
    (hup : w.client.socksUp=true) (hsound : Without clientFailures w.notes)
    (hbuf : w.client.socksRecvBuf=some (data,sent)) :
    Safe (w.queue data sent n) (fun w' => Held auth dest true w' ∧
      Wrote w w' (some (data,sent+n)) ∧ n≤w'.client.socksRecvTcpPending) := by
  simp only [World.queue,safe_bind,safe_onPcb,safe_pure]
  refine ⟨h.opened,?_,⟨⟨_,_,Nat.le_add_right _ n,rfl⟩,rfl,rfl⟩,Nat.le_add_left _ _⟩
  obtain ⟨said,replied,passed,got,hc⟩ := h.streams.up hup
  have hgot : (w.written++(data.drop sent).take n)++data.drop (sent+n)=got := by
    have hall := hc.got hsound
    rw [unsent,hbuf] at hall
    rw [List.append_assoc,←List.drop_drop,List.take_append_drop]
    exact hall
  exact { h with
    pending := fun hactive => by
      have hpending := h.pending hactive
      simp only [World.set]
      omega
    idle := fun hdown => absurd (hdown.symm.trans hup) (by simp)
    streams := ⟨fun hdown => absurd (hdown.symm.trans hup) (by simp),fun _ =>
      ⟨said,replied,passed,got,hc.granted,hc.wire,hc.heard,hc.passed,⟨_,hgot⟩,fun _ => hgot⟩⟩ }

/-- The loop of `client_socks_recv_send_out`. -/
theorem writeLoop_held {data : Bytes} {sent : ℕ} (writes : List (ℕ×Err))
    (h : Held auth dest true w) (hup : w.client.socksUp=true)
    (hsound : Without clientFailures w.notes) (hbuf : w.client.socksRecvBuf=some (data,sent))
    (hsent : sent≤data.length) :
    Safe (World.writeLoop writes w) (fun result => ∃ sent', Held auth dest true result.1 ∧
      Wrote w result.1 (some (data,sent')) ∧ sent'≤data.length ∧
      (sent< sent' → 0< result.1.client.socksRecvTcpPending)) := by
  have hstop : ∃ sent', Held auth dest true w ∧ Wrote w w (some (data,sent')) ∧ sent'≤data.length ∧
      (sent< sent' → 0<w.client.socksRecvTcpPending) :=
    ⟨sent,h,⟨⟨_,_,Nat.le_refl _,by rw [←hbuf]⟩,rfl,rfl⟩,hsent,fun hlt => absurd hlt (by omega)⟩
  induction writes generalizing w sent with
  | nil => exact hstop
  | cons answer writes ih =>
    obtain ⟨sndbuf,err⟩ := answer
    simp only [World.writeLoop,hbuf]
    refine safe_ite.mpr ⟨fun _ => hstop,fun hroom => ?_⟩
    cases err with
    | ok =>
      simp only [safe_bind]
      refine (queue_held h hup hsound hbuf).mono ?_
      rintro w₁ ⟨h₁,hw₁,hn⟩
      obtain ⟨waiting,pending,-,hclient⟩ := hw₁.client
      have hup₁ : w₁.client.socksUp=true := by rw [hclient]; exact hup
      have hsound₁ : Without clientFailures w₁.notes := by rw [hw₁.notes]; exact hsound
      have hle : sent+min (data.length-sent) sndbuf≤data.length := by omega
      have hpos : 0<w₁.client.socksRecvTcpPending := by omega
      have hbuf₁ : w₁.client.socksRecvBuf=some (data,sent+min (data.length-sent) sndbuf) := by
        rw [hclient]
      refine safe_ite.mpr ⟨fun _ => ?_,fun _ => ?_⟩
      · refine (ih h₁ hup₁ hsound₁ hbuf₁ hle ?_).mono ?_
        · exact ⟨_,h₁,⟨⟨_,_,Nat.le_refl _,by rw [←hbuf₁]⟩,rfl,rfl⟩,hle,fun hlt => absurd hlt (by omega)⟩
        · rintro result ⟨sent',h',hw',hsent',hmore⟩
          refine ⟨sent',h',hw₁.trans hw',hsent',fun _ => ?_⟩
          obtain ⟨waiting',pending',hpending,hclient'⟩ := hw'.client
          rw [hclient']
          exact Nat.lt_of_lt_of_le hpos hpending
      · exact ⟨_,h₁,hw₁,hle,fun _ => hpos⟩
    | mem => exact hstop
    | abrt => exact hstop
    | other => exact hstop

/-- An open client whose SOCKS side has come up, whatever is buffered for its TCP side. -/
structure Serving (auth : List AuthInfo) (dest : BAddr) (w : World) : Prop where
  held : Held auth dest true w
  opened : w.client.clientClosed=false
  up : w.client.socksUp=true
  sound : Without clientFailures w.notes
  linked : w.client.socksClosed=false → Linked auth dest w
  recv : w.pcb.recv=!w.client.socksClosed
  socksCause : w.client.socksClosed=true → ¬Without socksFailures w.notes

/-- What `client_socks_recv_send_out` leads to: the client has been aborted, or it waits for an
acknowledgement. -/
def SentOut (auth : List AuthInfo) (dest : BAddr) (w : World) (result : World×Bool) : Prop :=
  if result.2=false then Inv auth dest result.1 ∧ result.1.client.clientClosed=true
  else Held auth dest true result.1 ∧ (∃ b, Wrote w result.1 b) ∧ Waits result.1.client ∧
    0< result.1.client.socksRecvTcpPending

/-- The client is aborted while bytes of the server are in its buffer. -/
theorem giveUp_inv {w₀ : World} {b : Bytes×ℕ} {note : Note} (h : Serving auth dest w₀)
    (hfilled : w₀.client.socksRecvBuf≠none) (hheld : Held auth dest true w)
    (hw : Wrote w₀ w (some b)) (hnote : note∈clientFailures) :
    Safe (w.giveUp note) (SentOut auth dest w₀) := by
  obtain ⟨waiting,pending,-,hclient⟩ := hw.client
  have hnew : note≠.noBuffer := by
    rintro rfl
    exact absurd hnote (by decide)
  simp only [World.giveUp,safe_bind,safe_pure]
  refine clientAbortClient_inv (hheld.log hnew) ?_
  exact {
    opened := by rw [World.log,hclient]; exact h.opened
    linked := fun hs => by
      have hs₀ : w₀.client.socksClosed=false := by simpa [World.log,hclient] using hs
      have hl := hw.linked h.up hfilled (h.linked hs₀)
      exact { hl with }
    failure := fun _ hn => hn.elim hnote
    socksCause := fun hs hn => by
      have hs₀ : w₀.client.socksClosed=true := by simpa [World.log,hclient] using hs
      have hold := hn.before
      rw [hw.notes] at hold
      exact h.socksCause hs₀ hold
    flushed := fun hn => (hn.elim hnote).elim }

/-- `client_socks_recv_send_out`. -/
theorem clientSocksRecvSendOut_sentOut {data : Bytes} {sent : ℕ} (answers : Answers)
    (h : Serving auth dest w) (hbuf : w.client.socksRecvBuf=some (data,sent))
    (hsent : sent<data.length) (hwaiting : w.client.socksRecvWaiting=false) :
    Safe (w.clientSocksRecvSendOut answers) (SentOut auth dest w) := by
  have hfilled : w.client.socksRecvBuf≠none := by simp [hbuf]
  simp only [World.clientSocksRecvSendOut,safe_bind,safe_access,safe_demand]
  refine ⟨h.held.allocated,⟨h.opened,h.up,?_,hwaiting⟩,?_⟩
  · simpa [World.hasUnsent,hbuf] using hsent
  · refine (writeLoop_held answers.writes h.held h.up h.sound hbuf (Nat.le_of_lt hsent)).mono ?_
    rintro ⟨w₁,failed⟩ ⟨sent',h₁,hw₁,hle,hmore⟩
    obtain ⟨waiting,pending,-,hclient⟩ := hw₁.client
    refine safe_ite.mpr ⟨fun _ => ?_,fun _ => ?_⟩
    · exact giveUp_inv h hfilled h₁ hw₁ (by decide)
    simp only [World.afterWrites,safe_bind,safe_demand]
    refine ⟨h₁.opened,safe_ite.mpr ⟨fun _ => ?_,fun _ => safe_ite.mpr ⟨fun hleft => ?_,fun hdone => ?_⟩⟩⟩
    · exact giveUp_inv h hfilled h₁ hw₁ (by decide)
    · refine safe_ite.mpr ⟨fun _ => ?_,fun hpending => ?_⟩
      · exact giveUp_inv h hfilled h₁ hw₁ (by decide)
      · have hbuf₁ : w₁.client.socksRecvBuf=some (data,sent') := by rw [hclient]
        have hlt : sent'<data.length := by simpa [World.hasUnsent,hbuf₁] using hleft
        have hpos : 0<w₁.client.socksRecvTcpPending := Nat.pos_of_ne_zero hpending
        refine ⟨?_,⟨some (data,sent'),hw₁.trans ⟨⟨true,_,Nat.le_refl _,?_⟩,rfl,rfl⟩⟩,?_,hpos⟩
        · exact { h₁ with streams := h₁.streams.same { SameBytes.refl w₁ with } }
        · rw [←hbuf₁]
          rfl
        · intro data' sent₂ hb
          cases hbuf₁.symm.trans hb
          exact ⟨hlt,rfl,hpos⟩
    · have hbuf₁ : w₁.client.socksRecvBuf=some (data,sent') := by rw [hclient]
      have hall : sent'=data.length := by
        have hnot : ¬sent'<data.length := by simpa [World.hasUnsent,hbuf₁] using hdone
        omega
      refine ⟨?_,⟨none,hw₁.trans ⟨⟨_,_,Nat.le_refl _,rfl⟩,rfl,rfl⟩⟩,
        (fun _ _ hb => by cases hb),hmore (by omega)⟩
      have hup₁ : w₁.client.socksUp=true := by rw [hclient]; exact h.up
      exact { h₁ with
        idle := fun hdown => absurd (hdown.symm.trans hup₁) (by simp)
        streams := ⟨fun hdown => absurd (hdown.symm.trans hup₁) (by simp),fun _ => by
          obtain ⟨said,replied,passed,got,hc⟩ := h₁.streams.up hup₁
          refine ⟨said,replied,passed,got,hc.granted,hc.wire,hc.heard,hc.passed,hc.written,fun hn => ?_⟩
          have hgot := hc.got hn
          rw [unsent,hbuf₁,hall] at hgot
          simpa [unsent,World.set] using hgot⟩ }

/-- `client_socks_recv_initiate`. -/
theorem clientSocksRecvInitiate_live {con : BConnection} (h : Talking auth dest con w)
    (hopen : w.client.clientClosed=false) (hnone : w.client.socksRecvBuf=none)
    (hidle : con.receiving=none) (hquiet : w.client.buf=[] → con.sending=none)
    (hsending : w.client.buf≠[] → ∃ n, con.sending=some n ∧ 0<n ∧ n≤w.client.buf.length) :
    Safe w.clientSocksRecvInitiate (fun w' => Live auth dest w' ∧ w'.client.clientClosed=false) := by
  simp only [World.clientSocksRecvInitiate,safe_bind,safe_access,safe_demand,h.safe_onConnection,
    BConnection.receiverRecv,safe_pure]
  refine ⟨h.held.allocated,⟨hopen,h.socksOpen,h.up,hnone⟩,⟨by simp [socksRecvBufSize],hidle⟩,?_,hopen⟩
  refine (h.setCon _).live ⟨hquiet,hsending,.inr ⟨rfl,hnone⟩,fun _ _ => rfl⟩ ?_ ?_
  · exact fun hc => absurd (hc.symm.trans hopen) (by simp)
  · intro _ data sent hbuf
    exact absurd (hbuf.symm.trans hnone) (by simp)

/-- All bytes are written, and the client receives again. -/
theorem Serving.receives {w' : World} (h : Serving auth dest w)
    (hfilled : w.client.socksRecvBuf≠none) (hheld : Held auth dest true w') (hw : Wrote w w' none)
    (hsocks : w.client.socksClosed=false) :
    Safe w'.clientSocksRecvInitiate (fun w₂ => Live auth dest w₂ ∧ w₂.client.clientClosed=false) := by
  obtain ⟨waiting,pending,-,hclient⟩ := hw.client
  obtain ⟨hstate,con,hcon,hbusy⟩ := (h.linked hsocks).up h.up
  have hidle : con.receiving=none := hbusy.free.resolve_right (fun hfree => hfilled hfree.2)
  have hopen : w'.client.clientClosed=false := by rw [hclient]; exact h.opened
  have ht : Talking auth dest con w' := {
    held := by rw [hopen]; exact hheld
    socksOpen := by rw [hclient]; exact hsocks
    up := by rw [hclient]; exact h.up
    state := by rw [hclient]; exact hstate
    con := by rw [hclient]; exact hcon
    recv := fun _ => hw.recv.trans (h.recv.trans (congrArg Bool.not hsocks))
    sound := fun _ => by rw [hw.notes]; exact h.sound
    clientCause := fun hc => absurd (hc.symm.trans hopen) (by simp) }
  refine clientSocksRecvInitiate_live ht hopen ?_ hidle ?_ ?_
  · rw [hclient]
  · rw [hclient]; exact hbusy.quiet
  · rw [hclient]; exact hbusy.sending

/-- A client that waits for an acknowledgement and does not receive. -/
theorem Serving.kept {w' : World} {b : Option (Bytes×ℕ)} (h : Serving auth dest w)
    (hfilled : w.client.socksRecvBuf≠none) (hheld : Held auth dest true w') (hw : Wrote w w' b)
    (hwaits : Waits w'.client)
    (hpos : 0<w'.client.socksRecvTcpPending) (hkept : b≠none ∨ w.client.socksClosed=true) :
    Live auth dest w' ∧ w'.client.clientClosed=false := by
  obtain ⟨waiting,pending,-,hclient⟩ := hw.client
  have hopen : w'.client.clientClosed=false := by rw [hclient]; exact h.opened
  have hup : w'.client.socksUp=true := by rw [hclient]; exact h.up
  have hsocks : w'.client.socksClosed=w.client.socksClosed := by rw [hclient]
  refine ⟨?_,hopen⟩
  exact {
    held := by rw [hopen]; exact hheld
    linked := fun hs => by
      rw [hsocks] at hs
      have hsome : b≠none := hkept.resolve_right (by simp [hs])
      obtain ⟨b,rfl⟩ := Option.ne_none_iff_exists'.mp hsome
      exact hw.linked h.up hfilled (h.linked hs)
    recv := fun _ => by rw [hw.recv,hsocks]; exact h.recv
    draining := fun hc => absurd (hc.symm.trans hopen) (by simp)
    flushing := fun _ => ⟨hup,.inr hpos⟩
    waits := fun _ => hwaits
    sound := fun _ => by rw [hw.notes]; exact h.sound
    clientCause := fun hc => absurd (hc.symm.trans hopen) (by simp)
    socksCause := by rw [hsocks,hw.notes]; exact h.socksCause }

/-- The socket has delivered bytes. -/
def delivered (data : Bytes) (w : World) : World := { w with heard := w.heard++data }

/-- Delivered bytes in the buffer. -/
def filled (data : Bytes) (w : World) : World :=
  (delivered data w).set (fun c =>
    { c with socksRecvBuf := some (data,0), socksRecvWaiting := false })

/-- Bytes for a client whose TCP side is closed are dropped. -/
theorem Talking.delivered {con : BConnection} (h : Talking auth dest con w) (data : Bytes)
    (hclosed : w.client.clientClosed=true) : Talking auth dest con (delivered data w) := by
  obtain ⟨said,replied,passed,got,hc⟩ := h.held.streams.up h.up
  have hstreams : Streams auth dest (TcpRelayRuns.delivered data w) := by
    refine ⟨fun hdown => absurd (hdown.symm.trans h.up) (by simp),fun _ => ?_⟩
    refine ⟨said,replied,passed,got++data,hc.granted,hc.wire,?_,hc.passed,?_,?_⟩
    · rw [TcpRelayRuns.delivered,hc.heard,List.append_assoc]
    · exact hc.written.trans (List.prefix_append _ _)
    · exact fun hsound => absurd hsound (h.clientCause hclosed)
  exact { h with held := { h.held with streams := hstreams } }

/-- Bytes for a client whose TCP side is open go to its free buffer. -/
theorem Talking.filled {con : BConnection} (h : Talking auth dest con w) (data : Bytes)
    (hopen : w.client.clientClosed=false) (hnone : w.client.socksRecvBuf=none) :
    Talking auth dest con (filled data w) := by
  obtain ⟨said,replied,passed,got,hc⟩ := h.held.streams.up h.up
  have hgot : w.written=got := by
    have hall := hc.got (h.sound hopen)
    rwa [unsent,hnone,List.append_nil] at hall
  have hstreams : Streams auth dest (TcpRelayRuns.filled data w) := by
    refine ⟨fun hdown => absurd (hdown.symm.trans h.up) (by simp),fun _ => ?_⟩
    refine ⟨said,replied,passed,got++data,hc.granted,hc.wire,?_,hc.passed,?_,fun _ => ?_⟩
    · rw [TcpRelayRuns.filled,World.set,TcpRelayRuns.delivered,hc.heard,List.append_assoc]
    · exact hc.written.trans (List.prefix_append _ _)
    · rw [←hgot]
      rfl
  exact { h with held := { h.held with
    streams := hstreams
    idle := fun hdown => absurd (hdown.symm.trans h.up) (by simp) } }

/-- The socket has delivered bytes for a client that is up. -/
theorem receivedEvent_inv {data : Bytes} {alloc : Bool} {answers : Answers} (h : Live auth dest w)
    (hstate : w.client.socksClient.state=.up) :
    Safe (connEvent (.received data alloc,answers) w) (Inv auth dest) := by
  simp only [connEvent,safe_bind,safe_suppose,safe_access,hstate]
  intro hlive
  obtain ⟨con,ht,hbusy⟩ := live_talking h hlive hstate
  refine ⟨h.held.allocated,?_⟩
  simp only [BSocksClient.onConnection,ht.con,BConnection.recvDone,safe_bind,safe_suppose,safe_pure]
  rintro ⟨hn,hle⟩
  have hfree : con.receiving=some socksRecvBufSize ∧ w.client.socksRecvBuf=none := by
    refine hbusy.free.resolve_left (fun hnone => ?_)
    rw [hnone,Option.getD_none] at hle
    omega
  obtain ⟨hsize,hnone⟩ := hfree
  rw [hsize,Option.getD_some] at hle
  have hs := ht.setCon { con with receiving := none }
  simp only [World.clientSocksRecvHandlerDone,safe_bind,safe_access,safe_demand]
  refine ⟨h.held.allocated,⟨hn,hle,ht.socksOpen,ht.up,hnone⟩,safe_ite.mpr ⟨fun hclosed => ?_,
    fun hnot => ?_⟩⟩
  · refine .inl ((hs.delivered data hclosed).live ⟨hbusy.quiet,hbusy.sending,.inl rfl,?_⟩ ?_ h.waits)
    · exact fun ho => absurd (ho.symm.trans hclosed) (by simp)
    · exact fun hcl => (h.draining hcl).2
  · have hopen : w.client.clientClosed=false := eq_false_of_ne_true hnot
    have hfilled := hs.filled data hopen hnone
    have hserving : Serving auth dest (filled data (setCon { con with receiving := none } w)) := {
      held := by
        have hheld := hfilled.held
        have ho : (filled data (setCon { con with receiving := none } w)).client.clientClosed=false :=
          hopen
        rwa [ho] at hheld
      opened := hopen
      up := ht.up
      sound := h.sound hopen
      linked := fun _ => hfilled.linked ⟨hbusy.quiet,hbusy.sending,.inl rfl,fun _ hb => by cases hb⟩
      recv := (ht.recv hopen).trans (congrArg Bool.not ht.socksOpen).symm
      socksCause := fun hcl => absurd (hcl.symm.trans ht.socksOpen) (by simp) }
    simp only [safe_bind]
    refine (clientSocksRecvSendOut_sentOut answers hserving rfl hn rfl).mono ?_
    rintro ⟨w',up⟩ hout
    cases up with
    | false => exact safe_ite.mpr ⟨fun hup => absurd hup.1 (by simp),fun _ => hout.1⟩
    | true =>
      obtain ⟨h',⟨b,hw'⟩,hwaits,hpos⟩ := hout
      have hbuf : w'.client.socksRecvBuf=b := hw'.buffer
      refine safe_ite.mpr ⟨fun hup => ?_,fun hfull => ?_⟩
      · obtain rfl : b=none := hbuf.symm.trans hup.2
        exact (hserving.receives (fun hc => by cases hc) h' hw' ht.socksOpen).mono (fun _ hl => .inl hl.1)
      · refine .inl (hserving.kept (fun hc => by cases hc) h' hw' hwaits hpos (.inl fun hb => ?_)).1
        exact hfull ⟨rfl,hbuf.trans hb⟩

/-- What leaves before the SOCKS client is up belongs to the conversation with its server. -/
theorem uttered_outgoing {o : BSocksClient} {wire heard : Bytes} (h : Phase auth dest o wire heard)
    (hup : o.state≠.up) (event : ConnEvent) : Uttered auth dest (wire++outgoing o event) := by
  cases h with
  | connecting =>
    cases event <;> exact uttered_nil
  | @sending state packet said replied used received total h hused =>
    have hwire : ∃ k, said++packet.take used++outgoing ⟨auth,dest,state,true,
        some ⟨some (packet.length-used),none⟩,some (packet,used),received,total⟩ event=
          said++packet.take k := by
      cases event with
      | sent n alloc =>
        refine ⟨used+n,?_⟩
        simp only [outgoing]
        rw [List.append_assoc,←List.take_add]
      | connector isError initialized alloc => exact ⟨used,List.append_nil _⟩
      | received data alloc => exact ⟨used,List.append_nil _⟩
      | error => exact ⟨used,List.append_nil _⟩
      | recvClosed => exact ⟨used,List.append_nil _⟩
    obtain ⟨k,hwire⟩ := hwire
    rw [hwire]
    have hpacket : said++packet.take k<+:said++packet :=
      (List.prefix_append_right_inj said).mpr (List.take_prefix k packet)
    cases h with
    | hello => exact .inl hpacket
    | password ho => exact .inr ⟨_,_,.password ho,hpacket.trans (List.prefix_append _ _)⟩
    | request hauth => exact .inr ⟨_,_,hauth,hpacket⟩
  | @receiving state total said replied received h hreceived =>
    have hnothing : outgoing ⟨auth,dest,state,true,some ⟨none,some (total-received.length)⟩,none,
        received,total⟩ event=[] := by
      cases event <;> rfl
    rw [hnothing,List.append_nil]
    cases h with
    | method => exact .inl (List.prefix_refl _)
    | password ho => exact .inr ⟨_,_,.password ho,List.prefix_append _ _⟩
    | header hauth => exact .inr ⟨_,_,hauth,List.prefix_refl _⟩
    | address hauth hlen => exact .inr ⟨_,_,hauth,List.prefix_refl _⟩
  | up h => exact absurd rfl hup

/-- The SOCKS side reports its end. -/
theorem socksEnds_inv (closeOk : Bool) {note : Note} (h : Held auth dest (!w.client.clientClosed) w)
    (hopen : w.client.socksClosed=false) (hwaits : w.client.clientClosed=false → Waits w.client)
    (hsound : w.client.clientClosed=false → Without clientFailures w.notes)
    (hcause : w.client.clientClosed=true → ¬Without clientFailures w.notes)
    (hnote : note∈socksFailures) : Safe ((w.log note).clientFreeSocks closeOk) (Inv auth dest) := by
  have hnew : note∉clientFailures ∧ note≠.noBuffer := by
    revert hnote
    cases note <;> decide
  exact clientFreeSocks_inv closeOk (h.log hnew.2) hopen (fun hn => (hn.elim hnote).elim) hwaits
    (fun ho => (hsound ho).append hnew.1) (fun hc hn => hcause hc hn.before)

/-- `BSOCKSCLIENT_EVENT_UP`. -/
def risen (w : World) : World :=
  { w.log .socksUp with
    client := { w.client with socksRecvBuf := none, socksRecvTcpPending := 0, socksUp := true }
    pcb := if w.client.clientClosed=false then { w.pcb with sent := true } else w.pcb }

/-- The request has been granted, and the connection is idle. -/
theorem risen_talking (h : Held auth dest (!w.client.clientClosed) w)
    (hopen : w.client.socksClosed=false) (hdown : w.client.socksUp=false)
    (hstate : w.client.socksClient.state=.up) (hcon : w.client.socksClient.con=some .fresh)
    (hgranted : Granted auth dest w.wire w.heard)
    (hrecv : w.client.clientClosed=false → w.pcb.recv=true)
    (hsound : w.client.clientClosed=false → Without clientFailures w.notes)
    (hcause : w.client.clientClosed=true → ¬Without clientFailures w.notes) :
    Talking auth dest .fresh (risen w) where
  held := by
    have hlog : Held auth dest (!w.client.clientClosed) (w.log .socksUp) := h.log (by simp)
    obtain ⟨hwritten,hreceived,-⟩ := h.streams.before hdown
    obtain ⟨hnone,hzero⟩ := h.idle hdown
    exact { hlog with
      opened := by
        have hopened := h.opened
        dsimp only [risen]
        split <;> exact hopened
      callbacks := by
        intro hactive
        have ho : w.client.clientClosed=false := by simpa [risen] using hactive
        have herr := (h.callbacks (by simp [ho])).1
        simpa [risen,ho] using herr
      idle := nofun
      window := by
        intro hactive
        have ho : w.client.clientClosed=false := by simpa [risen] using hactive
        simpa [risen,ho] using h.window (by simp [ho])
      pending := by
        intro hactive
        have ho : w.client.clientClosed=false := by simpa [risen] using hactive
        have hpending := h.pending (by simp [ho])
        simp only [risen,ho,if_true]
        omega
      streams := by
        refine ⟨nofun,fun _ => ⟨w.wire,w.heard,[],[],hgranted,?_,?_,hreceived.symm,?_,fun _ => ?_⟩⟩
        · exact (List.append_nil _).symm
        · exact (List.append_nil _).symm
        · exact hwritten ▸ List.nil_prefix
        · simp [risen,unsent,World.log,hwritten] }
  socksOpen := hopen
  up := rfl
  state := hstate
  con := hcon
  recv := fun ho => by
    have hc : w.client.clientClosed=false := ho
    simpa [risen,hc] using hrecv hc
  sound := fun ho => (hsound ho).append (by decide)
  clientCause := fun hc hn => hcause hc hn.before

/-- Bytes that are already buffered are sent. -/
theorem startSending_talking (h : Talking auth dest .fresh w) :
    Safe w.startSending (fun w' => ∃ con, Talking auth dest con w' ∧ con.receiving=none ∧
      (w.client.buf=[] → con.sending=none) ∧
      (w.client.buf≠[] → ∃ n, con.sending=some n ∧ 0<n ∧ n≤w.client.buf.length) ∧
      w'.client={ w.client with socksClient := w'.client.socksClient }) := by
  refine safe_ite.mpr ⟨fun hbuf => ?_,fun hempty => ?_⟩
  · have hlen : 0<w.client.buf.length := List.length_pos_of_ne_nil hbuf
    simp only [World.clientSendToSocks,safe_bind,safe_access,safe_demand,h.safe_onConnection,
      BConnection.senderSend,safe_pure]
    refine ⟨h.held.allocated,⟨h.socksOpen,h.up,hbuf⟩,⟨hlen,rfl⟩,_,h.setCon _,rfl,?_,?_,rfl⟩
    · exact fun hnil => absurd hnil hbuf
    · exact fun _ => ⟨_,rfl,hlen,Nat.le_refl _⟩
  · exact ⟨_,h,rfl,fun _ => rfl,fun hbuf => absurd hbuf hempty,rfl⟩

/-- Both directions of a client that has just come up. -/
theorem startBoth_inv (h : Talking auth dest .fresh w) (hnone : w.client.socksRecvBuf=none)
    (hdraining : w.client.clientClosed=true → w.client.buf≠[]) :
    Safe (w.startSending >>= World.startReceiving) (Inv auth dest) := by
  rw [safe_bind]
  refine (startSending_talking h).mono ?_
  rintro w' ⟨con,ht,hidle,hquiet,hsending,hclient⟩
  have hbuf : w'.client.buf=w.client.buf := by rw [hclient]
  have hnone' : w'.client.socksRecvBuf=none := by rw [hclient]; exact hnone
  rw [←hbuf] at hquiet hsending
  refine safe_ite.mpr ⟨fun hopen => ?_,fun hclosed => ?_⟩
  · exact (clientSocksRecvInitiate_live ht hopen hnone' hidle hquiet hsending).mono
      (fun _ hl => .inl hl.1)
  · refine .inl (ht.live ⟨hquiet,hsending,.inl hidle,fun ho => absurd ho hclosed⟩ ?_ ?_)
    · intro hc
      rw [hclient] at hc ⊢
      exact hdraining hc
    · exact fun ho => absurd ho hclosed

/-- What the client holds while its SOCKS client is on its way. -/
theorem held_handled {event : ConnEvent} {o : BSocksClient}
    (h : Held auth dest (!w.client.clientClosed) w) (hdown : w.client.socksUp=false)
    (huttered : Uttered auth dest (w.wire++outgoing w.client.socksClient event)) :
    Held auth dest (!(w.handled event o).client.clientClosed) (w.handled event o) :=
  { h with
    streams := ⟨fun hd => ⟨(h.streams.before hd).1,(h.streams.before hd).2.1,huttered⟩,
      fun hup => absurd (hdown.symm.trans hup) (by simp)⟩ }

/-- The connection of a SOCKS client that is up ends. -/
theorem handleEvent_up {o : BSocksClient} (hstate : o.state=.up) (event : ConnEvent)
    (hsent : ∀ n alloc, event≠.sent n alloc) (hreceived : ∀ data alloc, event≠.received data alloc) :
    Safe (handleEvent o event) (fun handled => handled.1=o ∧
      (handled.2=some .error ∨ handled.2=some .errorClosed)) ∧
      outgoing o event=[] ∧ incoming event=[] := by
  have hnot : o.state≠.connecting := by simp [hstate]
  cases event with
  | connector isError initialized alloc =>
    refine ⟨?_,rfl,rfl⟩
    simp only [handleEvent,safe_bind,safe_suppose]
    exact fun hc => absurd hc hnot
  | sent n alloc => exact absurd rfl (hsent n alloc)
  | received data alloc => exact absurd rfl (hreceived data alloc)
  | error =>
    refine ⟨?_,rfl,rfl⟩
    simp [handleEvent,BSocksClient.connectionHandler,BSocksClient.reportError,hnot]
  | recvClosed =>
    refine ⟨?_,rfl,rfl⟩
    simp [handleEvent,BSocksClient.connectionHandler,BSocksClient.reportError,hstate]

/-- The connection of a client that is up ends. -/
theorem socksEvent_up {event : ConnEvent} {answers : Answers} (h : Live auth dest w)
    (hlive : w.socksLive=true) (hstate : w.client.socksClient.state=.up)
    (hsent : ∀ n alloc, event≠.sent n alloc) (hreceived : ∀ data alloc, event≠.received data alloc) :
    Safe (socksEvent (event,answers) w) (Inv auth dest) := by
  obtain ⟨con,ht,hbusy⟩ := live_talking h hlive hstate
  obtain ⟨hsafe,hout,hin⟩ := handleEvent_up hstate event hsent hreceived
  simp only [socksEvent,safe_bind]
  refine hsafe.mono ?_
  rintro ⟨o,report⟩ ⟨hsame,hreport⟩
  have ho : o=w.client.socksClient := hsame
  subst ho
  have hw : w.handled event w.client.socksClient=w := by
    simp [World.handled,World.set,hout,hin]
  simp only [hw]
  rcases hreport with hreport|hreport
  · have hr : report=some .error := hreport
    subst hr
    simp only [World.clientSocksHandler,safe_bind,safe_access,safe_demand]
    exact ⟨h.held.allocated,ht.socksOpen,socksEnds_inv answers.closeOk h.held ht.socksOpen h.waits
      h.sound h.clientCause (by decide)⟩
  · have hr : report=some .errorClosed := hreport
    subst hr
    simp only [World.clientSocksHandler,safe_bind,safe_access,safe_demand]
    exact ⟨h.held.allocated,ht.socksOpen,ht.up,socksEnds_inv answers.closeOk h.held ht.socksOpen
      h.waits h.sound h.clientCause (by decide)⟩

/-- An event of a client that is not up yet. -/
theorem socksEvent_before {event : ConnEvent} {answers : Answers} (h : Live auth dest w)
    (hopen : w.client.socksClosed=false) (hdown : w.client.socksUp=false) :
    Safe (socksEvent (event,answers) w) (Inv auth dest) := by
  obtain ⟨hphase,hstate⟩ := (h.linked hopen).before hdown
  have huttered := uttered_outgoing hphase hstate event
  simp only [socksEvent,safe_bind]
  refine (handleEvent_safe hphase hstate event).mono ?_
  rintro ⟨o,report⟩ hsettled
  have hheld := held_handled (o:=o) h.held hdown huttered
  cases report with
  | none =>
    refine .inl { h with held := hheld, linked := fun _ => ⟨fun _ => hsettled,fun hup => ?_⟩ }
    exact absurd (hdown.symm.trans hup) (by simp)
  | some report =>
    simp only [World.clientSocksHandler,safe_bind,safe_access,safe_demand]
    refine ⟨h.held.allocated,hopen,?_⟩
    cases report with
    | error =>
      exact socksEnds_inv answers.closeOk hheld hopen h.waits h.sound h.clientCause (by decide)
    | errorClosed => exact hsettled.elim
    | up =>
      obtain ⟨hgranted,hcon⟩ := hsettled.1.granted hsettled.2
      have hrecv : w.client.clientClosed=false → w.pcb.recv=true := by
        intro ho
        simpa [hopen] using h.recv ho
      have hrisen := risen_talking hheld hopen hdown hsettled.2 hcon hgranted hrecv h.sound
        h.clientCause
      have hboth := startBoth_inv hrisen rfl (fun hc => (h.draining hc).2)
      simp only [safe_bind,safe_demand]
      refine ⟨hdown,safe_ite.mpr ⟨fun ho => safe_onPcb.mpr ⟨?_,?_⟩,fun hclosed => ?_⟩⟩
      · have hopened := h.held.opened
        have hc : w.client.clientClosed=false := ho
        rw [hc] at hopened
        exact hopened
      · have hc : w.client.clientClosed=false := ho
        simpa [risen,World.set,World.log,World.handled,hc] using hboth
      · have hc : w.client.clientClosed=true := eq_true_of_ne_false hclosed
        simpa [risen,World.set,World.log,World.handled,hc] using hboth

/-- An event of the connection to the SOCKS server. -/
theorem connEvent_inv (h : Inv auth dest w) (event : ConnEvent×Answers) :
    Safe (connEvent event w) (Inv auth dest) := by
  obtain ⟨event,answers⟩ := event
  rcases h with h|h
  · by_cases hstate : w.client.socksClient.state=.up
    · cases event with
      | sent n alloc => exact sentEvent_inv h hstate
      | received data alloc => exact receivedEvent_inv h hstate
      | connector isError initialized alloc =>
        simp only [connEvent,safe_bind,safe_suppose,safe_access,hstate]
        exact fun hlive => ⟨h.held.allocated,socksEvent_up h hlive hstate
          (fun _ _ hc => by cases hc) (fun _ _ hc => by cases hc)⟩
      | error =>
        simp only [connEvent,safe_bind,safe_suppose,safe_access,hstate]
        exact fun hlive => ⟨h.held.allocated,socksEvent_up h hlive hstate
          (fun _ _ hc => by cases hc) (fun _ _ hc => by cases hc)⟩
      | recvClosed =>
        simp only [connEvent,safe_bind,safe_suppose,safe_access,hstate]
        exact fun hlive => ⟨h.held.allocated,socksEvent_up h hlive hstate
          (fun _ _ hc => by cases hc) (fun _ _ hc => by cases hc)⟩
    · have hevent : connEvent (event,answers) w=
          (suppose (w.socksLive=true) >>= fun _ => w.access >>= fun _ =>
            socksEvent (event,answers) w) := by
        rw [connEvent]
        cases hs : w.client.socksClient.state <;> first | rfl | exact absurd hs hstate
      rw [hevent]
      simp only [safe_bind,safe_suppose,safe_access]
      intro hlive
      have hopen : w.client.socksClosed=false := by simpa [hlive] using h.held.socks
      have hdown : w.client.socksUp=false := by
        by_contra hup
        exact hstate ((h.linked hopen).up (eq_true_of_ne_false hup)).1
      exact ⟨h.held.allocated,socksEvent_before h hopen hdown⟩
  · simp only [connEvent,safe_bind,safe_suppose]
    exact fun hlive => absurd (h.socks.symm.trans hlive) (by simp)

/-- What a callback of the TCP stack leads to: it returns `ERR_ABRT` exactly when the protocol
control block has been given up. -/
def Answered (auth : List AuthInfo) (dest : BAddr) (result : World×Err) : Prop :=
  Inv auth dest result.1 ∧ result.2=if result.1.client.clientClosed=true then .abrt else .ok

/-- The variable behind `dead_client` is set exactly when the TCP side is closed. -/
theorem inv_dead (h : Inv auth dest w) : w.dead=w.client.clientClosed := by
  rcases h with h|h
  · exact h.held.dead
  · rw [h.dead,h.clientClosed]

/-- `SYNC_COMMIT` in a callback, with the nested events. -/
theorem synchronize_answered (nested : List (ConnEvent×Answers)) (h : Live auth dest w)
    (hopen : w.client.clientClosed=false) : Safe (synchronize nested w) (Answered auth dest) := by
  have hdead : ({ w with dead := false } : World)=w := by
    rw [←hopen,←h.held.dead]
  simp only [synchronize,hdead,safe_bind,safe_pure]
  refine (safe_steps (fun w' event hw' => connEvent_inv hw' event) nested (.inl h)).mono ?_
  intro w' hw'
  exact ⟨hw',by rw [inv_dead hw']⟩

/-- A failure of the TCP side has been logged. -/
theorem leaving_log {note : Note} (h : Live auth dest w) (hopen : w.client.clientClosed=false)
    (hnote : note∈clientFailures) : Leaving auth dest (w.log note) where
  opened := hopen
  linked := fun hs => { h.linked hs with }
  failure := fun _ hn => hn.elim hnote
  socksCause := fun hs hn => h.socksCause hs hn.before
  flushed := fun hn => (hn.elim hnote).elim

/-- An open client holds an open protocol control block. -/
theorem held_open (h : Live auth dest w) (hopen : w.client.clientClosed=false) :
    Held auth dest true w := by
  have hheld := h.held
  rwa [hopen] at hheld

/-- A protocol control block that is not given up belongs to an open client. -/
theorem inv_open (h : Inv auth dest w) (hopened : w.pcb.opened=true) :
    Live auth dest w ∧ w.client.clientClosed=false := by
  rcases h with h|h
  · refine ⟨h,?_⟩
    have ho := h.held.opened
    rw [hopened] at ho
    simpa using ho.symm
  · exact absurd (h.opened.symm.trans hopened) (by simp)

/-- Data from the TCP stack is buffered. -/
theorem take_held {data : Bytes} (h : Held auth dest true w) (hle : data.length≤w.pcb.window) :
    Held auth dest true (w.take data) :=
  { h with
    window := fun hactive => by
      have hwindow := h.window hactive
      simp only [World.take,World.set,List.length_append]
      omega
    streams := by
      refine ⟨fun hdown => ?_,fun hup => ?_⟩
      · obtain ⟨hwritten,hreceived,huttered⟩ := h.streams.before hdown
        refine ⟨hwritten,?_,huttered⟩
        simp [World.take,World.set,hreceived]
      · obtain ⟨said,replied,passed,got,hc⟩ := h.streams.up hup
        refine ⟨said,replied,passed,got,hc.granted,hc.wire,hc.heard,?_,hc.written,hc.got⟩
        simp [World.take,World.set,←hc.passed] }

/-- Data is buffered behind other data, or before the SOCKS client is up. -/
theorem take_live {data : Bytes} (h : Live auth dest w) (hopen : w.client.clientClosed=false)
    (hle : data.length≤w.pcb.window) (hbehind : w.client.socksUp=true → w.client.buf≠[]) :
    Live auth dest (w.take data) :=
  { h with
    held := by
      have hheld := take_held (held_open h hopen) hle
      simpa [World.take,World.set,hopen] using hheld
    linked := fun hs => ⟨(h.linked hs).before,fun hup => by
      obtain ⟨hstate,con,hcon,hbusy⟩ := (h.linked hs).up hup
      have hbuf := hbehind hup
      refine ⟨hstate,con,hcon,fun hnil => ?_,fun _ => ?_,hbusy.free,hbusy.receiving⟩
      · exact absurd (List.append_eq_nil_iff.mp hnil).1 hbuf
      · obtain ⟨n,hn,hpos,hnle⟩ := hbusy.sending hbuf
        refine ⟨n,hn,hpos,?_⟩
        simp only [World.take,World.set,List.length_append]
        omega⟩
    draining := fun hc => absurd (hc.symm.trans hopen) (by simp) }

/-- Data for a client that is up and has nothing to send begins to be sent. -/
theorem sendTaken_live {data : Bytes} (h : Live auth dest w) (hopen : w.client.clientClosed=false)
    (hsocks : w.client.socksClosed=false) (hup : w.client.socksUp=true) (hempty : w.client.buf=[])
    (hpos : 0<data.length) (hle : data.length≤w.pcb.window) :
    Safe (w.take data).clientSendToSocks (fun w' => Live auth dest w' ∧
      w'.client.clientClosed=false) := by
  obtain ⟨hstate,con,hcon,hbusy⟩ := (h.linked hsocks).up hup
  have hbuf : (w.take data).client.buf=data := by simp [World.take,World.set,hempty]
  have hne : data≠[] := List.ne_nil_of_length_pos hpos
  have ht : Talking auth dest con (w.take data) := {
    held := by
      have hheld := take_held (held_open h hopen) hle
      simpa [World.take,World.set,hopen] using hheld
    socksOpen := hsocks
    up := hup
    state := hstate
    con := hcon
    recv := fun ho => (h.recv ho).trans (congrArg Bool.not hsocks)
    sound := h.sound
    clientCause := h.clientCause }
  simp only [World.clientSendToSocks,safe_bind,safe_access,safe_demand,ht.safe_onConnection,
    BConnection.senderSend,safe_pure,hbuf]
  refine ⟨h.held.allocated,⟨hsocks,hup,hne⟩,⟨hpos,hbusy.quiet hempty⟩,?_,hopen⟩
  refine (ht.setCon _).live ⟨fun hnil => ?_,fun _ => ⟨_,rfl,hpos,?_⟩,hbusy.free,hbusy.receiving⟩ ?_ h.waits
  · exact absurd (hbuf.symm.trans hnil) hne
  · simp [setCon,World.set,hbuf]
  · exact fun hc => absurd (hc.symm.trans hopen) (by simp)

/-- `client_recv_func`, called with no more than the window allows. -/
theorem clientRecvFunc_answered {p : Option Bytes} (answers : Answers)
    (nested : List (ConnEvent×Answers)) (h : Live auth dest w)
    (hopen : w.client.clientClosed=false) (hsocks : w.client.socksClosed=false)
    (hp : ∀ data∈p, 0<data.length ∧ data.length≤w.pcb.window) :
    Safe (clientRecvFunc p answers nested w) (Answered auth dest) := by
  simp only [clientRecvFunc,safe_bind,safe_access,safe_demand]
  refine ⟨h.held.allocated,hopen,?_⟩
  cases p with
  | none =>
    simp only [safe_bind,safe_pure]
    refine (clientFreeClient_inv answers.closeOk ((held_open h hopen).log (by simp))
      (leaving_log h hopen (by decide))).mono ?_
    rintro w' ⟨hinv,hclosed⟩
    exact ⟨hinv,by simp [hclosed]⟩
  | some data =>
    obtain ⟨hpos,hle⟩ := hp data rfl
    have hwindow := (held_open h hopen).window rfl
    simp only [safe_bind,safe_demand]
    refine ⟨hpos,safe_ite.mpr ⟨fun hfull => ?_,fun _ => safe_ite.mpr ⟨fun hfirst => ?_,fun hlater => ?_⟩⟩⟩
    · omega
    · have hempty : w.client.buf=[] := by
        have hlen := hfirst.1
        simp only [World.take,World.set,List.length_append] at hlen
        exact List.length_eq_zero_iff.mp (by omega)
      simp only [safe_bind,safe_demand]
      refine ⟨hsocks,(sendTaken_live h hopen hsocks hfirst.2 hempty hpos hle).mono ?_⟩
      exact fun w' hw' => synchronize_answered nested hw'.1 hw'.2
    · refine ⟨.inl (take_live h hopen hle (fun hup hempty => hlater ⟨?_,hup⟩)),?_⟩
      · simp [World.take,World.set,hempty]
      · simp [World.take,World.set,hopen]

/-- `client_sent_func` behind `client_socks_recv_send_out`. -/
theorem afterSendOut_answered {result : World×Bool} (nested : List (ConnEvent×Answers))
    (h : Serving auth dest w) (hfilled : w.client.socksRecvBuf≠none)
    (hout : SentOut auth dest w result) : Safe (afterSendOut nested result) (Answered auth dest) := by
  obtain ⟨w',up⟩ := result
  cases up with
  | false =>
    refine safe_ite.mpr ⟨fun _ => ⟨hout.1,?_⟩,fun hup => absurd rfl hup⟩
    have hclosed : w'.client.clientClosed=true := hout.2
    simp [hclosed]
  | true =>
    obtain ⟨h',⟨b,hw'⟩,hwaits,hpos⟩ := hout
    have hbuf : w'.client.socksRecvBuf=b := hw'.buffer
    have hsocks : w'.client.socksClosed=w.client.socksClosed := hw'.socksClosed
    refine safe_ite.mpr ⟨fun hdown => absurd hdown (by simp),fun _ => ?_⟩
    simp only [safe_bind,safe_demand]
    refine ⟨hpos,safe_ite.mpr ⟨fun hfree => ?_,fun hkept => ?_⟩⟩
    · obtain rfl : b=none := hbuf.symm.trans hfree.1
      simp only [safe_bind]
      refine (h.receives hfilled h' hw' (hsocks.symm.trans hfree.2)).mono ?_
      exact fun w₂ hw₂ => synchronize_answered nested hw₂.1 hw₂.2
    · have hstays : b≠none ∨ w.client.socksClosed=true := by
        rw [←hbuf,←hsocks]
        by_contra hboth
        rw [not_or,not_ne_iff] at hboth
        exact hkept ⟨hboth.1,eq_false_of_ne_true hboth.2⟩
      obtain ⟨hlive,hopen⟩ := h.kept hfilled h' hw' hwaits hpos hstays
      have ho : w'.client.clientClosed=false := hopen
      exact ⟨.inl hlive,by simp [ho]⟩

/-- `client_sent_func` once the acknowledged bytes are no longer pending. -/
theorem afterAck_answered (answers : Answers) (nested : List (ConnEvent×Answers))
    (h : Serving auth dest w) (hwaiting : ∀ data sent, w.client.socksRecvBuf=some (data,sent) →
      sent<data.length ∧ w.client.socksRecvWaiting=true) :
    Safe (afterAck answers nested w) (Answered auth dest) := by
  cases hbuf : w.client.socksRecvBuf with
  | some b =>
    obtain ⟨data,sent⟩ := b
    obtain ⟨hlt,hwait⟩ := hwaiting data sent hbuf
    have hserving : Serving auth dest (w.set (fun c => { c with socksRecvWaiting := false })) :=
      { h with
        held := { h.held with streams := h.held.streams.same { SameBytes.refl w with } }
        linked := fun hs => ⟨(h.linked hs).before,fun hup => by
          obtain ⟨hstate,con,hcon,hbusy⟩ := (h.linked hs).up hup
          exact ⟨hstate,con,hcon,hbusy.quiet,hbusy.sending,hbusy.free,hbusy.receiving⟩⟩ }
    simp only [afterAck,hbuf,safe_bind,safe_demand]
    refine ⟨⟨hwait,hlt⟩,(clientSocksRecvSendOut_sentOut answers hserving hbuf hlt rfl).mono ?_⟩
    exact fun result hout => afterSendOut_answered nested hserving (by simp [World.set,hbuf]) hout
  | none =>
    have hpending := h.held.pending rfl
    simp only [afterAck,hbuf]
    refine safe_ite.mpr ⟨fun hend => ?_,fun hmore => ?_⟩
    · simp only [safe_bind,safe_pure]
      refine (clientFreeClient_inv answers.closeOk (h.held.log (by simp)) ?_).mono ?_
      · exact {
          opened := h.opened
          linked := fun hs => absurd (hs.symm.trans hend.1) (by simp)
          failure := fun hs => absurd (hs.symm.trans hend.1) (by simp)
          socksCause := fun hs hn => h.socksCause hs hn.before
          flushed := fun _ => ⟨hbuf,hpending.symm.trans hend.2⟩ }
      · rintro w' ⟨hinv,hclosed⟩
        exact ⟨hinv,by simp [hclosed]⟩
    · refine ⟨.inl ?_,by simp [h.opened]⟩
      exact {
        held := by rw [h.opened]; exact h.held
        linked := h.linked
        recv := fun _ => h.recv
        draining := fun hc => absurd (hc.symm.trans h.opened) (by simp)
        flushing := fun hs => ⟨h.up,.inr (Nat.pos_of_ne_zero fun hzero => hmore ⟨hs,hzero⟩)⟩
        waits := fun _ data sent hb => absurd (hb.symm.trans hbuf) (by simp)
        sound := fun _ => h.sound
        clientCause := fun hc => absurd (hc.symm.trans h.opened) (by simp)
        socksCause := h.socksCause }

/-- `client_sent_func`, called for bytes that have not been acknowledged before. -/
theorem clientSentFunc_answered {len : ℕ} (answers : Answers) (nested : List (ConnEvent×Answers))
    (h : Live auth dest w) (hopen : w.client.clientClosed=false) (hup : w.client.socksUp=true)
    (hlen : 0<len ∧ len≤w.pcb.unacked) :
    Safe (clientSentFunc len answers nested
      { w with pcb := { w.pcb with unacked := w.pcb.unacked-len } }) (Answered auth dest) := by
  have hheld := held_open h hopen
  have hpending := hheld.pending rfl
  simp only [clientSentFunc,safe_bind,safe_access,safe_demand]
  refine ⟨hheld.allocated,⟨hopen,hup,hlen.1,by omega⟩,afterAck_answered answers nested ?_ ?_⟩
  · exact {
      held := { hheld with
        pending := fun _ => by simp only [World.set]; omega
        idle := fun hdown => absurd (hdown.symm.trans hup) (by simp)
        streams := hheld.streams.same { SameBytes.refl w with } }
      opened := hopen
      up := hup
      sound := h.sound hopen
      linked := fun hs => ⟨(h.linked hs).before,fun hu => by
        obtain ⟨hstate,con,hcon,hbusy⟩ := (h.linked hs).up hu
        exact ⟨hstate,con,hcon,hbusy.quiet,hbusy.sending,hbusy.free,hbusy.receiving⟩⟩
      recv := h.recv hopen
      socksCause := h.socksCause }
  · intro data sent hbuf
    obtain ⟨hlt,hwaiting,-⟩ := h.waits hopen data sent hbuf
    exact ⟨hlt,hwaiting⟩

/-- Every event keeps the invariant and does not fault. -/
theorem step_inv (h : Inv auth dest w) (event : Event) : Safe (step event w) (Inv auth dest) := by
  cases event with
  | conn event => exact connEvent_inv h event
  | err =>
    simp only [step,safe_bind,safe_suppose]
    rintro ⟨hopened,-⟩
    obtain ⟨hlive,hopen⟩ := inv_open h hopened
    simp only [World.clientErrFunc,safe_bind,safe_access,safe_demand]
    refine ⟨hlive.held.allocated,hopen,?_⟩
    have hheld : Held auth dest true (w.log .clientError) := (held_open hlive hopen).log (by simp)
    have hleaving : Leaving auth dest (w.log .clientError) := leaving_log hlive hopen (by decide)
    exact (clientHandleFreedClient_inv (hheld.ended .failed) (hleaving.ended .failed)).mono
      (fun _ hw' => hw'.1)
  | recv p answers nested =>
    simp only [step,safe_bind,safe_suppose,safe_pure]
    rintro ⟨hopened,hrecv⟩ hp
    obtain ⟨hlive,hopen⟩ := inv_open h hopened
    have hsocks : w.client.socksClosed=false := by
      have hkept := hlive.recv hopen
      rw [hrecv] at hkept
      simpa using hkept.symm
    exact (clientRecvFunc_answered answers nested hlive hopen hsocks hp).mono
      (fun _ hr => hr.1)
  | sent len answers nested =>
    simp only [step,safe_bind,safe_suppose,safe_pure]
    rintro ⟨hopened,hsent,hlen⟩
    obtain ⟨hlive,hopen⟩ := inv_open h hopened
    have hup : w.client.socksUp=true :=
      ((held_open hlive hopen).callbacks rfl).2.symm.trans hsent
    exact (clientSentFunc_answered answers nested hlive hopen hup hlen).mono
      (fun _ hr => hr.1)

/-- A SOCKS client on its way connects, sends or receives. -/
theorem phase_busy {o : BSocksClient} {wire heard : Bytes} (h : Phase auth dest o wire heard)
    (hup : o.state≠.up) : o.state=.connecting ∨
      ∃ con, o.con=some con ∧ (con.sending≠none ∨ con.receiving≠none) := by
  cases h with
  | connecting => exact .inl rfl
  | sending h hused => exact .inr ⟨_,rfl,.inl (by simp)⟩
  | receiving h hreceived => exact .inr ⟨_,rfl,.inr (by simp)⟩
  | up h => exact absurd rfl hup

section Runs

variable {events : List Event}

/-- The invariant holds after every run. -/
theorem run_inv (hrun : (checked step).Run (.accepted auth dest) events w) : Inv auth dest w :=
  run_invariant (fun _ event h => step_inv h event) hrun (inv_accepted auth dest)

theorem inv_streams (h : Inv auth dest w) : Streams auth dest w := by
  rcases h with h|h
  · exact h.held.streams
  · exact h.streams

theorem inv_opened (h : Inv auth dest w) : w.pcb.opened=!w.client.clientClosed := by
  rcases h with h|h
  · exact h.held.opened
  · rw [h.opened,h.clientClosed]
    rfl

/-- Answers of a TCP stack with enough space. -/
def sampleAnswers : Answers := ⟨[(100,.ok)],true,true⟩

/-- A connection that sends two bytes before the server is up, gets three and closes. -/
def sampleEvents : List Event :=
  [Event.conn (.connector false true true,sampleAnswers),.recv (some [1,2]) sampleAnswers [],
    .conn (.sent 4 true,sampleAnswers),.conn (.received [0x05,0x00] true,sampleAnswers),
    .conn (.sent 10 true,sampleAnswers),.conn (.received [0x05,0x00,0,0x01] true,sampleAnswers),
    .conn (.received [0,0,0,0,0,0] true,sampleAnswers),.conn (.sent 2 true,sampleAnswers),
    .conn (.received [7,8,9] true,sampleAnswers),.sent 3 sampleAnswers [],
    .recv none sampleAnswers []]

/-- The client after the first of these events. -/
def sampleAfter (n : ℕ) : World :=
  stepped step (sampleEvents.take n) (.accepted sampleAuth sampleDest)

/-- Until the SOCKS server has granted the request, the bytes of the client are kept and only the
handshake is on the wire. Afterwards the server gets the bytes of the client in order behind the
handshake, and the client gets the bytes of the server in order from the first one behind the
reply. Nothing is dropped on the way to the client unless its side has ended. -/
theorem relayed_in_order (hrun : (checked step).Run (.accepted auth dest) events w) :
    (w.client.socksUp=false →
      w.written=[] ∧ w.received=w.client.buf ∧ Uttered auth dest w.wire) ∧
    (w.client.socksUp=true → ∃ said replied passed got, Granted auth dest said replied ∧
      w.wire=said++passed ∧ w.heard=replied++got ∧ passed++w.client.buf=w.received ∧
      w.written<+:got ∧ (Without clientFailures w.notes → w.written++unsent w.client=got)) := by
  have hstreams := inv_streams (run_inv hrun)
  refine ⟨hstreams.before,fun hup => ?_⟩
  obtain ⟨said,replied,passed,got,hc⟩ := hstreams.up hup
  exact ⟨said,replied,passed,got,hc.granted,hc.wire,hc.heard,hc.passed,hc.written,hc.got⟩

theorem relayed_in_order_sample : (sampleAfter 9).client.socksUp=true ∧
    ∃ said replied passed got, Granted sampleAuth sampleDest said replied ∧
      (sampleAfter 9).wire=said++passed ∧ (sampleAfter 9).heard=replied++got := by
  have hup : (sampleAfter 9).client.socksUp=true := by decide
  obtain ⟨said,replied,passed,got,hgranted,hwire,hheard,-⟩ :=
    (relayed_in_order (run_stepped (by decide))).2 hup
  exact ⟨hup,said,replied,passed,got,hgranted,hwire,hheard⟩

/-- When an event has released a client, the server has got everything unless the SOCKS side has
ended first, and the client has got and acknowledged everything unless its own side has. The
releases by `client_murder` at the end of the program are not meant. -/
theorem released_complete (hrun : (checked step).Run (.accepted auth dest) events w)
    (hfreed : w.freed=true) :
    (Without socksFailures w.notes → w.received=[] ∨
      ∃ said replied, Granted auth dest said replied ∧ w.wire=said++w.received) ∧
    (Without clientFailures w.notes → w.written=[] ∧ w.client.socksUp=false ∨
      w.pcb.unacked=0 ∧ ∃ said replied, Granted auth dest said replied ∧
        w.heard=replied++w.written) := by
  have hinv := run_inv hrun
  have hstreams := inv_streams hinv
  have hgone : Gone auth dest w :=
    hinv.resolve_left (fun h => absurd (h.held.allocated.symm.trans hfreed) (by simp))
  cases hup : w.client.socksUp with
  | false =>
    obtain ⟨hwritten,hreceived,-⟩ := hstreams.before hup
    exact ⟨fun hn => .inl (hreceived.trans (hgone.drained hn)),fun _ => .inl ⟨hwritten,rfl⟩⟩
  | true =>
    obtain ⟨said,replied,passed,got,hc⟩ := hstreams.up hup
    refine ⟨fun hn => .inr ⟨said,replied,hc.granted,?_⟩,fun hn => .inr ?_⟩
    · have hpassed := hc.passed
      rw [hgone.drained hn,List.append_nil] at hpassed
      rw [←hpassed]
      exact hc.wire
    · obtain ⟨hnone,hacked⟩ := hgone.flushed hn
      have hgot := hc.got hn
      rw [unsent,hnone,List.append_nil] at hgot
      refine ⟨hacked,said,replied,hc.granted,?_⟩
      rw [hgot]
      exact hc.heard

theorem released_complete_sample : (sampleAfter 11).freed=true ∧ ((sampleAfter 11).received=[] ∨
    ∃ said replied, Granted sampleAuth sampleDest said replied ∧
      (sampleAfter 11).wire=said++(sampleAfter 11).received) := by
  have hfreed : (sampleAfter 11).freed=true := by decide
  have hsound : Without socksFailures (sampleAfter 11).notes := by
    intro note hnote
    revert hnote
    cases note <;> decide
  exact ⟨hfreed,(released_complete (run_stepped (by decide)) hfreed).1 hsound⟩

/-- The TCP stack may go on with a protocol control block exactly when it has not been given up:
that is what the results of the callbacks say. Data that fits into the window always fits into
the buffer. -/
theorem callbacks_report_abort (hrun : (checked step).Run (.accepted auth dest) events w)
    (hopened : w.pcb.opened=true) (answers : Answers) (nested : List (ConnEvent×Answers)) {w' : World}
    {err : Err} :
    (∀ p, w.pcb.recv=true → (∀ data∈p, 0<data.length ∧ data.length≤w.pcb.window) →
      clientRecvFunc p answers nested w=.ok (w',err) →
        err≠.mem ∧ (err=.abrt ↔ w'.pcb.opened=false)) ∧
    (∀ len, w.pcb.sent=true → 0<len → len≤w.pcb.unacked →
      clientSentFunc len answers nested
        { w with pcb := { w.pcb with unacked := w.pcb.unacked-len } }=.ok (w',err) →
        err≠.mem ∧ (err=.abrt ↔ w'.pcb.opened=false)) := by
  obtain ⟨hlive,hopen⟩ := inv_open (run_inv hrun) hopened
  have hanswered : Answered auth dest (w',err) → err≠.mem ∧ (err=.abrt ↔ w'.pcb.opened=false) := by
    rintro ⟨hinv,herr⟩
    rw [inv_opened hinv]
    have he : err=if w'.client.clientClosed=true then .abrt else .ok := herr
    cases hc : w'.client.clientClosed with
    | true => simp [he,hc]
    | false => simp [he,hc]
  refine ⟨fun p hrecv hp hok => ?_,fun len hsent hpos hle hok => ?_⟩
  · have hsocks : w.client.socksClosed=false := by
      have hkept := hlive.recv hopen
      rw [hrecv] at hkept
      simpa using hkept.symm
    exact hanswered ((clientRecvFunc_answered answers nested hlive hopen hsocks hp).of_ok hok)
  · have hup : w.client.socksUp=true :=
      ((held_open hlive hopen).callbacks rfl).2.symm.trans hsent
    exact hanswered ((clientSentFunc_answered answers nested hlive hopen hup ⟨hpos,hle⟩).of_ok hok)

theorem callbacks_report_abort_sample :
    clientRecvFunc none sampleAnswers [] (sampleAfter 10)=.ok (sampleAfter 11,.abrt) ∧
      (sampleAfter 11).pcb.opened=false := by
  have hok : clientRecvFunc none sampleAnswers [] (sampleAfter 10)=.ok (sampleAfter 11,.abrt) := rfl
  have hreport := (callbacks_report_abort (run_stepped (by decide)) (by decide) sampleAnswers []).1
    none (by decide) (by simp) hok
  exact ⟨hok,hreport.2.mp rfl⟩

/-- A client that is kept waits for something that is in progress: the SOCKS client connects,
sends or receives, or bytes are to be acknowledged and the callback for it is set. -/
theorem never_stalls (hrun : (checked step).Run (.accepted auth dest) events w)
    (hkept : w.freed=false) :
    w.socksLive=true ∧ (w.client.socksClient.state=.connecting ∨ ∃ con,
      w.client.socksClient.con=some con ∧ (con.sending≠none ∨ con.receiving≠none)) ∨
    0<w.pcb.unacked ∧ w.pcb.opened=true ∧ w.pcb.sent=true := by
  have hlive : Live auth dest w :=
    (run_inv hrun).resolve_right (fun h => absurd (h.freed.symm.trans hkept) (by simp))
  have hacknowledged : w.client.clientClosed=false → w.client.socksUp=true →
      0<w.client.socksRecvTcpPending → 0<w.pcb.unacked ∧ w.pcb.opened=true ∧ w.pcb.sent=true := by
    intro hopen hup hpos
    have hheld := held_open hlive hopen
    rw [hheld.pending rfl] at hpos
    exact ⟨hpos,hheld.opened,((hheld.callbacks rfl).2).trans hup⟩
  have hbuffered : w.client.clientClosed=false → w.client.socksRecvBuf≠none →
      0<w.client.socksRecvTcpPending := by
    intro hopen hbuf
    obtain ⟨⟨data,sent⟩,hb⟩ := Option.ne_none_iff_exists'.mp hbuf
    exact (hlive.waits hopen data sent hb).2.2
  cases hsocks : w.client.socksClosed with
  | true =>
    have hopen : w.client.clientClosed=false := by
      by_contra hc
      exact absurd (hlive.draining (eq_true_of_ne_false hc)).1 (by simp [hsocks])
    obtain ⟨hup,hleft⟩ := hlive.flushing hsocks
    exact .inr (hacknowledged hopen hup (hleft.elim (hbuffered hopen) id))
  | false =>
    have hs : w.socksLive=true := by simpa [hsocks] using hlive.held.socks
    cases hup : w.client.socksUp with
    | false =>
      obtain ⟨hphase,hstate⟩ := (hlive.linked hsocks).before hup
      exact .inl ⟨hs,phase_busy hphase hstate⟩
    | true =>
      obtain ⟨-,con,hcon,hbusy⟩ := (hlive.linked hsocks).up hup
      cases hopen : w.client.clientClosed with
      | true =>
        obtain ⟨n,hn,-⟩ := hbusy.sending (hlive.draining hopen).2
        exact .inl ⟨hs,.inr ⟨con,hcon,.inl (by simp [hn])⟩⟩
      | false =>
        by_cases hbuf : w.client.socksRecvBuf=none
        · exact .inl ⟨hs,.inr ⟨con,hcon,.inr (by simp [hbusy.receiving hopen hbuf])⟩⟩
        · exact .inr (hacknowledged hopen hup (hbuffered hopen hbuf))

theorem never_stalls_sample : (sampleAfter 9).freed=false ∧
    ((sampleAfter 9).socksLive=true ∧ ((sampleAfter 9).client.socksClient.state=.connecting ∨ ∃ con,
      (sampleAfter 9).client.socksClient.con=some con ∧ (con.sending≠none ∨ con.receiving≠none)) ∨
    0<(sampleAfter 9).pcb.unacked ∧ (sampleAfter 9).pcb.opened=true ∧
      (sampleAfter 9).pcb.sent=true) := by
  have hkept : (sampleAfter 9).freed=false := by decide
  exact ⟨hkept,never_stalls (run_stepped (by decide)) hkept⟩

end Runs

end ProxyDroid.TcpRelayRuns
