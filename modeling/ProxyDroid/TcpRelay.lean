import ProxyDroid.SocksClientRuns

/-!
# One TCP connection of the tunnel process

`tun2socks` ends every TCP connection of the device in its own TCP stack and relays its bytes
over a SOCKS connection to the destination. The two sides of a client close independently of
each other, and what is buffered for the side that is still open is sent first. The callbacks of
the TCP stack run the jobs they have caused before they return, so connection events can be
nested in them. Assertions are demands of the model, and so is every use of a client or of a
protocol control block that has been released.
-/

namespace ProxyDroid.TcpRelay

open CheckedPrograms SocksClient
open ConnectionTypes (Bytes)

/-- `TCP_WND`, the size of `buf`. -/
def tcpWnd : ℕ := 5840

/-- `CLIENT_SOCKS_RECV_BUF_SIZE`. -/
def socksRecvBufSize : ℕ := 8192

/-- Results of the functions of the TCP stack and of its callbacks. -/
inductive Err where
  /-- `ERR_OK`. -/
  | ok
  /-- `ERR_MEM`. -/
  | mem
  /-- `ERR_ABRT`. -/
  | abrt
  /-- Any other error. -/
  | other
  deriving DecidableEq

/-- What `client_log` prints about a client. -/
inductive Note where
  | accepted
  | waitingForSocks
  | tcpCloseFailed
  | waitingForClient
  | clientError
  | clientClosed
  | noBuffer
  | socksError
  | socksUp
  | socksClosed
  | removingAfterClient
  | tcpWriteFailed
  | tcpOutputFailed
  | cannotQueue
  | removingAfterSocks
  deriving DecidableEq

/-- How a protocol control block is given up. -/
inductive End where
  /-- `tcp_close`. -/
  | closed
  /-- `tcp_abort`. -/
  | aborted
  /-- Freed by the TCP stack, which reports it to the error callback. -/
  | failed
  deriving DecidableEq

/-- A `tcp_pcb` as the TCP stack keeps it for the client. -/
structure Pcb where
  /-- Not given up. -/
  opened : Bool
  /-- Whether `tcp_err` has set a callback. -/
  err : Bool
  /-- Whether `tcp_recv` has set a callback. -/
  recv : Bool
  /-- Whether `tcp_sent` has set a callback. -/
  sent : Bool
  /-- The receive window. -/
  window : ℕ
  /-- How many written bytes the peer has not acknowledged. -/
  unacked : ℕ
  deriving DecidableEq

/-- `struct tcp_client`. -/
structure TcpClient where
  /-- `client_closed`. -/
  clientClosed : Bool
  /-- The `buf_used` bytes of `buf`. -/
  buf : Bytes
  /-- `socks_client`. -/
  socksClient : BSocksClient
  /-- `socks_up`. -/
  socksUp : Bool
  /-- `socks_closed`. -/
  socksClosed : Bool
  /-- `socks_recv_buf` up to `socks_recv_buf_used`, unless that is -1, with
  `socks_recv_buf_sent`. -/
  socksRecvBuf : Option (Bytes×ℕ)
  /-- `socks_recv_waiting`. -/
  socksRecvWaiting : Bool
  /-- `socks_recv_tcp_pending`. -/
  socksRecvTcpPending : ℕ
  deriving DecidableEq

/-- A client with its surroundings, and a record for specifications. -/
structure World where
  /-- The client. -/
  client : TcpClient
  /-- Its memory has been freed. -/
  freed : Bool
  /-- The variable that `DEAD_ENTER` has put behind `dead_client`. -/
  dead : Bool
  /-- Its protocol control block. -/
  pcb : Pcb
  /-- `socks_client` is initialized and not freed. -/
  socksLive : Bool
  /-- All bytes taken over from the TCP stack. -/
  received : Bytes
  /-- All bytes the socket to the SOCKS server has taken. -/
  wire : Bytes
  /-- All bytes the socket to the SOCKS server has delivered. -/
  heard : Bytes
  /-- All bytes given to `tcp_write`. -/
  written : Bytes
  /-- How the protocol control block has been given up. -/
  ends : List End
  /-- How often `socks_client` has been freed. -/
  frees : ℕ
  /-- What has been logged. -/
  notes : List Note
  deriving DecidableEq

/-- What the TCP stack answers while an event is handled. -/
structure Answers where
  /-- `tcp_sndbuf` and the result of `tcp_write`, for each round of the loop. After the last one
  there is no more space. -/
  writes : List (ℕ×Err)
  /-- `tcp_output` succeeds. -/
  outputOk : Bool
  /-- `tcp_close` succeeds. -/
  closeOk : Bool
  deriving DecidableEq

namespace World

variable (w : World)

/-- A client that `listener_accept_func` has set up, before it runs the jobs that this has
caused. -/
def accepted (authInfo : List AuthInfo) (destAddr : BAddr) : World where
  client := ⟨false,[],.init authInfo destAddr,false,false,none,false,0⟩
  freed := false
  dead := false
  pcb := ⟨true,true,true,false,tcpWnd,0⟩
  socksLive := true
  received := []
  wire := []
  heard := []
  written := []
  ends := []
  frees := 0
  notes := [.accepted]

/-- The memory of the client is used. -/
def access : Checked Unit := demand (w.freed=false)

/-- `client_log`. -/
def log (note : Note) : World := { w with notes := w.notes++[note] }

/-- A change of the client's fields. -/
def set (f : TcpClient → TcpClient) : World := { w with client := f w.client }

/-- A function of the TCP stack on the client's protocol control block. -/
def onPcb (f : Pcb → Pcb) : Checked World := do
  demand (w.pcb.opened=true)
  return { w with pcb := f w.pcb }

/-- The same, unless the client is closed. -/
def ifOpen (f : Pcb → Pcb) : Checked World :=
  if w.client.clientClosed=false then w.onPcb f else .ok w

/-- `tcp_err`, `tcp_recv` and `tcp_sent` with `NULL`. -/
def removeCallbacks : Checked World :=
  w.onPcb (fun pcb => { pcb with err := false, recv := false, sent := false })

/-- The protocol control block is given up. -/
def endPcb (how : End) : Checked World := do
  let w ← w.onPcb (fun pcb => { pcb with opened := false })
  return { w with ends := w.ends++[how] }

/-- `tcp_close`, and `tcp_abort` if it fails. -/
def closePcb (closeOk : Bool) : Checked World :=
  if closeOk=true then w.endPcb .closed else (w.log .tcpCloseFailed).endPcb .aborted

/-- `BSocksClient_Free`, and the SOCKS side is marked as closed. -/
def freeSocksClient : Checked World := do
  demand (w.socksLive=true)
  return ({ w with socksLive := false, frees := w.frees+1 } : World).set
    (fun c => { c with socksClosed := true })

/-- An operation on an interface of the SOCKS connection. -/
def onConnection (f : BConnection → Checked BConnection) : Checked World := do
  demand (w.socksLive=true ∧ w.client.socksClient.state=.up)
  let o ← w.client.socksClient.onConnection f
  return w.set (fun c => { c with socksClient := o })

/-- `client_dealloc`. -/
def clientDealloc : Checked World := do
  w.access
  demand (w.client.clientClosed=true)
  demand (w.client.socksClosed=true)
  return { w with freed := true }

/-- `client_free_socks` once the SOCKS side is closed, with what it does for a client that is
open and has nothing to wait for. -/
def afterSocks (freeClient : World → Checked World) : Checked World :=
  if w.client.socksUp=true ∧ (w.client.socksRecvBuf≠none ∨ 0<w.client.socksRecvTcpPending) ∧
      w.client.clientClosed=false then .ok (w.log .waitingForClient)
  else if w.client.clientClosed=false then freeClient w
  else w.clientDealloc

/-- `client_free_socks`: a client that is up no longer receives from its TCP side. -/
def stopReceiving : Checked World :=
  if w.client.socksUp=true ∧ w.client.clientClosed=false then
    w.onPcb (fun pcb => { pcb with recv := false })
  else .ok w

/-- `client_free_socks`. -/
def freeSocksWith (freeClient : World → Checked World) : Checked World := do
  w.access
  demand (w.client.socksClosed=false)
  let w ← w.stopReceiving
  let w ← w.freeSocksClient
  w.afterSocks freeClient

/-- `client_handle_freed_client` once the TCP side is marked as closed. The call of
`client_free_socks` finds the mark and does not come back here. -/
def afterClient : Checked World :=
  if w.client.buf≠[] ∧ w.client.socksClosed=false then .ok (w.log .waitingForSocks)
  else if w.client.socksClosed=false then w.freeSocksWith (fun _ => .error .fault)
  else w.clientDealloc

/-- The TCP side is marked as closed, and the variable behind `dead_client` is set. -/
def markClosed : World :=
  ({ w with dead := true } : World).set (fun c => { c with clientClosed := true })

/-- `client_handle_freed_client`. -/
def clientHandleFreedClient : Checked World := do
  w.access
  demand (w.client.clientClosed=false)
  w.markClosed.afterClient

/-- `client_free_client`. -/
def clientFreeClient (closeOk : Bool) : Checked World := do
  w.access
  demand (w.client.clientClosed=false)
  let w ← w.removeCallbacks
  let w ← w.closePcb closeOk
  w.clientHandleFreedClient

/-- `client_abort_client`. -/
def clientAbortClient : Checked World := do
  w.access
  demand (w.client.clientClosed=false)
  let w ← w.removeCallbacks
  let w ← w.endPcb .aborted
  w.clientHandleFreedClient

/-- `client_free_socks`. -/
def clientFreeSocks (closeOk : Bool) : Checked World :=
  w.freeSocksWith (fun w => w.clientFreeClient closeOk)

/-- The first part of `client_murder`. -/
def murderClient : Checked World :=
  if w.client.clientClosed=false then do
    let w ← w.removeCallbacks
    let w ← w.endPcb .aborted
    return w.markClosed
  else .ok w

/-- The second part of `client_murder`. -/
def murderSocks : Checked World :=
  if w.client.socksClosed=false then w.freeSocksClient else .ok w

/-- `client_murder`. -/
def clientMurder : Checked World := do
  w.access
  let w ← w.murderClient
  let w ← w.murderSocks
  w.clientDealloc

/-- `client_err_func`. -/
def clientErrFunc : Checked World := do
  w.access
  demand (w.client.clientClosed=false)
  (w.log .clientError).clientHandleFreedClient

/-- `client_send_to_socks`. -/
def clientSendToSocks : Checked World := do
  w.access
  demand (w.client.socksClosed=false ∧ w.client.socksUp=true ∧ w.client.buf≠[])
  w.onConnection (BConnection.senderSend w.client.buf.length)

/-- `client_socks_send_handler_done` once the sent bytes have been removed and confirmed. -/
def afterSent (closeOk : Bool) : Checked World :=
  if w.client.buf≠[] then w.onConnection (BConnection.senderSend w.client.buf.length)
  else if w.client.clientClosed=true then (w.log .removingAfterClient).clientFreeSocks closeOk
  else .ok w

/-- `client_socks_send_handler_done`; `tcp_recved` opens the window again. -/
def clientSocksSendHandlerDone (n : ℕ) (closeOk : Bool) : Checked World := do
  w.access
  demand (w.client.socksClosed=false ∧ w.client.socksUp=true ∧ w.client.buf≠[] ∧ 0<n ∧
    n≤w.client.buf.length)
  let w := w.set (fun c => { c with buf := c.buf.drop n })
  let w ← w.ifOpen (fun pcb => { pcb with window := pcb.window+n })
  w.afterSent closeOk

/-- `client_socks_recv_initiate`. -/
def clientSocksRecvInitiate : Checked World := do
  w.access
  demand (w.client.clientClosed=false ∧ w.client.socksClosed=false ∧ w.client.socksUp=true ∧
    w.client.socksRecvBuf=none)
  w.onConnection (BConnection.receiverRecv socksRecvBufSize)

/-- A round of the loop in `client_socks_recv_send_out` that has queued bytes. -/
def queue (data : Bytes) (sent toWrite : ℕ) : Checked World := do
  let w ← w.onPcb (fun pcb => { pcb with unacked := pcb.unacked+toWrite })
  return ({ w with written := w.written++(data.drop sent).take toWrite } : World).set (fun c =>
    { c with
      socksRecvBuf := some (data,sent+toWrite)
      socksRecvTcpPending := c.socksRecvTcpPending+toWrite })

/-- The loop of `client_socks_recv_send_out`; the flag says that `tcp_write` has failed with an
error other than `ERR_MEM`. -/
def writeLoop : List (ℕ×Err) → World → Checked (World×Bool)
  | [],w => .ok (w,false)
  | (sndbuf,err)::writes,w =>
    match w.client.socksRecvBuf with
    | none => .error .fault
    | some (data,sent) =>
      if min (data.length-sent) sndbuf=0 then .ok (w,false)
      else match err with
        | .ok => do
          let w ← w.queue data sent (min (data.length-sent) sndbuf)
          if sent+min (data.length-sent) sndbuf<data.length then writeLoop writes w
          else return (w,false)
        | .mem => .ok (w,false)
        | .abrt => .ok (w,true)
        | .other => .ok (w,true)

/-- There are bytes from the server that have not been queued. -/
def hasUnsent : Bool := w.client.socksRecvBuf.any (fun b => b.2<b.1.length)

/-- `client_socks_recv_send_out` gives up; the flag says that the client is still up. -/
def giveUp (note : Note) : Checked (World×Bool) := do
  let w ← (w.log note).clientAbortClient
  return (w,false)

/-- `client_socks_recv_send_out` behind its loop. -/
def afterWrites (outputOk : Bool) : Checked (World×Bool) := do
  demand (w.pcb.opened=true)
  if outputOk=false then w.giveUp .tcpOutputFailed
  else if w.hasUnsent=true then
    if w.client.socksRecvTcpPending=0 then w.giveUp .cannotQueue
    else return (w.set (fun c => { c with socksRecvWaiting := true }),true)
  else return (w.set (fun c => { c with socksRecvBuf := none }),true)

/-- `client_socks_recv_send_out`; the flag is false when the client has been aborted. -/
def clientSocksRecvSendOut (answers : Answers) : Checked (World×Bool) := do
  w.access
  demand (w.client.clientClosed=false ∧ w.client.socksUp=true ∧ w.hasUnsent=true ∧
    w.client.socksRecvWaiting=false)
  let result ← writeLoop answers.writes w
  if result.2=true then result.1.giveUp .tcpWriteFailed
  else result.1.afterWrites answers.outputOk

/-- `client_socks_recv_handler_done`. -/
def clientSocksRecvHandlerDone (data : Bytes) (answers : Answers) : Checked World := do
  w.access
  demand (0<data.length ∧ data.length≤ socksRecvBufSize ∧ w.client.socksClosed=false ∧
    w.client.socksUp=true ∧ w.client.socksRecvBuf=none)
  if w.client.clientClosed=true then return w
  else do
    let result ← (w.set (fun c =>
      { c with socksRecvBuf := some (data,0), socksRecvWaiting := false })).clientSocksRecvSendOut
        answers
    if result.2=true ∧ result.1.client.socksRecvBuf=none then result.1.clientSocksRecvInitiate
    else return result.1

/-- `BSOCKSCLIENT_EVENT_UP`: bytes that are already buffered are sent. -/
def startSending : Checked World :=
  if w.client.buf≠[] then w.clientSendToSocks else .ok w

/-- `BSOCKSCLIENT_EVENT_UP`: bytes are received if the client is still open. -/
def startReceiving : Checked World :=
  if w.client.clientClosed=false then w.clientSocksRecvInitiate else .ok w

/-- `client_socks_handler`. -/
def clientSocksHandler (event : Report) (closeOk : Bool) : Checked World := do
  w.access
  demand (w.client.socksClosed=false)
  match event with
  | .error => (w.log .socksError).clientFreeSocks closeOk
  | .up =>
    demand (w.client.socksUp=false)
    let w := (w.log .socksUp).set (fun c =>
      { c with socksRecvBuf := none, socksRecvTcpPending := 0, socksUp := true })
    let w ← w.ifOpen (fun pcb => { pcb with sent := true })
    let w ← w.startSending
    w.startReceiving
  | .errorClosed =>
    demand (w.client.socksUp=true)
    (w.log .socksClosed).clientFreeSocks closeOk

end World

/-- The SOCKS client has handled an event. -/
def World.handled (event : ConnEvent) (o : BSocksClient) (w : World) : World :=
  ({ w with
    wire := w.wire++outgoing w.client.socksClient event
    heard := w.heard++incoming event } : World).set (fun c => { c with socksClient := o })

/-- An event that the SOCKS client handles itself, and what it reports. -/
def socksEvent (event : ConnEvent×Answers) (w : World) : Checked World := do
  let result ← handleEvent w.client.socksClient event.1
  match result.2 with
  | none => return w.handled event.1 result.1
  | some report => (w.handled event.1 result.1).clientSocksHandler report event.2.closeOk

/-- An event of the connection to the SOCKS server. Once the SOCKS client is up, its stream
interfaces belong to the TCP client: the socket takes the first bytes that are in `buf` now. -/
def connEvent (event : ConnEvent×Answers) (w : World) : Checked World := do
  suppose (w.socksLive=true)
  w.access
  match w.client.socksClient.state,event.1 with
  | .up,.sent n _ => do
    let o ← w.client.socksClient.onConnection (BConnection.sendDone n)
    let w := w.set (fun c => { c with socksClient := o })
    let w : World := { w with wire := w.wire++w.client.buf.take n }
    w.clientSocksSendHandlerDone n event.2.closeOk
  | .up,.received data _ => do
    let o ← w.client.socksClient.onConnection (BConnection.recvDone data)
    let w := w.set (fun c => { c with socksClient := o })
    let w : World := { w with heard := w.heard++data }
    w.clientSocksRecvHandlerDone data event.2
  | _,_ => socksEvent event w

/-- `SYNC_COMMIT` between `DEAD_ENTER` and `DEAD_LEAVE2`: the nested events, and the result
of the callback. -/
def synchronize (nested : List (ConnEvent×Answers)) (w : World) : Checked (World×Err) := do
  let w ← steps connEvent nested { w with dead := false }
  return (w,if w.dead=true then .abrt else .ok)

/-- Data is taken over into `buf`. -/
def World.take (data : Bytes) (w : World) : World :=
  ({ w with
    received := w.received++data
    pcb := { w.pcb with window := w.pcb.window-data.length } } : World).set
      (fun c => { c with buf := c.buf++data })

/-- `client_recv_func`. -/
def clientRecvFunc (p : Option Bytes) (answers : Answers) (nested : List (ConnEvent×Answers))
    (w : World) : Checked (World×Err) := do
  w.access
  demand (w.client.clientClosed=false)
  match p with
  | none => do
    let w ← (w.log .clientClosed).clientFreeClient answers.closeOk
    return (w,.abrt)
  | some data => do
    demand (0<data.length)
    if data.length>tcpWnd-w.client.buf.length then return (w.log .noBuffer,.mem)
    else if (w.take data).client.buf.length=data.length ∧ w.client.socksUp=true then do
      demand (w.client.socksClosed=false)
      let w ← (w.take data).clientSendToSocks
      synchronize nested w
    else return (w.take data,.ok)

/-- `client_sent_func` behind `client_socks_recv_send_out`. -/
def afterSendOut (nested : List (ConnEvent×Answers)) (result : World×Bool) : Checked (World×Err) :=
  if result.2=false then .ok (result.1,.abrt)
  else do
    demand (0< result.1.client.socksRecvTcpPending)
    if result.1.client.socksRecvBuf=none ∧ result.1.client.socksClosed=false then do
      let w ← result.1.clientSocksRecvInitiate
      synchronize nested w
    else return (result.1,.ok)

/-- `client_sent_func` once the acknowledged bytes are no longer pending. -/
def afterAck (answers : Answers) (nested : List (ConnEvent×Answers)) (w : World) :
    Checked (World×Err) :=
  match w.client.socksRecvBuf with
  | some (data,sent) => do
    demand (w.client.socksRecvWaiting=true ∧ sent<data.length)
    let result ← (w.set (fun c => { c with socksRecvWaiting := false })).clientSocksRecvSendOut
      answers
    afterSendOut nested result
  | none =>
    if w.client.socksClosed=true ∧ w.client.socksRecvTcpPending=0 then do
      let w ← (w.log .removingAfterSocks).clientFreeClient answers.closeOk
      return (w,.abrt)
    else return (w,.ok)

/-- `client_sent_func`. -/
def clientSentFunc (len : ℕ) (answers : Answers) (nested : List (ConnEvent×Answers)) (w : World) :
    Checked (World×Err) := do
  w.access
  demand (w.client.clientClosed=false ∧ w.client.socksUp=true ∧ 0<len ∧
    len≤w.client.socksRecvTcpPending)
  afterAck answers nested
    (w.set (fun c => { c with socksRecvTcpPending := c.socksRecvTcpPending-len }))

/-- What the reactor and the TCP stack do. -/
inductive Event where
  /-- An event of the connection to the SOCKS server. -/
  | conn (event : ConnEvent×Answers)
  /-- The TCP stack frees the protocol control block and calls the error callback. -/
  | err
  /-- The TCP stack delivers data, or the end of the peer's stream. -/
  | recv (p : Option Bytes) (answers : Answers) (nested : List (ConnEvent×Answers))
  /-- The peer has acknowledged data. -/
  | sent (len : ℕ) (answers : Answers) (nested : List (ConnEvent×Answers))
  deriving DecidableEq

/-- One event. The TCP stack calls the callbacks that are set, delivers no more than its window
allows and reports every acknowledged byte once. -/
def step (event : Event) (w : World) : Checked World :=
  match event with
  | .conn event => connEvent event w
  | .err => do
    suppose (w.pcb.opened=true ∧ w.pcb.err=true)
    let w : World := { w with
      pcb := { w.pcb with opened := false, err := false, recv := false, sent := false }
      ends := w.ends++[.failed] }
    w.clientErrFunc
  | .recv p answers nested => do
    suppose (w.pcb.opened=true ∧ w.pcb.recv=true)
    suppose (∀ data∈p, 0<data.length ∧ data.length≤w.pcb.window)
    let result ← clientRecvFunc p answers nested w
    return result.1
  | .sent len answers nested => do
    suppose (w.pcb.opened=true ∧ w.pcb.sent=true ∧ 0<len ∧ len≤w.pcb.unacked)
    let w : World := { w with pcb := { w.pcb with unacked := w.pcb.unacked-len } }
    let result ← clientSentFunc len answers nested w
    return result.1

end ProxyDroid.TcpRelay
