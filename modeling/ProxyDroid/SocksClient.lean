import ProxyDroid.CheckedPrograms
import ProxyDroid.ConnectionTypes

/-!
# The SOCKS client of the tunnel process

`BSocksClient` connects to the SOCKS server, offers its authentication methods, asks for one
destination and then gives the connection to its user. Packets leave in pieces of any size and
replies arrive in pieces of any size. The jobs that only pass an operation on between the flow
interfaces are executed together with it.
-/

namespace ProxyDroid.SocksClient

open CheckedPrograms
open ConnectionTypes (Bytes)

/-- A field of a fixed number of bytes, as it lies in memory. -/
structure Octets (n : ℕ) where
  /-- The bytes in the order of their addresses. -/
  bytes : Bytes
  /-- Their number. -/
  length_bytes : bytes.length=n
  deriving DecidableEq

/-- `BAddr` of type `BADDR_TYPE_IPV4` or `BADDR_TYPE_IPV6`, both parts in network byte order. -/
inductive BAddr where
  | ipv4 (ip : Octets 4) (port : Octets 2)
  | ipv6 (ip : Octets 16) (port : Octets 2)
  deriving DecidableEq

/-- `BSocksClient_auth_info`. -/
inductive AuthInfo where
  /-- `SOCKS_METHOD_NO_AUTHENTICATION_REQUIRED`. -/
  | none
  /-- `SOCKS_METHOD_USERNAME_PASSWORD`. -/
  | password (username password : Bytes)
  deriving DecidableEq

/-- `auth_type`. -/
def AuthInfo.authType : AuthInfo → UInt8
  | .none => 0x00
  | .password _ _ => 0x02

/-- `STATE_CONNECTING` to `STATE_UP`. -/
inductive State where
  | connecting
  | sendingHello
  | sentHello
  | sendingPassword
  | sentPassword
  | sendingRequest
  | sentRequest
  | receivedReplyHeader
  | up
  deriving DecidableEq

/-- What the handler of the user is told. -/
inductive Report where
  /-- `BSOCKSCLIENT_EVENT_ERROR`. -/
  | error
  /-- `BSOCKSCLIENT_EVENT_UP`. -/
  | up
  /-- `BSOCKSCLIENT_EVENT_ERROR_CLOSED`. -/
  | errorClosed
  deriving DecidableEq

/-- The two stream interfaces of a `BConnection` with the lengths of the operations in
progress. -/
structure BConnection where
  /-- `StreamPassInterface`. -/
  sending : Option ℕ
  /-- `StreamRecvInterface`. -/
  receiving : Option ℕ
  deriving DecidableEq

namespace BConnection

/-- Both interfaces initialized and idle. -/
def fresh : BConnection := ⟨none,none⟩

/-- `StreamPassInterface_Sender_Send`. -/
def senderSend (len : ℕ) (con : BConnection) : Checked BConnection := do
  demand (0<len ∧ con.sending=none)
  return { con with sending := some len }

/-- `StreamRecvInterface_Receiver_Recv`. -/
def receiverRecv (len : ℕ) (con : BConnection) : Checked BConnection := do
  demand (0<len ∧ con.receiving=none)
  return { con with receiving := some len }

/-- The socket has taken the first `n` bytes of the operation in progress. -/
def sendDone (n : ℕ) (con : BConnection) : Checked BConnection := do
  suppose (0<n ∧ n≤con.sending.getD 0)
  return { con with sending := none }

/-- The socket has filled in the first bytes of the operation in progress. -/
def recvDone (data : Bytes) (con : BConnection) : Checked BConnection := do
  suppose (0<data.length ∧ data.length≤con.receiving.getD 0)
  return { con with receiving := none }

end BConnection

/-- `BSocksClient`. -/
structure BSocksClient where
  /-- `auth_info` with `num_auth_info`. -/
  authInfo : List AuthInfo
  /-- `dest_addr`. -/
  destAddr : BAddr
  /-- `state`. -/
  state : State
  /-- Whether `buffer` is allocated. -/
  buffer : Bool
  /-- `con`, once it is initialized. -/
  con : Option BConnection
  /-- `in` and `in_used` of `send_sender`, while it has an input packet. -/
  packet : Option (Bytes×ℕ)
  /-- The `recv_len` bytes received at `recv_dest`. -/
  received : Bytes
  /-- `recv_total`. -/
  recvTotal : ℕ
  deriving DecidableEq

/-- A client with the event its handler is called with at the end, if any. -/
abbrev Handled := Checked (BSocksClient×Option Report)

/-- The hello: version, number of methods and the methods. -/
def hello (authInfo : List AuthInfo) : Bytes :=
  0x05::UInt8.ofNat authInfo.length::authInfo.map AuthInfo.authType

/-- The packet of the username/password authentication. -/
def passwordPacket (username password : Bytes) : Bytes :=
  1::UInt8.ofNat username.length::(username++UInt8.ofNat password.length::password)

/-- The CONNECT request for a destination. -/
def request : BAddr → Bytes
  | .ipv4 ip port => [0x05,0x01,0,0x01]++(ip.bytes++port.bytes)
  | .ipv6 ip port => [0x05,0x01,0,0x04]++(ip.bytes++port.bytes)

/-- Size of the address in a reply, by its `atyp`. -/
def addrLen (atyp : UInt8) : Option ℕ :=
  if atyp=0x01 then some 6 else if atyp=0x04 then some 18 else none

/-- The first offered method of the type the server has chosen. -/
def selected (authInfo : List AuthInfo) (method : UInt8) : Option AuthInfo :=
  authInfo.find? (fun ai => ai.authType=method)

namespace BSocksClient

variable (o : BSocksClient)

/-- `BSocksClient_Init`. -/
def init (authInfo : List AuthInfo) (destAddr : BAddr) : BSocksClient :=
  ⟨authInfo,destAddr,.connecting,false,none,none,[],0⟩

/-- `report_error`. -/
def reportError (event : Report) : Handled := .ok (o,some event)

/-- An operation on the connection. -/
def onConnection (f : BConnection → Checked BConnection) : Checked BSocksClient :=
  match o.con with
  | none => .error .fault
  | some con => do
    let con ← f con
    return { o with con := some con }

/-- `do_receive`. -/
def doReceive : Checked BSocksClient := do
  demand (o.received.length<o.recvTotal)
  o.onConnection (BConnection.receiverRecv (o.recvTotal-o.received.length))

/-- `start_receive`. -/
def startReceive (total : ℕ) : Checked BSocksClient := do
  demand (0<total)
  ({ o with received := [], recvTotal := total } : BSocksClient).doReceive

/-- One case of `send_handler_done`: a buffer for the reply and the state in which it is
received. -/
def awaitReply (alloc : Bool) (total : ℕ) (state : State) : Handled := do
  if alloc then
    let o ← ({ o with buffer := true } : BSocksClient).startReceive total
    return ({ o with state := state },none)
  else o.reportError .error

/-- `send_handler_done`. -/
def sendHandlerDone (alloc : Bool) : Handled := do
  demand (o.buffer=true)
  match o.state with
  | .sendingHello => o.awaitReply alloc 2 .sentHello
  | .sendingRequest => o.awaitReply alloc 4 .sentRequest
  | .sendingPassword => o.awaitReply alloc 2 .sentPassword
  | _ => .error .fault

/-- `send_data` of `PacketStreamSender`. -/
def sendData (alloc : Bool) : Handled :=
  match o.packet with
  | none => .error .fault
  | some (packet,used) =>
    if used<packet.length then do
      let o ← o.onConnection (BConnection.senderSend (packet.length-used))
      return (o,none)
    else ({ o with packet := none } : BSocksClient).sendHandlerDone alloc

/-- `PacketPassInterface_Sender_Send` to `send_if` from `buffer`, with the state set behind it. -/
def sendPacket (packet : Bytes) (state : State) : Handled := do
  demand (o.packet=none)
  ({ o with buffer := true, packet := some (packet,0), state := state } : BSocksClient).sendData true

/-- `output_handler_done` of `PacketStreamSender`. -/
def outputHandlerDone (n : ℕ) (alloc : Bool) : Handled :=
  match o.packet with
  | none => .error .fault
  | some (packet,used) => do
    demand (0<n ∧ n≤packet.length-used)
    ({ o with packet := some (packet,used+n) } : BSocksClient).sendData alloc

/-- `auth_finished`. -/
def authFinished (alloc : Bool) : Handled :=
  if alloc then o.sendPacket (request o.destAddr) .sendingRequest
  else o.reportError .error

/-- `connector_handler`; `initialized` is the result of `BConnection_Init`. On failure the
connection is freed again before the report. -/
def connectorHandler (isError initialized alloc : Bool) : Handled := do
  demand (o.state=.connecting)
  if isError=true ∨ initialized=false then o.reportError .error
  else if o.authInfo.length=0 ∨ o.authInfo.length>255 ∨ alloc=false then o.reportError .error
  else
    ({ o with con := some .fresh } : BSocksClient).sendPacket (hello o.authInfo) .sendingHello

/-- `connection_handler`. -/
def connectionHandler (recvClosed : Bool) : Handled := do
  demand (o.state≠.connecting)
  if o.state=.up ∧ recvClosed=true then o.reportError .errorClosed
  else o.reportError .error

/-- The method the server has chosen. -/
def chooseMethod (method : UInt8) (alloc : Bool) : Handled :=
  match selected o.authInfo method with
  | none => o.reportError .error
  | some .none => o.authFinished alloc
  | some (.password username password) =>
    if username.length=0 ∨ username.length>255 ∨ password.length=0 ∨ password.length>255 then
      o.reportError .error
    else if alloc then o.sendPacket (passwordPacket username password) .sendingPassword
    else o.reportError .error

/-- The reply is complete: the cases of `recv_handler_done`. -/
def replyComplete (alloc : Bool) : Handled :=
  match o.state,o.received with
  | .sentHello,[ver,method] =>
    if ver≠0x05 then o.reportError .error else o.chooseMethod method alloc
  | .sentRequest,[ver,rep,_,atyp] =>
    if ver≠0x05 then o.reportError .error
    else if rep≠0x00 then o.reportError .error
    else match addrLen atyp with
      | none => o.reportError .error
      | some len => do
        let o ← o.startReceive len
        return ({ o with state := .receivedReplyHeader },none)
  | .sentPassword,[ver,status] =>
    if ver≠1 then o.reportError .error
    else if status≠0 then o.reportError .error
    else o.authFinished alloc
  | .receivedReplyHeader,_ =>
    .ok ({ o with buffer := false, con := some .fresh, state := .up },some .up)
  | _,_ => .error .fault

/-- `recv_handler_done`. -/
def recvHandlerDone (data : Bytes) (alloc : Bool) : Handled := do
  demand (data.length≤o.recvTotal-o.received.length)
  let o : BSocksClient := { o with received := o.received++data }
  if o.received.length<o.recvTotal then
    let o ← o.doReceive
    return (o,none)
  else o.replyComplete alloc

end BSocksClient

/-- What the connector and the connection do. The flag `alloc` says whether memory can be
allocated while the event is handled. -/
inductive ConnEvent where
  /-- The connection attempt has ended. -/
  | connector (isError initialized alloc : Bool)
  /-- The socket has taken some bytes. -/
  | sent (n : ℕ) (alloc : Bool)
  /-- The socket has delivered some bytes. -/
  | received (data : Bytes) (alloc : Bool)
  /-- `BCONNECTION_EVENT_ERROR`. -/
  | error
  /-- `BCONNECTION_EVENT_RECVCLOSED`. -/
  | recvClosed
  deriving DecidableEq

/-- An event before the client is up. -/
def handleEvent (o : BSocksClient) : ConnEvent → Handled
  | .connector isError initialized alloc => do
    suppose (o.state=.connecting)
    o.connectorHandler isError initialized alloc
  | .sent n alloc => do
    suppose (o.con.isSome=true)
    let o ← o.onConnection (BConnection.sendDone n)
    o.outputHandlerDone n alloc
  | .received data alloc => do
    suppose (o.con.isSome=true)
    let o ← o.onConnection (BConnection.recvDone data)
    o.recvHandlerDone data alloc
  | .error => do
    suppose (o.con.isSome=true)
    o.connectionHandler false
  | .recvClosed => do
    suppose (o.con.isSome=true)
    o.connectionHandler true

/-- The bytes that leave with an event. -/
def outgoing (o : BSocksClient) : ConnEvent → Bytes
  | .sent n _ => match o.packet with
    | none => []
    | some (packet,used) => (packet.drop used).take n
  | _ => []

/-- The bytes that arrive with an event. -/
def incoming : ConnEvent → Bytes
  | .received data _ => data
  | _ => []

/-- A client on its way up, with the two streams of its connection. -/
structure Talk where
  /-- The client. -/
  client : BSocksClient
  /-- All bytes the socket has taken. -/
  wire : Bytes
  /-- All bytes the socket has delivered. -/
  heard : Bytes
  /-- What the user has been told. -/
  report : Option Report
  deriving DecidableEq

/-- A client that has just been initialized. -/
def Talk.init (authInfo : List AuthInfo) (destAddr : BAddr) : Talk :=
  ⟨.init authInfo destAddr,[],[],none⟩

/-- One event, until the user is told the first time. -/
def Talk.step (event : ConnEvent) (t : Talk) : Checked Talk := do
  suppose (t.report=none)
  let handled ← handleEvent t.client event
  return ⟨handled.1,t.wire++outgoing t.client event,t.heard++incoming event,handled.2⟩

end ProxyDroid.SocksClient
