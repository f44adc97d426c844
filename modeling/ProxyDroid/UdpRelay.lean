import ProxyDroid.TreeOperations
import ProxyDroid.UdpDatagrams

/-!
# The relay of UDP datagrams

`SocksUdpGwClient` keeps one socket for each pair of a local and a remote address, in a tree for
lookup and in a list in the order of last use. When there are `max_connections` of them, the one at
the front of the list is given to the next new pair. Datagrams to the SOCKS server carry a header
with the remote address, those to the DNS server do not. A connection is modelled by its number,
under which its structure is found in memory.
-/

namespace ProxyDroid.UdpRelay

open CheckedPrograms BalancedTree UdpDatagrams
open ConnectionTypes (Bytes)
open SocksClient (Octets BAddr)

/-- `ntoh32`. -/
def ntoh32 (field : Octets 4) : ℕ := field.bytes.foldl (fun n byte => n*256+byte.toNat) 0

/-- `BADDR_TYPE_IPV4` and `BADDR_TYPE_IPV6`. -/
def addrType : BAddr → ℕ
  | .ipv4 _ _ => 1
  | .ipv6 _ _ => 2

/-- The part of `BAddr_CompareOrder` for addresses of one type; `memcmp` compares byte by byte. -/
def compareSameType : BAddr → BAddr → Ordering
  | .ipv4 ip1 port1,.ipv4 ip2 port2 =>
    (compare (ntoh32 ip1) (ntoh32 ip2)).then (compare (ntoh16 port1) (ntoh16 port2))
  | .ipv6 ip1 port1,.ipv6 ip2 port2 =>
    (compare ip1.bytes ip2.bytes).then (compare (ntoh16 port1) (ntoh16 port2))
  | .ipv4 _ _,.ipv6 _ _ => .eq
  | .ipv6 _ _,.ipv4 _ _ => .eq

/-- `BAddr_CompareOrder`. -/
def compareOrder (addr1 addr2 : BAddr) : Ordering :=
  (compare (addrType addr1) (addrType addr2)).then (compareSameType addr1 addr2)

/-- `SocksUdpGwClient_conaddr`. -/
structure Conaddr where
  localAddr : BAddr
  remoteAddr : BAddr
  deriving DecidableEq

/-- `conaddr_comparator`. -/
def conaddrComparator (v1 v2 : Conaddr) : Ordering :=
  (compareOrder v1.remoteAddr v2.remoteAddr).then (compareOrder v1.localAddr v2.localAddr)

/-- `SocksUdpGwClient_connection`. -/
structure Connection where
  conaddr : Conaddr
  /-- `is_dns`, which also says where the socket sends to. -/
  isDns : Bool
  deriving DecidableEq

/-- What `connection_init` initializes for a connection. -/
inductive Part where
  /-- `first_job`. -/
  | firstJob
  /-- `udp_dgram`. -/
  | dgram
  /-- `BDatagram_SendAsync_Init`. -/
  | sendAsync
  /-- `BDatagram_RecvAsync_Init`. -/
  | recvAsync
  /-- `udp_send_writer`. -/
  | sendWriter
  /-- `udp_send_buffer`. -/
  | sendBuffer
  /-- `udp_recv_if`. -/
  | recvIf
  /-- `udp_recv_buffer`. -/
  | recvBuffer
  deriving DecidableEq

/-- The parts in the order in which they are initialized. -/
def Part.initialized : List Part :=
  [firstJob,dgram,sendAsync,recvAsync,sendWriter,sendBuffer,recvIf,recvBuffer]

/-- The parts `connection_free` frees, in its order. -/
def Part.freed : List Part :=
  [recvBuffer,recvIf,sendBuffer,sendWriter,recvAsync,sendAsync,dgram]

/-- A datagram that was given to a socket. -/
structure Sent where
  con : ℕ
  /-- The address pair that the connection had then. -/
  conaddr : Conaddr
  /-- It goes to the DNS server instead of the SOCKS server. -/
  toDns : Bool
  packet : Bytes
  deriving DecidableEq

/-- `SocksUdpGwClient` with the memory of its connections. -/
structure Relay where
  udpMtu : ℕ
  udpgwMtu : ℤ
  maxConnections : ℕ
  numConnections : ℕ
  /-- The structures in memory. -/
  connections : ℕ → Connection
  connectionsTree : BAVLNode ℕ
  connectionsList : List ℕ
  /-- How many structures have been allocated. -/
  allocated : ℕ
  /-- The parts of a connection that are initialized. -/
  parts : ℕ → List Part
  /-- How many jobs of connections have not been freed with them. -/
  leaked : ℕ
  /-- All datagrams that the sockets were given. -/
  sent : List Sent

namespace Relay

variable (r : Relay)

/-- What the nodes of the tree are compared by. -/
def key (con : ℕ) : Conaddr := (r.connections con).conaddr

/-- `SocksUdpGwClient_Init` of a structure that is zero. -/
def init (udpMtu maxConnections : ℕ) (memory : ℕ → Connection) : Relay where
  udpMtu := udpMtu
  udpgwMtu := udpgwComputeMtu udpMtu
  maxConnections := if 65536< maxConnections then 65536 else maxConnections
  numConnections := 0
  connections := memory
  connectionsTree := .null
  connectionsList := []
  allocated := 0
  parts := fun _ => []
  leaked := 0
  sent := []

/-- `find_connection`. -/
def findConnection (conaddr : Conaddr) : Option ℕ :=
  bavlLookupExact conaddrComparator r.key conaddr r.connectionsTree

/-- `con->conaddr = conaddr`. -/
def setConaddr (con : ℕ) (conaddr : Conaddr) : Relay :=
  { r with connections := Function.update r.connections con { r.connections con with conaddr := conaddr } }

/-- The connection is inserted into the tree, which has to succeed. -/
def insertTree (con : ℕ) : Checked Relay := do
  let result ← bavlInsert conaddrComparator r.key con r.connectionsTree
  demand (result.2=true)
  return { r with connectionsTree := result.1 }

/-- The connection is removed from the tree. -/
def removeTree (con : ℕ) : Checked Relay := do
  let tree ← bavlRemove conaddrComparator r.key (r.key con) r.connectionsTree
  return { r with connectionsTree := tree }

/-- `reuse_connection`. -/
def reuseConnection (conaddr : Conaddr) : Checked (Relay×ℕ) := do
  demand (r.findConnection conaddr=none)
  demand (0< r.numConnections)
  match r.connectionsList with
  | [] => .error .fault
  | con::_ => do
    let r ← r.removeTree con
    let r ← (r.setConaddr con conaddr).insertTree con
    return (r,con)

/-- `struct socks_udp_header` and the address behind it. -/
def socksHeader : BAddr → Bytes
  | .ipv4 ip port => [0,0,0,1]++(ip.bytes++port.bytes)
  | .ipv6 ip port => [0,0,0,4]++(ip.bytes++port.bytes)

/-- What `connection_send` writes into the buffer. -/
def outPacket (con : Connection) (data : Bytes) : Bytes :=
  if con.isDns=true then data else socksHeader con.conaddr.remoteAddr++data

/-- `connection_send`; `ready` says whether the buffer is free. `BufferWriter_EndPacket` asserts
that the packet is not longer than the buffer. -/
def connectionSend (con : ℕ) (data : Bytes) (ready : Bool) : Checked Relay :=
  if ready=false then return r
  else do
    let packet := outPacket (r.connections con) data
    demand (packet.length≤ r.udpMtu)
    return { r with sent := r.sent++[⟨con,r.key con,(r.connections con).isDns,packet⟩] }

/-- `connection_init` when nothing fails. -/
def connectionInit (conaddr : Conaddr) (isDns : Bool) : Checked Relay := do
  let con := r.allocated
  let r := { r with
    connections := Function.update r.connections con ⟨conaddr,isDns⟩
    parts := Function.update r.parts con Part.initialized
    allocated := r.allocated+1 }
  let r ← r.insertTree con
  return { r with
    connectionsList := r.connectionsList++[con]
    numConnections := r.numConnections+1 }

/-- The connection becomes the most recently used one. -/
def moveToEnd (con : ℕ) : Relay :=
  { r with connectionsList := r.connectionsList.erase con++[con] }

/-- The connection that `SocksUdpGwClient_SubmitPacket` sends a packet with, if there is one; `ok`
says whether a new one can be set up. -/
def acquire (conaddr : Conaddr) (isDns ok : Bool) : Checked (Relay×Option ℕ) :=
  match r.findConnection conaddr with
  | some con => return (r.moveToEnd con,some con)
  | none =>
    if r.numConnections=r.maxConnections then do
      let reused ← r.reuseConnection conaddr
      return (reused.1.moveToEnd reused.2,some reused.2)
    else if ok=true then do
      let created ← r.connectionInit conaddr isDns
      return (created,some r.allocated)
    else return (r,none)

/-- `SocksUdpGwClient_SubmitPacket`. The first job of a new connection sends the packet before
anything else happens. -/
def submitPacket (s : Submission) (ok ready : Bool) : Checked Relay := do
  demand (s.data.length≤ r.udpMtu)
  let acquired ← r.acquire ⟨s.localAddr,s.remoteAddr⟩ s.isDns ok
  match acquired.2 with
  | some con => acquired.1.connectionSend con s.data ready
  | none => return acquired.1

/-- A part of a connection is freed. `DebugObject_Free` asserts that it is initialized, and
`BDatagram_Free` that neither of the interfaces is. -/
def freePart (con : ℕ) (part : Part) : Checked Relay := do
  demand (part∈r.parts con)
  demand (part=.dgram → .sendAsync∉r.parts con ∧ .recvAsync∉r.parts con)
  return { r with parts := Function.update r.parts con ((r.parts con).erase part) }

/-- `connection_free`. -/
def connectionFree (con : ℕ) : Checked Relay := do
  let r ← { r with
    numConnections := r.numConnections-1
    connectionsList := r.connectionsList.erase con }.removeTree con
  let r ← Part.freed.foldlM (fun r part => r.freePart con part) r
  return { r with leaked := r.leaked+(r.parts con).count .firstJob }

/-- The loop of `SocksUdpGwClient_Free`, which ends with the list. -/
def free : ℕ → Relay → Checked Relay
  | 0,r => return r
  | n+1,r =>
    match r.connectionsList with
    | [] => return r
    | con::_ => do
      let r ← r.connectionFree con
      free n r

/-- `BReactor_Free`, which asserts that every job has been freed. -/
def reactorFree : Checked Unit := demand (r.leaked=0)

end Relay

/-- The address of a SOCKS header, with the bytes behind it. -/
def headerAddr (atyp : UInt8) (data : Bytes) : Option (BAddr×Bytes) :=
  if atyp=4 then do
    let ip ← takeOctets 16 data
    let port ← takeOctets 2 ip.2
    return (.ipv6 ip.1 port.1,port.2)
  else do
    let ip ← takeOctets 4 data
    let port ← takeOctets 2 ip.2
    return (.ipv4 ip.1 port.1,port.2)

/-- The part of `dgram_handler_received` for a connection to the SOCKS server: the data behind a
header with the expected address. -/
def stripHeader (remoteAddr : BAddr) : Bytes → Option Bytes
  | _::_::frag::atyp::data => do
    if frag≠0 then none
    else
      let parsed ← headerAddr atyp data
      if parsed.1≠remoteAddr then none else some parsed.2
  | _ => none

/-- The data of a datagram; the DNS server sends no header. -/
def payloadOf (con : Connection) (data : Bytes) : Option Bytes :=
  if con.isDns=true then some data else stripHeader con.conaddr.remoteAddr data

/-- `dgram_handler_received`: the data for the user. The socket cuts a datagram off at `udp_mtu`,
since `recvmsg` is not asked whether it was longer. -/
def dgramHandlerReceived (udpMtu : ℕ) (con : Connection) (datagram : Bytes) : Option Bytes := do
  let data ← payloadOf con (datagram.take udpMtu)
  if udpMtu<data.length then none else some data

/-- What happens to the relay. -/
inductive Event where
  /-- The device has read a packet. -/
  | packet (data : Bytes) (ok ready : Bool)
  /-- The socket of a connection has received a datagram. -/
  | datagram (con : ℕ) (data : Bytes)
  /-- `sendmsg` or `recvmsg` on the socket of a connection fails with an error. -/
  | failed (con : ℕ)
  deriving DecidableEq

/-- The relay with the device. -/
structure World where
  relay : Relay
  /-- All packets that were written to the device. -/
  written : List Bytes

/-- One event. A packet that carries no datagram is left to lwIP. An error of a socket has to end
with `BDatagram_Free`, or the job of its `DebugError` fails an assertion; `dgram_handler` writes a
message and keeps the socket. -/
def step (o : Options) (event : Event) (w : World) : Checked World :=
  match event with
  | .packet data ok ready =>
    match processDeviceUdpPacket o data with
    | none => return w
    | some s => do
      let relay ← w.relay.submitPacket s ok ready
      return { w with relay := relay }
  | .datagram con data => do
    suppose (con∈w.relay.connectionsList)
    demand (((data.take w.relay.udpMtu).length : ℤ)≤w.relay.udpgwMtu)
    let connection := w.relay.connections con
    match dgramHandlerReceived w.relay.udpMtu connection data with
    | none => return w
    | some data => do
      let packet ← udpgwClientHandlerReceived o connection.conaddr.localAddr
        connection.conaddr.remoteAddr data
      return { w with written := w.written++packet.toList }
  | .failed con => do
    suppose (con∈w.relay.connectionsList)
    .error .fault

/-- The tunnel process when it starts. -/
def World.init (o : Options) (maxConnections : ℕ) (memory : ℕ → Connection) : World :=
  ⟨.init o.udpMtu maxConnections memory,[]⟩

end ProxyDroid.UdpRelay
