import ProxyDroid.UdpRelayStates

/-!
# Runs of the relay of UDP datagrams

What holds after every run of packets of the device and datagrams of the sockets: which pairs of
addresses have a connection, where datagrams are sent to, which of them do not fit into the buffer,
and what applications receive.
-/

namespace ProxyDroid.UdpRelayRuns

open CallSemantics CheckedPrograms UdpDatagrams UdpRelay RecentlyUsed UdpRelayStates
open TreeOperations (ordered_null)
open ConnectionTypes (Bytes)
open SocksClient (Octets BAddr)

variable {r r' : Relay} {conaddr : Conaddr} {con : ℕ}
variable {o : Options} {w w' : World} {event : Event} {events : List Event} {s : Submission}

/-- Datagrams to this address are meant for the DNS server. -/
def dnsFlow (o : Options) : BAddr → Bool
  | .ipv4 _ port => o.dnsgw && decide (port=hton16 53)
  | .ipv6 _ _ => false

/-- What is known of a submitted datagram. -/
theorem process_spec {packet : Bytes} (h : processDeviceUdpPacket o packet=some s) :
    o.udpgw=true ∧ s.data.length≤o.udpMtu ∧ addrType s.localAddr=addrType s.remoteAddr ∧
      s.isDns=dnsFlow o s.remoteAddr := by
  obtain ⟨udp,t,hframed⟩ := process_framed h
  rw [hframed.process] at h
  split at h
  · rename_i hall
    refine ⟨hall.1,hall.2.1,?_⟩
    cases hframed with
    | ipv4 ip protocol framed => exact ⟨rfl,rfl⟩
    | ipv6 enabled ip next framed => exact ⟨rfl,rfl⟩
  · cases h

/-- The relay after a datagram was given to the socket of a connection. -/
def logged (r : Relay) (con : ℕ) (data : Bytes) : Relay :=
  { r with sent := r.sent++
      [⟨con,r.key con,(r.connections con).isDns,Relay.outPacket (r.connections con) data⟩] }

/-- The end of `SocksUdpGwClient_SubmitPacket`. -/
def sendOn (result : Relay×Option ℕ) (data : Bytes) (ready : Bool) : Checked Relay :=
  match result.2 with
  | some con => result.1.connectionSend con data ready
  | none => .ok result.1

/-- A connection is acquired, and then the packet is sent. -/
theorem submit_eq (h : Table r) (hsize : s.data.length≤ r.udpMtu) (ok ready : Bool) :
    ∃ result, Acquired r (pairOf s) s.isDns ok result ∧
      r.submitPacket s ok ready=sendOn result s.data ready := by
  obtain ⟨result,hok,ha⟩ := (acquire_returns h (pairOf s) s.isDns ok).value
  refine ⟨result,ha,?_⟩
  have hsubmit : r.submitPacket s ok ready=(r.acquire (pairOf s) s.isDns ok >>=
      fun acquired => sendOn acquired s.data ready) := by
    rw [Relay.submitPacket,demand,if_pos hsize]
    rfl
  rw [hsubmit,hok]
  rfl

theorem connectionSend_eq (con : ℕ) (data : Bytes) (ready : Bool) : r.connectionSend con data ready=
    if ready=false then .ok r
    else if (Relay.outPacket (r.connections con) data).length≤ r.udpMtu then .ok (logged r con data)
    else .error .fault := by
  rw [Relay.connectionSend]
  split
  · rfl
  · simp only [demand]
    split <;> rfl

/-- What a submission leads to when it goes on. -/
inductive Submitted (result : Relay×Option ℕ) (data : Bytes) : Relay → Prop
  | quiet : Submitted result data result.1
  | sent {con : ℕ} (acquired : result.2=some con)
      (fits : (Relay.outPacket (result.1.connections con) data).length≤ result.1.udpMtu) :
      Submitted result data (logged result.1 con data)

theorem sendOn_submitted {result : Relay×Option ℕ} {data : Bytes} {ready : Bool}
    (h : sendOn result data ready=.ok r') : Submitted result data r' := by
  obtain ⟨r,con⟩ := result
  cases con with
  | none =>
    cases h
    exact .quiet
  | some con =>
    have hsend : r.connectionSend con data ready=.ok r' := h
    rw [connectionSend_eq] at hsend
    split at hsend
    · cases hsend
      exact .quiet
    split at hsend
    · rename_i hfits
      cases hsend
      exact .sent rfl hfits
    · cases hsend

/-- What is kept of the relay by every event. -/
structure Inv (o : Options) (w : World) : Prop where
  table : Table w.relay
  mtu : w.relay.udpMtu=o.udpMtu
  udpgwMtu : w.relay.udpgwMtu=udpgwComputeMtu o.udpMtu
  /-- No connection is freed while the process runs. -/
  leaked : w.relay.leaked=0
  /-- Both addresses of a pair have one type. -/
  types : ∀ c∈flows w.relay, addrType c.localAddr=addrType c.remoteAddr
  gateway : w.relay.connectionsList≠[] → o.udpgw=true

/-- All that one event can do. -/
inductive Stepped (o : Options) (w : World) : Event → World → Prop
  /-- The packet is left to lwIP. -/
  | left {data : Bytes} {ok ready : Bool} (none : processDeviceUdpPacket o data=none) :
      Stepped o w (.packet data ok ready) w
  | submitted {data : Bytes} {ok ready : Bool} {s : Submission} {result : Relay×Option ℕ} {r' : Relay}
      (parsed : processDeviceUdpPacket o data=some s)
      (acquired : Acquired w.relay (pairOf s) s.isDns ok result)
      (sent : Submitted result s.data r') :
      Stepped o w (.packet data ok ready) { w with relay := r' }
  | dropped {con : ℕ} {data : Bytes} : Stepped o w (.datagram con data) w
  | delivered {con : ℕ} {data payload : Bytes} {packet : Option Bytes}
      (mem : con∈w.relay.connectionsList)
      (reply : dgramHandlerReceived w.relay.udpMtu (w.relay.connections con) data=some payload)
      (built : udpgwClientHandlerReceived o (w.relay.key con).localAddr (w.relay.key con).remoteAddr
        payload=.ok packet) :
      Stepped o w (.datagram con data) { w with written := w.written++packet.toList }

theorem step_cases (h : Inv o w) (hstep : step o event w=.ok w') : Stepped o w event w' := by
  cases event with
  | packet data ok ready =>
    rw [step] at hstep
    cases hparsed : processDeviceUdpPacket o data with
    | none =>
      rw [hparsed] at hstep
      cases hstep
      exact .left hparsed
    | some s =>
      rw [hparsed] at hstep
      have hsize : s.data.length≤w.relay.udpMtu := by
        rw [h.mtu]
        exact (process_spec hparsed).2.1
      obtain ⟨result,hacquired,hsubmit⟩ := submit_eq h.table hsize ok ready
      simp only [hsubmit] at hstep
      cases hsend : sendOn result s.data ready with
      | error stop =>
        rw [hsend] at hstep
        cases hstep
      | ok r' =>
        rw [hsend] at hstep
        cases hstep
        exact .submitted hparsed hacquired (sendOn_submitted hsend)
  | datagram con data =>
    rw [step] at hstep
    by_cases hmem : con∈w.relay.connectionsList
    · simp only [suppose,if_pos hmem] at hstep
      obtain ⟨-,hstep⟩ := demand_bind_eq_ok.mp hstep
      cases hreply : dgramHandlerReceived w.relay.udpMtu (w.relay.connections con) data with
      | none =>
        rw [hreply] at hstep
        cases hstep
        exact .dropped
      | some payload =>
        rw [hreply] at hstep
        cases hbuilt : udpgwClientHandlerReceived o (w.relay.connections con).conaddr.localAddr
            (w.relay.connections con).conaddr.remoteAddr payload with
        | error stop =>
          simp only [hbuilt] at hstep
          cases hstep
        | ok packet =>
          simp only [hbuilt] at hstep
          cases hstep
          exact .delivered hmem hreply hbuilt
    · simp only [suppose,if_neg hmem] at hstep
      cases hstep
  | failed con =>
    rw [step] at hstep
    by_cases hmem : con∈w.relay.connectionsList
    · simp only [suppose,if_pos hmem] at hstep
      cases hstep
    · simp only [suppose,if_neg hmem] at hstep
      cases hstep

/-- Sending changes nothing but what was sent. -/
theorem Submitted.same {result : Relay×Option ℕ} {data : Bytes} (h : Submitted result data r') :
    ∃ sent, r'={ result.1 with sent := sent } := by
  cases h with
  | quiet => exact ⟨_,rfl⟩
  | sent acquired fits => exact ⟨_,rfl⟩

/-- The pair that an event asks a connection for, and whether a new one can be set up. -/
def request (o : Options) : Event → Option (Conaddr×Bool)
  | .packet data ok _ => (processDeviceUdpPacket o data).map (fun s => (pairOf s,ok))
  | .datagram _ _ | .failed _ => none

/-- The pairs that the events ask connections for. -/
def requests (o : Options) (events : List Event) : List (Conaddr×Bool) :=
  events.filterMap (request o)

/-- One event uses the pair that it asks for. -/
theorem Stepped.flows (h : Inv o w) (hs : Stepped o w event w') :
    flows w'.relay=uses w.relay.maxConnections (request o event).toList (flows w.relay) ∧
      w'.relay.maxConnections=w.relay.maxConnections := by
  cases hs with
  | left none =>
    rw [request,none]
    exact ⟨rfl,rfl⟩
  | submitted parsed acquired sent =>
    obtain ⟨log,rfl⟩ := sent.same
    rw [request,parsed]
    exact ⟨acquired.flows h.table,acquired.limits.1⟩
  | dropped => exact ⟨rfl,rfl⟩
  | delivered mem reply built => exact ⟨rfl,rfl⟩

/-- The invariant is kept. -/
theorem Stepped.inv (h : Inv o w) (hs : Stepped o w event w') : Inv o w' := by
  cases hs with
  | left none => exact h
  | @submitted data ok ready s result r' parsed acquired sent =>
    obtain ⟨log,rfl⟩ := sent.same
    obtain ⟨hgw,-,htypes,-⟩ := process_spec parsed
    have htable := acquired.table h.table
    obtain ⟨-,hmtu,-,hudpgw,hleaked⟩ := acquired.limits
    refine ⟨{ htable with },hmtu.trans h.mtu,hudpgw.trans h.udpgwMtu,hleaked.trans h.leaked,
      fun c hc => ?_,fun _ => hgw⟩
    have hflows := acquired.flows h.table
    have hmem : c∈use w.relay.maxConnections ok (pairOf s) (UdpRelayStates.flows w.relay) := by
      rw [←hflows]
      exact hc
    rcases mem_of_mem_use hmem with rfl|hold
    · exact htypes
    · exact h.types c hold
  | dropped => exact h
  | delivered mem reply built => exact { h with }

/-- How many connections there are at most. -/
def capacity (maxConnections : ℕ) : ℕ := if 65536< maxConnections then 65536 else maxConnections

theorem inv_init (o : Options) {maxConnections : ℕ} (hpos : 0< maxConnections)
    (memory : ℕ → Connection) : Inv o (.init o maxConnections memory) where
  table := {
    tree := ordered_null
    same := List.Perm.nil
    nodup := List.nodup_nil
    count := rfl
    bound := Nat.zero_le _
    positive := by
      simp only [World.init,Relay.init]
      split <;> omega
    fresh := fun con hcon => by cases hcon
    parts := fun con hcon => by cases hcon }
  mtu := rfl
  udpgwMtu := rfl
  leaked := rfl
  types := fun c hc => by cases hc
  gateway := fun hne => absurd rfl hne

theorem turn_stepped (h : Inv o w) (ht : (checked (step o)).Turn w event w') : Stepped o w event w' :=
  step_cases h (turn_checked.mp ht)

/-- The invariant is kept by runs. -/
theorem run_inv (h : Inv o w) (hrun : (checked (step o)).Run w events w') : Inv o w' :=
  hrun.invariant (fun _ _ _ hs _ ht => (turn_stepped hs ht).inv hs) h

/-- A run uses the pairs that its events ask for, in turn. -/
theorem run_flows (h : Inv o w) (hrun : (checked (step o)).Run w events w') :
    flows w'.relay=uses w.relay.maxConnections (requests o events) (flows w.relay) ∧
      w'.relay.maxConnections=w.relay.maxConnections := by
  induction hrun with
  | nil => exact ⟨rfl,rfl⟩
  | @snoc evs ev s₁ s₂ run meets turn ih =>
    obtain ⟨hflows,hmax⟩ := ih
    have hinv := run_inv h run
    obtain ⟨hstep,hmax'⟩ := (turn_stepped hinv turn).flows hinv
    refine ⟨?_,hmax'.trans hmax⟩
    have hlast : requests o [ev]=(request o ev).toList := by
      cases hr : request o ev with
      | none => simp [requests,hr]
      | some q => simp [requests,hr]
    rw [hstep,hmax,hflows]
    simp only [uses,requests,List.filterMap_append,List.foldl_append]
    rw [←hlast,requests]

/-- Memory before anything is allocated. -/
def sampleMemory : ℕ → Connection :=
  fun _ => ⟨⟨.ipv4 sampleLocalIp (hton16 0),.ipv4 sampleLocalIp (hton16 0)⟩,false⟩

/-- The pair of the application and a port of the server. -/
def samplePair (port : ℕ) : Conaddr :=
  ⟨.ipv4 sampleLocalIp (hton16 5000),.ipv4 sampleRemoteIp (hton16 port)⟩

/-- A datagram of the application. -/
def sampleDatagram (port : ℕ) (data : Bytes) : Event :=
  .packet (ipv4Packet sampleLocalIp sampleRemoteIp (hton16 5000) (hton16 port) data) true true

/-- A query to the DNS server with its answer, and a datagram to another port. -/
def sampleEvents : List Event :=
  [sampleDatagram 53 [1,2],.datagram 0 [3,4],sampleDatagram 80 [5]]

/-- The relay with a number of connections after the first events. -/
def sampleAfter (maxConnections n : ℕ) : World :=
  stepped (step sampleOptions) (sampleEvents.take n) (.init sampleOptions maxConnections sampleMemory)

/-- After every run the connections are those of the pairs that were used last, in the order of
last use and one for each pair. Lookup in the tree finds exactly them. -/
theorem relay_is_lru {maxConnections : ℕ} {memory : ℕ → Connection} (hpos : 0< maxConnections)
    (hrun : (checked (step o)).Run (.init o maxConnections memory) events w) :
    flows w.relay=uses (capacity maxConnections) (requests o events) [] ∧ (flows w.relay).Nodup ∧
      w.relay.numConnections=(flows w.relay).length ∧
      w.relay.numConnections≤capacity maxConnections ∧
      ∀ c con, w.relay.findConnection c=some con ↔
        con∈w.relay.connectionsList ∧ w.relay.key con=c := by
  have hinit := inv_init o hpos memory
  have hinv := run_inv hinit hrun
  obtain ⟨hflows,hmax⟩ := run_flows hinit hrun
  have hbound := hinv.table.bound
  rw [hmax] at hbound
  refine ⟨hflows,hinv.table.flows_nodup,?_,hbound,fun c con => hinv.table.find_some⟩
  rw [flows,List.length_map,hinv.table.count]

theorem relay_is_lru_sample : flows (sampleAfter 1 3).relay=[samplePair 80] := by
  have hrun : (checked (step sampleOptions)).Run (.init sampleOptions 1 sampleMemory)
    (sampleEvents.take 3) (sampleAfter 1 3) := run_stepped (by decide +kernel)
  exact (relay_is_lru (by decide) hrun).1.trans (by decide +kernel)

/-- A pair that stays in the table keeps its connection. -/
theorem Stepped.keeps {c : Conaddr} (h : Inv o w) (hs : Stepped o w event w')
    (hfind : w.relay.findConnection c=some con) (hc : c∈UdpRelayStates.flows w'.relay) :
    w'.relay.findConnection c=some con := by
  have hinv := hs.inv h
  obtain ⟨hmem,hkey⟩ := h.table.find_some.mp hfind
  cases hs with
  | left none => exact hfind
  | @submitted data ok ready s result r' parsed acquired sent =>
    obtain ⟨log,rfl⟩ := sent.same
    refine hinv.table.find_some.mpr ?_
    cases acquired with
    | @found used mem key =>
      exact ⟨(moved_perm mem).mem_iff.mpr hmem,hkey⟩
    | @reused used rest tree list full new ordered same =>
      -- the connection is not the one that is reused, since its pair is still there
      have hne : con≠used := by
        rintro rfl
        obtain ⟨x,hx,hxkey⟩ := List.mem_map.mp hc
        by_cases hxcon : x=con
        · subst hxcon
          have hpair : pairOf s=c := key_setConaddr_self.symm.trans hxkey
          exact new x hmem (hkey.trans hpair.symm)
        · have hxold : w.relay.key x=c := (key_setConaddr_of_ne hxcon).symm.trans hxkey
          have hxmem : x∈w.relay.connectionsList := by
            rw [list]
            rcases List.mem_append.mp hx with hx|hx
            · exact List.mem_cons_of_mem con hx
            · exact absurd (List.mem_singleton.mp hx) hxcon
          exact hxcon (h.table.key_inj hxmem hmem (hxold.trans hkey.symm))
      have hrest : con∈rest := by
        rw [list] at hmem
        exact (List.mem_cons.mp hmem).resolve_left hne
      exact ⟨List.mem_append_left _ hrest,(key_setConaddr_of_ne hne).trans hkey⟩
    | @created tree room new allowed ordered same =>
      have hsame : (UdpRelayStates.created w.relay (pairOf s) s.isDns tree).key con=w.relay.key con :=
        key_created_of_ne (Nat.ne_of_lt (h.table.fresh con hmem))
      exact ⟨List.mem_append_left _ hmem,hsame.trans hkey⟩
    | refused room new denied => exact ⟨hmem,hkey⟩
  | dropped => exact hfind
  | delivered mem reply built => exact hfind

/-- A pair that has just been used keeps its connection, and with it the port that its peer sees,
as long as datagrams of fewer than `max_connections` other pairs follow. -/
theorem flow_keeps_socket {maxConnections : ℕ} {memory : ℕ → Connection} {c : Conaddr}
    {front : List Conaddr} {more : List Event} (hpos : 0< maxConnections)
    (hrun : (checked (step o)).Run (.init o maxConnections memory) events w)
    (hlast : flows w.relay=front++[c]) (hmore : (checked (step o)).Run w more w')
    (hfew : (((requests o more).map Prod.fst).toFinset.erase c).card<capacity maxConnections) :
    ∃ con, w.relay.findConnection c=some con ∧ w'.relay.findConnection c=some con := by
  have hinit := inv_init o hpos memory
  have hinv := run_inv hinit hrun
  have hmax : w.relay.maxConnections=capacity maxConnections := (run_flows hinit hrun).2
  have hmem : c∈flows w.relay := by
    rw [hlast]
    exact List.mem_append_right _ (List.mem_singleton.mpr rfl)
  have hsince : Since ∅ c (flows w.relay) := ⟨hinv.table.flows_nodup,front,[],hlast,by simp⟩
  obtain ⟨con,hcon,hkey⟩ := List.mem_map.mp hmem
  have hfind := hinv.table.find_some.mpr ⟨hcon,hkey⟩
  refine ⟨con,hfind,?_⟩
  induction hmore with
  | nil => exact hfind
  | @snoc evs ev s₁ s₂ run meets turn ih =>
    have hinv₁ := run_inv hinv run
    have hsub : ((requests o evs).map Prod.fst).toFinset.erase c⊆
        ((requests o (evs++[ev])).map Prod.fst).toFinset.erase c := by
      refine Finset.erase_subset_erase c (fun x hx => ?_)
      rw [List.mem_toFinset] at hx ⊢
      simp only [requests,List.filterMap_append,List.map_append,List.mem_append]
      exact .inl hx
    have hbefore := ih (Nat.lt_of_le_of_lt (Finset.card_le_card hsub) hfew)
    refine (turn_stepped hinv₁ turn).keeps hinv₁ hbefore ?_
    rw [(run_flows hinv (.snoc run meets turn)).1,hmax]
    refine hsince.mem_uses ?_
    rwa [Finset.empty_union]

theorem flow_keeps_socket_sample : ∃ con,
    (sampleAfter 2 1).relay.findConnection (samplePair 53)=some con ∧
      (stepped (step sampleOptions) [sampleDatagram 80 [5]]
        (sampleAfter 2 1)).relay.findConnection (samplePair 53)=some con := by
  have hrun : (checked (step sampleOptions)).Run (.init sampleOptions 2 sampleMemory)
    (sampleEvents.take 1) (sampleAfter 2 1) := run_stepped (by decide +kernel)
  have hlast : flows (sampleAfter 2 1).relay=[]++[samplePair 53] := by decide +kernel
  exact flow_keeps_socket (by decide) hrun hlast (run_stepped (by decide +kernel)) (by decide +kernel)

theorem sendOn_fault_iff {result : Relay×Option ℕ} {data : Bytes} {ready : Bool} :
    sendOn result data ready=.error .fault ↔ ready=true ∧ ∃ con, result.2=some con ∧
      result.1.udpMtu< (Relay.outPacket (result.1.connections con) data).length := by
  obtain ⟨r,con⟩ := result
  cases con with
  | none =>
    constructor
    · intro h
      cases h
    · rintro ⟨-,con,hcon,-⟩
      cases hcon
  | some con =>
    have hsend : sendOn (r,some con) data ready=r.connectionSend con data ready := rfl
    rw [hsend,connectionSend_eq]
    cases ready with
    | false => simp
    | true => simp

/-- The handler of the device takes every reply for a pair of the table. -/
theorem handler_ok (o : Options) {localAddr remoteAddr : BAddr} (data : Bytes) (hgw : o.udpgw=true)
    (htypes : addrType localAddr=addrType remoteAddr) :
    udpgwClientHandlerReceived o localAddr remoteAddr data≠.error .fault := by
  rw [udpgwClientHandlerReceived,demand,if_pos hgw]
  intro hfault
  have hpacket : packetForDevice o localAddr remoteAddr data=.error .fault := hfault
  cases localAddr with
  | ipv4 localIp localPort =>
    cases remoteAddr with
    | ipv4 remoteIp remotePort =>
      rw [packetForDevice] at hpacket
      split at hpacket <;> cases hpacket
    | ipv6 remoteIp remotePort => cases htypes
  | ipv6 localIp localPort =>
    cases remoteAddr with
    | ipv4 remoteIp remotePort => cases htypes
    | ipv6 remoteIp remotePort =>
      rw [packetForDevice] at hpacket
      split at hpacket
      · cases hpacket
      · split at hpacket <;> cases hpacket

/-- A datagram of a socket never leads to a failed assertion. -/
theorem datagram_ne_fault (h : Inv o w) (hsize : ¬o.TooLarge) (con : ℕ) (data : Bytes) :
    step o (.datagram con data) w≠.error .fault := by
  rw [step]
  by_cases hmem : con∈w.relay.connectionsList
  · have hgw := h.gateway (List.ne_nil_of_mem hmem)
    have hwide : ((data.take w.relay.udpMtu).length : ℤ)≤w.relay.udpgwMtu := by
      have hlen : (data.take w.relay.udpMtu).length≤w.relay.udpMtu := List.length_take_le _ _
      have hnot : ¬(udpgwComputeMtu o.udpMtu<0 ∨ 65535<udpgwComputeMtu o.udpMtu) :=
        fun hc => hsize ⟨hgw,hc⟩
      rw [h.mtu] at hlen ⊢
      rw [h.udpgwMtu]
      unfold udpgwComputeMtu at hnot ⊢
      split_ifs at hnot ⊢ with hbig
      · omega
      · omega
    simp only [suppose,if_pos hmem,demand,if_pos hwide]
    have hflow : w.relay.key con∈flows w.relay := List.mem_map.mpr ⟨con,hmem,rfl⟩
    cases hreply : dgramHandlerReceived w.relay.udpMtu (w.relay.connections con) data with
    | none => exact fun hfault => by cases hfault
    | some payload =>
      have hhandler := handler_ok o payload hgw (h.types _ hflow)
      intro hfault
      cases hbuilt : udpgwClientHandlerReceived o (w.relay.connections con).conaddr.localAddr
          (w.relay.connections con).conaddr.remoteAddr payload with
      | ok packet =>
        simp only [hbuilt] at hfault
        cases hfault
      | error stop =>
        simp only [hbuilt] at hfault
        cases hfault
        exact hhandler hbuilt
  · simp only [suppose,if_neg hmem]
    exact fun hfault => by cases hfault

/-- A datagram for the SOCKS server that is accepted from the device and does not fit into the
buffer together with the header, which the size of the buffer does not account for. -/
def Overflows (o : Options) (w : World) (event : Event) : Prop :=
  ∃ data ok s, event=.packet data ok true ∧ processDeviceUdpPacket o data=some s ∧
    route w.relay s ok=some false ∧
    o.udpMtu< (Relay.socksHeader s.remoteAddr).length+s.data.length

/-- The first kind of events at which an assertion fails. -/
theorem packet_faults_iff (hinv : Inv o w) {data : Bytes} {ok ready : Bool} :
    step o (.packet data ok ready) w=.error .fault ↔ Overflows o w (.packet data ok ready) := by
  cases hparsed : processDeviceUdpPacket o data with
  | none =>
    rw [step,hparsed]
    constructor
    · intro hfault
      cases hfault
    · rintro ⟨data',ok',s,hevent,hsome,-⟩
      cases hevent
      rw [hparsed] at hsome
      cases hsome
  | some s =>
    have hsize : s.data.length≤w.relay.udpMtu := by
      rw [hinv.mtu]
      exact (process_spec hparsed).2.1
    obtain ⟨result,hacquired,hsubmit⟩ := submit_eq hinv.table hsize ok ready
    have hroute := hacquired.route hinv.table
    have hmtu : result.1.udpMtu=o.udpMtu := hacquired.limits.2.1.trans hinv.mtu
    have hstep : step o (.packet data ok ready) w=.error .fault ↔
        sendOn result s.data ready=.error .fault := by
      rw [step,hparsed]
      simp only [hsubmit]
      cases sendOn result s.data ready with
      | ok r' => exact ⟨fun h => (by cases h),fun h => (by cases h)⟩
      | error stop => exact ⟨fun h => (by cases h; rfl),fun h => (by cases h; rfl)⟩
    have hlong : ∀ con, result.2=some con →
        (result.1.udpMtu< (Relay.outPacket (result.1.connections con) s.data).length ↔
          (result.1.connections con).isDns=false ∧
            o.udpMtu< (Relay.socksHeader s.remoteAddr).length+s.data.length) := by
      intro con hcon
      obtain ⟨r₁,m⟩ := result
      obtain rfl : m=some con := hcon
      have hkey : (r₁.connections con).conaddr=pairOf s := hacquired.owns.2
      rw [hmtu,Relay.outPacket]
      cases hdns : (r₁.connections con).isDns with
      | true =>
        have hfits : ¬o.udpMtu< s.data.length := by
          rw [←hinv.mtu]
          omega
        simp [hfits]
      | false => simp [hkey,pairOf,List.length_append]
    rw [hstep,sendOn_fault_iff]
    constructor
    · rintro ⟨rfl,con,hcon,hover⟩
      obtain ⟨hdns,hover⟩ := (hlong con hcon).mp hover
      refine ⟨data,ok,s,rfl,hparsed,?_,hover⟩
      rw [hroute,hcon,Option.map_some,hdns]
    · rintro ⟨data',ok',s',hevent,hsome,hrouted,hover⟩
      cases hevent
      obtain rfl : s=s' := Option.some.inj (hparsed.symm.trans hsome)
      rw [hroute,Option.map_eq_some_iff] at hrouted
      obtain ⟨con,hcon,hdns⟩ := hrouted
      exact ⟨rfl,con,hcon,(hlong con hcon).mpr ⟨hdns,hover⟩⟩

/-- After every run there are two kinds of events at which an assertion fails: a datagram for the
SOCKS server that was accepted from the device and does not fit into the buffer together with the
header, and an error of a socket, which is kept. -/
theorem overflow_iff {maxConnections : ℕ} {memory : ℕ → Connection} (hpos : 0< maxConnections)
    (hsize : ¬o.TooLarge) (hrun : (checked (step o)).Run (.init o maxConnections memory) events w)
    (event : Event) :
    step o event w=.error .fault ↔
      Overflows o w event ∨ ∃ con∈w.relay.connectionsList, event=.failed con := by
  have hinv := run_inv (inv_init o hpos memory) hrun
  cases event with
  | packet data ok ready =>
    rw [packet_faults_iff hinv]
    constructor
    · exact .inl
    · rintro (h|⟨con,-,hevent⟩)
      · exact h
      · cases hevent
  | datagram con data =>
    constructor
    · exact fun hfault => absurd hfault (datagram_ne_fault hinv hsize con data)
    · rintro (⟨data',ok,s,hevent,-⟩|⟨con,-,hevent⟩)
      · cases hevent
      · cases hevent
  | failed con =>
    rw [step]
    by_cases hmem : con∈w.relay.connectionsList
    · simp only [suppose,if_pos hmem]
      exact iff_of_true rfl (.inr ⟨con,hmem,rfl⟩)
    · simp only [suppose,if_neg hmem]
      constructor
      · exact fun hfault => (by cases hfault)
      · rintro (⟨data',ok,s,hevent,-⟩|⟨con',hcon,hevent⟩)
        · cases hevent
        · cases hevent
          exact absurd hcon hmem

/-- A device with an MTU of 38. -/
def sampleSmall : Options := ⟨true,false,true,38⟩

theorem overflow_iff_sample : step sampleSmall (sampleDatagram 80 [5])
    (.init sampleSmall 1 sampleMemory)=.error .fault := by
  refine (overflow_iff (by decide) (by decide) .nil _).mpr (.inl ⟨_,_,{
    localAddr := (samplePair 80).localAddr
    remoteAddr := (samplePair 80).remoteAddr
    isDns := false
    data := [5] },rfl,?_,?_,?_⟩)
  · decide +kernel
  · decide +kernel
  · decide +kernel

/-- Every datagram went to the server of its connection. -/
def SentToServer (r : Relay) : Prop :=
  ∀ d∈r.sent, d.con< r.allocated ∧ d.toDns=(r.connections d.con).isDns

theorem Stepped.sentToServer (h : Inv o w) (hs : Stepped o w event w') (hsent : SentToServer w.relay) :
    SentToServer w'.relay := by
  cases hs with
  | left none => exact hsent
  | @submitted data ok ready s result r' parsed acquired sent =>
    have htable := acquired.table h.table
    have hold : SentToServer result.1 := by
      intro d hd
      rw [acquired.limits.2.2.1] at hd
      obtain ⟨hlt,hserver⟩ := hsent d hd
      obtain ⟨hlt',hserver'⟩ := acquired.server hlt
      exact ⟨hlt',hserver.trans hserver'.symm⟩
    cases sent with
    | quiet => exact hold
    | @sent con found fits =>
      intro d hd
      rcases List.mem_append.mp hd with hd|hd
      · exact hold d hd
      · obtain ⟨r₁,m⟩ := result
        obtain rfl : m=some con := found
        rw [List.mem_singleton.mp hd]
        exact ⟨htable.fresh con acquired.owns.1,rfl⟩
  | dropped => exact hsent
  | delivered mem reply built => exact hsent

/-- The connections are right for their pairs, which are among those of a set. -/
structure Routed (o : Options) (R : Finset Conaddr) (w : World) : Prop where
  inv : Inv o w
  within : ∀ c∈flows w.relay, c∈R
  own : ∀ con∈w.relay.connectionsList,
    (w.relay.connections con).isDns=dnsFlow o (w.relay.key con).remoteAddr
  sent : ∀ d∈w.relay.sent, d.toDns=dnsFlow o d.conaddr.remoteAddr

/-- No connection is reused for a pair of the set, if there is room for all of them. -/
theorem Routed.not_full {R : Finset Conaddr} (h : Routed o R w)
    (hroom : R.card≤w.relay.maxConnections) (hc : conaddr∈R)
    (hnew : ∀ x∈w.relay.connectionsList, w.relay.key x≠conaddr) :
    w.relay.numConnections≠w.relay.maxConnections := by
  intro hfull
  have hnot : conaddr∉flows w.relay := by
    intro hmem
    obtain ⟨x,hx,hkey⟩ := List.mem_map.mp hmem
    exact hnew x hx hkey
  have hcard := length_lt_card h.inv.table.flows_nodup h.within hnot
  rw [Finset.insert_eq_of_mem hc,flows,List.length_map,←h.inv.table.count] at hcard
  omega

theorem Stepped.routed {R : Finset Conaddr} (h : Routed o R w) (hs : Stepped o w event w')
    (hroom : R.card≤w.relay.maxConnections) (hask : ∀ q∈request o event, q.1∈R) : Routed o R w' := by
  have hinv := hs.inv h.inv
  have hflows := hs.flows h.inv
  cases hs with
  | left none => exact h
  | @submitted data ok ready s result r' parsed acquired sent =>
    have hc : pairOf s∈R := hask (pairOf s,ok) (by rw [request,parsed]; rfl)
    have hdns : s.isDns=dnsFlow o (pairOf s).remoteAddr := (process_spec parsed).2.2.2
    have hown : ∀ con∈result.1.connectionsList,
        (result.1.connections con).isDns=dnsFlow o (result.1.key con).remoteAddr := by
      cases acquired with
      | found mem key =>
        exact fun con hcon => h.own con ((moved_perm mem).mem_iff.mp hcon)
      | reused list full new ordered same => exact absurd full (h.not_full hroom hc new)
      | @created tree room new allowed ordered same =>
        intro con hcon
        by_cases hnew : con=w.relay.allocated
        · subst hnew
          simpa [UdpRelayStates.created,Relay.key] using hdns
        · have hold := (List.mem_append.mp hcon).resolve_right
            (fun hlast => hnew (List.mem_singleton.mp hlast))
          simpa [UdpRelayStates.created,Relay.key,Function.update_of_ne hnew] using h.own con hold
      | refused room new denied => exact h.own
    refine ⟨hinv,fun c hmem => ?_,?_,?_⟩
    · rw [hflows.1,request,parsed] at hmem
      rcases mem_of_mem_use hmem with rfl|hold
      · exact hc
      · exact h.within c hold
    · obtain ⟨log,rfl⟩ := sent.same
      exact hown
    · intro d hd
      cases sent with
      | quiet =>
        rw [acquired.limits.2.2.1] at hd
        exact h.sent d hd
      | @sent con found fits =>
        rcases List.mem_append.mp hd with hd|hd
        · rw [acquired.limits.2.2.1] at hd
          exact h.sent d hd
        · obtain ⟨r₁,m⟩ := result
          obtain rfl : m=some con := found
          rw [List.mem_singleton.mp hd]
          exact hown con acquired.owns.1
  | dropped => exact h
  | delivered mem reply built => exact { h with inv := hinv }

/-- All pairs that the events of a run ask for. -/
def pairs (o : Options) (events : List Event) : Finset Conaddr :=
  ((requests o events).map Prod.fst).toFinset

theorem mem_pairs (hevent : event∈events) {q : Conaddr×Bool} (hq : q∈request o event) :
    q.1∈pairs o events := by
  rw [pairs,List.mem_toFinset,List.mem_map]
  exact ⟨q,List.mem_filterMap.mpr ⟨event,hevent,hq⟩,rfl⟩

/-- All datagrams of one socket go to one server, the one that the socket was set up for, also
when the socket has been given to another pair. While there is a connection for each pair, every
datagram goes to the server that is meant for its remote address. -/
theorem one_socket_one_server {maxConnections : ℕ} {memory : ℕ → Connection}
    (hpos : 0< maxConnections)
    (hrun : (checked (step o)).Run (.init o maxConnections memory) events w) :
    (∀ d∈w.relay.sent, d.toDns=(w.relay.connections d.con).isDns) ∧
      ((pairs o events).card≤capacity maxConnections →
        ∀ d∈w.relay.sent, d.toDns=dnsFlow o d.conaddr.remoteAddr) := by
  have hinit := inv_init o hpos memory
  constructor
  · have hall : Inv o w ∧ SentToServer w.relay := by
      refine hrun.invariant (I:=fun w => Inv o w ∧ SentToServer w.relay) ?_
        ⟨hinit,fun d hd => (by cases hd)⟩
      intro s e s' hs _ ht
      have hstepped := turn_stepped hs.1 ht
      exact ⟨hstepped.inv hs.1,hstepped.sentToServer hs.1 hs.2⟩
    exact fun d hd => (hall.2 d hd).2
  · intro hroom
    have hunder := System.RunUnder.of_events (P:=fun e => ∀ q∈request o e, q.1∈pairs o events) hrun
      (fun e he q hq => mem_pairs he hq)
    have hrouted : Routed o (pairs o events) w ∧
        w.relay.maxConnections=capacity maxConnections := by
      refine hunder.invariant (I:=fun w => Routed o (pairs o events) w ∧
        w.relay.maxConnections=capacity maxConnections) ?_ ⟨⟨hinit,fun c hc => (by cases hc),
          fun c hc => (by cases hc),fun d hd => (by cases hd)⟩,rfl⟩
      intro s e s' hs hask ht
      have hstepped := turn_stepped hs.1.inv ht
      exact ⟨hstepped.routed hs.1 (hroom.trans_eq hs.2.symm) hask,
        (hstepped.flows hs.1.inv).2.trans hs.2⟩
    exact hrouted.1.sent

theorem one_socket_one_server_sample :
    (∀ d∈(sampleAfter 1 3).relay.sent,
      d.toDns=((sampleAfter 1 3).relay.connections d.con).isDns) ∧
    (sampleAfter 1 3).relay.sent.map Sent.conaddr=[samplePair 53,samplePair 80] ∧
    (sampleAfter 1 3).relay.sent.map Sent.toDns=[true,true] := by
  have hrun : (checked (step sampleOptions)).Run (.init sampleOptions 1 sampleMemory)
    (sampleEvents.take 3) (sampleAfter 1 3) := run_stepped (by decide +kernel)
  exact ⟨(one_socket_one_server (by decide) hrun).1,by decide +kernel,by decide +kernel⟩

/-- Every packet that is written to the device is for a pair that an application has used. -/
theorem Stepped.written {R : Finset Conaddr} (h : Inv o w) (hs : Stepped o w event w')
    (hask : ∀ q∈request o event, q.1∈R) (hwithin : ∀ c∈UdpRelayStates.flows w.relay, c∈R)
    (hall : ∀ packet∈w.written, ∃ c∈R, ∃ data, ReadsBack o c.localAddr c.remoteAddr data packet) :
    (∀ c∈UdpRelayStates.flows w'.relay, c∈R) ∧
      ∀ packet∈w'.written, ∃ c∈R, ∃ data, ReadsBack o c.localAddr c.remoteAddr data packet := by
  have hflows := (hs.flows h).1
  cases hs with
  | left none => exact ⟨hwithin,hall⟩
  | @submitted data ok ready s result r' parsed acquired sent =>
    refine ⟨fun c hc => ?_,hall⟩
    rw [hflows,request,parsed] at hc
    rcases mem_of_mem_use hc with rfl|hold
    · exact hask (pairOf s,ok) (by rw [request,parsed]; rfl)
    · exact hwithin c hold
  | dropped => exact ⟨hwithin,hall⟩
  | @delivered con data payload packet mem reply built =>
    refine ⟨hwithin,fun p hp => ?_⟩
    rcases List.mem_append.mp hp with hp|hp
    · exact hall p hp
    · have hpacket : packet=some p := Option.mem_toList.mp hp
      rw [hpacket] at built
      exact ⟨_,hwithin _ (List.mem_map.mpr ⟨con,mem,rfl⟩),payload,received_readsBack built⟩

/-- Whatever the sockets receive, every packet that is written to the device fits into its MTU and
carries a verified datagram to an address of an application from a peer to which that application
has sent a datagram from the same address before. -/
theorem written_reads_back {maxConnections : ℕ} {memory : ℕ → Connection} (hpos : 0< maxConnections)
    (hrun : (checked (step o)).Run (.init o maxConnections memory) events w) :
    ∀ packet∈w.written, ∃ c∈pairs o events, ∃ data,
      ReadsBack o c.localAddr c.remoteAddr data packet := by
  have hunder := System.RunUnder.of_events (P:=fun e => ∀ q∈request o e, q.1∈pairs o events) hrun
    (fun e he q hq => mem_pairs he hq)
  have hall : Inv o w ∧ (∀ c∈flows w.relay, c∈pairs o events) ∧ ∀ packet∈w.written,
      ∃ c∈pairs o events, ∃ data, ReadsBack o c.localAddr c.remoteAddr data packet := by
    refine hunder.invariant (I:=fun w => Inv o w ∧ (∀ c∈flows w.relay, c∈pairs o events) ∧
      ∀ packet∈w.written, ∃ c∈pairs o events, ∃ data,
        ReadsBack o c.localAddr c.remoteAddr data packet) ?_
      ⟨inv_init o hpos memory,fun c hc => (by cases hc),fun p hp => (by cases hp)⟩
    intro s e s' hs hask ht
    have hstepped := turn_stepped hs.1 ht
    exact ⟨hstepped.inv hs.1,hstepped.written hs.1 hask hs.2.1 hs.2.2⟩
  exact hall.2.2

theorem written_reads_back_sample : (sampleAfter 1 2).written.length=1 ∧
    ∀ packet∈(sampleAfter 1 2).written, ∃ c∈pairs sampleOptions (sampleEvents.take 2), ∃ data,
      ReadsBack sampleOptions c.localAddr c.remoteAddr data packet := by
  have hrun : (checked (step sampleOptions)).Run (.init sampleOptions 1 sampleMemory)
    (sampleEvents.take 2) (sampleAfter 1 2) := run_stepped (by decide +kernel)
  exact ⟨by decide +kernel,written_reads_back (by decide) hrun⟩

/-- The address behind a SOCKS header. -/
def addrBytes : BAddr → Bytes
  | .ipv4 ip port => ip.bytes++port.bytes
  | .ipv6 ip port => ip.bytes++port.bytes

theorem headerAddr_eq_some {atyp : UInt8} {data rest : Bytes} {addr : BAddr} :
    headerAddr atyp data=some (addr,rest) ↔ data=addrBytes addr++rest ∧
      (atyp=4 ↔ addrType addr=2) := by
  rw [headerAddr]
  split
  · rename_i hatyp
    simp only [Option.bind_eq_bind,Option.bind_eq_some_iff,Prod.exists,takeOctets_eq_some]
    constructor
    · rintro ⟨ip,_,rfl,port,_,rfl,hsame⟩
      cases hsame
      exact ⟨by simp [addrBytes],by simp [hatyp,addrType]⟩
    · rintro ⟨rfl,htype⟩
      cases addr with
      | ipv4 ip port => exact absurd (htype.mp hatyp) (by simp [addrType])
      | ipv6 ip port => exact ⟨ip,_,by simp [addrBytes],port,rest,rfl,rfl⟩
  · rename_i hatyp
    simp only [Option.bind_eq_bind,Option.bind_eq_some_iff,Prod.exists,takeOctets_eq_some]
    constructor
    · rintro ⟨ip,_,rfl,port,_,rfl,hsame⟩
      cases hsame
      exact ⟨by simp [addrBytes],by simp [hatyp,addrType]⟩
    · rintro ⟨rfl,htype⟩
      cases addr with
      | ipv4 ip port => exact ⟨ip,_,by simp [addrBytes],port,rest,rfl,rfl⟩
      | ipv6 ip port => exact absurd (htype.mpr rfl) hatyp

/-- A header that is accepted names the expected peer. Every type but the one of IPv6 is read as
the one of IPv4. -/
theorem stripHeader_eq_some {remoteAddr : BAddr} {data rest : Bytes} :
    stripHeader remoteAddr data=some rest ↔ ∃ a b atyp,
      data=a::b::0::atyp::(addrBytes remoteAddr++rest) ∧ (atyp=4 ↔ addrType remoteAddr=2) := by
  constructor
  · intro h
    match data with
    | [] => cases h
    | [_] => cases h
    | [_,_] => cases h
    | [_,_,_] => cases h
    | a::b::frag::atyp::data =>
      rw [stripHeader] at h
      split at h
      · cases h
      rename_i hfrag
      simp only [Option.bind_eq_bind,Option.bind_eq_some_iff,Prod.exists,headerAddr_eq_some] at h
      obtain ⟨addr,behind,⟨rfl,htype⟩,h⟩ := h
      split at h
      · cases h
      rename_i hsame
      cases h
      obtain rfl : addr=remoteAddr := not_not.mp hsame
      exact ⟨a,b,atyp,by rw [not_not.mp hfrag],htype⟩
  · rintro ⟨a,b,atyp,rfl,htype⟩
    simp [stripHeader,headerAddr_eq_some.mpr ⟨rfl,htype⟩]

theorem socksHeader_eq (addr : BAddr) : ∃ atyp, Relay.socksHeader addr=0::0::0::atyp::addrBytes addr ∧
    (atyp=4 ↔ addrType addr=2) := by
  cases addr with
  | ipv4 ip port => exact ⟨1,rfl,by simp [addrType]⟩
  | ipv6 ip port => exact ⟨4,rfl,by simp [addrType]⟩

/-- What comes back as the header and data of a connection is delivered without the header, but
only its first bytes: the header and the data share the buffer of `udp_mtu` bytes, and a longer
datagram is shortened silently. If not even the header fits, nothing is delivered. The connection
itself never sends more than `udp_mtu` bytes; the longer datagrams are those of others. -/
theorem echo_cut_off (udpMtu : ℕ) (con : Connection) (data : Bytes) :
    dgramHandlerReceived udpMtu con (Relay.outPacket con data)=
      if udpMtu< (Relay.outPacket con []).length then none
      else some (data.take (udpMtu-(Relay.outPacket con []).length)) := by
  cases hdns : con.isDns with
  | true =>
    simp [dgramHandlerReceived,payloadOf,Relay.outPacket,hdns]
  | false =>
    obtain ⟨atyp,hheader,htype⟩ := socksHeader_eq con.conaddr.remoteAddr
    have hout : ∀ d, Relay.outPacket con d=Relay.socksHeader con.conaddr.remoteAddr++d := by
      intro d
      simp [Relay.outPacket,hdns]
    have hpayload : ∀ d, payloadOf con d=stripHeader con.conaddr.remoteAddr d := by
      intro d
      simp [payloadOf,hdns]
    rw [hout,hout,List.append_nil,dgramHandlerReceived,hpayload]
    by_cases hshort : udpMtu< (Relay.socksHeader con.conaddr.remoteAddr).length
    · -- the cut-off datagram is shorter than any that is accepted
      have hnone : stripHeader con.conaddr.remoteAddr
          ((Relay.socksHeader con.conaddr.remoteAddr++data).take udpMtu)=none := by
        rw [Option.eq_none_iff_forall_not_mem]
        intro rest hrest
        obtain ⟨a,b,t,heq,-⟩ := stripHeader_eq_some.mp hrest
        have hlen := congrArg List.length heq
        rw [hheader] at hshort
        simp only [List.length_take,List.length_append,List.length_cons] at hlen hshort
        omega
      rw [hnone,if_pos hshort]
      rfl
    · have hcut : (Relay.socksHeader con.conaddr.remoteAddr++data).take udpMtu=
          Relay.socksHeader con.conaddr.remoteAddr++
            data.take (udpMtu-(Relay.socksHeader con.conaddr.remoteAddr).length) := by
        rw [List.take_append,List.take_of_length_le (by omega)]
      have hstrip : ∀ d, stripHeader con.conaddr.remoteAddr
          (Relay.socksHeader con.conaddr.remoteAddr++d)=some d := by
        intro d
        rw [stripHeader_eq_some,hheader]
        exact ⟨0,0,atyp,rfl,htype⟩
      have hfits : ¬udpMtu<
          (data.take (udpMtu-(Relay.socksHeader con.conaddr.remoteAddr).length)).length := by
        rw [List.length_take]
        omega
      rw [hcut,hstrip,if_neg hshort]
      exact if_neg hfits

/-- After every run `SocksUdpGwClient_Free` removes all connections and frees their parts, and no
assertion fails in it. It leaves the first job of each of them, so that the assertion of
`BReactor_Free` behind it fails exactly when there was a connection. -/
theorem freed_completely {maxConnections : ℕ} {memory : ℕ → Connection} (hpos : 0< maxConnections)
    (hrun : (checked (step o)).Run (.init o maxConnections memory) events w) :
    ∃ r', Relay.free w.relay.connectionsList.length w.relay=.ok r' ∧ r'.connectionsList=[] ∧
      r'.connectionsTree.inorder=[] ∧ r'.numConnections=0 ∧ r'.leaked=w.relay.numConnections ∧
      (r'.reactorFree=.error .fault ↔ w.relay.connectionsList≠[]) := by
  have hinv := run_inv (inv_init o hpos memory) hrun
  obtain ⟨r',hfree,hnil,htree,hnum,hleaked⟩ := (free_returns _ hinv.table rfl).value
  rw [hinv.leaked,Nat.zero_add] at hleaked
  refine ⟨r',hfree,hnil,htree,hnum,hleaked.trans hinv.table.count.symm,?_⟩
  rw [Relay.reactorFree,demand,hleaked]
  cases w.relay.connectionsList with
  | nil => simp
  | cons con rest => simp

theorem freed_completely_sample : (sampleAfter 2 3).relay.connectionsList=[0,1] ∧
    ∃ r', Relay.free 2 (sampleAfter 2 3).relay=.ok r' ∧ r'.connectionsList=[] ∧
      r'.reactorFree=.error .fault := by
  have hrun : (checked (step sampleOptions)).Run (.init sampleOptions 2 sampleMemory)
    (sampleEvents.take 3) (sampleAfter 2 3) := run_stepped (by decide +kernel)
  have hlist : (sampleAfter 2 3).relay.connectionsList=[0,1] := by decide +kernel
  obtain ⟨r',hfree,hnil,-,-,-,hreactor⟩ := freed_completely (by decide) hrun
  rw [hlist] at hfree hreactor
  exact ⟨hlist,r',hfree,hnil,hreactor.mpr (by simp)⟩

end ProxyDroid.UdpRelayRuns
