import Mathlib.Data.Int.Notation
import ProxyDroid.OnesComplement
import ProxyDroid.SocksClient

/-!
# UDP datagrams between the device and the relay

`process_device_udp_packet` takes a datagram out of an IP packet that an application has sent, and
`udpgw_client_handler_received` puts a datagram of the relay into an IP packet for it. Headers are
read and written as they lie in memory, with their fields in network byte order.
-/

namespace ProxyDroid.UdpDatagrams

open CheckedPrograms OnesComplement
open ConnectionTypes (Bytes)
open SocksClient (Octets BAddr)

theorem length_pair (a b : UInt8) : [a,b].length=2 := rfl

theorem length_quad (a b c d : UInt8) : [a,b,c,d].length=4 := rfl

/-- `hton16` of the low sixteen bits. -/
def hton16 (n : ℕ) : Octets 2 := ⟨[UInt8.ofNat (n/256),UInt8.ofNat n],length_pair _ _⟩

/-- `hton32` of the low 32 bits. -/
def hton32 (n : ℕ) : Octets 4 :=
  ⟨[UInt8.ofNat (n/16777216),UInt8.ofNat (n/65536),UInt8.ofNat (n/256),UInt8.ofNat n],
    length_quad _ _ _ _⟩

/-- `badvpn_read_be16`. -/
def readBe16 : Bytes → ℕ
  | a::b::_ => a.toNat*256+b.toNat
  | _ => 0

/-- `ntoh16`. -/
def ntoh16 (field : Octets 2) : ℕ := readBe16 field.bytes

/-- One byte of a header is copied out. -/
def takeByte : Bytes → Option (UInt8×Bytes)
  | [] => none
  | a::rest => some (a,rest)

/-- A field of a header is copied out. -/
def takeOctets (n : ℕ) (data : Bytes) : Option (Octets n×Bytes) :=
  if h : n≤data.length then some (⟨data.take n,List.length_take_of_le h⟩,data.drop n) else none

/-- `struct ipv4_header`. -/
structure Ipv4Header where
  version4Ihl4 : UInt8
  ds : UInt8
  totalLength : Octets 2
  identification : Octets 2
  flags3Fragmentoffset13 : Octets 2
  ttl : UInt8
  protocol : UInt8
  checksum : Octets 2
  sourceAddress : Octets 4
  destinationAddress : Octets 4

/-- `struct ipv6_header`. -/
structure Ipv6Header where
  version4Tc4 : UInt8
  tc4Fl4 : UInt8
  fl : Octets 2
  payloadLength : Octets 2
  nextHeader : UInt8
  hopLimit : UInt8
  sourceAddress : Octets 16
  destinationAddress : Octets 16

/-- `struct udp_header`. -/
structure UdpHeader where
  sourcePort : Octets 2
  destPort : Octets 2
  length : Octets 2
  checksum : Octets 2

/-- The header with another checksum. -/
def Ipv4Header.withChecksum (h : Ipv4Header) (checksum : Octets 2) : Ipv4Header :=
  { h with checksum := checksum }

/-- The header with another checksum. -/
def UdpHeader.withChecksum (h : UdpHeader) (checksum : Octets 2) : UdpHeader :=
  { h with checksum := checksum }

/-- The header in memory. -/
def Ipv4Header.bytes (h : Ipv4Header) : Bytes :=
  h.version4Ihl4::h.ds::(h.totalLength.bytes++(h.identification.bytes++
    (h.flags3Fragmentoffset13.bytes++(h.ttl::h.protocol::(h.checksum.bytes++
      (h.sourceAddress.bytes++h.destinationAddress.bytes))))))

/-- The header in memory. -/
def Ipv6Header.bytes (h : Ipv6Header) : Bytes :=
  h.version4Tc4::h.tc4Fl4::(h.fl.bytes++(h.payloadLength.bytes++
    (h.nextHeader::h.hopLimit::(h.sourceAddress.bytes++h.destinationAddress.bytes))))

/-- The header in memory. -/
def UdpHeader.bytes (h : UdpHeader) : Bytes :=
  h.sourcePort.bytes++(h.destPort.bytes++(h.length.bytes++h.checksum.bytes))

/-- `memcpy` into the structure, with the bytes behind it. -/
def Ipv4Header.read (data : Bytes) : Option (Ipv4Header×Bytes) := do
  let version ← takeByte data
  let ds ← takeByte version.2
  let total ← takeOctets 2 ds.2
  let identification ← takeOctets 2 total.2
  let flags ← takeOctets 2 identification.2
  let ttl ← takeByte flags.2
  let protocol ← takeByte ttl.2
  let checksum ← takeOctets 2 protocol.2
  let source ← takeOctets 4 checksum.2
  let destination ← takeOctets 4 source.2
  return (⟨version.1,ds.1,total.1,identification.1,flags.1,ttl.1,protocol.1,checksum.1,source.1,
    destination.1⟩,destination.2)

/-- `memcpy` into the structure, with the bytes behind it. -/
def Ipv6Header.read (data : Bytes) : Option (Ipv6Header×Bytes) := do
  let version ← takeByte data
  let tc ← takeByte version.2
  let fl ← takeOctets 2 tc.2
  let payload ← takeOctets 2 fl.2
  let next ← takeByte payload.2
  let hop ← takeByte next.2
  let source ← takeOctets 16 hop.2
  let destination ← takeOctets 16 source.2
  return (⟨version.1,tc.1,fl.1,payload.1,next.1,hop.1,source.1,destination.1⟩,destination.2)

/-- `memcpy` into the structure, with the bytes behind it. -/
def UdpHeader.read (data : Bytes) : Option (UdpHeader×Bytes) := do
  let source ← takeOctets 2 data
  let dest ← takeOctets 2 source.2
  let length ← takeOctets 2 dest.2
  let checksum ← takeOctets 2 length.2
  return (⟨source.1,dest.1,length.1,checksum.1⟩,checksum.2)

/-- The loop of `udp_checksum_summer`, which is also the one of `ipv4_checksum`. -/
def udpChecksumSummer : Bytes → ℕ
  | a::b::rest => readBe16 [a,b]+udpChecksumSummer rest
  | _ => 0

/-- The part of the sum for the payload. -/
def payloadSum (payload : Bytes) : ℕ :=
  if payload.length%2=0 then udpChecksumSummer payload
  else udpChecksumSummer (payload.take (payload.length-1))+
    udpChecksumSummer (hton16 ((payload.getD (payload.length-1) 0).toNat*256)).bytes

/-- The end of `udp_checksum` and `udp_ip6_checksum`, where `t` has 32 bits. -/
def udpFinish (t : ℕ) : Octets 2 :=
  let t := 4294967295-fold (t%4294967296)
  hton16 (if t=0 then 65535 else t)

/-- `udp_checksum`. -/
def udpChecksum (header : UdpHeader) (payload : Bytes) (sourceAddr destAddr : Octets 4) : Octets 2 :=
  udpFinish (udpChecksumSummer sourceAddr.bytes+udpChecksumSummer destAddr.bytes+
    udpChecksumSummer (hton16 17).bytes+udpChecksumSummer (hton16 (8+payload.length)).bytes+
    udpChecksumSummer header.bytes+payloadSum payload)

/-- `udp_ip6_checksum`. -/
def udpIp6Checksum (header : UdpHeader) (payload : Bytes) (sourceAddr destAddr : Octets 16) :
    Octets 2 :=
  udpFinish (udpChecksumSummer sourceAddr.bytes+udpChecksumSummer destAddr.bytes+
    udpChecksumSummer (hton32 (8+payload.length)).bytes+udpChecksumSummer (hton32 17).bytes+
    udpChecksumSummer header.bytes+payloadSum payload)

/-- `ipv4_checksum`. -/
def ipv4Checksum (header : Ipv4Header) (extra : Bytes) : Octets 2 :=
  hton16 (4294967295-
    fold ((udpChecksumSummer header.bytes+udpChecksumSummer extra)%4294967296))

/-- `ipv4_check`. -/
def ipv4Check (data : Bytes) : Option (Ipv4Header×Bytes) := do
  let parsed ← Ipv4Header.read data
  let header := parsed.1
  let headerLen := header.version4Ihl4.toNat%16*4
  let totalLength := ntoh16 header.totalLength
  if header.version4Ihl4.toNat/16≠4 then none
  else if headerLen<20 then none
  else if data.length<headerLen then none
  else if totalLength<headerLen then none
  else if data.length<totalLength then none
  else if header.checksum≠ipv4Checksum (header.withChecksum (hton16 0))
      (parsed.2.take (headerLen-20)) then none
  else some (header,(data.drop headerLen).take (totalLength-headerLen))

/-- `ipv6_check`. -/
def ipv6Check (data : Bytes) : Option (Ipv6Header×Bytes) := do
  let parsed ← Ipv6Header.read data
  let payloadLength := ntoh16 parsed.1.payloadLength
  if parsed.1.version4Tc4.toNat/16≠6 then none
  else if data.length-40<payloadLength then none
  else some (parsed.1,parsed.2.take payloadLength)

/-- `udp_check`. -/
def udpCheck (data : Bytes) : Option (UdpHeader×Bytes) := do
  let parsed ← UdpHeader.read data
  let udpLength := ntoh16 parsed.1.length
  if udpLength<8 then none
  else if 8+parsed.2.length<udpLength then none
  else some (parsed.1,parsed.2.take (udpLength-8))

/-- What the two functions use of `options`, and the MTU of the device. -/
structure Options where
  /-- `udpgw_remote_server_addr` is given. -/
  udpgw : Bool
  /-- `netif_ip6addr` is given. -/
  netifIp6addr : Bool
  /-- `dnsgw` is given. -/
  dnsgw : Bool
  /-- `BTap_GetMTU`. -/
  mtu : ℕ

/-- `udp_mtu` as `main` computes it. -/
def Options.udpMtu (o : Options) : ℕ :=
  let udpMtu : ℤ := o.mtu-28
  let udpIp6Mtu : ℤ := o.mtu-48
  let udpMtu := if o.netifIp6addr=true ∧ udpMtu<udpIp6Mtu then udpIp6Mtu else udpMtu
  (if udpMtu<0 then 0 else udpMtu).toNat

/-- `udpgw_compute_mtu`, with the SOCKS header and an IPv6 address, as an `int`. -/
def udpgwComputeMtu (dgramMtu : ℤ) : ℤ :=
  if 2147483647<4+(18+dgramMtu) then -1 else 4+(18+dgramMtu)

/-- The MTU of the device is too large for UDP, which `main` refuses. -/
def Options.TooLarge (o : Options) : Prop :=
  o.udpgw=true ∧ (udpgwComputeMtu o.udpMtu<0 ∨ 65535<udpgwComputeMtu o.udpMtu)

instance (o : Options) : Decidable o.TooLarge := inferInstanceAs (Decidable (_ ∧ _))

/-- The arguments of `SocksUdpGwClient_SubmitPacket`. -/
structure Submission where
  localAddr : BAddr
  remoteAddr : BAddr
  isDns : Bool
  data : Bytes
  deriving DecidableEq

/-- The case of IP version 4. -/
def fromIpv4 (o : Options) (data : Bytes) : Option Submission :=
  if data.length<20 ∨ data.getD 9 0≠17 then none
  else do
    let ip ← ipv4Check data
    let udp ← udpCheck ip.2
    if udp.1.checksum≠udpChecksum (udp.1.withChecksum (hton16 0)) udp.2 ip.1.sourceAddress
        ip.1.destinationAddress then none
    else some {
      localAddr := .ipv4 ip.1.sourceAddress udp.1.sourcePort
      remoteAddr := .ipv4 ip.1.destinationAddress udp.1.destPort
      isDns := o.dnsgw && decide (udp.1.destPort=hton16 53)
      data := udp.2 }

/-- The case of IP version 6. -/
def fromIpv6 (o : Options) (data : Bytes) : Option Submission :=
  if o.netifIp6addr=false then none
  else if data.length<40 ∨ data.getD 6 0≠17 then none
  else do
    let ip ← ipv6Check data
    let udp ← udpCheck ip.2
    if udp.1.checksum≠udpIp6Checksum (udp.1.withChecksum (hton16 0)) udp.2 ip.1.sourceAddress
        ip.1.destinationAddress then none
    else some {
      localAddr := .ipv6 ip.1.sourceAddress udp.1.sourcePort
      remoteAddr := .ipv6 ip.1.destinationAddress udp.1.destPort
      isDns := false
      data := udp.2 }

/-- The switch over the IP version, which is zero for an empty packet. -/
def fromIp (o : Options) (data : Bytes) : Option Submission :=
  let ipVersion := (data.headD 0).toNat/16
  if ipVersion=4 then fromIpv4 o data else if ipVersion=6 then fromIpv6 o data else none

/-- `process_device_udp_packet`: what is submitted, if the packet is not left to lwIP. -/
def processDeviceUdpPacket (o : Options) (data : Bytes) : Option Submission :=
  if o.udpgw=false then none
  else do
    let s ← fromIp o data
    if o.udpMtu< s.data.length then none else some s

/-- The IPv4 header of a packet for the device before its checksum is written. -/
def replyIpv4Header (source destination : Octets 4) (data : Bytes) : Ipv4Header where
  version4Ihl4 := 69
  ds := 0
  totalLength := hton16 (28+data.length)
  identification := hton16 0
  flags3Fragmentoffset13 := hton16 0
  ttl := 64
  protocol := 17
  checksum := hton16 0
  sourceAddress := source
  destinationAddress := destination

/-- The IPv6 header of a packet for the device. -/
def replyIpv6Header (source destination : Octets 16) (data : Bytes) : Ipv6Header where
  version4Tc4 := 96
  tc4Fl4 := 0
  fl := hton16 0
  payloadLength := hton16 (8+data.length)
  nextHeader := 17
  hopLimit := 64
  sourceAddress := source
  destinationAddress := destination

/-- The UDP header of a packet for the device before its checksum is written. -/
def replyUdpHeader (source dest : Octets 2) (data : Bytes) : UdpHeader where
  sourcePort := source
  destPort := dest
  length := hton16 (8+data.length)
  checksum := hton16 0

/-- The IPv4 packet from `source` to `destination` with a given checksum of the datagram. -/
def ipv4PacketWith (checksum : Octets 2) (source destination : Octets 4)
    (sourcePort destPort : Octets 2) (data : Bytes) : Bytes :=
  let iph := replyIpv4Header source destination data
  let iph := iph.withChecksum (ipv4Checksum iph [])
  iph.bytes++(((replyUdpHeader sourcePort destPort data).withChecksum checksum).bytes++data)

/-- The IPv4 packet that is written to the device. -/
def ipv4Packet (source destination : Octets 4) (sourcePort destPort : Octets 2) (data : Bytes) :
    Bytes :=
  ipv4PacketWith (udpChecksum (replyUdpHeader sourcePort destPort data) data source destination)
    source destination sourcePort destPort data

/-- The IPv6 packet that is written to the device. -/
def ipv6Packet (source destination : Octets 16) (sourcePort destPort : Octets 2) (data : Bytes) :
    Bytes :=
  let iph := replyIpv6Header source destination data
  let udph := replyUdpHeader sourcePort destPort data
  let udph := udph.withChecksum (udpIp6Checksum udph data source destination)
  iph.bytes++(udph.bytes++data)

/-- The switch over the type of the addresses. -/
def packetForDevice (o : Options) : BAddr → BAddr → Bytes → Checked (Option Bytes)
  | .ipv4 localIp localPort,.ipv4 remoteIp remotePort,data =>
    if 65535-28<data.length ∨ o.mtu<data.length+28 then return none
    else return some (ipv4Packet remoteIp localIp remotePort localPort data)
  | .ipv6 localIp localPort,.ipv6 remoteIp remotePort,data =>
    if o.netifIp6addr=false then return none
    else if 65535-8<data.length ∨ o.mtu<data.length+48 then return none
    else return some (ipv6Packet remoteIp localIp remotePort localPort data)
  -- the assertion that both addresses have one type
  | .ipv4 _ _,.ipv6 _ _,_ => .error .fault
  | .ipv6 _ _,.ipv4 _ _,_ => .error .fault

/-- `udpgw_client_handler_received`: the packet that is written to the device, if any. -/
def udpgwClientHandlerReceived (o : Options) (localAddr remoteAddr : BAddr) (data : Bytes) :
    Checked (Option Bytes) := do
  demand (o.udpgw=true)
  packetForDevice o localAddr remoteAddr data

theorem takeByte_eq_some {data rest : Bytes} {a : UInt8} :
    takeByte data=some (a,rest) ↔ data=a::rest := by
  cases data with
  | nil => simp [takeByte]
  | cons b tail => simp [takeByte]

theorem takeOctets_append {n : ℕ} (field : Octets n) (rest : Bytes) :
    takeOctets n (field.bytes++rest)=some (field,rest) := by
  obtain ⟨bytes,hlen⟩ := field
  subst hlen
  simp [takeOctets]

theorem takeOctets_eq_some {n : ℕ} {data rest : Bytes} {field : Octets n} :
    takeOctets n data=some (field,rest) ↔ data=field.bytes++rest := by
  constructor
  · intro h
    rw [takeOctets] at h
    split at h
    · cases h
      exact (List.take_append_drop n data).symm
    · cases h
  · rintro rfl
    exact takeOctets_append field rest

/-- A header is what its bytes are read as. -/
theorem Ipv4Header.read_eq_some {data rest : Bytes} {h : Ipv4Header} :
    Ipv4Header.read data=some (h,rest) ↔ data=h.bytes++rest := by
  constructor
  · intro hread
    simp only [Ipv4Header.read,Option.bind_eq_bind,Option.bind_eq_some_iff,Prod.exists,
      takeByte_eq_some,takeOctets_eq_some] at hread
    obtain ⟨version,_,rfl,ds,_,rfl,total,_,rfl,identification,_,rfl,flags,_,rfl,ttl,_,rfl,protocol,_,
      rfl,checksum,_,rfl,source,_,rfl,destination,_,rfl,hsame⟩ := hread
    cases hsame
    simp [Ipv4Header.bytes]
  · rintro rfl
    simp [Ipv4Header.read,Ipv4Header.bytes,takeByte,takeOctets_append]

/-- A header is what its bytes are read as. -/
theorem Ipv6Header.read_eq_some {data rest : Bytes} {h : Ipv6Header} :
    Ipv6Header.read data=some (h,rest) ↔ data=h.bytes++rest := by
  constructor
  · intro hread
    simp only [Ipv6Header.read,Option.bind_eq_bind,Option.bind_eq_some_iff,Prod.exists,
      takeByte_eq_some,takeOctets_eq_some] at hread
    obtain ⟨version,_,rfl,tc,_,rfl,fl,_,rfl,payload,_,rfl,next,_,rfl,hop,_,rfl,source,_,rfl,
      destination,_,rfl,hsame⟩ := hread
    cases hsame
    simp [Ipv6Header.bytes]
  · rintro rfl
    simp [Ipv6Header.read,Ipv6Header.bytes,takeByte,takeOctets_append]

/-- A header is what its bytes are read as. -/
theorem UdpHeader.read_eq_some {data rest : Bytes} {h : UdpHeader} :
    UdpHeader.read data=some (h,rest) ↔ data=h.bytes++rest := by
  constructor
  · intro hread
    simp only [UdpHeader.read,Option.bind_eq_bind,Option.bind_eq_some_iff,Prod.exists,
      takeOctets_eq_some] at hread
    obtain ⟨source,_,rfl,dest,_,rfl,length,_,rfl,checksum,_,rfl,hsame⟩ := hread
    cases hsame
    simp [UdpHeader.bytes]
  · rintro rfl
    simp [UdpHeader.read,UdpHeader.bytes,takeOctets_append]

@[simp] theorem Ipv4Header.length_bytes (h : Ipv4Header) : h.bytes.length=20 := by
  simp [Ipv4Header.bytes,Octets.length_bytes]

@[simp] theorem Ipv6Header.length_bytes (h : Ipv6Header) : h.bytes.length=40 := by
  simp [Ipv6Header.bytes,Octets.length_bytes]

@[simp] theorem UdpHeader.length_bytes (h : UdpHeader) : h.bytes.length=8 := by
  simp [UdpHeader.bytes,Octets.length_bytes]

@[simp] theorem ntoh16_hton16 (n : ℕ) : ntoh16 (hton16 n)=n%65536 := by
  simp only [ntoh16,hton16,readBe16,UInt8.toNat_ofNat']
  omega

theorem octets_pair (field : Octets 2) : ∃ a b, field.bytes=[a,b] := by
  obtain ⟨bytes,hlen⟩ := field
  exact List.length_eq_two.mp hlen

/-- A field of two bytes is determined by its value. -/
theorem ntoh16_inj {x y : Octets 2} : ntoh16 x=ntoh16 y ↔ x=y := by
  constructor
  · intro h
    obtain ⟨xs,hx⟩ := x
    obtain ⟨ys,hy⟩ := y
    obtain ⟨a,b,rfl⟩ := List.length_eq_two.mp hx
    obtain ⟨c,d,rfl⟩ := List.length_eq_two.mp hy
    simp only [ntoh16,readBe16] at h
    have ha := a.toNat_lt
    have hb := b.toNat_lt
    have hc := c.toNat_lt
    have hd := d.toNat_lt
    obtain rfl : a=c := UInt8.toNat_inj.mp (by omega)
    obtain rfl : b=d := UInt8.toNat_inj.mp (by omega)
    rfl
  · rintro rfl
    rfl

theorem sum16_field (field : Octets 2) : sum16 field.bytes=ntoh16 field := by
  obtain ⟨a,b,hbytes⟩ := octets_pair field
  simp [ntoh16,hbytes,sum16,readBe16]

theorem ntoh16_lt (field : Octets 2) : ntoh16 field<65536 := by
  obtain ⟨a,b,hbytes⟩ := octets_pair field
  have ha := a.toNat_lt
  have hb := b.toNat_lt
  simp only [ntoh16,hbytes,readBe16]
  omega

/-- The loop adds up all words of a buffer of even length. -/
theorem udpChecksumSummer_eq {data : Bytes} (h : data.length%2=0) :
    udpChecksumSummer data=sum16 data := by
  induction data using udpChecksumSummer.induct with
  | case1 a b rest ih =>
    have hrest : rest.length%2=0 := by
      simp only [List.length_cons] at h
      omega
    rw [udpChecksumSummer,sum16,ih hrest,readBe16]
  | case2 data hnot =>
    cases data with
    | nil => rfl
    | cons a tail =>
      cases tail with
      | nil => simp at h
      | cons b rest => exact absurd rfl (hnot a b rest)

/-- A last byte alone is added as the high half of a word. -/
theorem payloadSum_eq (payload : Bytes) : payloadSum payload=sum16 payload := by
  rw [payloadSum]
  split
  · rename_i heven
    exact udpChecksumSummer_eq heven
  · rename_i hodd
    obtain ⟨front,last,rfl⟩ : ∃ front last, payload=front++[last] := by
      refine ⟨payload.dropLast,payload.getLast ?_,(List.dropLast_append_getLast _).symm⟩
      rintro rfl
      exact hodd rfl
    have heven : front.length%2=0 := by
      simp only [List.length_append,List.length_singleton] at hodd
      omega
    have hlast := last.toNat_lt
    have hget : (front++[last]).getD front.length 0=last := by simp
    simp only [List.length_append,List.length_singleton,Nat.add_sub_cancel,List.take_left,hget]
    rw [udpChecksumSummer_eq heven,udpChecksumSummer_eq (by rw [Octets.length_bytes]),sum16_field,
      ntoh16_hton16,sum16_append _ heven,sum16]
    omega

/-- Fields of an even number of bytes are added separately. -/
theorem sum16_field_append {n : ℕ} (field : Octets n) (rest : Bytes) (h : n%2=0) :
    sum16 (field.bytes++rest)=sum16 field.bytes+sum16 rest :=
  sum16_append rest (by rwa [Octets.length_bytes])

/-- The sum of a header is the one without its checksum, and the checksum. -/
theorem Ipv4Header.sum16_bytes (h : Ipv4Header) :
    sum16 h.bytes=sum16 (h.withChecksum (hton16 0)).bytes+ntoh16 h.checksum := by
  have hzero : sum16 (hton16 0).bytes=0 := rfl
  simp (disch := decide) only [Ipv4Header.bytes,Ipv4Header.withChecksum,sum16,sum16_field_append]
  rw [sum16_field h.checksum,hzero]
  omega

/-- The receiver's rule: all words with the checksum add up to `65535`. -/
def Verifies (t : ℕ) : Prop := fold t=65535

/-- The complement as a checksum is the receiver's rule without the second representation of
zero. -/
theorem complement_iff {t : ℕ} (field : Octets 2) (hpos : 0<t) (hlt : t<4294967296) :
    field=hton16 (4294967295-fold (t%4294967296)) ↔
      Verifies (t+ntoh16 field) ∧ ntoh16 field≠65535 := by
  have hfold := fold_lt t
  have hmod := fold_mod t
  have hfoldpos := fold_pos hpos
  have hfield := ntoh16_lt field
  rw [Verifies,fold_eq_max (by omega),←ntoh16_inj,ntoh16_hton16,Nat.mod_eq_of_lt hlt]
  omega

/-- Since `t` has 32 bits, the complement is never zero and the replacement of zero is dead. -/
theorem udpFinish_eq (t : ℕ) : udpFinish t=hton16 (4294967295-fold (t%4294967296)) := by
  have hfold := fold_lt (t%4294967296)
  rw [udpFinish,if_neg (by omega)]

/-- All words of a datagram and its pseudo header, which has the same sum in both versions. -/
def udpSum (source dest : Bytes) (udp : UdpHeader) (payload : Bytes) : ℕ :=
  sum16 source+sum16 dest+17+(8+payload.length)+sum16 udp.bytes+sum16 payload

theorem udpSum_pos {source dest payload : Bytes} {udp : UdpHeader} :
    0<udpSum source dest udp payload := by
  rw [udpSum]
  omega

/-- The sum of a datagram fits into 32 bits. -/
theorem udpSum_lt {source dest payload : Bytes} {udp : UdpHeader} (hsource : source.length≤16)
    (hdest : dest.length≤16) (hlen : 8+payload.length<65536) :
    udpSum source dest udp payload<4294967296 := by
  have hs := sum16_le source
  have hd := sum16_le dest
  have hu := sum16_le udp.bytes
  have hp := sum16_le payload
  rw [UdpHeader.length_bytes] at hu
  rw [udpSum]
  omega

/-- `udp_checksum` is the complement of the sum. -/
theorem udpChecksum_eq {udp : UdpHeader} {payload : Bytes} {source dest : Octets 4}
    (hlen : 8+payload.length<65536) : udpChecksum udp payload source dest=
      hton16 (4294967295-fold (udpSum source.bytes dest.bytes udp payload%4294967296)) := by
  have hseventeen : ntoh16 (hton16 17)=17 := rfl
  rw [udpChecksum,udpFinish_eq,payloadSum_eq,udpSum]
  simp (disch := simp [Octets.length_bytes]) only [udpChecksumSummer_eq]
  rw [sum16_field,sum16_field,hseventeen,ntoh16_hton16,Nat.mod_eq_of_lt hlen]

theorem sum16_hton32 {n : ℕ} (h : n<65536) : sum16 (hton32 n).bytes=n := by
  simp only [hton32,sum16,UInt8.toNat_ofNat']
  omega

/-- `udp_ip6_checksum` is the complement of the sum. -/
theorem udpIp6Checksum_eq {udp : UdpHeader} {payload : Bytes} {source dest : Octets 16}
    (hlen : 8+payload.length<65536) : udpIp6Checksum udp payload source dest=
      hton16 (4294967295-fold (udpSum source.bytes dest.bytes udp payload%4294967296)) := by
  rw [udpIp6Checksum,udpFinish_eq,payloadSum_eq,udpSum]
  simp (disch := simp [Octets.length_bytes]) only [udpChecksumSummer_eq]
  rw [sum16_hton32 hlen,sum16_hton32 (by decide),
    Nat.add_assoc (sum16 source.bytes+sum16 dest.bytes),Nat.add_comm (8+payload.length) 17,
    ←Nat.add_assoc (sum16 source.bytes+sum16 dest.bytes)]

/-- A datagram with bytes behind it that are ignored. -/
def UdpFramed (data : Bytes) (udp : UdpHeader) (payload : Bytes) : Prop :=
  ∃ stray, data=udp.bytes++(payload++stray) ∧ ntoh16 udp.length=8+payload.length

theorem UdpFramed.fits {data payload : Bytes} {udp : UdpHeader} (h : UdpFramed data udp payload) :
    8+payload.length<65536 := by
  obtain ⟨-,-,hlen⟩ := h
  rw [←hlen]
  exact ntoh16_lt udp.length

/-- `udp_check` accepts framed datagrams and nothing else. -/
theorem udpCheck_eq_some {data payload : Bytes} {udp : UdpHeader} :
    udpCheck data=some (udp,payload) ↔ UdpFramed data udp payload := by
  constructor
  · intro h
    simp only [udpCheck,Option.bind_eq_bind,Option.bind_eq_some_iff,Prod.exists,
      UdpHeader.read_eq_some] at h
    obtain ⟨header,rest,rfl,h⟩ := h
    split at h
    · cases h
    split at h
    · cases h
    cases h
    refine ⟨rest.drop (ntoh16 udp.length-8),?_,?_⟩
    · rw [List.take_append_drop]
    · rw [List.length_take_of_le (by omega)]
      omega
  · rintro ⟨stray,rfl,hlen⟩
    simp only [udpCheck,UdpHeader.read_eq_some.mpr rfl,Option.bind_eq_bind,Option.bind_some,
      hlen,List.length_append]
    rw [if_neg (by omega),if_neg (by omega),Nat.add_sub_cancel_left,List.take_left]

/-- An IPv4 packet with options and with bytes behind it that are ignored. -/
structure Ipv4Framed (packet : Bytes) (header : Ipv4Header) (options content trailing : Bytes) :
    Prop where
  packet_eq : packet=header.bytes++(options++(content++trailing))
  version : header.version4Ihl4.toNat/16=4
  ihl : header.version4Ihl4.toNat%16*4=20+options.length
  total : ntoh16 header.totalLength=20+options.length+content.length
  verifies : Verifies (sum16 header.bytes+sum16 options)
  /-- The other representation of the same checksum is refused. -/
  checksum : ntoh16 header.checksum≠65535

/-- `ipv4_checksum` is the receiver's rule for a header with its options. -/
theorem ipv4Checksum_iff (header : Ipv4Header) {options : Bytes} (heven : options.length%2=0)
    (hshort : options.length≤40) (hversion : 0<header.version4Ihl4.toNat) :
    header.checksum=ipv4Checksum (header.withChecksum (hton16 0)) options ↔
      Verifies (sum16 header.bytes+sum16 options) ∧ ntoh16 header.checksum≠65535 := by
  have hsum := header.sum16_bytes
  have hbare := sum16_le (header.withChecksum (hton16 0)).bytes
  have hoptions := sum16_le options
  have hpos : 0< sum16 (header.withChecksum (hton16 0)).bytes := by
    simp only [Ipv4Header.bytes,Ipv4Header.withChecksum,sum16]
    omega
  rw [Ipv4Header.length_bytes] at hbare
  rw [ipv4Checksum,udpChecksumSummer_eq (by simp),udpChecksumSummer_eq heven,
    complement_iff _ (by omega) (by omega),hsum,Nat.add_right_comm]

/-- `ipv4_check` accepts framed packets and nothing else. -/
theorem ipv4Check_eq_some {packet content : Bytes} {header : Ipv4Header} :
    ipv4Check packet=some (header,content) ↔
      ∃ options trailing, Ipv4Framed packet header options content trailing := by
  constructor
  · intro h
    simp only [ipv4Check,Option.bind_eq_bind,Option.bind_eq_some_iff,Prod.exists,
      Ipv4Header.read_eq_some] at h
    obtain ⟨header,rest,rfl,h⟩ := h
    simp only [List.length_append,Ipv4Header.length_bytes] at h
    iterate 6
      split at h
      · cases h
    rename_i hversion hmin hhead htotal hfits hchecksum
    cases h
    have hihl : header.version4Ihl4.toNat%16*4=20+(rest.take
        (header.version4Ihl4.toNat%16*4-20)).length := by
      rw [List.length_take_of_le (by omega)]
      omega
    have hdrop : (header.bytes++rest).drop (header.version4Ihl4.toNat%16*4)=
        rest.drop (header.version4Ihl4.toNat%16*4-20) := by
      rw [List.drop_append,Ipv4Header.length_bytes,
        List.drop_eq_nil_of_le (by rw [Ipv4Header.length_bytes]; omega),List.nil_append]
    have hverifies := (ipv4Checksum_iff header (by omega) (by omega) (by omega)).mp (not_not.mp hchecksum)
    refine ⟨_,(rest.drop (header.version4Ihl4.toNat%16*4-20)).drop
      (ntoh16 header.totalLength-header.version4Ihl4.toNat%16*4),?_,by omega,hihl,?_,hverifies.1,
      hverifies.2⟩
    · rw [hdrop,List.take_append_drop,List.take_append_drop]
    · rw [hdrop,←hihl,List.length_take_of_le (by rw [List.length_drop]; omega)]
      omega
  · rintro ⟨options,trailing,h⟩
    obtain ⟨rfl,hversion,hihl,htotal,hverifies,hchecksum⟩ := h
    have hsame : header.checksum=ipv4Checksum (header.withChecksum (hton16 0)) options :=
      (ipv4Checksum_iff header (by omega) (by omega) (by omega)).mpr ⟨hverifies,hchecksum⟩
    have hdrop : (header.bytes++(options++(content++trailing))).drop (20+options.length)=
        content++trailing := by
      rw [←List.append_assoc]
      exact List.drop_left' (by simp)
    simp only [ipv4Check,Ipv4Header.read_eq_some.mpr rfl,Option.bind_eq_bind,Option.bind_some,
      hversion,hihl,htotal,List.length_append,Ipv4Header.length_bytes,Nat.add_sub_cancel_left,
      List.take_left,hdrop]
    rw [if_neg (by simp),if_neg (by omega),if_neg (by omega),if_neg (by omega),if_neg (by omega),
      if_neg (not_not.mpr hsame)]

/-- An IPv6 packet with bytes behind it that are ignored. -/
structure Ipv6Framed (packet : Bytes) (header : Ipv6Header) (content trailing : Bytes) : Prop where
  packet_eq : packet=header.bytes++(content++trailing)
  version : header.version4Tc4.toNat/16=6
  length : ntoh16 header.payloadLength=content.length

/-- `ipv6_check` accepts framed packets and nothing else. -/
theorem ipv6Check_eq_some {packet content : Bytes} {header : Ipv6Header} :
    ipv6Check packet=some (header,content) ↔ ∃ trailing, Ipv6Framed packet header content trailing := by
  constructor
  · intro h
    simp only [ipv6Check,Option.bind_eq_bind,Option.bind_eq_some_iff,Prod.exists,
      Ipv6Header.read_eq_some] at h
    obtain ⟨header,rest,rfl,h⟩ := h
    simp only [List.length_append,Ipv6Header.length_bytes,Nat.add_sub_cancel_left] at h
    iterate 2
      split at h
      · cases h
    rename_i hversion hlen
    cases h
    refine ⟨rest.drop (ntoh16 header.payloadLength),?_,by omega,?_⟩
    · rw [List.take_append_drop]
    · rw [List.length_take_of_le (by omega)]
  · rintro ⟨trailing,rfl,hversion,hlen⟩
    simp only [ipv6Check,Ipv6Header.read_eq_some.mpr rfl,Option.bind_eq_bind,Option.bind_some,
      hversion,hlen,List.length_append,Ipv6Header.length_bytes,Nat.add_sub_cancel_left,
      List.take_left]
    rw [if_neg (by simp),if_neg (by omega)]

theorem Ipv4Header.getD_protocol (h : Ipv4Header) (rest : Bytes) :
    (h.bytes++rest).getD 9 0=h.protocol := by
  obtain ⟨a,b,hab⟩ := octets_pair h.totalLength
  obtain ⟨c,d,hcd⟩ := octets_pair h.identification
  obtain ⟨e,f,hef⟩ := octets_pair h.flags3Fragmentoffset13
  simp [Ipv4Header.bytes,hab,hcd,hef]

theorem Ipv6Header.getD_nextHeader (h : Ipv6Header) (rest : Bytes) :
    (h.bytes++rest).getD 6 0=h.nextHeader := by
  obtain ⟨a,b,hab⟩ := octets_pair h.fl
  obtain ⟨c,d,hcd⟩ := octets_pair h.payloadLength
  simp [Ipv6Header.bytes,hab,hcd]

/-- A packet that carries the datagram of a submission, whatever the checksum of the datagram is,
with the sum of the datagram without that checksum. -/
inductive Framed (o : Options) (packet : Bytes) (udp : UdpHeader) : Submission → ℕ → Prop
  | ipv4 {header : Ipv4Header} {options content trailing payload : Bytes}
      (ip : Ipv4Framed packet header options content trailing) (protocol : header.protocol=17)
      (framed : UdpFramed content udp payload) :
      Framed o packet udp {
        localAddr := .ipv4 header.sourceAddress udp.sourcePort
        remoteAddr := .ipv4 header.destinationAddress udp.destPort
        isDns := o.dnsgw && decide (udp.destPort=hton16 53)
        data := payload }
        (udpSum header.sourceAddress.bytes header.destinationAddress.bytes
          (udp.withChecksum (hton16 0)) payload)
  | ipv6 {header : Ipv6Header} {content trailing payload : Bytes} (enabled : o.netifIp6addr=true)
      (ip : Ipv6Framed packet header content trailing) (next : header.nextHeader=17)
      (framed : UdpFramed content udp payload) :
      Framed o packet udp {
        localAddr := .ipv6 header.sourceAddress udp.sourcePort
        remoteAddr := .ipv6 header.destinationAddress udp.destPort
        isDns := false
        data := payload }
        (udpSum header.sourceAddress.bytes header.destinationAddress.bytes
          (udp.withChecksum (hton16 0)) payload)

theorem Framed.sum_pos {o : Options} {packet : Bytes} {udp : UdpHeader} {s : Submission} {t : ℕ}
    (h : Framed o packet udp s t) : 0<t := by
  cases h with
  | ipv4 ip protocol framed => exact udpSum_pos
  | ipv6 enabled ip next framed => exact udpSum_pos

/-- A packet that carries a datagram is read as it if the checksum of the datagram is right. -/
theorem Framed.fromIp {o : Options} {packet : Bytes} {udp : UdpHeader} {s : Submission} {t : ℕ}
    (h : Framed o packet udp s t) : fromIp o packet=
      if udp.checksum=hton16 (4294967295-fold (t%4294967296)) then some s else none := by
  cases h with
  | @ipv4 header options content trailing payload ip protocol framed =>
    have hhead : (packet.headD 0).toNat/16=4 := by
      rw [ip.packet_eq]
      exact ip.version
    have hlong : ¬(packet.length<20 ∨ packet.getD 9 0≠17) := by
      rw [ip.packet_eq,Ipv4Header.getD_protocol,protocol]
      simp
    simp only [UdpDatagrams.fromIp,hhead,if_true,fromIpv4,if_neg hlong,
      ipv4Check_eq_some.mpr ⟨options,trailing,ip⟩,udpCheck_eq_some.mpr framed,
      udpChecksum_eq framed.fits,Option.bind_eq_bind,Option.bind_some,ne_eq,ite_not]
  | @ipv6 header content trailing payload enabled ip next framed =>
    have hhead : (packet.headD 0).toNat/16=6 := by
      rw [ip.packet_eq]
      exact ip.version
    have hlong : ¬(packet.length<40 ∨ packet.getD 6 0≠17) := by
      rw [ip.packet_eq,Ipv6Header.getD_nextHeader,next]
      simp
    have hon : ¬o.netifIp6addr=false := by
      rw [enabled]
      decide
    simp only [UdpDatagrams.fromIp,hhead,if_neg (show ¬(6=4) by decide),if_true,fromIpv6,if_neg hon,
      if_neg hlong,ipv6Check_eq_some.mpr ⟨trailing,ip⟩,udpCheck_eq_some.mpr framed,
      udpIp6Checksum_eq framed.fits,Option.bind_eq_bind,Option.bind_some,ne_eq,ite_not]

/-- What is done with a packet that carries a datagram depends on the checksum of the datagram and
on the size only. -/
theorem Framed.process {o : Options} {packet : Bytes} {udp : UdpHeader} {s : Submission} {t : ℕ}
    (h : Framed o packet udp s t) : processDeviceUdpPacket o packet=
      if o.udpgw=true ∧ s.data.length≤o.udpMtu ∧ udp.checksum=hton16 (4294967295-fold (t%4294967296))
      then some s else none := by
  rw [processDeviceUdpPacket,h.fromIp]
  by_cases hon : o.udpgw=false
  · rw [if_pos hon,if_neg (fun hall => by rw [hon] at hall; cases hall.1)]
  · rw [if_neg hon]
    have hrelay : o.udpgw=true := by simpa using hon
    by_cases hsum : udp.checksum=hton16 (4294967295-fold (t%4294967296))
    · rw [if_pos hsum]
      change (if o.udpMtu< s.data.length then none else some s)=_
      by_cases hsize : o.udpMtu< s.data.length
      · rw [if_pos hsize,if_neg (fun hall => absurd hall.2.1 (Nat.not_le.mpr hsize))]
      · rw [if_neg hsize,if_pos ⟨hrelay,Nat.not_lt.mp hsize,hsum⟩]
    · rw [if_neg hsum,if_neg (fun hall => hsum hall.2.2)]
      rfl

theorem Framed.sum_lt {o : Options} {packet : Bytes} {udp : UdpHeader} {s : Submission} {t : ℕ}
    (h : Framed o packet udp s t) : t<4294967296 := by
  cases h with
  | ipv4 ip protocol framed =>
    exact udpSum_lt (by rw [Octets.length_bytes]; decide) (by rw [Octets.length_bytes]; decide)
      framed.fits
  | ipv6 enabled ip next framed =>
    exact udpSum_lt (Nat.le_of_eq (Octets.length_bytes _)) (Nat.le_of_eq (Octets.length_bytes _))
      framed.fits

theorem fromIpv4_framed {o : Options} {packet : Bytes} {s : Submission}
    (h : fromIpv4 o packet=some s) : ∃ udp t, Framed o packet udp s t := by
  rw [fromIpv4] at h
  split at h
  · cases h
  rename_i hlong
  simp only [Option.bind_eq_bind,Option.bind_eq_some_iff,Prod.exists,ipv4Check_eq_some,
    udpCheck_eq_some] at h
  obtain ⟨header,content,⟨options,trailing,ip⟩,udp,payload,framed,h⟩ := h
  have hprotocol : header.protocol=17 := by
    rw [ip.packet_eq,Ipv4Header.getD_protocol] at hlong
    exact not_not.mp (not_or.mp hlong).2
  split at h
  · cases h
  · cases h
    exact ⟨udp,_,.ipv4 ip hprotocol framed⟩

theorem fromIpv6_framed {o : Options} {packet : Bytes} {s : Submission}
    (h : fromIpv6 o packet=some s) : ∃ udp t, Framed o packet udp s t := by
  rw [fromIpv6] at h
  split at h
  · cases h
  rename_i henabled
  split at h
  · cases h
  rename_i hlong
  simp only [Option.bind_eq_bind,Option.bind_eq_some_iff,Prod.exists,ipv6Check_eq_some,
    udpCheck_eq_some] at h
  obtain ⟨header,content,⟨trailing,ip⟩,udp,payload,framed,h⟩ := h
  have hnext : header.nextHeader=17 := by
    rw [ip.packet_eq,Ipv6Header.getD_nextHeader] at hlong
    exact not_not.mp (not_or.mp hlong).2
  split at h
  · cases h
  · cases h
    exact ⟨udp,_,.ipv6 (eq_true_of_ne_false henabled) ip hnext framed⟩

/-- Only packets that carry a datagram are taken from lwIP. -/
theorem process_framed {o : Options} {packet : Bytes} {s : Submission}
    (h : processDeviceUdpPacket o packet=some s) : ∃ udp t, Framed o packet udp s t := by
  rw [processDeviceUdpPacket] at h
  split at h
  · cases h
  simp only [Option.bind_eq_bind,Option.bind_eq_some_iff] at h
  obtain ⟨s',hfrom,h⟩ := h
  split at h
  · cases h
  cases h
  simp only [fromIp] at hfrom
  split at hfrom
  · exact fromIpv4_framed hfrom
  split at hfrom
  · exact fromIpv6_framed hfrom
  · cases hfrom

/-- Exactly the packets are submitted to the relay that carry a datagram of acceptable size in a
well-formed IPv4 packet with a verified header or in an IPv6 packet, if the checksum of the
datagram verifies and is not `0xFFFF`. Every one of them is submitted with the addresses and the
payload that it carries. -/
theorem accepted_iff (o : Options) (packet : Bytes) (s : Submission) :
    processDeviceUdpPacket o packet=some s ↔ o.udpgw=true ∧ s.data.length≤o.udpMtu ∧
      ∃ udp t, Framed o packet udp s t ∧ Verifies (t+ntoh16 udp.checksum) ∧
        ntoh16 udp.checksum≠65535 := by
  constructor
  · intro h
    obtain ⟨udp,t,hframed⟩ := process_framed h
    rw [hframed.process] at h
    split at h
    · rename_i hall
      exact ⟨hall.1,hall.2.1,udp,t,hframed,
        (complement_iff _ hframed.sum_pos hframed.sum_lt).mp hall.2.2⟩
    · cases h
  · rintro ⟨hgw,hsize,udp,t,hframed,hverifies⟩
    rw [hframed.process,if_pos]
    exact ⟨hgw,hsize,(complement_iff _ hframed.sum_pos hframed.sum_lt).mpr hverifies⟩

/-- The branch for IPv6 never raises `udp_mtu`. -/
theorem Options.udpMtu_eq (o : Options) : o.udpMtu=o.mtu-28 := by
  have hdead : ¬(o.netifIp6addr=true ∧ (o.mtu : ℤ)-28<o.mtu-48) := by omega
  simp only [Options.udpMtu,if_neg hdead]
  split <;> omega

theorem ntoh16_hton16_of_lt {n : ℕ} (h : n<65536) : ntoh16 (hton16 n)=n := by
  rw [ntoh16_hton16,Nat.mod_eq_of_lt h]

/-- A datagram that is put into an IPv4 packet is found there. -/
theorem ipv4PacketWith_framed (o : Options) (checksum : Octets 2) (source destination : Octets 4)
    (sourcePort destPort : Octets 2) (data : Bytes) (hsize : data.length≤65507) :
    Framed o (ipv4PacketWith checksum source destination sourcePort destPort data)
      ((replyUdpHeader sourcePort destPort data).withChecksum checksum) {
        localAddr := .ipv4 source sourcePort
        remoteAddr := .ipv4 destination destPort
        isDns := o.dnsgw && decide (destPort=hton16 53)
        data := data }
      (udpSum source.bytes destination.bytes (replyUdpHeader sourcePort destPort data) data) := by
  let iph := replyIpv4Header source destination data
  let udph := (replyUdpHeader sourcePort destPort data).withChecksum checksum
  have hversion : (69 : UInt8).toNat/16=4 := by decide
  have hihl : (69 : UInt8).toNat%16*4=20 := by decide
  have hnil : ([] : Bytes).length%2=0 := rfl
  have hchecked := (ipv4Checksum_iff (iph.withChecksum (ipv4Checksum iph [])) hnil
    (Nat.zero_le 40) (show 0<(69 : UInt8).toNat by decide)).mp rfl
  have hip : Ipv4Framed (ipv4PacketWith checksum source destination sourcePort destPort data)
      (iph.withChecksum (ipv4Checksum iph [])) [] (udph.bytes++data) [] := by
    refine ⟨by simp [ipv4PacketWith,iph,udph],hversion,hihl,?_,hchecked.1,hchecked.2⟩
    have htotal : ntoh16 (hton16 (28+data.length))=28+data.length := ntoh16_hton16_of_lt (by omega)
    rw [List.length_append,UdpHeader.length_bytes,List.length_nil]
    exact htotal.trans (by omega)
  have hudp : UdpFramed (udph.bytes++data) udph data :=
    ⟨[],by rw [List.append_nil],ntoh16_hton16_of_lt (by omega)⟩
  exact .ipv4 hip rfl hudp

/-- A datagram that is put into an IPv6 packet is found there. -/
theorem ipv6Packet_framed {o : Options} (henabled : o.netifIp6addr=true) (source destination : Octets 16)
    (sourcePort destPort : Octets 2) (data : Bytes) (hsize : data.length≤65527) :
    Framed o (ipv6Packet source destination sourcePort destPort data)
      ((replyUdpHeader sourcePort destPort data).withChecksum
        (udpIp6Checksum (replyUdpHeader sourcePort destPort data) data source destination)) {
        localAddr := .ipv6 source sourcePort
        remoteAddr := .ipv6 destination destPort
        isDns := false
        data := data }
      (udpSum source.bytes destination.bytes (replyUdpHeader sourcePort destPort data) data) := by
  let udph := (replyUdpHeader sourcePort destPort data).withChecksum
    (udpIp6Checksum (replyUdpHeader sourcePort destPort data) data source destination)
  have hversion : (96 : UInt8).toNat/16=6 := by decide
  have hlength : ntoh16 (hton16 (8+data.length))=8+data.length := ntoh16_hton16_of_lt (by omega)
  have hip : Ipv6Framed (ipv6Packet source destination sourcePort destPort data)
      (replyIpv6Header source destination data) (udph.bytes++data) [] := by
    refine ⟨by simp [ipv6Packet,udph],hversion,?_⟩
    rw [List.length_append,UdpHeader.length_bytes]
    exact hlength
  have hudp : UdpFramed (udph.bytes++data) udph data := ⟨[],by rw [List.append_nil],hlength⟩
  exact .ipv6 henabled hip rfl hudp

/-- What a sender writes: the complement, and `0xFFFF` instead of zero. -/
def standardChecksum (t : ℕ) : ℕ := if fold t=65535 then 65535 else 65535-fold t

/-- Of the datagrams with a checksum as senders write it, those whose words add up to a multiple
of `65535` are refused, since the checksum is then `0xFFFF`. Of the IPv4 datagrams without a
checksum, which are legal, only those are accepted. -/
theorem standard_checksum_accepted_iff {o : Options} {packet : Bytes} {udp : UdpHeader}
    {s : Submission} {t : ℕ} (hframed : Framed o packet udp s t) (hgw : o.udpgw=true)
    (hsize : s.data.length≤o.udpMtu) :
    (ntoh16 udp.checksum=standardChecksum t →
      processDeviceUdpPacket o packet=if t%65535=0 then none else some s) ∧
    (ntoh16 udp.checksum=0 →
      processDeviceUdpPacket o packet=if t%65535=0 then some s else none) := by
  have hcomplement := complement_iff udp.checksum hframed.sum_pos hframed.sum_lt
  have hmax := fold_eq_max hframed.sum_pos
  have hlt := fold_lt t
  have hmod := fold_mod t
  have hpos := fold_pos hframed.sum_pos
  have htotal := fold_eq_max (t:=t+ntoh16 udp.checksum) (by have := hframed.sum_pos; omega)
  rw [Verifies,htotal] at hcomplement
  rw [hframed.process]
  constructor
  · intro hstandard
    rw [standardChecksum] at hstandard
    by_cases hzero : t%65535=0
    · rw [if_pos (hmax.mpr hzero)] at hstandard
      rw [if_pos hzero,if_neg]
      exact fun hall => (hcomplement.mp hall.2.2).2 hstandard
    · rw [if_neg (fun h => hzero (hmax.mp h))] at hstandard
      rw [if_neg hzero,if_pos]
      exact ⟨hgw,hsize,hcomplement.mpr ⟨by omega,by omega⟩⟩
  · intro hnone
    by_cases hzero : t%65535=0
    · rw [if_pos hzero,if_pos]
      exact ⟨hgw,hsize,hcomplement.mpr ⟨by omega,by omega⟩⟩
    · rw [if_neg hzero,if_neg]
      intro hall
      have hsum := (hcomplement.mp hall.2.2).1
      rw [hnone] at hsum
      exact hzero hsum

/-- A relay with transparent DNS on a device with an MTU of 1500. -/
def sampleOptions : Options := ⟨true,true,true,1500⟩

/-- `10.0.0.2`. -/
def sampleLocalIp : Octets 4 := ⟨[10,0,0,2],length_quad _ _ _ _⟩

/-- `8.8.8.8`. -/
def sampleRemoteIp : Octets 4 := ⟨[8,8,8,8],length_quad _ _ _ _⟩

/-- A datagram whose words add up to `65535`, with the checksum that senders write for it. -/
def samplePacket : Bytes :=
  ipv4PacketWith (hton16 65535) sampleLocalIp sampleRemoteIp (hton16 5000) (hton16 53) [210,11]

theorem standard_checksum_accepted_iff_sample :
    processDeviceUdpPacket sampleOptions samplePacket=none := by
  have hframed := ipv4PacketWith_framed sampleOptions (hton16 65535) sampleLocalIp sampleRemoteIp
    (hton16 5000) (hton16 53) [210,11] (by decide)
  have hsum : udpSum sampleLocalIp.bytes sampleRemoteIp.bytes
      (replyUdpHeader (hton16 5000) (hton16 53) [210,11]) [210,11]=65535 := by decide
  rw [hsum] at hframed
  have hsize : [210,11].length≤ sampleOptions.udpMtu := by decide
  have hrefused := (standard_checksum_accepted_iff hframed rfl hsize).1 (by decide)
  rwa [if_pos (by decide)] at hrefused

/-- What a sent packet is read as. -/
def ReadsBack (o : Options) (localAddr remoteAddr : BAddr) (data packet : Bytes) : Prop :=
  packet.length≤o.mtu ∧ ∃ s, processDeviceUdpPacket o packet=some s ∧
    s.localAddr=remoteAddr ∧ s.remoteAddr=localAddr ∧ s.data=data

theorem ipv4Packet_readsBack {o : Options} (localIp remoteIp : Octets 4)
    (localPort remotePort : Octets 2) {data : Bytes} (hgw : o.udpgw=true)
    (hfits : ¬(65535-28<data.length ∨ o.mtu<data.length+28)) :
    ReadsBack o (.ipv4 localIp localPort) (.ipv4 remoteIp remotePort) data
      (ipv4Packet remoteIp localIp remotePort localPort data) := by
  have hmtu := o.udpMtu_eq
  have hframed := ipv4PacketWith_framed o
    (udpChecksum (replyUdpHeader remotePort localPort data) data remoteIp localIp) remoteIp localIp
    remotePort localPort data (by omega)
  have hsize : data.length≤o.udpMtu := by omega
  refine ⟨?_,_,by rw [ipv4Packet,hframed.process,if_pos ⟨hgw,hsize,udpChecksum_eq (by omega)⟩],
    rfl,rfl,rfl⟩
  simp only [ipv4Packet,ipv4PacketWith,List.length_append,Ipv4Header.length_bytes,UdpHeader.length_bytes]
  omega

theorem ipv6Packet_readsBack {o : Options} (localIp remoteIp : Octets 16)
    (localPort remotePort : Octets 2) {data : Bytes} (hgw : o.udpgw=true)
    (henabled : o.netifIp6addr=true) (hfits : ¬(65535-8<data.length ∨ o.mtu<data.length+48)) :
    ReadsBack o (.ipv6 localIp localPort) (.ipv6 remoteIp remotePort) data
      (ipv6Packet remoteIp localIp remotePort localPort data) := by
  have hmtu := o.udpMtu_eq
  have hframed := ipv6Packet_framed henabled remoteIp localIp remotePort localPort data (by omega)
  have hsize : data.length≤o.udpMtu := by omega
  refine ⟨?_,_,by rw [hframed.process,if_pos ⟨hgw,hsize,udpIp6Checksum_eq (by omega)⟩],rfl,rfl,rfl⟩
  simp only [ipv6Packet,List.length_append,Ipv6Header.length_bytes,UdpHeader.length_bytes]
  omega

/-- Every packet that is written to the device fits into its MTU, and read back as a packet of an
application it is the same datagram from the peer to the application. -/
theorem received_readsBack {o : Options} {localAddr remoteAddr : BAddr} {data packet : Bytes}
    (h : udpgwClientHandlerReceived o localAddr remoteAddr data=.ok (some packet)) :
    ReadsBack o localAddr remoteAddr data packet := by
  rw [udpgwClientHandlerReceived,demand_bind_eq_ok] at h
  obtain ⟨hgw,h⟩ := h
  cases localAddr with
  | ipv4 localIp localPort =>
    cases remoteAddr with
    | ipv4 remoteIp remotePort =>
      rw [packetForDevice] at h
      split at h
      · cases h
      · rename_i hfits
        cases h
        exact ipv4Packet_readsBack localIp remoteIp localPort remotePort hgw hfits
    | ipv6 remoteIp remotePort => cases h
  | ipv6 localIp localPort =>
    cases remoteAddr with
    | ipv4 remoteIp remotePort => cases h
    | ipv6 remoteIp remotePort =>
      rw [packetForDevice] at h
      split at h
      · cases h
      split at h
      · cases h
      · rename_i henabled hfits
        cases h
        exact ipv6Packet_readsBack localIp remoteIp localPort remotePort hgw
          (eq_true_of_ne_false henabled) hfits

end ProxyDroid.UdpDatagrams
