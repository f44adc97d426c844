import ProxyDroid.DescriptorHandover
import ProxyDroid.TunnelArguments

/-!
# The start of the tunnel process

`main` of `tun2socks` up to its event loop. It reads the command line, sets the logger up,
resolves the addresses, initializes the reactor and the signal handler, receives the descriptor
of the VPN on a Unix socket and makes a device of it. What fails on the way leads to one of the
labels that free what has been initialized so far; `BReactor_Free` asserts that no descriptor
and no job is left. The process comes to its event loop, ends with a message, or faults, and
which of them happens is determined by the command line and by what the host answers.
-/

namespace ProxyDroid.TunnelStart

open ConnectionTypes (Bytes)
open SocksClient (Octets BAddr AuthInfo)
open UdpDatagrams (hton16 processDeviceUdpPacket)
open DescriptorHandover (Recvmsg ancilRecvFd)
open TunnelArguments

/-- What the process asks its host for. -/
structure Host where
  /-- `getaddrinfo` for `AF_INET`. -/
  inet : String → Option (Octets 4)
  /-- `getaddrinfo` for `AF_INET6`. -/
  inet6 : String → Option (Octets 16)
  /-- `ipaddr6_parse_ipv6_addr`. -/
  parseIpv6 : String → Option (Octets 16)
  /-- `read_file`. -/
  readFile : String → Option Bytes
  /-- `daemonize` returns, which it does in the child process only. -/
  daemonize : String → Bool
  /-- `BNetwork_GlobalInit`. -/
  network : Bool
  /-- `BReactor_Init`. -/
  reactor : Bool
  /-- `BSignal_Init`. -/
  signal : Bool
  /-- `socket`. -/
  socket : Bool
  /-- `bind` to a path. -/
  bind : String → Bool
  /-- `listen`. -/
  listen : Bool
  /-- The turns of the loop around `accept`: `accept` fails, or `recvmsg` is called. -/
  connections : List (Option Recvmsg)
  /-- `fcntl` and `BReactor_AddFileDescriptor` for the descriptor of the device. -/
  watch : ℤ → Bool
  /-- `BAlloc` for the buffer of packets from the device. -/
  readBuffer : ℤ → Bool
  /-- `BAlloc` for the buffer of packets to the device. -/
  writeBuffer : ℤ → Bool

/-- `BIPAddr`. -/
inductive BIPAddr where
  | ipv4 (ip : Octets 4)
  | ipv6 (ip : Octets 16)

/-- `BIPAddr_Resolve`. A name is at most `BADDR_MAX_ADDR_LEN` long. -/
def bipaddrResolve (host : Host) (str : String) : Option BIPAddr :=
  let s := str.toList
  if s.head?=some '[' ∧ s.getLast?=some ']' then
    if 128< s.tail.dropLast.length then none
    else (host.inet6 (String.ofList s.tail.dropLast)).map .ipv6
  else if 128< s.length then none
  else (host.inet str).map .ipv4

/-- The port of an address, in network byte order. -/
def parsePort (abi : Abi) (s : List Char) : Option (Octets 2) :=
  let res := strtol abi s
  if 6≤ s.length then none
  else if s=[] ∨ res.2≠[] then none
  else if res.1<0 ∨ 65535< res.1 then none
  else some (hton16 res.1.toNat)

/-- `BAddr_Parse2` of an IPv6 address behind its opening bracket. -/
def parseInet6 (abi : Abi) (host : Host) (s : List Char) : Option BAddr :=
  let name := s.takeWhile (· ≠ ']')
  match s.dropWhile (· ≠ ']') with
  | _ :: ':' :: port => do
    if 128≤name.length then none
    else
      let port ← parsePort abi port
      let ip ← host.inet6 (String.ofList name)
      some (.ipv6 ip port)
  | _ => none

/-- `BAddr_Parse2` of an IPv4 address. -/
def parseInet (abi : Abi) (host : Host) (s : List Char) : Option BAddr :=
  let name := s.takeWhile (· ≠ ':')
  match s.dropWhile (· ≠ ':') with
  | _::port => do
    if 128≤name.length then none
    else
      let port ← parsePort abi port
      let ip ← host.inet (String.ofList name)
      some (.ipv4 ip port)
  | [] => none

/-- `BAddr_Parse2`. -/
def baddrParse2 (abi : Abi) (host : Host) (str : String) : Option BAddr :=
  if str.toList.length<1 ∨ 1000< str.toList.length then none
  else if str.toList.head?=some '[' then parseInet6 abi host str.toList.tail
  else parseInet abi host str.toList

/-- Why the process does not come to its event loop. -/
inductive Ended where
  /-- A null pointer is used, an object is written past its end or an assertion fails. -/
  | fault
  /-- The process ends with a message. -/
  | message (text : String)
  /-- `daemonize` ends the process. -/
  | exited
  deriving DecidableEq

/-- The use of a string that may be null. -/
def used : Option String → Except Ended String
  | none => .error .fault
  | some str => .ok str

/-- An address of the interface. -/
def netifAddress (host : Host) (what : String) (given : Option String) :
    Except Ended (Octets 4) := do
  let str ← used given
  match bipaddrResolve host str with
  | none => .error (.message (what++": BIPAddr_Resolve failed"))
  | some (.ipv6 _) => .error (.message (what++": must be an IPv4 address"))
  | some (.ipv4 ip) => .ok ip

/-- An address with a port. -/
def serverAddress (abi : Abi) (host : Host) (what str : String) : Except Ended BAddr :=
  match baddrParse2 abi host str with
  | none => .error (.message (what++": BAddr_Parse2 failed"))
  | some addr => .ok addr

/-- The IPv6 address of the interface. -/
def netifIp6Address (host : Host) : Option String → Except Ended (Option (Octets 16))
  | none => .ok none
  | some str =>
    match host.parseIpv6 str with
    | none => .error (.message "netif ip6addr: incorrect")
    | some ip => .ok (some ip)

/-- The bytes of a C string, one for each character. -/
def cstring (str : String) : Bytes := str.toList.map (fun c => UInt8.ofNat c.toNat)

/-- The password that goes with a user name. -/
def passwordOf (host : Host) (o : Options) : Except Ended Bytes :=
  match o.password with
  | some password => .ok (cstring password)
  | none => do
    let file ← used o.passwordFile
    match host.readFile file with
    | none => .error (.message "failed to read password file")
    | some contents => .ok contents

/-- `socks_auth_info`. -/
def socksAuthInfo (host : Host) (o : Options) : Except Ended (List AuthInfo) :=
  match o.username with
  | none => .ok [AuthInfo.none]
  | some username => do
    let password ← passwordOf host o
    .ok [AuthInfo.none,AuthInfo.password (cstring username) password]

/-- The address of the UDP relay. -/
def udpgwAddress (abi : Abi) (host : Host) : Option String → Except Ended (Option BAddr)
  | none => .ok none
  | some str => some <$> serverAddress abi host "udprelay server addr" str

/-- The address DNS queries are sent to. -/
def dnsgwAddress (abi : Abi) (host : Host) : Option String → Except Ended (Option BAddr)
  | none => .ok none
  | some str => do
    match ← serverAddress abi host "dnsgw addr" str with
    | .ipv4 ip port => .ok (some (.ipv4 ip port))
    | .ipv6 _ _ => .error (.message "dnsgw addr: must be an IPv4 address")

/-- What `process_arguments` leaves in the global variables. -/
structure Config where
  netifIpaddr : Octets 4
  netifNetmask : Octets 4
  netifIp6addr : Option (Octets 16)
  socksServerAddr : BAddr
  socksAuthInfo : List AuthInfo
  udpgwRemoteServerAddr : Option BAddr
  dnsgw : Option BAddr
  deriving DecidableEq

/-- `process_arguments`. -/
def processArguments (abi : Abi) (host : Host) (o : Options) : Except Ended Config := do
  let netifIpaddr ← netifAddress host "netif ipaddr" o.netifIpaddr
  let netifNetmask ← netifAddress host "netif netmask" o.netifNetmask
  let netifIp6addr ← netifIp6Address host o.netifIp6addr
  let socksServerAddr ← used o.socksServerAddr >>= serverAddress abi host "socks server addr"
  let socksAuthInfo ← socksAuthInfo host o
  let udpgwRemoteServerAddr ← udpgwAddress abi host o.udpgwRemoteServerAddr
  let dnsgw ← dnsgwAddress abi host o.dnsgw
  .ok ⟨netifIpaddr,netifNetmask,netifIp6addr,socksServerAddr,socksAuthInfo,udpgwRemoteServerAddr,
    dnsgw⟩

/-- `BLog_SetChannelLoglevel` with its assertions. -/
def setChannelLoglevel (levels : List ℤ) (channel : ℕ) (level : ℤ) : Except Ended (List ℤ) :=
  if channel< levels.length ∧ 0≤level ∧ level≤5 then .ok (levels.set channel level)
  else .error .fault

/-- One turn of the loop that configures the logger channels; `options.loglevels` has a level
for each channel. -/
def configureChannel (o : Options) (levels : List ℤ) (channel : ℕ) : Except Ended (List ℤ) :=
  match o.loglevels[channel]? with
  | none => .error .fault
  | some own =>
    if 0≤own then setChannelLoglevel levels channel own
    else if 0≤o.loglevel then setChannelLoglevel levels channel o.loglevel
    else .ok levels

/-- The loop over the logger channels. -/
def configureChannels (o : Options) (levels : List ℤ) : Except Ended (List ℤ) :=
  (List.range levels.length).foldlM (configureChannel o) levels

/-- What is registered with the reactor. -/
structure Reactor where
  /-- The descriptor of the signal handler. -/
  signalFd : Bool
  /-- The descriptor of the device. -/
  deviceFd : Bool
  /-- The job that receives a packet of the device. -/
  recvJob : Bool
  /-- The job that initializes lwIP. -/
  lwipJob : Bool
  deriving DecidableEq

/-- `BReactor_Init`. -/
def Reactor.init : Reactor := ⟨false,false,false,false⟩

/-- The label `fail2`. `BReactor_Free` asserts that neither descriptors nor jobs are left. -/
def Reactor.fail2 (r : Reactor) (text : String) : Ended :=
  if r=.init then .message text else .fault

/-- The label `fail3`, with `BSignal_Finish`. -/
def Reactor.fail3 (r : Reactor) (text : String) : Ended := {r with signalFd:=false}.fail2 text

/-- The label `fail4`, with `BTap_Free`. -/
def Reactor.fail4 (r : Reactor) (text : String) : Ended :=
  {r with deviceFd:=false,recvJob:=false}.fail3 text

/-- The label `fail5`, with `BPending_Free` of the job of lwIP. -/
def Reactor.fail5 (r : Reactor) (text : String) : Ended := {r with lwipJob:=false}.fail4 text

/-- The name `--fake-proc` gives to the process. -/
def fakeName : String := "com.github.shadowsocks"

/-- `strcpy` of that name over a shorter `argv[0]`. -/
def Overruns (program : String) (o : Options) : Prop :=
  o.fakeProc=true ∧ (cstring program).length<(cstring fakeName).length

instance (program : String) (o : Options) : Decidable (Overruns program o) :=
  inferInstanceAs (Decidable (_ ∧ _))

/-- The names `resolve_facility` knows. -/
def facilities : List String :=
  ["authpriv","cron","daemon","ftp","local0","local1","local2","local3","local4","local5",
    "local6","local7","lpr","mail","news","syslog","user","uucp"]

/-- The logger is initialized; `BLog_InitSyslog` fails for an unknown facility. -/
def initLogger (o : Options) : Except Ended Unit :=
  match o.logger with
  | .stdout => .ok ()
  | .syslog =>
    if o.loggerSyslogFacility∈facilities then .ok ()
    else .error (.message "Failed to initialize syslog logger\n")

/-- The process goes to the background with `--pid`. -/
def detach (host : Host) (o : Options) : Except Ended Unit :=
  match o.pid with
  | none => .ok ()
  | some path => if host.daemonize path=true then .ok () else .error .exited

/-- A call that succeeds or leads to the label `fail1`. -/
def succeeds (result : Bool) (text : String) : Except Ended Unit :=
  if result=true then .ok () else .error (.message text)

/-- `main` from the logger to the signal handler: the configuration and the log levels. -/
def prepare (host : Host) (build : Build) (o : Options) : Except Ended (Config×List ℤ) := do
  initLogger o
  let levels ← configureChannels o (build.channels.map Prod.snd)
  detach host o
  succeeds host.network "BNetwork_GlobalInit failed"
  let config ← processArguments build.abi host o
  succeeds host.reactor "BReactor_Init failed"
  succeeds host.signal "BSignal_Init failed"
  .ok (config,levels)

/-- The path of the socket; `strncpy` leaves room for the end of the string. -/
def socketPath (o : Options) : String :=
  String.ofList ((o.sockPath.getD "/data/data/me.bwelco.demo/sock_path").toList.take 107)

/-- The loop around `accept`: the first descriptor that is received, if there is one. -/
def receive : List (Option Recvmsg) → Option ℤ
  | [] => none
  | none::rest => receive rest
  | some result::rest =>
    match ancilRecvFd result with
    | none => receive rest
    | some fd => some fd

/-- The socket on which the descriptor is received. What fails leads to the label `fail2`. -/
def connect (host : Host) (o : Options) : Except Ended (Option ℤ) :=
  let r : Reactor := {Reactor.init with signalFd:=true}
  if host.socket=false then .error (r.fail2 "socket() failed")
  else if host.bind (socketPath o)=false then .error (r.fail2 "bind() failed")
  else if host.listen=false then .error (r.fail2 "listen() failed")
  else .ok (receive host.connections)

/-- `main` from `BTap_Init2`, with its assertions, to the event loop. -/
def openDevice (host : Host) (o : Options) (fd : ℤ) : Except Ended Unit :=
  let r : Reactor := {Reactor.init with signalFd:=true}
  if fd<0 ∨ o.tunMtu<0 then .error .fault
  else if host.watch fd=false then .error (r.fail3 "BTap_Init2 failed")
  else
    let r := {r with deviceFd:=true}
    if host.readBuffer o.tunMtu=false then .error (r.fail4 "SinglePacketBuffer_Init failed")
    else
      let r := {r with recvJob:=true}
      if o.device.TooLarge then .error (r.fail4 "device MTU is too large for UDP")
      else if host.writeBuffer o.tunMtu=false then
        .error ({r with lwipJob:=true}.fail5 "BAlloc failed")
      else .ok ()

/-- The process in its event loop. -/
structure Tunnel where
  /-- The options. -/
  options : Options
  /-- What has become of its addresses. -/
  config : Config
  /-- The levels of the logger channels. -/
  levels : List ℤ
  /-- The descriptor of the device. -/
  fd : ℤ

/-- How far `main` comes. -/
inductive Started where
  /-- Help or the version has been printed. -/
  | printed
  /-- The process waits for a connection on its socket. -/
  | waits
  /-- The event loop is entered. -/
  | runs (tunnel : Tunnel)

/-- `main` behind its command line. -/
def enter (host : Host) (build : Build) (o : Options) : Except Ended Started := do
  let (config,levels) ← prepare host build o
  match ← connect host o with
  | none => .ok .waits
  | some fd =>
    openDevice host o fd
    .ok (.runs ⟨o,config,levels,fd⟩)

/-- `main` up to its event loop. -/
def start (host : Host) (build : Build) : List String → Except Ended Started
  | [] => .error (.message "")
  | program::args =>
    match parseArguments build (program::args) with
    | .error text => .error (.message text)
    | .ok o =>
      if Overruns program o then .error .fault
      else if o.help=true ∨ o.version=true then .ok .printed
      else enter host build o

/-- The computation does not end with a fault. -/
def NoFault {α : Type} (e : Except Ended α) : Prop := e≠.error .fault

theorem noFault_ok {α : Type} {a : α} : NoFault (.ok a : Except Ended α) := by
  intro h
  cases h

theorem noFault_message {α : Type} {text : String} :
    NoFault (.error (.message text) : Except Ended α) := by
  intro h
  cases h

theorem NoFault.bind {α β : Type} {e : Except Ended α} {f : α → Except Ended β} (he : NoFault e)
    (hf : ∀ a, NoFault (f a)) : NoFault (e >>= f) := by
  cases e with
  | ok a => exact hf a
  | error ended =>
    intro h
    cases h
    exact he rfl

theorem used_noFault {given : Option String} (h : given≠none) : NoFault (used given) := by
  cases given with
  | none => exact absurd rfl h
  | some str => exact noFault_ok

theorem netifAddress_noFault (host : Host) (what : String) {given : Option String}
    (h : given≠none) : NoFault (netifAddress host what given) := by
  refine (used_noFault h).bind (fun str => ?_)
  split
  · exact noFault_message
  · exact noFault_message
  · exact noFault_ok

theorem serverAddress_noFault (abi : Abi) (host : Host) (what str : String) :
    NoFault (serverAddress abi host what str) := by
  unfold serverAddress
  split
  · exact noFault_message
  · exact noFault_ok

theorem netifIp6Address_noFault (host : Host) (given : Option String) :
    NoFault (netifIp6Address host given) := by
  unfold netifIp6Address
  split
  · exact noFault_ok
  · split
    · exact noFault_message
    · exact noFault_ok

theorem passwordOf_noFault (host : Host) {o : Options}
    (h : o.password=none → o.passwordFile≠none) : NoFault (passwordOf host o) := by
  unfold passwordOf
  split
  · exact noFault_ok
  · rename_i hp
    refine (used_noFault (h hp)).bind (fun file => ?_)
    split
    · exact noFault_message
    · exact noFault_ok

theorem socksAuthInfo_noFault (host : Host) {o : Options}
    (h : o.username≠none → o.password=none → o.passwordFile≠none) :
    NoFault (socksAuthInfo host o) := by
  unfold socksAuthInfo
  split
  · exact noFault_ok
  · rename_i hu
    exact (passwordOf_noFault host (h (by rw [hu]; simp))).bind (fun _ => noFault_ok)

theorem udpgwAddress_noFault (abi : Abi) (host : Host) (given : Option String) :
    NoFault (udpgwAddress abi host given) := by
  unfold udpgwAddress
  split
  · exact noFault_ok
  · exact (serverAddress_noFault abi host _ _).bind (fun _ => noFault_ok)

theorem dnsgwAddress_noFault (abi : Abi) (host : Host) (given : Option String) :
    NoFault (dnsgwAddress abi host given) := by
  unfold dnsgwAddress
  split
  · exact noFault_ok
  · refine (serverAddress_noFault abi host _ _).bind (fun addr => ?_)
    split
    · exact noFault_ok
    · exact noFault_message

/-- What `parse_arguments` lets through has all that `process_arguments` uses. -/
theorem processArguments_noFault (abi : Abi) (host : Host) {o : Options} (hc : Complete o)
    (hrun : ¬(o.help=true ∨ o.version=true)) : NoFault (processArguments abi host o) := by
  have hneed := hc.resolve_left (fun h => hrun (.inl h)) |>.resolve_left (fun h => hrun (.inr h))
  obtain ⟨hip,hmask,hserver,huser⟩ := hneed
  refine (netifAddress_noFault host _ hip).bind (fun _ => ?_)
  refine (netifAddress_noFault host _ hmask).bind (fun _ => ?_)
  refine (netifIp6Address_noFault host _).bind (fun _ => ?_)
  refine ((used_noFault hserver).bind (serverAddress_noFault abi host _)).bind (fun _ => ?_)
  refine (socksAuthInfo_noFault host (fun hu => (huser hu).mp)).bind (fun _ => ?_)
  refine (udpgwAddress_noFault abi host _).bind (fun _ => ?_)
  exact (dnsgwAddress_noFault abi host _).bind (fun _ => noFault_ok)

/-- The level of a channel: its own one if it is given, else the common one, else the first. -/
def chosenLevel (common own old : ℤ) : ℤ :=
  if 0≤own then own else if 0≤common then common else old

/-- A turn of the loop gives its channel the chosen level. -/
theorem configureChannel_eq {channels channel : ℕ} {o : Options} {levels : List ℤ} {own old : ℤ}
    (hr : InRange channels o) (hown : o.loglevels[channel]?=some own)
    (hold : levels[channel]?=some old) :
    configureChannel o levels channel=.ok (levels.set channel (chosenLevel o.loglevel own old)) := by
  have hle : own≤5 := hr.levels own (List.mem_of_getElem? hown)
  obtain ⟨hlt,hget⟩ := List.getElem?_eq_some_iff.mp hold
  unfold configureChannel setChannelLoglevel chosenLevel
  simp only [hown]
  by_cases ho : 0≤own
  · rw [if_pos ho,if_pos ho,if_pos ⟨hlt,ho,hle⟩]
  · rw [if_neg ho,if_neg ho]
    by_cases hc : 0≤o.loglevel
    · rw [if_pos hc,if_pos hc,if_pos ⟨hlt,hc,hr.level⟩]
    · rw [if_neg hc,if_neg hc,←hget,List.set_getElem_self]

/-- Writing the next element over a list that has been replaced up to it. -/
theorem set_take_append_drop {old new : List ℤ} {n : ℕ} {x : ℤ} (hx : new[n]?=some x)
    (hold : n<old.length) : (new.take n++old.drop n).set n x=new.take (n+1)++old.drop (n+1) := by
  have hn : n<new.length := (List.getElem?_eq_some_iff.mp hx).1
  have hlen : (new.take n).length=n := List.length_take_of_le (Nat.le_of_lt hn)
  rw [List.set_append_right _ _ (by omega),hlen,Nat.sub_self,List.drop_eq_getElem_cons hold,
    List.set_cons_zero,List.take_add_one,hx,Option.toList_some,List.append_assoc,
    List.singleton_append]

/-- The loop over the first channels gives each of them its level. -/
theorem configure_range {channels : ℕ} {o : Options} {levels : List ℤ} (hr : InRange channels o)
    (hl : levels.length=channels) {n : ℕ} (hn : n≤channels) :
    (List.range n).foldlM (configureChannel o) levels=.ok
      ((List.zipWith (chosenLevel o.loglevel) o.loglevels levels).take n++ levels.drop n) := by
  induction n with
  | zero => rfl
  | succ n ih =>
    obtain ⟨own,hown⟩ : ∃ own, o.loglevels[n]?=some own :=
      ⟨_,List.getElem?_eq_getElem (by rw [hr.length]; omega)⟩
    obtain ⟨old,hold⟩ : ∃ old, levels[n]?=some old := ⟨_,List.getElem?_eq_getElem (by omega)⟩
    have hchosen : (List.zipWith (chosenLevel o.loglevel) o.loglevels levels)[n]?=
        some (chosenLevel o.loglevel own old) := by
      rw [List.getElem?_zipWith,hown,hold]
    have hnow : ((List.zipWith (chosenLevel o.loglevel) o.loglevels levels).take n++
        levels.drop n)[n]?=some old := by
      have hlen : ((List.zipWith (chosenLevel o.loglevel) o.loglevels levels).take n).length=n := by
        rw [List.length_take,List.length_zipWith,hr.length,hl]
        omega
      rw [List.getElem?_append_right (by omega),hlen,List.getElem?_drop,Nat.sub_self,Nat.add_zero,
        hold]
    rw [List.range_succ,List.foldlM_append,ih (by omega)]
    change (List.foldlM (configureChannel o) _ [n])=_
    rw [List.foldlM_cons,configureChannel_eq hr hown hnow,
      set_take_append_drop hchosen (by omega)]
    rfl

/-- Each channel gets its own level, else the common one, and the assertions hold. -/
theorem configureChannels_eq {o : Options} {levels : List ℤ} (hr : InRange levels.length o) :
    configureChannels o levels=
      .ok (List.zipWith (chosenLevel o.loglevel) o.loglevels levels) := by
  have hz : (List.zipWith (chosenLevel o.loglevel) o.loglevels levels).length=levels.length := by
    rw [List.length_zipWith,hr.length,Nat.min_self]
  rw [configureChannels,configure_range hr rfl (Nat.le_refl _),List.drop_length,List.append_nil,
    ←hz,List.take_length]

/-- What has gone well when the process makes its socket. -/
structure Prepared (host : Host) (build : Build) (o : Options) (config : Config)
    (levels : List ℤ) : Prop where
  /-- The facility is known to syslog, if that is the logger. -/
  logger : o.logger=.syslog → o.loggerSyslogFacility∈facilities
  /-- Each channel has its own level, else the common one, else its first one. -/
  levels : levels=List.zipWith (chosenLevel o.loglevel) o.loglevels (build.channels.map Prod.snd)
  /-- The process is in the background, if that is asked for. -/
  detached : ∀ path, o.pid=some path → host.daemonize path=true
  /-- The network is initialized. -/
  network : host.network=true
  /-- The addresses are resolved. -/
  config : processArguments build.abi host o=.ok config
  /-- There is a reactor. -/
  reactor : host.reactor=true
  /-- Signals are handled. -/
  signal : host.signal=true

theorem initLogger_eq_ok {o : Options} :
    initLogger o=.ok () ↔ (o.logger=.syslog → o.loggerSyslogFacility∈facilities) := by
  unfold initLogger
  cases o.logger with
  | stdout => simp
  | syslog =>
    by_cases hf : o.loggerSyslogFacility∈facilities
    · simp [hf]
    · simp [hf]

theorem detach_eq_ok {host : Host} {o : Options} :
    detach host o=.ok () ↔ ∀ path, o.pid=some path → host.daemonize path=true := by
  unfold detach
  cases o.pid with
  | none => simp
  | some path => cases hd : host.daemonize path <;> simp [hd]

theorem succeeds_eq_ok {result : Bool} {text : String} :
    succeeds result text=.ok () ↔ result=true := by
  cases result <;> simp [succeeds]

theorem bind_eq_ok {α β : Type} {e : Except Ended α} {f : α → Except Ended β} {b : β} :
    e >>= f=.ok b ↔ ∃ a, e=.ok a ∧ f a=.ok b := by
  cases e with
  | ok a =>
    constructor
    · exact fun h => ⟨a,rfl,h⟩
    · rintro ⟨a',ha,hb⟩
      cases ha
      exact hb
  | error ended =>
    constructor
    · exact fun h => (by cases h)
    · rintro ⟨a,ha,-⟩
      cases ha

/-- The first part of `main` succeeds when each of its calls does. -/
theorem prepare_eq_ok {host : Host} {build : Build} {o : Options} {config : Config}
    {levels : List ℤ} (hr : InRange build.channels.length o) :
    prepare host build o=.ok (config,levels) ↔ Prepared host build o config levels := by
  have hchannels : configureChannels o (build.channels.map Prod.snd)=
      .ok (List.zipWith (chosenLevel o.loglevel) o.loglevels (build.channels.map Prod.snd)) :=
    configureChannels_eq (by rwa [List.length_map])
  unfold prepare
  simp only [bind_eq_ok,hchannels]
  constructor
  · rintro ⟨_,hlogger,_,hlevels,_,hdetach,_,hnetwork,_,hconfig,_,hreactor,_,hsignal,hpair⟩
    cases hlevels
    cases hpair
    exact ⟨initLogger_eq_ok.mp hlogger,rfl,detach_eq_ok.mp hdetach,succeeds_eq_ok.mp hnetwork,
      hconfig,succeeds_eq_ok.mp hreactor,succeeds_eq_ok.mp hsignal⟩
  · intro h
    exact ⟨(),initLogger_eq_ok.mpr h.logger,_,rfl,(),detach_eq_ok.mpr h.detached,(),
      succeeds_eq_ok.mpr h.network,config,h.config,(),succeeds_eq_ok.mpr h.reactor,(),
      succeeds_eq_ok.mpr h.signal,by rw [h.levels]⟩

theorem succeeds_noFault (result : Bool) (text : String) : NoFault (succeeds result text) := by
  unfold succeeds
  split_ifs
  · exact noFault_ok
  · exact noFault_message

/-- The first part of `main` does not fault on what `parse_arguments` lets through. -/
theorem prepare_noFault (host : Host) {build : Build} {o : Options}
    (hr : InRange build.channels.length o) (hc : Complete o)
    (hrun : ¬(o.help=true ∨ o.version=true)) : NoFault (prepare host build o) := by
  have hlogger : NoFault (initLogger o) := by
    unfold initLogger
    split
    · exact noFault_ok
    · split_ifs
      · exact noFault_ok
      · exact noFault_message
  have hchannels : NoFault (configureChannels o (build.channels.map Prod.snd)) := by
    rw [configureChannels_eq (by rwa [List.length_map])]
    exact noFault_ok
  have hdetach : NoFault (detach host o) := by
    unfold detach
    split
    · exact noFault_ok
    · split_ifs
      · exact noFault_ok
      · intro h
        cases h
  refine hlogger.bind (fun _ => hchannels.bind (fun _ => hdetach.bind (fun _ => ?_)))
  refine (succeeds_noFault _ _).bind (fun _ => ?_)
  refine (processArguments_noFault build.abi host hc hrun).bind (fun _ => ?_)
  refine (succeeds_noFault _ _).bind (fun _ => (succeeds_noFault _ _).bind (fun _ => ?_))
  exact noFault_ok

/-- The process listens on its socket. -/
def Listens (host : Host) (o : Options) : Prop :=
  host.socket=true ∧ host.bind (socketPath o)=true ∧ host.listen=true

instance (host : Host) (o : Options) : Decidable (Listens host o) :=
  inferInstanceAs (Decidable (_ ∧ _))

/-- A socket that cannot be made is a fault: `fail2` leaves the signal handler registered. -/
theorem connect_eq (host : Host) (o : Options) :
    connect host o=if Listens host o then .ok (receive host.connections) else .error .fault := by
  unfold connect Listens
  rcases Bool.eq_false_or_eq_true host.socket with hs|hs
  · rcases Bool.eq_false_or_eq_true (host.bind (socketPath o)) with hb|hb
    · rcases Bool.eq_false_or_eq_true host.listen with hl|hl
      · simp [hs,hb,hl]
      · simp [hs,hb,hl,Reactor.fail2,Reactor.init]
    · simp [hs,hb,Reactor.fail2,Reactor.init]
  · simp [hs,Reactor.fail2,Reactor.init]

/-- What the last part of `main` needs. -/
structure Opens (host : Host) (o : Options) (fd : ℤ) : Prop where
  /-- The descriptor can be one. -/
  valid : 0≤fd
  /-- It is watched. -/
  watched : host.watch fd=true
  /-- There is memory for packets from the device. -/
  readBuffer : host.readBuffer o.tunMtu=true
  /-- The relay takes packets of that size, if it is on. -/
  mtu : ¬o.device.TooLarge
  /-- There is memory for packets to the device. -/
  writeBuffer : host.writeBuffer o.tunMtu=true

/-- The last part of `main` succeeds when each of its calls does, and it faults for a negative
descriptor only: the labels behind `fail2` free all that is registered. -/
theorem openDevice_spec (host : Host) {o : Options} (hm : 0<o.tunMtu) (fd : ℤ) :
    (openDevice host o fd=.ok () ↔ Opens host o fd) ∧
      (openDevice host o fd=.error .fault ↔ fd<0) := by
  have hopens : Opens host o fd ↔ 0≤fd ∧ host.watch fd=true ∧ host.readBuffer o.tunMtu=true ∧
      ¬o.device.TooLarge ∧ host.writeBuffer o.tunMtu=true :=
    ⟨fun h => ⟨h.valid,h.watched,h.readBuffer,h.mtu,h.writeBuffer⟩,
      fun h => ⟨h.1,h.2.1,h.2.2.1,h.2.2.2.1,h.2.2.2.2⟩⟩
  rw [hopens]
  unfold openDevice
  by_cases hfd : fd<0
  · simp [hfd,Int.not_le.mpr hfd]
  · rw [if_neg (by omega)]
    have hpos : 0≤fd := by omega
    cases hw : host.watch fd with
    | false => simp [hfd,Reactor.fail3,Reactor.fail2,Reactor.init]
    | true =>
      cases hb : host.readBuffer o.tunMtu with
      | false => simp [hfd,Reactor.fail4,Reactor.fail3,Reactor.fail2,Reactor.init]
      | true =>
        by_cases ht : o.device.TooLarge
        · simp [hfd,ht,Reactor.fail4,Reactor.fail3,Reactor.fail2,Reactor.init]
        · cases hwb : host.writeBuffer o.tunMtu with
          | false =>
            simp [hfd,ht,Reactor.fail5,Reactor.fail4,Reactor.fail3,Reactor.fail2,Reactor.init]
          | true => simp [hfd,hpos,ht]

/-- The process faults behind the command line: its socket cannot be made, or the descriptor that
is received is negative. -/
def FaultsLate (host : Host) (build : Build) (o : Options) : Prop :=
  (∃ config levels, Prepared host build o config levels) ∧
    (¬Listens host o ∨ ∃ fd, receive host.connections=some fd ∧ fd<0)

/-- What the process needs behind its command line to come to its event loop. -/
structure Proceeds (host : Host) (build : Build) (t : Tunnel) : Prop where
  /-- All is set up. -/
  prepared : Prepared host build t.options t.config t.levels
  /-- The process listens. -/
  listens : Listens host t.options
  /-- A descriptor is received. -/
  received : receive host.connections=some t.fd
  /-- It is made the device. -/
  opens : Opens host t.options t.fd

/-- The process comes to its event loop. -/
structure Enters (host : Host) (build : Build) (argv : List String) (t : Tunnel) : Prop where
  /-- The command line is read. -/
  parsed : parseArguments build argv=.ok t.options
  /-- The name of the process can be written over. -/
  named : ∀ program∈argv.head?, ¬Overruns program t.options
  /-- Neither help nor the version is asked for. -/
  asked : ¬(t.options.help=true ∨ t.options.version=true)
  /-- All calls succeed. -/
  proceeds : Proceeds host build t

section Behind

variable {host : Host} {build : Build} {o : Options} (hr : InRange build.channels.length o)

include hr

/-- `main` behind its command line, when all is set up. -/
theorem enter_eq {config : Config} {levels : List ℤ} (h : Prepared host build o config levels) :
    enter host build o=
      if Listens host o then
        match receive host.connections with
        | none => .ok .waits
        | some fd => openDevice host o fd >>= fun _ => .ok (.runs ⟨o,config,levels,fd⟩)
      else .error .fault := by
  rw [enter,(prepare_eq_ok hr).mpr h]
  change (connect host o >>= _)=_
  rw [connect_eq]
  split_ifs
  · rfl
  · rfl

/-- The process behind its command line comes to its event loop when its calls succeed. -/
theorem enter_runs_iff {t : Tunnel} :
    enter host build o=.ok (.runs t) ↔ t.options=o ∧ Proceeds host build t := by
  constructor
  · intro h
    obtain ⟨⟨config,levels⟩,hprep,-⟩ := bind_eq_ok.mp h
    have hp := (prepare_eq_ok hr).mp hprep
    rw [enter_eq hr hp] at h
    by_cases hl : Listens host o
    · rw [if_pos hl] at h
      cases hc : receive host.connections with
      | none =>
        rw [hc] at h
        cases h
      | some fd =>
        rw [hc] at h
        obtain ⟨_,hopen,hruns⟩ := bind_eq_ok.mp h
        cases hruns
        exact ⟨rfl,hp,hl,hc,(openDevice_spec host hr.mtu fd).1.mp hopen⟩
    · rw [if_neg hl] at h
      cases h
  · rintro ⟨rfl,h⟩
    rw [enter_eq hr h.prepared,if_pos h.listens,h.received]
    exact bind_eq_ok.mpr ⟨(),(openDevice_spec host hr.mtu t.fd).1.mpr h.opens,rfl⟩

/-- The process behind its command line faults at its socket or at its device. -/
theorem enter_faults_iff (hc : Complete o) (hrun : ¬(o.help=true ∨ o.version=true)) :
    enter host build o=.error .fault ↔ FaultsLate host build o := by
  cases hprep : prepare host build o with
  | error ended =>
    have hno := prepare_noFault host hr hc hrun
    rw [hprep] at hno
    refine iff_of_false (fun h => hno ?_) (fun h => ?_)
    · rw [enter,hprep] at h
      cases h
      rfl
    · obtain ⟨⟨config,levels,hp⟩,-⟩ := h
      rw [(prepare_eq_ok hr).mpr hp] at hprep
      cases hprep
  | ok result =>
    obtain ⟨config,levels⟩ := result
    have hp := (prepare_eq_ok hr).mp hprep
    have hlate : FaultsLate host build o ↔
        (¬Listens host o ∨ ∃ fd, receive host.connections=some fd ∧ fd<0) :=
      and_iff_right ⟨config,levels,hp⟩
    rw [hlate,enter_eq hr hp]
    by_cases hl : Listens host o
    · rw [if_pos hl]
      cases hcon : receive host.connections with
      | none => simp [hl]
      | some fd =>
        have hspec := (openDevice_spec host hr.mtu fd).2
        have hbind : (openDevice host o fd >>= fun _ =>
            (.ok (.runs ⟨o,config,levels,fd⟩) : Except Ended Started))=.error .fault ↔
            openDevice host o fd=.error .fault := by
          cases openDevice host o fd with
          | ok u => exact iff_of_false (fun h => (by cases h)) (fun h => (by cases h))
          | error ended => exact ⟨fun h => (by cases h; rfl),fun h => (by cases h; rfl)⟩
        rw [hbind,hspec]
        simp [hl]
    · rw [if_neg hl]
      exact iff_of_true rfl (.inl hl)

end Behind

/-- On its way to the event loop the process uses a null pointer, writes an object past its end
or fails an assertion exactly when `--fake-proc` writes over a shorter name, or the socket for
the descriptor cannot be made, or the descriptor received on it is negative. It comes to its
event loop exactly when the command line is read and each call on the way succeeds. -/
theorem start_faults_iff (host : Host) (build : Build) (argv : List String) :
    (start host build argv=.error .fault ↔
      ∃ program args o, argv=program::args ∧ parseArguments build argv=.ok o ∧
        (Overruns program o ∨ ¬(o.help=true ∨ o.version=true) ∧ FaultsLate host build o)) ∧
    ∀ t, start host build argv=.ok (.runs t) ↔ Enters host build argv t := by
  cases argv with
  | nil =>
    refine ⟨iff_of_false (fun h => (by cases h)) ?_,fun t => iff_of_false (fun h => (by cases h))
      (fun h => (by cases h.parsed))⟩
    rintro ⟨program,args,o,hargv,-⟩
    cases hargv
  | cons program args =>
    cases hp : parseArguments build (program::args) with
    | error text =>
      rw [start,hp]
      refine ⟨iff_of_false (fun h => (by cases h)) ?_,fun t => iff_of_false (fun h => (by cases h))
        (fun h => ?_)⟩
      · rintro ⟨_,_,o,-,ho,-⟩
        cases ho
      · have hparsed := h.parsed
        rw [hp] at hparsed
        cases hparsed
    | ok o =>
      have hr := parsed_inRange hp
      obtain ⟨-,-,-,-,hc⟩ := parses_iff.mp hp
      have hexists : (∃ program' args' o', program::args=program'::args' ∧
          (.ok o : Except String Options)=.ok o' ∧ (Overruns program' o' ∨
            ¬(o'.help=true ∨ o'.version=true) ∧ FaultsLate host build o')) ↔
          (Overruns program o ∨ ¬(o.help=true ∨ o.version=true) ∧ FaultsLate host build o) := by
        constructor
        · rintro ⟨_,_,_,ha,ho,h⟩
          cases ha
          cases ho
          exact h
        · exact fun h => ⟨program,args,o,rfl,rfl,h⟩
      have henters : ∀ t, Enters host build (program::args) t ↔ ¬Overruns program o ∧
          ¬(o.help=true ∨ o.version=true) ∧ t.options=o ∧ Proceeds host build t := by
        intro t
        constructor
        · intro h
          have ho : o=t.options := by
            have hparsed := h.parsed
            rw [hp] at hparsed
            cases hparsed
            rfl
          subst ho
          exact ⟨h.named program rfl,h.asked,rfl,h.proceeds⟩
        · rintro ⟨hnamed,hasked,rfl,hproceeds⟩
          refine ⟨hp,fun name hname => ?_,hasked,hproceeds⟩
          cases hname
          exact hnamed
      rw [hexists,start,hp]
      simp only [henters]
      by_cases hover : Overruns program o
      · simp [hover]
      · by_cases hrun : o.help=true ∨ o.version=true
        · simp [hover,hrun]
        · simp only [hover,hrun,if_false,not_false_iff,true_and,false_or]
          exact ⟨enter_faults_iff hr hc hrun,fun t => enter_runs_iff hr⟩

/-- The address of the interface in the process. -/
def netifIp : Octets 4 := ⟨[172,19,0,2],rfl⟩

/-- The mask of the interface. -/
def netifMask : Octets 4 := ⟨[255,255,255,0],rfl⟩

/-- The loopback address. -/
def loopback : Octets 4 := ⟨[127,0,0,1],rfl⟩

/-- `getaddrinfo` takes the numeric addresses of the service for what they are. -/
structure Numeric (host : Host) : Prop where
  netif : host.inet "172.19.0.2"=some netifIp
  mask : host.inet "255.255.255.0"=some netifMask
  server : host.inet "127.0.0.1"=some loopback

/-- What the service configures: the proxy server on the loopback address without
authentication and no relay of UDP packets. -/
def serviceConfig : Config where
  netifIpaddr := netifIp
  netifNetmask := netifMask
  netifIp6addr := none
  socksServerAddr := .ipv4 loopback (hton16 1080)
  socksAuthInfo := [AuthInfo.none]
  udpgwRemoteServerAddr := none
  dnsgw := none

/-- An IPv4 address of the interface that is resolved is taken. -/
theorem netifAddress_ok {host : Host} {what str : String} {ip : Octets 4}
    (h : bipaddrResolve host str=some (.ipv4 ip)) : netifAddress host what (some str)=.ok ip := by
  unfold netifAddress used
  change (match bipaddrResolve host str with
    | none => _
    | some (.ipv6 _) => _
    | some (.ipv4 ip) => _)=_
  rw [h]

/-- The options of the service are processed to its configuration. -/
theorem process_serviceOptions (abi : Abi) {host : Host} (hn : Numeric host) (program : String) (channels : ℕ)
    (connectFD : ℤ) :
    processArguments abi host (serviceOptions program channels connectFD)=.ok serviceConfig := by
  have hip : netifAddress host "netif ipaddr" (some "172.19.0.2")=.ok netifIp := by
    refine netifAddress_ok ?_
    change (host.inet "172.19.0.2").map _=_
    rw [hn.netif]
    rfl
  have hmask : netifAddress host "netif netmask" (some "255.255.255.0")=.ok netifMask := by
    refine netifAddress_ok ?_
    change (host.inet "255.255.255.0").map _=_
    rw [hn.mask]
    rfl
  have hserver : serverAddress abi host "socks server addr" "127.0.0.1:1080"=
      .ok (.ipv4 loopback (hton16 1080)) := by
    have hparse : baddrParse2 abi host "127.0.0.1:1080"=
        (host.inet "127.0.0.1").bind (fun ip => some (.ipv4 ip (hton16 1080))) := by
      cases abi <;> rfl
    rw [serverAddress,hparse,hn.server]
    rfl
  change (do
    let netifIpaddr ← netifAddress host "netif ipaddr" (some "172.19.0.2")
    let netifNetmask ← netifAddress host "netif netmask" (some "255.255.255.0")
    let socksServerAddr ← serverAddress abi host "socks server addr" "127.0.0.1:1080"
    (.ok ⟨netifIpaddr,netifNetmask,none,socksServerAddr,[AuthInfo.none],none,none⟩ :
      Except Ended Config))=_
  rw [hip,hmask,hserver]
  rfl

/-- Each channel of a process without levels of its own gets the common level. -/
theorem zipWith_chosenLevel {common : ℤ} (hc : 0≤common) (levels : List ℤ) :
    List.zipWith (chosenLevel common) (List.replicate levels.length (-1)) levels=
      levels.map (fun _ => common) := by
  induction levels with
  | nil => rfl
  | cons level levels ih =>
    rw [List.length_cons,List.replicate_succ,List.zipWith_cons_cons,ih,List.map_cons]
    simp [chosenLevel,hc]

/-- The calls of the process succeed, and a descriptor is received. -/
structure Willing (host : Host) (fd : ℤ) : Prop where
  network : host.network=true
  reactor : host.reactor=true
  signal : host.signal=true
  socket : host.socket=true
  bind : host.bind "sock_path"=true
  listen : host.listen=true
  received : receive host.connections=some fd
  watched : host.watch fd=true
  readBuffer : host.readBuffer vpnMtu=true
  writeBuffer : host.writeBuffer vpnMtu=true

/-- Whatever positive number the service gives as `--tunfd`, the process that it starts enters its
event loop with the descriptor it receives on its socket, which must not be negative: with the
MTU of the VPN, with the proxy server of the service as its SOCKS server, to which it offers no
authentication only, and with level 3 on every logger channel. It takes no UDP packet from the
device: all of them are left to lwIP. -/
theorem service_tunnel {host : Host} {fd : ℤ} (hn : Numeric host) (hw : Willing host fd)
    (hreceived : 0≤fd) (build : Build) (program : String) {connectFD : ℤ} (hfd : 0<connectFD)
    (hint : connectFD≤2147483647) :
    ∃ t, start host build (serviceCommand program connectFD)=.ok (.runs t) ∧ t.fd=fd ∧
      t.options.tunMtu=vpnMtu ∧ t.levels=build.channels.map (fun _ => 3) ∧
      t.config.socksServerAddr=.ipv4 loopback (hton16 1080) ∧
      SocksClient.hello t.config.socksAuthInfo=[0x05,0x01,0x00] ∧
      ∀ data, processDeviceUdpPacket t.options.device data=none := by
  let o := serviceOptions program build.channels.length connectFD
  have hparse : parseArguments build (serviceCommand program connectFD)=.ok o := by
    rw [parse_serviceCommand build program (by omega) hint,if_neg (by omega)]
  have hlevels : List.zipWith (chosenLevel o.loglevel) o.loglevels (build.channels.map Prod.snd)=
      build.channels.map (fun _ => 3) := by
    have hown : o.loglevels=List.replicate (build.channels.map Prod.snd).length (-1) := by
      rw [List.length_map]
      rfl
    rw [hown,zipWith_chosenLevel (show 0≤o.loglevel from (by decide : (0 : ℤ)≤3)),List.map_map]
    rfl
  have hstart : start host build (serviceCommand program connectFD)=enter host build o := by
    change start host build (program::(serviceCommand program connectFD).tail)=_
    have hread : parseArguments build (program::(serviceCommand program connectFD).tail)=.ok o :=
      hparse
    have hkept : ¬Overruns program o := fun hover => (by cases hover.1)
    have hasked : ¬(o.help=true ∨ o.version=true) := by
      rintro (h|h)
      · cases h
      · cases h
    rw [start,hread]
    exact (if_neg hkept).trans (if_neg hasked)
  have hopens : Opens host o fd := by
    refine ⟨hreceived,hw.watched,hw.readBuffer,fun hlarge => ?_,hw.writeBuffer⟩
    cases hlarge.1
  have hprepared : Prepared host build o serviceConfig (build.channels.map (fun _ => 3)) := by
    refine ⟨fun h => (by cases h),hlevels.symm,fun path h => (by cases h),hw.network,?_,hw.reactor,
      hw.signal⟩
    exact process_serviceOptions build.abi hn program build.channels.length connectFD
  let t : Tunnel := ⟨o,serviceConfig,build.channels.map (fun _ => 3),fd⟩
  have hpath : socketPath o="sock_path" := by
    change String.ofList ("sock_path".toList.take 107)=_
    rw [List.take_of_length_le (by decide),String.ofList_toList]
  have hproceeds : Proceeds host build t :=
    ⟨hprepared,⟨hw.socket,hpath.symm ▸ hw.bind,hw.listen⟩,hw.received,hopens⟩
  refine ⟨t,?_,rfl,rfl,rfl,rfl,rfl,fun data => rfl⟩
  rw [hstart]
  exact (enter_runs_iff (parsed_inRange hparse)).mpr ⟨rfl,hproceeds⟩

/-- A host that knows the addresses of the service and on which every call succeeds. The first
connection is closed without a message that can be received. -/
def sampleHost : Host where
  inet := fun name =>
    if name="172.19.0.2" then some netifIp
    else if name="255.255.255.0" then some netifMask
    else if name="127.0.0.1" then some loopback
    else none
  inet6 := fun _ => none
  parseIpv6 := fun _ => none
  readFile := fun _ => none
  daemonize := fun _ => true
  network := true
  reactor := true
  signal := true
  socket := true
  bind := fun _ => true
  listen := true
  connections := [some .failed,some (.returned (some 17))]
  watch := fun _ => true
  readBuffer := fun _ => true
  writeBuffer := fun _ => true

theorem service_tunnel_sample :
    ∃ t, start sampleHost ⟨.lp64,[("tun2socks",4),("lwip",4)]⟩ (serviceCommand "tun2socks" 42)=
        .ok (.runs t) ∧ t.fd=17 ∧ t.options.tunMtu=vpnMtu ∧ t.levels=[3,3] ∧
      t.config.socksServerAddr=.ipv4 loopback (hton16 1080) ∧
      SocksClient.hello t.config.socksAuthInfo=[0x05,0x01,0x00] ∧
      ∀ data, processDeviceUdpPacket t.options.device data=none :=
  service_tunnel ⟨rfl,rfl,rfl⟩ ⟨rfl,rfl,rfl,rfl,rfl,rfl,rfl,rfl,rfl,rfl⟩
    (by decide) ⟨.lp64,[("tun2socks",4),("lwip",4)]⟩ "tun2socks" (by decide) (by decide)

end ProxyDroid.TunnelStart
