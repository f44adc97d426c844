import ProxyDroid.TunnelSimulation
import ProxyDroid.StreamPhases
import ProxyDroid.HandshakeResults

/-!
# What an established tunnel relays

Results about whole runs of an established connection, for every cut of the
two streams into chunks and every order in which chunks arrive and sockets
take the writes. Every attempt that has told its client of success and still has
its remote channel is an established connection, whatever the upstream is.
-/

namespace ProxyDroid.TunnelResults

open CallSemantics ConnectionTypes ConnectionHandlers ConnectionSystem ConnectionRules
open TunnelPhases ServerNamePhases TunnelMachine TunnelSimulation StreamPhases
open CommandReply (socksCodecs socksCodecs_idle openClient)
open HandshakeStages (Opened)
open HandshakeRuns (attempt_run)
open HandshakeResults (Requested UpstreamRun ToldSuccess requested_live told_opened pending_untold)

variable {cfg : Config} {w w' : World} {front rear : List Handler}
  {request : Socks5CommandRequest} {events : List Event}

/-- Runs of an established connection in which only chunks arrive and
sockets take queued writes. -/
abbrev StreamRun (cfg : Config) (w : World) (events : List Event) (w' : World) : Prop :=
  (system cfg).RunUnder (fun _ event => Streaming event) w events w'

section Attempts

variable {proxy : Proxy} {messages : List Msg}

/-- Messages of a SOCKS dialogue are no raw bytes. -/
theorem rawBytes_encoded (h : ∀ message∈messages, ∃ reply, message=.encoded reply) :
    rawBytes messages=[] := by
  refine List.flatMap_eq_nil_iff.mpr (fun message hm => ?_)
  obtain ⟨reply,rfl⟩ := h message hm
  rfl

/-- What has been written to the client of an attempt that has succeeded. -/
theorem raw_client_opened (h : Opened (openClient cfg request) proxy w) : w.raw .client=[] := by
  obtain ⟨before,hwritten,hbefore⟩ := h.client.written
  rw [World.raw,hwritten]
  refine rawBytes_encoded (fun message hm => ?_)
  rcases List.mem_append.mp hm with hm|hm
  · obtain ⟨reply,he,-⟩ := hbefore message hm
    exact ⟨reply,he⟩
  · exact ⟨_,List.mem_singleton.mp hm⟩

/-- What has been written to its upstream. -/
theorem raw_remote_opened (h : Opened (openClient cfg request) proxy w) : w.raw .remote=[] := by
  have hanswered := h.answered
  cases proxy with
  | direct | reject | http =>
    rw [World.raw,hanswered.1]
    rfl
  | socks5 address port userName passwd =>
    obtain ⟨said,replies,response,-,-,-,-,hall⟩ := hanswered
    refine rawBytes_encoded (fun message hm => ?_)
    obtain ⟨reply,-,he⟩ := List.mem_map.mp (hall message hm)
    exact ⟨reply,he.symm⟩

/-- An attempt that has succeeded is established as long as its remote channel is open. -/
theorem established_of_opened (h : Opened (openClient cfg request) proxy w)
    (ha : w.isActive .remote=true) : Established request socksCodecs (w.handlers .remote) w where
  tunnel :=
    { client := h.client.handlers
      remote := (List.append_nil _).symm
      frontIdle := socksCodecs_idle
      rearIdle := h.remote
      clientActive := h.client.active
      remoteActive := ha
      clientQuiet := h.client.quiet
      remoteQuiet := h.quiet }
  client := raw_client_opened h
  remote := raw_remote_opened h
  fresh := by
    refine List.filterMap_eq_nil_iff.mpr (fun obs hm => ?_)
    cases obs with
    | selected isTls => exact absurd hm (h.reached.fresh isTls)
    | _ => rfl

/-- Whatever the upstream of a request is: when the client has been told of success and the remote
channel is open, the connection is established. -/
theorem established_of_attempt {w₀ : World} (hstart : Requested cfg request w₀)
    (hrun : UpstreamRun cfg w₀ events w) (htold : ToldSuccess w) (ha : w.isActive .remote=true) :
    Established request socksCodecs (w.handlers .remote) w := by
  obtain ⟨hlive,ho⟩ := requested_live hstart
  rcases attempt_run hlive ho hrun with ⟨-,hl⟩|hdead
  · exact established_of_opened (told_opened hl htold) ha
  · obtain ⟨cs,hpending⟩ := hdead.client
    exact absurd htold (pending_untold hpending)

end Attempts

/-- The sample connection once its direct connect has succeeded. -/
def sampleTunnel (cfg : Config) : World :=
  ((system cfg).execute 40 accepted sampleExchange).getD accepted

/-- The sample client under interception rules, with the host looked up in
one client hello and an HTTP decoder. -/
def streamConfig (mitmConfig : Option (String → Option HttpInterceptor)) (hello : Bytes)
    (host : Option String) (httpDecode : Side → List Bytes → Bytes → List HttpObject) : Config :=
  { sampleConfig (directRules mitmConfig) with
    clientHello := fun buffered => if hello<+:buffered then some host else none
    clientHello_append := by
      intro buffered more found h
      split at h
      · rename_i hp
        rw [if_pos (hp.trans (List.prefix_append _ _)),h]
      · cases h
    httpDecode := httpDecode }

/-- The sample exchange establishes a tunnel. -/
theorem established_sample (mitmConfig : Option (String → Option HttpInterceptor)) (hello : Bytes)
    (host : Option String) (httpDecode : Side → List Bytes → Bytes → List HttpObject) :
    Established sampleRequest socksCodecs []
      (sampleTunnel (streamConfig mitmConfig hello host httpDecode)) := by
  have hall : (system (streamConfig mitmConfig hello host httpDecode)).Run accepted
      (HandshakeResults.sampleAsk++[.connected])
      (sampleTunnel (streamConfig mitmConfig hello host httpDecode)) :=
    System.execute_run accepted rfl
  obtain ⟨w₀,hask,-,hturn⟩ := hall.last
  have hstart : Requested (streamConfig mitmConfig hello host httpDecode) sampleRequest w₀ :=
    ⟨[0x01,0x00],[noAuth],sampleCommand,rfl,rfl,rfl,hask⟩
  have hrun : UpstreamRun (streamConfig mitmConfig hello host httpDecode) w₀ ([]++[.connected])
      (sampleTunnel (streamConfig mitmConfig hello host httpDecode)) := .snoc .nil trivial hturn
  exact established_of_attempt hstart hrun
    ⟨_,List.mem_of_getElem? (i:=1) rfl,rfl⟩ rfl

/-- The one client hello of a sample configuration. -/
theorem hello_sample (mitmConfig : Option (String → Option HttpInterceptor)) {hello : Bytes}
    (host : Option String) (httpDecode : Side → List Bytes → Bytes → List HttpObject)
    (hheader : choiceFor hello=[true]) :
    Hello (streamConfig mitmConfig hello host httpDecode) hello host where
  header := hheader
  incomplete := by
    intro part hpart hne
    refine if_neg (fun hback => hne ?_)
    exact hpart.eq_of_length (Nat.le_antisymm hpart.length_le hback.length_le)
  complete := if_pos (List.prefix_refl _)

/-- A TLS client hello without extensions. -/
def namelessHello : Bytes :=
  [0x16,0x03,0x01,0x00,0x2d,0x01,0x00,0x00,0x29,0x03,0x03]++List.replicate 32 0x07++
    [0x00,0x00,0x02,0x00,0x2f,0x01,0x00]

/-- A TLS client hello whose server name is `a`. -/
def namedHello : Bytes :=
  [0x16,0x03,0x01,0x00,0x39,0x01,0x00,0x00,0x35,0x03,0x03]++List.replicate 32 0x07++
    [0x00,0x00,0x02,0x00,0x2f,0x01,0x00,0x00,0x0a,0x00,0x00,0x00,0x06,0x00,0x04,0x00,0x00,0x01,0x61]

/-- The sample client without interception. -/
abbrev plainConfig : Config := streamConfig none namelessHello none (fun _ _ _ => [])

/-- The sample tunnel after some events. -/
def sampleRun (cfg : Config) (events : List Event) : World :=
  ((system cfg).execute 40 (sampleTunnel cfg) events).getD accepted

/-- Bounded executions of streaming events are streaming runs. -/
theorem sampleRun_stream
    (h : ((system cfg).execute 40 (sampleTunnel cfg) events).isSome=true)
    (he : ∀ event∈events, Streaming event) :
    StreamRun cfg (sampleTunnel cfg) events (sampleRun cfg events) :=
  .of_events (System.execute_run accepted h) he

/-- Nothing the server sends is lost, in a state of a run in which nothing
is intercepted, exactly when every chunk of the server arrives after the
relay handlers have been installed. -/
theorem server_bytes_relayed_iff (h : Established request front rear w)
    (hm : Unintercepted cfg.rules) (hrun : StreamRun cfg w events w') :
    w'.isActive .client=true ∧ w'.isActive .remote=true ∧
      (w'.raw .client=bytesFrom .remote events ↔ ServerWaits cfg request events) := by
  obtain ⟨-,hfollows⟩ := h.run hrun (fun before _ => Machine.after_unintercepted hm before)
  refine ⟨hfollows.active .client,hfollows.active .remote,?_⟩
  rw [hfollows.client]
  exact Machine.delivered_iff cfg request events

/-- A server that answers the client's first bytes. -/
theorem server_answer_relayed :
    (sampleRun plainConfig [.read .client [1,2,3],.read .remote [7]]).raw .client=[7] ∧
      ServerWaits plainConfig sampleRequest [.read .client [1,2,3],.read .remote [7]] := by
  have hrun : StreamRun plainConfig (sampleTunnel plainConfig)
      [.read .client [1,2,3],.read .remote [7]] _ := sampleRun_stream rfl (by simp [Streaming])
  have hiff := (server_bytes_relayed_iff (established_sample none namelessHello none (fun _ _ _ => []))
    (fun _ => rfl) hrun).2.2
  exact ⟨rfl,hiff.mp rfl⟩

/-- A server that speaks first is not heard. -/
theorem server_greeting_lost :
    (system plainConfig).Run accepted sampleExchange (sampleTunnel plainConfig) ∧
      StreamRun plainConfig (sampleTunnel plainConfig) [.read .remote [7]]
        (sampleRun plainConfig [.read .remote [7]]) ∧
      (sampleRun plainConfig [.read .remote [7]]).isActive .client=true ∧
      (sampleRun plainConfig [.read .remote [7]]).isActive .remote=true ∧
      (sampleRun plainConfig [.read .remote [7]]).raw .client≠bytesFrom .remote [.read .remote [7]] :=
  ⟨System.execute_run accepted rfl,sampleRun_stream rfl (by simp [Streaming]),rfl,rfl,by decide⟩

/-- Streams whose bytes are not to be touched: interception is off, or the
stream agrees with a client hello whose host has no interceptor. -/
def Verbatim (cfg : Config) (received : Bytes) : Prop :=
  cfg.rules.mitmConfig=none ∨ ∃ hello name, Hello cfg hello (some name) ∧ name≠"" ∧
    cfg.rules.mitmConfig.bind (fun matcher => matcher name)=none ∧ Comparable received hello

/-- Such a stream once its treatment is settled: three bytes, or the complete
client hello, have been received. -/
def Settled (cfg : Config) (received : Bytes) : Prop :=
  (cfg.rules.mitmConfig=none ∧ 3≤received.length) ∨
    ∃ hello name, Hello cfg hello (some name) ∧ name≠"" ∧
      cfg.rules.mitmConfig.bind (fun matcher => matcher name)=none ∧ hello<+:received

/-- The choice between TLS and other streams by the first three bytes. -/
def headerChoice : Bytes → List Bool
  | type::versionHigh::versionLow::_ => [tlsHeader type versionHigh versionLow]
  | _ => []

/-- The choice on signed bytes is the choice by header. -/
theorem choiceFor_eq_headerChoice (received : Bytes) :
    choiceFor received=headerChoice received := by
  rcases short_or_three received with hshort|⟨type,versionHigh,versionLow,rest,rfl⟩
  · rw [choiceFor_short hshort]
    unfold headerChoice
    split
    · simp only [List.length_cons] at hshort
      omega
    · rfl
  · rw [choiceFor,headerChoice,isTls_eq_tlsHeader]

theorem Verbatim.of_append {received data : Bytes} (h : Verbatim cfg (received++data)) :
    Verbatim cfg received := by
  rcases h with h|⟨hello,name,hh,hname,hm,hc⟩
  · exact .inl h
  · exact .inr ⟨hello,name,hh,hname,hm,hc.of_append⟩

/-- Streams not to be touched are held back or relayed, and relayed once
settled. -/
theorem verbatim_phase (request : Socks5CommandRequest) (chunks : List Bytes) (hv : Verbatim cfg chunks.flatten) :
    (Waiting (Phase.after cfg request chunks) chunks.flatten ∨
        Phase.after cfg request chunks=.relaying) ∧
      (Settled cfg chunks.flatten → Phase.after cfg request chunks=.relaying) := by
  cases hm : cfg.rules.mitmConfig with
  | none =>
    have hphase := plain_phase request hm chunks
    by_cases hlt : chunks.flatten.length<3
    · rw [if_pos hlt] at hphase
      refine ⟨.inl (.inl hphase),?_⟩
      rintro (⟨-,hlen⟩|⟨hello,name,hh,-,-,hc⟩)
      · omega
      · have hlen := Nat.le_trans hh.three_le hc.length_le
        omega
    · rw [if_neg hlt] at hphase
      exact ⟨.inr hphase,fun _ => hphase⟩
  | some matcher =>
    have hsome : cfg.rules.mitmConfig.isSome=true := by simp [hm]
    have hsettled : Settled cfg chunks.flatten → Phase.after cfg request chunks=.relaying := by
      rintro (⟨hnone,-⟩|⟨hello,name,hh,hname,hbind,hc⟩)
      · rw [hm] at hnone
        cases hnone
      · exact named_phase hh hname hsome hbind chunks hc
    refine ⟨?_,hsettled⟩
    rcases hv with hnone|⟨hello,name,hh,hname,hbind,hc⟩
    · rw [hm] at hnone
      cases hnone
    · by_cases hdone : hello<+:chunks.flatten
      · exact .inr (hsettled (.inr ⟨hello,name,hh,hname,hbind,hdone⟩))
      · exact .inl ((hello_phase hh hsome chunks hc).1 hdone)

/-- The machine's phase is neither intercepting nor forwarding then. -/
theorem Verbatim.phase_ne (request : Socks5CommandRequest)
    (h : Verbatim cfg (bytesFrom .client events)) :
    (Machine.after cfg request events).phase≠.intercepting ∧
      ∀ history, (Machine.after cfg request events).phase≠.forwarding history := by
  rw [←clientChunks_flatten] at h
  rw [Machine.phase_after]
  rcases (verbatim_phase request (clientChunks events) h).1 with (hphase|hphase)|hphase <;>
    rw [hphase] <;> simp

/-- Every prefix of a run on such a stream is on such a stream. -/
theorem Verbatim.of_prefix {before : List Event} (h : Verbatim cfg (bytesFrom .client events))
    (hb : before<+:events) : Verbatim cfg (bytesFrom .client before) := by
  obtain ⟨more,hmore⟩ := bytesFrom_mono (s:=.client) hb
  exact Verbatim.of_append (hmore ▸ h)

/-- Streams that are not to be touched reach the remote verbatim, however
they are cut: the bytes written are a prefix of the bytes received, all of
them once the treatment is settled; the choice between TLS and other streams
is made by the first three bytes; and every further read of such a stream is
handled to its end. -/
theorem unintercepted_relayed_verbatim (h : Established request front rear w)
    (hv : Verbatim cfg (bytesFrom .client events)) (hrun : StreamRun cfg w events w') :
    w'.raw .remote<+:bytesFrom .client events ∧
      (Settled cfg (bytesFrom .client events) → w'.raw .remote=bytesFrom .client events) ∧
      selections w'.log=headerChoice (bytesFrom .client events) ∧
      ∀ s data, Verbatim cfg (bytesFrom .client (events++[.read s data])) →
        ∃ w'', StreamRun cfg w (events++[.read s data]) w'' := by
  obtain ⟨hw,hfollows⟩ := h.run hrun (fun before hb => ((hv.of_prefix hb).phase_ne request).1)
  have hreceived := Machine.received_after cfg request events
  have hremote := hfollows.remote (hv.phase_ne request).2
  refine ⟨?_,?_,?_,?_⟩
  · rw [hremote,Machine.passed,hreceived]
    split
    · exact List.prefix_refl _
    · exact List.nil_prefix
  · intro hsettled
    rw [←clientChunks_flatten] at hv hsettled
    have hphase := (verbatim_phase request (clientChunks events) hv).2 hsettled
    rw [hremote,Machine.passed,Machine.phase_after,if_pos hphase,hreceived]
  · rw [hfollows.choice (hv.phase_ne request).2,hreceived,choiceFor_eq_headerChoice]
  · intro s data hnext
    cases s with
    | client =>
      have hne := hnext.phase_ne request
      rw [Machine.after_snoc] at hne
      obtain ⟨w'',hturn,-⟩ := hfollows.read_client data hw hne.1
      exact ⟨w'',.snoc hrun trivial hturn⟩
    | remote =>
      obtain ⟨w'',hturn,-⟩ := hfollows.read_remote data
      exact ⟨w'',.snoc hrun trivial hturn⟩

/-- Interception of no host, for a client that sends the named hello. -/
abbrev namedConfig : Config :=
  streamConfig (some (fun _ => none)) namedHello (some "a") (fun _ _ _ => [])

/-- The named hello in two cuts inside the first three bytes. -/
def namedEvents : List Event :=
  [.read .client (namedHello.take 1),.read .client ((namedHello.drop 1).take 9),
    .read .client (namedHello.drop 10++[0x17])]

/-- A client hello cut in three is relayed. -/
theorem named_hello_relayed :
    (sampleRun namedConfig namedEvents).raw .remote=namedHello++[0x17] := by
  have hrun : StreamRun namedConfig (sampleTunnel namedConfig) namedEvents _ :=
    sampleRun_stream rfl (by simp [namedEvents,Streaming])
  have hh : Hello namedConfig namedHello (some "a") := hello_sample _ _ _ rfl
  have hc : namedHello<+:bytesFrom .client namedEvents := by decide
  have hall := unintercepted_relayed_verbatim
    (established_sample (some (fun _ => none)) namedHello (some "a") (fun _ _ _ => []))
    (.inr ⟨namedHello,"a",hh,by decide,rfl,.inr hc⟩) hrun
  have hbytes : bytesFrom .client namedEvents=namedHello++[0x17] := by decide
  rw [←hbytes]
  exact hall.2.1 (.inr ⟨namedHello,"a",hh,by decide,rfl,hc⟩)

/-- With interception on, nothing of a stream that is neither TLS nor HTTP
reaches the remote, although both channels stay open: the decoder consumes
the bytes and the remote channel has no encoder for its objects. -/
theorem opaque_stream_dropped (h : Established request front rear w)
    (hsome : cfg.rules.mitmConfig.isSome=true)
    (htls : headerChoice (bytesFrom .client events)=[false])
    (hn : NotHttp cfg (bytesFrom .client events)) (hrun : StreamRun cfg w events w') :
    w'.isActive .client=true ∧ w'.isActive .remote=true ∧ w'.raw .remote=[] ∧
      w'.raw .remote≠bytesFrom .client events := by
  rw [←choiceFor_eq_headerChoice] at htls
  have hlen : 3≤(bytesFrom .client events).length := by
    by_contra hlt
    rw [choiceFor_short (by omega)] at htls
    cases htls
  have hphase : ∀ before, before<+:events → ∃ history,
      (Machine.after cfg request before).phase=.selecting (bytesFrom .client before) ∧
        (bytesFrom .client before).length<3 ∨
      (Machine.after cfg request before).phase=.checking history ∨
      (Machine.after cfg request before).phase=.refusing history := by
    intro before hb
    have hprefix := bytesFrom_mono (s:=.client) hb
    rw [Machine.phase_after,←clientChunks_flatten before]
    rw [←clientChunks_flatten before] at hprefix
    by_cases hlt : (clientChunks before).flatten.length<3
    · exact ⟨[],.inl ⟨short_phase hlt,hlt⟩⟩
    · obtain ⟨history,hlong⟩ := opaque_phase hsome hn htls _ hprefix (by omega)
      exact ⟨history,.inr hlong⟩
  obtain ⟨-,hfollows⟩ := h.run hrun (fun before hb => by
    obtain ⟨history,⟨hb,-⟩|hb|hb⟩ := hphase before hb <;> rw [hb] <;> simp)
  have hraw : w'.raw .remote=[] := by
    obtain ⟨history,⟨-,hlt⟩|hlast|hlast⟩ := hphase events (List.prefix_refl _)
    · omega
    · rw [hfollows.remote (by simp [hlast]),Machine.passed,hlast]
      rfl
    · rw [hfollows.remote (by simp [hlast]),Machine.passed,hlast]
      rfl
  refine ⟨hfollows.active .client,hfollows.active .remote,hraw,?_⟩
  rw [hraw]
  intro hnil
  rw [←hnil] at hlen
  simp at hlen

/-- The greeting of an SSH client. -/
def sshGreeting : Bytes := [0x53,0x53,0x48,0x2d,0x32,0x2e,0x30,0x2d,0x78,0x0d,0x0a]

/-- Interception of no host. The HTTP decoder turns a line that is not HTTP
into a failed request and discards what follows. -/
abbrev sshConfig : Config :=
  streamConfig (some (fun _ => none)) namelessHello none
    (fun _ history _ => if history=[] then [.request ⟨false,"GET /bad-request HTTP/1.0",[]⟩] else [])

/-- The hypotheses on the stream hold of the greeting in two cuts. -/
theorem ssh_greeting_dropped :
    (sampleRun sshConfig [.read .client (sshGreeting.take 2),
      .read .client (sshGreeting.drop 2)]).raw .remote=[] := by
  have hrun : StreamRun sshConfig (sampleTunnel sshConfig)
      [.read .client (sshGreeting.take 2),.read .client (sshGreeting.drop 2)] _ :=
    sampleRun_stream rfl (by simp [Streaming])
  have hn : NotHttp sshConfig (bytesFrom .client
      [.read .client (sshGreeting.take 2),.read .client (sshGreeting.drop 2)]) := by
    intro history data message _ hm
    change _∈(if history=[] then _ else _) at hm
    split at hm
    · cases List.mem_singleton.mp hm
      rfl
    · cases hm
  exact (opaque_stream_dropped (established_sample (some (fun _ => none)) namelessHello none _)
    rfl (by decide) hn hrun).2.2.1

/-- The greeting of an SSH client does not arrive. -/
theorem ssh_greeting_lost :
    (system sshConfig).Run accepted sampleExchange (sampleTunnel sshConfig) ∧
      StreamRun sshConfig (sampleTunnel sshConfig) [.read .client sshGreeting]
        (sampleRun sshConfig [.read .client sshGreeting]) ∧
      (sampleRun sshConfig [.read .client sshGreeting]).isActive .client=true ∧
      (sampleRun sshConfig [.read .client sshGreeting]).isActive .remote=true ∧
      (sampleRun sshConfig [.read .client sshGreeting]).raw .remote≠sshGreeting :=
  ⟨System.execute_run accepted rfl,sampleRun_stream rfl (by simp [Streaming]),rfl,rfl,by decide⟩

/-- The bytes of a client hello have been passed on: to the remote, or to a
TLS handler of the client pipeline. -/
def PassedOn (w : World) (hello : Bytes) : Prop :=
  hello<+:w.raw .remote ∨ ∃ history, .sslHandler history∈w.handlers .client

/-- With interception on, a complete client hello without a server name is
never passed on, and the client pipeline holds one `HttpInterceptorHandler`
for every read since the hello was complete. -/
theorem nameless_hello_stuck {hello : Bytes} (h : Established request front rear w)
    (hsome : cfg.rules.mitmConfig.isSome=true) (hh : Hello cfg hello none)
    (hc : hello<+:bytesFrom .client events) (hrun : StreamRun cfg w events w') :
    ¬PassedOn w' hello ∧
      (w'.handlers .client).countP isInterceptor=lookups hello [] (clientChunks events) := by
  have hne : ∀ before, before<+:events →
      (Machine.after cfg request before).phase≠.intercepting := by
    intro before hb
    have hcomparable : Comparable (clientChunks before).flatten hello := by
      rw [clientChunks_flatten]
      exact List.prefix_or_prefix_of_prefix (bytesFrom_mono hb) hc
    rw [Machine.phase_after]
    by_cases hdone : hello<+:(clientChunks before).flatten
    · rw [nameless_phase hh hsome _ hdone]
      simp
    · rcases (hello_phase hh hsome _ hcomparable).1 hdone with hp|hp <;> rw [hp] <;> simp
  obtain ⟨-,hfollows⟩ := h.run hrun hne
  have hphase : (Machine.after cfg request events).phase=
      .stalled (clientChunks events).flatten (lookups hello [] (clientChunks events)) := by
    rw [Machine.phase_after]
    exact nameless_phase hh hsome _ (by rwa [clientChunks_flatten])
  have hin := hfollows.phase
  rw [hphase] at hin
  obtain ⟨-,spare,ht,hspare,hcount⟩ := hin
  constructor
  · rintro (hraw|⟨history,hmem⟩)
    · rw [hfollows.remote (by simp [hphase]),Machine.passed,hphase,if_neg (by simp)] at hraw
      have hlen := Nat.le_trans hh.three_le hraw.length_le
      simp at hlen
    · rw [ht.client] at hmem
      simp only [List.mem_append,List.mem_cons,reduceCtorEq,false_or] at hmem
      rcases hmem with hmem|hmem
      · exact absurd ((ht.frontIdle _ hmem).1 .active) (by simp [reacts])
      · rcases hspare _ hmem with hs|hs|hs <;> cases hs
  · have hfront : front.countP isInterceptor=0 := List.countP_eq_zero.mpr (fun x hx => by
      simp [isInterceptor_of_idle (ht.frontIdle x hx)])
    rw [ht.client,List.countP_append,hfront,Nat.zero_add]
    simpa [isInterceptor] using hcount

/-- Interception of no host, for a client that sends the nameless hello. -/
abbrev namelessConfig : Config :=
  streamConfig (some (fun _ => none)) namelessHello none (fun _ _ _ => [])

/-- Three reads since the hello was complete leave three interceptors. -/
theorem nameless_hello_three_reads :
    ((sampleRun namelessConfig [.read .client namelessHello,.read .client [1],
      .read .client [2]]).handlers .client).countP isInterceptor=3 := by
  have hrun : StreamRun namelessConfig (sampleTunnel namelessConfig)
      [.read .client namelessHello,.read .client [1],.read .client [2]] _ :=
    sampleRun_stream rfl (by simp [Streaming])
  have hall := nameless_hello_stuck
    (established_sample (some (fun _ => none)) namelessHello none (fun _ _ _ => [])) rfl
    (hello_sample _ _ _ rfl) (by decide) hrun
  exact hall.2.trans (by decide)

/-- A nameless hello and one more read: nothing is passed on and there are
two interceptors. -/
theorem nameless_hello_lost :
    (system namelessConfig).Run accepted sampleExchange (sampleTunnel namelessConfig) ∧
      StreamRun namelessConfig (sampleTunnel namelessConfig)
        [.read .client namelessHello,.read .client [1]]
        (sampleRun namelessConfig [.read .client namelessHello,.read .client [1]]) ∧
      ¬PassedOn (sampleRun namelessConfig [.read .client namelessHello,.read .client [1]])
        namelessHello ∧
      ((sampleRun namelessConfig [.read .client namelessHello,.read .client [1]]).handlers
        .client).countP isInterceptor=2 := by
  refine ⟨System.execute_run accepted (by decide),sampleRun_stream (by decide)
    (by simp [Streaming]),?_,by decide⟩
  rintro (hraw|⟨history,hmem⟩)
  · revert hraw
    decide
  · have hh : (sampleRun namelessConfig [.read .client namelessHello,.read .client [1]]).handlers
        .client=socksCodecs++[.protocolSelectHandler sampleRequest .success,
          .sniHandler sampleRequest (namelessHello++[1]),.httpInterceptorHandler sampleRequest,
          .httpRequestDecoder [],.httpCheckHandler sampleRequest,
          .httpInterceptorHandler sampleRequest,.httpRequestDecoder [],
          .httpCheckHandler sampleRequest,.httpRequestDecoder [],
          .httpCheckHandler sampleRequest] := rfl
    rw [hh] at hmem
    simp [socksCodecs] at hmem

end ProxyDroid.TunnelResults
