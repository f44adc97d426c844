import ProxyDroid.ConnectionRules

/-!
# Phases of an established tunnel

Once the upstream promise has succeeded, the handlers behind the SOCKS codecs
determine what a read does. Each lemma takes one phase and one read, executes
the handlers it meets, and names the phase that follows together with
everything written and observed on the way.
-/

namespace ProxyDroid.TunnelPhases

open CallSemantics HandlerPipeline ConnectionTypes ConnectionHandlers ConnectionSystem
open ConnectionRules

/-- A handler that lets every inbound event and every write but that of a
SOCKS object pass. -/
def Idle (h : Handler) : Prop :=
  (∀ event, reacts event h=false) ∧
    ∀ message, (∀ m, message≠.socks m) → intercepts message h=false

/-- The handlers of an open tunnel on both channels: codecs that have done
their work, then the handlers of the phase. -/
structure Tunnel (w : World) (front rear cs rs : List Handler) : Prop where
  /-- Client pipeline. -/
  client : w.handlers .client=front++cs
  /-- Remote pipeline. -/
  remote : w.handlers .remote=rear++rs
  /-- The client codecs let everything pass. -/
  frontIdle : ∀ h∈front, Idle h
  /-- The remote codecs let everything pass. -/
  rearIdle : ∀ h∈rear, Idle h
  /-- The client channel is open. -/
  clientActive : w.isActive .client=true
  /-- The remote channel is open. -/
  remoteActive : w.isActive .remote=true
  /-- No write to the client waits with a listener. -/
  clientQuiet : Quiet w .client
  /-- No write to the remote waits with a listener. -/
  remoteQuiet : Quiet w .remote

/-- What was written and observed between two states. -/
structure Leads (w w' : World) (toClient toRemote : List Msg) (seen : List Obs) : Prop where
  /-- Writes to the client. -/
  client : w'.written .client=w.written .client++toClient
  /-- Writes to the remote. -/
  remote : w'.written .remote=w.written .remote++toRemote
  /-- Observations. -/
  log : w'.log=w.log++seen
  /-- The promise stays as it is. -/
  promise : w'.promise=w.promise

/-- Nothing happens between a state and itself. -/
theorem Leads.refl (w : World) : Leads w w [] [] [] := by
  constructor <;> simp

/-- What happens in two stretches happens in order. -/
theorem Leads.trans {w w₁ w₂ : World} {a b c d : List Msg} {e f : List Obs}
    (h : Leads w w₁ a b e) (k : Leads w₁ w₂ c d f) : Leads w w₂ (a++c) (b++d) (e++f) := by
  constructor
  · rw [k.client,h.client,List.append_assoc]
  · rw [k.remote,h.remote,List.append_assoc]
  · rw [k.log,h.log,List.append_assoc]
  · rw [k.promise,h.promise]

/-- Pipeline changes keep a tunnel open and quiet. -/
theorem Tunnel.of_pipes {w w' : World} {front rear cs rs cs' rs' : List Handler}
    (ht : Tunnel w front rear cs rs) (hc : w'.handlers .client=front++cs')
    (hr : w'.handlers .remote=rear++rs') (ha : ∀ s, w'.isActive s=w.isActive s)
    (hq : ∀ s, Quiet w s → Quiet w' s) : Tunnel w' front rear cs' rs' where
  client := hc
  remote := hr
  frontIdle := ht.frontIdle
  rearIdle := ht.rearIdle
  clientActive := (ha _).trans ht.clientActive
  remoteActive := (ha _).trans ht.remoteActive
  clientQuiet := hq _ ht.clientQuiet
  remoteQuiet := hq _ ht.remoteQuiet

section Handlers

variable {cfg : Config} {w : World} {front rear cs rs : List Handler} {id : ℕ}
  {request : Socks5CommandRequest} {data : Bytes}

/-- A change of the client pipeline. -/
theorem Tunnel.on_client {cs' : List Handler} {g : Pipeline Label Handler → Pipeline Label Handler}
    (ht : Tunnel w front rear cs rs) (hg : (g (w.pipe .client)).handlers=front++cs') :
    Tunnel (w.updPipe .client g) front rear cs' rs :=
  ht.of_pipes (by simpa using hg) (by simpa using ht.remote) (by simp) (by simp)

/-- A change of one pipeline writes and records nothing. -/
theorem leads_updPipe {s : Side} {g : Pipeline Label Handler → Pipeline Label Handler} :
    Leads w (w.updPipe s g) [] [] [] := by
  constructor <;> simp

/-- State after `DirectAction.doFollowUp`. -/
def followedUp (w : World) : World :=
  (w.updPipe .client (fun p => p.insertAt p.contexts.length none .relayHandler)).updPipe .remote
    (fun p => p.insertAt p.contexts.length none .relayHandler)

theorem runs_doFollowUp : Runs cfg w DirectAction.doFollowUp (followedUp w) :=
  runs_addLast.cons runs_addLast

/-- A follow-up puts a relay handler at the end of both pipelines. -/
theorem Tunnel.follow_up (ht : Tunnel w front rear cs rs) :
    Tunnel (followedUp w) front rear (cs++[Handler.relayHandler]) (rs++[Handler.relayHandler]) := by
  refine ht.of_pipes ?_ ?_ ?_ ?_
  · simp [followedUp,ht.client]
  · simp [followedUp,ht.remote]
  · intro s
    simp [followedUp]
  · intro s hs
    simpa [followedUp] using hs

/-- Accepted writes keep a tunnel. -/
theorem Tunnel.accept_write (ht : Tunnel w front rear cs rs) (s : Side) (message : Msg) :
    Tunnel (accept cfg w s message) front rear cs rs :=
  ht.of_pipes (by simp [ht.client]) (by simp [ht.remote]) (by simp) (fun _ => accept_quiet)

/-- Codecs before other handlers that do not take an event. -/
theorem silent_append {event : Inbound} {hs : List Handler} (hf : ∀ h∈front, Idle h)
    (hh : ∀ h∈hs, reacts event h=false) : ∀ h∈front++hs, reacts event h=false := by
  intro h hm
  rcases List.mem_append.mp hm with hm|hm
  · exact (hf h hm).1 event
  · exact hh h hm

/-- Codecs before other handlers that let a write pass. -/
theorem transparent_append {message : Msg} {hs : List Handler} (hf : ∀ h∈front, Idle h)
    (hm : ∀ m, message≠.socks m) (hh : ∀ h∈hs, intercepts message h=false) :
    ∀ h∈front++hs, intercepts message h=false := by
  intro h hmem
  rcases List.mem_append.mp hmem with hmem|hmem
  · exact (hf h hmem).2 message hm
  · exact hh h hmem

/-- A relay handler writes the bytes it reads to the other channel. -/
theorem runs_relay_bytes {s : Side} (ha : w.isActive s.other=true) (hq : Quiet w s.other)
    (hh : ∀ x∈w.handlers s.other, intercepts (.bytes data) x=false) :
    Runs cfg w (body cfg w s id (.read (.bytes data)) .relayHandler)
      (accept cfg w s.other (.bytes data)) := by
  change Runs cfg w (RelayHandler.channelRead w s (.bytes data)) _
  rw [RelayHandler.channelRead,if_pos ha]
  exact runs_write_bytes ha hq hh

/-- A relay handler ends `channelActive`. -/
theorem runs_active_relay (s : Side) (hs : List Handler) (hh : w.handlers s=hs++[Handler.relayHandler])
    (hsilent : ∀ x∈hs, reacts .active x=false) : Runs cfg w [.pipelineFire s .active] w := by
  obtain ⟨id,hl,hp⟩ := perform_pipelineFire cfg .active hh hsilent rfl
  exact runs_of_call hp runs_nil

/-- Fewer than three bytes are kept for the next read. -/
theorem Tunnel.read_selecting_short (cfg : Config) {buffered : Bytes}
    (ht : Tunnel w front rear [.protocolSelectHandler request (.init buffered)] rs)
    (hb : (buffered++data).length<3) :
    ∃ w', Runs cfg w [.pipelineFire .client (.read (.bytes data))] w' ∧
      Tunnel w' front rear [.protocolSelectHandler request (.init (buffered++data))] rs ∧
      Leads w w' [] [] [] := by
  obtain ⟨id,hl,hp⟩ := perform_pipelineFire cfg (.read (.bytes data)) ht.client
    (fun x hx => (ht.frontIdle x hx).1 _) rfl
  have hbody : body cfg w .client id (.read (.bytes data))
      (.protocolSelectHandler request (.init buffered))=
      [.assign .client id (.protocolSelectHandler request (.init (buffered++data)))] := by
    change ProtocolSelectHandler.channelRead cfg.rules id request (.init buffered) data=_
    unfold ProtocolSelectHandler.channelRead
    dsimp only
    split
    · rename_i he
      rw [he] at hb
      simp only [List.length_cons] at hb
      omega
    · rfl
  rw [hbody] at hp
  refine ⟨_,runs_of_call hp runs_assign,ht.of_pipes ?_ ?_ ?_ ?_,?_⟩
  · simpa using (hl.assign _).handlers
  · simpa using ht.remote
  · simp
  · simp
  · constructor <;> simp

/-- Three bytes select the next handlers; the rest of `decode` follows. -/
theorem Tunnel.read_selecting (cfg : Config) {buffered rest : Bytes} {type versionHigh versionLow : UInt8}
    (ht : Tunnel w front rear [.protocolSelectHandler request (.init buffered)] rs)
    (hb : buffered++data=type::versionHigh::versionLow::rest) :
    ∃ id, (w.pipe .client).Located id front (.protocolSelectHandler request (.init buffered)) [] ∧
      ∀ w', Runs cfg (w.note (.selected (ProtocolSelectHandler.isTls type versionHigh versionLow)))
        (ProtocolSelectHandler.select cfg.rules request
          (ProtocolSelectHandler.isTls type versionHigh versionLow)++
          [Stmt.pipelineFire .client .active,
            .assign .client id (.protocolSelectHandler request .success),
            fireRead .client id (.bytes (buffered++data))]) w' →
        Runs cfg w [.pipelineFire .client (.read (.bytes data))] w' := by
  obtain ⟨id,hl,hp⟩ := perform_pipelineFire cfg (.read (.bytes data)) ht.client
    (fun x hx => (ht.frontIdle x hx).1 _) rfl
  refine ⟨id,hl,fun w' hrest => runs_of_call hp ?_⟩
  change Runs cfg w (ProtocolSelectHandler.channelRead cfg.rules id request (.init buffered) data) w'
  unfold ProtocolSelectHandler.channelRead
  dsimp only
  rw [hb] at hrest ⊢
  exact runs_noteSelected.cons hrest

/-- Without interception the follow-up is made at once and all bytes
received so far go to the remote. -/
theorem Tunnel.read_selecting_direct {buffered rest : Bytes} {type versionHigh versionLow : UInt8}
    (ht : Tunnel w front rear [.protocolSelectHandler request (.init buffered)] [])
    (hb : buffered++data=type::versionHigh::versionLow::rest)
    (hm : cfg.rules.mitmConfig=none) :
    ∃ w', Runs cfg w [.pipelineFire .client (.read (.bytes data))] w' ∧
      Tunnel w' front rear [.protocolSelectHandler request .success,.relayHandler]
        [.relayHandler] ∧
      Leads w w' [] [.bytes (buffered++data)]
        [.selected (ProtocolSelectHandler.isTls type versionHigh versionLow)] := by
  obtain ⟨id,hl,hrun⟩ := ht.read_selecting cfg hb
  let noted := w.note (.selected (ProtocolSelectHandler.isTls type versionHigh versionLow))
  have hnoted : Tunnel noted front rear [.protocolSelectHandler request (.init buffered)] [] :=
    ht.of_pipes (by simp [noted,ht.client]) (by simp [noted,ht.remote]) (by simp [noted])
      (by simp [noted])
  have hfollow := hnoted.follow_up
  let assigned := (followedUp noted).updPipe .client
    (fun p => p.assign id (.protocolSelectHandler request .success))
  have hlf : ((followedUp noted).pipe .client).Located id front
      (.protocolSelectHandler request (.init buffered)) [.relayHandler] := by
    simpa [followedUp,noted] using hl.insertAt_length none .relayHandler
  have hla : (assigned.pipe .client).Located id front
      (.protocolSelectHandler request .success) [.relayHandler] := by
    simpa [assigned] using hlf.assign _
  have hassigned : Tunnel assigned front rear
      [.protocolSelectHandler request .success,.relayHandler] [.relayHandler] :=
    hfollow.of_pipes hla.handlers (by simpa [assigned] using hfollow.remote)
      (by simp [assigned]) (by simp [assigned])
  have hclear : ∀ x∈assigned.handlers .remote, intercepts (.bytes (buffered++data)) x=false := by
    rw [hassigned.remote]
    exact transparent_append hassigned.rearIdle (by simp) (by simp [intercepts])
  obtain ⟨id',hl',hfire⟩ := perform_ctxFire cfg (.read (.bytes (buffered++data))) [] hla (by simp) rfl
  refine ⟨accept cfg assigned .remote (.bytes (buffered++data)),hrun _ ?_,hassigned.accept_write _ _,?_⟩
  · have hselect : ProtocolSelectHandler.select cfg.rules request
        (ProtocolSelectHandler.isTls type versionHigh versionLow)=DirectAction.doFollowUp := by
      simp [ProtocolSelectHandler.select,hm]
    rw [hselect]
    refine runs_doFollowUp.append (Runs.cons ?_ (runs_assign.cons (runs_of_call hfire ?_)))
    · refine runs_active_relay .client (front++[Handler.protocolSelectHandler request (.init buffered)]) ?_ ?_
      · simpa using hfollow.client
      · exact silent_append ht.frontIdle (by simp [reacts])
    · exact runs_relay_bytes hassigned.remoteActive hassigned.remoteQuiet hclear
  · constructor <;> simp [assigned,followedUp,noted]

/-- After the selection, bytes go to the handler behind the selecting one. -/
theorem Tunnel.read_selected (cfg : Config) (data : Bytes) {h : Handler}
    (ht : Tunnel w front rear (.protocolSelectHandler request .success::h::cs) rs)
    (hq : reacts (.read (.bytes data)) h=true) (hd : data≠[]) :
    ∃ id, (w.pipe .client).Located id (front++[Handler.protocolSelectHandler request .success]) h cs ∧
      ∀ w', Takes cfg w .client id (.read (.bytes data)) h w' →
        Runs cfg w [.pipelineFire .client (.read (.bytes data))] w' := by
  obtain ⟨id,hl,hp⟩ := perform_pipelineFire cfg (.read (.bytes data)) ht.client
    (fun x hx => (ht.frontIdle x hx).1 _) rfl
  obtain ⟨id',hl',hfire⟩ := perform_ctxFire cfg (.read (.bytes data)) [] hl (by simp) hq
  refine ⟨id',hl',fun w' htake => runs_of_call hp ?_⟩
  change Runs cfg w (fireRest .client id data) w'
  rw [fireRest,if_neg hd]
  exact htake _ hfire

/-- After the selection, an empty read does nothing. -/
theorem Tunnel.read_selected_nil
    (ht : Tunnel w front rear (.protocolSelectHandler request .success::cs) rs) :
    Runs cfg w [.pipelineFire .client (.read (.bytes []))] w := by
  obtain ⟨id,hl,hp⟩ := perform_pipelineFire cfg (.read (.bytes [])) ht.client
    (fun x hx => (ht.frontIdle x hx).1 _) rfl
  exact runs_of_call hp runs_nil

/-- With interception on, a TLS record is handed to a new `SniHandler`. -/
theorem Tunnel.read_selecting_tls {buffered rest : Bytes} {type versionHigh versionLow : UInt8}
    (ht : Tunnel w front rear [.protocolSelectHandler request (.init buffered)] rs)
    (hb : buffered++data=type::versionHigh::versionLow::rest)
    (hm : cfg.rules.mitmConfig.isSome=true)
    (hv : ProtocolSelectHandler.isTls type versionHigh versionLow=true) :
    ∃ w₁ id, Tunnel w₁ front rear
        [.protocolSelectHandler request .success,.sniHandler request []] rs ∧
      Leads w w₁ [] [] [.selected true] ∧
      (w₁.pipe .client).Located id (front++[Handler.protocolSelectHandler request .success])
        (.sniHandler request []) [] ∧
      ∀ w', Takes cfg w₁ .client id (.read (.bytes (buffered++data))) (.sniHandler request []) w' →
        Runs cfg w [.pipelineFire .client (.read (.bytes data))] w' := by
  obtain ⟨id,hl,hrun⟩ := ht.read_selecting cfg hb
  rw [hv] at hrun
  let added := (w.note (.selected true)).updPipe .client
    (fun p => p.insertAt p.contexts.length none (.sniHandler request []))
  have hla : (added.pipe .client).Located id front
      (.protocolSelectHandler request (.init buffered)) [.sniHandler request []] := by
    simpa [added] using hl.insertAt_length none (.sniHandler request [])
  let assigned := added.updPipe .client
    (fun p => p.assign id (.protocolSelectHandler request .success))
  have hls : (assigned.pipe .client).Located id front
      (.protocolSelectHandler request .success) [.sniHandler request []] := by
    simpa [assigned] using hla.assign _
  obtain ⟨id',hl',hfire⟩ := perform_ctxFire cfg (.read (.bytes (buffered++data))) [] hls
    (by simp) rfl
  refine ⟨assigned,id',?_,?_,hl',fun w' htake => hrun w' ?_⟩
  · exact ht.of_pipes hls.handlers (by simpa [assigned,added] using ht.remote)
      (by simp [assigned,added]) (by simp [assigned,added])
  · constructor <;> simp [assigned,added]
  · have hselect : ProtocolSelectHandler.select cfg.rules request true=
        [.addLast .client none (.sniHandler request [])] := by
      simp [ProtocolSelectHandler.select,hm]
    rw [hselect]
    refine runs_addLast.append (Runs.cons (runs_pipelineFire_none ?_)
      (runs_assign.cons (htake _ hfire)))
    have hh : added.handlers .client=
        front++[Handler.protocolSelectHandler request (.init buffered),.sniHandler request []] := by
      simpa using hla.handlers
    change ∀ x∈added.handlers .client, _
    rw [hh]
    exact silent_append ht.frontIdle (by simp [reacts])

end Handlers

end ProxyDroid.TunnelPhases
