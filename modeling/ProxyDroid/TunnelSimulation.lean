import ProxyDroid.HttpPhases
import ProxyDroid.TunnelMachine

/-!
# The connection simulates the abstract tunnel

Every read of an established connection is handled to its end, in the phase
the machine computes, whatever the sizes of the chunks and the moments at
which the sockets take the writes.
-/

namespace ProxyDroid.TunnelSimulation

open CallSemantics HandlerPipeline ConnectionTypes ConnectionHandlers ConnectionSystem
open ConnectionRules TunnelPhases ServerNamePhases HttpPhases TunnelMachine

/-- The handlers of a phase that is not intercepting. -/
def InPhase (cfg : Config) (request : Socks5CommandRequest) (front rear : List Handler) (w : World) :
    Phase → Prop
  | .selecting buffered => Tunnel w front rear [.protocolSelectHandler request (.init buffered)] []
  | .greeting buffered =>
    Tunnel w front rear [.protocolSelectHandler request .success,.sniHandler request buffered] []
  | .stalled buffered interceptors =>
    cfg.clientHello buffered=some none ∧ ∃ spare,
      Tunnel w front rear
        (.protocolSelectHandler request .success::.sniHandler request buffered::spare) [] ∧
      (∀ h∈spare, Spare request h) ∧ spare.countP isInterceptor=interceptors
  | .checking history =>
    Tunnel w front rear
      (selectedHttp request++[Handler.httpRequestDecoder history,.httpCheckHandler request]) []
  | .relaying =>
    Tunnel w front rear [.protocolSelectHandler request .success,.relayHandler] [.relayHandler]
  | .refusing history =>
    Tunnel w front rear (selectedHttp request++[Handler.httpRequestDecoder history,.relayHandler])
      [.relayHandler]
  | .forwarding history =>
    ∃ sent, Tunnel w front rear (selectedHttp request++[Handler.httpRequestDecoder history,.relayHandler])
      [.relayHandler,.httpRequestEncoder sent]
  | .intercepting => False

section Reads

variable {cfg : Config} {w : World} {front rear : List Handler} {id : ℕ}
  {request : Socks5CommandRequest} {data : Bytes}

/-- The client hello read so far leads to the phase the machine computes. -/
theorem takes_hello {buffered : Bytes}
    (ht : Tunnel w front rear
      [.protocolSelectHandler request .success,.sniHandler request buffered] [])
    (hl : (w.pipe .client).Located id (front++[Handler.protocolSelectHandler request .success])
      (.sniHandler request buffered) [])
    (hn : afterHello cfg (buffered++data)≠.intercepting) :
    ∃ w' out, Takes cfg w .client id (.read (.bytes data)) (.sniHandler request buffered) w' ∧
      InPhase cfg request front rear w' (afterHello cfg (buffered++data)) ∧
      Leads w w' [] out [] ∧
      rawBytes out=(Phase.greeting buffered).relayed data (afterHello cfg (buffered++data)) := by
  cases hc : cfg.clientHello (buffered++data) with
  | none =>
    have hphase : afterHello cfg (buffered++data)=.greeting (buffered++data) := by
      simp [afterHello,hc]
    obtain ⟨w',htake,ht',hleads⟩ := sni_waits ht hl (.inl hc)
    exact ⟨w',[],htake,hphase ▸ ht',hleads,by rw [hphase]; rfl⟩
  | some found =>
    cases found with
    | none =>
      have hphase : afterHello cfg (buffered++data)=.stalled (buffered++data) 1 := by
        simp [afterHello,hc]
      obtain ⟨w',spare,htake,ht',hleads,hspare,hcount⟩ :=
        sni_nameless ht hl rfl (by simp) hc
      refine ⟨w',[],htake,?_,hleads,by rw [hphase]; rfl⟩
      rw [hphase]
      exact ⟨hc,spare,ht',hspare,hcount⟩
    | some host =>
      by_cases hh : host=""
      · have hphase : afterHello cfg (buffered++data)=.greeting (buffered++data) := by
          simp [afterHello,hc,hh]
        obtain ⟨w',htake,ht',hleads⟩ := sni_waits ht hl (.inr (hh ▸ hc))
        exact ⟨w',[],htake,hphase ▸ ht',hleads,by rw [hphase]; rfl⟩
      · cases hm : cfg.rules.mitmConfig.bind (fun matcher => matcher host) with
        | some interceptor => exact absurd (by simp [afterHello,hc,hh,hm]) hn
        | none =>
          have hphase : afterHello cfg (buffered++data)=.relaying := by
            simp [afterHello,hc,hh,hm]
          obtain ⟨w',htake,ht',hleads⟩ := sni_direct ht hl rfl hc hh hm
          refine ⟨w',_,htake,hphase ▸ ht',hleads,?_⟩
          rw [hphase,rawBytes_bytes]
          rfl

/-- The objects emitted so far lead to the phase the machine computes. -/
theorem runs_objects (objects : List HttpObject) {history : List Bytes}
    (ht : Tunnel w front rear
      (selectedHttp request++[Handler.httpRequestDecoder history,.httpCheckHandler request]) [])
    (hl : (w.pipe .client).Located id (front++selectedHttp request) (.httpRequestDecoder history)
      [.httpCheckHandler request])
    (hn : afterObjects cfg.rules request history objects≠.intercepting) :
    ∃ w' out seen, Runs cfg w (objects.map (fun object => fireRead .client id (.http object))) w' ∧
      InPhase cfg request front rear w' (afterObjects cfg.rules request history objects) ∧
      Leads w w' [] out seen ∧
      (afterObjects cfg.rules request history objects≠.forwarding history → out=[] ∧ seen=[]) := by
  induction objects with
  | nil => exact ⟨w,[],[],runs_nil,ht,.refl w,fun _ => ⟨rfl,rfl⟩⟩
  | cons object objects ih =>
    cases object with
    | request message =>
      by_cases hd : message.decoded=true
      · cases hm : cfg.rules.mitmConfig.bind
            (fun matcher => matcher (HttpInterceptorHandler.hostOf request message)) with
        | some interceptor => exact absurd (by simp [afterObjects,hd,hm]) hn
        | none =>
          have hphase : afterObjects cfg.rules request history (.request message::objects)=
              .forwarding history := by
            simp [afterObjects,hd,hm]
          obtain ⟨w₁,sent₁,out₁,seen₁,hrun₁,ht₁,hl₁,hleads₁⟩ := runs_check_direct cfg ht hl hd hm
          obtain ⟨w₂,sent₂,out₂,seen₂,hrun₂,ht₂,hleads₂⟩ :=
            runs_objects_forwarded cfg objects ht₁ hl₁
          refine ⟨w₂,_,_,hrun₁.cons hrun₂,?_,hleads₁.trans hleads₂,fun hne => absurd hphase hne⟩
          rw [hphase]
          exact ⟨sent₂,ht₂⟩
      · have hphase : afterObjects cfg.rules request history (.request message::objects)=
            .refusing history := by
          simp [afterObjects,hd]
        obtain ⟨w₁,hrun₁,ht₁,hl₁,hleads₁⟩ := runs_check_malformed cfg ht hl (by simpa using hd)
        exact ⟨w₁,[],[],hrun₁.cons (runs_objects_refused objects ht₁ hl₁),hphase ▸ ht₁,hleads₁,
          fun _ => ⟨rfl,rfl⟩⟩
    | response message =>
      obtain ⟨w',out,seen,hrun,hphase,hleads,hnone⟩ := ih hn
      have hpass : Runs cfg w [fireRead .client id (.http (.response message))] w :=
        runs_ctxFire_none hl (by simp [reacts,readsMessage])
      exact ⟨w',out,seen,hpass.cons hrun,hphase,hleads,hnone⟩
    | content chunk last =>
      obtain ⟨w',out,seen,hrun,hphase,hleads,hnone⟩ := ih hn
      have hpass : Runs cfg w [fireRead .client id (.http (.content chunk last))] w :=
        runs_ctxFire_none hl (by simp [reacts,readsMessage])
      exact ⟨w',out,seen,hpass.cons hrun,hphase,hleads,hnone⟩

/-- An HTTP decoder records what it reads, then emits its objects. -/
theorem decoder_reads (cfg : Config) (data : Bytes) {history : List Bytes} {cs rs : List Handler}
    (ht : Tunnel w front rear (selectedHttp request++Handler.httpRequestDecoder history::cs) rs)
    (hl : (w.pipe .client).Located id (front++selectedHttp request) (.httpRequestDecoder history) cs) :
    ∃ w₁, Tunnel w₁ front rear (selectedHttp request++Handler.httpRequestDecoder (history++[data])::cs) rs ∧
      (w₁.pipe .client).Located id (front++selectedHttp request)
        (.httpRequestDecoder (history++[data])) cs ∧ Leads w w₁ [] [] [] ∧
      ∀ w', Runs cfg w₁ ((cfg.httpDecode .client history data).map
          (fun object => fireRead .client id (.http object))) w' →
        Takes cfg w .client id (.read (.bytes data)) (.httpRequestDecoder history) w' := by
  have hla := hl.assign (.httpRequestDecoder (history++[data]))
  refine ⟨w.updPipe .client (fun p => p.assign id (.httpRequestDecoder (history++[data]))),
    ht.on_client ?_,by simpa using hla,leads_updPipe,fun w' hrun => takes_of_runs ?_⟩
  · simpa using hla.handlers
  · exact runs_assign.cons hrun

/-- Bytes behind the selecting and the intercepting handler reach the
decoder. -/
theorem read_decoder (cfg : Config) {history : List Bytes} {cs rs : List Handler}
    (ht : Tunnel w front rear (selectedHttp request++Handler.httpRequestDecoder history::cs) rs)
    (hd : data≠[]) :
    ∃ id, (w.pipe .client).Located id (front++selectedHttp request)
        (.httpRequestDecoder history) cs ∧
      ∀ w', Takes cfg w .client id (.read (.bytes data)) (.httpRequestDecoder history) w' →
        Runs cfg w [.pipelineFire .client (.read (.bytes data))] w' := by
  obtain ⟨id,hl,hp⟩ := perform_pipelineFire cfg (.read (.bytes data)) ht.client
    (fun x hx => (ht.frontIdle x hx).1 _) rfl
  obtain ⟨id',hl',hfire⟩ := perform_ctxFire cfg (.read (.bytes data))
    [.httpInterceptorHandler request] hl (by simp [reacts,readsMessage]) rfl
  refine ⟨id',by simpa using hl',fun w' htake => runs_of_call hp ?_⟩
  change Runs cfg w (fireRest .client id data) w'
  rw [fireRest,if_neg hd]
  exact htake _ hfire

/-- A read while the first three bytes are incomplete. -/
theorem read_selecting {buffered : Bytes}
    (ht : Tunnel w front rear [.protocolSelectHandler request (.init buffered)] [])
    (hn : (Phase.selecting buffered).read cfg request data≠.intercepting) :
    ∃ w' out seen, Runs cfg w [.pipelineFire .client (.read (.bytes data))] w' ∧
      InPhase cfg request front rear w' ((Phase.selecting buffered).read cfg request data) ∧
      Leads w w' [] out ((Phase.selecting buffered).choice data++seen) ∧
      ((∀ history, (Phase.selecting buffered).read cfg request data≠.forwarding history) →
        rawBytes out=(Phase.selecting buffered).relayed data
          ((Phase.selecting buffered).read cfg request data) ∧ seen=[]) := by
  rcases short_or_three (buffered++data) with hshort|⟨type,versionHigh,versionLow,rest,hb⟩
  · obtain ⟨hread,hchoice⟩ := Phase.read_short cfg request hshort
    obtain ⟨w',hrun,ht',hleads⟩ := ht.read_selecting_short cfg hshort
    rw [hread,hchoice]
    exact ⟨w',[],[],hrun,ht',hleads,fun _ => ⟨rfl,rfl⟩⟩
  · have hchoice : (Phase.selecting buffered).choice data=
        [.selected (ProtocolSelectHandler.isTls type versionHigh versionLow)] := by
      simp [Phase.choice,hb]
    rw [hchoice]
    cases hm : cfg.rules.mitmConfig with
    | none =>
      have hread : (Phase.selecting buffered).read cfg request data=.relaying := by
        simp [Phase.read,hb,hm]
      obtain ⟨w',hrun,ht',hleads⟩ := ht.read_selecting_direct hb hm
      rw [hread]
      exact ⟨w',_,[],hrun,ht',hleads,fun _ => ⟨rawBytes_bytes _,rfl⟩⟩
    | some matcher =>
      have hsome : cfg.rules.mitmConfig.isSome=true := by simp [hm]
      cases hv : ProtocolSelectHandler.isTls type versionHigh versionLow with
      | true =>
        have hread : (Phase.selecting buffered).read cfg request data=
            afterHello cfg ([]++(buffered++data)) := by
          simp [Phase.read,hb,hm,hv]
        rw [hread] at hn ⊢
        obtain ⟨w₁,id,ht₁,hleads₁,hl₁,hrun⟩ := ht.read_selecting_tls hb hsome hv
        obtain ⟨w',out,htake,hphase,hleads,hout⟩ := takes_hello ht₁ hl₁ hn
        refine ⟨w',out,[],hrun w' htake,hphase,hleads₁.trans hleads,fun _ => ⟨?_,rfl⟩⟩
        rw [hout]
        cases afterHello cfg ([]++(buffered++data)) <;> rfl
      | false =>
        have hread : (Phase.selecting buffered).read cfg request data=
            afterObjects cfg.rules request ([]++[buffered++data])
              (cfg.httpDecode .client [] (buffered++data)) := by
          simp [Phase.read,hb,hm,hv]
        rw [hread] at hn ⊢
        obtain ⟨w₁,id,ht₁,hleads₁,hl₁,hrun⟩ := selecting_http ht hb hsome hv
        obtain ⟨w₂,ht₂,hl₂,hleads₂,htake⟩ := decoder_reads cfg (buffered++data) ht₁ hl₁
        obtain ⟨w',out,seen,hobjects,hphase,hleads,hnone⟩ := runs_objects _ ht₂ hl₂ hn
        refine ⟨w',out,seen,hrun w' (htake w' hobjects),hphase,
          hleads₁.trans (hleads₂.trans hleads),fun hne => ?_⟩
        obtain ⟨rfl,rfl⟩ := hnone (hne _)
        refine ⟨?_,rfl⟩
        rcases afterObjects_cases cfg.rules request ([]++[buffered++data])
          (cfg.httpDecode .client [] (buffered++data)) with hc|hc|hc|hc <;> rw [hc] <;> rfl

/-- A relay handler behind the selecting one passes the client's bytes on. -/
theorem read_relaying (cfg : Config) (data : Bytes)
    (ht : Tunnel w front rear [.protocolSelectHandler request .success,.relayHandler]
      [.relayHandler]) :
    ∃ w' out, Runs cfg w [.pipelineFire .client (.read (.bytes data))] w' ∧
      Tunnel w' front rear [.protocolSelectHandler request .success,.relayHandler]
        [.relayHandler] ∧ Leads w w' [] out [] ∧ rawBytes out=data := by
  by_cases hd : data=[]
  · subst hd
    exact ⟨w,[],ht.read_selected_nil,ht,.refl w,rfl⟩
  · obtain ⟨id,hl,hrun⟩ := ht.read_selected cfg data rfl hd
    have hclear : ∀ x∈w.handlers .remote, intercepts (.bytes data) x=false := by
      rw [ht.remote]
      exact transparent_append ht.rearIdle (by simp) (by simp [intercepts])
    refine ⟨accept cfg w .remote (.bytes data),[.bytes data],hrun _ (takes_of_runs
      (runs_relay_bytes ht.remoteActive ht.remoteQuiet hclear)),ht.accept_write _ _,?_,
      rawBytes_bytes data⟩
    constructor <;> simp

/-- A read of the client's chunk leads to the phase the machine computes,
and writes and records what the machine says. -/
theorem InPhase.read_client {phase : Phase} (data : Bytes)
    (h : InPhase cfg request front rear w phase)
    (hn : phase.read cfg request data≠.intercepting) :
    ∃ w' out seen, Runs cfg w [.pipelineFire .client (.read (.bytes data))] w' ∧
      InPhase cfg request front rear w' (phase.read cfg request data) ∧
      Leads w w' [] out (phase.choice data++seen) ∧
      ((∀ history, phase.read cfg request data≠.forwarding history) →
        rawBytes out=phase.relayed data (phase.read cfg request data) ∧ seen=[]) := by
  cases phase with
  | selecting buffered => exact read_selecting h hn
  | greeting buffered =>
    by_cases hd : data=[]
    · subst hd
      exact ⟨w,[],[],Tunnel.read_selected_nil h,h,.refl w,fun _ => ⟨rfl,rfl⟩⟩
    · have hread : (Phase.greeting buffered).read cfg request data=
          afterHello cfg (buffered++data) := by simp [Phase.read,hd]
      rw [hread] at hn ⊢
      obtain ⟨id,hl,hrun⟩ := Tunnel.read_selected cfg data h rfl hd
      obtain ⟨w',out,htake,hphase,hleads,hout⟩ := takes_hello h hl hn
      exact ⟨w',out,[],hrun w' htake,hphase,hleads,fun _ => ⟨hout,rfl⟩⟩
  | stalled buffered interceptors =>
    obtain ⟨hc,spare,ht,hspare,hcount⟩ := h
    by_cases hd : data=[]
    · subst hd
      exact ⟨w,[],[],ht.read_selected_nil,⟨hc,spare,ht,hspare,hcount⟩,.refl w,fun _ => ⟨rfl,rfl⟩⟩
    · have hread : (Phase.stalled buffered interceptors).read cfg request data=
          .stalled (buffered++data) (interceptors+1) := by simp [Phase.read,hd]
      have hmore := cfg.clientHello_append _ data _ hc
      obtain ⟨id,hl,hrun⟩ := ht.read_selected cfg data rfl hd
      obtain ⟨w',spare',htake,ht',hleads,hspare',hcount'⟩ := sni_nameless ht hl rfl hspare hmore
      rw [hread]
      exact ⟨w',[],[],hrun w' htake,⟨hmore,spare',ht',hspare',by rw [hcount',hcount]⟩,hleads,
        fun _ => ⟨rfl,rfl⟩⟩
  | checking history =>
    by_cases hd : data=[]
    · subst hd
      exact ⟨w,[],[],Tunnel.read_selected_nil h,h,.refl w,fun _ => ⟨rfl,rfl⟩⟩
    · have hread : (Phase.checking history).read cfg request data=
          afterObjects cfg.rules request (history++[data]) (cfg.httpDecode .client history data) := by
        simp [Phase.read,hd]
      rw [hread] at hn ⊢
      obtain ⟨id,hl,hrun⟩ := read_decoder cfg h hd
      obtain ⟨w₁,ht₁,hl₁,hleads₁,htake⟩ := decoder_reads cfg data h hl
      obtain ⟨w',out,seen,hobjects,hphase,hleads,hnone⟩ := runs_objects _ ht₁ hl₁ hn
      refine ⟨w',out,seen,hrun w' (htake w' hobjects),hphase,hleads₁.trans hleads,fun hne => ?_⟩
      obtain ⟨rfl,rfl⟩ := hnone (hne _)
      exact ⟨rfl,rfl⟩
  | relaying =>
    obtain ⟨w',out,hrun,ht,hleads,hout⟩ := read_relaying cfg data h
    exact ⟨w',out,[],hrun,ht,hleads,fun _ => ⟨hout,rfl⟩⟩
  | refusing history =>
    by_cases hd : data=[]
    · subst hd
      exact ⟨w,[],[],Tunnel.read_selected_nil h,h,.refl w,fun _ => ⟨rfl,rfl⟩⟩
    · have hread : (Phase.refusing history).read cfg request data=.refusing (history++[data]) := by
        simp [Phase.read,hd]
      rw [hread]
      obtain ⟨id,hl,hrun⟩ := read_decoder cfg h hd
      obtain ⟨w₁,ht₁,hl₁,hleads₁,htake⟩ := decoder_reads cfg data h hl
      exact ⟨w₁,[],[],hrun w₁ (htake w₁ (runs_objects_refused _ ht₁ hl₁)),ht₁,hleads₁,
        fun _ => ⟨rfl,rfl⟩⟩
  | forwarding history =>
    obtain ⟨sent,ht⟩ := h
    by_cases hd : data=[]
    · subst hd
      exact ⟨w,[],[],ht.read_selected_nil,⟨sent,ht⟩,.refl w,fun _ => ⟨rfl,rfl⟩⟩
    · have hread : (Phase.forwarding history).read cfg request data=
          .forwarding (history++[data]) := by simp [Phase.read,hd]
      rw [hread]
      obtain ⟨id,hl,hrun⟩ := read_decoder cfg ht hd
      obtain ⟨w₁,ht₁,hl₁,hleads₁,htake⟩ := decoder_reads cfg data ht hl
      obtain ⟨w',sent',out,seen,hobjects,ht',hleads⟩ := runs_objects_forwarded cfg _ ht₁ hl₁
      exact ⟨w',out,seen,hrun w' (htake w' hobjects),⟨sent',ht'⟩,hleads₁.trans hleads,
        fun hne => absurd rfl (hne _)⟩
  | intercepting => exact h.elim

/-- What all phases have in common: a phase is a matter of the handlers, no
handler waits for the end of a read or takes raw bytes written to the
client, and the remote handlers start with a relay handler or are absent. -/
theorem InPhase.shape {phase : Phase} (h : InPhase cfg request front rear w phase) :
    ∃ cs rs, Tunnel w front rear cs rs ∧
      (∀ w', Tunnel w' front rear cs rs → InPhase cfg request front rear w' phase) ∧
      (∀ x∈cs, reacts .readComplete x=false ∧ ∀ data, intercepts (.bytes data) x=false) ∧
      (∀ x∈rs, reacts .readComplete x=false) ∧
      if phase.installed then ∃ rest, rs=.relayHandler::rest else rs=[] := by
  cases phase with
  | selecting buffered => exact ⟨_,_,h,fun _ h' => h',by simp [reacts,intercepts],by simp,rfl⟩
  | greeting buffered => exact ⟨_,_,h,fun _ h' => h',by simp [reacts,intercepts],by simp,rfl⟩
  | stalled buffered interceptors =>
    obtain ⟨hc,spare,ht,hspare,hcount⟩ := h
    refine ⟨_,_,ht,fun _ h' => ⟨hc,spare,h',hspare,hcount⟩,?_,by simp,rfl⟩
    intro x hx
    simp only [List.mem_cons] at hx
    rcases hx with rfl|rfl|hx
    · exact ⟨rfl,fun _ => rfl⟩
    · exact ⟨rfl,fun _ => rfl⟩
    · rcases hspare x hx with rfl|rfl|rfl <;> exact ⟨rfl,fun _ => rfl⟩
  | checking history => exact ⟨_,_,h,fun _ h' => h',by simp [reacts,intercepts],by simp,rfl⟩
  | relaying =>
    exact ⟨_,_,h,fun _ h' => h',by simp [reacts,intercepts],by simp [reacts],_,rfl⟩
  | refusing history =>
    exact ⟨_,_,h,fun _ h' => h',by simp [reacts,intercepts],by simp [reacts],_,rfl⟩
  | forwarding history =>
    obtain ⟨sent,ht⟩ := h
    exact ⟨_,_,ht,fun _ h' => ⟨sent,h'⟩,by simp [reacts,intercepts],by simp [reacts],_,rfl⟩
  | intercepting => exact h.elim

/-- Remote chunks go to the client once the relay handlers are installed and
are discarded before. -/
theorem InPhase.read_remote {phase : Phase} (data : Bytes)
    (h : InPhase cfg request front rear w phase) :
    ∃ w', Runs cfg w [.pipelineFire .remote (.read (.bytes data))] w' ∧
      InPhase cfg request front rear w' phase ∧
      Leads w w' (if phase.installed then [.bytes data] else []) [] [] := by
  obtain ⟨cs,rs,ht,hshape,hcs,-,hrs⟩ := h.shape
  cases hi : phase.installed with
  | true =>
    rw [if_pos hi] at hrs
    obtain ⟨rest,rfl⟩ := hrs
    obtain ⟨id,-,hfire⟩ := perform_pipelineFire cfg (.read (.bytes data)) ht.remote
      (fun x hx => (ht.rearIdle x hx).1 _) rfl
    have hclear : ∀ x∈w.handlers .client, intercepts (.bytes data) x=false := by
      rw [ht.client]
      exact transparent_append ht.frontIdle (by simp) (fun x hx => (hcs x hx).2 data)
    refine ⟨accept cfg w .client (.bytes data),runs_of_call hfire
      (runs_relay_bytes ht.clientActive ht.clientQuiet hclear),hshape _ (ht.accept_write _ _),?_⟩
    constructor <;> simp
  | false =>
    rw [hi,if_neg Bool.false_ne_true] at hrs
    subst hrs
    refine ⟨w,runs_pipelineFire_none ?_,h,.refl w⟩
    rw [ht.remote]
    exact silent_append ht.rearIdle (by simp)

/-- A socket that takes the queued writes changes neither the phase nor what
has been written. -/
theorem InPhase.flushed {phase : Phase} {s : Side} {w' : World}
    (h : InPhase cfg request front rear w phase) (hturn : (system cfg).Turn w (.flushed s) w') :
    InPhase cfg request front rear w' phase ∧ Leads w w' [] [] [] := by
  obtain ⟨cs,rs,ht,hshape,-,-,-⟩ := h.shape
  have hquiet : Quiet w s := by
    cases s with
    | client => exact ht.clientQuiet
    | remote => exact ht.remoteQuiet
  have hdrain : Runs cfg w [.drain s] (w.takeQueue s) :=
    runs_of_call rfl (runs_notify_none hquiet)
  obtain ⟨w₀,stmts,x,hinject,heval⟩ := hturn
  change (if w.isActive s && (w.chan s).queue≠[] then some (w,[Stmt.drain s]) else none)=_ at hinject
  split at hinject
  · cases hinject
    obtain ⟨rfl,-⟩ := heval.deterministic hdrain
    refine ⟨hshape _ (ht.of_pipes ?_ ?_ ?_ ?_),?_⟩
    · cases s <;> exact ht.client
    · cases s <;> exact ht.remote
    · intro t
      cases s <;> cases t <;> rfl
    · intro t hq
      cases s <;> cases t <;> first | exact hq | exact fun entry he => absurd he (by simp [World.takeQueue,World.upd])
    · constructor <;> cases s <;> simp [World.takeQueue,World.upd,World.written]
  · cases hinject

/-- Every phase handles a read of either channel to its end. -/
theorem InPhase.turn {phase : Phase} {s : Side} {w' : World} {phase' : Phase}
    (h : InPhase cfg request front rear w phase)
    (hrun : Runs cfg w [.pipelineFire s (.read (.bytes data))] w')
    (h' : InPhase cfg request front rear w' phase') : (system cfg).Turn w (.read s data) w' := by
  obtain ⟨cs,rs,ht,-,-,-,-⟩ := h.shape
  obtain ⟨cs',rs',ht',-,hcs',hrs',-⟩ := h'.shape
  cases s with
  | client =>
    refine turn_read ht.clientActive hrun ?_
    rw [ht'.client]
    exact silent_append ht'.frontIdle (fun x hx => (hcs' x hx).1)
  | remote =>
    refine turn_read ht.remoteActive hrun ?_
    rw [ht'.remote]
    exact silent_append ht'.rearIdle hrs'

end Reads

/-- Reads of both channels and sockets that take queued writes. -/
def Streaming : Event → Prop
  | .read _ _ => True
  | .flushed _ => True
  | _ => False

/-- A connection right after its upstream promise has succeeded. -/
structure Established (request : Socks5CommandRequest) (front rear : List Handler) (w : World) :
    Prop where
  /-- The client pipeline ends with a new `ProtocolSelectHandler`. -/
  tunnel : Tunnel w front rear [.protocolSelectHandler request (.init [])] []
  /-- No relayed byte has been written to the client. -/
  client : w.raw .client=[]
  /-- No relayed byte has been written to the remote. -/
  remote : w.raw .remote=[]
  /-- Nothing has been selected. -/
  fresh : selections w.log=[]

/-- The connection is in the phase of the machine and has written what the
machine says. -/
structure Follows (cfg : Config) (request : Socks5CommandRequest) (front rear : List Handler)
    (m : Machine) (w : World) : Prop where
  /-- Handlers of the phase. -/
  phase : InPhase cfg request front rear w m.phase
  /-- Bytes written to the client. -/
  client : w.raw .client=m.delivered
  /-- Bytes written to the remote. -/
  remote : (∀ history, m.phase≠.forwarding history) → w.raw .remote=m.passed
  /-- The choice made. -/
  choice : (∀ history, m.phase≠.forwarding history) → selections w.log=choiceFor m.received

section Simulation

variable {cfg : Config} {w : World} {front rear : List Handler} {request : Socks5CommandRequest}
  {m : Machine}

/-- An established connection is at the start of the machine. -/
theorem Established.follows (h : Established request front rear w) :
    Follows cfg request front rear .start w where
  phase := h.tunnel
  client := h.client
  remote := fun _ => h.remote
  choice := fun _ => h.fresh

/-- A channel of a phase is open. -/
theorem Follows.active {m : Machine} (h : Follows cfg request front rear m w) (s : Side) :
    w.isActive s=true := by
  obtain ⟨cs,rs,ht,-,-,-,-⟩ := h.phase.shape
  cases s with
  | client => exact ht.clientActive
  | remote => exact ht.remoteActive

/-- One read from the client. -/
theorem Follows.read_client (data : Bytes) (hw : m.Wf) (h : Follows cfg request front rear m w)
    (hn : m.phase.read cfg request data≠.intercepting) :
    ∃ w', (system cfg).Turn w (.read .client data) w' ∧
      Follows cfg request front rear (m.step cfg request (.read .client data)) w' := by
  obtain ⟨w',out,seen,hrun,hphase,hleads,hout⟩ := h.phase.read_client data hn
  have hback : (∀ history, m.phase.read cfg request data≠.forwarding history) →
      ∀ history, m.phase≠.forwarding history := by
    intro hf history hp
    obtain ⟨history',hread⟩ := Phase.read_forwarding cfg request data history
    exact hf history' (hp ▸ hread)
  refine ⟨w',h.phase.turn hrun hphase,hphase,?_,?_,?_⟩
  · rw [World.raw,hleads.client,List.append_nil]
    exact h.client
  · intro hf
    have hbytes : w'.raw .remote=w.raw .remote++rawBytes out := by
      rw [World.raw,hleads.remote,rawBytes_append]
      rfl
    rw [hbytes,h.remote (hback hf),(hout hf).1,hw.passed_read]
  · intro hf
    have hlog : selections w'.log=selections w.log++selections (m.phase.choice data) := by
      rw [hleads.log,(hout hf).2,List.append_nil,selections,List.filterMap_append]
      rfl
    rw [hlog,h.choice (hback hf),hw.choice_read]
    rfl

/-- One read from the remote. -/
theorem Follows.read_remote (data : Bytes) (h : Follows cfg request front rear m w) :
    ∃ w', (system cfg).Turn w (.read .remote data) w' ∧
      Follows cfg request front rear (m.step cfg request (.read .remote data)) w' := by
  obtain ⟨w',hrun,hphase,hleads⟩ := h.phase.read_remote data
  refine ⟨w',h.phase.turn hrun hphase,hphase,?_,?_,?_⟩
  · rw [World.raw,hleads.client,rawBytes_append]
    change w.raw .client++_=if m.phase.installed then m.delivered++data else m.delivered
    rw [h.client]
    split <;> simp
  · intro hf
    rw [World.raw,hleads.remote,List.append_nil]
    exact h.remote hf
  · intro hf
    rw [hleads.log,List.append_nil]
    exact h.choice hf

/-- One streaming event, whose turn is given. -/
theorem Follows.turn {event : Event} {w' : World} (hw : m.Wf)
    (h : Follows cfg request front rear m w) (he : Streaming event)
    (hn : (m.step cfg request event).phase≠.intercepting)
    (hturn : (system cfg).Turn w event w') :
    Follows cfg request front rear (m.step cfg request event) w' := by
  cases event with
  | read s data =>
    cases s with
    | client =>
      obtain ⟨w₁,hturn₁,h₁⟩ := h.read_client data hw hn
      exact hturn.deterministic hturn₁ ▸ h₁
    | remote =>
      obtain ⟨w₁,hturn₁,h₁⟩ := h.read_remote data
      exact hturn.deterministic hturn₁ ▸ h₁
  | flushed s =>
    obtain ⟨hphase,hleads⟩ := h.phase.flushed hturn
    refine ⟨hphase,?_,?_,?_⟩
    · rw [World.raw,hleads.client,List.append_nil]
      exact h.client
    · intro hf
      rw [World.raw,hleads.remote,List.append_nil]
      exact h.remote hf
    · intro hf
      rw [hleads.log,List.append_nil]
      exact h.choice hf
  | connected | connectFailed | peerClose | ioException | writeError | inactive => exact he.elim

/-- Along every streaming run that is not intercepted, the connection does
what the machine does. -/
theorem Established.run {events : List Event} {w' : World}
    (h : Established request front rear w)
    (hrun : (system cfg).RunUnder (fun _ event => Streaming event) w events w')
    (hn : ∀ before, before<+:events → (Machine.after cfg request before).phase≠.intercepting) :
    (Machine.after cfg request events).Wf ∧
      Follows cfg request front rear (Machine.after cfg request events) w' := by
  induction hrun with
  | nil => exact ⟨Machine.wf_start,h.follows⟩
  | @snoc events event w₁ w₂ run meets turn ih =>
    obtain ⟨hw,hfollows⟩ := ih (fun before hb => hn before (hb.trans (List.prefix_append _ _)))
    have hafter : Machine.after cfg request (events++[event])=
        (Machine.after cfg request events).step cfg request event := by
      simp [Machine.after]
    have hnext := hn _ (List.prefix_refl _)
    rw [hafter] at hnext ⊢
    exact ⟨hw.step event,hfollows.turn hw meets hnext turn⟩

end Simulation

end ProxyDroid.TunnelSimulation
