import ProxyDroid.ConnectionSystem
import Mathlib.Data.List.Induction

/-!
# The abstract machine of an established tunnel

What a tunnel does with the chunks it reads depends on a phase that is a
function of the client's chunks alone. The machine computes the phase, the
choice between TLS and other streams, and the bytes relayed in both
directions; it names no handler, pipeline or socket.
-/

namespace ProxyDroid.TunnelMachine

open ConnectionTypes ConnectionHandlers ConnectionSystem

/-- Where the handling of the client's stream stands. -/
inductive Phase where
  /-- Fewer than three bytes have arrived. -/
  | selecting (buffered : Bytes)
  /-- A TLS client hello is incomplete or names an empty host. -/
  | greeting (buffered : Bytes)
  /-- A client hello without a server name, after this many failed reads. -/
  | stalled (buffered : Bytes) (interceptors : ℕ)
  /-- The HTTP decoder has seen these reads and no request yet. -/
  | checking (history : List Bytes)
  /-- Bytes are relayed in both directions. -/
  | relaying
  /-- A malformed request: decoded objects meet no encoder. -/
  | refusing (history : List Bytes)
  /-- A request that is not intercepted: decoded objects are encoded again. -/
  | forwarding (history : List Bytes)
  /-- An intercepted connection. -/
  | intercepting
  deriving DecidableEq

/-- Phase after the client hello bytes received so far. -/
def afterHello (cfg : Config) (buffered : Bytes) : Phase :=
  match cfg.clientHello buffered with
  | none => .greeting buffered
  | some none => .stalled buffered 1
  | some (some host) =>
    if host="" then .greeting buffered
    else match cfg.rules.mitmConfig.bind (fun matcher => matcher host) with
      | none => .relaying
      | some _ => .intercepting

/-- Phase after the objects a read of the HTTP decoder emitted: the first
request among them settles it. -/
def afterObjects (rules : Rules) (request : Socks5CommandRequest) (history : List Bytes) :
    List HttpObject → Phase
  | [] => .checking history
  | .request message::_ =>
    if message.decoded then
      match rules.mitmConfig.bind
        (fun matcher => matcher (HttpInterceptorHandler.hostOf request message)) with
      | none => .forwarding history
      | some _ => .intercepting
    else .refusing history
  | .response _::objects => afterObjects rules request history objects
  | .content _ _::objects => afterObjects rules request history objects

/-- Phase after one more read from the client. -/
def Phase.read (cfg : Config) (request : Socks5CommandRequest) : Phase → Bytes → Phase
  | .selecting buffered,data =>
    match buffered++data with
    | type::versionHigh::versionLow::rest =>
      if cfg.rules.mitmConfig.isSome then
        if ProtocolSelectHandler.isTls type versionHigh versionLow then
          afterHello cfg (type::versionHigh::versionLow::rest)
        else
          afterObjects cfg.rules request [type::versionHigh::versionLow::rest]
            (cfg.httpDecode .client [] (type::versionHigh::versionLow::rest))
      else .relaying
    | short => .selecting short
  | .greeting buffered,data => if data=[] then .greeting buffered else afterHello cfg (buffered++data)
  | .stalled buffered interceptors,data =>
    if data=[] then .stalled buffered interceptors
    else .stalled (buffered++data) (interceptors+1)
  | .checking history,data =>
    if data=[] then .checking history
    else afterObjects cfg.rules request (history++[data]) (cfg.httpDecode .client history data)
  | .relaying,_ => .relaying
  | .refusing history,data => if data=[] then .refusing history else .refusing (history++[data])
  | .forwarding history,data => if data=[] then .forwarding history else .forwarding (history++[data])
  | .intercepting,_ => .intercepting

/-- Whether the relay handlers are installed. -/
def Phase.installed : Phase → Bool
  | .relaying | .refusing _ | .forwarding _ | .intercepting => true
  | .selecting _ | .greeting _ | .stalled _ _ | .checking _ => false

/-- Bytes for the remote that a read brings about, given the phase after it. -/
def Phase.relayed : Phase → Bytes → Phase → Bytes
  | .selecting buffered,data,.relaying => buffered++data
  | .greeting buffered,data,.relaying => buffered++data
  | .relaying,data,_ => data
  | _,_,_ => []

/-- The choice between TLS and other streams, at the read that completes
three bytes. -/
def Phase.choice : Phase → Bytes → List Obs
  | .selecting buffered,data =>
    match buffered++data with
    | type::versionHigh::versionLow::_ =>
      [.selected (ProtocolSelectHandler.isTls type versionHigh versionLow)]
    | _ => []
  | _,_ => []

/-- State of the abstract tunnel. -/
structure Machine where
  /-- Phase of the client's stream. -/
  phase : Phase
  /-- Bytes read from the client. -/
  received : Bytes
  /-- Bytes read from the remote and relayed to the client. -/
  delivered : Bytes

/-- The tunnel before any chunk. -/
def Machine.start : Machine := ⟨.selecting [],[],[]⟩

/-- One event of the abstract tunnel. -/
def Machine.step (cfg : Config) (request : Socks5CommandRequest) (m : Machine) : Event → Machine
  | .read .client data => ⟨m.phase.read cfg request data,m.received++data,m.delivered⟩
  | .read .remote data =>
    ⟨m.phase,m.received,if m.phase.installed then m.delivered++data else m.delivered⟩
  | _ => m

/-- The abstract tunnel after some events. -/
def Machine.after (cfg : Config) (request : Socks5CommandRequest) (events : List Event) : Machine :=
  events.foldl (Machine.step cfg request) .start

/-- Client bytes a phase holds back. -/
def Phase.buffer : Phase → Option Bytes
  | .selecting buffered => some buffered
  | .greeting buffered => some buffered
  | .stalled buffered _ => some buffered
  | .checking history => some history.flatten
  | .refusing history => some history.flatten
  | .relaying | .forwarding _ | .intercepting => none

/-- Raw bytes written to the remote, outside the forwarding phase. -/
def Machine.passed (m : Machine) : Bytes := if m.phase=.relaying then m.received else []

/-- The choices between TLS and other streams in a log. -/
def selections (log : List Obs) : List Bool :=
  log.filterMap (fun | .selected isTls => some isTls | _ => none)

/-- The one choice made for a stream, once three bytes have arrived. -/
def choiceFor : Bytes → List Bool
  | type::versionHigh::versionLow::_ => [ProtocolSelectHandler.isTls type versionHigh versionLow]
  | _ => []

/-- What holds of the machine on its own. -/
structure Machine.Wf (m : Machine) : Prop where
  /-- Bytes held back are all bytes received. -/
  buffer : ∀ held, m.phase.buffer=some held → held=m.received
  /-- The selection waits for three bytes. -/
  short : (∃ held, m.phase=.selecting held) ↔ m.received.length<3

section Phases

variable {cfg : Config} {request : Socks5CommandRequest} {data held : Bytes}

/-- The phases a client hello can lead to. -/
theorem afterHello_cases (cfg : Config) (buffered : Bytes) :
    afterHello cfg buffered=.greeting buffered ∨ afterHello cfg buffered=.stalled buffered 1 ∨
      afterHello cfg buffered=.relaying ∨ afterHello cfg buffered=.intercepting := by
  unfold afterHello
  split
  · simp
  · simp
  · split
    · simp
    · split <;> simp

/-- The phases the objects of an HTTP decoder can lead to. -/
theorem afterObjects_cases (rules : Rules) (request : Socks5CommandRequest)
    (history : List Bytes) (objects : List HttpObject) :
    afterObjects rules request history objects=.checking history ∨
      afterObjects rules request history objects=.refusing history ∨
      afterObjects rules request history objects=.forwarding history ∨
      afterObjects rules request history objects=.intercepting := by
  induction objects with
  | nil => exact .inl rfl
  | cons object objects ih =>
    cases object with
    | request message =>
      unfold afterObjects
      split
      · split <;> simp
      · simp
    | response message => exact ih
    | content chunk last => exact ih

/-- Bytes are short of the first choice, or have the three it looks at. -/
theorem short_or_three (buffered : Bytes) : buffered.length<3 ∨
    ∃ type versionHigh versionLow rest, buffered=type::versionHigh::versionLow::rest := by
  match buffered with
  | [] => exact .inl (by simp)
  | [_] => exact .inl (by simp)
  | [_,_] => exact .inl (by simp)
  | type::versionHigh::versionLow::rest => exact .inr ⟨type,versionHigh,versionLow,rest,rfl⟩

/-- Fewer than three bytes are kept, and nothing is chosen. -/
theorem Phase.read_short (cfg : Config) (request : Socks5CommandRequest) {buffered : Bytes}
    (hb : (buffered++data).length<3) :
    (Phase.selecting buffered).read cfg request data=.selecting (buffered++data) ∧
      (Phase.selecting buffered).choice data=[] := by
  dsimp only [Phase.read,Phase.choice]
  constructor
  · split
    · rename_i he
      rw [he] at hb
      simp only [List.length_cons] at hb
      omega
    · rfl
  · split
    · rename_i he
      rw [he] at hb
      simp only [List.length_cons] at hb
      omega
    · rfl

/-- Three bytes end the selection. -/
theorem Phase.read_three {buffered rest : Bytes} {type versionHigh versionLow : UInt8}
    (hb : buffered++data=type::versionHigh::versionLow::rest) :
    (Phase.selecting buffered).read cfg request data=
      if cfg.rules.mitmConfig.isSome then
        if ProtocolSelectHandler.isTls type versionHigh versionLow then
          afterHello cfg (buffered++data)
        else afterObjects cfg.rules request [buffered++data]
          (cfg.httpDecode .client [] (buffered++data))
      else .relaying := by
  simp [Phase.read,hb]

/-- A read keeps exactly the bytes received, as long as it keeps any. -/
theorem Phase.read_buffer {phase : Phase} {received : Bytes}
    (hphase : ∀ held, phase.buffer=some held → held=received)
    (h : (phase.read cfg request data).buffer=some held) : held=received++data := by
  have hello : ∀ buffered, (afterHello cfg buffered).buffer=some held → held=buffered := by
    intro buffered hheld
    rcases afterHello_cases cfg buffered with hc|hc|hc|hc <;> rw [hc] at hheld <;> cases hheld <;> rfl
  have objects : ∀ history emitted,
      (afterObjects cfg.rules request history emitted).buffer=some held → held=history.flatten := by
    intro history emitted hheld
    rcases afterObjects_cases cfg.rules request history emitted with hc|hc|hc|hc <;>
      rw [hc] at hheld <;> cases hheld <;> rfl
  have keeps : data=[] → phase.buffer=some held → held=received++data := by
    intro hd hheld
    rw [hd,List.append_nil]
    exact hphase held hheld
  cases phase with
  | selecting buffered =>
    have hb : buffered=received := hphase _ rfl
    rcases short_or_three (buffered++data) with hshort|⟨type,versionHigh,versionLow,rest,hthree⟩
    · rw [(Phase.read_short cfg request hshort).1,hb] at h
      exact (Option.some.inj h).symm
    · rw [Phase.read_three hthree,hb] at h
      split at h
      · split at h
        · exact hello _ h
        · simpa using objects _ _ h
      · cases h
  | greeting buffered =>
    have hb : buffered=received := hphase _ rfl
    rw [Phase.read] at h
    split at h
    · exact keeps ‹_› h
    · exact hb ▸ hello _ h
  | stalled buffered interceptors =>
    have hb : buffered=received := hphase _ rfl
    rw [Phase.read] at h
    split at h
    · exact keeps ‹_› h
    · exact hb ▸ (Option.some.inj h).symm
  | checking history =>
    have hb : history.flatten=received := hphase _ rfl
    rw [Phase.read] at h
    split at h
    · exact keeps ‹_› h
    · simpa [hb] using objects _ _ h
  | refusing history =>
    have hb : history.flatten=received := hphase _ rfl
    rw [Phase.read] at h
    split at h
    · exact keeps ‹_› h
    · simpa [Phase.buffer,hb] using h.symm
  | relaying => cases h
  | forwarding history =>
    rw [Phase.read] at h
    split at h <;> cases h
  | intercepting => cases h

/-- The selection is not repeated. -/
theorem Phase.read_ne_selecting {phase : Phase} (h : ∀ held, phase≠.selecting held) :
    ∀ held, phase.read cfg request data≠.selecting held := by
  intro held hread
  cases phase with
  | selecting buffered => exact h _ rfl
  | greeting buffered =>
    rw [Phase.read] at hread
    split at hread
    · cases hread
    · rcases afterHello_cases cfg (buffered++data) with hc|hc|hc|hc <;> rw [hc] at hread <;>
        cases hread
  | checking history =>
    rw [Phase.read] at hread
    split at hread
    · cases hread
    · rcases afterObjects_cases cfg.rules request (history++[data])
        (cfg.httpDecode .client history data) with hc|hc|hc|hc <;> rw [hc] at hread <;> cases hread
  | stalled | refusing | forwarding =>
    rw [Phase.read] at hread
    split at hread <;> cases hread
  | relaying => cases hread
  | intercepting => cases hread

/-- Three bytes end the selection for good. -/
theorem Phase.read_three_ne_selecting {buffered rest : Bytes} {type versionHigh versionLow : UInt8}
    (hb : buffered++data=type::versionHigh::versionLow::rest) :
    ∀ held, (Phase.selecting buffered).read cfg request data≠.selecting held := by
  intro held hread
  rw [Phase.read_three hb] at hread
  split at hread
  · split at hread
    · rcases afterHello_cases cfg (buffered++data) with hc|hc|hc|hc <;> rw [hc] at hread <;>
        cases hread
    · rcases afterObjects_cases cfg.rules request [buffered++data]
        (cfg.httpDecode .client [] (buffered++data)) with hc|hc|hc|hc <;> rw [hc] at hread <;>
        cases hread
  · cases hread

/-- Only the selection, a client hello and a relay itself lead to a relay. -/
theorem Phase.read_relaying {phase : Phase}
    (h : phase.read cfg request data=.relaying) :
    (∃ buffered, phase=.selecting buffered) ∨ (∃ buffered, phase=.greeting buffered) ∨
      phase=.relaying := by
  cases phase with
  | selecting buffered => exact .inl ⟨_,rfl⟩
  | greeting buffered => exact .inr (.inl ⟨_,rfl⟩)
  | relaying => exact .inr (.inr rfl)
  | checking history =>
    rw [Phase.read] at h
    split at h
    · cases h
    · rcases afterObjects_cases cfg.rules request (history++[data])
        (cfg.httpDecode .client history data) with hc|hc|hc|hc <;> rw [hc] at h <;> cases h
  | stalled | refusing | forwarding =>
    rw [Phase.read] at h
    split at h <;> cases h
  | intercepting => cases h

/-- An encoded stream stays encoded. -/
theorem Phase.read_forwarding (cfg : Config) (request : Socks5CommandRequest) (data : Bytes)
    (history : List Bytes) : ∃ history', (Phase.forwarding history).read cfg request data=
      .forwarding history' := by
  rw [Phase.read]
  split
  · exact ⟨_,rfl⟩
  · exact ⟨_,rfl⟩

/-- A stream with a choice keeps it. -/
theorem choiceFor_append {received : Bytes} (h : 3≤received.length) :
    choiceFor (received++data)=choiceFor received := by
  rcases short_or_three received with hshort|⟨type,versionHigh,versionLow,rest,rfl⟩
  · omega
  · rfl

/-- Short streams have no choice yet. -/
theorem choiceFor_short {received : Bytes} (h : received.length<3) : choiceFor received=[] := by
  unfold choiceFor
  split
  · simp only [List.length_cons] at h
    omega
  · rfl

end Phases

section Machines

variable {cfg : Config} {request : Socks5CommandRequest} {m : Machine} {data : Bytes}

theorem Machine.wf_start : Machine.start.Wf where
  buffer := fun held h => (Option.some.inj h).symm
  short := ⟨fun _ => by simp [Machine.start],fun _ => ⟨[],rfl⟩⟩

/-- Reads from the client keep the machine well formed. -/
theorem Machine.Wf.read_client (cfg : Config) (request : Socks5CommandRequest) (data : Bytes)
    (h : m.Wf) : (m.step cfg request (.read .client data)).Wf where
  buffer := fun held hheld => Phase.read_buffer h.buffer hheld
  short := by
    change (∃ held, m.phase.read cfg request data=.selecting held) ↔ (m.received++data).length<3
    by_cases hshort : m.received.length<3
    · obtain ⟨held,hphase⟩ := h.short.mpr hshort
      obtain rfl : held=m.received := h.buffer held (by rw [hphase]; rfl)
      rw [hphase]
      rcases short_or_three (m.received++data) with hlt|⟨type,versionHigh,versionLow,rest,hthree⟩
      · exact ⟨fun _ => hlt,fun _ => ⟨_,(Phase.read_short cfg request hlt).1⟩⟩
      · constructor
        · rintro ⟨held,hread⟩
          exact absurd hread (Phase.read_three_ne_selecting hthree held)
        · intro hlt
          rw [hthree] at hlt
          simp only [List.length_cons] at hlt
          omega
    · have hne : ∀ held, m.phase≠.selecting held := fun held hphase => hshort (h.short.mp ⟨held,hphase⟩)
      constructor
      · rintro ⟨held,hread⟩
        exact absurd hread (Phase.read_ne_selecting hne held)
      · intro hlt
        rw [List.length_append] at hlt
        omega

/-- Every event keeps the machine well formed. -/
theorem Machine.Wf.step (h : m.Wf) (event : Event) : (m.step cfg request event).Wf := by
  cases event with
  | read s data =>
    cases s with
    | client => exact h.read_client cfg request data
    | remote => exact ⟨h.buffer,h.short⟩
  | _ => exact h

/-- The bytes relayed by a read make up what has been passed after it. -/
theorem Machine.Wf.passed_read (h : m.Wf) :
    m.passed++m.phase.relayed data (m.phase.read cfg request data)=
      (m.step cfg request (.read .client data)).passed := by
  change _=if m.phase.read cfg request data=.relaying then m.received++data else []
  by_cases hr : m.phase.read cfg request data=.relaying
  · rw [hr,if_pos rfl]
    rcases Phase.read_relaying hr with ⟨buffered,hphase⟩|⟨buffered,hphase⟩|hphase
    · obtain rfl : buffered=m.received := h.buffer _ (by rw [hphase]; rfl)
      simp [Machine.passed,hphase,Phase.relayed]
    · obtain rfl : buffered=m.received := h.buffer _ (by rw [hphase]; rfl)
      simp [Machine.passed,hphase,Phase.relayed]
    · simp [Machine.passed,hphase,Phase.relayed]
  · rw [if_neg hr]
    have hphase : m.phase≠.relaying := by
      intro hphase
      rw [hphase] at hr
      exact hr rfl
    have hrelayed : m.phase.relayed data (m.phase.read cfg request data)=[] := by
      cases hp : m.phase with
      | relaying => exact absurd hp hphase
      | selecting buffered | greeting buffered =>
        rw [hp] at hr
        cases hq : Phase.read cfg request _ data with
        | relaying => exact absurd hq hr
        | _ => rfl
      | _ => rfl
    rw [hrelayed,Machine.passed,if_neg hphase]
    rfl

/-- The choice made by a read is the choice for the bytes received. -/
theorem Machine.Wf.choice_read (h : m.Wf) :
    choiceFor m.received++selections (m.phase.choice data)=choiceFor (m.received++data) := by
  by_cases hshort : m.received.length<3
  · obtain ⟨held,hphase⟩ := h.short.mpr hshort
    obtain rfl : held=m.received := h.buffer held (by rw [hphase]; rfl)
    rw [hphase,choiceFor_short hshort]
    dsimp only [Phase.choice]
    unfold choiceFor
    split <;> rfl
  · have hne : m.phase.choice data=[] := by
      cases hp : m.phase with
      | selecting held => exact absurd (h.short.mp ⟨held,hp⟩) hshort
      | _ => rfl
    rw [hne,choiceFor_append (by omega)]
    simp [selections]

/-- The machine after one more event. -/
theorem Machine.after_snoc (cfg : Config) (request : Socks5CommandRequest) (events : List Event)
    (event : Event) : Machine.after cfg request (events++[event])=
      (Machine.after cfg request events).step cfg request event := by
  simp [Machine.after]

end Machines

/-- Bytes of one read of a side. -/
def chunkFrom (s : Side) : Event → Bytes
  | .read t data => if t=s then data else []
  | _ => []

/-- All bytes read from a side, in order. -/
def bytesFrom (s : Side) (events : List Event) : Bytes := events.flatMap (chunkFrom s)

section Streams

variable {cfg : Config} {request : Socks5CommandRequest} {events : List Event} {event : Event}
  {s : Side}

theorem bytesFrom_snoc : bytesFrom s (events++[event])=bytesFrom s events++chunkFrom s event := by
  simp [bytesFrom]

theorem bytesFrom_mono {before : List Event} (h : before<+:events) :
    bytesFrom s before<+:bytesFrom s events := by
  obtain ⟨later,rfl⟩ := h
  rw [bytesFrom,bytesFrom,List.flatMap_append]
  exact List.prefix_append _ _

/-- The machine records what it receives from the client. -/
theorem Machine.received_after (cfg : Config) (request : Socks5CommandRequest)
    (events : List Event) : (Machine.after cfg request events).received=bytesFrom .client events := by
  induction events using List.reverseRecOn with
  | nil => rfl
  | append_singleton events event ih =>
    rw [Machine.after_snoc,bytesFrom_snoc,←ih]
    cases event with
    | read s data => cases s <;> simp [Machine.step,chunkFrom]
    | _ => simp [Machine.step,chunkFrom]

/-- The chunks read from the client, in order. -/
def clientChunks (events : List Event) : List Bytes :=
  events.filterMap (fun | .read .client data => some data | _ => none)

/-- The phase after some chunks of the client. -/
def Phase.after (cfg : Config) (request : Socks5CommandRequest) (chunks : List Bytes) : Phase :=
  chunks.foldl (Phase.read cfg request) (.selecting [])

theorem Phase.after_snoc (cfg : Config) (request : Socks5CommandRequest) (chunks : List Bytes)
    (data : Bytes) : Phase.after cfg request (chunks++[data])=
      (Phase.after cfg request chunks).read cfg request data := by
  simp [Phase.after]

/-- The phase of the machine is a function of the client's chunks. -/
theorem Machine.phase_after (cfg : Config) (request : Socks5CommandRequest)
    (events : List Event) : (Machine.after cfg request events).phase=
      Phase.after cfg request (clientChunks events) := by
  induction events using List.reverseRecOn with
  | nil => rfl
  | append_singleton events event ih =>
    rw [Machine.after_snoc,clientChunks,List.filterMap_append]
    cases event with
    | read s data =>
      cases s with
      | client =>
        change (Machine.after cfg request events).phase.read cfg request data=
          Phase.after cfg request (clientChunks events++[data])
        rw [ih,Phase.after_snoc]
      | remote => simpa [Machine.step,clientChunks] using ih
    | _ => simpa [Machine.step,clientChunks] using ih

/-- The client's chunks make up the bytes read from the client. -/
theorem clientChunks_flatten (events : List Event) :
    (clientChunks events).flatten=bytesFrom .client events := by
  induction events with
  | nil => rfl
  | cons event events ih =>
    cases event with
    | read s data => cases s <;> simp_all [clientChunks,bytesFrom,chunkFrom]
    | _ => simp_all [clientChunks,bytesFrom,chunkFrom]

/-- What holds of every phase that some chunks lead to. -/
theorem Phase.wf_after (cfg : Config) (request : Socks5CommandRequest) (chunks : List Bytes) :
    Machine.Wf ⟨Phase.after cfg request chunks,chunks.flatten,[]⟩ := by
  induction chunks using List.reverseRecOn with
  | nil => exact Machine.wf_start
  | append_singleton chunks data ih =>
    have hstep := ih.read_client cfg request data
    rw [Phase.after_snoc,List.flatten_append,List.flatten_singleton]
    exact hstep

/-- Every chunk of the server that is not empty arrives after the relay
handlers have been installed, which takes chunks of the client. -/
def ServerWaits (cfg : Config) (request : Socks5CommandRequest) (events : List Event) : Prop :=
  ∀ before data later, events=before++.read .remote data::later → data≠[] →
    (Phase.after cfg request (clientChunks before)).installed=true

/-- The condition along one more event. -/
theorem serverWaits_snoc : ServerWaits cfg request (events++[event]) ↔
    ServerWaits cfg request events ∧ (chunkFrom .remote event≠[] →
      (Phase.after cfg request (clientChunks events)).installed=true) := by
  constructor
  · intro h
    refine ⟨fun before data later he => h before data (later++[event]) (by simp [he]),?_⟩
    intro hne
    cases event with
    | read s data =>
      cases s with
      | client => exact absurd rfl hne
      | remote => exact h events data [] rfl hne
    | _ => exact absurd rfl hne
  · rintro ⟨h,hlast⟩ before data later he hd
    rcases List.eq_nil_or_concat later with rfl|⟨most,last,rfl⟩
    · obtain ⟨rfl,hevent⟩ := List.append_inj' he rfl
      cases hevent
      exact hlast hd
    · rw [List.concat_eq_append,←List.cons_append,←List.append_assoc] at he
      obtain ⟨hevents,-⟩ := List.append_inj' he rfl
      exact h before data most hevents hd

/-- The machine never delivers more than it reads. -/
theorem Machine.delivered_length (cfg : Config) (request : Socks5CommandRequest)
    (events : List Event) : (Machine.after cfg request events).delivered.length≤
      (bytesFrom .remote events).length := by
  induction events using List.reverseRecOn with
  | nil => exact Nat.le_refl _
  | append_singleton events event ih =>
    rw [Machine.after_snoc,bytesFrom_snoc,List.length_append]
    cases event with
    | read s data =>
      cases s with
      | client => exact Nat.le_add_right_of_le ih
      | remote =>
        change (if _ then _ else _ : Bytes).length≤_
        split
        · simpa [chunkFrom] using ih
        · exact Nat.le_add_right_of_le ih
    | _ => exact Nat.le_add_right_of_le ih

/-- Everything read from the server is delivered exactly when the server
waits. -/
theorem Machine.delivered_iff (cfg : Config) (request : Socks5CommandRequest)
    (events : List Event) : (Machine.after cfg request events).delivered=bytesFrom .remote events ↔
      ServerWaits cfg request events := by
  induction events using List.reverseRecOn with
  | nil =>
    refine ⟨fun _ before data later he => absurd he (by simp),fun _ => rfl⟩
  | append_singleton events event ih =>
    rw [serverWaits_snoc,←ih,←Machine.phase_after,Machine.after_snoc,bytesFrom_snoc]
    have hlength := Machine.delivered_length cfg request events
    by_cases hempty : chunkFrom .remote event=[]
    · have hsame : ((Machine.after cfg request events).step cfg request event).delivered=
          (Machine.after cfg request events).delivered := by
        cases event with
        | read s data =>
          cases s with
          | client => rfl
          | remote =>
            change (if _ then _ else _ : Bytes)=_
            rw [show data=[] from hempty]
            split <;> simp
        | _ => rfl
      rw [hsame,hempty,List.append_nil]
      exact ⟨fun h => ⟨h,fun hne => absurd rfl hne⟩,And.left⟩
    · obtain ⟨data,rfl⟩ : ∃ data, event=.read .remote data := by
        cases event with
        | read s data =>
          cases s with
          | client => exact absurd rfl hempty
          | remote => exact ⟨data,rfl⟩
        | _ => exact absurd rfl hempty
      change (if (Machine.after cfg request events).phase.installed=true then _ else _ : Bytes)=_ ↔ _
      by_cases hi : (Machine.after cfg request events).phase.installed=true
      · rw [if_pos hi]
        constructor
        · intro h
          exact ⟨List.append_cancel_right h,fun _ => hi⟩
        · rintro ⟨h,-⟩
          rw [h]
          rfl
      · rw [if_neg hi]
        constructor
        · intro h
          have hpos := List.length_pos_iff.mpr hempty
          have heq := congrArg List.length h
          rw [List.length_append] at heq
          omega
        · rintro ⟨-,h⟩
          exact absurd (h hempty) hi

/-- No host has an interceptor. -/
def Unintercepted (rules : Rules) : Prop :=
  ∀ host, rules.mitmConfig.bind (fun matcher => matcher host)=none

theorem afterHello_unintercepted (hm : Unintercepted cfg.rules) (buffered : Bytes) :
    afterHello cfg buffered≠.intercepting := by
  unfold afterHello
  split
  · simp
  · simp
  · split
    · simp
    · rw [hm]
      simp

theorem afterObjects_unintercepted {rules : Rules} (hm : Unintercepted rules)
    (history : List Bytes) (objects : List HttpObject) :
    afterObjects rules request history objects≠.intercepting := by
  induction objects with
  | nil => simp [afterObjects]
  | cons object objects ih =>
    cases object with
    | request message =>
      unfold afterObjects
      rw [hm]
      split <;> simp
    | response message => exact ih
    | content chunk last => exact ih

/-- Without interceptors no read starts an interception. -/
theorem Phase.read_unintercepted (hm : Unintercepted cfg.rules) {phase : Phase} {data : Bytes}
    (h : phase≠.intercepting) : phase.read cfg request data≠.intercepting := by
  cases phase with
  | selecting buffered =>
    rcases short_or_three (buffered++data) with hshort|⟨type,versionHigh,versionLow,rest,hthree⟩
    · rw [(Phase.read_short cfg request hshort).1]
      simp
    · rw [Phase.read_three hthree]
      split
      · split
        · exact afterHello_unintercepted hm _
        · exact afterObjects_unintercepted hm _ _
      · simp
  | greeting buffered =>
    rw [Phase.read]
    split
    · simp
    · exact afterHello_unintercepted hm _
  | checking history =>
    rw [Phase.read]
    split
    · simp
    · exact afterObjects_unintercepted hm _ _
  | stalled | refusing | forwarding =>
    rw [Phase.read]
    split <;> simp
  | relaying => simp [Phase.read]
  | intercepting => exact absurd rfl h

/-- Without interceptors the machine never intercepts. -/
theorem Machine.after_unintercepted (hm : Unintercepted cfg.rules) (events : List Event) :
    (Machine.after cfg request events).phase≠.intercepting := by
  induction events using List.reverseRecOn with
  | nil => simp [Machine.after,Machine.start]
  | append_singleton events event ih =>
    rw [Machine.after_snoc]
    cases event with
    | read s data =>
      cases s with
      | client => exact Phase.read_unintercepted hm ih
      | remote => exact ih
    | _ => exact ih

end Streams

end ProxyDroid.TunnelMachine
