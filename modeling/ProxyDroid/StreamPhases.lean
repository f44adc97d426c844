import ProxyDroid.TunnelMachine

/-!
# Phases in closed form

For the kinds of client streams that specifications speak about, the phase
of the abstract tunnel is a function of the bytes received, whatever the
chunks they arrived in.
-/

namespace ProxyDroid.StreamPhases

open ConnectionTypes ConnectionHandlers ConnectionSystem TunnelMachine

/-- The first three bytes of a TLS handshake record: type 0x16 and a version
0x0300 to 0x0303. -/
def tlsHeader (type versionHigh versionLow : UInt8) : Bool :=
  type=0x16 && versionHigh=0x03 && versionLow≤0x03

/-- A byte read as signed. -/
theorem toInt8_toInt (byte : UInt8) :
    byte.toInt8.toInt=if byte.toNat<128 then (byte.toNat : ℤ) else byte.toNat-256 := by
  have hbits : byte.toInt8.toInt=byte.toBitVec.toInt := rfl
  rw [hbits,BitVec.toInt_eq_toNat_cond]
  have hnat : byte.toBitVec.toNat=byte.toNat := rfl
  rw [hnat]
  split <;> split <;> omega

/-- Equal numbers are equal bytes. -/
theorem byte_eq_iff (byte other : UInt8) : byte=other ↔ byte.toNat=other.toNat :=
  UInt8.toNat_inj.symm

/-- The test on signed bytes accepts exactly the TLS record headers. -/
theorem isTls_eq_tlsHeader (type versionHigh versionLow : UInt8) :
    ProtocolSelectHandler.isTls type versionHigh versionLow=tlsHeader type versionHigh versionLow := by
  have ht := type.toNat_lt
  have hh := versionHigh.toNat_lt
  have hl := versionLow.toNat_lt
  have hiff : ProtocolSelectHandler.isTls type versionHigh versionLow=true ↔
      tlsHeader type versionHigh versionLow=true := by
    simp only [ProtocolSelectHandler.isTls,tlsHeader,ProtocolSelectHandler.sslRtHandshake,
      ProtocolSelectHandler.supportedTlsVersions,ProtocolSelectHandler.version,toInt8_toInt,
      byte_eq_iff,UInt8.le_iff_toNat_le,Bool.and_eq_true,decide_eq_true_eq,List.contains_iff_mem,
      List.mem_cons,List.not_mem_nil,or_false]
    have h22 : (0x16 : UInt8).toNat=22 := rfl
    have h3 : (0x03 : UInt8).toNat=3 := rfl
    rw [h22,h3]
    constructor
    · rintro ⟨htype,hversion⟩
      split at htype <;> split at hversion <;> split at hversion <;> omega
    · rintro ⟨⟨htype,hhigh⟩,hlow⟩
      rw [htype,hhigh,if_pos (by omega),if_pos (by omega),if_pos (by omega)]
      omega
  exact Bool.eq_iff_iff.mpr hiff

/-- Fewer than three bytes are held back for the selection. -/
theorem short_phase {cfg : Config} {request : Socks5CommandRequest} {chunks : List Bytes}
    (hlt : chunks.flatten.length<3) :
    Phase.after cfg request chunks=.selecting chunks.flatten := by
  have hw := Phase.wf_after cfg request chunks
  obtain ⟨held,hphase⟩ := hw.short.mpr hlt
  have hheld : held=chunks.flatten := hw.buffer held (by rw [hphase]; rfl)
  rw [←hheld]
  exact hphase

/-- Without interception the machine waits for three bytes and then relays. -/
theorem plain_phase {cfg : Config} (request : Socks5CommandRequest)
    (hm : cfg.rules.mitmConfig=none) (chunks : List Bytes) :
    Phase.after cfg request chunks=
      if chunks.flatten.length<3 then .selecting chunks.flatten else .relaying := by
  by_cases hlt : chunks.flatten.length<3
  · rw [if_pos hlt,short_phase hlt]
  · rw [if_neg hlt]
    induction chunks using List.reverseRecOn with
    | nil => simp at hlt
    | append_singleton chunks data ih =>
      rw [Phase.after_snoc]
      rw [List.flatten_append,List.flatten_singleton] at hlt
      by_cases hold : chunks.flatten.length<3
      · rcases short_or_three (chunks.flatten++data) with
          hshort|⟨type,versionHigh,versionLow,rest,hthree⟩
        · exact absurd hshort hlt
        · rw [short_phase hold,Phase.read_three hthree,hm]
          rfl
      · rw [ih hold]
        rfl

/-- A TLS client hello and the host that its lookup finds, complete only
with its last byte. -/
structure Hello (cfg : Config) (hello : Bytes) (host : Option String) : Prop where
  /-- It starts with a TLS record header. -/
  header : choiceFor hello=[true]
  /-- No part of it is enough for the lookup. -/
  incomplete : ∀ part, part<+:hello → part≠hello → cfg.clientHello part=none
  /-- What the lookup finds in all of it. -/
  complete : cfg.clientHello hello=some host

/-- Received bytes that are a part of the hello or start with it. -/
def Comparable (received hello : Bytes) : Prop := received<+:hello ∨ hello<+:received

section Hello

variable {cfg : Config} {hello received data : Bytes} {host : Option String}
  {request : Socks5CommandRequest} {m : Machine}

theorem Comparable.of_append (h : Comparable (received++data) hello) :
    Comparable received hello := by
  rcases h with h|h
  · exact .inl ((List.prefix_append _ _).trans h)
  · exact List.prefix_or_prefix_of_prefix (List.prefix_append _ _) h

theorem Hello.three_le (h : Hello cfg hello host) : 3≤hello.length := by
  rcases short_or_three hello with hshort|⟨type,versionHigh,versionLow,rest,rfl⟩
  · have hnone := choiceFor_short hshort
    rw [h.header] at hnone
    cases hnone
  · simp

/-- A stream that agrees with a client hello is chosen to be TLS. -/
theorem Hello.choice (h : Hello cfg hello host) (hc : Comparable received hello)
    (hlen : 3≤received.length) : choiceFor received=[true] := by
  rw [←h.header]
  rcases hc with ⟨more,rfl⟩|⟨more,rfl⟩
  · exact (choiceFor_append hlen).symm
  · exact choiceFor_append h.three_le

/-- The lookup once the hello is complete. -/
theorem Hello.lookup (h : Hello cfg hello host) (hc : hello<+:received) :
    cfg.clientHello received=some host := by
  obtain ⟨more,rfl⟩ := hc
  exact cfg.clientHello_append _ _ _ h.complete

/-- The lookup before the hello is complete. -/
theorem Hello.lookup_none (h : Hello cfg hello host) (hc : Comparable received hello)
    (hn : ¬hello<+:received) : cfg.clientHello received=none := by
  rcases hc with hc|hc
  · refine h.incomplete received hc ?_
    rintro rfl
    exact hn (List.prefix_refl _)
  · exact absurd hc hn

/-- All bytes received are held back for the selection or the lookup. -/
def Waiting (phase : Phase) (received : Bytes) : Prop :=
  phase=.selecting received ∨ phase=.greeting received

/-- A read of a waiting TLS stream: nothing new, still short, or a lookup. -/
theorem Waiting.read (request : Socks5CommandRequest) {phase : Phase}
    (hshort : (∃ held, phase=.selecting held) ↔ received.length<3)
    (hwait : Waiting phase received) (hsome : cfg.rules.mitmConfig.isSome=true)
    (hchoice : 3≤(received++data).length → choiceFor (received++data)=[true]) :
    (data=[] ∧ phase.read cfg request data=phase) ∨
      ((received++data).length<3 ∧ phase.read cfg request data=.selecting (received++data)) ∨
      (data≠[] ∧ 3≤(received++data).length ∧
        phase.read cfg request data=afterHello cfg (received++data)) := by
  rcases hwait with rfl|rfl
  · have hlt := hshort.mp ⟨_,rfl⟩
    rcases short_or_three (received++data) with hstill|⟨type,versionHigh,versionLow,rest,hthree⟩
    · exact .inr (.inl ⟨hstill,(Phase.read_short cfg request hstill).1⟩)
    · have hlen : 3≤(received++data).length := by
        rw [hthree]
        simp
      have hd : data≠[] := by
        rintro rfl
        rw [List.append_nil] at hlen
        omega
      have htls : ProtocolSelectHandler.isTls type versionHigh versionLow=true := by
        have hc := hchoice hlen
        rw [hthree] at hc
        exact (List.cons.inj hc).1
      refine .inr (.inr ⟨hd,hlen,?_⟩)
      rw [Phase.read_three hthree,if_pos hsome,if_pos htls]
  · by_cases hd : data=[]
    · exact .inl ⟨hd,by rw [Phase.read,if_pos hd]⟩
    · have hlong : ¬received.length<3 := by
        intro hlt
        obtain ⟨held,hsel⟩ := hshort.mpr hlt
        cases hsel
      refine .inr (.inr ⟨hd,?_,by rw [Phase.read,if_neg hd]⟩)
      rw [List.length_append]
      omega

/-- The phases of a stream that agrees with a client hello: the machine waits
until the hello is complete, and the read that completes it looks its host
up. -/
theorem hello_phase (hh : Hello cfg hello host) (hsome : cfg.rules.mitmConfig.isSome=true)
    (chunks : List Bytes) (hc : Comparable chunks.flatten hello) :
    (¬hello<+:chunks.flatten →
      Waiting (Phase.after cfg request chunks) chunks.flatten) ∧
      ∀ data, ¬hello<+:chunks.flatten → hello<+:chunks.flatten++data →
        (Phase.after cfg request chunks).read cfg request data=
          afterHello cfg (chunks.flatten++data) := by
  have hcomplete : ∀ phase received data, (((∃ held, phase=.selecting held) ↔ received.length<3)) →
      Waiting phase received → ¬hello<+:received → hello<+:received++data →
      phase.read cfg request data=afterHello cfg (received++data) := by
    intro phase received data hshort hwait hn hnow
    have hlen := Nat.le_trans hh.three_le hnow.length_le
    rcases Waiting.read request hshort hwait hsome (hh.choice (.inr hnow)) with
      ⟨rfl,-⟩|⟨hlt,-⟩|⟨-,-,hread⟩
    · rw [List.append_nil] at hnow
      exact absurd hnow hn
    · omega
    · exact hread
  have hwait : ¬hello<+:chunks.flatten →
      Waiting (Phase.after cfg request chunks) chunks.flatten := by
    induction chunks using List.reverseRecOn with
    | nil => exact fun _ => .inl rfl
    | append_singleton chunks data ih =>
      rw [List.flatten_append,List.flatten_singleton] at hc ⊢
      rw [Phase.after_snoc]
      intro hn
      have hbefore := ih hc.of_append (fun hold => hn (hold.trans (List.prefix_append _ _)))
      rcases Waiting.read request (Phase.wf_after cfg request chunks).short hbefore hsome
        (hh.choice hc) with ⟨rfl,hread⟩|⟨-,hread⟩|⟨-,-,hread⟩
      · rwa [hread,List.append_nil]
      · exact .inl hread
      · refine .inr (hread.trans ?_)
        simp [afterHello,hh.lookup_none hc hn]
  exact ⟨hwait,fun data hn hnow =>
    hcomplete _ _ data (Phase.wf_after cfg request chunks).short (hwait hn) hn hnow⟩

/-- A named host without an interceptor is relayed once its hello is
complete. -/
theorem named_phase {name : String} (hh : Hello cfg hello (some name)) (hname : name≠"")
    (hsome : cfg.rules.mitmConfig.isSome=true)
    (hm : cfg.rules.mitmConfig.bind (fun matcher => matcher name)=none) (chunks : List Bytes)
    (hc : hello<+:chunks.flatten) : Phase.after cfg request chunks=.relaying := by
  induction chunks using List.reverseRecOn with
  | nil =>
    have hlen := Nat.le_trans hh.three_le hc.length_le
    simp at hlen
  | append_singleton chunks data ih =>
    rw [List.flatten_append,List.flatten_singleton] at hc
    rw [Phase.after_snoc]
    by_cases hold : hello<+:chunks.flatten
    · rw [ih hold,Phase.read]
    · have hcomparable : Comparable chunks.flatten hello := Comparable.of_append (.inr hc)
      rw [(hello_phase hh hsome chunks hcomparable).2 data hold hc]
      simp [afterHello,hh.lookup hc,hname,hm]

/-- Number of reads that look the host of a hello up: those that complete it
and those that bring more bytes. -/
def lookups (hello : Bytes) (received : Bytes) : List Bytes → ℕ
  | [] => 0
  | data::chunks => (if data≠[] ∧ hello<+:received++data then 1 else 0)+
      lookups hello (received++data) chunks

theorem lookups_snoc (chunks : List Bytes) (received data : Bytes) :
    lookups hello received (chunks++[data])=lookups hello received chunks+
      if data≠[] ∧ hello<+:received++chunks.flatten++data then 1 else 0 := by
  induction chunks generalizing received with
  | nil => simp [lookups]
  | cons chunk chunks ih =>
    rw [List.cons_append,lookups,ih,lookups]
    simp [Nat.add_assoc]

/-- No lookup happens before the hello is complete. -/
theorem lookups_eq_zero (chunks : List Bytes) (hn : ¬hello<+:received++chunks.flatten) :
    lookups hello received chunks=0 := by
  induction chunks generalizing received with
  | nil => rfl
  | cons chunk chunks ih =>
    rw [List.flatten_cons,←List.append_assoc] at hn
    have hnow : ¬hello<+:received++chunk := fun h => hn (h.trans (List.prefix_append _ _))
    rw [lookups,ih hn,if_neg (fun h => hnow h.2)]

/-- Without a server name the machine stalls once the hello is complete, with
one interceptor for every lookup. -/
theorem nameless_phase (hh : Hello cfg hello none) (hsome : cfg.rules.mitmConfig.isSome=true)
    (chunks : List Bytes) (hc : hello<+:chunks.flatten) :
    Phase.after cfg request chunks=.stalled chunks.flatten (lookups hello [] chunks) := by
  induction chunks using List.reverseRecOn with
  | nil =>
    have hlen := Nat.le_trans hh.three_le hc.length_le
    simp at hlen
  | append_singleton chunks data ih =>
    rw [List.flatten_append,List.flatten_singleton] at hc ⊢
    rw [Phase.after_snoc,lookups_snoc,List.nil_append]
    by_cases hold : hello<+:chunks.flatten
    · rw [ih hold,Phase.read]
      by_cases hd : data=[]
      · simp [hd]
      · rw [if_neg hd,if_pos ⟨hd,hc⟩]
    · have hcomparable : Comparable chunks.flatten hello := Comparable.of_append (.inr hc)
      have hd : data≠[] := by
        rintro rfl
        rw [List.append_nil] at hc
        exact hold hc
      rw [(hello_phase hh hsome chunks hcomparable).2 data hold hc,
        lookups_eq_zero chunks (by simpa using hold),if_pos ⟨hd,hc⟩]
      simp [afterHello,hh.lookup hc]

end Hello

/-- No cut of a prefix of the stream makes the HTTP decoder emit a request
that it could decode. -/
def NotHttp (cfg : Config) (stream : Bytes) : Prop :=
  ∀ history data message, (history++[data]).flatten<+:stream →
    .request message∈cfg.httpDecode .client history data → message.decoded=false

/-- Malformed requests never lead to a forwarding encoder. -/
theorem afterObjects_malformed {rules : Rules} {request : Socks5CommandRequest}
    {history : List Bytes} (objects : List HttpObject)
    (h : ∀ message, .request message∈objects → message.decoded=false) :
    afterObjects rules request history objects=.checking history ∨
      afterObjects rules request history objects=.refusing history := by
  induction objects with
  | nil => exact .inl rfl
  | cons object objects ih =>
    have hrest := ih (fun message hm => h message (List.mem_cons_of_mem _ hm))
    cases object with
    | request message =>
      right
      simp [afterObjects,h message (by simp)]
    | response message => exact hrest
    | content chunk last => exact hrest

/-- A stream that is neither TLS nor HTTP stays with the HTTP decoder. -/
theorem opaque_phase {cfg : Config} {request : Socks5CommandRequest} {stream : Bytes}
    (hsome : cfg.rules.mitmConfig.isSome=true) (hn : NotHttp cfg stream)
    (hchoice : choiceFor stream=[false]) (chunks : List Bytes) (hc : chunks.flatten<+:stream)
    (hlen : 3≤chunks.flatten.length) :
    ∃ history, Phase.after cfg request chunks=.checking history ∨
      Phase.after cfg request chunks=.refusing history := by
  induction chunks using List.reverseRecOn with
  | nil => simp at hlen
  | append_singleton chunks data ih =>
    rw [List.flatten_append,List.flatten_singleton] at hc hlen
    rw [Phase.after_snoc]
    have hw := Phase.wf_after cfg request chunks
    by_cases hshort : chunks.flatten.length<3
    · rcases short_or_three (chunks.flatten++data) with hlt|⟨type,versionHigh,versionLow,rest,hthree⟩
      · omega
      · have htls : ProtocolSelectHandler.isTls type versionHigh versionLow=false := by
          obtain ⟨more,rfl⟩ := hc
          rw [choiceFor_append hlen,hthree] at hchoice
          exact (List.cons.inj hchoice).1
        rw [short_phase hshort,Phase.read_three hthree,if_pos hsome,htls,if_neg Bool.false_ne_true]
        refine ⟨[chunks.flatten++data],afterObjects_malformed _ (fun message hm => ?_)⟩
        exact hn [] _ message (by simpa using hc) hm
    · obtain ⟨history,hphase⟩ := ih ((List.prefix_append _ _).trans hc) (by omega)
      rcases hphase with hphase|hphase
      · have hflat : history.flatten=chunks.flatten :=
          hw.buffer _ (by rw [hphase]; rfl)
        rw [hphase,Phase.read]
        split
        · exact ⟨history,.inl rfl⟩
        · refine ⟨history++[data],afterObjects_malformed _ (fun message hm => ?_)⟩
          exact hn history data message (by simpa [hflat] using hc) hm
      · rw [hphase,Phase.read]
        split
        · exact ⟨history,.inr rfl⟩
        · exact ⟨history++[data],.inr rfl⟩

end ProxyDroid.StreamPhases
