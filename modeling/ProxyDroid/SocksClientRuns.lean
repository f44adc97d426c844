import ProxyDroid.SocksClient

/-!
# Runs of the SOCKS client

A conversation that the server accepts is determined by the bytes of the server: its choice of a
method, its answer to the password if it has asked for one, and its reply to the request. In
every phase of the client, what has been sent and received is the conversation up to there,
however the two streams are cut. So the verdict of the client depends on the bytes alone, and the
reply is read to its last byte and not beyond it.
-/

namespace ProxyDroid.SocksClientRuns

open CallSemantics CheckedPrograms SocksClient
open ConnectionTypes (Bytes)

variable {auth : List AuthInfo} {dest : BAddr}

/-- The client has a usable name and password for a server that asks for them. -/
def Offers (auth : List AuthInfo) (username password : Bytes) : Prop :=
  selected auth 0x02=some (.password username password) ∧
    ¬(username.length=0 ∨ username.length>255 ∨ password.length=0 ∨ password.length>255)

/-- What has been said and answered when the authentication is finished. -/
inductive Authenticated (auth : List AuthInfo) : Bytes → Bytes → Prop
  | none (h : selected auth 0x00=some .none) : Authenticated auth (hello auth) [0x05,0x00]
  | password {username password} (h : Offers auth username password) :
      Authenticated auth (hello auth++passwordPacket username password) [0x05,0x02,1,0]

/-- What has been said and answered when the server has granted the request. -/
inductive Granted (auth : List AuthInfo) (dest : BAddr) : Bytes → Bytes → Prop
  | intro {said replied addr rsv atyp} (h : Authenticated auth said replied)
      (hlen : addrLen atyp=some addr.length) :
      Granted auth dest (said++request dest) (replied++([0x05,0x00,rsv,atyp]++addr))

/-- The packet that a state sends, after what has been said and answered before. -/
inductive Sending (auth : List AuthInfo) (dest : BAddr) : State → Bytes → Bytes → Bytes → Prop
  | hello : Sending auth dest .sendingHello (hello auth) [] []
  | password {username password} (h : Offers auth username password) :
      Sending auth dest .sendingPassword (passwordPacket username password) (SocksClient.hello auth)
        [0x05,0x02]
  | request {said replied} (h : Authenticated auth said replied) :
      Sending auth dest .sendingRequest (request dest) said replied

/-- The size of the reply that a state waits for, after what has been said and answered
before. -/
inductive Awaiting (auth : List AuthInfo) (dest : BAddr) : State → ℕ → Bytes → Bytes → Prop
  | method : Awaiting auth dest .sentHello 2 (hello auth) []
  | password {username password} (h : Offers auth username password) :
      Awaiting auth dest .sentPassword 2 (hello auth++passwordPacket username password) [0x05,0x02]
  | header {said replied} (h : Authenticated auth said replied) :
      Awaiting auth dest .sentRequest 4 (said++request dest) replied
  | address {said replied rsv atyp len} (h : Authenticated auth said replied)
      (hlen : addrLen atyp=some len) :
      Awaiting auth dest .receivedReplyHeader len (said++request dest)
        (replied++[0x05,0x00,rsv,atyp])

/-- A client on its way, with the bytes of both directions. -/
inductive Phase (auth : List AuthInfo) (dest : BAddr) : BSocksClient → Bytes → Bytes → Prop
  | connecting : Phase auth dest (.init auth dest) [] []
  | sending {state packet said replied used received total}
      (h : Sending auth dest state packet said replied) (hused : used<packet.length) :
      Phase auth dest ⟨auth,dest,state,true,some ⟨some (packet.length-used),none⟩,
        some (packet,used),received,total⟩ (said++packet.take used) replied
  | receiving {state total said replied received}
      (h : Awaiting auth dest state total said replied) (hreceived : received.length<total) :
      Phase auth dest ⟨auth,dest,state,true,some ⟨none,some (total-received.length)⟩,none,
        received,total⟩ said (replied++received)
  | up {wire heard received total} (h : Granted auth dest wire heard) :
      Phase auth dest ⟨auth,dest,.up,false,some .fresh,none,received,total⟩ wire heard

/-- Nothing in the surroundings has failed during the event. -/
def Calm : ConnEvent → Prop
  | .connector isError initialized alloc => isError=false ∧ initialized=true ∧ alloc=true
  | .sent _ alloc => alloc=true
  | .received _ alloc => alloc=true
  | .error => False
  | .recvClosed => False

/-- Some continuation of the server's bytes would be accepted. -/
def Viable (auth : List AuthInfo) (dest : BAddr) (heard : Bytes) : Prop :=
  ∃ rest said, Granted auth dest said (heard++rest)

/-- What one event leads to. -/
def Settled (auth : List AuthInfo) (dest : BAddr) (calm : Prop) (wire heard : Bytes)
    (handled : BSocksClient×Option Report) : Prop :=
  match handled.2 with
  | none => Phase auth dest handled.1 wire heard ∧ handled.1.state≠.up
  | some .up => Phase auth dest handled.1 wire heard ∧ handled.1.state=.up
  | some .error => calm → auth.length≤255 → ¬Viable auth dest heard
  | some .errorClosed => False

theorem hello_length (auth : List AuthInfo) : 0<(hello auth).length := by
  simp [hello]

theorem passwordPacket_length (username password : Bytes) :
    0<(passwordPacket username password).length := by
  simp [passwordPacket]

theorem request_length (dest : BAddr) : 0<(request dest).length := by
  cases dest <;> simp [request]

/-- What an accepted conversation begins with. -/
theorem Granted.method {ver method : UInt8} {said rest : Bytes}
    (h : Granted auth dest said (ver::method::rest)) :
    ver=0x05 ∧ (method=0x00 ∧ selected auth 0x00=some .none ∨
      method=0x02 ∧ (∃ username password, Offers auth username password) ∧
        ∃ rest', rest=1::0::rest') := by
  generalize hheard : ver::method::rest=heard at h
  obtain ⟨hauth,-⟩ := h
  cases hauth with
  | none hselected =>
    simp only [List.cons_append,List.nil_append,List.cons.injEq] at hheard
    exact ⟨hheard.1,.inl ⟨hheard.2.1,hselected⟩⟩
  | password hoffers =>
    simp only [List.cons_append,List.nil_append,List.cons.injEq] at hheard
    exact ⟨hheard.1,.inr ⟨hheard.2.1,⟨_,_,hoffers⟩,_,hheard.2.2⟩⟩

/-- The bytes of the server determine where the authentication ends. -/
theorem Authenticated.split {said said' replied replied' rest rest' : Bytes}
    (h : Authenticated auth said replied) (h' : Authenticated auth said' replied')
    (heq : replied++rest=replied'++rest') : said=said' ∧ replied=replied' ∧ rest=rest' := by
  cases h with
  | none hs =>
    cases h' with
    | none hs' => exact ⟨rfl,rfl,by simpa using heq⟩
    | password ho' => simp at heq
  | password ho =>
    cases h' with
    | none hs' => simp at heq
    | password ho' =>
      have hsame := ho.1.symm.trans ho'.1
      simp only [Option.some.injEq,AuthInfo.password.injEq] at hsame
      refine ⟨by rw [hsame.1,hsame.2],rfl,by simpa using heq⟩

/-- What follows the authentication in an accepted conversation. -/
theorem Granted.header {said said' replied rest : Bytes}
    (h : Granted auth dest said (replied++rest)) (hauth : Authenticated auth said' replied) :
    ∃ rsv atyp addr, rest=[0x05,0x00,rsv,atyp]++addr ∧ addrLen atyp=some addr.length ∧
      said=said'++request dest := by
  generalize hheard : replied++rest=heard at h
  obtain @⟨said₁,replied₁,addr,rsv,atyp,hauth₁,hlen⟩ := h
  obtain ⟨rfl,-,hrest⟩ := hauth.split hauth₁ hheard
  exact ⟨rsv,atyp,addr,hrest,hlen,rfl⟩

theorem addrLen_bounds {atyp : UInt8} {len : ℕ} (h : addrLen atyp=some len) : 6≤len ∧ len≤18 := by
  rw [addrLen] at h
  split at h
  · cases h; omega
  · split at h
    · cases h; omega
    · cases h

theorem Authenticated.length {said replied : Bytes} (h : Authenticated auth said replied) :
    2≤ replied.length ∧ replied.length≤4 := by
  cases h <;> simp

/-- A client without methods is not accepted. -/
theorem Granted.offered {said heard : Bytes} (h : Granted auth dest said heard) : auth.length≠0 := by
  intro hnone
  obtain rfl := List.length_eq_zero_iff.mp hnone
  obtain ⟨hauth,-⟩ := h
  cases hauth with
  | none h => cases h
  | password ho => cases ho.1

/-- No accepted conversation is shorter than twelve bytes. -/
theorem Granted.length {said heard : Bytes} (h : Granted auth dest said heard) : 12≤heard.length := by
  obtain ⟨hauth,hlen⟩ := h
  have hreplied := hauth.length.1
  have haddr := (addrLen_bounds hlen).1
  simp only [List.length_append,List.length_cons,List.length_nil]
  omega

/-- While the client waits, the conversation is not complete. -/
theorem Awaiting.unfinished {state : State} {total : ℕ} {said said' replied received : Bytes}
    (h : Awaiting auth dest state total said replied) (hreceived : received.length<total) :
    ¬Granted auth dest said' (replied++received) := by
  intro hgranted
  have hlong := hgranted.length
  rw [List.length_append] at hlong
  cases h with
  | method => simp at hlong; omega
  | password ho => simp at hlong; omega
  | header hauth =>
    have hshort := hauth.length.2
    omega
  | @address said replied rsv atyp len hauth hlen =>
    rw [List.append_assoc] at hgranted
    obtain ⟨rsv',atyp',addr,hrest,haddr,-⟩ := hgranted.header hauth
    simp only [List.cons_append,List.nil_append,List.cons.injEq] at hrest
    obtain ⟨-,-,-,rfl,rfl⟩ := hrest
    rw [hlen] at haddr
    cases haddr
    omega

/-- While the client sends, the conversation is not complete. -/
theorem Sending.unfinished {state : State} {packet said said' replied : Bytes}
    (h : Sending auth dest state packet said replied) : ¬Granted auth dest said' replied := by
  intro hgranted
  have hlong := hgranted.length
  cases h with
  | hello => simp at hlong
  | password ho => simp at hlong
  | request hauth =>
    have hshort := hauth.length.2
    omega

section Handlers

variable {state before : State} {packet said replied received wire heard : Bytes} {buffer : Bool}
  {used total : ℕ} {calm : Prop}

/-- A packet that begins to be sent. -/
theorem sendPacket_sending (h : Sending auth dest state packet said replied)
    (hpacket : 0<packet.length) (hup : state≠.up) :
    Safe (BSocksClient.sendPacket ⟨auth,dest,before,buffer,some .fresh,none,received,total⟩ packet
      state) (Settled auth dest calm said replied) := by
  have hphase : Phase auth dest ⟨auth,dest,state,true,some ⟨some (packet.length-0),none⟩,
      some (packet,0),received,total⟩ (said++packet.take 0) replied := .sending h hpacket
  rw [List.take_zero,List.append_nil] at hphase
  simpa [BSocksClient.sendPacket,BSocksClient.sendData,BSocksClient.onConnection,hpacket,
    BConnection.senderSend,BConnection.fresh,Settled] using ⟨hphase,hup⟩

/-- A reply that begins to be awaited. -/
theorem startReceive_awaiting (h : Awaiting auth dest state total said replied) (htotal : 0<total)
    (hup : state≠.up) :
    Safe (BSocksClient.startReceive ⟨auth,dest,before,true,some .fresh,none,received,used⟩ total)
      (fun o => Settled auth dest calm said replied ({ o with state := state },none)) := by
  have hphase : Phase auth dest ⟨auth,dest,state,true,some ⟨none,some (total-[].length)⟩,none,[],
      total⟩ said (replied++[]) := .receiving h htotal
  rw [List.append_nil] at hphase
  simpa [BSocksClient.startReceive,BSocksClient.doReceive,BSocksClient.onConnection,htotal,
    BConnection.receiverRecv,BConnection.fresh,Settled] using ⟨hphase,hup⟩

/-- A failure of the surroundings. -/
theorem reportError_failure (o : BSocksClient) (h : ¬calm) :
    Safe (o.reportError .error) (Settled auth dest calm wire heard) :=
  fun hc _ => absurd hc h

/-- A reply that no accepted conversation contains. -/
theorem reportError_refusal (o : BSocksClient) (h : ¬Viable auth dest heard) :
    Safe (o.reportError .error) (Settled auth dest calm wire heard) :=
  fun _ _ => h

/-- One case of `send_handler_done`. -/
theorem awaitReply_awaiting (h : Awaiting auth dest state total said replied) (htotal : 0<total)
    (hup : state≠.up) (alloc : Bool) :
    Safe (BSocksClient.awaitReply ⟨auth,dest,before,true,some .fresh,none,received,used⟩ alloc total
      state) (Settled auth dest (alloc=true) said replied) := by
  cases alloc with
  | false => exact reportError_failure _ (by simp)
  | true =>
    simp only [BSocksClient.awaitReply,if_true,safe_bind,safe_pure]
    exact startReceive_awaiting h htotal hup

/-- The packet of a state has been sent completely. -/
theorem sendHandlerDone_awaiting (h : Sending auth dest before packet said replied) (alloc : Bool) :
    Safe (BSocksClient.sendHandlerDone ⟨auth,dest,before,true,some .fresh,none,received,total⟩ alloc)
      (Settled auth dest (alloc=true) (said++packet) replied) := by
  simp only [BSocksClient.sendHandlerDone,safe_bind,safe_demand,true_and]
  cases h with
  | hello => exact awaitReply_awaiting .method (by omega) (by simp) alloc
  | password ho => exact awaitReply_awaiting (.password ho) (by omega) (by simp) alloc
  | request hauth => exact awaitReply_awaiting (.header hauth) (by omega) (by simp) alloc

/-- The authentication is finished. -/
theorem authFinished_sending (h : Authenticated auth said replied) (alloc : Bool) :
    Safe (BSocksClient.authFinished ⟨auth,dest,before,buffer,some .fresh,none,received,total⟩ alloc)
      (Settled auth dest (alloc=true) said replied) := by
  cases alloc with
  | false => exact reportError_failure _ (by simp)
  | true => exact sendPacket_sending (.request h) (request_length dest) (by simp)

/-- The server has chosen a method. -/
theorem chooseMethod_settled (method : UInt8) (alloc : Bool) :
    Safe (BSocksClient.chooseMethod ⟨auth,dest,before,buffer,some .fresh,none,received,total⟩ method
      alloc) (Settled auth dest (alloc=true) (hello auth) [0x05,method]) := by
  have hviable : Viable auth dest [0x05,method] →
      method=0x00 ∧ selected auth 0x00=some .none ∨
        method=0x02 ∧ ∃ username password, Offers auth username password := by
    rintro ⟨rest,said,hgranted⟩
    rcases hgranted.method.2 with h|⟨hm,ho,-⟩
    · exact .inl h
    · exact .inr ⟨hm,ho⟩
  simp only [BSocksClient.chooseMethod]
  cases hselected : selected auth method with
  | none =>
    refine reportError_refusal _ (fun hv => ?_)
    rcases hviable hv with ⟨rfl,h⟩|⟨rfl,_,_,h,-⟩
    · rw [hselected] at h; cases h
    · rw [hselected] at h; cases h
  | some ai =>
    have htype : ai.authType=method := by simpa using List.find?_some hselected
    cases ai with
    | none =>
      obtain rfl : method=0x00 := htype.symm
      exact authFinished_sending (.none hselected) alloc
    | password username password =>
      obtain rfl : method=0x02 := htype.symm
      dsimp only
      split
      · rename_i hunusable
        refine reportError_refusal _ (fun hv => ?_)
        rcases hviable hv with ⟨h,-⟩|⟨-,username',password',h,husable⟩
        · exact absurd h (by decide)
        · rw [hselected] at h
          cases h
          exact husable hunusable
      · rename_i husable
        cases alloc with
        | false => exact reportError_failure _ (by simp)
        | true =>
          exact sendPacket_sending (.password ⟨hselected,husable⟩) (passwordPacket_length _ _)
            (by simp)

/-- The reply a state waits for is complete. -/
theorem replyComplete_settled (h : Awaiting auth dest before total said replied)
    (hreceived : received.length=total) (alloc : Bool) :
    Safe (BSocksClient.replyComplete ⟨auth,dest,before,true,some .fresh,none,received,total⟩ alloc)
      (Settled auth dest (alloc=true) said (replied++received)) := by
  cases h with
  | method =>
    obtain ⟨ver,method,rfl⟩ := List.length_eq_two.mp hreceived
    simp only [BSocksClient.replyComplete,List.nil_append]
    by_cases hver : ver=0x05
    · subst hver
      simpa using chooseMethod_settled method alloc
    · rw [if_pos hver]
      exact reportError_refusal _ (fun ⟨rest,said,hg⟩ => hver hg.method.1)
  | password ho =>
    obtain ⟨ver,status,rfl⟩ := List.length_eq_two.mp hreceived
    have hviable : Viable auth dest [0x05,0x02,ver,status] → ver=1 ∧ status=0 := by
      rintro ⟨rest,said,hgranted⟩
      have hbytes : Granted auth dest said (0x05::0x02::ver::status::rest) := hgranted
      rcases hbytes.method.2 with ⟨h,-⟩|⟨-,-,rest',h⟩
      · exact absurd h (by decide)
      · simp only [List.cons.injEq] at h
        exact ⟨h.1,h.2.1⟩
    simp only [BSocksClient.replyComplete,List.cons_append,List.nil_append]
    by_cases hver : ver=1
    · by_cases hstatus : status=0
      · subst hver hstatus
        simpa using authFinished_sending (.password ho) alloc
      · rw [if_neg (by simpa using hver),if_pos hstatus]
        exact reportError_refusal _ (fun hv => hstatus (hviable hv).2)
    · rw [if_pos hver]
      exact reportError_refusal _ (fun hv => hver (hviable hv).1)
  | header hauth =>
    obtain ⟨ver,rep,rsv,atyp,rfl⟩ : ∃ a b c d, received=[a,b,c,d] := by
      match received,hreceived with
      | [a,b,c,d],_ => exact ⟨a,b,c,d,rfl⟩
    have hviable : Viable auth dest (replied++[ver,rep,rsv,atyp]) →
        ver=0x05 ∧ rep=0x00 ∧ addrLen atyp≠none := by
      rintro ⟨rest,said,hgranted⟩
      rw [List.append_assoc] at hgranted
      obtain ⟨rsv',atyp',addr,hrest,hlen,-⟩ := hgranted.header hauth
      simp only [List.cons_append,List.nil_append,List.cons.injEq] at hrest
      obtain ⟨hver,hrep,-,rfl,-⟩ := hrest
      exact ⟨hver,hrep,by simp [hlen]⟩
    simp only [BSocksClient.replyComplete]
    by_cases hver : ver=0x05
    · by_cases hrep : rep=0x00
      · rw [if_neg (by simpa using hver),if_neg (by simpa using hrep)]
        cases hlen : addrLen atyp with
        | none => exact reportError_refusal _ (fun hv => (hviable hv).2.2 hlen)
        | some len =>
          subst hver hrep
          have hpos := (addrLen_bounds hlen).1
          simp only [safe_bind,safe_pure]
          exact startReceive_awaiting (.address hauth hlen) (by omega) (by simp)
      · rw [if_neg (by simpa using hver),if_pos hrep]
        exact reportError_refusal _ (fun hv => hrep (hviable hv).2.1)
    · rw [if_pos hver]
      exact reportError_refusal _ (fun hv => hver (hviable hv).1)
  | address hauth hlen =>
    rw [←hreceived] at hlen
    refine ⟨.up ?_,rfl⟩
    rw [List.append_assoc]
    exact .intro hauth hlen

/-- The socket has taken a part of a packet. -/
theorem outputHandlerDone_settled (h : Sending auth dest state packet said replied) {n : ℕ}
    (hn : 0<n ∧ n≤packet.length-used) (alloc : Bool) (hup : state≠.up) :
    Safe (BSocksClient.outputHandlerDone ⟨auth,dest,state,true,some .fresh,some (packet,used),
      received,total⟩ n alloc)
      (Settled auth dest (alloc=true) (said++packet.take (used+n)) replied) := by
  simp only [BSocksClient.outputHandlerDone,safe_bind,safe_demand]
  refine ⟨hn,safe_ite.mpr ⟨fun hmore => ?_,fun hdone => ?_⟩⟩
  · have hlen : 0<packet.length-(used+n) := by
      omega
    simp only [BSocksClient.onConnection,BConnection.senderSend,BConnection.fresh,safe_bind,
      safe_demand,safe_pure]
    exact ⟨⟨hlen,trivial⟩,.sending h hmore,hup⟩
  · rw [List.take_of_length_le (by omega)]
    exact sendHandlerDone_awaiting h alloc

/-- The socket has delivered a part of a reply. -/
theorem recvHandlerDone_settled (h : Awaiting auth dest state total said replied) {data : Bytes}
    (hdata : data.length≤total-received.length) (hreceived : received.length<total) (alloc : Bool)
    (hup : state≠.up) :
    Safe (BSocksClient.recvHandlerDone ⟨auth,dest,state,true,some .fresh,none,received,total⟩ data
      alloc) (Settled auth dest (alloc=true) said (replied++received++data)) := by
  rw [List.append_assoc]
  simp only [BSocksClient.recvHandlerDone,safe_bind,safe_demand]
  refine ⟨hdata,safe_ite.mpr ⟨fun hmore => ?_,fun hdone => ?_⟩⟩
  · simp only [BSocksClient.doReceive,BSocksClient.onConnection,BConnection.receiverRecv,
      BConnection.fresh,safe_bind,safe_demand,safe_pure]
    exact ⟨hmore,⟨by omega,trivial⟩,.receiving h hmore,hup⟩
  · refine replyComplete_settled h ?_ alloc
    rw [List.length_append] at hdone ⊢
    omega

end Handlers

/-- The end of a connection that is in use. -/
theorem connectionHandler_failure {o : BSocksClient} {wire heard : Bytes} {calm : Prop}
    (recvClosed : Bool) (hstate : o.state≠.connecting) (hup : o.state≠.up) (hcalm : ¬calm) :
    Safe (o.connectionHandler recvClosed) (Settled auth dest calm wire heard) := by
  simp only [BSocksClient.connectionHandler,safe_bind,safe_demand]
  refine ⟨hstate,safe_ite.mpr ⟨fun h => absurd h.1 hup,fun _ => ?_⟩⟩
  exact reportError_failure _ hcalm

theorem Sending.not_connecting {state : State} {packet said replied : Bytes}
    (h : Sending auth dest state packet said replied) : state≠.connecting := by
  cases h <;> simp

theorem Awaiting.not_connecting {state : State} {total : ℕ} {said replied : Bytes}
    (h : Awaiting auth dest state total said replied) : state≠.connecting := by
  cases h <;> simp

/-- One event of a client that is not up yet. -/
theorem handleEvent_safe {o : BSocksClient} {wire heard : Bytes} (h : Phase auth dest o wire heard)
    (hup : o.state≠.up) (event : ConnEvent) :
    Safe (handleEvent o event) (Settled auth dest (Calm event) (wire++outgoing o event)
      (heard++incoming event)) := by
  cases h with
  | connecting =>
    cases event with
    | connector isError initialized alloc =>
      simp only [handleEvent,BSocksClient.connectorHandler,BSocksClient.init,safe_bind,safe_suppose,
        safe_demand,outgoing,incoming,List.append_nil,true_and]
      intro _
      refine safe_ite.mpr ⟨fun hfail => ?_,fun _ => safe_ite.mpr ⟨fun hmethods => ?_,fun _ => ?_⟩⟩
      · exact reportError_failure _ (fun hcalm => by simp [hcalm.1,hcalm.2.1] at hfail)
      · rintro ⟨-,-,halloc⟩ hfew ⟨rest,said,hgranted⟩
        rcases hmethods with hnone|hmany|hfalse
        · exact hgranted.offered hnone
        · exact absurd hmany (by simpa using hfew)
        · simp [halloc] at hfalse
      · exact sendPacket_sending .hello (hello_length auth) (by simp)
    | sent n alloc => simp [handleEvent,BSocksClient.init]
    | received data alloc => simp [handleEvent,BSocksClient.init]
    | error => simp [handleEvent,BSocksClient.init]
    | recvClosed => simp [handleEvent,BSocksClient.init]
  | @sending state packet said replied used received total h hused =>
    cases event with
    | connector isError initialized alloc =>
      simp only [handleEvent,safe_bind,safe_suppose]
      exact fun hstate => absurd hstate h.not_connecting
    | sent n alloc =>
      simp only [handleEvent,safe_bind,safe_suppose,BSocksClient.onConnection,BConnection.sendDone,
        safe_pure,Option.getD_some,outgoing,incoming,List.append_nil]
      rw [List.append_assoc,←List.take_add]
      exact fun _ hn => outputHandlerDone_settled h hn alloc hup
    | received data alloc =>
      simp only [handleEvent,safe_bind,safe_suppose,BSocksClient.onConnection,BConnection.recvDone,
        safe_pure,Option.getD_none]
      omega
    | error =>
      simp only [handleEvent,safe_bind,safe_suppose]
      exact fun _ => connectionHandler_failure false h.not_connecting hup id
    | recvClosed =>
      simp only [handleEvent,safe_bind,safe_suppose]
      exact fun _ => connectionHandler_failure true h.not_connecting hup id
  | @receiving state total said replied received h hreceived =>
    cases event with
    | connector isError initialized alloc =>
      simp only [handleEvent,safe_bind,safe_suppose]
      exact fun hstate => absurd hstate h.not_connecting
    | sent n alloc =>
      simp only [handleEvent,safe_bind,safe_suppose,BSocksClient.onConnection,BConnection.sendDone,
        safe_pure,Option.getD_none]
      omega
    | received data alloc =>
      simp only [handleEvent,safe_bind,safe_suppose,BSocksClient.onConnection,BConnection.recvDone,
        safe_pure,Option.getD_some,outgoing,incoming,List.append_nil]
      exact fun _ hdata => recvHandlerDone_settled h hdata.2 hreceived alloc hup
    | error =>
      simp only [handleEvent,safe_bind,safe_suppose]
      exact fun _ => connectionHandler_failure false h.not_connecting hup id
    | recvClosed =>
      simp only [handleEvent,safe_bind,safe_suppose]
      exact fun _ => connectionHandler_failure true h.not_connecting hup id
  | up h => exact absurd rfl hup

/-- A client on its way, or what its user has been told. -/
def Decided (auth : List AuthInfo) (dest : BAddr) (calm : Prop) (t : Talk) : Prop :=
  Settled auth dest calm t.wire t.heard (t.client,t.report)

theorem decided_init (auth : List AuthInfo) (dest : BAddr) (calm : Prop) :
    Decided auth dest calm (.init auth dest) :=
  ⟨.connecting,by simp [Talk.init,BSocksClient.init]⟩

/-- One event keeps the verdict right; it may only become wrong when the surroundings fail. -/
theorem step_decided {t : Talk} {calm : Prop} {event : ConnEvent} (h : Decided auth dest calm t)
    (hcalm : calm → Calm event) : Safe (t.step event) (Decided auth dest calm) := by
  obtain ⟨client,wire,heard,report⟩ := t
  simp only [Talk.step,safe_bind,safe_suppose,safe_pure]
  rintro rfl
  refine (handleEvent_safe h.1 h.2 event).mono (fun handled hs => ?_)
  obtain ⟨o,_|_|_|_⟩ := handled
  · exact hs
  · exact fun hc => hs (hcalm hc)
  · exact hs
  · exact hs

/-- Before the user is told anything, fewer than 26 bytes have arrived. -/
theorem Phase.short {o : BSocksClient} {wire heard : Bytes} (h : Phase auth dest o wire heard)
    (hup : o.state≠.up) : heard.length<26 ∧ ∀ said, ¬Granted auth dest said heard := by
  cases h with
  | connecting => exact ⟨by simp,fun said hg => absurd hg.length (by simp)⟩
  | sending h hused =>
    refine ⟨?_,fun said => h.unfinished⟩
    cases h with
    | hello => simp
    | password ho => simp
    | request hauth =>
      have hlen := hauth.length.2
      omega
  | receiving h hreceived =>
    refine ⟨?_,fun said => h.unfinished hreceived⟩
    rw [List.length_append]
    cases h with
    | method => simp; omega
    | password ho => simp; omega
    | header hauth =>
      have hlen := hauth.length.2
      omega
    | address hauth hlen =>
      have hreplied := hauth.length.2
      have haddr := (addrLen_bounds hlen).2
      simp only [List.length_append,List.length_cons,List.length_nil]
      omega
  | up h => exact absurd rfl hup

/-- A client that is up has heard an accepted conversation, and its connection is idle. -/
theorem Phase.granted {o : BSocksClient} {wire heard : Bytes} (h : Phase auth dest o wire heard)
    (hup : o.state=.up) : Granted auth dest wire heard ∧ o.con=some .fresh := by
  cases h with
  | connecting => cases hup
  | sending h hused => cases h <;> cases hup
  | receiving h hreceived => cases h <;> cases hup
  | up h => exact ⟨h,rfl⟩

/-- However the two streams are cut: while nothing in its surroundings fails, the user of the
client is told that it is up exactly when the bytes of the server are an accepted conversation,
and then exactly the hello, the password that was asked for and the request have been sent. It
is told of an error only if no continuation would be accepted, and it is told something before
26 bytes have arrived. -/
theorem told_by_server_bytes {events : List ConnEvent} {t : Talk} (hfew : auth.length≤255)
    (hrun : (checked Talk.step).RunUnder (fun _ event => Calm event) (.init auth dest) events t) :
    (t.report=some .up ↔ ∃ said, Granted auth dest said t.heard) ∧
      (t.report=some .up → Granted auth dest t.wire t.heard) ∧
      (t.report=some .error → ¬Viable auth dest t.heard) ∧
      (t.report=none → t.heard.length<26) := by
  have hdecided : Decided auth dest True t :=
    hrun.invariant (fun s event s' hs hcalm ht =>
      (step_decided hs (fun _ => hcalm)).of_ok (turn_checked.mp ht)) (decided_init auth dest True)
  obtain ⟨client,wire,heard,report⟩ := t
  cases report with
  | none =>
    obtain ⟨hlen,hnot⟩ := hdecided.1.short hdecided.2
    refine ⟨⟨by simp,fun ⟨said,h⟩ => absurd h (hnot said)⟩,by simp,by simp,fun _ => hlen⟩
  | some report =>
    cases report with
    | error =>
      have hviable := hdecided trivial hfew
      refine ⟨⟨by simp,fun ⟨said,h⟩ => ?_⟩,by simp,fun _ => hviable,by simp⟩
      exact absurd ⟨[],said,by simpa using h⟩ hviable
    | up =>
      have hgranted : Granted auth dest wire heard := (hdecided.1.granted hdecided.2).1
      exact ⟨⟨fun _ => ⟨wire,hgranted⟩,fun _ => rfl⟩,fun _ => hgranted,by simp,by simp⟩
    | errorClosed => exact hdecided.elim

/-- A server that asks for a password and grants the request, with replies in pieces. -/
def sampleTalk : List ConnEvent :=
  [ConnEvent.connector false true true,.sent 3 true,.sent 1 true,.received [0x05] true,
    .received [0x02] true,.sent 7 true,.received [1,0] true,.sent 10 true,
    .received [0x05,0x00,0,0x01] true,.received [0,0,0,0] true,.received [0,0] true]

/-- The address of a sample destination. -/
def sampleDest : BAddr := .ipv4 ⟨[1,2,3,4],rfl⟩ ⟨[0,80],rfl⟩

/-- The methods of a sample client. -/
def sampleAuth : List AuthInfo := [AuthInfo.none,.password [117,115] [112,119]]

/-- The end of that conversation. -/
def sampleTold : Talk := stepped Talk.step sampleTalk (.init sampleAuth sampleDest)

theorem told_by_server_bytes_sample : sampleTold.report=some .up ∧
    Granted sampleAuth sampleDest sampleTold.wire sampleTold.heard := by
  have hup : sampleTold.report=some .up := by decide
  have hcalm : ∀ event∈sampleTalk, Calm event := by simp [sampleTalk,Calm]
  have hrun : (checked Talk.step).RunUnder (fun _ event => Calm event) (.init sampleAuth sampleDest)
      sampleTalk sampleTold := .of_events (run_stepped (by decide)) hcalm
  exact ⟨hup,(told_by_server_bytes (by decide) hrun).2.1 hup⟩

/-- No assertion of the client fails on any run. -/
theorem talk_never_faults {events : List ConnEvent} {t : Talk}
    (hrun : (checked Talk.step).Run (.init auth dest) events t) (event : ConnEvent) :
    Talk.step event t≠.error .fault :=
  run_never_faults (fun _ _ hs => step_decided hs False.elim) hrun (decided_init auth dest False)
    event

end ProxyDroid.SocksClientRuns
