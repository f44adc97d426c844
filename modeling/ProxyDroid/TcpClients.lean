import ProxyDroid.TcpRelayRuns

/-!
# All TCP connections of the tunnel process

The clients that have been accepted and not released are in a list with a counter beside it.
Events of different clients interleave in any order. A client is taken out of the list when its
memory is freed, and the ones that are left when the event loop ends are torn down. The results
about a single connection are stated for its own runs.

The clients are independent of each other but for `socks_auth_info`, which all of them point to.
With `--append-source-to-username` each accepted client puts its own user name there, and frees
the string when it is released.
-/

namespace ProxyDroid.TcpClients

open CallSemantics CheckedPrograms SocksClient SocksClientRuns TcpRelay TcpRelayStates TcpRelayRuns
open ConnectionTypes (Bytes)

/-- `socks_auth_info` once the source address has been appended to the user name. -/
def named (auth : List AuthInfo) (source : Bytes) : List AuthInfo :=
  auth.map (fun ai => match ai with
    | .none => .none
    | .password username password => .password (username++64::source) password)

/-- The SOCKS client has still to read `auth_info`. -/
def negotiating (o : BSocksClient) : Bool :=
  o.state=.connecting ∨ o.state=.sendingHello ∨ o.state=.sentHello

/-- The SOCKS client of a client has copied the user name into its password packet: the server has
chosen that method, and the lengths and the allocation have not stopped it. -/
def copied (w : World) : Bool :=
  w.heard.take 2=[0x05,0x02] ∧ negotiating w.client.socksClient=false

/-- A client after `socks_auth_info` has changed. The array is read for the hello and when the
server has chosen a method, never later. -/
def reread (auth : List AuthInfo) (w : World) : World :=
  if w.client.socksClosed=false ∧ negotiating w.client.socksClient=true then
    w.set (fun c => { c with socksClient := { c.socksClient with authInfo := auth } })
  else w

/-- A client of the process. -/
structure Client where
  /-- The client with its surroundings. -/
  world : World
  /-- `socks_username`, by the number of the string. -/
  socksUsername : Option ℕ
  deriving DecidableEq

/-- The clients of the process. -/
structure Tunnel where
  /-- `tcp_clients`. -/
  clients : List Client
  /-- `num_clients`. -/
  numClients : ℕ
  /-- `socks_auth_info`. -/
  authInfo : List AuthInfo
  /-- The string that the user name in there is, unless it is the one of the command line. -/
  username : Option ℕ
  /-- How many strings have been allocated for user names. -/
  strings : ℕ
  /-- The clients whose memory has been freed, as they were then. -/
  released : List World
  /-- How many connections have been accepted. -/
  accepts : ℕ
  deriving DecidableEq

namespace Tunnel

/-- Before the event loop. -/
def init (auth : List AuthInfo) : Tunnel := ⟨[],0,auth,none,0,[],0⟩

/-- The user name in `socks_auth_info` is a string that has been freed with its client. -/
def dangling (t : Tunnel) : Bool :=
  match t.username with
  | none => false
  | some name => t.clients.all (fun c => c.socksUsername≠some name)

/-- A client after an event. If its memory has been freed, `client_dealloc` has also removed it
from the list and freed its user name. -/
def settle (i : ℕ) (c : Client) (t : Tunnel) : Checked Tunnel :=
  if c.world.freed=true then do
    demand (0<t.numClients)
    return { t with
      clients := t.clients.eraseIdx i
      numClients := t.numClients-1
      released := t.released++[c.world] }
  else .ok { t with clients := t.clients.set i c }

/-- The part of `listener_accept_func` that enters the client. -/
def enter (c : Client) (t : Tunnel) : Tunnel :=
  { t with
    clients := t.clients++[c]
    numClients := t.numClients+1
    accepts := t.accepts+1 }

/-- The part of `listener_accept_func` that appends the source address to the user name. -/
def rename (auth : List AuthInfo) (t : Tunnel) : Tunnel :=
  { t with
    clients := t.clients.map (fun c => { c with world := reread auth c.world })
    authInfo := auth
    username := some t.strings
    strings := t.strings+1 }

/-- `listener_accept_func` from `BSocksClient_Init` on. If that fails, the user name of the client
is freed again. -/
def initSocks (dest : BAddr) (initialized : Bool) (socksUsername : Option ℕ)
    (nested : List (ConnEvent×Answers)) (t : Tunnel) : Checked (Tunnel×Err) :=
  if initialized=true then do
    -- a password packet written here takes the name that is the client's own or an option
    let result ← synchronize nested (.accepted t.authInfo dest)
    let t' ← (t.enter ⟨.accepted t.authInfo dest,socksUsername⟩).settle t.clients.length
      ⟨result.1,socksUsername⟩
    return (t',result.2)
  else .ok (t,.mem)

/-- `listener_accept_func` for a connection from a source address, as it is printed; the flags are
the results of `malloc`, `concat_strings` and `BSocksClient_Init`. -/
def listenerAcceptFunc (auth : List AuthInfo) (append : Bool) (dest : BAddr) (source : Bytes)
    (allocated concatenated initialized : Bool) (nested : List (ConnEvent×Answers)) (t : Tunnel) :
    Checked (Tunnel×Err) :=
  if allocated=false then .ok (t,.mem)
  else if append=false then t.initSocks dest initialized none nested
  else if concatenated=false then .ok (t,.mem)
  else (t.rename (named auth source)).initSocks dest initialized (some t.strings) nested

/-- An event of one client. The user name must not have been freed when it is copied. -/
def clientEvent (i : ℕ) (event : TcpRelay.Event) (t : Tunnel) : Checked Tunnel :=
  match t.clients[i]? with
  | none => .error .impossible
  | some c => do
    let w ← TcpRelay.step event c.world
    demand (copied c.world=true ∨ copied w=false ∨ t.dangling=false)
    t.settle i { c with world := w }

/-- A round of the loop that frees the clients behind the event loop. -/
def murderFirst (t : Tunnel) : Checked Tunnel :=
  match t.clients with
  | [] => .ok t
  | c::_ => do
    let w ← c.world.clientMurder
    t.settle 0 { c with world := w }

/-- That loop, for a number of rounds. -/
def freeClients : ℕ → Tunnel → Checked Tunnel
  | 0,t => .ok t
  | n+1,t => do
    let t ← t.murderFirst
    t.freeClients n

end Tunnel

/-- What happens to the clients. -/
inductive Event where
  /-- The TCP stack has accepted a connection. -/
  | accept (dest : BAddr) (source : Bytes) (allocated concatenated initialized : Bool)
      (nested : List (ConnEvent×Answers))
  /-- An event of one client. -/
  | client (i : ℕ) (event : TcpRelay.Event)
  deriving DecidableEq

/-- One event; `auth` is `socks_auth_info` as the command line gives it, and `append` whether there
is a user name and the source address is appended to it. -/
def step (auth : List AuthInfo) (append : Bool) (event : Event) (t : Tunnel) : Checked Tunnel :=
  match event with
  | .accept dest source allocated concatenated initialized nested => do
    let result ← t.listenerAcceptFunc auth append dest source allocated concatenated initialized
      nested
    return result.1
  | .client i event => t.clientEvent i event

variable {auth auth' : List AuthInfo} {append : Bool} {dest : BAddr} {w : World} {t : Tunnel}

/-- Both sides of a client have been given up, each of them once, before its memory is freed. -/
structure Released (w : World) : Prop where
  freed : w.freed=true
  clientClosed : w.client.clientClosed=true
  socksClosed : w.client.socksClosed=true
  opened : w.pcb.opened=false
  ends : w.ends.length=1
  socks : w.socksLive=false
  frees : w.frees=1

/-- A live client. The user names that it may have been told differ, the methods do not. -/
def Served (auth : List AuthInfo) (w : World) : Prop :=
  ∃ auth' dest, hello auth'=hello auth ∧ Live auth' dest w

/-- The invariant of every run. -/
structure Counted (auth : List AuthInfo) (append : Bool) (t : Tunnel) : Prop where
  live : ∀ c∈t.clients, Served auth c.world
  released : ∀ w∈t.released, Released w
  count : t.numClients=t.clients.length
  accepts : t.clients.length+t.released.length=t.accepts
  methods : hello t.authInfo=hello auth
  /-- Without the option the user name is never replaced. -/
  unnamed : append=false → t.username=none

theorem counted_init (auth : List AuthInfo) (append : Bool) : Counted auth append (.init auth) where
  live := by simp [Tunnel.init]
  released := by simp [Tunnel.init]
  count := rfl
  accepts := rfl
  methods := rfl
  unnamed := fun _ => rfl

/-- The user name is not part of the hello. -/
theorem hello_named (auth : List AuthInfo) (source : Bytes) : hello (named auth source)=hello auth := by
  have htypes : (named auth source).map AuthInfo.authType=auth.map AuthInfo.authType := by
    rw [named,List.map_map]
    refine List.map_congr_left (fun ai _ => ?_)
    cases ai with
    | none => rfl
    | password username password => rfl
  rw [hello,hello,htypes,named,List.length_map]

theorem Released.of_inv (h : Inv auth dest w) (hfreed : w.freed=true) : Released w := by
  rcases h with h|h
  · exact absurd (h.held.allocated.symm.trans hfreed) (by simp)
  · exact ⟨h.freed,h.clientClosed,h.socksClosed,h.opened,h.ends,h.socks,h.frees⟩

theorem live_of_inv (h : Inv auth dest w) (hkept : w.freed≠true) : Live auth dest w := by
  rcases h with h|h
  · exact h
  · exact absurd h.freed hkept

/-- Until a method has been chosen, a SOCKS client may as well have been given the new methods. -/
theorem Phase.reread {o : BSocksClient} {wire heard : Bytes} (h : Phase auth dest o wire heard)
    (hstate : negotiating o=true) (hsame : hello auth'=hello auth) :
    Phase auth' dest { o with authInfo := auth' } wire heard ∧ wire<+:hello auth' := by
  cases h with
  | connecting => exact ⟨.connecting,List.nil_prefix⟩
  | @sending state packet said replied used received total h hused =>
    cases h with
    | hello =>
      rw [←hsame] at hused ⊢
      exact ⟨.sending .hello hused,List.take_prefix _ _⟩
    | password hoffers => simp [negotiating] at hstate
    | request hauth => simp [negotiating] at hstate
  | @receiving state total said replied received h hreceived =>
    cases h with
    | method =>
      rw [←hsame]
      exact ⟨.receiving .method hreceived,List.prefix_rfl⟩
    | password hoffers => simp [negotiating] at hstate
    | header hauth => simp [negotiating] at hstate
    | address hauth hlen => simp [negotiating] at hstate
  | up h => simp [negotiating] at hstate

/-- A live client may read another user name as long as it has not read any. -/
theorem Live.reread (h : Live auth dest w) (hopen : w.client.socksClosed=false)
    (hstate : negotiating w.client.socksClient=true) (hsame : hello auth'=hello auth) :
    Live auth' dest (w.set (fun c =>
      { c with socksClient := { c.socksClient with authInfo := auth' } })) := by
  have hlinked := h.linked hopen
  -- the client is not up: that state is behind the negotiation
  have hdown : w.client.socksUp=false := by
    refine eq_false_of_ne_true (fun hup => ?_)
    have hstate' := (hlinked.up hup).1
    simp [negotiating,hstate'] at hstate
  obtain ⟨hphase,hnot⟩ := hlinked.before hdown
  obtain ⟨hphase',hwire⟩ := Phase.reread hphase hstate hsame
  have hstreams : Streams auth' dest (w.set (fun c =>
      { c with socksClient := { c.socksClient with authInfo := auth' } })) := by
    refine ⟨fun _ => ?_,fun hup => absurd (hdown.symm.trans hup) (by simp)⟩
    obtain ⟨hwritten,hreceived,-⟩ := h.held.streams.before hdown
    exact ⟨hwritten,hreceived,.inl hwire⟩
  refine ⟨{ h.held with streams := hstreams },fun _ => ⟨fun _ => ⟨hphase',hnot⟩,fun hup => ?_⟩,
    h.recv,h.draining,h.flushing,h.waits,h.sound,h.clientCause,h.socksCause⟩
  exact absurd (hdown.symm.trans hup) (by simp)

/-- Every client goes on when `socks_auth_info` has changed. -/
theorem Served.reread (h : Served auth w) (hsame : hello auth'=hello auth) :
    Served auth (reread auth' w) := by
  unfold TcpClients.reread
  split_ifs with hreads
  · obtain ⟨auth₁,dest,hhello,hlive⟩ := h
    exact ⟨auth',dest,hsame,Live.reread hlive hreads.1 hreads.2 (hsame.trans hhello.symm)⟩
  · exact h

/-- A client that is still live stays in its place. -/
theorem Counted.set {i : ℕ} {c : Client} (h : Counted auth append t) (hc : Served auth c.world) :
    Counted auth append { t with clients := t.clients.set i c } where
  live := by
    intro c' hc'
    rcases List.mem_or_eq_of_mem_set hc' with hold|rfl
    · exact h.live c' hold
    · exact hc
  released := h.released
  count := h.count.trans (List.length_set).symm
  accepts := by rw [List.length_set]; exact h.accepts
  methods := h.methods
  unnamed := h.unnamed

/-- A client that has been released leaves the list. -/
theorem Counted.erase {i : ℕ} {c : Client} (h : Counted auth append t) (hi : i<t.clients.length)
    (hc : Released c.world) :
    Returns (t.settle i c) (fun t' => Counted auth append t' ∧ t'.clients=t.clients.eraseIdx i ∧
      t'.accepts=t.accepts) := by
  have hcount := h.count
  have haccepts := h.accepts
  have hlen : (t.clients.eraseIdx i).length=t.clients.length-1 := List.length_eraseIdx_of_lt hi
  refine returns_ite.mpr ⟨fun _ => ?_,fun hkept => absurd hc.freed hkept⟩
  simp only [returns_bind,returns_demand,returns_pure,and_true]
  refine ⟨by omega,?_,?_,?_,?_,h.methods,h.unnamed⟩
  · exact fun c' hc' => h.live c' (List.mem_of_mem_eraseIdx hc')
  · intro w' hw'
    rcases List.mem_append.mp hw' with hold|hnew
    · exact h.released w' hold
    · rw [List.mem_singleton.mp hnew]
      exact hc
  · exact (congrArg (·-1) hcount).trans hlen.symm
  · simp only [List.length_append,List.length_singleton]
    omega

/-- A client after an event. -/
theorem Counted.settle {i : ℕ} {c : Client} (h : Counted auth append t) (hi : i<t.clients.length)
    (hsame : hello auth'=hello auth) (hc : Inv auth' dest c.world) :
    Safe (t.settle i c) (Counted auth append) := by
  by_cases hfreed : c.world.freed=true
  · exact (h.erase hi (.of_inv hc hfreed)).safe.mono (fun _ ht => ht.1)
  · refine safe_ite.mpr ⟨fun hf => absurd hf hfreed,fun _ => ?_⟩
    exact h.set ⟨auth',dest,hsame,live_of_inv hc hfreed⟩

/-- An accepted connection is entered. -/
theorem Counted.enter {c : Client} (h : Counted auth append t) (hc : Served auth c.world) :
    Counted auth append (t.enter c) where
  live := by
    intro c' hc'
    rcases List.mem_append.mp hc' with hold|hnew
    · exact h.live c' hold
    · rw [List.mem_singleton.mp hnew]
      exact hc
  released := h.released
  count := by
    have hcount := h.count
    simp only [Tunnel.enter,List.length_append,List.length_singleton]
    omega
  accepts := by
    have haccepts := h.accepts
    simp only [Tunnel.enter,List.length_append,List.length_singleton]
    omega
  methods := h.methods
  unnamed := h.unnamed

/-- The user name is replaced. -/
theorem Counted.rename (h : Counted auth append t) (hsame : hello auth'=hello auth)
    (happend : append=true) : Counted auth append (t.rename auth') where
  live := by
    intro c hc
    obtain ⟨c₀,hc₀,rfl⟩ := List.mem_map.mp hc
    exact (h.live c₀ hc₀).reread hsame
  released := h.released
  count := h.count.trans (List.length_map _).symm
  accepts := by
    rw [Tunnel.rename,List.length_map]
    exact h.accepts
  methods := hsame
  unnamed := fun hoff => absurd (happend.symm.trans hoff) (by simp)

/-- A connection that has just been accepted is live. -/
theorem live_accepted (auth : List AuthInfo) (dest : BAddr) : Live auth dest (.accepted auth dest) :=
  live_of_inv (inv_accepted auth dest) (by simp [World.accepted])

/-- The second part of `listener_accept_func`. -/
theorem initSocks_counted (h : Counted auth append t) (dest : BAddr) (initialized : Bool)
    (socksUsername : Option ℕ) (nested : List (ConnEvent×Answers)) :
    Safe (t.initSocks dest initialized socksUsername nested)
      (fun result => Counted auth append result.1) := by
  refine safe_ite.mpr ⟨fun _ => ?_,fun _ => h⟩
  simp only [safe_bind,safe_pure]
  refine (synchronize_answered nested (live_accepted t.authInfo dest) rfl).mono ?_
  intro result hr
  refine (h.enter ⟨t.authInfo,dest,h.methods,live_accepted t.authInfo dest⟩).settle ?_ h.methods hr.1
  simp [Tunnel.enter]

/-- `listener_accept_func`. -/
theorem listenerAcceptFunc_counted (h : Counted auth append t) (dest : BAddr) (source : Bytes)
    (allocated concatenated initialized : Bool) (nested : List (ConnEvent×Answers)) :
    Safe (t.listenerAcceptFunc auth append dest source allocated concatenated initialized nested)
      (fun result => Counted auth append result.1) := by
  refine safe_ite.mpr ⟨fun _ => h,fun _ => safe_ite.mpr ⟨fun _ => ?_,fun hon => ?_⟩⟩
  · exact initSocks_counted h dest initialized none nested
  · refine safe_ite.mpr ⟨fun _ => h,fun _ => ?_⟩
    have hrenamed := h.rename (hello_named auth source) (eq_true_of_ne_false hon)
    exact initSocks_counted hrenamed dest initialized (some t.strings) nested

/-- The client's event makes its SOCKS client copy the user name while that is a freed string. -/
def ReadsFreed (t : Tunnel) (event : Event) : Prop :=
  ∃ i clientEvent c w, event=.client i clientEvent ∧ t.clients[i]?=some c ∧
    TcpRelay.step clientEvent c.world=.ok w ∧ copied c.world=false ∧ copied w=true ∧
    t.dangling=true

/-- Unless a freed user name is read, every event keeps the clients counted. -/
theorem step_counted (h : Counted auth append t) (event : Event) (hreads : ¬ReadsFreed t event) :
    Safe (step auth append event t) (Counted auth append) := by
  cases event with
  | accept dest source allocated concatenated initialized nested =>
    simp only [step,safe_bind,safe_pure]
    exact listenerAcceptFunc_counted h dest source allocated concatenated initialized nested
  | client i event =>
    simp only [step,Tunnel.clientEvent]
    cases hi : t.clients[i]? with
    | none => trivial
    | some c =>
      obtain ⟨hlt,hc⟩ := List.getElem?_eq_some_iff.mp hi
      obtain ⟨auth',dest,hsame,hlive⟩ := h.live c (hc ▸ List.getElem_mem hlt)
      have hinv := step_inv (.inl hlive) event
      simp only [safe_bind,safe_demand]
      cases hstep : TcpRelay.step event c.world with
      | error stop =>
        rw [hstep] at hinv
        cases stop with
        | impossible => trivial
        | fault => exact hinv
      | ok w =>
        rw [hstep] at hinv
        have hallowed : copied c.world=true ∨ copied w=false ∨ t.dangling=false := by
          by_contra hnot
          simp only [not_or,Bool.not_eq_true,Bool.not_eq_false] at hnot
          exact hreads ⟨i,event,c,w,rfl,hi,hstep,hnot⟩
        exact ⟨hallowed,h.settle (c := { c with world := w }) hlt hsame hinv⟩

/-- What happens when a freed user name is read. -/
theorem step_readsFreed {event : Event} (h : ReadsFreed t event) :
    step auth append event t=.error .fault := by
  obtain ⟨i,clientEvent,c,w,rfl,hi,hstep,hbefore,hafter,hdangling⟩ := h
  have hrefused : demand (copied c.world=true ∨ copied w=false ∨ t.dangling=false)=.error .fault :=
    if_neg (by simp [hbefore,hafter,hdangling])
  simp only [step,Tunnel.clientEvent,hi,hstep]
  change (demand _ >>= _)=Except.error Stop.fault
  rw [hrefused]
  rfl

/-- Every event that does not fail keeps the clients counted. -/
theorem counted_of_step {event : Event} {t' : Tunnel} (h : Counted auth append t)
    (hstep : step auth append event t=.ok t') : Counted auth append t' := by
  refine (step_counted h event (fun hreads => ?_)).of_ok hstep
  rw [step_readsFreed hreads] at hstep
  cases hstep

/-- The first part of `client_murder`. -/
theorem murderClient_returns (h : Held auth dest (!w.client.clientClosed) w) :
    Returns w.murderClient (fun w' => w'.freed=false ∧ w'.client={ w.client with clientClosed := true } ∧
      w'.pcb.opened=false ∧ w'.ends.length=1 ∧ w'.socksLive=w.socksLive ∧ w'.frees=w.frees) := by
  have hopened := h.opened
  have hends := h.ends
  refine returns_ite.mpr ⟨fun hopen => ?_,fun hclosed => ?_⟩
  · rw [hopen] at hopened hends
    have hnone : w.ends=[] := by simpa using hends
    simp only [World.removeCallbacks,World.endPcb,World.onPcb,returns_bind,returns_demand,
      returns_pure]
    refine ⟨hopened,hopened,h.allocated,rfl,rfl,?_,rfl,rfl⟩
    simp [World.markClosed,World.set,hnone]
  · have hc : w.client.clientClosed=true := eq_true_of_ne_false hclosed
    rw [hc] at hopened hends
    exact returns_ok.mpr ⟨h.allocated,by rw [←hc],hopened,hends,rfl,rfl⟩

/-- `client_murder` of any live client gives up what is left of it. -/
theorem clientMurder_released (h : Live auth dest w) : Returns w.clientMurder Released := by
  have hsocks := h.held.socks
  have hfrees := h.held.frees
  simp only [World.clientMurder,World.access,returns_bind,returns_demand]
  refine ⟨h.held.allocated,(murderClient_returns h.held).mono ?_⟩
  rintro w₁ ⟨hfreed,hclient,hopened,hends,hlive,hcount⟩
  refine returns_ite.mpr ⟨fun hopen => ?_,fun hclosed => ?_⟩
  · rw [hclient] at hopen
    rw [hopen] at hsocks hfrees
    simp only [World.freeSocksClient,World.clientDealloc,World.access,returns_bind,returns_demand,
      returns_pure]
    refine ⟨hlive.trans hsocks,hfreed,?_,rfl,rfl,?_,rfl,hopened,hends,rfl,?_⟩
    · simp [World.set,hclient]
    · simp [World.set,hclient]
    · exact congrArg (·+1) (hcount.trans hfrees)
  · have hc : w.client.socksClosed=true := by
      rw [hclient] at hclosed
      exact eq_true_of_ne_false hclosed
    rw [hc] at hsocks hfrees
    simp only [World.clientDealloc,World.access,returns_ok,returns_bind,returns_demand,returns_pure]
    have hboth : w₁.client.clientClosed=true ∧ w₁.client.socksClosed=true := by
      rw [hclient]
      exact ⟨rfl,hc⟩
    exact ⟨hfreed,hboth.1,hboth.2,rfl,hboth.1,hboth.2,hopened,hends,hlive.trans hsocks,
      hcount.trans hfrees⟩

/-- A round of the loop behind the event loop takes the first client out of the list. -/
theorem murderFirst_counted (h : Counted auth append t) :
    Returns t.murderFirst (fun t' => Counted auth append t' ∧ t'.clients=t.clients.tail ∧
      t'.accepts=t.accepts) := by
  cases hclients : t.clients with
  | nil =>
    rw [Tunnel.murderFirst,hclients]
    exact ⟨h,hclients,rfl⟩
  | cons c cs =>
    obtain ⟨auth',dest,-,hlive⟩ := h.live c (by simp [hclients])
    simp only [Tunnel.murderFirst,hclients,returns_bind]
    refine (clientMurder_released hlive).mono (fun w' hw' => ?_)
    refine (h.erase (c := { c with world := w' }) (by simp [hclients]) hw').mono ?_
    rintro t' ⟨ht,htail,haccepts⟩
    exact ⟨ht,by rw [htail,hclients]; rfl,haccepts⟩

/-- The loop behind the event loop ends with an empty list. -/
theorem freeClients_counted (n : ℕ) (h : Counted auth append t) (hn : t.clients.length=n) :
    Returns (t.freeClients n)
      (fun t' => Counted auth append t' ∧ t'.clients=[] ∧ t'.accepts=t.accepts) := by
  induction n generalizing t with
  | zero => exact ⟨h,List.length_eq_zero_iff.mp hn,rfl⟩
  | succ n ih =>
    rw [Tunnel.freeClients,returns_bind]
    refine (murderFirst_counted h).mono ?_
    rintro t₁ ⟨h₁,htail,haccepts⟩
    refine (ih h₁ (by simp [htail,hn])).mono ?_
    rintro t₂ ⟨h₂,hnil,haccepts₂⟩
    exact ⟨h₂,hnil,haccepts₂.trans haccepts⟩

section Runs

variable {events : List Event}

/-- The clients are counted after every run. -/
theorem run_counted (hrun : (checked (step auth append)).Run (.init auth) events t) :
    Counted auth append t :=
  hrun.invariant (fun _ _ _ h _ ht => counted_of_step h (turn_checked.mp ht))
    (counted_init auth append)

/-- However the events of the clients interleave, no assertion fails, no client is used after its
memory has been freed, and no protocol control block after it has been given up, with one
exception: a client copies the user name of the client that was accepted last although that one
has been released and has freed it. Without `--append-source-to-username` that does not happen. -/
theorem tunnel_faults_iff (hrun : (checked (step auth append)).Run (.init auth) events t)
    (event : Event) :
    (step auth append event t=.error .fault ↔ ReadsFreed t event) ∧
      (append=false → ¬ReadsFreed t event) := by
  have hcounted := run_counted hrun
  refine ⟨⟨fun hfault => ?_,step_readsFreed⟩,fun hoff => ?_⟩
  · by_contra hreads
    have hsafe := step_counted hcounted event hreads
    rw [hfault] at hsafe
    exact hsafe
  · rintro ⟨i,clientEvent,c,w,-,-,-,-,-,hdangling⟩
    simp [Tunnel.dangling,hcounted.unnamed hoff] at hdangling

/-- Two connections from two ports; the second one is reset while the first one waits for the
method that the server chooses. -/
def sampleRenamed : List Event :=
  [Event.accept sampleDest [49] true true true [],.accept sampleDest [50] true true true [],
    .client 0 (.conn (.connector false true true,sampleAnswers)),
    .client 0 (.conn (.sent 4 true,sampleAnswers)),.client 1 .err]

/-- The clients after these events. -/
def sampleDangling : Tunnel := stepped (step sampleAuth true) sampleRenamed (.init sampleAuth)

theorem tunnel_faults_sample :
    step sampleAuth true (.client 0 (.conn (.received [0x05,0x02] true,sampleAnswers)))
      sampleDangling=.error .fault := by
  have hrun : (checked (step sampleAuth true)).Run (.init sampleAuth) sampleRenamed sampleDangling :=
    run_stepped (by decide)
  refine (tunnel_faults_iff hrun _).1.mpr ⟨0,_,_,_,rfl,rfl,rfl,?_,?_,?_⟩
  · decide
  · decide
  · decide

/-- Two connections, one of which ends by itself. -/
def sampleEvents : List Event :=
  Event.accept sampleDest [] true true true []::.accept sampleDest [] true true true []::
    TcpRelayRuns.sampleEvents.map (Event.client 0)

/-- The clients after these events. -/
def sampleTunnel : Tunnel := stepped (step sampleAuth false) sampleEvents (.init sampleAuth)

/-- At every moment each accepted connection is either in the list, with memory that is in use,
or released with both sides given up once, and `num_clients` is the length of the list. The loop
behind the event loop leaves no client and releases each of the others in the same way. -/
theorem tunnel_releases_once (hrun : (checked (step auth append)).Run (.init auth) events t) :
    (t.numClients=t.clients.length ∧ t.clients.length+t.released.length=t.accepts ∧
      (∀ c∈t.clients, c.world.freed=false) ∧ ∀ w∈t.released, Released w) ∧
    ∃ t', t.freeClients t.clients.length=.ok t' ∧ t'.clients=[] ∧ t'.numClients=0 ∧
      t'.released.length=t.accepts ∧ ∀ w∈t'.released, Released w := by
  have hcounted := run_counted hrun
  obtain ⟨t',hok,h',hnil,haccepts⟩ := (freeClients_counted _ hcounted rfl).value
  refine ⟨⟨hcounted.count,hcounted.accepts,fun c hc => ?_,hcounted.released⟩,t',hok,hnil,?_,?_,
    h'.released⟩
  · obtain ⟨auth',dest,-,hlive⟩ := hcounted.live c hc
    exact hlive.held.allocated
  · rw [h'.count,hnil]
    rfl
  · have hsum := h'.accepts
    rw [hnil] at hsum
    simp only [List.length_nil,Nat.zero_add] at hsum
    exact hsum.trans haccepts

theorem tunnel_releases_once_sample : sampleTunnel.accepts=2 ∧
    ∃ t', sampleTunnel.freeClients sampleTunnel.clients.length=.ok t' ∧ t'.released.length=2 := by
  have haccepts : sampleTunnel.accepts=2 := by decide
  have hrun : (checked (step sampleAuth false)).Run (.init sampleAuth) sampleEvents sampleTunnel :=
    run_stepped (by decide)
  obtain ⟨-,t',hok,-,-,hlength,-⟩ := tunnel_releases_once hrun
  exact ⟨haccepts,t',hok,hlength.trans haccepts⟩

end Runs

end ProxyDroid.TcpClients
