import ProxyDroid.RecentlyUsed
import ProxyDroid.UdpRelay

/-!
# The table of the relay of UDP datagrams

The comparator is a linear order. The tree and the list hold the same connections, each for another
pair of addresses, and looking for a connection keeps that. It never fails and does one of four
things, each of which is one use of the pair in a list in the order of last use.
-/

namespace ProxyDroid.UdpRelayStates

open CallSemantics CheckedPrograms BalancedTree UdpDatagrams UdpRelay RecentlyUsed
open TreeOperations hiding step
open BalancedTree.BAVLNode (inorder)
open ConnectionTypes (Bytes)
open SocksClient (Octets BAddr)

/-- The address of an IPv4 address as a number. -/
def ipv4Value : BAddr → ℕ
  | .ipv4 ip _ => ntoh32 ip
  | .ipv6 _ _ => 0

/-- The bytes of an IPv6 address. -/
def ipv6Bytes : BAddr → Bytes
  | .ipv4 _ _ => []
  | .ipv6 ip _ => ip.bytes

/-- The port as a number. -/
def portValue : BAddr → ℕ
  | .ipv4 _ port => ntoh16 port
  | .ipv6 _ port => ntoh16 port

/-- Addresses are compared by type, address and port. -/
theorem compareOrder_eq : compareOrder=compareLex (compareOn addrType)
    (compareLex (compareOn ipv4Value) (compareLex (compareOn ipv6Bytes) (compareOn portValue))) := by
  funext x y
  cases x with
  | ipv4 ip port =>
    cases y with
    | ipv4 ip' port' =>
      simp [compareOrder,compareSameType,compareLex,compareOn,addrType,ipv4Value,ipv6Bytes,portValue]
    | ipv6 ip' port' => rfl
  | ipv6 ip port =>
    cases y with
    | ipv4 ip' port' => rfl
    | ipv6 ip' port' =>
      simp [compareOrder,compareSameType,compareLex,compareOn,addrType,ipv4Value,ipv6Bytes,portValue]

instance : Std.TransCmp compareOrder := by
  rw [compareOrder_eq]
  infer_instance

theorem ntoh32_inj {x y : Octets 4} (h : ntoh32 x=ntoh32 y) : x=y := by
  obtain ⟨xs,hx⟩ := x
  obtain ⟨ys,hy⟩ := y
  match xs,hx,ys,hy with
  | [a,b,c,d],_,[e,f,g,i],_ =>
    simp only [ntoh32,List.foldl_cons,List.foldl_nil] at h
    have ha := a.toNat_lt
    have hb := b.toNat_lt
    have hc := c.toNat_lt
    have hd := d.toNat_lt
    have he := e.toNat_lt
    have hf := f.toNat_lt
    have hg := g.toNat_lt
    have hi := i.toNat_lt
    obtain rfl : a=e := UInt8.toNat_inj.mp (by omega)
    obtain rfl : b=f := UInt8.toNat_inj.mp (by omega)
    obtain rfl : c=g := UInt8.toNat_inj.mp (by omega)
    obtain rfl : d=i := UInt8.toNat_inj.mp (by omega)
    rfl

instance : Std.LawfulEqCmp compareOrder where
  eq_of_compare {x y} h := by
    rw [compareOrder_eq] at h
    simp only [compareLex,compareOn,Ordering.then_eq_eq,Std.LawfulEqOrd.compare_eq_iff_eq] at h
    obtain ⟨htype,hip4,hip6,hport⟩ := h
    cases x with
    | ipv4 ip port =>
      cases y with
      | ipv4 ip' port' => rw [ntoh32_inj hip4,ntoh16_inj.mp hport]
      | ipv6 ip' port' => cases htype
    | ipv6 ip port =>
      cases y with
      | ipv4 ip' port' => cases htype
      | ipv6 ip' port' =>
        obtain ⟨bytes,hlen⟩ := ip
        obtain ⟨bytes',hlen'⟩ := ip'
        obtain rfl : bytes=bytes' := hip6
        rw [ntoh16_inj.mp hport]

theorem transCmp_on (f : Conaddr → BAddr) : Std.TransCmp (fun x y => compareOrder (f x) (f y)) where
  eq_swap := Std.OrientedCmp.eq_swap
  isLE_trans hxy hyz := Std.TransCmp.isLE_trans hxy hyz

/-- Pairs are compared by the remote and then by the local address. -/
theorem conaddrComparator_eq : conaddrComparator=compareLex
    (fun x y => compareOrder x.remoteAddr y.remoteAddr)
    (fun x y => compareOrder x.localAddr y.localAddr) := rfl

instance : Std.TransCmp conaddrComparator := by
  rw [conaddrComparator_eq]
  have hremote := transCmp_on Conaddr.remoteAddr
  have hlocal := transCmp_on Conaddr.localAddr
  infer_instance

instance : Std.LawfulEqCmp conaddrComparator where
  eq_of_compare {x y} h := by
    rw [conaddrComparator,Ordering.then_eq_eq] at h
    obtain ⟨localAddr,remoteAddr⟩ := x
    obtain ⟨localAddr',remoteAddr'⟩ := y
    obtain rfl : remoteAddr=remoteAddr' := Std.LawfulEqCmp.eq_of_compare h.1
    obtain rfl : localAddr=localAddr' := Std.LawfulEqCmp.eq_of_compare h.2
    rfl

variable {r r' : Relay} {conaddr : Conaddr} {con : ℕ}

/-- The tree and the list hold the same connections, each with a pair of its own. -/
structure Table (r : Relay) : Prop where
  tree : Ordered conaddrComparator r.key r.connectionsTree
  same : (inorder r.connectionsTree).Perm r.connectionsList
  nodup : r.connectionsList.Nodup
  count : r.numConnections=r.connectionsList.length
  bound : r.numConnections≤ r.maxConnections
  positive : 0< r.maxConnections
  fresh : ∀ con∈r.connectionsList, con< r.allocated
  parts : ∀ con∈r.connectionsList, r.parts con=Part.initialized

/-- The order of a tree depends on the nodes in it only. -/
theorem ordered_congr {key key' : ℕ → Conaddr} {t : BAVLNode ℕ} (h : Ordered conaddrComparator key t)
    (hsame : ∀ x∈inorder t, key' x=key x) : Ordered conaddrComparator key' t := by
  refine ⟨h.balanced,h.sorted.imp_of_mem ?_⟩
  intro a b ha hb hab
  rw [hsame a ha,hsame b hb]
  exact hab

theorem Table.find_some (h : Table r) :
    r.findConnection conaddr=some con ↔ con∈r.connectionsList ∧ r.key con=conaddr := by
  rw [Relay.findConnection,lookupExact_eq_some h.tree.sorted,h.same.mem_iff]

theorem Table.find_none (h : Table r) :
    r.findConnection conaddr=none ↔ ∀ con∈r.connectionsList, r.key con≠conaddr := by
  rw [Option.eq_none_iff_forall_not_mem]
  constructor
  · intro hnone con hcon hkey
    exact hnone con (h.find_some.mpr ⟨hcon,hkey⟩)
  · intro hnone con hcon
    obtain ⟨hmem,hkey⟩ := h.find_some.mp hcon
    exact hnone con hmem hkey

/-- A connection with a new pair goes into the tree. -/
theorem insertTree_returns (h : Ordered conaddrComparator r.key r.connectionsTree)
    (hnew : ∀ x∈inorder r.connectionsTree, r.key x≠r.key con) :
    Returns (r.insertTree con) (fun r' => ∃ tree, r'={ r with connectionsTree := tree } ∧
      Ordered conaddrComparator r.key tree ∧ (inorder tree).Perm (con::inorder r.connectionsTree)) := by
  simp only [Relay.insertTree,returns_bind]
  refine (insert_inserted con h).mono ?_
  rintro ⟨tree,inserted⟩ ⟨hordered,hinserted⟩
  cases inserted with
  | false =>
    obtain ⟨-,y,hy,hkey⟩ := hinserted
    exact absurd hkey (hnew y hy)
  | true =>
    obtain ⟨-,a,b,hbefore,hafter⟩ := hinserted
    refine returns_demand.mpr ⟨rfl,tree,rfl,hordered,?_⟩
    rw [hbefore,hafter]
    exact List.perm_middle

/-- A connection of the tree is removed from it. -/
theorem removeTree_returns (h : Ordered conaddrComparator r.key r.connectionsTree)
    (hcon : con∈inorder r.connectionsTree) :
    Returns (r.removeTree con) (fun r' => ∃ tree, r'={ r with connectionsTree := tree } ∧
      Ordered conaddrComparator r.key tree ∧ (con::inorder tree).Perm (inorder r.connectionsTree)) := by
  simp only [Relay.removeTree,returns_bind]
  refine (remove_removed h ⟨con,hcon,rfl⟩).mono ?_
  rintro tree ⟨hordered,a,y,b,hkey,hbefore,hafter⟩
  have hy : con=y := by
    by_contra hne
    have hsorted := h.sorted
    rw [hbefore] at hsorted hcon
    have hrest : con∈a++b := by
      rcases List.mem_append.mp hcon with hmem|hmem
      · exact List.mem_append_left _ hmem
      · exact List.mem_append_right _ ((List.mem_cons.mp hmem).resolve_left hne)
    exact hsorted.ne_of_split hrest hkey.symm
  subst hy
  refine returns_pure.mpr ⟨tree,rfl,hordered,?_⟩
  rw [hbefore,hafter]
  exact List.perm_middle.symm

/-- The relay with another tree and list. -/
def relisted (r : Relay) (tree : BAVLNode ℕ) (list : List ℕ) : Relay :=
  { r with connectionsTree := tree, connectionsList := list }

/-- The relay with one more connection. -/
def created (r : Relay) (conaddr : Conaddr) (isDns : Bool) (tree : BAVLNode ℕ) : Relay :=
  { r with
    connections := Function.update r.connections r.allocated ⟨conaddr,isDns⟩
    parts := Function.update r.parts r.allocated Part.initialized
    allocated := r.allocated+1
    connectionsTree := tree
    connectionsList := r.connectionsList++[r.allocated]
    numConnections := r.numConnections+1 }

/-- All that can happen when a connection is looked for. -/
inductive Acquired (r : Relay) (conaddr : Conaddr) (isDns ok : Bool) : Relay×Option ℕ → Prop
  | found {con : ℕ} (mem : con∈r.connectionsList) (key : r.key con=conaddr) :
      Acquired r conaddr isDns ok (r.moveToEnd con,some con)
  | reused {con : ℕ} {rest : List ℕ} {tree : BAVLNode ℕ} (list : r.connectionsList=con::rest)
      (full : r.numConnections=r.maxConnections) (new : ∀ x∈r.connectionsList, r.key x≠conaddr)
      (ordered : Ordered conaddrComparator (r.setConaddr con conaddr).key tree)
      (same : (inorder tree).Perm (con::rest)) :
      Acquired r conaddr isDns ok (relisted (r.setConaddr con conaddr) tree (rest++[con]),some con)
  | created {tree : BAVLNode ℕ} (room : r.numConnections< r.maxConnections)
      (new : ∀ x∈r.connectionsList, r.key x≠conaddr) (allowed : ok=true)
      (ordered : Ordered conaddrComparator (created r conaddr isDns tree).key tree)
      (same : (inorder tree).Perm (r.allocated::r.connectionsList)) :
      Acquired r conaddr isDns ok (UdpRelayStates.created r conaddr isDns tree,some r.allocated)
  | refused (room : r.numConnections< r.maxConnections)
      (new : ∀ x∈r.connectionsList, r.key x≠conaddr) (denied : ok=false) :
      Acquired r conaddr isDns ok (r,none)

theorem key_setConaddr_of_ne {x : ℕ} (h : x≠con) : (r.setConaddr con conaddr).key x=r.key x := by
  simp [Relay.key,Relay.setConaddr,Function.update_of_ne h]

theorem key_created_of_ne {isDns : Bool} {tree : BAVLNode ℕ} {x : ℕ} (h : x≠r.allocated) :
    (created r conaddr isDns tree).key x=r.key x := by
  simp [Relay.key,created,Function.update_of_ne h]

theorem key_created_self {isDns : Bool} {tree : BAVLNode ℕ} :
    (created r conaddr isDns tree).key r.allocated=conaddr := by
  simp [Relay.key,created]

theorem key_setConaddr_self : (r.setConaddr con conaddr).key con=conaddr := by
  simp [Relay.key,Relay.setConaddr]

/-- `reuse_connection` of a full table. -/
theorem reuse_returns (h : Table r) (hfull : r.numConnections=r.maxConnections)
    (hnew : ∀ x∈r.connectionsList, r.key x≠conaddr) :
    Returns (r.reuseConnection conaddr) (fun result => ∃ con rest tree,
      r.connectionsList=con::rest ∧
      Ordered conaddrComparator (r.setConaddr con conaddr).key tree ∧
      (inorder tree).Perm (con::rest) ∧
      result=({ r.setConaddr con conaddr with connectionsTree := tree },con)) := by
  have hpos : 0< r.numConnections := by
    rw [hfull]
    exact h.positive
  simp only [Relay.reuseConnection,returns_bind,returns_demand]
  refine ⟨h.find_none.mpr hnew,hpos,?_⟩
  cases hlist : r.connectionsList with
  | nil =>
    rw [h.count,hlist] at hpos
    cases hpos
  | cons con rest =>
    have hcon : con∈inorder r.connectionsTree := by
      rw [h.same.mem_iff,hlist]
      exact List.mem_cons_self
    have hnodup := h.nodup
    rw [hlist] at hnodup
    simp only [returns_bind]
    refine (removeTree_returns h.tree hcon).mono ?_
    rintro r₁ ⟨tree₁,rfl,hordered₁,hperm₁⟩
    have hrest : (inorder tree₁).Perm rest := by
      have hperm := hperm₁.trans h.same
      rw [hlist] at hperm
      exact hperm.cons_inv
    have hne : ∀ x∈inorder tree₁, x≠con := by
      rintro x hx rfl
      exact (List.nodup_cons.mp hnodup).1 (hrest.mem_iff.mp hx)
    have hordered : Ordered conaddrComparator (r.setConaddr con conaddr).key tree₁ :=
      ordered_congr hordered₁ (fun x hx => key_setConaddr_of_ne (hne x hx))
    refine (insertTree_returns hordered ?_).mono ?_
    · intro x hx
      have hmem : x∈r.connectionsList := by
        rw [hlist]
        exact List.mem_cons_of_mem con (hrest.mem_iff.mp hx)
      have hkey : (r.setConaddr con conaddr).key x≠(r.setConaddr con conaddr).key con := by
        rw [key_setConaddr_of_ne (hne x hx),key_setConaddr_self]
        exact hnew x hmem
      exact hkey
    · rintro r₂ ⟨tree,rfl,htree,hperm⟩
      exact returns_pure.mpr ⟨con,rest,tree,rfl,htree,hperm.trans (hrest.cons con),rfl⟩

/-- `connection_init` in a table that is not full. -/
theorem init_returns (h : Table r) (isDns : Bool) (hnew : ∀ x∈r.connectionsList, r.key x≠conaddr) :
    Returns (r.connectionInit conaddr isDns) (fun result => ∃ tree,
      Ordered conaddrComparator (created r conaddr isDns tree).key tree ∧
      (inorder tree).Perm (r.allocated::r.connectionsList) ∧
      result=created r conaddr isDns tree) := by
  have hne : ∀ x∈inorder r.connectionsTree, x≠r.allocated := by
    rintro x hx rfl
    exact Nat.lt_irrefl _ (h.fresh _ (h.same.mem_iff.mp hx))
  have hkey : ∀ x∈inorder r.connectionsTree,
      ((Function.update r.connections r.allocated ⟨conaddr,isDns⟩) x).conaddr=r.key x := by
    intro x hx
    rw [Function.update_of_ne (hne x hx)]
    rfl
  simp only [Relay.connectionInit,returns_bind]
  refine Returns.mono (insertTree_returns ?_ ?_) ?_
  · exact ordered_congr h.tree hkey
  · intro x hx
    have hold := hnew x (h.same.mem_iff.mp hx)
    simp only [Relay.key,Function.update_of_ne (hne x hx),Function.update_self]
    exact hold
  · rintro r' ⟨tree,rfl,hordered,hperm⟩
    exact returns_pure.mpr ⟨tree,hordered,hperm.trans (h.same.cons _),rfl⟩

/-- Looking for a connection never fails, and leads to one of the four results. -/
theorem acquire_returns (h : Table r) (conaddr : Conaddr) (isDns ok : Bool) :
    Returns (r.acquire conaddr isDns ok) (Acquired r conaddr isDns ok) := by
  rw [Relay.acquire]
  cases hfind : r.findConnection conaddr with
  | some con =>
    obtain ⟨hmem,hkey⟩ := h.find_some.mp hfind
    exact returns_pure.mpr (.found hmem hkey)
  | none =>
    have hnew := h.find_none.mp hfind
    refine returns_ite.mpr ⟨fun hfull => ?_,fun hroom => returns_ite.mpr ⟨fun hok => ?_,fun hok => ?_⟩⟩
    · simp only [returns_bind]
      refine (reuse_returns h hfull hnew).mono ?_
      rintro result ⟨con,rest,tree,hlist,hordered,hsame,rfl⟩
      have hmoved : ({ r.setConaddr con conaddr with connectionsTree := tree } : Relay).moveToEnd con=
          relisted (r.setConaddr con conaddr) tree (rest++[con]) := by
        simp [Relay.moveToEnd,Relay.setConaddr,relisted,hlist]
      rw [returns_pure,hmoved]
      exact .reused hlist hfull hnew hordered hsame
    · simp only [returns_bind]
      refine (init_returns h isDns hnew).mono ?_
      rintro result ⟨tree,hordered,hsame,rfl⟩
      exact returns_pure.mpr (.created (by have := h.bound; omega) hnew hok hordered hsame)
    · exact returns_pure.mpr (.refused (by have := h.bound; omega) hnew (eq_false_of_ne_true hok))

/-- The pairs of addresses in the order of last use. -/
def flows (r : Relay) : List Conaddr := r.connectionsList.map r.key

theorem Table.key_inj (h : Table r) {x y : ℕ} (hx : x∈r.connectionsList) (hy : y∈r.connectionsList)
    (hkey : r.key x=r.key y) : x=y := by
  have hfirst := h.find_some.mpr ⟨hx,hkey⟩
  have hsecond := h.find_some.mpr ⟨hy,rfl⟩
  exact Option.some.inj (hfirst.symm.trans hsecond)

theorem Table.flows_nodup (h : Table r) : (flows r).Nodup :=
  List.Nodup.map_on (fun _ hx _ hy hkey => h.key_inj hx hy hkey) h.nodup

/-- Using a connection again is using its pair again. -/
theorem Table.flows_moveToEnd (h : Table r) (hcon : con∈r.connectionsList) :
    flows (r.moveToEnd con)=(flows r).erase (r.key con)++[r.key con] := by
  obtain ⟨front,back,hlist⟩ := List.append_of_mem hcon
  have hnodup := h.nodup
  rw [hlist] at hnodup
  have hfront : con∉front := fun hmem =>
    (List.nodup_append.mp hnodup).2.2 con hmem con List.mem_cons_self rfl
  have hkey : r.key con∉front.map r.key := by
    intro hmem
    obtain ⟨x,hx,hxkey⟩ := List.mem_map.mp hmem
    have hsame := h.key_inj (by rw [hlist]; exact List.mem_append_left _ hx) hcon hxkey
    exact hfront (hsame.symm ▸ hx)
  have hmoved : (r.moveToEnd con).connectionsList=front++back++[con] := by
    rw [Relay.moveToEnd,hlist,List.erase_append_right _ hfront,List.erase_cons_head]
  have hsame : (r.moveToEnd con).key=r.key := rfl
  simp only [flows,hmoved,hlist,hsame,List.map_append,List.map_cons,List.map_nil]
  rw [List.erase_append_right _ hkey,List.erase_cons_head]

/-- The list of pairs is the one of the least recently used strategy. -/
theorem Acquired.flows {isDns ok : Bool} {result : Relay×Option ℕ} (h : Table r)
    (ha : Acquired r conaddr isDns ok result) :
    flows result.1=use r.maxConnections ok conaddr (flows r) := by
  have hmem : conaddr∈UdpRelayStates.flows r ↔ ∃ x∈r.connectionsList, r.key x=conaddr := List.mem_map
  have hlen : (UdpRelayStates.flows r).length=r.numConnections := by
    rw [UdpRelayStates.flows,List.length_map,h.count]
  cases ha with
  | @found con mem key =>
    rw [use,if_pos (hmem.mpr ⟨con,mem,key⟩),←key]
    exact h.flows_moveToEnd mem
  | @reused con rest tree list full new ordered same =>
    have hnodup := h.nodup
    rw [list] at hnodup
    have hkeys : rest.map (r.setConaddr con conaddr).key=rest.map r.key := by
      refine List.map_congr_left (fun x hx => key_setConaddr_of_ne ?_)
      rintro rfl
      exact (List.nodup_cons.mp hnodup).1 hx
    rw [use,if_neg (fun hin => by obtain ⟨x,hx,hkey⟩ := hmem.mp hin; exact new x hx hkey),
      if_pos (hlen.trans full),UdpRelayStates.flows,UdpRelayStates.flows,list,List.map_cons,List.tail_cons,
      ←hkeys]
    have hlist : (relisted (r.setConaddr con conaddr) tree (rest++[con])).connectionsList=
        rest++[con] := rfl
    have hkey : (relisted (r.setConaddr con conaddr) tree (rest++[con])).key=
        (r.setConaddr con conaddr).key := rfl
    rw [hlist,hkey,List.map_append,List.map_singleton,key_setConaddr_self]
  | @created tree room new allowed ordered same =>
    have hkeys : r.connectionsList.map (UdpRelayStates.created r conaddr isDns tree).key=
        r.connectionsList.map r.key := by
      exact List.map_congr_left (fun x hx => key_created_of_ne (Nat.ne_of_lt (h.fresh x hx)))
    rw [use,if_neg (fun hin => by obtain ⟨x,hx,hkey⟩ := hmem.mp hin; exact new x hx hkey),
      if_neg (by rw [hlen]; omega),if_pos allowed,UdpRelayStates.flows,UdpRelayStates.flows,←hkeys]
    have hlist : (UdpRelayStates.created r conaddr isDns tree).connectionsList=
        r.connectionsList++[r.allocated] := rfl
    rw [hlist,List.map_append,List.map_singleton,key_created_self]
  | refused room new denied =>
    rw [use,if_neg (fun hin => by obtain ⟨x,hx,hkey⟩ := hmem.mp hin; exact new x hx hkey),
      if_neg (by rw [hlen]; omega),if_neg (by simp [denied])]

/-- Moving a connection to the end is a permutation. -/
theorem moved_perm (h : con∈r.connectionsList) :
    (r.connectionsList.erase con++[con]).Perm r.connectionsList :=
  (List.perm_append_singleton con _).trans (List.perm_cons_erase h).symm

/-- The table stays one. -/
theorem Acquired.table {isDns ok : Bool} {result : Relay×Option ℕ} (h : Table r)
    (ha : Acquired r conaddr isDns ok result) : Table result.1 := by
  cases ha with
  | @found con mem key =>
    have hperm := moved_perm mem
    exact { h with
      same := h.same.trans hperm.symm
      nodup := hperm.nodup_iff.mpr h.nodup
      count := h.count.trans hperm.length_eq.symm
      fresh := fun x hx => h.fresh x (hperm.mem_iff.mp hx)
      parts := fun x hx => h.parts x (hperm.mem_iff.mp hx) }
  | @reused con rest tree list full new ordered same =>
    have hperm : (rest++[con]).Perm r.connectionsList := by
      rw [list]
      exact List.perm_append_singleton con rest
    exact {
      tree := ordered
      same := same.trans (List.perm_append_singleton con rest).symm
      nodup := hperm.nodup_iff.mpr h.nodup
      count := h.count.trans hperm.length_eq.symm
      bound := h.bound
      positive := h.positive
      fresh := fun x hx => h.fresh x (hperm.mem_iff.mp hx)
      parts := fun x hx => h.parts x (hperm.mem_iff.mp hx) }
  | @created tree room new allowed ordered same =>
    have hperm : (r.connectionsList++[r.allocated]).Perm (r.allocated::r.connectionsList) :=
      List.perm_append_singleton r.allocated r.connectionsList
    have hnew : r.allocated∉r.connectionsList := fun hmem => Nat.lt_irrefl _ (h.fresh _ hmem)
    exact {
      tree := ordered
      same := same.trans hperm.symm
      nodup := hperm.nodup_iff.mpr (List.nodup_cons.mpr ⟨hnew,h.nodup⟩)
      count := by
        have hcount := h.count
        simp only [UdpRelayStates.created,List.length_append,List.length_singleton]
        omega
      bound := room
      positive := h.positive
      fresh := fun x hx => by
        rcases List.mem_cons.mp (hperm.mem_iff.mp hx) with rfl|hmem
        · exact Nat.lt_succ_self _
        · exact Nat.lt_succ_of_lt (h.fresh x hmem)
      parts := fun x hx => by
        rcases List.mem_cons.mp (hperm.mem_iff.mp hx) with rfl|hmem
        · exact Function.update_self ..
        · exact (Function.update_of_ne (Nat.ne_of_lt (h.fresh x hmem)) ..).trans (h.parts x hmem) }
  | refused room new denied => exact h

/-- The connection that is used has the pair of the packet. -/
theorem Acquired.owns {isDns ok : Bool} {r' : Relay} (ha : Acquired r conaddr isDns ok (r',some con)) :
    con∈r'.connectionsList ∧ r'.key con=conaddr := by
  cases ha with
  | found mem key => exact ⟨List.mem_append_right _ (List.mem_singleton.mpr rfl),key⟩
  | reused list full new ordered same =>
    exact ⟨List.mem_append_right _ (List.mem_singleton.mpr rfl),key_setConaddr_self⟩
  | created room new allowed ordered same =>
    exact ⟨List.mem_append_right _ (List.mem_singleton.mpr rfl),key_created_self⟩

theorem Acquired.limits {isDns ok : Bool} {result : Relay×Option ℕ}
    (ha : Acquired r conaddr isDns ok result) :
    result.1.maxConnections=r.maxConnections ∧ result.1.udpMtu=r.udpMtu ∧ result.1.sent=r.sent ∧
      result.1.udpgwMtu=r.udpgwMtu ∧ result.1.leaked=r.leaked := by
  cases ha with
  | found mem key => exact ⟨rfl,rfl,rfl,rfl,rfl⟩
  | reused list full new ordered same => exact ⟨rfl,rfl,rfl,rfl,rfl⟩
  | created room new allowed ordered same => exact ⟨rfl,rfl,rfl,rfl,rfl⟩
  | refused room new denied => exact ⟨rfl,rfl,rfl,rfl,rfl⟩

/-- The server of a connection is fixed when it is set up. -/
theorem Acquired.server {isDns ok : Bool} {result : Relay×Option ℕ} {x : ℕ}
    (ha : Acquired r conaddr isDns ok result) (hx : x< r.allocated) :
    x< result.1.allocated ∧ (result.1.connections x).isDns=(r.connections x).isDns := by
  cases ha with
  | found mem key => exact ⟨hx,rfl⟩
  | @reused con rest tree list full new ordered same =>
    refine ⟨hx,?_⟩
    by_cases hcon : x=con
    · subst hcon
      simp [relisted,Relay.setConaddr]
    · simp [relisted,Relay.setConaddr,Function.update_of_ne hcon]
  | created room new allowed ordered same =>
    exact ⟨Nat.lt_succ_of_lt hx,by simp [UdpRelayStates.created,Function.update_of_ne (Nat.ne_of_lt hx)]⟩
  | refused room new denied => exact ⟨hx,rfl⟩

/-- The pair of addresses of a submission. -/
def pairOf (s : Submission) : Conaddr := ⟨s.localAddr,s.remoteAddr⟩

/-- Whether the connection that a packet will be sent with is one to the DNS server. -/
def route (r : Relay) (s : Submission) (ok : Bool) : Option Bool :=
  match r.findConnection (pairOf s) with
  | some con => some (r.connections con).isDns
  | none =>
    if r.numConnections=r.maxConnections then
      r.connectionsList.head?.map (fun con => (r.connections con).isDns)
    else if ok=true then some s.isDns else none

/-- A reused connection stays one to the server it was set up for. -/
theorem Acquired.route {s : Submission} {ok : Bool} {result : Relay×Option ℕ} (h : Table r)
    (ha : Acquired r (pairOf s) s.isDns ok result) :
    route r s ok=result.2.map (fun con => (result.1.connections con).isDns) := by
  cases ha with
  | @found con mem key =>
    rw [UdpRelayStates.route,h.find_some.mpr ⟨mem,key⟩]
    rfl
  | @reused con rest tree list full new ordered same =>
    simp only [UdpRelayStates.route,h.find_none.mpr new,if_pos full,list]
    simp [relisted,Relay.setConaddr]
  | @created tree room new allowed ordered same =>
    simp only [UdpRelayStates.route,h.find_none.mpr new,if_neg (Nat.ne_of_lt room),if_pos allowed]
    simp [UdpRelayStates.created]
  | refused room new denied =>
    simp only [UdpRelayStates.route,h.find_none.mpr new,if_neg (Nat.ne_of_lt room),denied]
    rfl

/-- The parts of a connection are freed but for its first job. -/
theorem freeParts_returns (h : r.parts con=Part.initialized) :
    Returns (Part.freed.foldlM (fun r part => r.freePart con part) r) (fun r' => ∃ parts,
      r'={ r with parts := parts } ∧ parts con=[.firstJob] ∧ ∀ x, x≠con → parts x=r.parts x) := by
  simp only [Part.freed,List.foldlM_cons,List.foldlM_nil,Relay.freePart,returns_bind,returns_demand,
    returns_pure,Function.update_self,Function.update_idem,h]
  refine ⟨by decide,by decide,by decide,by decide,by decide,by decide,by decide,by decide,
    by decide,by decide,by decide,by decide,by decide,by decide,_,rfl,?_,fun x hx => ?_⟩
  · rw [Function.update_self]
    rfl
  · exact Function.update_of_ne hx ..

/-- `connection_free` of the first connection. -/
theorem connectionFree_returns {rest : List ℕ} (h : Table r) (hlist : r.connectionsList=con::rest) :
    Returns (r.connectionFree con) (fun r' => Table r' ∧ r'.connectionsList=rest ∧
      r'.leaked=r.leaked+1) := by
  have hnodup := h.nodup
  have hcount := h.count
  have hbound := h.bound
  rw [hlist] at hnodup hcount
  rw [List.length_cons] at hcount
  have hcon : con∈inorder r.connectionsTree := by
    rw [h.same.mem_iff,hlist]
    exact List.mem_cons_self
  have hparts : r.parts con=Part.initialized := h.parts con (by rw [hlist]; exact List.mem_cons_self)
  have herase : r.connectionsList.erase con=rest := by rw [hlist,List.erase_cons_head]
  rw [Relay.connectionFree,herase]
  simp only [returns_bind]
  refine Returns.mono (removeTree_returns ?_ ?_) ?_
  · exact h.tree
  · exact hcon
  · rintro r' ⟨tree,rfl,hordered,hperm⟩
    have hsame := hperm.trans h.same
    rw [hlist] at hsame
    refine Returns.mono (freeParts_returns hparts) ?_
    rintro r' ⟨parts,rfl,hleft,hothers⟩
    refine returns_pure.mpr ⟨?_,rfl,?_⟩
    · exact {
        tree := hordered
        same := hsame.cons_inv
        nodup := (List.nodup_cons.mp hnodup).2
        count := by
          simp only
          omega
        bound := by
          simp only
          omega
        positive := h.positive
        fresh := fun x hx => h.fresh x (by rw [hlist]; exact List.mem_cons_of_mem con hx)
        parts := fun x hx => by
          have hne : x≠con := by
            rintro rfl
            exact (List.nodup_cons.mp hnodup).1 hx
          exact (hothers x hne).trans (h.parts x (by rw [hlist]; exact List.mem_cons_of_mem con hx)) }
    · simp only [hleft]
      rfl

/-- The loop of `SocksUdpGwClient_Free` frees every connection, but not its first job. -/
theorem free_returns (n : ℕ) (h : Table r) (hn : r.connectionsList.length=n) :
    Returns (Relay.free n r) (fun r' => r'.connectionsList=[] ∧ inorder r'.connectionsTree=[] ∧
      r'.numConnections=0 ∧ r'.leaked=r.leaked+n) := by
  induction n generalizing r with
  | zero =>
    have hnil := List.length_eq_zero_iff.mp hn
    have hsame := h.same
    rw [hnil] at hsame
    exact returns_pure.mpr ⟨hnil,hsame.eq_nil,by rw [h.count,hn],rfl⟩
  | succ n ih =>
    rw [Relay.free]
    cases hlist : r.connectionsList with
    | nil =>
      rw [hlist] at hn
      cases hn
    | cons con rest =>
      simp only [returns_bind]
      refine (connectionFree_returns h hlist).mono ?_
      rintro r₁ ⟨htable,hrest,hleaked⟩
      rw [hlist,List.length_cons] at hn
      refine (ih htable (by rw [hrest]; omega)).mono ?_
      rintro r' ⟨hnil,htree,hnum,hmore⟩
      exact ⟨hnil,htree,hnum,by omega⟩

end ProxyDroid.UdpRelayStates
