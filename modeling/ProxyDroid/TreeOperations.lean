import ProxyDroid.BalancedTree

/-!
# Operations on the balanced tree

A tree that is sorted by the comparator and balanced stays so under every operation. Lookup finds
a value exactly when it is in the tree, insertion is refused exactly when an equal value is there,
and removal takes out one node. So any sequence of operations behaves as the same sequence on a
map, and the number of comparisons of a lookup is logarithmic in the number of nodes.
-/

namespace ProxyDroid.TreeOperations

open CallSemantics CheckedPrograms BalancedTree BalancedTree.BAVLNode

variable {β κ : Type} {cmp : κ → κ → Ordering} {key : β → κ}

/-- The values are in strict order. -/
def Sorted (cmp : κ → κ → Ordering) (key : β → κ) (xs : List β) : Prop :=
  xs.Pairwise (fun a b => cmp (key a) (key b)=.lt)

/-- A value belongs into the subtree that the path leads to. -/
def Between (cmp : κ → κ → Ordering) (key : β → κ) (k : κ) (path : List (Frame β)) : Prop :=
  (∀ x∈before path, cmp (key x) k=.lt) ∧ ∀ x∈after path, cmp k (key x)=.lt

/-- Going down leaves the tree as it is. -/
theorem descend_plug (k : κ) (t : BAVLNode β) (path : List (Frame β)) :
    plug (descend cmp key k t path).1 (descend cmp key k t path).2=plug t path := by
  fun_induction descend cmp key k t path with
  | case1 path => rfl
  | case2 b l v r path h => rfl
  | case3 b l v r path h ih => rw [ih]; rfl
  | case4 b l v r path h ih => rw [ih]; rfl

theorem descend_balanced {k : κ} {t : BAVLNode β} {path : List (Frame β)} (ht : Balanced t)
    (hpath : PathBalanced path (height t)) :
    Balanced (descend cmp key k t path).1 ∧
      PathBalanced (descend cmp key k t path).2 (height (descend cmp key k t path).1) := by
  fun_induction descend cmp key k t path with
  | case1 path => exact ⟨ht,hpath⟩
  | case2 b l v r path h => exact ⟨ht,hpath⟩
  | case3 b l v r path h ih =>
    obtain ⟨hl,hr,hb,hlow,hhigh⟩ := ht
    exact ih hl ⟨hr,hb,hlow,hhigh,hpath⟩
  | case4 b l v r path h ih =>
    obtain ⟨hl,hr,hb,hlow,hhigh⟩ := ht
    refine ih hr ⟨hl,?_,hlow,hhigh,?_⟩
    · exact hb.trans (neg_sub _ _).symm
    · rw [Nat.max_comm]
      exact hpath

/-- The loop ends at a node with the value or at an empty link. -/
theorem descend_found (k : κ) (t : BAVLNode β) (path : List (Frame β)) {b : ℤ} {l r : BAVLNode β}
    {v : β} (h : (descend cmp key k t path).1=node b l v r) : cmp k (key v)=.eq := by
  fun_induction descend cmp key k t path with
  | case1 path => cases h
  | case2 b l v r path heq => cases h; exact heq
  | case3 b l v r path heq ih => exact ih h
  | case4 b l v r path heq ih => exact ih h

theorem descend_between [Std.TransCmp cmp] {k : κ} {t : BAVLNode β} {path : List (Frame β)}
    (ht : Sorted cmp key (inorder t)) (hpath : Between cmp key k path) :
    Between cmp key k (descend cmp key k t path).2 := by
  fun_induction descend cmp key k t path with
  | case1 path => exact hpath
  | case2 b l v r path h => exact hpath
  | case3 b l v r path h ih =>
    obtain ⟨hl,hr,-⟩ := List.pairwise_append.mp ht
    refine ih hl ⟨?_,?_⟩
    · simpa [before] using hpath.1
    · intro x hx
      simp only [after,Bool.false_eq_true,if_false,List.cons_append,List.mem_cons,
        List.mem_append] at hx
      rcases hx with rfl|hx|hx
      · exact h
      · exact Std.TransCmp.lt_trans h ((List.pairwise_cons.mp hr).1 x hx)
      · exact hpath.2 x hx
  | case4 b l v r path h ih =>
    obtain ⟨hl,hr,hlr⟩ := List.pairwise_append.mp ht
    have hv : cmp (key v) k=.lt := Std.OrientedCmp.lt_of_gt h
    refine ih (List.pairwise_cons.mp hr).2 ⟨?_,?_⟩
    · intro x hx
      simp only [before,if_true,List.mem_append,List.mem_singleton] at hx
      rcases hx with hx|hx|rfl
      · exact hpath.1 x hx
      · exact Std.TransCmp.lt_trans (hlr x hx v (by simp)) hv
      · exact hv
    · simpa [after] using hpath.2


theorem before_append (p q : List (Frame β)) : before (p++q)=before q++before p := by
  induction p with
  | nil => simp [before]
  | cons f p ih => simp [before,ih]

theorem after_append (p q : List (Frame β)) : after (p++q)=after p++after q := by
  induction p with
  | nil => simp [after]
  | cons f p ih => simp [after,ih]

/-- The node that the loop ends at, in the order of the tree. -/
theorem inorder_descend (k : κ) (t : BAVLNode β) :
    inorder t=before (descend cmp key k t []).2++inorder (descend cmp key k t []).1++
      after (descend cmp key k t []).2 := by
  rw [←inorder_plug,descend_plug]
  rfl

/-- Lookup finds exactly the values of the tree. -/
theorem lookupExact_eq_some [Std.TransCmp cmp] [Std.LawfulEqCmp cmp] {k : κ} {t : BAVLNode β} {x : β}
    (ht : Sorted cmp key (inorder t)) :
    bavlLookupExact cmp key k t=some x ↔ x∈inorder t ∧ key x=k := by
  induction t with
  | null => simp [bavlLookupExact,inorder]
  | node b l v r ihl ihr =>
    obtain ⟨hl,hr,hlr⟩ := List.pairwise_append.mp ht
    obtain ⟨hvr,hr⟩ := List.pairwise_cons.mp hr
    have hv : cmp (key v) (key v)=.eq := Std.ReflCmp.compare_self
    have hleft : x∈inorder l → cmp (key x) (key v)=.lt := fun hx => hlr x hx v (by simp)
    have hright : x∈inorder r → cmp (key v) (key x)=.lt := hvr x
    simp only [inorder,List.mem_append,List.mem_cons]
    rw [bavlLookupExact]
    cases hk : cmp k (key v) with
    | eq =>
      obtain rfl : k=key v := Std.LawfulEqCmp.eq_of_compare hk
      constructor
      · rintro ⟨⟩
        exact ⟨.inr (.inl rfl),rfl⟩
      · rintro ⟨hx|rfl|hx,hkey⟩
        · exact absurd (hleft hx) (by rw [hkey,hv]; simp)
        · rfl
        · exact absurd (hright hx) (by rw [hkey,hv]; simp)
    | lt =>
      rw [ihl hl]
      constructor
      · rintro ⟨hx,hkey⟩
        exact ⟨.inl hx,hkey⟩
      · rintro ⟨hx|rfl|hx,hkey⟩
        · exact ⟨hx,hkey⟩
        · rw [←hkey,hv] at hk
          cases hk
        · have hgt : cmp k (key v)=.gt := by rw [←hkey]; exact Std.OrientedCmp.gt_of_lt (hright hx)
          rw [hk] at hgt
          cases hgt
    | gt =>
      rw [ihr hr]
      constructor
      · rintro ⟨hx,hkey⟩
        exact ⟨.inr (.inr hx),hkey⟩
      · rintro ⟨hx|rfl|hx,hkey⟩
        · have hlt : cmp k (key v)=.lt := by rw [←hkey]; exact hleft hx
          rw [hk] at hlt
          cases hlt
        · rw [←hkey,hv] at hk
          cases hk
        · exact ⟨hx,hkey⟩

/-- A tree that the operations keep. -/
structure Ordered (cmp : κ → κ → Ordering) (key : β → κ) (t : BAVLNode β) : Prop where
  balanced : Balanced t
  sorted : Sorted cmp key (inorder t)

theorem ordered_null : Ordered cmp key (null : BAVLNode β) := ⟨trivial,List.Pairwise.nil⟩

/-- What `BAVL_Insert` leads to. -/
def Inserted (key : β → κ) (x : β) (t : BAVLNode β) (result : BAVLNode β×Bool) : Prop :=
  if result.2=true then (∀ y∈inorder t, key y≠key x) ∧
    ∃ a b, inorder t=a++b ∧ inorder result.1=a++x::b
  else result.1=t ∧ ∃ y∈inorder t, key y=key x

/-- Where the loop that goes down ends. -/
structure Reached (cmp : κ → κ → Ordering) (key : β → κ) (k : κ) (t : BAVLNode β)
    (d : BAVLNode β×List (Frame β)) : Prop where
  balanced : Balanced d.1
  path : PathBalanced d.2 (height d.1)
  between : Between cmp key k d.2
  inorder : inorder t=before d.2++inorder d.1++after d.2
  found : ∀ b l v r, d.1=node b l v r → key v=k

theorem pathBalanced_nil (h : ℕ) : PathBalanced ([] : List (Frame β)) h := trivial

theorem descend_reached [Std.TransCmp cmp] [Std.LawfulEqCmp cmp] {t : BAVLNode β} (k : κ)
    (h : Ordered cmp key t) : Reached cmp key k t (descend cmp key k t []) where
  balanced := (descend_balanced h.balanced (pathBalanced_nil _)).1
  path := (descend_balanced h.balanced (pathBalanced_nil _)).2
  between := descend_between h.sorted ⟨by simp [before],by simp [after]⟩
  inorder := inorder_descend k t
  found := fun _ _ _ _ hd => (Std.LawfulEqCmp.eq_of_compare (descend_found k t [] hd)).symm

/-- A value put where it belongs keeps the order. -/
theorem Between.sorted [Std.TransCmp cmp] {k : κ} {path : List (Frame β)} {x : β}
    (h : Between cmp key k path) (hx : key x=k) (hs : Sorted cmp key (before path++after path)) :
    Sorted cmp key (before path++x::after path) := by
  obtain ⟨hbefore,hafter,hboth⟩ := List.pairwise_append.mp hs
  refine List.pairwise_append.mpr ⟨hbefore,List.pairwise_cons.mpr ⟨?_,hafter⟩,?_⟩
  · intro y hy
    rw [hx]
    exact h.2 y hy
  · intro y hy z hz
    rcases List.mem_cons.mp hz with rfl|hz
    · rw [hx]
      exact h.1 y hy
    · exact hboth y hy z hz

/-- Nothing outside has the value. -/
theorem Between.ne [Std.TransCmp cmp] {k : κ} {path : List (Frame β)} {y : β}
    (h : Between cmp key k path) (hy : y∈before path++after path) : key y≠k := by
  rintro rfl
  have hself : cmp (key y) (key y)=.eq := Std.ReflCmp.compare_self
  rcases List.mem_append.mp hy with hy|hy
  · rw [h.1 y hy] at hself
    cases hself
  · rw [h.2 y hy] at hself
    cases hself

/-- `BAVL_Insert`. -/
theorem insert_inserted [Std.TransCmp cmp] [Std.LawfulEqCmp cmp] {t : BAVLNode β} (x : β)
    (h : Ordered cmp key t) :
    Returns (bavlInsert cmp key x t) (fun result => Ordered cmp key result.1 ∧
      Inserted key x t result) := by
  have hreached := descend_reached (key x) h
  have hsorted := h.sorted
  rw [bavlInsert]
  cases hd : descend cmp key (key x) t [] with
  | mk sub path =>
    rw [hd] at hreached
    have hinorder := hreached.inorder
    cases sub with
    | null =>
      have hlist : inorder t=before path++after path := by simpa [inorder] using hinorder
      have hnew : Balanced (node 0 null x null) := ⟨trivial,trivial,rfl,by omega,by omega⟩
      simp only [returns_bind,returns_pure]
      refine (rebalance_balanced hnew hreached.path rfl (by omega)).mono ?_
      rintro t' ⟨hbalanced,hin⟩
      have hin' : inorder t'=before path++x::after path := by simpa [inorder] using hin
      rw [hlist] at hsorted
      refine ⟨⟨hbalanced,?_⟩,?_,before path,after path,hlist,hin'⟩
      · rw [hin']
        exact hreached.between.sorted rfl hsorted
      · intro y hy
        rw [hlist] at hy
        exact hreached.between.ne hy
    | node b l v r =>
      refine ⟨h,rfl,v,?_,hreached.found b l v r rfl⟩
      rw [hinorder]
      simp [inorder]

/-- `_BAVL_subtree_max` on the way to the end of the tree. -/
theorem subtreeMax_returns {t : BAVLNode β} (ht : t.isNull=false) (path : List (Frame β))
    (hbalanced : Balanced t) (hafter : after path=[]) :
    Returns (subtreeMax t path) (fun result => Balanced result.1 ∧
      (∀ q, PathBalanced (path++q) (height t) → PathBalanced (result.2.2++q) (height result.1+1)) ∧
      after result.2.2=[] ∧
      before result.2.2++inorder result.1++[result.2.1]=before path++inorder t) := by
  fun_induction subtreeMax t path with
  | case1 path => cases ht
  | case2 b l v path =>
    obtain ⟨hl,-⟩ := hbalanced
    refine ⟨hl,fun q hpath => ?_,hafter,by simp [inorder]⟩
    simpa [height] using hpath
  | case3 b l v b' l' v' r' path ih =>
    obtain ⟨hl,hr,hb,hlow,hhigh⟩ := hbalanced
    refine (ih rfl hr (by simpa [after] using hafter)).mono ?_
    rintro result ⟨hc,hup,hnone,hlist⟩
    refine ⟨hc,fun q hpath => hup q ⟨hl,hb.trans (neg_sub _ _).symm,hlow,hhigh,?_⟩,hnone,?_⟩
    · rw [Nat.max_comm]
      exact hpath
    · rw [hlist]
      simp [before,inorder]

/-- `BAVL_Remove` of the node at the end of a path. -/
theorem removeAt_balanced {b : ℤ} {l r : BAVLNode β} {v : β} {path : List (Frame β)}
    (hbalanced : Balanced (node b l v r)) (hpath : PathBalanced path (height (node b l v r))) :
    Returns (removeAt b l r path) (fun t' => Balanced t' ∧
      inorder t'=before path++inorder l++(inorder r++after path)) := by
  obtain ⟨hl,hr,hb,hlow,hhigh⟩ := hbalanced
  refine returns_ite.mpr ⟨fun hboth => ?_,fun hone => returns_ite.mpr ⟨fun hleft => ?_,fun hright => ?_⟩⟩
  · simp only [returns_bind]
    refine (subtreeMax_returns hboth.1 [] hl rfl).mono ?_
    rintro ⟨c,m,up⟩ ⟨hc,hup,hnone,hlist⟩
    have hwhole : PathBalanced (up++⟨false,b,m,r⟩::path) (height c+1) :=
      hup (⟨false,b,m,r⟩::path) ⟨hr,hb,hlow,hhigh,hpath⟩
    refine (rebalance_balanced hc hwhole (by simp) (by omega)).mono ?_
    rintro t' ⟨hbal,hin⟩
    refine ⟨hbal,?_⟩
    have hmax : before up++inorder c++[m]=inorder l := by simpa [before] using hlist
    have hup' : after up=[] := hnone
    rw [hin,before_append,after_append,hup',←hmax]
    simp [before,after]
  · have hnull : r=null := by
      cases r with
      | null => rfl
      | node => exact absurd ⟨hleft,rfl⟩ hone
    subst hnull
    refine (rebalance_balanced hl hpath (by simp [height]) (by omega)).mono ?_
    rintro t' ⟨hbal,hin⟩
    exact ⟨hbal,by simpa [inorder] using hin⟩
  · have hnull : l=null := by
      cases l with
      | null => rfl
      | node => exact absurd rfl hright
    subst hnull
    refine (rebalance_balanced hr hpath (by simp [height]) (by omega)).mono ?_
    rintro t' ⟨hbal,hin⟩
    exact ⟨hbal,by simpa [inorder] using hin⟩

/-- What `BAVL_Remove` leads to. -/
def Removed (key : β → κ) (k : κ) (t t' : BAVLNode β) : Prop :=
  ∃ a y b, key y=k ∧ inorder t=a++y::b ∧ inorder t'=a++b

/-- `BAVL_Remove` of a node of the tree. -/
theorem remove_removed [Std.TransCmp cmp] [Std.LawfulEqCmp cmp] {t : BAVLNode β} {k : κ}
    (h : Ordered cmp key t) (hk : ∃ y∈inorder t, key y=k) :
    Returns (bavlRemove cmp key k t) (fun t' => Ordered cmp key t' ∧ Removed key k t t') := by
  have hreached := descend_reached k h
  have hsorted := h.sorted
  rw [bavlRemove]
  cases hd : descend cmp key k t [] with
  | mk sub path =>
    rw [hd] at hreached
    have hinorder := hreached.inorder
    cases sub with
    | null =>
      obtain ⟨y,hy,hkey⟩ := hk
      have hlist : inorder t=before path++after path := by simpa [inorder] using hinorder
      rw [hlist] at hy
      exact absurd hkey (hreached.between.ne hy)
    | node b l v r =>
      have hlist : inorder t=(before path++inorder l)++v::(inorder r++after path) := by
        simpa [inorder] using hinorder
      refine (removeAt_balanced hreached.balanced hreached.path).mono ?_
      rintro t' ⟨hbal,hin⟩
      refine ⟨⟨hbal,?_⟩,_,v,_,hreached.found b l v r rfl,hlist,hin⟩
      rw [hlist] at hsorted
      rw [hin]
      exact hsorted.sublist (List.Sublist.append_left (List.sublist_cons_self _ _) _)

/-- A tree of some height has at least as many nodes as a Fibonacci number. -/
theorem fib_height_le {t : BAVLNode β} (h : Balanced t) :
    Nat.fib (height t+2)≤(inorder t).length+1 := by
  induction t with
  | null => simp [height,inorder]
  | node b l v r ihl ihr =>
    obtain ⟨hl,hr,hb,hlow,hhigh⟩ := h
    have hleft := ihl hl
    have hright := ihr hr
    simp only [height,inorder,List.length_append,List.length_cons]
    have hstep : Nat.fib (max (height l) (height r)+1+2)=
        Nat.fib (max (height l) (height r)+1)+Nat.fib (max (height l) (height r)+2) :=
      Nat.fib_add_two
    rcases Nat.le_total (height l) (height r) with hle|hle
    · rw [Nat.max_eq_right hle] at hstep ⊢
      have hmono : Nat.fib (height r+1)≤Nat.fib (height l+2) := Nat.fib_mono (by omega)
      omega
    · rw [Nat.max_eq_left hle] at hstep ⊢
      have hmono : Nat.fib (height l+1)≤Nat.fib (height r+2) := Nat.fib_mono (by omega)
      omega

/-- Two values of a sorted list do not have the same key. -/
theorem Sorted.ne_of_split [Std.TransCmp cmp] {a b : List β} {x y : β}
    (h : Sorted cmp key (a++x::b)) (hy : y∈a++b) : key y≠key x := by
  obtain ⟨-,hb,hab⟩ := List.pairwise_append.mp h
  intro hkey
  have hself : cmp (key x) (key x)=.eq := Std.ReflCmp.compare_self
  rcases List.mem_append.mp hy with hy|hy
  · have hlt := hab y hy x (by simp)
    rw [hkey,hself] at hlt
    cases hlt
  · have hlt := (List.pairwise_cons.mp hb).1 y hy
    rw [hkey,hself] at hlt
    cases hlt

/-- A key that no node has is not found. -/
theorem lookup_absent [Std.TransCmp cmp] [Std.LawfulEqCmp cmp] {t : BAVLNode β} {k : κ} (h : Ordered cmp key t)
    (hk : ∀ y∈inorder t, key y≠k) : bavlLookupExact cmp key k t=none := by
  rw [Option.eq_none_iff_forall_not_mem]
  intro y hy
  obtain ⟨hmem,hkey⟩ := (lookupExact_eq_some h.sorted).mp hy
  exact hk y hmem hkey

/-- How often a lookup calls the comparator. -/
def comparisons (cmp : κ → κ → Ordering) (key : β → κ) (k : κ) : BAVLNode β → ℕ
  | null => 0
  | node _ l v r =>
    match cmp k (key v) with
    | .eq => 1
    | .lt => comparisons cmp key k l+1
    | .gt => comparisons cmp key k r+1

theorem comparisons_le_height (k : κ) (t : BAVLNode β) : comparisons cmp key k t≤height t := by
  induction t with
  | null => exact Nat.le_refl 0
  | node b l v r ihl ihr =>
    rw [comparisons,height]
    split <;> omega

variable [Std.TransCmp cmp] [Std.LawfulEqCmp cmp] [DecidableEq κ]

/-- Lookup in a tree with one more node. -/
theorem lookup_more {t t' : BAVLNode β} {a b : List β} {x : β} (h : Ordered cmp key t)
    (h' : Ordered cmp key t') (hlist : inorder t=a++b) (hlist' : inorder t'=a++x::b) (k : κ) :
    bavlLookupExact cmp key k t'=if k=key x then some x else bavlLookupExact cmp key k t := by
  have hsorted := h'.sorted
  rw [hlist'] at hsorted
  apply Option.ext
  intro y
  rw [lookupExact_eq_some h'.sorted,hlist']
  by_cases hk : k=key x
  · rw [if_pos hk]
    constructor
    · rintro ⟨hy,hkey⟩
      by_contra hne
      have hyx : y∈a++b := by
        simp only [List.mem_append,List.mem_cons] at hy ⊢
        rcases hy with hy|rfl|hy
        · exact .inl hy
        · exact absurd rfl hne
        · exact .inr hy
      exact hsorted.ne_of_split hyx (hkey.trans hk)
    · intro hy
      cases hy
      exact ⟨by simp,hk.symm⟩
  · rw [if_neg hk,lookupExact_eq_some h.sorted,hlist]
    constructor
    · rintro ⟨hy,hkey⟩
      simp only [List.mem_append,List.mem_cons] at hy ⊢
      rcases hy with hy|rfl|hy
      · exact ⟨.inl hy,hkey⟩
      · exact absurd hkey.symm hk
      · exact ⟨.inr hy,hkey⟩
    · rintro ⟨hy,hkey⟩
      simp only [List.mem_append,List.mem_cons] at hy ⊢
      rcases hy with hy|hy
      · exact ⟨.inl hy,hkey⟩
      · exact ⟨.inr (.inr hy),hkey⟩

/-- An operation of a user. -/
inductive Op (β κ : Type) where
  /-- `BAVL_Insert` of a new node. -/
  | insert (x : β)
  /-- `BAVL_Remove` of the node with a value. -/
  | remove (k : κ)
  deriving DecidableEq

/-- One operation; only nodes of the tree are removed. -/
def step (cmp : κ → κ → Ordering) (key : β → κ) (op : Op β κ) (t : BAVLNode β) :
    Checked (BAVLNode β) :=
  match op with
  | .insert x => do
    let result ← bavlInsert cmp key x t
    return result.1
  | .remove k => do
    suppose ((bavlLookupExact cmp key k t).isSome=true)
    bavlRemove cmp key k t

/-- The same operation on a map. -/
def apply (key : β → κ) (m : κ → Option β) : Op β κ → κ → Option β
  | .insert x => if (m (key x)).isSome=true then m else Function.update m (key x) (some x)
  | .remove k => Function.update m k none

/-- A map that the tree represents. -/
structure Represents (cmp : κ → κ → Ordering) (key : β → κ) (m : κ → Option β) (t : BAVLNode β) :
    Prop where
  ordered : Ordered cmp key t
  lookup : ∀ k, bavlLookupExact cmp key k t=m k

/-- Every operation on the tree is the one on the map. -/
theorem step_represents {t : BAVLNode β} {m : κ → Option β} (h : Represents cmp key m t)
    (op : Op β κ) : Safe (step cmp key op t) (Represents cmp key (apply key m op)) := by
  cases op with
  | insert x =>
    simp only [step,safe_bind,safe_pure]
    refine (insert_inserted x h.ordered).safe.mono ?_
    rintro ⟨t',fresh⟩ ⟨h',hinserted⟩
    cases fresh with
    | true =>
      obtain ⟨hnew,a,b,hlist,hlist'⟩ := hinserted
      have hnone : m (key x)=none := (h.lookup _).symm.trans (lookup_absent h.ordered hnew)
      refine ⟨h',fun k => ?_⟩
      rw [lookup_more h.ordered h' hlist hlist',h.lookup]
      simp [apply,hnone,Function.update_apply]
    | false =>
      obtain ⟨rfl,y,hy,hkey⟩ := hinserted
      have hsome : m (key x)=some y :=
        (h.lookup _).symm.trans ((lookupExact_eq_some h.ordered.sorted).mpr ⟨hy,hkey⟩)
      refine ⟨h',fun k => ?_⟩
      rw [h.lookup]
      simp [apply,hsome]
  | remove k =>
    simp only [step,safe_bind,safe_suppose]
    intro hsome
    obtain ⟨y,hy⟩ := Option.isSome_iff_exists.mp hsome
    have hmem := (lookupExact_eq_some h.ordered.sorted).mp hy
    refine (remove_removed h.ordered ⟨y,hmem⟩).safe.mono ?_
    rintro t' ⟨h',a,z,b,rfl,hlist,hlist'⟩
    refine ⟨h',fun k' => ?_⟩
    have hmore := lookup_more h' h.ordered hlist' hlist k'
    have hsorted := h.ordered.sorted
    rw [hlist] at hsorted
    by_cases hk : k'=key z
    · have hgone : bavlLookupExact cmp key (key z) t'=none := by
        refine lookup_absent h' (fun y hy => ?_)
        rw [hlist'] at hy
        exact hsorted.ne_of_split hy
      rw [hk,hgone]
      simp [apply]
    · rw [if_neg hk] at hmore
      rw [←hmore,h.lookup]
      simp [apply,hk]

/-- Whatever nodes are inserted and removed in whatever order, lookup in the tree is lookup in
the map that the same operations make, and no assertion fails. The number of comparisons grows
with the logarithm of the number of nodes. -/
theorem tree_is_a_map {ops : List (Op β κ)} {t : BAVLNode β}
    (hrun : (checked (step cmp key)).Run null ops t) :
    (∀ k, bavlLookupExact cmp key k t=ops.foldl (apply key) (fun _ => none) k) ∧
      Balanced t ∧ Sorted cmp key (inorder t) ∧
      (∀ k, Nat.fib (comparisons cmp key k t+2)≤(inorder t).length+1) ∧
      ∀ op, step cmp key op t≠.error .fault := by
  have hempty : Represents cmp key (fun _ => none) (null : BAVLNode β) :=
    ⟨ordered_null,fun _ => rfl⟩
  have hmap : Represents cmp key (ops.foldl (apply key) (fun _ => none)) t :=
    System.RunUnder.simulates (R:=Represents cmp key)
      (fun m s op s' hm _ ht => (step_represents hm op).of_ok (turn_checked.mp ht)) hrun hempty
  refine ⟨hmap.lookup,hmap.ordered.balanced,hmap.ordered.sorted,fun k => ?_,fun op => ?_⟩
  · calc
      Nat.fib (comparisons cmp key k t+2)≤Nat.fib (height t+2) :=
        Nat.fib_mono (Nat.add_le_add_right (comparisons_le_height k t) 2)
      _≤(inorder t).length+1 := fib_height_le hmap.ordered.balanced
  · exact (step_represents hmap op).ne_fault

/-- Numbers inserted in order and one of them removed. -/
def sampleOps : List (Op ℕ ℕ) :=
  [Op.insert 1,.insert 2,.insert 3,.insert 4,.insert 5,.remove 2,.insert 3]

theorem tree_is_a_map_sample :
    bavlLookupExact compare id 3 (stepped (step compare id) sampleOps null)=some 3 ∧
      bavlLookupExact compare id 2 (stepped (step compare id) sampleOps null)=none := by
  have hrun : (checked (step compare id)).Run null sampleOps (stepped (step compare id) sampleOps null) :=
    run_stepped (by decide)
  have hmap := (tree_is_a_map hrun).1
  exact ⟨(hmap 3).trans (by decide),(hmap 2).trans (by decide)⟩

end ProxyDroid.TreeOperations
