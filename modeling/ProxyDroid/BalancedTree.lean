import ProxyDroid.CheckedPrograms
import Mathlib.Data.Nat.Fib.Basic
import Mathlib.Tactic.Linarith

/-!
# The balanced tree of the tunnel process

`BAVL` keeps nodes in the order of their values and stores in each of them how much higher its
right subtree is. Insertion and removal change one subtree by at most one level and walk up from
there. Here the links of a node are its subtrees, and the parent pointers above a node are the
path of nodes that lead down to it.
-/

namespace ProxyDroid.BalancedTree

open CheckedPrograms

variable {β κ : Type}

/-- A `BAVLNode` with its subtrees, or `NULL`. -/
inductive BAVLNode (β : Type) where
  | null
  | node (balance : ℤ) (left : BAVLNode β) (value : β) (right : BAVLNode β)
  deriving DecidableEq

namespace BAVLNode

/-- A `NULL` pointer. -/
def isNull : BAVLNode β → Bool
  | null => true
  | node _ _ _ _ => false

/-- `link[side]`. -/
def link (side : Bool) : BAVLNode β → BAVLNode β
  | null => null
  | node _ l _ r => if side=true then r else l

/-- An assignment to `link[side]`. -/
def setLink : BAVLNode β → Bool → BAVLNode β → BAVLNode β
  | null,_,_ => null
  | node b l v r,side,t => if side=true then node b l v t else node b t v r

/-- `balance`. -/
def balance : BAVLNode β → ℤ
  | null => 0
  | node b _ _ _ => b

/-- An assignment to `balance`. -/
def setBalance (b : ℤ) : BAVLNode β → BAVLNode β
  | null => null
  | node _ l v r => node b l v r

/-- The values in the order of the tree. -/
def inorder : BAVLNode β → List β
  | null => []
  | node _ l v r => inorder l++v::inorder r

/-- The number of levels. -/
def height : BAVLNode β → ℕ
  | null => 0
  | node _ l _ r => max (height l) (height r)+1

/-- What `_BAVL_assert_recurser` checks about the balance factors. -/
def Balanced : BAVLNode β → Prop
  | null => True
  | node b l _ r => Balanced l ∧ Balanced r ∧ b=(height r : ℤ)-height l ∧ -1≤b ∧ b≤1

/-- `_BAVL_rotate`: the child on the other side takes the place of the node. -/
def rotate (dir : Bool) (r : BAVLNode β) : Checked (BAVLNode β) := do
  demand ((r.link (!dir)).isNull=false)
  return (r.link (!dir)).setLink dir (r.setLink (!dir) ((r.link (!dir)).link dir))

end BAVLNode

open BAVLNode

/-- A node on the way down, without the subtree that is entered. -/
structure Frame (β : Type) where
  /-- Which link is followed. -/
  side : Bool
  /-- `balance` of the node. -/
  balance : ℤ
  /-- Its value. -/
  value : β
  /-- The subtree that is not entered. -/
  other : BAVLNode β
  deriving DecidableEq

/-- The node with a subtree put in. -/
def Frame.plug (f : Frame β) (t : BAVLNode β) : BAVLNode β :=
  if f.side=true then node f.balance f.other f.value t else node f.balance t f.value f.other

/-- The whole tree around a subtree; the nearest node comes first. -/
def plug (t : BAVLNode β) : List (Frame β) → BAVLNode β
  | [] => t
  | f::path => plug (f.plug t) path

/-- `BAVL_OPTNEG`. -/
def optneg (a : ℤ) (neg : Bool) : ℤ := if neg=true then -a else a

/-- The transformations of `_BAVL_rebalance` for a node whose heavier subtree is two levels
higher, with the change of height that is left. The assignments to the balance factors are made
before the rotations. -/
def transform (t : BAVLNode β) (bside : Bool) (bsidef delta : ℤ) : Checked (BAVLNode β×ℤ) := do
  demand ((t.link bside).isNull=false)
  if (t.link bside).balance*bsidef=1 then do
    let r ← rotate (!bside) ((t.setBalance 0).setLink bside ((t.link bside).setBalance 0))
    return (r,delta-1)
  else if (t.link bside).balance*bsidef=0 then do
    let r ← rotate (!bside)
      ((t.setBalance (1*bsidef)).setLink bside ((t.link bside).setBalance (-1*bsidef)))
    return (r,delta)
  else if (t.link bside).balance*bsidef=-1 then do
    let gchild := (t.link bside).link (!bside)
    demand (gchild.isNull=false)
    let c ← rotate bside (((t.link bside).setBalance (max 0 (-gchild.balance*bsidef)*bsidef)).setLink
      (!bside) (gchild.setBalance 0))
    let r ← rotate (!bside)
      ((t.setBalance (-max 0 (gchild.balance*bsidef)*bsidef)).setLink bside c)
    return (r,delta-1)
  else .error .fault

/-- A node is transformed if its balance factor is wrong. -/
def restore (t : BAVLNode β) (delta : ℤ) : Checked (BAVLNode β×ℤ) :=
  if t.balance=2 then transform t true 1 delta
  else if t.balance=-2 then transform t false (-1) delta
  else .ok (t,delta)

/-- `_BAVL_rebalance`: a subtree has been put in whose height has changed by `deltac`. -/
def rebalance : BAVLNode β → List (Frame β) → ℤ → Checked (BAVLNode β)
  | t,[],_ => .ok t
  | t,f::path,deltac => do
    demand (-1≤deltac ∧ deltac≤1)
    demand (-1≤f.balance ∧ f.balance≤1)
    if deltac=0 then return plug t (f::path)
    else do
      let delta := max deltac (optneg f.balance f.side)-max 0 (optneg f.balance f.side)
      demand (-1≤delta ∧ delta≤1)
      let result ← restore ((f.plug t).setBalance (f.balance-optneg deltac f.side)) delta
      demand (-1≤ result.2 ∧ result.2≤1)
      rebalance result.1 path result.2

section Operations

variable (cmp : κ → κ → Ordering) (key : β → κ)

/-- The loop that goes down to a value: the subtree whose root has it, or an empty link, and the
path to it. -/
def descend (k : κ) : BAVLNode β → List (Frame β) → BAVLNode β×List (Frame β)
  | null,path => (null,path)
  | node b l v r,path =>
    match cmp k (key v) with
    | .eq => (node b l v r,path)
    | .lt => descend k l (⟨false,b,v,r⟩::path)
    | .gt => descend k r (⟨true,b,v,l⟩::path)

/-- `BAVL_LookupExact`. -/
def bavlLookupExact (k : κ) : BAVLNode β → Option β
  | null => none
  | node _ l v r =>
    match cmp k (key v) with
    | .eq => some v
    | .lt => bavlLookupExact k l
    | .gt => bavlLookupExact k r

/-- `BAVL_Insert`, with its result. -/
def bavlInsert (x : β) (t : BAVLNode β) : Checked (BAVLNode β×Bool) :=
  match descend cmp key (key x) t [] with
  | (null,path) => do
    let t ← rebalance (node 0 null x null) path 1
    return (t,true)
  | (node _ _ _ _,_) => .ok (t,false)

/-- `_BAVL_subtree_max`: the left subtree, the value and the path of the greatest node. -/
def subtreeMax : BAVLNode β → List (Frame β) → Checked (BAVLNode β×β×List (Frame β))
  | null,_ => .error .fault
  | node _ l v null,path => .ok (l,v,path)
  | node b l v (node b' l' v' r'),path => subtreeMax (node b' l' v' r') (⟨true,b,v,l⟩::path)

/-- `BAVL_Remove` of the node with these links. A node with two subtrees changes its place with
the greatest node of the left one first. -/
def removeAt (b : ℤ) (l r : BAVLNode β) (path : List (Frame β)) : Checked (BAVLNode β) :=
  if l.isNull=false ∧ r.isNull=false then do
    let result ← subtreeMax l []
    rebalance result.1 (result.2.2++⟨false,b,result.2.1,r⟩::path) (-1)
  else if l.isNull=false then rebalance l path (-1)
  else rebalance r path (-1)

/-- `BAVL_Remove` of the node with a value. -/
def bavlRemove (k : κ) (t : BAVLNode β) : Checked (BAVLNode β) :=
  match descend cmp key k t [] with
  | (null,_) => .error .fault
  | (node b l _ r,path) => removeAt b l r path

end Operations

/-- The values before a subtree. -/
def before : List (Frame β) → List β
  | [] => []
  | f::path => before path++if f.side=true then inorder f.other++[f.value] else []

/-- The values behind a subtree. -/
def after : List (Frame β) → List β
  | [] => []
  | f::path => (if f.side=true then [] else f.value::inorder f.other)++after path

/-- The path is balanced around a subtree of this height. -/
def PathBalanced : List (Frame β) → ℕ → Prop
  | [],_ => True
  | f::path,h => Balanced f.other ∧
      f.balance=optneg ((height f.other : ℤ)-h) f.side ∧ -1≤f.balance ∧ f.balance≤1 ∧
      PathBalanced path (max h (height f.other)+1)

theorem Frame.inorder_plug (f : Frame β) (t : BAVLNode β) :
    inorder (f.plug t)=(if f.side=true then inorder f.other++[f.value] else [])++inorder t++
      (if f.side=true then [] else f.value::inorder f.other) := by
  rw [Frame.plug]
  cases f.side <;> simp [inorder]

theorem inorder_plug (t : BAVLNode β) (path : List (Frame β)) :
    inorder (plug t path)=before path++inorder t++after path := by
  induction path generalizing t with
  | nil => simp [plug,before,after]
  | cons f path ih =>
    rw [plug,ih,f.inorder_plug,before,after]
    simp

theorem Frame.height_plug (f : Frame β) (t : BAVLNode β) :
    height (f.plug t)=max (height t) (height f.other)+1 := by
  rw [Frame.plug]
  cases f.side with
  | true => simp [height,Nat.max_comm]
  | false => simp [height]

theorem Frame.balanced_plug {f : Frame β} {t : BAVLNode β} (ht : Balanced t) (hother : Balanced f.other)
    (hbalance : f.balance=optneg ((height f.other : ℤ)-height t) f.side)
    (hbounds : -1≤f.balance ∧ f.balance≤1) : Balanced (f.plug t) := by
  obtain ⟨side,b,v,other⟩ := f
  cases side with
  | true =>
    have hb : b=-((height other : ℤ)-height t) := hbalance
    exact ⟨hother,ht,hb.trans (neg_sub _ _),hbounds⟩
  | false => exact ⟨ht,hother,hbalance,hbounds⟩

/-- A subtree that has kept its height can be put back. -/
theorem balanced_plug {t : BAVLNode β} {path : List (Frame β)} (ht : Balanced t)
    (hpath : PathBalanced path (height t)) : Balanced (plug t path) := by
  induction path generalizing t with
  | nil => exact ht
  | cons f path ih =>
    obtain ⟨hother,hbalance,hlow,hhigh,hrest⟩ := hpath
    refine ih (Frame.balanced_plug ht hother hbalance ⟨hlow,hhigh⟩) ?_
    rw [f.height_plug]
    exact hrest

/-- What a transformation leads to. -/
structure Restored (t : BAVLNode β) (delta : ℤ) (result : BAVLNode β×ℤ) : Prop where
  balanced : Balanced result.1
  inorder : inorder result.1=inorder t
  /-- The change of height is accounted for. -/
  height : (height result.1 : ℤ)=height t+(result.2-delta)
  /-- At most one level is lost. -/
  delta : result.2=delta ∨ result.2=delta-1

/-- The right subtree is too high. -/
theorem transform_right {l r : BAVLNode β} {v : β} {delta : ℤ} (hl : Balanced l) (hr : Balanced r)
    (hheavy : (height r : ℤ)=height l+2) :
    Returns (transform (node 2 l v r) true 1 delta) (Restored (node 2 l v r) delta) := by
  cases r with
  | null => simp only [height] at hheavy; omega
  | node cb c w d =>
    obtain ⟨hc,hd,hcb,hlow,hhigh⟩ := hr
    simp only [height] at hheavy
    obtain rfl|rfl|rfl : cb=1 ∨ cb=0 ∨ cb=-1 := by omega
    · have heq : transform (node 2 l v (node 1 c w d)) true 1 delta=
          .ok (node 0 (node 0 l v c) w d,delta-1) := rfl
      rw [heq]
      refine ⟨⟨⟨hl,hc,?_⟩,hd,?_⟩,?_,?_,.inr rfl⟩
      · omega
      · simp only [height]; omega
      · simp [inorder]
      · simp only [height]; omega
    · have heq : transform (node 2 l v (node 0 c w d)) true 1 delta=
          .ok (node (-1) (node 1 l v c) w d,delta) := rfl
      rw [heq]
      refine ⟨⟨⟨hl,hc,?_⟩,hd,?_⟩,?_,?_,.inl rfl⟩
      · omega
      · simp only [height]; omega
      · simp [inorder]
      · simp only [height]; omega
    · cases c with
      | null => simp only [height] at hcb; omega
      | node gb g x g' =>
        obtain ⟨hg,hg',hgb,hglow,hghigh⟩ := hc
        simp only [height] at hcb hheavy
        have heq : transform (node 2 l v (node (-1) (node gb g x g') w d)) true 1 delta=
            .ok (node 0 (node (-max 0 (gb*1)*1) l v g) x (node (max 0 (-gb*1)*1) g' w d),delta-1) := rfl
        rw [heq]
        refine ⟨⟨⟨hl,hg,?_⟩,⟨hg',hd,?_⟩,?_⟩,?_,?_,.inr rfl⟩
        · omega
        · omega
        · simp only [height]; omega
        · simp [inorder]
        · simp only [height]; omega

/-- The left subtree is too high. -/
theorem transform_left {l r : BAVLNode β} {v : β} {delta : ℤ} (hl : Balanced l) (hr : Balanced r)
    (hheavy : (height l : ℤ)=height r+2) :
    Returns (transform (node (-2) l v r) false (-1) delta) (Restored (node (-2) l v r) delta) := by
  cases l with
  | null => simp only [height] at hheavy; omega
  | node cb d w c =>
    obtain ⟨hd,hc,hcb,hlow,hhigh⟩ := hl
    simp only [height] at hheavy
    obtain rfl|rfl|rfl : cb=-1 ∨ cb=0 ∨ cb=1 := by omega
    · have heq : transform (node (-2) (node (-1) d w c) v r) false (-1) delta=
          .ok (node 0 d w (node 0 c v r),delta-1) := rfl
      rw [heq]
      refine ⟨⟨hd,⟨hc,hr,?_⟩,?_⟩,?_,?_,.inr rfl⟩
      · omega
      · simp only [height]; omega
      · simp [inorder]
      · simp only [height]; omega
    · have heq : transform (node (-2) (node 0 d w c) v r) false (-1) delta=
          .ok (node 1 d w (node (-1) c v r),delta) := rfl
      rw [heq]
      refine ⟨⟨hd,⟨hc,hr,?_⟩,?_⟩,?_,?_,.inl rfl⟩
      · omega
      · simp only [height]; omega
      · simp [inorder]
      · simp only [height]; omega
    · cases c with
      | null => simp only [height] at hcb; omega
      | node gb g' x g =>
        obtain ⟨hg',hg,hgb,hglow,hghigh⟩ := hc
        simp only [height] at hcb hheavy
        have heq : transform (node (-2) (node 1 d w (node gb g' x g)) v r) false (-1) delta=
            .ok (node 0 (node (max 0 (-gb*(-1))*(-1)) d w g') x (node (-max 0 (gb*(-1))*(-1)) g v r),
              delta-1) := rfl
        rw [heq]
        refine ⟨⟨⟨hd,hg',?_⟩,⟨hg,hr,?_⟩,?_⟩,?_,?_,.inr rfl⟩
        · omega
        · omega
        · simp only [height]; omega
        · simp [inorder]
        · simp only [height]; omega

/-- A node whose subtrees are balanced is restored if one of them is at most two levels higher. -/
theorem restore_restored {l r : BAVLNode β} {v : β} {b delta : ℤ} (hl : Balanced l) (hr : Balanced r)
    (hb : b=(height r : ℤ)-height l) (hbounds : -2≤b ∧ b≤2) :
    Returns (restore (node b l v r) delta) (fun result => Restored (node b l v r) delta result ∧
      (-1≤b ∧ b≤1 → result.2=delta)) := by
  refine returns_ite.mpr ⟨fun hright => ?_,fun hright => returns_ite.mpr ⟨fun hleft => ?_,fun hleft => ?_⟩⟩
  · obtain rfl : b=2 := hright
    exact (transform_right hl hr (by omega)).mono (fun _ h => ⟨h,by omega⟩)
  · obtain rfl : b=-2 := hleft
    exact (transform_left hl hr (by omega)).mono (fun _ h => ⟨h,by omega⟩)
  · have hr' : b≠2 := hright
    have hl' : b≠-2 := hleft
    exact ⟨⟨⟨hl,hr,hb,by omega,by omega⟩,rfl,by simp,.inl rfl⟩,fun _ => rfl⟩

/-- How much the height of a node changes with the height of a subtree. -/
def heightChange (deltac balance : ℤ) (side : Bool) : ℤ :=
  max deltac (optneg balance side)-max 0 (optneg balance side)

/-- One level of `_BAVL_rebalance`. -/
theorem restore_plug {f : Frame β} {t : BAVLNode β} {h : ℕ} {deltac : ℤ} (ht : Balanced t)
    (hother : Balanced f.other) (hbalance : f.balance=optneg ((height f.other : ℤ)-h) f.side)
    (hbounds : -1≤f.balance ∧ f.balance≤1) (hheight : (height t : ℤ)=h+deltac)
    (hdelta : deltac=1 ∨ deltac=-1) :
    Returns (restore ((f.plug t).setBalance (f.balance-optneg deltac f.side))
      (heightChange deltac f.balance f.side)) (fun result => Balanced result.1 ∧
        inorder result.1=inorder (f.plug t) ∧
        (height result.1 : ℤ)=(max h (height f.other)+1 : ℕ)+result.2 ∧ -1≤ result.2 ∧ result.2≤1) := by
  obtain ⟨side,b,v,other⟩ := f
  have ho : Balanced other := hother
  cases side with
  | true =>
    have hb : b=-((height other : ℤ)-h) := hbalance
    have hlow : -1≤b ∧ b≤1 := hbounds
    have hnode : ((Frame.mk true b v other).plug t).setBalance (b-optneg deltac true)=
        node (b- -deltac) other v t := rfl
    dsimp only
    rw [hnode]
    refine (restore_restored ho ht (by omega) (by omega)).mono ?_
    rintro ⟨t',delta'⟩ ⟨hrestored,hkept⟩
    have hd := hrestored.delta
    have hh := hrestored.height
    simp only [height,heightChange,optneg,if_true] at hd hh hkept ⊢
    refine ⟨hrestored.balanced,hrestored.inorder,?_⟩
    omega
  | false =>
    have hb : b=(height other : ℤ)-h := hbalance
    have hlow : -1≤b ∧ b≤1 := hbounds
    have hnode : ((Frame.mk false b v other).plug t).setBalance (b-optneg deltac false)=
        node (b-deltac) t v other := rfl
    dsimp only
    rw [hnode]
    refine (restore_restored ht ho (by omega) (by omega)).mono ?_
    rintro ⟨t',delta'⟩ ⟨hrestored,hkept⟩
    have hd := hrestored.delta
    have hh := hrestored.height
    simp only [height,heightChange,optneg,Bool.false_eq_true,if_false] at hd hh hkept ⊢
    refine ⟨hrestored.balanced,hrestored.inorder,?_⟩
    omega

theorem heightChange_bounds {deltac balance : ℤ} {side : Bool} (hdelta : -1≤deltac ∧ deltac≤1) :
    -1≤heightChange deltac balance side ∧ heightChange deltac balance side≤1 := by
  rw [heightChange]
  omega

/-- `_BAVL_rebalance` puts a subtree back whose height has changed by one at most. -/
theorem rebalance_balanced {path : List (Frame β)} {t : BAVLNode β} {h : ℕ} {deltac : ℤ}
    (ht : Balanced t) (hpath : PathBalanced path h) (hheight : (height t : ℤ)=h+deltac)
    (hdelta : -1≤deltac ∧ deltac≤1) :
    Returns (rebalance t path deltac) (fun t' => Balanced t' ∧
      inorder t'=before path++inorder t++after path) := by
  induction path generalizing t h deltac with
  | nil =>
    refine ⟨ht,?_⟩
    simp [before,after]
  | cons f path ih =>
    obtain ⟨hother,hbalance,hlow,hhigh,hrest⟩ := hpath
    simp only [rebalance,returns_bind,returns_demand]
    refine ⟨hdelta,⟨hlow,hhigh⟩,returns_ite.mpr ⟨fun hzero => ?_,fun hchanged => ?_⟩⟩
    · refine ⟨balanced_plug ht ?_,inorder_plug t (f::path)⟩
      have hsame : height t=h := by omega
      rw [hsame]
      exact ⟨hother,hbalance,hlow,hhigh,hrest⟩
    · simp only [returns_bind,returns_demand]
      refine ⟨heightChange_bounds hdelta,?_⟩
      refine (restore_plug ht hother hbalance ⟨hlow,hhigh⟩ hheight (by omega)).mono ?_
      rintro ⟨t',delta'⟩ ⟨hbalanced,hinorder,hnew,hbounds⟩
      refine ⟨hbounds,(ih hbalanced hrest hnew hbounds).mono ?_⟩
      rintro t₂ ⟨hb₂,hin₂⟩
      refine ⟨hb₂,?_⟩
      rw [hin₂,hinorder,f.inorder_plug,before,after]
      simp

end ProxyDroid.BalancedTree
