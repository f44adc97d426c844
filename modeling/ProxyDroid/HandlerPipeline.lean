import Mathlib.Data.List.Nodup
import Mathlib.Tactic.Common

/-!
# Ordered pipelines of handlers

A pipeline is a list of contexts, each holding a handler under an identity
that is never reused and, optionally, under an explicit label. The structure
carries the uniqueness of its identities. A context that leaves the pipeline
keeps the neighbours it had, so that it can still pass messages on. Most
results are stated on the handlers alone: `Located` names one position by
the handlers before it and after it.
-/

namespace ProxyDroid.HandlerPipeline

/-- A handler in a pipeline. -/
structure Ctx (L H : Type) where
  /-- Identity of the context. -/
  id : ℕ
  /-- Explicit name, when the handler was added under one. -/
  label : Option L
  /-- The handler with its current fields. -/
  handler : H

/-- The neighbours a context had when it left the pipeline. -/
structure Detached where
  /-- Identity of the context that left. -/
  id : ℕ
  /-- Context before it, `none` for the head. -/
  prev : Option ℕ
  /-- Context after it, `none` for the tail. -/
  next : Option ℕ

/-- Handler contexts from head to tail. -/
structure Pipeline (L H : Type) where
  /-- Contexts in the order inbound events meet them. -/
  contexts : List (Ctx L H)
  /-- Identity of the next context. -/
  nextId : ℕ
  /-- Contexts that have left, the latest first. -/
  detached : List Detached
  /-- Every identity in use was given out before. -/
  fresh : ∀ c∈contexts, c.id<nextId
  /-- No identity occurs twice. -/
  nodup : (contexts.map Ctx.id).Nodup

variable {L H : Type}

namespace Pipeline

/-- The pipeline without handlers. -/
def empty : Pipeline L H := ⟨[],0,[],by simp,by simp⟩

/-- The handlers from head to tail. -/
def handlers (p : Pipeline L H) : List H := p.contexts.map Ctx.handler

/-- A list of fresh contexts around a new one has distinct identities. -/
theorem nodup_insert {cs ds : List (Ctx L H)} {n : ℕ} {c : Ctx L H} (hc : c.id=n)
    (hfresh : ∀ c∈cs++ds, c.id<n) (hn : ((cs++ds).map Ctx.id).Nodup) :
    ((cs++c::ds).map Ctx.id).Nodup := by
  have hout : n∉(cs++ds).map Ctx.id := by
    intro h
    obtain ⟨d,hd,he⟩ := List.mem_map.mp h
    have hlt := hfresh d hd
    omega
  simp only [List.map_append,List.map_cons,hc] at hn hout ⊢
  exact List.nodup_middle.mpr (List.nodup_cons.mpr ⟨hout,hn⟩)

/-- Add a handler so that `k` contexts stand before it. -/
def insertAt (p : Pipeline L H) (k : ℕ) (label : Option L) (h : H) : Pipeline L H where
  contexts := p.contexts.take k++⟨p.nextId,label,h⟩::p.contexts.drop k
  nextId := p.nextId+1
  detached := p.detached
  fresh := by
    intro c hc
    simp only [List.mem_append,List.mem_cons] at hc
    rcases hc with hc|rfl|hc
    · exact Nat.lt_succ_of_lt (p.fresh c (List.mem_of_mem_take hc))
    · exact Nat.lt_succ_self _
    · exact Nat.lt_succ_of_lt (p.fresh c (List.mem_of_mem_drop hc))
  nodup := by
    refine nodup_insert rfl ?_ ?_
    · simpa only [List.take_append_drop] using p.fresh
    · simpa only [List.take_append_drop] using p.nodup

/-- `addLast` of a handler without an explicit name. -/
def addLast (p : Pipeline L H) (h : H) : Pipeline L H := p.insertAt p.contexts.length none h

/-- Number of contexts before the one with this identity. -/
def indexOf (p : Pipeline L H) (id : ℕ) : ℕ := p.contexts.findIdx (fun c => c.id==id)

/-- Whether a context with this identity is in the pipeline. -/
def has (p : Pipeline L H) (id : ℕ) : Bool := p.contexts.any (fun c => c.id==id)

/-- The handler under an identity. -/
def find (p : Pipeline L H) (id : ℕ) : Option H :=
  (p.contexts.find? (fun c => c.id==id)).map Ctx.handler

/-- Contexts that a message passed on by `id` meets, nearest first. -/
def following (p : Pipeline L H) (id : ℕ) : List (Ctx L H) :=
  if p.has id then p.contexts.drop (p.indexOf id+1)
  else match p.detached.find? (fun d => d.id==id) with
    | some ⟨_,_,some next⟩ => p.contexts.drop (p.indexOf next)
    | _ => []

/-- Contexts that a write issued by `id` meets, nearest first. -/
def preceding (p : Pipeline L H) (id : ℕ) : List (Ctx L H) :=
  if p.has id then (p.contexts.take (p.indexOf id)).reverse
  else match p.detached.find? (fun d => d.id==id) with
    | some ⟨_,some prev,_⟩ => (p.contexts.take (p.indexOf prev+1)).reverse
    | _ => []

/-- The neighbours recorded for a context that leaves. -/
def leave (p : Pipeline L H) (id : ℕ) : Detached :=
  ⟨id,(p.preceding id).head?.map Ctx.id,(p.following id).head?.map Ctx.id⟩

/-- Pointers to a context that leaves are led past it. -/
def Detached.redirect (gone : Detached) (d : Detached) : Detached :=
  ⟨d.id,if d.prev=some gone.id then gone.prev else d.prev,
    if d.next=some gone.id then gone.next else d.next⟩

/-- Remove the context with this identity. -/
def remove (p : Pipeline L H) (id : ℕ) : Pipeline L H where
  contexts := p.contexts.filter (fun c => c.id != id)
  nextId := p.nextId
  detached := p.leave id::p.detached.map (Detached.redirect (p.leave id))
  fresh := fun c hc => p.fresh c (List.mem_of_mem_filter hc)
  nodup := p.nodup.sublist ((List.filter_sublist).map _)

/-- Update the fields of the handler under an identity. -/
def assign (p : Pipeline L H) (id : ℕ) (h : H) : Pipeline L H where
  contexts := p.contexts.map (fun c => if c.id==id then ⟨c.id,c.label,h⟩ else c)
  nextId := p.nextId
  detached := p.detached
  fresh := by
    intro c hc
    obtain ⟨d,hd,rfl⟩ := List.mem_map.mp hc
    have hlt := p.fresh d hd
    split <;> exact hlt
  nodup := by
    have he : (p.contexts.map (fun c => if c.id==id then (⟨c.id,c.label,h⟩ : Ctx L H) else c)).map
        Ctx.id=p.contexts.map Ctx.id := by
      rw [List.map_map]
      refine List.map_congr_left fun c _ => ?_
      dsimp only [Function.comp]
      split <;> rfl
    rw [he]
    exact p.nodup

/-- Exchange the context with this identity for a new labelled one, which
also becomes both neighbours of the old context. -/
def replace (p : Pipeline L H) (id : ℕ) (label : Option L) (h : H) : Pipeline L H :=
  let q := (p.insertAt (p.indexOf id) label h).remove id
  ⟨q.contexts,q.nextId,⟨id,some p.nextId,some p.nextId⟩::q.detached,q.fresh,q.nodup⟩

/-- Whether some context carries this label. -/
def hasLabel [DecidableEq L] (p : Pipeline L H) (label : L) : Bool :=
  p.contexts.any (fun c => c.label==some label)

/-- Number of contexts before the one with this label. -/
def indexOfLabel [DecidableEq L] (p : Pipeline L H) (label : L) : ℕ :=
  p.contexts.findIdx (fun c => c.label==some label)

/-- The identity given to the nearest context whose handler satisfies `q`. -/
def nearest (q : H → Bool) (cs : List (Ctx L H)) : Option ℕ :=
  (cs.find? (fun c => q c.handler)).map Ctx.id

/-- First handler from the head that satisfies `q`. -/
def firstWhere (p : Pipeline L H) (q : H → Bool) : Option ℕ := nearest q p.contexts

/-- First handler after a context that satisfies `q`. -/
def nextWhere (p : Pipeline L H) (id : ℕ) (q : H → Bool) : Option ℕ := nearest q (p.following id)

/-- Nearest handler, looking from the tail, that satisfies `q`. -/
def lastWhere (p : Pipeline L H) (q : H → Bool) : Option ℕ := nearest q p.contexts.reverse

/-- Nearest handler before a context that satisfies `q`. -/
def prevWhere (p : Pipeline L H) (id : ℕ) (q : H → Bool) : Option ℕ := nearest q (p.preceding id)

/-- The context `id` holds handler `h`, with the handlers `pre` before it
and `post` after it. -/
def Located (p : Pipeline L H) (id : ℕ) (pre : List H) (h : H) (post : List H) : Prop :=
  ∃ cs c ds, p.contexts=cs++c::ds ∧ c.id=id ∧ cs.map Ctx.handler=pre ∧ c.handler=h ∧
    ds.map Ctx.handler=post

section Contexts

variable {p : Pipeline L H} {cs ds : List (Ctx L H)} {c : Ctx L H}

/-- Contexts before a position have other identities. -/
theorem ne_of_mem_before (hp : p.contexts=cs++c::ds) : ∀ d∈cs, ¬d.id=c.id := by
  intro d hd he
  have hn := p.nodup
  rw [hp,List.map_append,List.map_cons] at hn
  exact (List.nodup_append.mp hn).2.2 _ (List.mem_map_of_mem hd) _ List.mem_cons_self he

/-- Contexts after a position have other identities. -/
theorem ne_of_mem_after (hp : p.contexts=cs++c::ds) : ∀ d∈ds, ¬d.id=c.id := by
  intro d hd he
  have hn := p.nodup
  rw [hp,List.map_append,List.map_cons] at hn
  have hc := (List.nodup_cons.mp (List.nodup_append.mp hn).2.1).1
  exact hc (he ▸ List.mem_map_of_mem hd)

/-- The index of a context counts the contexts before it. -/
theorem indexOf_eq (hp : p.contexts=cs++c::ds) : p.indexOf c.id=cs.length := by
  rw [indexOf,hp,List.findIdx_append]
  have hnone : cs.findIdx (fun d => d.id==c.id)=cs.length :=
    List.findIdx_eq_length.mpr (fun d hd => by simpa using ne_of_mem_before hp d hd)
  simp [hnone,List.findIdx_cons]

/-- A context of the pipeline is present. -/
theorem has_eq (hp : p.contexts=cs++c::ds) : p.has c.id=true := by
  simp [has,hp]

/-- The handler found under a context's identity is its own. -/
theorem find_eq (hp : p.contexts=cs++c::ds) : p.find c.id=some c.handler := by
  have hnone : cs.find? (fun d => d.id==c.id)=none :=
    List.find?_eq_none.mpr (fun d hd => by simpa using ne_of_mem_before hp d hd)
  simp [find,hp,List.find?_append,hnone]

/-- Messages passed on by a context meet the contexts after it. -/
theorem following_eq (hp : p.contexts=cs++c::ds) : p.following c.id=ds := by
  rw [following,if_pos (has_eq hp),indexOf_eq hp,hp]
  simp

/-- Writes issued by a context meet the contexts before it, nearest first. -/
theorem preceding_eq (hp : p.contexts=cs++c::ds) : p.preceding c.id=cs.reverse := by
  rw [preceding,if_pos (has_eq hp),indexOf_eq hp,hp]
  simp

/-- Removing a context leaves its neighbours in order. -/
theorem remove_contexts (hp : p.contexts=cs++c::ds) : (p.remove c.id).contexts=cs++ds := by
  have hb := List.filter_eq_self.mpr (fun d hd => by simpa using ne_of_mem_before hp d hd :
    ∀ d∈cs, (fun d : Ctx L H => d.id != c.id) d=true)
  have ha := List.filter_eq_self.mpr (fun d hd => by simpa using ne_of_mem_after hp d hd :
    ∀ d∈ds, (fun d : Ctx L H => d.id != c.id) d=true)
  simp only [remove,hp,List.filter_append,List.filter_cons,hb,ha,bne_self_eq_false,
    Bool.false_eq_true,if_false]

/-- Updating a handler's fields changes its own context only. -/
theorem assign_contexts (hp : p.contexts=cs++c::ds) (h : H) :
    (p.assign c.id h).contexts=cs++⟨c.id,c.label,h⟩::ds := by
  have keep : ∀ l : List (Ctx L H), (∀ d∈l, ¬d.id=c.id) →
      l.map (fun d => if d.id==c.id then (⟨d.id,d.label,h⟩ : Ctx L H) else d)=l := by
    intro l hl
    have he := List.map_congr_left (g:=id) (fun d hd => if_neg (by simpa using hl d hd) :
      ∀ d∈l, (if d.id==c.id then (⟨d.id,d.label,h⟩ : Ctx L H) else d)=d)
    rw [he,List.map_id]
  simp only [assign,hp,List.map_append,List.map_cons,keep cs (ne_of_mem_before hp),
    keep ds (ne_of_mem_after hp),beq_self_eq_true,if_true]

end Contexts

section Positions

variable {p : Pipeline L H} {q : H → Bool} {id : ℕ} {pre post : List H} {h : H}

/-- A position splits the handlers. -/
theorem Located.handlers (hl : p.Located id pre h post) : p.handlers=pre++h::post := by
  obtain ⟨cs,c,ds,hp,rfl,rfl,rfl,rfl⟩ := hl
  rw [Pipeline.handlers,hp,List.map_append,List.map_cons]

/-- The handler at a position is present. -/
theorem Located.has (hl : p.Located id pre h post) : p.has id=true := by
  obtain ⟨cs,c,ds,hp,rfl,rfl,rfl,rfl⟩ := hl
  exact has_eq hp

/-- The handler at a position is found. -/
theorem Located.find (hl : p.Located id pre h post) : p.find id=some h := by
  obtain ⟨cs,c,ds,hp,rfl,rfl,rfl,rfl⟩ := hl
  exact find_eq hp

/-- Searching contexts for a handler splits their handlers at it. -/
theorem nearest_eq {l : List (Ctx L H)} (hl : l.map Ctx.handler=pre++h::post)
    (hpre : ∀ x∈pre, q x=false) (hq : q h=true) :
    ∃ cs c ds, l=cs++c::ds ∧ nearest q l=some c.id ∧ cs.map Ctx.handler=pre ∧
      c.handler=h ∧ ds.map Ctx.handler=post := by
  obtain ⟨cs,rest,rfl,rfl,hrest⟩ := List.map_eq_append_iff.mp hl
  obtain ⟨c,ds,rfl,rfl,rfl⟩ := List.map_eq_cons_iff.mp hrest
  have hnone : cs.find? (fun c => q c.handler)=none :=
    List.find?_eq_none.mpr (fun d hd => by simp [hpre _ (List.mem_map_of_mem hd)])
  refine ⟨cs,c,ds,rfl,?_,rfl,rfl,rfl⟩
  simp [nearest,List.find?_append,hnone,hq]

/-- A search without a match finds nothing. -/
theorem nearest_none {l : List (Ctx L H)} (hl : ∀ x∈l.map Ctx.handler, q x=false) :
    nearest q l=none := by
  have hnone : l.find? (fun c => q c.handler)=none :=
    List.find?_eq_none.mpr (fun d hd => by simp [hl _ (List.mem_map_of_mem hd)])
  rw [nearest,hnone,Option.map_none]

/-- An event from the head reaches the first handler that takes it. -/
theorem firstWhere_eq (hh : p.handlers=pre++h::post) (hpre : ∀ x∈pre, q x=false)
    (hq : q h=true) : ∃ id, p.firstWhere q=some id ∧ p.Located id pre h post := by
  obtain ⟨cs,c,ds,hp,hn,hcs,hc,hds⟩ := nearest_eq hh hpre hq
  exact ⟨c.id,hn,cs,c,ds,hp,rfl,hcs,hc,hds⟩

/-- An event that no handler takes reaches the tail. -/
theorem firstWhere_none (hh : ∀ x∈p.handlers, q x=false) : p.firstWhere q=none :=
  nearest_none hh

/-- A handler that is found is in the pipeline. -/
theorem mem_of_find (hf : p.find id=some h) : h∈p.handlers := by
  obtain ⟨c,hc,rfl⟩ := Option.map_eq_some_iff.mp hf
  exact List.mem_map_of_mem (List.mem_of_find?_eq_some hc)

/-- An event that no handler takes reaches the tail from everywhere, also from a context that has
left. -/
theorem nextWhere_none (hh : ∀ x∈p.handlers, q x=false) (id : ℕ) : p.nextWhere id q=none := by
  refine nearest_none (fun x hx => hh x ?_)
  obtain ⟨c,hc,rfl⟩ := List.mem_map.mp hx
  refine List.mem_map_of_mem ?_
  unfold following at hc
  split at hc
  · exact List.mem_of_mem_drop hc
  · split at hc
    · exact List.mem_of_mem_drop hc
    · cases hc

/-- An event passed on reaches the next handler that takes it. -/
theorem Located.nextWhere_eq {mid post' : List H} {h' : H}
    (hl : p.Located id pre h (mid++h'::post')) (hmid : ∀ x∈mid, q x=false) (hq : q h'=true) :
    ∃ id', p.nextWhere id q=some id' ∧ p.Located id' (pre++h::mid) h' post' := by
  obtain ⟨cs,c,ds,hp,rfl,rfl,rfl,hds⟩ := hl
  obtain ⟨es,e,fs,rfl,hn,rfl,rfl,rfl⟩ := nearest_eq hds hmid hq
  refine ⟨e.id,?_,cs++c::es,e,fs,?_,rfl,?_,rfl,rfl⟩
  · rw [nextWhere,following_eq hp,hn]
  · rw [hp,List.append_assoc,List.cons_append]
  · rw [List.map_append,List.map_cons]

/-- An event passed on that no later handler takes reaches the tail. -/
theorem Located.nextWhere_none (hl : p.Located id pre h post) (hpost : ∀ x∈post, q x=false) :
    p.nextWhere id q=none := by
  obtain ⟨cs,c,ds,hp,rfl,rfl,rfl,rfl⟩ := hl
  rw [nextWhere,following_eq hp,nearest_none hpost]

/-- A write from the tail reaches the last handler that takes it. -/
theorem lastWhere_eq (hh : p.handlers=pre++h::post) (hpost : ∀ x∈post, q x=false)
    (hq : q h=true) : ∃ id, p.lastWhere q=some id ∧ p.Located id pre h post := by
  have hrev : p.contexts.reverse.map Ctx.handler=post.reverse++h::pre.reverse := by
    rw [List.map_reverse]
    change p.handlers.reverse=_
    rw [hh]
    simp
  obtain ⟨cs,c,ds,hp,hn,hcs,hc,hds⟩ :=
    nearest_eq hrev (fun x hx => hpost x (List.mem_reverse.mp hx)) hq
  refine ⟨c.id,hn,ds.reverse,c,cs.reverse,?_,rfl,?_,hc,?_⟩
  · rw [←List.reverse_inj,hp]
    simp
  · rw [List.map_reverse,hds,List.reverse_reverse]
  · rw [List.map_reverse,hcs,List.reverse_reverse]

/-- A write that no handler takes reaches the head. -/
theorem lastWhere_none (hh : ∀ x∈p.handlers, q x=false) : p.lastWhere q=none := by
  refine nearest_none (fun x hx => hh x ?_)
  rw [List.map_reverse] at hx
  exact List.mem_reverse.mp hx

/-- A write from a position reaches the nearest handler before it that
takes it. -/
theorem Located.prevWhere_eq {pre' mid : List H} {h' : H}
    (hl : p.Located id (pre'++h'::mid) h post) (hmid : ∀ x∈mid, q x=false) (hq : q h'=true) :
    ∃ id', p.prevWhere id q=some id' ∧ p.Located id' pre' h' (mid++h::post) := by
  obtain ⟨cs,c,ds,hp,rfl,hcs,rfl,rfl⟩ := hl
  have hrev : cs.reverse.map Ctx.handler=mid.reverse++h'::pre'.reverse := by
    rw [List.map_reverse,hcs]
    simp
  obtain ⟨es,e,fs,hes,hn,hmid',he,hpre'⟩ :=
    nearest_eq hrev (fun x hx => hmid x (List.mem_reverse.mp hx)) hq
  have hcs' : cs=fs.reverse++e::es.reverse := by
    rw [←List.reverse_inj,hes]
    simp
  refine ⟨e.id,?_,fs.reverse,e,es.reverse++c::ds,?_,rfl,?_,he,?_⟩
  · rw [prevWhere,preceding_eq hp,hn]
  · rw [hp,hcs',List.append_assoc,List.cons_append]
  · rw [List.map_reverse,hpre',List.reverse_reverse]
  · rw [List.map_append,List.map_reverse,hmid',List.reverse_reverse,List.map_cons]

/-- A write from a position that no earlier handler takes reaches the head. -/
theorem Located.prevWhere_none (hl : p.Located id pre h post) (hpre : ∀ x∈pre, q x=false) :
    p.prevWhere id q=none := by
  obtain ⟨cs,c,ds,hp,rfl,rfl,rfl,rfl⟩ := hl
  rw [prevWhere,preceding_eq hp]
  refine nearest_none (fun x hx => hpre x ?_)
  rw [List.map_reverse] at hx
  exact List.mem_reverse.mp hx

/-- A handler added at the end follows all others. -/
@[simp] theorem handlers_insertAt_length (p : Pipeline L H) (label : Option L) (h : H) :
    (p.insertAt p.contexts.length label h).handlers=p.handlers++[h] := by
  simp [handlers,insertAt]

/-- Adding at the end keeps every position. -/
theorem Located.insertAt_length (hl : p.Located id pre h post) (label : Option L) (h' : H) :
    (p.insertAt p.contexts.length label h').Located id pre h (post++[h']) := by
  obtain ⟨cs,c,ds,hp,rfl,rfl,rfl,rfl⟩ := hl
  refine ⟨cs,c,ds++[⟨p.nextId,label,h'⟩],?_,rfl,rfl,rfl,by simp⟩
  dsimp only [insertAt]
  rw [List.take_length,List.drop_length,hp,List.append_assoc,List.cons_append]

/-- Updating a handler's fields keeps its position. -/
theorem Located.assign (hl : p.Located id pre h post) (h' : H) :
    (p.assign id h').Located id pre h' post := by
  obtain ⟨cs,c,ds,hp,rfl,rfl,rfl,rfl⟩ := hl
  exact ⟨cs,⟨c.id,c.label,h'⟩,ds,assign_contexts hp h',rfl,rfl,rfl,rfl⟩

/-- Removing a handler joins what was around it. -/
theorem Located.handlers_remove (hl : p.Located id pre h post) :
    (p.remove id).handlers=pre++post := by
  obtain ⟨cs,c,ds,hp,rfl,rfl,rfl,rfl⟩ := hl
  rw [Pipeline.handlers,remove_contexts hp,List.map_append]

/-- Removing a later handler keeps a position. -/
theorem Located.remove_later {id' : ℕ} {post' : List H} {h' : H} (mid : List H)
    (hl : p.Located id pre h (mid++h'::post')) (hl' : p.Located id' (pre++h::mid) h' post') :
    (p.remove id').Located id pre h (mid++post') := by
  obtain ⟨cs,c,ds,hp,rfl,rfl,rfl,hds⟩ := hl
  obtain ⟨es,rest,rfl,rfl,hrest⟩ := List.map_eq_append_iff.mp hds
  obtain ⟨d,fs,rfl,rfl,rfl⟩ := List.map_eq_cons_iff.mp hrest
  obtain ⟨cs',d',fs',hp',rfl,hcs',-,-⟩ := hl'
  have hsplit : p.contexts=(cs++c::es)++d::fs := by simpa using hp
  have hlength : (cs++c::es).length=cs'.length := by
    have hmap := congrArg List.length hcs'
    simpa using hmap.symm
  have heq := (List.append_inj (hsplit.symm.trans hp') hlength).2
  obtain rfl : d=d' := (List.cons.inj heq).1
  refine ⟨cs,c,es++fs,?_,rfl,rfl,rfl,by simp⟩
  rw [remove_contexts hsplit]
  simp

/-- A removed context still passes events to the handlers that followed it. -/
theorem Located.nextWhere_remove {post' : List H} {h' : H}
    (hl : p.Located id pre h (h'::post')) (hq : q h'=true) :
    ∃ id', (p.remove id).nextWhere id q=some id' ∧
      (p.remove id).Located id' pre h' post' := by
  obtain ⟨cs,c,ds,hp,rfl,rfl,rfl,hds⟩ := hl
  obtain ⟨d,es,rfl,rfl,rfl⟩ := List.map_eq_cons_iff.mp hds
  have hr := remove_contexts hp
  refine ⟨d.id,?_,cs,d,es,hr,rfl,rfl,rfl,rfl⟩
  have hgone : (p.remove c.id).has c.id=false := by
    rw [Pipeline.has,hr]
    simp only [List.any_eq_false,List.mem_append]
    rintro x (hx|hx)
    · simpa using ne_of_mem_before hp x hx
    · simpa using ne_of_mem_after hp x hx
  have hleave : p.leave c.id=⟨c.id,(p.preceding c.id).head?.map Ctx.id,some d.id⟩ := by
    rw [leave,following_eq hp]
    rfl
  have hfollow : (p.remove c.id).following c.id=d::es := by
    rw [following,if_neg (by simp [hgone])]
    have hdet : (p.remove c.id).detached.find? (fun x => x.id==c.id)=some (p.leave c.id) := by
      simp [remove,leave]
    rw [hdet,hleave]
    dsimp only
    rw [indexOf_eq hr,hr]
    simp
  simp [nextWhere,hfollow,nearest,hq]

/-- The context `id` has left the pipeline, with the context `prev` before
it. -/
def Left (p : Pipeline L H) (id prev : ℕ) : Prop :=
  p.has id=false ∧ id<p.nextId ∧
    ∃ next, p.detached.find? (fun d => d.id==id)=some ⟨id,some prev,next⟩

/-- A removed context is no longer present. -/
theorem has_remove (p : Pipeline L H) (id : ℕ) : (p.remove id).has id=false := by
  simp [has,remove]

/-- A context that leaves remembers its neighbour. -/
theorem Located.left_remove {id' : ℕ} {h' : H} (hl' : p.Located id' pre h' (h::post))
    (hl : p.Located id (pre++[h']) h post) : (p.remove id).Left id id' := by
  obtain ⟨cs,c,ds,hp,rfl,hcs,rfl,rfl⟩ := hl
  obtain ⟨es,rest,rfl,rfl,hrest⟩ := List.map_eq_append_iff.mp hcs
  obtain ⟨e,fs,rfl,rfl,hfs⟩ := List.map_eq_cons_iff.mp hrest
  obtain rfl : fs=[] := List.map_eq_nil_iff.mp hfs
  obtain ⟨es',e',ds',hp',rfl,hes',-,-⟩ := hl'
  have hsplit : p.contexts=es++e::c::ds := by simpa using hp
  have hlength : es.length=es'.length := by simpa using (congrArg List.length hes').symm
  have heq := (List.append_inj (hsplit.symm.trans hp') hlength).2
  obtain rfl : e=e' := (List.cons.inj heq).1
  have hprev : (p.preceding c.id).head?.map Ctx.id=some e.id := by
    rw [preceding_eq hp]
    simp
  refine ⟨has_remove p c.id,?_,(p.following c.id).head?.map Ctx.id,?_⟩
  · exact p.fresh c (by rw [hp]; simp)
  · simp [remove,leave,hprev]

/-- Adding a handler keeps who has left. -/
theorem Left.insertAt {prev : ℕ} (hl : p.Left id prev) (k : ℕ) (label : Option L) (h' : H) :
    (p.insertAt k label h').Left id prev := by
  obtain ⟨hhas,hlt,next,hfind⟩ := hl
  refine ⟨?_,Nat.lt_succ_of_lt hlt,next,hfind⟩
  have hnone : ∀ c∈p.contexts, ¬c.id=id := by simpa [has] using hhas
  simp only [has,Pipeline.insertAt,List.any_eq_false,List.mem_append,List.mem_cons]
  rintro c (hc|rfl|hc)
  · simpa using hnone c (List.mem_of_mem_take hc)
  · simpa using (Nat.ne_of_lt hlt).symm
  · simpa using hnone c (List.mem_of_mem_drop hc)

/-- Removing another handler keeps who has left. -/
theorem Left.remove {id' prev : ℕ} (hl : p.Left id prev) (hid : id'≠id) (hprev : id'≠prev) :
    (p.remove id').Left id prev := by
  obtain ⟨hhas,hlt,next,hfind⟩ := hl
  refine ⟨?_,hlt,if next=some id' then (p.leave id').next else next,?_⟩
  · have hnone : ∀ c∈p.contexts, ¬c.id=id := by simpa [has] using hhas
    simp only [has,Pipeline.remove,List.any_eq_false]
    intro c hc
    simpa using hnone c (List.mem_of_mem_filter hc)
  · have hmap : (p.detached.map (Detached.redirect (p.leave id'))).find? (fun d => d.id==id)=
        (p.detached.find? (fun d => d.id==id)).map (Detached.redirect (p.leave id')) := by
      rw [List.find?_map]
      rfl
    have hne : ((p.leave id').id==id)=false := by simpa [leave] using hid
    simp only [Pipeline.remove,List.find?_cons]
    rw [hne,hmap,hfind]
    simp [Detached.redirect,leave,Ne.symm hprev]

/-- A write from a context that has left meets the handlers before it. -/
theorem Left.prevWhere_eq {prev : ℕ} {pre' : List H} {h' : H} (mid : List H) (hl : p.Left id prev)
    (hprev : p.Located prev pre h post) (hsplit : pre++[h]=pre'++h'::mid)
    (hmid : ∀ x∈mid, q x=false) (hq : q h'=true) :
    ∃ id', p.prevWhere id q=some id' ∧ p.Located id' pre' h' (mid++post) := by
  obtain ⟨hhas,-,next,hfind⟩ := hl
  obtain ⟨cs,c,ds,hp,rfl,rfl,rfl,rfl⟩ := hprev
  have hpreceding : p.preceding id=(cs++[c]).reverse := by
    rw [preceding,if_neg (by simp [hhas]),hfind]
    dsimp only
    rw [indexOf_eq hp,hp]
    have htake : (cs++c::ds).take (cs.length+1)=cs++[c] := by
      have hjoin : cs++c::ds=(cs++[c])++ds := by simp
      rw [hjoin]
      exact List.take_left' (by simp)
    rw [htake]
  have hrev : (cs++[c]).reverse.map Ctx.handler=mid.reverse++h'::pre'.reverse := by
    rw [List.map_reverse,List.map_append,List.map_singleton,hsplit]
    simp
  obtain ⟨es,e,fs,hes,hn,hes',he,hfs⟩ :=
    nearest_eq hrev (fun x hx => hmid x (List.mem_reverse.mp hx)) hq
  have hcs : cs++[c]=fs.reverse++e::es.reverse := by
    rw [←List.reverse_inj,hes]
    simp
  refine ⟨e.id,?_,fs.reverse,e,es.reverse++ds,?_,rfl,?_,he,?_⟩
  · rw [prevWhere,hpreceding,hn]
  · rw [hp]
    have hjoin : cs++c::ds=(cs++[c])++ds := by simp
    rw [hjoin,hcs]
    simp
  · rw [List.map_reverse,hfs,List.reverse_reverse]
  · rw [List.map_append,List.map_reverse,hes',List.reverse_reverse]

end Positions

section Evolution

variable {κ : Type}

/-- A later state of a pipeline: contexts keep the kind of their handler, and
those that are not guests stay, in their order. -/
structure Evolves (kind : H → κ) (guest : κ → Prop) (p q : Pipeline L H) : Prop where
  /-- Identities are given out in order. -/
  nextId : p.nextId≤q.nextId
  /-- A context that was there before had a handler of the same kind. -/
  kinds : ∀ c∈q.contexts, c.id<p.nextId →
    ∃ d∈p.contexts, d.id=c.id ∧ kind d.handler=kind c.handler
  /-- Contexts other than guests stay in order. -/
  order : ∀ ids : List ℕ, ids.Sublist (p.contexts.map Ctx.id) →
    (∀ c∈p.contexts, c.id∈ids → ¬guest (kind c.handler)) → ids.Sublist (q.contexts.map Ctx.id)

/-- A context of kind `a` comes after the context `id`. -/
def Ahead (kind : H → κ) (a : κ) (p : Pipeline L H) (id : ℕ) : Prop :=
  ∃ c∈p.contexts, kind c.handler=a ∧ [id,c.id].Sublist (p.contexts.map Ctx.id)

variable {kind : H → κ} {guest : κ → Prop} {p q r : Pipeline L H} {id : ℕ} {a : κ}

theorem Evolves.refl (p : Pipeline L H) : Evolves kind guest p p :=
  ⟨Nat.le_refl _,fun c hc _ => ⟨c,hc,rfl,rfl⟩,fun _ h _ => h⟩

/-- The context that an identity names is unique. -/
theorem eq_of_id {c d : Ctx L H} (hc : c∈p.contexts) (hd : d∈p.contexts) (h : c.id=d.id) : c=d :=
  List.inj_on_of_nodup_map p.nodup hc hd h

/-- The handler under the identity of a context is the context's own. -/
theorem find_of_mem {c : Ctx L H} (hc : c∈p.contexts) : p.find c.id=some c.handler := by
  obtain ⟨cs,ds,hsplit⟩ := List.append_of_mem hc
  exact find_eq hsplit

/-- A search among the contexts of a pipeline finds a handler it looks for. -/
theorem nearest_find {f : H → Bool} {l : List (Ctx L H)} {h : H} (hl : ∀ c∈l, c∈p.contexts)
    (hn : nearest f l=some id) (hf : p.find id=some h) : f h=true := by
  obtain ⟨c,hc,rfl⟩ := Option.map_eq_some_iff.mp hn
  have hmem := hl c (List.mem_of_find?_eq_some hc)
  rw [find_of_mem hmem] at hf
  cases hf
  have htaken := List.find?_some hc
  exact htaken

/-- What an event from the head reaches takes it. -/
theorem firstWhere_find {f : H → Bool} {h : H} (hn : p.firstWhere f=some id)
    (hf : p.find id=some h) : f h=true := nearest_find (fun _ hc => hc) hn hf

/-- What an event passed on reaches takes it. -/
theorem nextWhere_find {f : H → Bool} {i : ℕ} {h : H} (hn : p.nextWhere i f=some id)
    (hf : p.find id=some h) : f h=true := by
  refine nearest_find (l:=p.following i) (fun c hc => ?_) hn hf
  unfold following at hc
  split at hc
  · exact List.mem_of_mem_drop hc
  · split at hc
    · exact List.mem_of_mem_drop hc
    · cases hc

theorem Evolves.trans (h : Evolves kind guest p q) (k : Evolves kind guest q r) :
    Evolves kind guest p r where
  nextId := Nat.le_trans h.nextId k.nextId
  kinds := by
    intro c hc hlt
    obtain ⟨d,hd,hid,hkind⟩ := k.kinds c hc (Nat.lt_of_lt_of_le hlt h.nextId)
    obtain ⟨e,he,hid',hkind'⟩ := h.kinds d hd (hid ▸ hlt)
    exact ⟨e,he,hid'.trans hid,hkind'.trans hkind⟩
  order := by
    intro ids hids hstay
    refine k.order ids (h.order ids hids hstay) (fun c hc hm => ?_)
    obtain ⟨d,hd,hid⟩ := List.mem_map.mp (hids.subset hm)
    have hlt : c.id<p.nextId := hid ▸ p.fresh d hd
    obtain ⟨e,he,hid',hkind⟩ := h.kinds c (hc) hlt
    rw [←hkind]
    exact hstay e he (hid' ▸ hm)

/-- Adding a handler. -/
theorem evolves_insertAt (p : Pipeline L H) (k : ℕ) (label : Option L) (h : H) :
    Evolves kind guest p (p.insertAt k label h) where
  nextId := Nat.le_succ _
  kinds := by
    intro c hc hlt
    simp only [insertAt,List.mem_append,List.mem_cons] at hc
    rcases hc with hc|rfl|hc
    · exact ⟨c,List.mem_of_mem_take hc,rfl,rfl⟩
    · exact absurd hlt (Nat.lt_irrefl _)
    · exact ⟨c,List.mem_of_mem_drop hc,rfl,rfl⟩
  order := by
    intro ids hids _
    refine hids.trans (List.Sublist.map _ ?_)
    conv_lhs => rw [←List.take_append_drop k p.contexts]
    exact List.Sublist.append (List.Sublist.refl _) (List.sublist_cons_self _ _)

/-- Updating the fields of a handler. -/
theorem evolves_assign {h : H} (hk : ∀ c∈p.contexts, c.id=id → kind c.handler=kind h) :
    Evolves kind guest p (p.assign id h) where
  nextId := Nat.le_refl _
  kinds := by
    intro c hc _
    obtain ⟨d,hd,rfl⟩ := List.mem_map.mp hc
    refine ⟨d,hd,?_,?_⟩ <;> split
    · rfl
    · rfl
    · rename_i he
      exact hk d hd (by simpa using he)
    · rfl
  order := by
    intro ids hids _
    have hmap : (p.assign id h).contexts.map Ctx.id=p.contexts.map Ctx.id := by
      simp only [assign,List.map_map]
      refine List.map_congr_left fun c _ => ?_
      dsimp only [Function.comp]
      split <;> rfl
    rw [hmap]
    exact hids

/-- A guest leaves. -/
theorem evolves_remove (hg : ∀ c∈p.contexts, c.id=id → guest (kind c.handler)) :
    Evolves kind guest p (p.remove id) where
  nextId := Nat.le_refl _
  kinds := fun c hc _ => ⟨c,List.mem_of_mem_filter hc,rfl,rfl⟩
  order := by
    intro ids hids hstay
    have hne : ∀ i∈ids, (i != id)=true := by
      intro i hi
      obtain ⟨c,hc,rfl⟩ := List.mem_map.mp (hids.subset hi)
      simpa using fun he => hstay c hc hi (hg c hc he)
    have hfilter := hids.filter (fun i => i != id)
    rw [List.filter_eq_self.mpr hne,List.filter_map] at hfilter
    exact hfilter

/-- A guest is exchanged for another handler. -/
theorem evolves_replace {label : Option L} {h : H} (hid : id<p.nextId)
    (hg : ∀ c∈p.contexts, c.id=id → guest (kind c.handler)) :
    Evolves kind guest p (p.replace id label h) := by
  have hinsert : Evolves kind guest p (p.insertAt (p.indexOf id) label h) :=
    evolves_insertAt p _ label h
  have hremove : Evolves kind guest (p.insertAt (p.indexOf id) label h)
      ((p.insertAt (p.indexOf id) label h).remove id) := by
    refine evolves_remove (fun c hc he => ?_)
    have hlt : c.id<p.nextId := he ▸ hid
    obtain ⟨d,hd,hid',hkind⟩ := hinsert.kinds c hc hlt
    rw [←hkind]
    exact hg d hd (hid'.trans he)
  have hboth := hinsert.trans hremove
  exact ⟨hboth.nextId,hboth.kinds,hboth.order⟩

/-- A handler that is no guest stays, with its kind. -/
theorem Evolves.stays (h : Evolves kind guest p q) {c : Ctx L H} (hc : c∈p.contexts)
    (hg : ¬guest (kind c.handler)) : ∃ d∈q.contexts, d.id=c.id ∧ kind d.handler=kind c.handler := by
  have hids : [c.id].Sublist (q.contexts.map Ctx.id) := by
    refine h.order _ (List.singleton_sublist.mpr (List.mem_map_of_mem hc)) (fun d hd he => ?_)
    rw [eq_of_id hd hc (List.mem_singleton.mp he)]
    exact hg
  obtain ⟨d,hd,hid⟩ := List.mem_map.mp (List.singleton_sublist.mp hids)
  obtain ⟨e,he,hid',hkind⟩ := h.kinds d hd (hid ▸ p.fresh c hc)
  rw [eq_of_id he hc (hid'.trans hid)] at hkind
  exact ⟨d,hd,hid,hkind.symm⟩

/-- What is ahead of a context that stays remains ahead of it. -/
theorem Evolves.ahead (h : Evolves kind guest p q) (ha : Ahead kind a p id) (hg : ¬guest a)
    (hid : ∀ c∈p.contexts, c.id=id → ¬guest (kind c.handler)) : Ahead kind a q id := by
  obtain ⟨c,hc,hkind,hids⟩ := ha
  obtain ⟨d,hd,hdid,hdkind⟩ := h.stays hc (hkind ▸ hg)
  refine ⟨d,hd,hdkind.trans hkind,?_⟩
  rw [hdid]
  refine h.order _ hids (fun e he hm => ?_)
  simp only [List.mem_cons,List.not_mem_nil,or_false] at hm
  rcases hm with hm|hm
  · exact hid e he hm
  · rw [eq_of_id he hc hm,hkind]
    exact hg

/-- A search that would take a handler of kind `a` stops at one or before it. -/
theorem nearest_ahead {f : H → Bool} {before l : List (Ctx L H)} (hl : p.contexts=before++l)
    (hf : ∀ h, kind h=a → f h=true) {c : Ctx L H} (hc : c∈l) (hkind : kind c.handler=a) :
    ∃ d∈p.contexts, nearest f l=some d.id ∧ f d.handler=true ∧
      (kind d.handler=a ∨ Ahead kind a p d.id) := by
  have hsome : (l.find? (fun c => f c.handler)).isSome=true :=
    List.find?_isSome.mpr ⟨c,hc,hf _ hkind⟩
  obtain ⟨d,hd⟩ := Option.isSome_iff_exists.mp hsome
  obtain ⟨hfd,pre,post,rfl,hpre⟩ := List.find?_eq_some_iff_append.mp hd
  have hmem : d∈p.contexts := by
    rw [hl]
    simp
  refine ⟨d,hmem,?_,hfd,?_⟩
  · rw [nearest,hd,Option.map_some]
  · rcases List.mem_append.mp hc with hc|hc
    · exact absurd (hf _ hkind) (by simpa using hpre c hc)
    · rcases List.mem_cons.mp hc with rfl|hc
      · exact .inl hkind
      · refine .inr ⟨c,?_,hkind,?_⟩
        · rw [hl]
          simp [hc]
        · have hpair : [d.id,c.id].Sublist ((d::post).map Ctx.id) :=
            List.Sublist.cons_cons _ (List.singleton_sublist.mpr (List.mem_map_of_mem hc))
          refine hpair.trans (List.Sublist.map _ ?_)
          rw [hl,←List.append_assoc]
          exact List.sublist_append_right _ _

/-- From a context on, a search meets what is ahead of it. -/
theorem Ahead.nextWhere {f : H → Bool} (ha : Ahead kind a p id) (hf : ∀ h, kind h=a → f h=true) :
    ∃ d∈p.contexts, p.nextWhere id f=some d.id ∧ f d.handler=true ∧
      (kind d.handler=a ∨ Ahead kind a p d.id) := by
  obtain ⟨c,hc,hkind,hids⟩ := ha
  obtain ⟨as,bs,hsplit,hid,hrest⟩ := List.cons_sublist_iff.mp hids
  obtain ⟨cs,ds,hcs,rfl,rfl⟩ := List.map_eq_append_iff.mp hsplit
  obtain ⟨e,he,heid⟩ := List.mem_map.mp hid
  obtain ⟨xs,ys,rfl⟩ := List.append_of_mem he
  obtain ⟨g,hg,hgid⟩ := List.mem_map.mp (List.singleton_sublist.mp hrest)
  have hp : p.contexts=xs++e::(ys++ds) := by simpa using hcs
  have hgc : g=c := eq_of_id (p:=p) (by rw [hcs]; simp [hg]) hc hgid
  have hsuffix : p.contexts=(xs++[e])++(ys++ds) := by simpa using hp
  obtain ⟨d,hd,hn,hfd,hcase⟩ := nearest_ahead hsuffix hf
    (List.mem_append_right ys (hgc ▸ hg)) hkind
  refine ⟨d,hd,?_,hfd,hcase⟩
  rw [Pipeline.nextWhere,←heid,following_eq hp]
  exact hn

end Evolution

end Pipeline

end ProxyDroid.HandlerPipeline
