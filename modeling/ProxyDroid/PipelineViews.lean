import ProxyDroid.HandlerPipeline

/-!
# Views of a pipeline

A view forgets a part of every context, such as the fields of its handler.
Searches by a property that the view keeps can be followed on the view
alone, and updates that change only what it forgets leave it as it is.
`Viewed` names one context by what the view shows before it and after it.
-/

namespace ProxyDroid.PipelineViews

open HandlerPipeline HandlerPipeline.Pipeline

variable {L H T : Type} {v : Ctx L H → T} {p : Pipeline L H} {id : ℕ} {pre post : List T} {x : T}

/-- What is seen of a pipeline from head to tail. -/
def view (v : Ctx L H → T) (p : Pipeline L H) : List T := p.contexts.map v

/-- The context `id` is seen as `x`, with `pre` before it and `post` after it. -/
def Viewed (v : Ctx L H → T) (p : Pipeline L H) (id : ℕ) (pre : List T) (x : T) (post : List T) :
    Prop :=
  ∃ cs c ds, p.contexts=cs++c::ds ∧ c.id=id ∧ cs.map v=pre ∧ v c=x ∧ ds.map v=post

/-- A position splits the view. -/
theorem Viewed.view (hp : Viewed v p id pre x post) : view v p=pre++x::post := by
  obtain ⟨cs,c,ds,hc,rfl,rfl,rfl,rfl⟩ := hp
  rw [PipelineViews.view,hc,List.map_append,List.map_cons]

/-- The context at a position is in the pipeline. -/
theorem Viewed.has (hp : Viewed v p id pre x post) : p.has id=true := by
  obtain ⟨cs,c,ds,hc,rfl,-,-,-⟩ := hp
  exact has_eq hc

/-- A position has one context. -/
theorem Viewed.unique {id' : ℕ} {y : T} {post' : List T} (hp : Viewed v p id pre x post)
    (hp' : Viewed v p id' pre y post') : id'=id := by
  obtain ⟨cs,c,ds,hc,rfl,hcs,-,-⟩ := hp
  obtain ⟨cs',c',ds',hc',rfl,hcs',-,-⟩ := hp'
  have hlength : cs'.length=cs.length := by
    simpa using congrArg List.length (hcs'.trans hcs.symm)
  have heq := (List.append_inj (hc'.symm.trans hc) hlength).2
  rw [(List.cons.inj heq).1]

/-- The context at a position, with its handler. -/
theorem Viewed.find (hp : Viewed v p id pre x post) :
    ∃ c∈p.contexts, c.id=id ∧ v c=x ∧ p.find id=some c.handler := by
  obtain ⟨cs,c,ds,hc,rfl,rfl,rfl,rfl⟩ := hp
  exact ⟨c,by simp [hc],rfl,rfl,find_eq hc⟩

section Search

variable {q : H → Bool} {r : T → Bool}

/-- Searching contexts for a property that the view keeps. -/
theorem nearest_viewed {l : List (Ctx L H)} (hr : ∀ c, q c.handler=r (v c))
    (hl : l.map v=pre++x::post) (hpre : ∀ y∈pre, r y=false) (hx : r x=true) :
    ∃ cs c ds, l=cs++c::ds ∧ nearest q l=some c.id ∧ cs.map v=pre ∧ v c=x ∧ ds.map v=post := by
  obtain ⟨cs,rest,rfl,rfl,hrest⟩ := List.map_eq_append_iff.mp hl
  obtain ⟨c,ds,rfl,rfl,rfl⟩ := List.map_eq_cons_iff.mp hrest
  have hnone : cs.find? (fun c => q c.handler)=none :=
    List.find?_eq_none.mpr (fun d hd => by simp [hr,hpre _ (List.mem_map_of_mem hd)])
  have hq : q c.handler=true := (hr c).trans hx
  refine ⟨cs,c,ds,rfl,?_,rfl,rfl,rfl⟩
  simp [nearest,List.find?_append,hnone,hq]

/-- A search that fails on the view. -/
theorem nearest_viewed_none {l : List (Ctx L H)} (hr : ∀ c, q c.handler=r (v c))
    (hl : ∀ y∈l.map v, r y=false) : nearest q l=none := by
  have hnone : l.find? (fun c => q c.handler)=none :=
    List.find?_eq_none.mpr (fun d hd => by simp [hr,hl _ (List.mem_map_of_mem hd)])
  rw [nearest,hnone,Option.map_none]

/-- The first context from the head. -/
theorem firstWhere_viewed (hr : ∀ c, q c.handler=r (v c)) (hv : view v p=pre++x::post)
    (hpre : ∀ y∈pre, r y=false) (hx : r x=true) :
    ∃ id, p.firstWhere q=some id ∧ Viewed v p id pre x post := by
  obtain ⟨cs,c,ds,hp,hn,hcs,hc,hds⟩ := nearest_viewed hr hv hpre hx
  exact ⟨c.id,hn,cs,c,ds,hp,rfl,hcs,hc,hds⟩

/-- No context from the head. -/
theorem firstWhere_viewed_none (hr : ∀ c, q c.handler=r (v c)) (hv : ∀ y∈view v p, r y=false) :
    p.firstWhere q=none := nearest_viewed_none hr hv

/-- The next context after a position. -/
theorem Viewed.nextWhere {mid post' : List T} {y : T} (hr : ∀ c, q c.handler=r (v c))
    (hp : Viewed v p id pre x (mid++y::post')) (hmid : ∀ z∈mid, r z=false) (hy : r y=true) :
    ∃ id', p.nextWhere id q=some id' ∧ Viewed v p id' (pre++x::mid) y post' := by
  obtain ⟨cs,c,ds,hc,rfl,rfl,rfl,hds⟩ := hp
  obtain ⟨es,e,fs,rfl,hn,rfl,rfl,rfl⟩ := nearest_viewed hr hds hmid hy
  refine ⟨e.id,?_,cs++c::es,e,fs,?_,rfl,?_,rfl,rfl⟩
  · rw [Pipeline.nextWhere,following_eq hc,hn]
  · rw [hc,List.append_assoc,List.cons_append]
  · rw [List.map_append,List.map_cons]

/-- No context after a position. -/
theorem Viewed.nextWhere_none (hr : ∀ c, q c.handler=r (v c)) (hp : Viewed v p id pre x post)
    (hpost : ∀ z∈post, r z=false) : p.nextWhere id q=none := by
  obtain ⟨cs,c,ds,hc,rfl,rfl,rfl,rfl⟩ := hp
  rw [Pipeline.nextWhere,following_eq hc,nearest_viewed_none hr hpost]

/-- The last context from the head. -/
theorem lastWhere_viewed (hr : ∀ c, q c.handler=r (v c)) (hv : view v p=pre++x::post)
    (hpost : ∀ y∈post, r y=false) (hx : r x=true) :
    ∃ id, p.lastWhere q=some id ∧ Viewed v p id pre x post := by
  have hrev : p.contexts.reverse.map v=post.reverse++x::pre.reverse := by
    rw [List.map_reverse]
    change (view v p).reverse=_
    rw [hv]
    simp
  obtain ⟨cs,c,ds,hp,hn,hcs,hc,hds⟩ :=
    nearest_viewed hr hrev (fun y hy => hpost y (List.mem_reverse.mp hy)) hx
  refine ⟨c.id,hn,ds.reverse,c,cs.reverse,?_,rfl,?_,hc,?_⟩
  · rw [←List.reverse_inj,hp]
    simp
  · rw [List.map_reverse,hds,List.reverse_reverse]
  · rw [List.map_reverse,hcs,List.reverse_reverse]

/-- No context from the tail. -/
theorem lastWhere_viewed_none (hr : ∀ c, q c.handler=r (v c)) (hv : ∀ y∈view v p, r y=false) :
    p.lastWhere q=none := by
  refine nearest_viewed_none hr (fun y hy => hv y ?_)
  rw [List.map_reverse] at hy
  exact List.mem_reverse.mp hy

/-- The nearest context before a position. -/
theorem Viewed.prevWhere {pre' mid : List T} {y : T} (hr : ∀ c, q c.handler=r (v c))
    (hp : Viewed v p id (pre'++y::mid) x post) (hmid : ∀ z∈mid, r z=false) (hy : r y=true) :
    ∃ id', p.prevWhere id q=some id' ∧ Viewed v p id' pre' y (mid++x::post) := by
  obtain ⟨cs,c,ds,hc,rfl,hcs,rfl,rfl⟩ := hp
  have hrev : cs.reverse.map v=mid.reverse++y::pre'.reverse := by
    rw [List.map_reverse,hcs]
    simp
  obtain ⟨es,e,fs,hes,hn,hmid',he,hpre'⟩ :=
    nearest_viewed hr hrev (fun z hz => hmid z (List.mem_reverse.mp hz)) hy
  have hcs' : cs=fs.reverse++e::es.reverse := by
    rw [←List.reverse_inj,hes]
    simp
  refine ⟨e.id,?_,fs.reverse,e,es.reverse++c::ds,?_,rfl,?_,he,?_⟩
  · rw [Pipeline.prevWhere,preceding_eq hc,hn]
  · rw [hc,hcs',List.append_assoc,List.cons_append]
  · rw [List.map_reverse,hpre',List.reverse_reverse]
  · rw [List.map_append,List.map_reverse,hmid',List.reverse_reverse,List.map_cons]

/-- No context before a position. -/
theorem Viewed.prevWhere_none (hr : ∀ c, q c.handler=r (v c)) (hp : Viewed v p id pre x post)
    (hpre : ∀ z∈pre, r z=false) : p.prevWhere id q=none := by
  obtain ⟨cs,c,ds,hc,rfl,rfl,rfl,rfl⟩ := hp
  rw [Pipeline.prevWhere,preceding_eq hc]
  refine nearest_viewed_none hr (fun z hz => hpre z ?_)
  rw [List.map_reverse] at hz
  exact List.mem_reverse.mp hz

end Search

section Updates

/-- A context added behind `k` others. -/
theorem view_insertAt (k : ℕ) (label : Option L) (h : H) :
    view v (p.insertAt k label h)=(view v p).take k++v ⟨p.nextId,label,h⟩::(view v p).drop k := by
  simp [view,insertAt,List.map_take,List.map_drop]

/-- A context added at the end. -/
theorem view_insertAt_length (label : Option L) (h : H) :
    view v (p.insertAt p.contexts.length label h)=view v p++[v ⟨p.nextId,label,h⟩] := by
  have hlen : p.contexts.length=(view v p).length := by simp [view]
  rw [view_insertAt,hlen,List.take_length,List.drop_length]

/-- A context added at the end keeps every position. -/
theorem Viewed.insert_last (hp : Viewed v p id pre x post) (label : Option L) (h : H) :
    Viewed v (p.insertAt p.contexts.length label h) id pre x (post++[v ⟨p.nextId,label,h⟩]) := by
  obtain ⟨cs,c,ds,hc,rfl,rfl,rfl,rfl⟩ := hp
  refine ⟨cs,c,ds++[⟨p.nextId,label,h⟩],?_,rfl,rfl,rfl,by simp⟩
  change p.contexts.take _++_::p.contexts.drop _=_
  rw [List.take_length,List.drop_length,hc,List.append_assoc,List.cons_append]

/-- A context leaves. -/
theorem view_remove (hp : Viewed v p id pre x post) : view v (p.remove id)=pre++post := by
  obtain ⟨cs,c,ds,hc,rfl,rfl,rfl,rfl⟩ := hp
  rw [view,remove_contexts hc,List.map_append]

/-- A context added behind the one at a position. -/
theorem Viewed.insert_behind (hp : Viewed v p id pre x post) (label : Option L) (h : H) :
    Viewed v (p.insertAt (pre.length+1) label h) id pre x (v ⟨p.nextId,label,h⟩::post) := by
  obtain ⟨cs,c,ds,hc,rfl,rfl,rfl,rfl⟩ := hp
  refine ⟨cs,c,⟨p.nextId,label,h⟩::ds,?_,rfl,rfl,rfl,rfl⟩
  have hsplit : p.contexts=(cs++[c])++ds := by rw [hc,List.append_assoc,List.singleton_append]
  have hlen : (cs.map v).length+1=(cs++[c]).length := by simp
  change p.contexts.take _++_::p.contexts.drop _=_
  rw [hsplit,hlen,List.take_left,List.drop_left,List.append_assoc,List.singleton_append]

/-- New fields of the context at a position. -/
theorem Viewed.assign {y : T} (hp : Viewed v p id pre x post) {h : H}
    (hx : ∀ c : Ctx L H, v c=x → v ⟨c.id,c.label,h⟩=y) :
    Viewed v (p.assign id h) id pre y post := by
  obtain ⟨cs,c,ds,hc,rfl,rfl,hvx,rfl⟩ := hp
  exact ⟨cs,⟨c.id,c.label,h⟩,ds,assign_contexts hc h,rfl,rfl,hx c hvx,rfl⟩

/-- New fields of a context behind the one at a position. -/
theorem Viewed.assign_behind (mid : List T) {post' : List T} {y z : T} {id' : ℕ} {h : H}
    (hp : Viewed v p id pre x (mid++y::post')) (hq : Viewed v p id' (pre++x::mid) y post')
    (hz : ∀ c : Ctx L H, v c=y → v ⟨c.id,c.label,h⟩=z) :
    Viewed v (p.assign id' h) id pre x (mid++z::post') := by
  obtain ⟨cs,c,ds,hc,rfl,rfl,rfl,hds⟩ := hp
  obtain ⟨es,e,fs,he,rfl,hes,hey,rfl⟩ := hq
  obtain ⟨ds₁,rest,rfl,rfl,hrest⟩ := List.map_eq_append_iff.mp hds
  obtain ⟨d,ds₂,rfl,hd,hds₂⟩ := List.map_eq_cons_iff.mp hrest
  have hsplit : p.contexts=(cs++c::ds₁)++d::ds₂ := by simpa using hc
  have hlength : es.length=(cs++c::ds₁).length := by simpa using congrArg List.length hes
  obtain ⟨rfl,hlast⟩ := List.append_inj (he.symm.trans hsplit) hlength
  obtain ⟨rfl,rfl⟩ := List.cons.inj hlast
  refine ⟨cs,c,ds₁++⟨e.id,e.label,h⟩::fs,?_,rfl,rfl,rfl,?_⟩
  · rw [assign_contexts he,List.append_assoc,List.cons_append]
  · rw [List.map_append,List.map_cons,hz e hey]

end Updates

section Identities

variable {p' p₁ : Pipeline L H} {id' : ℕ}

/-- Two pipelines with the same contexts, seen alike. -/
structure Same (v : Ctx L H → T) (p p' : Pipeline L H) : Prop where
  /-- What is seen. -/
  shown : view v p'=view v p
  /-- The contexts. -/
  ids : p'.contexts.map Ctx.id=p.contexts.map Ctx.id
  /-- Those that have left. -/
  detached : p'.detached=p.detached
  /-- Identities given out. -/
  nextId : p'.nextId=p.nextId

theorem Same.refl (v : Ctx L H → T) (p : Pipeline L H) : Same v p p := ⟨rfl,rfl,rfl,rfl⟩

theorem Same.trans (h : Same v p p₁) (k : Same v p₁ p') : Same v p p' :=
  ⟨k.shown.trans h.shown,k.ids.trans h.ids,k.detached.trans h.detached,k.nextId.trans h.nextId⟩

/-- New fields that the view does not show. -/
theorem same_assign (hp : Viewed v p id pre x post) {h : H}
    (hx : ∀ c : Ctx L H, v c=x → v ⟨c.id,c.label,h⟩=x) : Same v p (p.assign id h) where
  shown := (hp.assign hx).view.trans hp.view.symm
  ids := by
    obtain ⟨cs,c,ds,hc,rfl,rfl,hvx,rfl⟩ := hp
    rw [assign_contexts hc,hc,List.map_append,List.map_cons,List.map_append,List.map_cons]
  detached := rfl
  nextId := rfl

/-- Positions stay. -/
theorem Same.viewed (h : Same v p p') (hp : Viewed v p id pre x post) :
    Viewed v p' id pre x post := by
  have hview := h.shown.trans hp.view
  obtain ⟨cs,c,ds,hc,rfl,rfl,rfl,rfl⟩ := hp
  have hids := h.ids
  rw [hc,List.map_append,List.map_cons] at hids
  obtain ⟨cs',rest,hc',hcs,hrest⟩ := List.map_eq_append_iff.mp hids
  obtain ⟨c',ds',rfl,hid,hds⟩ := List.map_eq_cons_iff.mp hrest
  have hlength : cs'.length=cs.length := by simpa using congrArg List.length hcs
  rw [view,hc',List.map_append,List.map_cons] at hview
  obtain ⟨hpre,hpost⟩ := List.append_inj hview (by rw [List.length_map,List.length_map,hlength])
  obtain ⟨hx,hpost⟩ := List.cons.inj hpost
  exact ⟨cs',c',ds',hc',hid,hpre,hx,hpost⟩

/-- The context `id` has given its place to `id'`. -/
def Replaced (p : Pipeline L H) (id id' : ℕ) : Prop :=
  p.has id=false ∧ id<p.nextId ∧
    ∃ prev, p.detached.find? (fun d => d.id==id)=some ⟨id,prev,some id'⟩

/-- A context is exchanged for a new one. -/
theorem Viewed.replace (hp : Viewed v p id pre x post) (label : Option L) (h : H) :
    Viewed v (p.replace id label h) p.nextId pre (v ⟨p.nextId,label,h⟩) post ∧
      Replaced (p.replace id label h) id p.nextId := by
  obtain ⟨cs,c,ds,hc,rfl,rfl,rfl,rfl⟩ := hp
  have hinsert : (p.insertAt (p.indexOf c.id) label h).contexts=
      (cs++[⟨p.nextId,label,h⟩])++c::ds := by
    change p.contexts.take _++_::p.contexts.drop _=_
    rw [indexOf_eq hc,hc,List.take_left,List.drop_left,List.append_assoc,List.singleton_append]
  have hcontexts : (p.replace c.id label h).contexts=cs++⟨p.nextId,label,h⟩::ds := by
    change ((p.insertAt (p.indexOf c.id) label h).remove c.id).contexts=_
    rw [remove_contexts hinsert,List.append_assoc,List.singleton_append]
  have hfresh : c.id<p.nextId := p.fresh c (by simp [hc])
  refine ⟨⟨cs,_,ds,hcontexts,rfl,rfl,rfl,rfl⟩,has_remove _ c.id,Nat.lt_succ_of_lt hfresh,
    some p.nextId,?_⟩
  exact List.find?_cons_of_pos (beq_self_eq_true c.id)

theorem Replaced.same (h : Replaced p id id') (hs : Same v p p') : Replaced p' id id' := by
  obtain ⟨hhas,hlt,prev,hfind⟩ := h
  have hany : ∀ q : Pipeline L H, q.has id=(q.contexts.map Ctx.id).any (fun n => n==id) := by
    intro q
    rw [has,List.any_map]
    rfl
  refine ⟨?_,hs.nextId ▸ hlt,prev,hs.detached ▸ hfind⟩
  rw [hany,hs.ids,←hany,hhas]

/-- Later additions do not bring a context back. -/
theorem Replaced.insertAt (h : Replaced p id id') (k : ℕ) (label : Option L) (h' : H) :
    Replaced (p.insertAt k label h') id id' := by
  obtain ⟨hhas,hlt,prev,hfind⟩ := h
  refine ⟨?_,Nat.lt_succ_of_lt hlt,prev,hfind⟩
  have hnone : ∀ c∈p.contexts, ¬c.id=id := by simpa [has] using hhas
  simp only [has,Pipeline.insertAt,List.any_eq_false,List.mem_append,List.mem_cons]
  rintro c (hc|rfl|hc)
  · simpa using hnone c (List.mem_of_mem_take hc)
  · simpa using (Nat.ne_of_lt hlt).symm
  · simpa using hnone c (List.mem_of_mem_drop hc)

/-- What the old context passes on reaches the new one. -/
theorem Replaced.nextWhere {q : H → Bool} {r : T → Bool} (hr : ∀ c, q c.handler=r (v c))
    (h : Replaced p id id') (hp : Viewed v p id' pre x post) (hx : r x=true) :
    p.nextWhere id q=some id' := by
  obtain ⟨hhas,-,prev,hfind⟩ := h
  obtain ⟨cs,c,ds,hc,rfl,rfl,rfl,rfl⟩ := hp
  have hfollowing : p.following id=c::ds := by
    rw [following,if_neg (by simp [hhas]),hfind]
    dsimp only
    rw [indexOf_eq hc,hc,List.drop_left]
  have hq : q c.handler=true := (hr c).trans hx
  simp [Pipeline.nextWhere,hfollowing,nearest,hq]

end Identities

section Labels

variable [DecidableEq L] {label : L} {r : T → Bool}

/-- Whether a label is in use, read off a view that shows labels. -/
theorem hasLabel_viewed (hr : ∀ c : Ctx L H, (c.label==some label)=r (v c)) :
    p.hasLabel label=(view v p).any r := by
  rw [hasLabel,view,List.any_map]
  congr 1
  funext c
  exact hr c

/-- Contexts before a label, read off a view that shows labels. -/
theorem indexOfLabel_viewed (hr : ∀ c : Ctx L H, (c.label==some label)=r (v c)) :
    p.indexOfLabel label=(view v p).findIdx r := by
  have hcomp : (fun c : Ctx L H => c.label==some label)=r∘v := by
    funext c
    exact hr c
  rw [indexOfLabel,view,hcomp,List.findIdx_map]

end Labels

end ProxyDroid.PipelineViews
