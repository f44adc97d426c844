import Mathlib.Data.List.Induction
import Mathlib.Tactic.Common

/-!
# Statement lists with nested guarded calls

A statement changes the state, throws, or makes a guarded call: the called
body runs to its end before the next statement starts, and an exception
leaving the body is given to the call's own rescue statements. Evaluation
is a big-step relation, so no recursion bound enters the specification; a
bounded evaluator is proved sound for closed runs. Systems add external
events, whose handling is one complete evaluation, and runs of events.
-/

namespace ProxyDroid.CallSemantics

/-- What executing one statement amounts to. -/
inductive Act (S T E : Type) where
  /-- A plain change of state. -/
  | done (s : S)
  /-- An exception that leaves the enclosing statement list. -/
  | throw (e : E) (s : S)
  /-- A call whose exceptions go to the rescue statements, computed from the
  state at the throw; an exception of the rescue itself is dropped. -/
  | call (s : S) (body : List T) (rescue : E → S → List T)

variable {S T E Ev : Type}

/-- Big-step evaluation of a statement list, with the exception that left
it, if one did. -/
inductive Eval (sem : T → S → Act S T E) : S → List T → S → Option E → Prop
  | nil (s : S) : Eval sem s [] s none
  | done {s s₁ s₂ t ts x} (h : sem t s=.done s₁) (rest : Eval sem s₁ ts s₂ x) :
      Eval sem s (t::ts) s₂ x
  | throw {s s₁ e t ts} (h : sem t s=.throw e s₁) : Eval sem s (t::ts) s₁ (some e)
  | call {s s₁ s₂ s₃ body rescue t ts x} (h : sem t s=.call s₁ body rescue)
      (inner : Eval sem s₁ body s₂ none) (rest : Eval sem s₂ ts s₃ x) :
      Eval sem s (t::ts) s₃ x
  | rescue {s s₁ s₂ s₃ s₄ e y body rescue t ts x} (h : sem t s=.call s₁ body rescue)
      (inner : Eval sem s₁ body s₂ (some e)) (caught : Eval sem s₂ (rescue e s₂) s₃ y)
      (rest : Eval sem s₃ ts s₄ x) : Eval sem s (t::ts) s₄ x

/-- Bounded evaluator; the bound limits the depth of the derivation. -/
def eval (sem : T → S → Act S T E) : ℕ → S → List T → Option (S×Option E)
  | _,s,[] => some (s,none)
  | 0,_,_::_ => none
  | n+1,s,t::ts =>
    match sem t s with
    | .done s₁ => eval sem n s₁ ts
    | .throw e s₁ => some (s₁,some e)
    | .call s₁ body rescue =>
      match eval sem n s₁ body with
      | none => none
      | some (s₂,none) => eval sem n s₂ ts
      | some (s₂,some e) =>
        match eval sem n s₂ (rescue e s₂) with
        | none => none
        | some (s₃,_) => eval sem n s₃ ts

/-- Every answer of the bounded evaluator is a big-step result. -/
theorem eval_sound {sem : T → S → Act S T E} {n : ℕ} {s s' : S} {ts : List T}
    {x : Option E} (h : eval sem n s ts=some (s',x)) : Eval sem s ts s' x := by
  induction n generalizing s s' ts x with
  | zero =>
    cases ts with
    | nil => cases h; exact .nil _
    | cons t ts => cases h
  | succ n ih =>
    cases ts with
    | nil => cases h; exact .nil _
    | cons t ts =>
      rw [eval] at h
      cases ht : sem t s with
      | done s₁ => rw [ht] at h; exact .done ht (ih h)
      | throw e s₁ => rw [ht] at h; cases h; exact .throw ht
      | call s₁ body rescue =>
        rw [ht] at h
        dsimp only at h
        cases hb : eval sem n s₁ body with
        | none => rw [hb] at h; cases h
        | some result =>
          obtain ⟨s₂,_|e⟩ := result
          · rw [hb] at h
            exact .call ht (ih hb) (ih h)
          · rw [hb] at h
            dsimp only at h
            cases hr : eval sem n s₂ (rescue e s₂) with
            | none => rw [hr] at h; cases h
            | some caught =>
              rw [hr] at h
              exact .rescue ht (ih hb) (ih hr) (ih h)

/-- Evaluation is a partial function of the state and the statements. -/
theorem Eval.deterministic {sem : T → S → Act S T E} {s a b : S} {ts : List T}
    {x y : Option E} (ha : Eval sem s ts a x) (hb : Eval sem s ts b y) :
    a=b ∧ x=y := by
  induction ha generalizing b y with
  | nil s => cases hb; exact ⟨rfl,rfl⟩
  | done h _ ih =>
    cases hb with
    | done h' rest => rw [h] at h'; cases h'; exact ih rest
    | throw h' => rw [h] at h'; cases h'
    | call h' => rw [h] at h'; cases h'
    | rescue h' => rw [h] at h'; cases h'
  | throw h =>
    cases hb with
    | done h' => rw [h] at h'; cases h'
    | throw h' => rw [h] at h'; cases h'; exact ⟨rfl,rfl⟩
    | call h' => rw [h] at h'; cases h'
    | rescue h' => rw [h] at h'; cases h'
  | call h _ _ ihi ihr =>
    cases hb with
    | done h' => rw [h] at h'; cases h'
    | throw h' => rw [h] at h'; cases h'
    | call h' inner rest =>
      rw [h] at h'; cases h'
      obtain ⟨rfl,-⟩ := ihi inner
      exact ihr rest
    | rescue h' inner =>
      rw [h] at h'; cases h'
      exact absurd (ihi inner).2 (by simp)
  | rescue h _ _ _ ihi ihc ihr =>
    cases hb with
    | done h' => rw [h] at h'; cases h'
    | throw h' => rw [h] at h'; cases h'
    | call h' inner =>
      rw [h] at h'; cases h'
      exact absurd (ihi inner).2 (by simp)
    | rescue h' inner caught rest =>
      rw [h] at h'; cases h'
      obtain ⟨rfl,he⟩ := ihi inner
      cases he
      obtain ⟨rfl,-⟩ := ihc caught
      exact ihr rest

/-- A list that ends normally is followed by the statements after it. -/
theorem Eval.append {sem : T → S → Act S T E} {s s₁ s₂ : S} {ts us : List T}
    {x : Option E} (h : Eval sem s ts s₁ none) (k : Eval sem s₁ us s₂ x) :
    Eval sem s (ts++us) s₂ x := by
  generalize hn : (none : Option E)=y at h
  induction h with
  | nil s => exact k
  | done h _ ih => exact .done h (ih k hn)
  | throw h => cases hn
  | call h inner _ _ ih => exact .call h inner (ih k hn)
  | rescue h inner caught _ _ _ ih => exact .rescue h inner caught (ih k hn)

/-- What follows a statement whose outcome is known. -/
theorem Eval.rest {sem : T → S → Act S T E} {s s₁ s₂ : S} {t : T} {ts : List T}
    {x : Option E} (h : Eval sem s [t] s₁ none) (k : Eval sem s (t::ts) s₂ x) :
    Eval sem s₁ ts s₂ x := by
  cases k with
  | done ht rest =>
    obtain ⟨rfl,-⟩ := h.deterministic (.done ht (.nil _))
    exact rest
  | throw ht => exact absurd (h.deterministic (.throw ht)).2 (by simp)
  | call ht inner rest =>
    obtain ⟨rfl,-⟩ := h.deterministic (.call ht inner (.nil _))
    exact rest
  | rescue ht inner caught rest =>
    obtain ⟨rfl,-⟩ := h.deterministic (.rescue ht inner caught (.nil _))
    exact rest

/-- The first statement of a list ends normally and the others follow, or it
throws. -/
theorem Eval.split {sem : T → S → Act S T E} {s s' : S} {t : T} {ts : List T} {x : Option E}
    (h : Eval sem s (t::ts) s' x) :
    (∃ s₁, Eval sem s [t] s₁ none ∧ Eval sem s₁ ts s' x) ∨
      ∃ e, x=some e ∧ Eval sem s [t] s' (some e) := by
  cases h with
  | done ht rest => exact .inl ⟨_,.done ht (.nil _),rest⟩
  | throw ht => exact .inr ⟨_,rfl,.throw ht⟩
  | call ht inner rest => exact .inl ⟨_,.call ht inner (.nil _),rest⟩
  | rescue ht inner caught rest => exact .inl ⟨_,.rescue ht inner caught (.nil _),rest⟩

/-- A property that every statement keeps is kept by every evaluation. -/
theorem Eval.preserves {sem : T → S → Act S T E} {I : S → Prop}
    (hd : ∀ t s s₁, I s → sem t s=.done s₁ → I s₁)
    (ht : ∀ t s e s₁, I s → sem t s=.throw e s₁ → I s₁)
    (hc : ∀ t s s₁ body rescue, I s → sem t s=.call s₁ body rescue → I s₁)
    {s s' : S} {ts : List T} {x : Option E} (h : Eval sem s ts s' x) (hs : I s) :
    I s' := by
  induction h with
  | nil s => exact hs
  | done h _ ih => exact ih (hd _ _ _ hs h)
  | throw h => exact ht _ _ _ _ hs h
  | call h _ _ ihi ihr => exact ihr (ihi (hc _ _ _ _ _ hs h))
  | rescue h _ _ _ ihi ihc ihr => exact ihr (ihc (ihi (hc _ _ _ _ _ hs h)))

/-- A statement list executed statement by statement, where each statement
meets a contract between the states around it and the way it ended. -/
inductive Steps (K : T → S → S → Option E → Prop) : S → List T → S → Option E → Prop
  | nil (s : S) : Steps K s [] s none
  | cons {s s₁ s₂ t ts x} (h : K t s s₁ none) (rest : Steps K s₁ ts s₂ x) : Steps K s (t::ts) s₂ x
  | throw {s s₁ e t ts} (h : K t s s₁ (some e)) : Steps K s (t::ts) s₁ (some e)

/-- How the effect of a statement ends when the statements it starts meet
their contracts. -/
inductive Settles (sem : T → S → Act S T E) (K : T → S → S → Option E → Prop) :
    Act S T E → S → Option E → Prop
  | done (s : S) : Settles sem K (.done s) s none
  | throw (e : E) (s : S) : Settles sem K (.throw e s) s (some e)
  | call {s s₁ body rescue} (inner : Eval sem s body s₁ none) (h : Steps K s body s₁ none) :
      Settles sem K (.call s body rescue) s₁ none
  | rescue {s s₁ s₂ e y body rescue} (inner : Eval sem s body s₁ (some e))
      (h : Steps K s body s₁ (some e)) (caught : Steps K s₁ (rescue e s₁) s₂ y) :
      Settles sem K (.call s body rescue) s₂ none

/-- Contracts that follow from the contracts of the statements called hold of
every evaluation. -/
theorem Eval.contracts {sem : T → S → Act S T E} {K : T → S → S → Option E → Prop}
    (hK : ∀ t s s' x, Settles sem K (sem t s) s' x → K t s s' x) {s s' : S} {ts : List T}
    {x : Option E} (h : Eval sem s ts s' x) : Steps K s ts s' x := by
  induction h with
  | nil s => exact .nil s
  | done h _ ih =>
    refine .cons (hK _ _ _ _ ?_) ih
    rw [h]
    exact .done _
  | throw h =>
    refine .throw (hK _ _ _ _ ?_)
    rw [h]
    exact .throw _ _
  | call h inner _ ihi ihr =>
    refine .cons (hK _ _ _ _ ?_) ihr
    rw [h]
    exact .call inner ihi
  | rescue h inner _ _ ihi ihc ihr =>
    refine .cons (hK _ _ _ _ ?_) ihr
    rw [h]
    exact .rescue inner ihi ihc

section Contracts

variable {K : T → S → S → Option E → Prop} {L : T → S → Prop} {R : S → S → Prop}

/-- Statements that are licensed, with licences that no licensed statement
revokes, are related end to end. -/
theorem Steps.related (hrefl : ∀ s, R s s) (htrans : ∀ s s₁ s₂, R s s₁ → R s₁ s₂ → R s s₂)
    (hL : ∀ t s s', R s s' → L t s → L t s') (hK : ∀ t s s' x, L t s → K t s s' x → R s s')
    {s s' : S} {ts : List T} {x : Option E} (h : Steps K s ts s' x) (hts : ∀ t∈ts, L t s) :
    R s s' := by
  induction h with
  | nil s => exact hrefl s
  | cons h _ ih =>
    have hstep := hK _ _ _ _ (hts _ (by simp)) h
    exact htrans _ _ _ hstep (ih (fun t ht => hL _ _ _ hstep (hts t (List.mem_cons_of_mem _ ht))))
  | throw h => exact hK _ _ _ _ (hts _ (by simp)) h

/-- Every statement of a list that ended normally has been executed. -/
theorem Steps.reaches (hrefl : ∀ s, R s s) (htrans : ∀ s s₁ s₂, R s s₁ → R s₁ s₂ → R s s₂)
    (hL : ∀ t s s', R s s' → L t s → L t s') (hK : ∀ t s s' x, L t s → K t s s' x → R s s')
    {s s' : S} {ts : List T} {x : Option E} (h : Steps K s ts s' x) (hts : ∀ t∈ts, L t s)
    (hx : x=none) {t : T} (ht : t∈ts) : ∃ s₁ s₂, R s s₁ ∧ L t s₁ ∧ K t s₁ s₂ none ∧ R s₂ s' := by
  induction h with
  | nil s => cases ht
  | @cons s s₁ s₂ u us x h rest ih =>
    have hstep := hK _ _ _ _ (hts _ (by simp)) h
    have hrest : ∀ v∈us, L v s₁ :=
      fun v hv => hL _ _ _ hstep (hts v (List.mem_cons_of_mem _ hv))
    rcases List.mem_cons.mp ht with rfl|ht
    · exact ⟨s,s₁,hrefl s,hts _ (by simp),h,rest.related hrefl htrans hL hK hrest⟩
    · obtain ⟨a,b,hsa,hl,hk,hb⟩ := ih hrest hx ht
      exact ⟨a,b,htrans _ _ _ hstep hsa,hl,hk,hb⟩
  | throw h => cases hx

/-- A list of statements that never throw ends normally. -/
theorem Steps.calm {calm : T → Prop} (hcalm : ∀ t s s' x, L t s → K t s s' x → calm t → x=none)
    (hL : ∀ t s s', R s s' → L t s → L t s') (hK : ∀ t s s' x, L t s → K t s s' x → R s s')
    {s s' : S} {ts : List T} {x : Option E} (h : Steps K s ts s' x) (hts : ∀ t∈ts, L t s)
    (hc : ∀ t∈ts, calm t) : x=none := by
  induction h with
  | nil s => rfl
  | cons h _ ih =>
    have hstep := hK _ _ _ _ (hts _ (by simp)) h
    exact ih (fun t ht => hL _ _ _ hstep (hts t (List.mem_cons_of_mem _ ht)))
      (fun t ht => hc t (List.mem_cons_of_mem _ ht))
  | throw h => exact absurd (hcalm _ _ _ _ (hts _ (by simp)) h (hc _ (by simp))) (by simp)

end Contracts

/-- A reactive system: the meaning of its statements and, for each external
event enabled in a state, the state it finds and the statements it starts. -/
structure System (S Ev T E : Type) where
  /-- Meaning of one statement. -/
  sem : T → S → Act S T E
  /-- Handling of an event; `none` when the event cannot happen. -/
  inject : Ev → S → Option (S×List T)

/-- One event is handled to its end before the next one. -/
def System.Turn (sys : System S Ev T E) (s : S) (ev : Ev) (s' : S) : Prop :=
  ∃ s₀ ts x, sys.inject ev s=some (s₀,ts) ∧ Eval sys.sem s₀ ts s' x

/-- Runs all of whose steps meet a condition on the event and the state
before it. -/
inductive System.RunUnder (sys : System S Ev T E) (ok : S → Ev → Prop) (s : S) :
    List Ev → S → Prop
  | nil : sys.RunUnder ok s [] s
  | snoc {evs ev s₁ s₂} (run : sys.RunUnder ok s evs s₁) (meets : ok s₁ ev)
      (turn : sys.Turn s₁ ev s₂) : sys.RunUnder ok s (evs++[ev]) s₂

/-- All runs. -/
def System.Run (sys : System S Ev T E) (s : S) (evs : List Ev) (s' : S) : Prop :=
  sys.RunUnder (fun _ _ => True) s evs s'

/-- A turn has at most one outcome. -/
theorem System.Turn.deterministic {sys : System S Ev T E} {s a b : S} {ev : Ev}
    (ha : sys.Turn s ev a) (hb : sys.Turn s ev b) : a=b := by
  obtain ⟨s₀,ts,x,hi,he⟩ := ha
  obtain ⟨s₁,us,y,hj,hf⟩ := hb
  rw [hi] at hj
  cases hj
  exact (he.deterministic hf).1

/-- The run without events stays where it is. -/
theorem System.RunUnder.eq_of_nil {sys : System S Ev T E} {ok : S → Ev → Prop} {s s' : S}
    (h : sys.RunUnder ok s [] s') : s'=s := by
  generalize he : ([] : List Ev)=evs at h
  cases h with
  | nil => rfl
  | snoc run meets turn => exact absurd he (by simp)

/-- The last step of a run, with the run before it. -/
theorem System.RunUnder.last {sys : System S Ev T E} {ok : S → Ev → Prop} {s s' : S}
    {evs : List Ev} {ev : Ev} (h : sys.RunUnder ok s (evs++[ev]) s') :
    ∃ s₁, sys.RunUnder ok s evs s₁ ∧ ok s₁ ev ∧ sys.Turn s₁ ev s' := by
  generalize he : evs++[ev]=all at h
  cases h with
  | nil => exact absurd he (by simp)
  | snoc run meets turn =>
    obtain ⟨rfl,hl⟩ := List.append_inj' he rfl
    cases hl
    exact ⟨_,run,meets,turn⟩

/-- A step condition may be weakened along a whole run. -/
theorem System.RunUnder.mono {sys : System S Ev T E} {ok ok' : S → Ev → Prop} {s s' : S}
    {evs : List Ev} (h : sys.RunUnder ok s evs s') (himp : ∀ s ev, ok s ev → ok' s ev) :
    sys.RunUnder ok' s evs s' := by
  induction h with
  | nil => exact .nil
  | snoc _ meets turn ih => exact .snoc ih (himp _ _ meets) turn

/-- A condition on the events alone is checked on the list of events. -/
theorem System.RunUnder.of_events {sys : System S Ev T E} {P : Ev → Prop} {s s' : S}
    {evs : List Ev} (h : sys.Run s evs s') (hP : ∀ ev∈evs, P ev) :
    sys.RunUnder (fun _ ev => P ev) s evs s' := by
  induction h with
  | nil => exact .nil
  | snoc _ _ turn ih =>
    exact .snoc (ih (fun ev hev => hP ev (List.mem_append_left _ hev))) (hP _ (by simp)) turn

/-- Two runs that meet in a state make one run. -/
theorem System.RunUnder.trans {sys : System S Ev T E} {ok : S → Ev → Prop} {s s₁ s₂ : S}
    {evs evs' : List Ev} (h : sys.RunUnder ok s evs s₁) (k : sys.RunUnder ok s₁ evs' s₂) :
    sys.RunUnder ok s (evs++evs') s₂ := by
  induction k with
  | nil => simpa using h
  | snoc _ meets turn ih =>
    rw [←List.append_assoc]
    exact .snoc ih meets turn

/-- An invariant of the steps that meet the condition holds after every run
of such steps. -/
theorem System.RunUnder.invariant {sys : System S Ev T E} {ok : S → Ev → Prop}
    {I : S → Prop} (hstep : ∀ s ev s', I s → ok s ev → sys.Turn s ev s' → I s')
    {s s' : S} {evs : List Ev} (h : sys.RunUnder ok s evs s') (hs : I s) : I s' := by
  induction h with
  | nil => exact hs
  | snoc _ meets turn ih => exact hstep _ _ _ ih meets turn

/-- Forward simulation by an abstract transition function. -/
theorem System.RunUnder.simulates {sys : System S Ev T E} {ok : S → Ev → Prop} {A : Type}
    {R : A → S → Prop} {step : A → Ev → A}
    (hstep : ∀ a s ev s', R a s → ok s ev → sys.Turn s ev s' → R (step a ev) s')
    {s s' : S} {evs : List Ev} (h : sys.RunUnder ok s evs s') {a : A} (hs : R a s) :
    R (evs.foldl step a) s' := by
  induction h with
  | nil => exact hs
  | snoc _ meets turn ih =>
    rw [List.foldl_append]
    exact hstep _ _ _ _ ih meets turn

/-- A run stays under a condition, or one of its events breaks it where it happens. -/
theorem System.RunUnder.under_or_breaks {sys : System S Ev T E} {all : S → Ev → Prop}
    (ok : S → Ev → Prop) {s s' : S} {evs : List Ev} (h : sys.RunUnder all s evs s') :
    sys.RunUnder ok s evs s' ∨
      ∃ before ev after s₁, evs=before++ev::after ∧ sys.RunUnder all s before s₁ ∧ ¬ok s₁ ev := by
  induction h with
  | nil => exact .inl .nil
  | @snoc evs ev s₁ s₂ run meets turn ih =>
    rcases ih with under|⟨before,first,after,s₀,rfl,hrun,hbreaks⟩
    · by_cases hok : ok s₁ ev
      · exact .inl (.snoc under hok turn)
      · exact .inr ⟨evs,ev,[],s₁,rfl,run,hok⟩
    · exact .inr ⟨before,first,after++[ev],s₀,by simp,hrun,hbreaks⟩

/-- A run stays under a condition and within an invariant, or a step that
breaks the condition has led to a state that no step leaves. -/
theorem System.RunUnder.breach {sys : System S Ev T E} {ok all : S → Ev → Prop} {I B : S → Prop}
    (hkeep : ∀ s ev s', I s → all s ev → ok s ev → sys.Turn s ev s' → I s')
    (hbreak : ∀ s ev s', I s → all s ev → ¬ok s ev → sys.Turn s ev s' → B s')
    (hstay : ∀ s ev s', B s → all s ev → sys.Turn s ev s' → B s')
    {s s' : S} {evs : List Ev} (h : sys.RunUnder all s evs s') (hs : I s) :
    (sys.RunUnder ok s evs s' ∧ I s') ∨ B s' := by
  induction h with
  | nil => exact .inl ⟨.nil,hs⟩
  | @snoc evs ev s₁ s₂ _ meets turn ih =>
    rcases ih with ⟨run,hi⟩|hb
    · by_cases hok : ok s₁ ev
      · exact .inl ⟨.snoc run hok turn,hkeep _ _ _ hi meets hok turn⟩
      · exact .inr (hbreak _ _ _ hi meets hok turn)
    · exact .inr (hstay _ _ _ hb meets turn)

/-- A system whose events are single steps, without statements of their own. -/
def System.ofStep (step : Ev → S → Option S) : System S Ev Empty Empty :=
  ⟨fun t => t.elim,fun ev s => (step ev s).map (fun s' => (s',[]))⟩

/-- A turn of such a system is one step. -/
@[simp] theorem System.turn_ofStep {step : Ev → S → Option S} {s s' : S} {ev : Ev} :
    (System.ofStep step).Turn s ev s' ↔ step ev s=some s' := by
  constructor
  · rintro ⟨s₀,ts,x,hinject,heval⟩
    obtain ⟨s₁,hstep,hpair⟩ := Option.map_eq_some_iff.mp hinject
    cases hpair
    cases heval
    exact hstep
  · intro hstep
    exact ⟨s',[],none,Option.map_eq_some_iff.mpr ⟨s',hstep,rfl⟩,.nil s'⟩

/-- Steps executed one after the other, each of which passes a test, are a run under it. -/
theorem System.runUnder_ofStep {step : Ev → S → Option S} {test : S → Ev → Bool} {s s' : S}
    {evs : List Ev} (h : evs.foldlM (fun s ev => if test s ev then step ev s else none) s=some s') :
    (System.ofStep step).RunUnder (fun s ev => test s ev=true) s evs s' := by
  induction evs generalizing s with
  | nil => cases h; exact .nil
  | cons ev evs ih =>
    rw [List.foldlM_cons] at h
    obtain ⟨s₁,hfirst,hrest⟩ := Option.bind_eq_some_iff.mp h
    obtain ⟨htest,hstep⟩ := Option.ite_none_right_eq_some.mp hfirst
    have hturn : (System.ofStep step).RunUnder (fun s ev => test s ev=true) s [ev] s₁ :=
      .snoc .nil htest (System.turn_ofStep.mpr hstep)
    exact hturn.trans (ih hrest)

/-- Steps executed one after the other are a run. -/
theorem System.run_ofStep {step : Ev → S → Option S} {s s' : S} {evs : List Ev}
    (h : evs.foldlM (fun s ev => step ev s) s=some s') : (System.ofStep step).Run s evs s' := by
  have htested : (System.ofStep step).RunUnder (fun _ _ => true=true) s evs s' :=
    System.runUnder_ofStep (by simpa using h)
  exact htested.mono (fun _ _ _ => trivial)

/-- The state after steps executed one after the other. -/
def System.after (step : Ev → S → Option S) (s : S) (evs : List Ev) : S :=
  (evs.foldlM (fun s ev => step ev s) s).getD s

/-- Steps that can all be executed are the run to that state. -/
theorem System.run_after {step : Ev → S → Option S} {s : S} {evs : List Ev}
    (h : (evs.foldlM (fun s ev => step ev s) s).isSome=true) :
    (System.ofStep step).Run s evs (System.after step s evs) := by
  obtain ⟨s',hs⟩ := Option.isSome_iff_exists.mp h
  refine System.run_ofStep (hs.trans ?_)
  rw [System.after,hs]
  rfl

/-- Bounded execution of a run, one bounded evaluation for each event. -/
def System.execute (sys : System S Ev T E) (n : ℕ) : S → List Ev → Option S
  | s,[] => some s
  | s,ev::evs =>
    match sys.inject ev s with
    | none => none
    | some (s₀,ts) =>
      match eval sys.sem n s₀ ts with
      | none => none
      | some (s₁,_) => sys.execute n s₁ evs

/-- Every bounded execution is a run. -/
theorem System.execute_sound {sys : System S Ev T E} {n : ℕ} {s s' : S} {evs : List Ev}
    (h : sys.execute n s evs=some s') : sys.Run s evs s' := by
  induction evs generalizing s with
  | nil => cases h; exact .nil
  | cons ev evs ih =>
    rw [System.execute] at h
    cases hi : sys.inject ev s with
    | none => rw [hi] at h; cases h
    | some start =>
      obtain ⟨s₀,ts⟩ := start
      rw [hi] at h
      dsimp only at h
      cases he : eval sys.sem n s₀ ts with
      | none => rw [he] at h; cases h
      | some result =>
        obtain ⟨s₁,x⟩ := result
        rw [he] at h
        have hturn : sys.Turn s ev s₁ := ⟨s₀,ts,x,hi,eval_sound he⟩
        exact (System.RunUnder.snoc .nil trivial hturn).trans (ih h)

/-- A bounded execution that ends is the run to its result. -/
theorem System.execute_run {sys : System S Ev T E} {n : ℕ} {s : S} {evs : List Ev} (d : S)
    (h : (sys.execute n s evs).isSome=true) : sys.Run s evs ((sys.execute n s evs).getD d) := by
  obtain ⟨s',hs⟩ := Option.isSome_iff_exists.mp h
  rw [hs]
  exact System.execute_sound hs

end ProxyDroid.CallSemantics
