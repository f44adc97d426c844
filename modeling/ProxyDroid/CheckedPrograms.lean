import ProxyDroid.CallSemantics

/-!
# Programs with assertions and assumptions

A checked computation goes on with a value, stops since its surroundings never behave as it was
told, or faults: an assertion fails or released memory is used. `Safe` is the weakest
precondition that excludes the fault, and `Returns` the one that excludes both. Their rules
follow the shape of the program, and a system whose steps are all safe for an invariant never
faults on any run.
-/

namespace ProxyDroid.CheckedPrograms

open CallSemantics

/-- Why a computation does not go on. -/
inductive Stop where
  /-- The surroundings do not do that. -/
  | impossible
  /-- A failed assertion or an access to released memory. -/
  | fault
  deriving DecidableEq

/-- A computation with assertions and assumptions. -/
abbrev Checked (α : Type) := Except Stop α

/-- What the program asserts. -/
def demand (p : Prop) [Decidable p] : Checked Unit := if p then .ok () else .error .fault

/-- What the program is told about its surroundings. -/
def suppose (p : Prop) [Decidable p] : Checked Unit := if p then .ok () else .error .impossible

variable {α β S Ev : Type}

/-- The computation does not fault, and its value, if it has one, meets the condition. -/
def Safe : Checked α → (α → Prop) → Prop
  | .ok a,post => post a
  | .error .impossible,_ => True
  | .error .fault,_ => False

@[simp] theorem safe_ok {a : α} {post : α → Prop} : Safe (.ok a) post ↔ post a := Iff.rfl

@[simp] theorem safe_pure {a : α} {post : α → Prop} : Safe (pure a) post ↔ post a := Iff.rfl

@[simp] theorem safe_fault {post : α → Prop} : Safe (.error .fault) post ↔ False := Iff.rfl

@[simp] theorem safe_impossible {post : α → Prop} : Safe (.error .impossible) post ↔ True := Iff.rfl

@[simp] theorem safe_demand {p : Prop} [Decidable p] {post : Unit → Prop} :
    Safe (demand p) post ↔ p ∧ post () := by
  by_cases h : p
  · simp [demand,h]
  · simp [demand,h]

@[simp] theorem safe_suppose {p : Prop} [Decidable p] {post : Unit → Prop} :
    Safe (suppose p) post ↔ (p → post ()) := by
  by_cases h : p
  · simp [suppose,h]
  · simp [suppose,h]

@[simp] theorem safe_bind {m : Checked α} {f : α → Checked β} {post : β → Prop} :
    Safe (m >>= f) post ↔ Safe m (fun a => Safe (f a) post) := by
  cases m with
  | ok a => rfl
  | error stop => cases stop <;> rfl

@[simp] theorem safe_map {m : Checked α} {f : α → β} {post : β → Prop} :
    Safe (f <$> m) post ↔ Safe m (fun a => post (f a)) := by
  cases m with
  | ok a => rfl
  | error stop => cases stop <;> rfl

@[simp] theorem safe_ite {c : Prop} [Decidable c] {m n : Checked α} {post : α → Prop} :
    Safe (if c then m else n) post ↔ (c → Safe m post) ∧ (¬c → Safe n post) := by
  by_cases h : c
  · simp [h]
  · simp [h]

/-- A computation that goes on has met its first assertion. -/
theorem demand_bind_eq_ok {p : Prop} [Decidable p] {f : Unit → Checked α} {a : α} :
    (demand p >>= f)=.ok a ↔ p ∧ f ()=.ok a := by
  by_cases h : p
  · rw [demand,if_pos h]
    exact ⟨fun hok => ⟨h,hok⟩,fun hok => hok.2⟩
  · rw [demand,if_neg h]
    exact ⟨fun hok => (by cases hok),fun hok => absurd hok.1 h⟩

/-- A condition may be weakened. -/
theorem Safe.mono {m : Checked α} {post post' : α → Prop} (h : Safe m post)
    (himp : ∀ a, post a → post' a) : Safe m post' := by
  cases m with
  | ok a => exact himp a h
  | error stop => cases stop with
    | impossible => trivial
    | fault => exact h

/-- The value of a safe computation. -/
theorem Safe.of_ok {m : Checked α} {post : α → Prop} {a : α} (h : Safe m post) (hm : m=.ok a) :
    post a := by
  rw [hm] at h
  exact h

/-- A safe computation does not fault. -/
theorem Safe.ne_fault {m : Checked α} {post : α → Prop} (h : Safe m post) : m≠.error .fault := by
  rintro rfl
  exact h

/-- The computation goes on, with a value that meets the condition. -/
def Returns : Checked α → (α → Prop) → Prop
  | .ok a,post => post a
  | .error _,_ => False

@[simp] theorem returns_ok {a : α} {post : α → Prop} : Returns (.ok a) post ↔ post a := Iff.rfl

@[simp] theorem returns_pure {a : α} {post : α → Prop} : Returns (pure a) post ↔ post a := Iff.rfl

@[simp] theorem returns_demand {p : Prop} [Decidable p] {post : Unit → Prop} :
    Returns (demand p) post ↔ p ∧ post () := by
  by_cases h : p
  · simp [demand,h]
  · simp [demand,h,Returns]

@[simp] theorem returns_bind {m : Checked α} {f : α → Checked β} {post : β → Prop} :
    Returns (m >>= f) post ↔ Returns m (fun a => Returns (f a) post) := by
  cases m with
  | ok a => rfl
  | error stop => rfl

@[simp] theorem returns_ite {c : Prop} [Decidable c] {m n : Checked α} {post : α → Prop} :
    Returns (if c then m else n) post ↔ (c → Returns m post) ∧ (¬c → Returns n post) := by
  by_cases h : c
  · simp [h]
  · simp [h]

theorem Returns.mono {m : Checked α} {post post' : α → Prop} (h : Returns m post)
    (himp : ∀ a, post a → post' a) : Returns m post' := by
  cases m with
  | ok a => exact himp a h
  | error stop => exact h

/-- A computation that goes on is safe. -/
theorem Returns.safe {m : Checked α} {post : α → Prop} (h : Returns m post) : Safe m post := by
  cases m with
  | ok a => exact h
  | error stop => exact h.elim

/-- The value of a computation that goes on. -/
theorem Returns.value {m : Checked α} {post : α → Prop} (h : Returns m post) :
    ∃ a, m=.ok a ∧ post a := by
  cases m with
  | ok a => exact ⟨a,rfl,h⟩
  | error stop => exact h.elim

/-- Nested events: one step after the other, all of them possible. -/
def steps (step : Ev → S → Checked S) : List Ev → S → Checked S
  | [],s => .ok s
  | ev::evs,s => step ev s >>= steps step evs

/-- An invariant of the steps is kept by any number of nested ones. -/
theorem safe_steps {step : Ev → S → Checked S} {I : S → Prop}
    (hstep : ∀ s ev, I s → Safe (step ev s) I) (evs : List Ev) {s : S} (hs : I s) :
    Safe (steps step evs s) I := by
  induction evs generalizing s with
  | nil => exact hs
  | cons ev evs ih =>
    rw [steps,safe_bind]
    exact (hstep s ev hs).mono (fun s' hs' => ih hs')

/-- The system of the steps that neither stop nor fault. -/
def checked (step : Ev → S → Checked S) : System S Ev Empty Empty :=
  .ofStep (fun ev s => (step ev s).toOption)

/-- A turn of such a system is a step that goes on. -/
@[simp] theorem turn_checked {step : Ev → S → Checked S} {s s' : S} {ev : Ev} :
    (checked step).Turn s ev s' ↔ step ev s=.ok s' := by
  rw [checked,System.turn_ofStep]
  cases h : step ev s with
  | ok a => simp [Except.toOption]
  | error stop => simp [Except.toOption]

/-- An invariant for which every step is safe holds on every run. -/
theorem run_invariant {step : Ev → S → Checked S} {I : S → Prop}
    (hstep : ∀ s ev, I s → Safe (step ev s) I) {s s' : S} {evs : List Ev}
    (h : (checked step).Run s evs s') (hs : I s) : I s' :=
  h.invariant (fun s ev _ hs _ ht => (hstep s ev hs).of_ok (turn_checked.mp ht)) hs

/-- Steps that all go on are a run. -/
theorem run_of_steps {step : Ev → S → Checked S} {evs : List Ev} {s s' : S}
    (h : steps step evs s=.ok s') : (checked step).Run s evs s' := by
  induction evs generalizing s with
  | nil => cases h; exact .nil
  | cons ev evs ih =>
    rw [steps] at h
    cases hstep : step ev s with
    | ok s₁ =>
      rw [hstep] at h
      have hfirst : (checked step).Run s [ev] s₁ := .snoc .nil trivial (turn_checked.mpr hstep)
      exact hfirst.trans (ih h)
    | error stop => rw [hstep] at h; cases h

/-- The state after steps that all go on. -/
def stepped (step : Ev → S → Checked S) (evs : List Ev) (s : S) : S :=
  (steps step evs s).toOption.getD s

/-- Steps that all go on are the run to that state. -/
theorem run_stepped {step : Ev → S → Checked S} {evs : List Ev} {s : S}
    (h : (steps step evs s).toOption.isSome=true) : (checked step).Run s evs (stepped step evs s) := by
  rw [stepped]
  cases hsteps : steps step evs s with
  | ok s' => exact run_of_steps hsteps
  | error stop => rw [hsteps] at h; cases h

/-- No event faults in a state that a run has reached. -/
theorem run_never_faults {step : Ev → S → Checked S} {I : S → Prop}
    (hstep : ∀ s ev, I s → Safe (step ev s) I) {s s' : S} {evs : List Ev}
    (h : (checked step).Run s evs s') (hs : I s) (ev : Ev) : step ev s'≠.error .fault :=
  (hstep s' ev (run_invariant hstep h hs)).ne_fault

end ProxyDroid.CheckedPrograms
