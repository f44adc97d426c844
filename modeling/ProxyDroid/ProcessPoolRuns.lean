import ProxyDroid.ProcessPool

/-!
# Runs of the guarded process pool

The invariant of all interleavings: monitors exclude each other, the sets hold
the threads of their calls, every set is retired by one call of `killAll`, and
that call leaves no thread behind.
-/

namespace ProxyDroid.ProcessPoolRuns

open CallSemantics ProcessGuard ProcessPool

attribute [local grind =] StartPc.holds KillPc.holds StartPc.born StartPc.taken KillPc.set
  Function.update_apply

variable {s s' : Pool} {t : Step} {g g' : Guard}

/-- Who holds which monitor. -/
structure Locked (s : Pool) : Prop where
  /-- Calls of `start`. -/
  start : ∀ i set, s.holder set=some (.start i) ↔ (s.starts i).holds=some set
  /-- Calls of `killAll`. -/
  kill : ∀ j set, s.holder set=some (.kill j) ↔ (s.kills j).holds=some set

/-- Two calls are never inside the blocks of one set. -/
theorem Locked.exclusive (h : Locked s) {i j set : ℕ} (hs : (s.starts i).holds=some set) :
    (s.kills j).holds≠some set := by
  intro hk
  have hstart := (h.start i set).mpr hs
  rw [(h.kill j set).mpr hk] at hstart
  cases hstart

theorem Locked.acts (h : Locked s) (ha : Acts s t s') : Locked s' := by
  obtain ⟨hs,hk⟩ := h
  cases ha with
  | @leave i set b h =>
    have hown : s.holder set=some (.start i) := (hs i set).mpr (by rw [h,StartPc.holds])
    constructor <;> simp only [Pool.setStart,Pool.setHolder] <;> grind
  | @unlock j set joined b h =>
    have hown : s.holder set=some (.kill j) := (hk j set).mpr (by rw [h,KillPc.holds])
    constructor <;> simp only [Pool.setKill,Pool.setHolder] <;> grind
  | enter b h hf | lock b h hf =>
    constructor <;> simp only [Pool.setStart,Pool.setKill,Pool.setHolder] <;> grind
  | read | spawn | add | take | swap | interrupt | interrupted | join | giveUp | joined | guard | exit =>
    constructor <;> simp only [Pool.setStart,Pool.setKill,Pool.setGuard,Pool.addMember] <;> grind

/-- Each set is retired by at most one call of `killAll`. -/
structure Retired (s : Pool) : Prop where
  /-- A retired set is not the current one. -/
  lt : ∀ j set, (s.kills j).set=some set → set<s.current
  /-- No two calls retire the same set. -/
  unique : ∀ j j' set, (s.kills j).set=some set → (s.kills j').set=some set → j=j'

theorem Retired.acts (h : Retired s) (ha : Acts s t s') : Retired s' := by
  obtain ⟨hlt,hu⟩ := h
  cases ha with
  | swap b h =>
    constructor <;> simp only [Pool.setKill] <;> grind
  | lock | interrupt | interrupted | join | giveUp | joined | unlock =>
    constructor <;> simp only [Pool.setKill,Pool.setHolder,Pool.setGuard] <;> grind
  | read | enter | spawn | add | leave | take | guard | exit => exact ⟨hlt,hu⟩

/-- Whether the guard thread of a call of `start` is in its set. -/
def enrolled : StartPc → Bool
  | .added _ | .waiting | .finished _ => true
  | _ => false

/-- Which threads exist, and which set they are in. -/
structure Enrolled (s : Pool) : Prop where
  /-- The thread of a call exists once the call has started it. -/
  born : ∀ i, (s.guards i).pc=.unborn ↔ (s.starts i).born=false
  /-- It belongs to the set whose block the call is in. -/
  host : ∀ i set, (s.starts i).born=true → (s.starts i).holds=some set → (s.guards i).host=set
  /-- A set holds the threads that belong to it. -/
  member : ∀ i set, i∈s.members set ↔ enrolled (s.starts i)=true ∧ (s.guards i).host=set
  /-- A thread is in its set once. -/
  nodup : ∀ set, (s.members set).Nodup

/-- Changes of a guard that keep its set. -/
theorem Enrolled.setGuard (h : Enrolled s) {i : ℕ} (hpc : g.pc=.unborn ↔ (s.guards i).pc=.unborn)
    (hhost : g.host=(s.guards i).host) : Enrolled (s.setGuard i g) := by
  obtain ⟨hb,hh,hm,hn⟩ := h
  constructor <;> simp only [Pool.setGuard] <;> grind

/-- Moves of a start call that neither create nor enrol a thread. -/
theorem Enrolled.setStart (h : Enrolled s) {i : ℕ} {pc : StartPc}
    (hborn : pc.born=(s.starts i).born) (hen : enrolled pc=enrolled (s.starts i))
    (hholds : pc.born=true → pc.holds=none) : Enrolled (s.setStart i pc) := by
  obtain ⟨hb,hh,hm,hn⟩ := h
  constructor <;> simp only [Pool.setStart] <;> grind

theorem Enrolled.acts (h : Enrolled s) (ha : Acts s t s') : Enrolled s' := by
  cases ha with
  | read b hpc => exact h.setStart (by rw [hpc]; rfl) (by rw [hpc]; rfl) (fun hf => by cases hf)
  | @enter i set b hpc hf =>
    have h' : Enrolled (s.setHolder set (some (.start i))) := ⟨h.born,h.host,h.member,h.nodup⟩
    exact h'.setStart (by rw [Pool.setHolder,hpc]; rfl) (by rw [Pool.setHolder,hpc]; rfl)
      (fun hf => by cases hf)
  | @leave i set b hpc =>
    have h' : Enrolled (s.setHolder set none) := ⟨h.born,h.host,h.member,h.nodup⟩
    exact h'.setStart (by rw [Pool.setHolder,hpc]; rfl) (by rw [Pool.setHolder,hpc]; rfl)
      (fun _ => rfl)
  | @take i result g b hpc ht =>
    obtain ⟨r,-,hr⟩ := Option.map_eq_some_iff.mp ht
    cases hr
    have h' := h.setGuard (i:=i) (g:={ s.guards i with excQueue := none }) Iff.rfl rfl
    exact h'.setStart (by rw [Pool.setGuard,hpc]; rfl) (by rw [Pool.setGuard,hpc]; rfl)
      (fun _ => rfl)
  | @spawn i set b hpc =>
    obtain ⟨hb,hh,hm,hn⟩ := h
    constructor <;> simp only [Pool.setGuard,Pool.setStart] <;>
      grind [Guard.born,Guard.unborn,enrolled]
  | @add i set b hpc =>
    obtain ⟨hb,hh,hm,hn⟩ := h
    have hhost : (s.guards i).host=set := hh i set (by rw [hpc]; rfl) (by rw [hpc]; rfl)
    have hnew : i∉s.members set := fun hi => absurd ((hm i set).mp hi).1 (by rw [hpc]; simp [enrolled])
    constructor <;> simp only [Pool.addMember,Pool.setStart]
    · grind
    · grind
    · grind [enrolled]
    · intro set'
      rw [Function.update_apply]
      split
      · exact List.nodup_append.mpr ⟨hn set,by simp,by grind⟩
      · exact hn set'
  | @interrupt j set i todo b hpc =>
    have hp := Guard.interrupt_passive (s.guards i)
    have h' := h.setGuard (by rw [hp.pc]) hp.host
    exact ⟨h'.born,h'.host,h'.member,h'.nodup⟩
  | guard choice hm =>
    obtain ⟨⟨hold,-⟩,hnew,hhost⟩ := hm.alive
    exact h.setGuard ⟨fun hf => absurd hf hnew,fun hf => absurd hf hold⟩ hhost
  | exit he =>
    have hp := Guard.exit_passive he
    exact h.setGuard (by rw [hp.pc]) hp.host
  | swap | lock | interrupted | join | giveUp | joined | unlock =>
    exact ⟨h.born,h.host,h.member,h.nodup⟩

/-- Which threads have been interrupted. -/
structure Hunted (s : Pool) : Prop where
  /-- Only the call that has retired a set interrupts its threads. -/
  hit : ∀ i, (s.guards i).hit=true →
    ∃ j, (s.kills j).set=some (s.guards i).host ∧ ∀ set, s.kills j≠.swapped set
  /-- The threads still to be interrupted are in the set and have not been. -/
  todo : ∀ j set todo, s.kills j=.interrupting set todo →
    todo.Nodup ∧ ∀ i∈todo, i∈s.members set ∧ (s.guards i).hit=false

/-- Own steps of a thread do not interrupt it. -/
theorem hit_move {current : Bool} (h : Move current g g') : g'.hit=g.hit := by
  cases h <;> rfl

/-- A thread that is not interrupted in a step is hit as before. -/
theorem happens_hit {k : ℕ} (h : Happens s s' t k g)
    (hk : ∀ j set todo, s.kills j=.interrupting set (k::todo) → s'.kills j≠.interrupting set todo) :
    g.hit=true → (s.guards k).hit=true ∧ g.host=(s.guards k).host := by
  intro hg
  cases h with
  | same => exact ⟨hg,rfl⟩
  | born => cases hg
  | take hpc hpc' ht =>
    obtain ⟨r,-,hr⟩ := Option.map_eq_some_iff.mp ht
    cases hr
    exact ⟨hg,rfl⟩
  | interrupt h h' => exact absurd h' (hk _ _ _ h)
  | move choice ht hm => exact ⟨hit_move hm ▸ hg,hm.alive.2.2⟩
  | exit he =>
    unfold Guard.exit at he
    split at he
    · cases he
      exact ⟨hg,rfl⟩
    · cases he

/-- A call of `killAll` that has entered its block goes on with its set. -/
theorem kill_set (ha : Acts s t s') {j set : ℕ} (hs : (s.kills j).set=some set)
    (hn : ∀ x, s.kills j≠.swapped x) :
    (s'.kills j).set=some set ∧ ∀ x, s'.kills j≠.swapped x := by
  cases ha with
  | swap | lock | interrupt | interrupted | join | giveUp | joined | unlock =>
    simp only [Pool.setKill,Pool.setHolder,Pool.setGuard]
    grind
  | read | enter | spawn | add | leave | take | guard | exit => exact ⟨hs,hn⟩

/-- Threads are not taken out of their set. -/
theorem members_mono (ha : Acts s t s') {i set : ℕ} (hi : i∈s.members set) : i∈s'.members set := by
  cases ha with
  | add =>
    simp only [Pool.addMember,Pool.setStart]
    grind
  | read | enter | spawn | leave | take | swap | lock | interrupt | interrupted | join | giveUp
  | joined | unlock | guard | exit => exact hi

/-- How a call of `killAll` comes to interrupt the rest of its set. -/
theorem kill_interrupting (ha : Acts s t s') {j set : ℕ} {todo : List ℕ}
    (hk : s'.kills j=.interrupting set todo) : s.kills j=.interrupting set todo ∨
      (∃ i, s.kills j=.interrupting set (i::todo)) ∨ (s.kills j=.swapped set ∧ todo=s.members set) := by
  cases ha with
  | swap | lock | interrupt | interrupted | join | giveUp | joined | unlock =>
    simp only [Pool.setKill,Pool.setHolder,Pool.setGuard] at hk
    grind
  | read | enter | spawn | add | leave | take | guard | exit => exact .inl hk

/-- A thread that is being interrupted was not before, and its set is retired
by the call that interrupts it. -/
theorem Hunted.target (h : Hunted s) (he : Enrolled s) {j set i : ℕ} {todo : List ℕ}
    (hk : s.kills j=.interrupting set (i::todo)) :
    (s.guards i).hit=false ∧ (s.guards i).host=set := by
  obtain ⟨hmember,hhit⟩ := (h.todo j set _ hk).2 i (by simp)
  exact ⟨hhit,((he.member i set).mp hmember).2⟩

/-- A thread that is created in a step did not exist before. -/
theorem Enrolled.unborn (he : Enrolled s) {i set : ℕ} (hpc : s.starts i=.entered set) :
    (s.guards i).pc=.unborn := (he.born i).mpr (by rw [hpc]; rfl)

/-- A thread that exists keeps existing, in its set. -/
theorem Enrolled.kept (he : Enrolled s) (ha : Acts s t s') {i : ℕ} (hb : (s.guards i).pc≠.unborn) :
    (s'.guards i).pc≠.unborn ∧ (s'.guards i).host=(s.guards i).host := by
  rcases ha.guard_cases i with hp|⟨set,b,hpc,-⟩|⟨choice,-,hm⟩
  · exact ⟨by rw [hp.pc]; exact hb,hp.host⟩
  · exact absurd (he.unborn hpc) hb
  · exact hm.alive.2

/-- The threads of a set exist. -/
theorem Enrolled.member_born (he : Enrolled s) {i set : ℕ} (hi : i∈s.members set) :
    (s.guards i).pc≠.unborn := by
  intro hpc
  have hnot := (he.born i).mp hpc
  have hen := ((he.member i set).mp hi).1
  cases hs : s.starts i <;> simp [hs,StartPc.born,enrolled] at hnot hen

/-- A thread that its set's call does not interrupt in a step is not
interrupted at all. -/
theorem Hunted.spared (h : Hunted s) (he : Enrolled s) (hr : Retired s) (ha : Acts s t s')
    {i j set : ℕ} (hi : i∈s.members set) (hhit : (s.guards i).hit=false)
    (hset : (s.kills j).set=some set)
    (hj : ∀ rest, s.kills j=.interrupting set (i::rest) → s'.kills j≠.interrupting set rest) :
    (s'.guards i).hit=false := by
  by_contra hne
  have hnone : ∀ j' set' rest, s.kills j'=.interrupting set' (i::rest) →
      s'.kills j'≠.interrupting set' rest := by
    intro j' set' rest hj'
    have hsame : set'=set := (h.target he hj').2.symm.trans ((he.member i set).mp hi).2
    subst hsame
    have hjj : j'=j := hr.unique j' j set' (by rw [hj']; rfl) hset
    subst hjj
    exact hj rest hj'
  have hold := (happens_hit (ha.happens i) hnone (by simpa using hne)).1
  rw [hhit] at hold
  cases hold

theorem Hunted.acts (h : Hunted s) (he : Enrolled s) (hr : Retired s) (ha : Acts s t s') :
    Hunted s' := by
  constructor
  · intro i hi
    by_cases hk : ∃ j set todo, s.kills j=.interrupting set (i::todo)
    · obtain ⟨j,set,todo,hk⟩ := hk
      obtain ⟨hmember,-⟩ := (h.todo j set _ hk).2 i (by simp)
      have hset := kill_set ha (j:=j) (s:=s) (by rw [hk]; rfl) (by simp [hk])
      refine ⟨j,?_,hset.2⟩
      rw [(he.kept ha (he.member_born hmember)).2,(h.target he hk).2]
      exact hset.1
    · have hnone : ∀ j set todo, s.kills j=.interrupting set (i::todo) →
          s'.kills j≠.interrupting set todo := fun j set todo hj => absurd ⟨j,set,todo,hj⟩ hk
      obtain ⟨hold,hhost⟩ := happens_hit (ha.happens i) hnone hi
      obtain ⟨j,hset,hn⟩ := h.hit i hold
      exact ⟨j,by rw [hhost]; exact (kill_set ha hset hn).1,(kill_set ha hset hn).2⟩
  · intro j set todo hk
    rcases kill_interrupting ha hk with hsame|⟨i₀,hcons⟩|⟨hswapped,htodo⟩
    · obtain ⟨hnodup,htodo⟩ := h.todo j set todo hsame
      refine ⟨hnodup,fun i hi => ⟨members_mono ha (htodo i hi).1,?_⟩⟩
      refine h.spared he hr ha (htodo i hi).1 (htodo i hi).2 (j:=j) (by rw [hsame]; rfl) ?_
      intro rest hrest hrest'
      rw [hsame] at hrest
      rw [hk] at hrest'
      cases hrest
      simp at hrest'
    · obtain ⟨hnodup,htodo⟩ := h.todo j set _ hcons
      obtain ⟨hfirst,hrest⟩ := List.nodup_cons.mp hnodup
      refine ⟨hrest,fun i hi => ?_⟩
      have hold := htodo i (List.mem_cons_of_mem _ hi)
      refine ⟨members_mono ha hold.1,h.spared he hr ha hold.1 hold.2 (j:=j) (by rw [hcons]; rfl) ?_⟩
      intro rest hrest hrest'
      rw [hcons] at hrest
      cases hrest
      exact hfirst hi
    · subst htodo
      refine ⟨he.nodup set,fun i hi => ?_⟩
      have hhit : (s.guards i).hit=false := by
        by_contra hne
        obtain ⟨j',hset,hn⟩ := h.hit i (by simpa using hne)
        rw [((he.member i set).mp hi).2] at hset
        have hjj := hr.unique j' j set hset (by rw [hswapped]; rfl)
        subst hjj
        exact hn set hswapped
      refine ⟨members_mono ha hi,h.spared he hr ha hi hhit (j:=j) (by rw [hswapped]; rfl) ?_⟩
      intro rest hrest
      rw [hswapped] at hrest
      cases hrest

/-- Every guard keeps its invariant in every step. -/
theorem guards_acts (h : Hunted s) (he : Enrolled s) (hg : ∀ i, (s.guards i).Sound)
    (ha : Acts s t s') (i : ℕ) : (s'.guards i).Sound := by
  have hh := ha.happens i
  generalize s'.guards i=g at hh ⊢
  cases hh with
  | same => exact hg i
  | born hpc onRestartCallback => exact Guard.sound_born _ _
  | take hpc hpc' ht => exact ((hg i).outside_take ht).sound (hg i)
  | interrupt hk => exact ((hg i).outside_interrupt (h.target he hk).1).sound (hg i)
  | move choice ht hm => exact (hg i).move hm
  | exit hx => exact ((hg i).outside_exit hx).sound (hg i)

/-- A thread that has ended, or that will never start a process. -/
def Over (g : Guard) : Prop := g.pc=.done ∨ g.Barren

/-- A thread that has ended stays so. -/
theorem done_acts (he : Enrolled s) (ha : Acts s t s') {i : ℕ} (hd : (s.guards i).pc=.done) :
    (s'.guards i).pc=.done ∧ (s'.guards i).spawns=(s.guards i).spawns := by
  rcases ha.guard_cases i with hp|⟨set,b,hpc,-⟩|⟨choice,-,hm⟩
  · exact ⟨hp.pc.trans hd,hp.spawns⟩
  · have hu := he.unborn hpc
    rw [hd] at hu
    cases hu
  · exact absurd hd hm.alive.1.2

/-- A thread of a retired set that has started nothing starts nothing. -/
theorem barren_acts (ha : Acts s t s') {i : ℕ} (hlt : (s.guards i).host<s.current)
    (hb : (s.guards i).Barren) : (s'.guards i).Barren := by
  rcases ha.guard_cases i with hp|⟨set,b,-,hg⟩|⟨choice,-,hm⟩
  · exact hb.passive hp
  · rw [hg]
    exact ⟨rfl,rfl,by simp [Guard.born]⟩
  · have hstale : decide ((s.guards i).host=s.current)=false := by simp; omega
    rw [hstale] at hm
    exact hb.move hm

/-- What a thread of a retired set has started stays as it is once it is over. -/
theorem over_acts (he : Enrolled s) (ha : Acts s t s') {i : ℕ} (hlt : (s.guards i).host<s.current)
    (ho : Over (s.guards i)) : Over (s'.guards i) ∧ (s'.guards i).spawns=(s.guards i).spawns := by
  rcases ho with hd|hb
  · exact ⟨.inl (done_acts he ha hd).1,(done_acts he ha hd).2⟩
  · have hnext := barren_acts ha hlt hb
    exact ⟨.inr hnext,hnext.1.trans hb.1.symm⟩

/-- A thread that comes into being in a step has started nothing. -/
theorem born_barren (ha : Acts s t s') {i : ℕ} (hu : (s.guards i).pc=.unborn)
    (hb : (s'.guards i).pc≠.unborn) : (s'.guards i).Barren := by
  rcases ha.guard_cases i with hp|⟨set,b,-,hg⟩|⟨choice,-,hm⟩
  · exact absurd (hp.pc.trans hu) hb
  · rw [hg]
    exact ⟨rfl,rfl,by simp [Guard.born]⟩
  · exact absurd hu hm.alive.1.1

/-- What `killAll` leaves of the set it has retired. -/
structure Joined (s : Pool) : Prop where
  /-- The threads it has joined have ended. -/
  joining : ∀ j set todo, s.kills j=.joining set todo →
    ∀ i∈s.members set, i∈todo ∨ (s.guards i).pc=.done
  /-- At the end of the block all threads of the set have ended. -/
  leaving : ∀ j set, s.kills j=.leaving set true → ∀ i∈s.members set, (s.guards i).pc=.done
  /-- Afterwards the threads that belong to the set are over. -/
  returned : ∀ j set, s.kills j=.returned set true →
    ∀ i, (s.guards i).pc≠.unborn → (s.guards i).host=set → Over (s.guards i)

/-- Nobody changes a set whose monitor `killAll` holds. -/
theorem Locked.members (h : Locked s) (ha : Acts s t s') {j set : ℕ}
    (hk : (s.kills j).holds=some set) : s'.members set=s.members set := by
  cases ha with
  | @add i set' b hpc =>
    have hne : set≠set' := by
      rintro rfl
      exact h.exclusive (i:=i) (by rw [hpc]; rfl) hk
    simp only [Pool.addMember,Pool.setStart]
    exact Function.update_of_ne hne _ _
  | read | enter | spawn | leave | take | swap | lock | interrupt | interrupted | join | giveUp
  | joined | unlock | guard | exit => rfl

/-- How a call of `killAll` comes to join the rest of its set. -/
theorem kill_joining (ha : Acts s t s') {j set : ℕ} {todo : List ℕ}
    (hk : s'.kills j=.joining set todo) : s.kills j=.joining set todo ∨
      (∃ i, s.kills j=.joining set (i::todo) ∧ (s.guards i).pc=.done) ∨
      (s.kills j=.interrupting set [] ∧ todo=s.members set) := by
  cases ha with
  | swap | lock | interrupt | interrupted | join | giveUp | joined | unlock =>
    simp only [Pool.setKill,Pool.setHolder,Pool.setGuard] at hk
    grind
  | read | enter | spawn | add | leave | take | guard | exit => exact .inl hk

/-- How a call of `killAll` comes to leave its block with all threads joined. -/
theorem kill_leaving (ha : Acts s t s') {j set : ℕ} (hk : s'.kills j=.leaving set true) :
    s.kills j=.leaving set true ∨ s.kills j=.joining set [] := by
  cases ha with
  | swap | lock | interrupt | interrupted | join | giveUp | joined | unlock =>
    simp only [Pool.setKill,Pool.setHolder,Pool.setGuard] at hk
    grind
  | read | enter | spawn | add | leave | take | guard | exit => exact .inl hk

/-- How a call of `killAll` comes to return with all threads joined. -/
theorem kill_returned (ha : Acts s t s') {j set : ℕ} (hk : s'.kills j=.returned set true) :
    s.kills j=.returned set true ∨ s.kills j=.leaving set true := by
  cases ha with
  | swap | lock | interrupt | interrupted | join | giveUp | joined | unlock =>
    simp only [Pool.setKill,Pool.setHolder,Pool.setGuard] at hk
    grind
  | read | enter | spawn | add | leave | take | guard | exit => exact .inl hk

theorem Joined.acts (h : Joined s) (hl : Locked s) (he : Enrolled s) (hr : Retired s)
    (ha : Acts s t s') : Joined s' := by
  have hmembers : ∀ {j set i}, (s.kills j).holds=some set → i∈s'.members set → i∈s.members set := by
    intro j set i hk hi
    rw [hl.members ha hk] at hi
    exact hi
  constructor
  · intro j set todo hk i hi
    rcases kill_joining ha hk with hsame|⟨i₀,hcons,hd⟩|⟨hnil,htodo⟩
    · have hold := hmembers (j:=j) (by rw [hsame]; rfl) hi
      exact (h.joining j set todo hsame i hold).imp_right (fun hd => (done_acts he ha hd).1)
    · have hold := hmembers (j:=j) (by rw [hcons]; rfl) hi
      rcases h.joining j set _ hcons i hold with hin|hdone
      · rcases List.mem_cons.mp hin with rfl|hin
        · exact .inr (done_acts he ha hd).1
        · exact .inl hin
      · exact .inr (done_acts he ha hdone).1
    · subst htodo
      exact .inl (hmembers (j:=j) (by rw [hnil]; rfl) hi)
  · intro j set hk i hi
    rcases kill_leaving ha hk with hsame|hnil
    · exact (done_acts he ha (h.leaving j set hsame i (hmembers (j:=j) (by rw [hsame]; rfl) hi))).1
    · have hold := hmembers (j:=j) (by rw [hnil]; rfl) hi
      exact (done_acts he ha ((h.joining j set [] hnil i hold).resolve_left (by simp))).1
  · intro j set hk i hb hhost
    by_cases hu : (s.guards i).pc=.unborn
    · exact .inr (born_barren ha hu hb)
    · have hkept := (he.kept ha hu).2
      rw [hkept] at hhost
      have hset : (s.kills j).set=some set := by
        rcases kill_returned ha hk with hsame|hleaving
        · rw [hsame]; rfl
        · rw [hleaving]; rfl
      have hover : Over (s.guards i) := by
        rcases kill_returned ha hk with hsame|hleaving
        · exact h.returned j set hsame i hu hhost
        · have hborn : (s.starts i).born=true := by
            by_contra hne
            exact hu ((he.born i).mpr (by simpa using hne))
          have hfree : (s.starts i).holds≠some set := by
            intro hs
            exact hl.exclusive hs (j:=j) (by rw [hleaving]; rfl)
          have hen : enrolled (s.starts i)=true := by
            cases hs : s.starts i with
            | idle | read | entered => simp [hs,StartPc.born] at hborn
            | spawned set' =>
              have hsame := he.host i set' hborn (by rw [hs]; rfl)
              rw [hhost] at hsame
              subst hsame
              exact absurd (by rw [hs]; rfl) hfree
            | added | waiting | finished => rfl
          exact .inl (h.leaving j set hleaving i ((he.member i set).mpr ⟨hen,hhost⟩))
      exact (over_acts he ha (by rw [hhost]; exact hr.lt j set hset) hover).1

/-- The results of a guard are the one its caller has taken and the one that
waits in the queue. -/
def Delivered (s : Pool) : Prop :=
  ∀ i, (s.guards i).queued=(s.starts i).taken++(s.guards i).excQueue.toList

theorem Delivered.acts (h : Delivered s) (ha : Acts s t s') : Delivered s' := by
  intro k
  have hk := h k
  cases ha with
  | @read i hpc | @enter i set hpc | @add i set hpc | @leave i set b hpc =>
    simp only [Pool.setStart,Pool.setHolder,Pool.addMember]
    grind
  | @spawn i set b hpc =>
    simp only [Pool.setStart,Pool.setGuard]
    grind [Guard.born,Guard.unborn]
  | @take i result g b hpc ht =>
    obtain ⟨r,hq,hr⟩ := Option.map_eq_some_iff.mp ht
    cases hr
    simp only [Pool.setStart,Pool.setGuard]
    grind
  | @interrupt j set i todo b hpc =>
    have hsame : (s.guards i).interrupt.queued=(s.guards i).queued ∧
        (s.guards i).interrupt.excQueue=(s.guards i).excQueue := by
      unfold Guard.interrupt
      split <;> exact ⟨rfl,rfl⟩
    simp only [Pool.setKill,Pool.setGuard]
    grind
  | @guard i g choice hm =>
    simp only [Pool.setGuard]
    by_cases hki : k=i
    · subst hki
      rw [Function.update_self]
      cases hm with
      | reports hre hp hi hq =>
        rw [hq] at hk
        simp [hk]
      | goes | throws | started | threw | destroyed => exact hk
    · rw [Function.update_of_ne hki]
      exact hk
  | @exit i g hx =>
    unfold Guard.exit at hx
    split at hx
    · cases hx
      simp only [Pool.setGuard]
      grind
    · cases hx
  | swap | lock | interrupted | join | giveUp | joined | unlock => exact hk

/-- The invariant of the pool. -/
structure Sound (s : Pool) : Prop where
  /-- Monitors exclude each other. -/
  locked : Locked s
  /-- Sets hold the threads of their calls. -/
  enrolled : Enrolled s
  /-- Sets are retired once. -/
  retired : Retired s
  /-- Threads are interrupted once. -/
  hunted : Hunted s
  /-- Each guard keeps its invariant. -/
  guards : ∀ i, (s.guards i).Sound
  /-- `killAll` waits for the threads of its set. -/
  joined : Joined s
  /-- Results reach the caller. -/
  delivered : Delivered s

theorem sound_fresh : Sound Pool.fresh where
  locked := by constructor <;> simp [Pool.fresh,StartPc.holds,KillPc.holds]
  enrolled := by constructor <;> simp [Pool.fresh,StartPc.born,Guard.unborn,ProcessPoolRuns.enrolled]
  retired := by constructor <;> simp [Pool.fresh,KillPc.set]
  hunted := by constructor <;> simp [Pool.fresh,Guard.unborn]
  guards := fun _ => Guard.sound_unborn
  joined := by constructor <;> simp [Pool.fresh]
  delivered := by simp [Delivered,Pool.fresh,Guard.unborn,StartPc.taken]

theorem Sound.acts (h : Sound s) (ha : Acts s t s') : Sound s' where
  locked := h.locked.acts ha
  enrolled := h.enrolled.acts ha
  retired := h.retired.acts ha
  hunted := h.hunted.acts h.enrolled h.retired ha
  guards := guards_acts h.hunted h.enrolled h.guards ha
  joined := h.joined.acts h.locked h.enrolled h.retired ha
  delivered := h.delivered.acts ha

/-- Every state of every run keeps the invariant. -/
theorem Sound.run {legacy : Bool} {ok : Pool → Step → Prop} {steps : List Step} (h : Sound s)
    (hr : (pool legacy).RunUnder ok s steps s') : Sound s' :=
  hr.invariant (fun _ _ _ hs _ ht => hs.acts (step_acts (System.turn_ofStep.mp ht))) h

end ProxyDroid.ProcessPoolRuns
