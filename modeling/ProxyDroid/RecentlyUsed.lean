import Mathlib.Data.Finset.Card
import Mathlib.Data.List.Nodup

/-!
# Lists in the order of last use

A list of at most `max` elements is kept in the order of their last use. An element that is used
goes to its end. If it is new and the list is full, the first one is dropped, and if it is new and
the list is not full, it may be refused. An element stays in the list as long as fewer than `max`
different ones have been used from its own last use on.
-/

namespace ProxyDroid.RecentlyUsed

variable {α : Type} [DecidableEq α]

/-- One use; `ok` says whether there is room for one more outside the list. -/
def use (max : ℕ) (ok : Bool) (x : α) (l : List α) : List α :=
  if x∈l then l.erase x++[x]
  else if l.length=max then l.tail++[x]
  else if ok=true then l++[x] else l

/-- Uses in turn. -/
def uses (max : ℕ) (xs : List (α×Bool)) (l : List α) : List α :=
  xs.foldl (fun l x => use max x.2 x.1 l) l

theorem use_nodup {max : ℕ} {ok : Bool} {x : α} {l : List α} (h : l.Nodup) :
    (use max ok x l).Nodup := by
  rw [use]
  split
  · have hx : x∉l.erase x := h.not_mem_erase
    exact (List.nodup_append_comm.mp (List.nodup_cons.mpr ⟨hx,h.erase x⟩))
  rename_i hx
  split
  · have htail : x∉l.tail := fun hmem => hx (List.mem_of_mem_tail hmem)
    exact (List.nodup_append_comm.mp (List.nodup_cons.mpr ⟨htail,h.tail⟩))
  split
  · exact (List.nodup_append_comm.mp (List.nodup_cons.mpr ⟨hx,h⟩))
  · exact h

/-- Nothing comes into the list but what is used. -/
theorem mem_of_mem_use {max : ℕ} {ok : Bool} {x y : α} {l : List α} (h : y∈use max ok x l) :
    y=x ∨ y∈l := by
  rw [use] at h
  split at h
  · rcases List.mem_append.mp h with h|h
    · exact .inr (List.mem_of_mem_erase h)
    · exact .inl (List.mem_singleton.mp h)
  split at h
  · rcases List.mem_append.mp h with h|h
    · exact .inr (List.mem_of_mem_tail h)
    · exact .inl (List.mem_singleton.mp h)
  split at h
  · rcases List.mem_append.mp h with h|h
    · exact .inr h
    · exact .inl (List.mem_singleton.mp h)
  · exact .inr h

/-- What is behind an element has been used since. -/
structure Since (used : Finset α) (x : α) (l : List α) : Prop where
  nodup : l.Nodup
  split : ∃ front back, l=front++x::back ∧ ∀ y∈back, y∈used

/-- Different elements that have been used, and one more. -/
theorem length_lt_card {used : Finset α} {back : List α} (hnodup : back.Nodup)
    (hback : ∀ y∈back, y∈used) {y : α} (hy : y∉back) : back.length< (insert y used).card := by
  have hcons : (y::back).Nodup := List.nodup_cons.mpr ⟨hy,hnodup⟩
  have hsub : (y::back).toFinset⊆insert y used := by
    intro z hz
    rcases List.mem_cons.mp (List.mem_toFinset.mp hz) with rfl|hz
    · exact Finset.mem_insert_self z used
    · exact Finset.mem_insert_of_mem (hback z hz)
  have hcard := Finset.card_le_card hsub
  rw [List.toFinset_card_of_nodup hcons,List.length_cons] at hcard
  omega

/-- The element itself is used again. -/
theorem Since.self {max : ℕ} {ok : Bool} {used : Finset α} {x : α} {l : List α}
    (h : Since used x l) : Since used x (use max ok x l) := by
  refine ⟨use_nodup h.nodup,?_⟩
  obtain ⟨front,back,rfl,-⟩ := h.split
  rw [use,if_pos (by simp)]
  exact ⟨_,[],rfl,by simp⟩

/-- Another element is used. -/
theorem Since.other {max : ℕ} {ok : Bool} {used : Finset α} {x y : α} {l : List α}
    (h : Since used x l) (hne : y≠x) (hfew : (insert y used).card< max) :
    Since (insert y used) x (use max ok y l) := by
  refine ⟨use_nodup h.nodup,?_⟩
  obtain ⟨front,back,rfl,hback⟩ := h.split
  have hmore : ∀ z∈back++[y], z∈insert y used := by
    intro z hz
    rcases List.mem_append.mp hz with hz|hz
    · exact Finset.mem_insert_of_mem (hback z hz)
    · rw [List.mem_singleton.mp hz]
      exact Finset.mem_insert_self y used
  rw [use]
  split
  · by_cases hfront : y∈front
    · refine ⟨front.erase y,back++[y],?_,hmore⟩
      rw [List.erase_append_left _ hfront,List.append_assoc,List.cons_append]
    · refine ⟨front,back.erase y++[y],?_,fun z hz => hmore z ?_⟩
      · rw [List.erase_append_right _ hfront,List.erase_cons_tail (by simpa using hne.symm),
          List.append_assoc,List.cons_append]
      · rcases List.mem_append.mp hz with hz|hz
        · exact List.mem_append_left _ (List.mem_of_mem_erase hz)
        · exact List.mem_append_right _ hz
  rename_i hy
  split
  · rename_i hfull
    -- the first element is another one, since the ones behind it are fewer than `max`
    cases front with
    | nil =>
      have hnodup : back.Nodup := (List.nodup_cons.mp h.nodup).2
      have hlt := length_lt_card hnodup hback (fun hmem => hy (List.mem_cons_of_mem x hmem))
      rw [List.nil_append,List.length_cons] at hfull
      omega
    | cons z front => exact ⟨front,back++[y],by simp,hmore⟩
  split
  · exact ⟨front,back++[y],by simp,hmore⟩
  · exact ⟨front,back,rfl,fun z hz => Finset.mem_insert_of_mem (hback z hz)⟩

/-- An element stays as long as fewer than `max` others are used. -/
theorem Since.mem_uses {max : ℕ} {x : α} {xs : List (α×Bool)} {used : Finset α} {l : List α}
    (h : Since used x l)
    (hfew : (used∪(xs.map Prod.fst).toFinset.erase x).card< max) : x∈uses max xs l := by
  induction xs generalizing used l with
  | nil =>
    obtain ⟨front,back,rfl,-⟩ := h.split
    simp [uses]
  | cons y xs ih =>
    rw [uses,List.foldl_cons]
    rw [List.map_cons,List.toFinset_cons] at hfew
    by_cases hy : y.1=x
    · rw [hy,Finset.erase_insert_eq_erase] at hfew
      rw [hy]
      exact ih h.self hfew
    · rw [Finset.erase_insert_of_ne hy,Finset.union_insert,←Finset.insert_union] at hfew
      have hsub : insert y.1 used⊆insert y.1 used∪(xs.map Prod.fst).toFinset.erase x :=
        Finset.subset_union_left
      have hcard := Finset.card_le_card hsub
      exact ih (h.other hy (by omega)) hfew

end ProxyDroid.RecentlyUsed
