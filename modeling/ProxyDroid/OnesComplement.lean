import Mathlib.Tactic.Common

/-!
# Sums of sixteen-bit words with end-around carry

The words of a byte list are added up, and the carries are added to the low half until there are
none. The result is determined by the sum modulo `65535`: it is zero for no other sum than zero,
so a positive multiple of `65535` becomes `65535`.
-/

namespace ProxyDroid.OnesComplement

/-- The sum of the big-endian words; a last byte alone is the high half of a word. -/
def sum16 : List UInt8 → ℕ
  | [] => 0
  | [a] => a.toNat*256
  | a::b::rest => a.toNat*256+b.toNat+sum16 rest

/-- The carries are added to the low half as long as there are any. -/
def foldLoop : ℕ → ℕ → ℕ
  | 0,t => t
  | n+1,t => if t/65536=0 then t else foldLoop n (t%65536+t/65536)

/-- The result; no sum needs more rounds than its value. -/
def fold (t : ℕ) : ℕ := foldLoop t t

theorem foldLoop_lt {n t : ℕ} (h : t≤n) : foldLoop n t<65536 := by
  induction n generalizing t with
  | zero => rw [foldLoop]; omega
  | succ n ih =>
    rw [foldLoop]
    split
    · omega
    · exact ih (by omega)

theorem foldLoop_mod (n t : ℕ) : foldLoop n t%65535=t%65535 := by
  induction n generalizing t with
  | zero => rfl
  | succ n ih =>
    rw [foldLoop]
    split
    · rfl
    · rw [ih]
      omega

theorem foldLoop_pos {n t : ℕ} (h : 0<t) : 0<foldLoop n t := by
  induction n generalizing t with
  | zero => exact h
  | succ n ih =>
    rw [foldLoop]
    split
    · exact h
    · exact ih (by omega)

theorem fold_lt (t : ℕ) : fold t<65536 := foldLoop_lt (Nat.le_refl t)

theorem fold_mod (t : ℕ) : fold t%65535=t%65535 := foldLoop_mod t t

theorem fold_pos {t : ℕ} (h : 0<t) : 0<fold t := foldLoop_pos h

/-- Positive multiples of `65535` become `65535`, and nothing else does. -/
theorem fold_eq_max {t : ℕ} (h : 0<t) : fold t=65535 ↔ t%65535=0 := by
  have hlt := fold_lt t
  have hmod := fold_mod t
  have hpos := fold_pos h
  omega

/-- Words behind an even number of bytes are added separately. -/
theorem sum16_append {xs : List UInt8} (ys : List UInt8) (h : xs.length%2=0) :
    sum16 (xs++ys)=sum16 xs+sum16 ys := by
  induction xs using sum16.induct with
  | case1 => simp [sum16]
  | case2 a => simp at h
  | case3 a b rest ih =>
    have hrest : rest.length%2=0 := by
      simp only [List.length_cons] at h
      omega
    rw [List.cons_append,List.cons_append,sum16,sum16,ih hrest]
    omega

/-- The sum of the words is bounded by their number. -/
theorem sum16_le (xs : List UInt8) : sum16 xs≤65535*((xs.length+1)/2) := by
  induction xs using sum16.induct with
  | case1 => simp [sum16]
  | case2 a =>
    have ha := a.toNat_lt
    simp only [sum16,List.length_singleton]
    omega
  | case3 a b rest ih =>
    have ha := a.toNat_lt
    have hb := b.toNat_lt
    simp only [sum16,List.length_cons]
    omega

end ProxyDroid.OnesComplement
