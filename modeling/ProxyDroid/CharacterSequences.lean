import Mathlib.Data.List.Basic
import Mathlib.Data.List.Flatten

/-!
# Strings and the library functions that cut them up

Strings are sequences of 16-bit code units. A string tokenizer returns its delimiters and the
longest runs between them; a split at a separator of two different characters returns the
pieces between its occurrences, and joining puts the separator back. Since the two characters
differ, no occurrence overlaps the end of a piece and the separator after it, so splitting what
was joined splits each part by itself.
-/

namespace ProxyDroid.CharacterSequences

/-- A string as its sequence of 16-bit code units. -/
abbrev JString := List UInt16

/-- A text whose characters are one code unit each. -/
def ofText (text : String) : JString := text.toList.map fun c => UInt16.ofNat c.toNat

section StringTokenizer

/-- The tokens of a string tokenizer that also returns its delimiters: each delimiter by
itself, and between them the longest runs of other characters. -/
def tokens (delims : JString) : JString → List JString
  | [] => []
  | c::rest =>
    if c∈delims then [c]::tokens delims rest
    else
      match tokens delims rest with
      | (d::run)::later => if d∈delims then [c]::(d::run)::later else (c::d::run)::later
      | later => [c]::later

/-- What a tokenizer can return: a delimiter, or a run of other characters. -/
inductive Token (delims : JString) : JString → Prop where
  /-- A delimiter. -/
  | delim {c : UInt16} (mem : c∈delims) : Token delims [c]
  /-- A run of other characters. -/
  | run {c : UInt16} {rest : JString} (free : ∀ d∈c::rest,d∉delims) : Token delims (c::rest)

/-- The tokens make up the text. -/
theorem tokens_flatten (delims text : JString) : (tokens delims text).flatten=text := by
  induction text with
  | nil => rfl
  | cons c rest ih =>
    rw [tokens]
    split_ifs
    · simp [ih]
    · split
      case h_1 d run later hr =>
        have hf : d::run++later.flatten=rest := by simpa [hr] using ih
        split_ifs <;> simp [← hf]
      case h_2 => simp [ih]

/-- Every token is a delimiter or a run of other characters. -/
theorem tokens_shape (delims text : JString) : ∀ token∈tokens delims text,Token delims token := by
  induction text with
  | nil => simp [tokens]
  | cons c rest ih =>
    rw [tokens]
    split_ifs with hc
    · simpa using ⟨Token.delim hc,ih⟩
    · have hone : Token delims [c] := Token.run (by simpa using hc)
      split
      case h_1 d run later hr =>
        rw [hr] at ih
        rw [List.forall_mem_cons] at ih
        split_ifs with hd
        · simpa using ⟨hone,ih⟩
        · have hrun : ∀ e∈d::run,e∉delims := by
            cases ih.1 with
            | delim mem => exact absurd mem hd
            | run free => exact free
          rw [List.forall_mem_cons]
          exact ⟨Token.run (List.forall_mem_cons.mpr ⟨hc,hrun⟩),ih.2⟩
      case h_2 => simpa using ⟨hone,ih⟩

end StringTokenizer

section Split

variable {α : Type} [DecidableEq α]

/-- The pieces of a text between the occurrences of a separator of two characters, the empty
ones included. -/
def split (a b : α) : List α → List (List α)
  | [] => [[]]
  | [c] => [[c]]
  | c::d::rest =>
    if c=a ∧ d=b then []::split a b rest
    else
      match split a b (d::rest) with
      | [] => [[c]]
      | first::later => (c::first)::later

/-- The parts with the separator between them. -/
def joined (a b : α) (parts : List (List α)) : List α := [a,b].intercalate parts

omit [DecidableEq α] in
@[simp] theorem joined_singleton (a b : α) (part : List α) : joined a b [part]=part := by
  simp [joined]

omit [DecidableEq α] in
theorem joined_cons (a b : α) (part : List α) {parts : List (List α)} (h : parts≠[]) :
    joined a b (part::parts)=part++a::b::joined a b parts := by
  cases parts with
  | nil => exact absurd rfl h
  | cons second parts => simp [joined,List.intercalate]

omit [DecidableEq α] in
theorem joined_append (a b : α) {first second : List (List α)} (hf : first≠[]) (hs : second≠[]) :
    joined a b (first++second)=joined a b first++a::b::joined a b second := by
  induction first with
  | nil => exact absurd rfl hf
  | cons part first ih =>
    by_cases hn : first=[]
    · rw [hn,List.singleton_append,joined_cons a b part hs,joined_singleton]
    · rw [List.cons_append,joined_cons a b part (by simp [hn]),joined_cons a b part hn,ih hn]
      simp

variable {a b : α}

theorem split_ne_nil (text : List α) : split a b text≠[] := by
  fun_cases split a b text <;> simp_all

/-- Joining undoes splitting. -/
@[simp] theorem joined_split (text : List α) : joined a b (split a b text)=text := by
  fun_induction split a b text with
  | case1 => simp
  | case2 c => simp
  | case3 c d rest h ih => rw [joined_cons a b [] (split_ne_nil rest),ih,h.1,h.2]; rfl
  | case4 c d rest h hn ih => exact absurd hn (split_ne_nil (d::rest))
  | case5 c d rest h first later hs ih =>
    rw [hs] at ih
    by_cases hl : later=[]
    · rw [hl,joined_singleton] at ih ⊢
      rw [ih]
    · rw [joined_cons a b _ hl] at ih ⊢
      rw [List.cons_append,ih]

/-- Splitting at a separator in the text splits what is on either side of it. -/
theorem split_append (hab : a≠b) (text rest : List α) :
    split a b (text++a::b::rest)=split a b text++split a b rest := by
  fun_induction split a b text with
  | case1 => simp [split]
  | case2 c => simp [split,hab]
  | case3 c d text h ih => simp [split,h,ih]
  | case4 c d text h hn ih => exact absurd hn (split_ne_nil (d::text))
  | case5 c d text h first later hs ih =>
    rw [List.cons_append] at ih
    simp [split,h,ih,hs]

/-- Splitting what was joined splits each part. -/
theorem split_joined (hab : a≠b) {parts : List (List α)} (h : parts≠[]) :
    split a b (joined a b parts)=parts.flatMap (split a b) := by
  induction parts with
  | nil => exact absurd rfl h
  | cons part parts ih =>
    by_cases hn : parts=[]
    · simp [hn]
    · rw [joined_cons a b part hn,split_append hab,ih hn,List.flatMap_cons]

/-- A piece holds no separator. -/
theorem split_piece (text : List α) : ∀ piece∈split a b text,split a b piece=[piece] := by
  fun_induction split a b text with
  | case1 => simp_all [split]
  | case2 c => simp_all [split]
  | case3 c d rest hc ih => exact List.forall_mem_cons.mpr ⟨rfl,ih⟩
  | case4 c d rest hc hn ih => exact absurd hn (split_ne_nil (d::rest))
  | case5 c d rest hc first later hs ih =>
    rw [hs,List.forall_mem_cons] at ih
    refine List.forall_mem_cons.mpr ⟨?_,ih.2⟩
    cases first with
    | nil => rfl
    | cons e first =>
      -- The first piece starts where the text starts, so no separator begins with `c`.
      have he : e=d := by
        have hj := joined_split (a := a) (b := b) (d::rest)
        rw [hs] at hj
        by_cases hl : later=[]
        · rw [hl,joined_singleton] at hj
          exact (List.cons.inj hj).1
        · rw [joined_cons a b _ hl] at hj
          exact (List.cons.inj hj).1
      subst he
      rw [split,if_neg hc,ih.1]

/-- Joining the pieces of the parts is joining the parts. -/
theorem joined_flatMap_split {parts : List (List α)} :
    joined a b (parts.flatMap (split a b))=joined a b parts := by
  induction parts with
  | nil => rfl
  | cons part parts ih =>
    by_cases hn : parts=[]
    · simp [hn]
    · have hf : parts.flatMap (split a b)≠[] := by
        cases parts with
        | nil => exact absurd rfl hn
        | cons second parts => simp [split_ne_nil]
      rw [List.flatMap_cons,joined_append a b (split_ne_nil part) hf,joined_split,ih,
        joined_cons a b part hn]

/-- The pieces, each of them in a line by itself, are split no further. -/
theorem split_joined_pieces (hab : a≠b) {pieces : List (List α)} (hne : pieces≠[])
    (h : ∀ piece∈pieces,split a b piece=[piece]) : split a b (joined a b pieces)=pieces := by
  rw [split_joined hab hne]
  clear hne
  induction pieces with
  | nil => rfl
  | cons piece pieces ih =>
    rw [List.forall_mem_cons] at h
    rw [List.flatMap_cons,h.1,ih h.2,List.singleton_append]

omit [DecidableEq α] in
/-- Two ways to cut up every part into the same number of pieces give the same pieces only
when they cut up every part in the same way. -/
theorem flatMap_eq_flatMap_iff {β : Type} {f g : β → List α} {parts : List β}
    (h : ∀ part∈parts,(f part).length=(g part).length) :
    parts.flatMap f=parts.flatMap g ↔ ∀ part∈parts,f part=g part := by
  induction parts with
  | nil => simp
  | cons part parts ih =>
    rw [List.forall_mem_cons] at h ⊢
    rw [List.flatMap_cons,List.flatMap_cons,← ih h.2]
    exact ⟨fun he => List.append_inj he h.1,fun he => by rw [he.1,he.2]⟩

/-- Splitting what was joined and putting the pieces back in the opposite order reverses the
parts exactly when the pieces of every part read the same in both directions. -/
theorem joined_reverse_split (hab : a≠b) {parts : List (List α)} (hne : parts≠[]) :
    joined a b (split a b (joined a b parts)).reverse=joined a b parts.reverse ↔
      ∀ part∈parts,(split a b part).reverse=split a b part := by
  have hpieces : ∀ piece∈(parts.flatMap (split a b)).reverse,split a b piece=[piece] := by
    intro piece hp
    obtain ⟨part,-,hs⟩ := List.mem_flatMap.mp (List.mem_reverse.mp hp)
    exact split_piece part piece hs
  have hflat : (parts.flatMap (split a b)).reverse≠[] := by
    rw [← split_joined hab hne]
    simpa using split_ne_nil (a := a) (b := b) (joined a b parts)
  have hback : joined a b parts.reverse=joined a b (parts.reverse.flatMap (split a b)) :=
    joined_flatMap_split.symm
  have hrev : (parts.flatMap (split a b)).reverse=
      parts.reverse.flatMap fun part => (split a b part).reverse := List.reverse_flatMap
  have hcut : parts.reverse.flatMap (fun part => (split a b part).reverse)=
      parts.reverse.flatMap (split a b) ↔ ∀ part∈parts,(split a b part).reverse=split a b part := by
    rw [flatMap_eq_flatMap_iff (by simp)]
    simp only [List.mem_reverse]
  rw [split_joined hab hne,← hcut,← hrev,hback]
  constructor
  · intro he
    have hl := split_joined_pieces hab hflat hpieces
    rw [he,joined_flatMap_split,split_joined hab (by simpa using hne)] at hl
    exact hl.symm
  · intro he
    rw [he]

end Split

end ProxyDroid.CharacterSequences
