import Mathlib.Data.List.Basic

/-!
# Lines of quoted words

A line over any alphabet with four marked characters: a space, an escape and two quotes.
Its reading goes character by character and keeps the word begun so far, if any. Its grammar
says which texts are lines: spaces, bare and escaped characters and quoted parts, one after
another. Every text is a line of the grammar followed by a tail, and the tail alone decides
whether the reading fails, so the reading and the grammar agree on every text.
-/

namespace ProxyDroid.CharacterQuoting

/-- The characters with a meaning of their own, all different. -/
structure Marks (α : Type) where
  /-- Separates words. -/
  space : α
  /-- Makes the next character literal. -/
  escape : α
  /-- Opens and closes a part in which every character is literal. -/
  single : α
  /-- Opens and closes a part in which this mark and the escape can be escaped. -/
  double : α
  /-- No two marks are the same character. -/
  nodup : [space,escape,single,double].Nodup

variable {α : Type}

namespace Marks

/-- The marks as a list. -/
def all (m : Marks α) : List α := [m.space,m.escape,m.single,m.double]

variable (m : Marks α)

/-- A mark is none of those before it. -/
@[simp] theorem distinct : m.escape≠m.space ∧ (m.single≠m.space ∧ m.single≠m.escape) ∧
    m.double≠m.space ∧ m.double≠m.escape ∧ m.double≠m.single := by
  have h := m.nodup
  simp only [List.nodup_cons,List.mem_cons,List.not_mem_nil,or_false,not_or] at h
  obtain ⟨⟨hescape,hsingle,hdouble⟩,⟨hsingle',hdouble'⟩,hdouble'',-⟩ := h
  exact ⟨Ne.symm hescape,⟨Ne.symm hsingle,Ne.symm hsingle'⟩,Ne.symm hdouble,Ne.symm hdouble',
    Ne.symm hdouble''⟩

end Marks

/-- Why a text is no line. -/
inductive Fault where
  /-- A quote is never closed. -/
  | quoteOpen
  /-- The text ends in an escape with nothing to escape. -/
  | escapeAtEnd
deriving DecidableEq, Repr

/-- What the reader is inside of, with the word begun so far. -/
inductive Mode (α : Type) where
  /-- Outside quotes; `none` when no word has begun. -/
  | plain (word : Option (List α))
  /-- Inside single quotes. -/
  | single (word : List α)
  /-- Inside double quotes. -/
  | double (word : List α)

/-- The words found first, in front of those read afterwards. -/
def prepend (words : List (List α)) (rest : Except Fault (List (List α))) :
    Except Fault (List (List α)) :=
  rest.map (words++·)

@[simp] theorem prepend_ok (words rest : List (List α)) :
    prepend words (.ok rest)=.ok (words++rest) := rfl

@[simp] theorem prepend_error (words : List (List α)) (fault : Fault) :
    prepend words (.error fault)=.error fault := rfl

@[simp] theorem prepend_nil (rest : Except Fault (List (List α))) : prepend [] rest=rest := by
  cases rest <;> rfl

@[simp] theorem prepend_prepend (first second : List (List α)) (rest : Except Fault (List (List α))) :
    prepend first (prepend second rest)=prepend (first++second) rest := by
  cases rest with
  | error fault => rfl
  | ok words => simp

section Reading

variable [DecidableEq α] (m : Marks α)

/-- Reads a text character by character: the words of the line it is, or why it is none. -/
def scan : Mode α → List α → Except Fault (List (List α))
  | .plain word,[] => .ok word.toList
  | .single _,[] => .error .quoteOpen
  | .double _,[] => .error .quoteOpen
  | .plain word,c::rest =>
    if c=m.space then prepend word.toList (scan (.plain none) rest)
    else if c=m.escape then
      match rest with
      | [] => .error .escapeAtEnd
      | d::rest => scan (.plain (some (word.getD []++[d]))) rest
    else if c=m.single then scan (.single (word.getD [])) rest
    else if c=m.double then scan (.double (word.getD [])) rest
    else scan (.plain (some (word.getD []++[c]))) rest
  | .single word,c::rest =>
    if c=m.single then scan (.plain (some word)) rest
    else scan (.single (word++[c])) rest
  | .double word,c::rest =>
    if c=m.double then scan (.plain (some word)) rest
    else if c=m.escape then
      match rest with
      | [] => .error .quoteOpen
      | d::rest =>
        if d=m.double ∨ d=m.escape then scan (.double (word++[d])) rest
        else scan (.double (word++[m.escape,d])) rest
    else scan (.double (word++[c])) rest

variable {m}

@[simp] theorem scan_plain_nil (word : Option (List α)) :
    scan m (.plain word) []=.ok word.toList := rfl

@[simp] theorem scan_single_nil (word : List α) :
    scan m (.single word) []=.error .quoteOpen := rfl

@[simp] theorem scan_double_nil (word : List α) :
    scan m (.double word) []=.error .quoteOpen := rfl

@[simp] theorem scan_plain_space (word : Option (List α)) (rest : List α) :
    scan m (.plain word) (m.space::rest)=prepend word.toList (scan m (.plain none) rest) := by
  cases rest <;> exact if_pos rfl

@[simp] theorem scan_plain_escape (word : Option (List α)) (d : α) (rest : List α) :
    scan m (.plain word) (m.escape::d::rest)=
      scan m (.plain (some (word.getD []++[d]))) rest :=
  (if_neg (by simp)).trans (if_pos rfl)

@[simp] theorem scan_plain_escape_nil (word : Option (List α)) :
    scan m (.plain word) [m.escape]=.error .escapeAtEnd :=
  (if_neg (by simp)).trans (if_pos rfl)

/-- In front of an escape it does not matter whether an empty word has begun. -/
theorem scan_plain_escape_congr {first second : Option (List α)}
    (h : first.getD []=second.getD []) (rest : List α) :
    scan m (.plain first) (m.escape::rest)=scan m (.plain second) (m.escape::rest) := by
  cases rest with
  | nil => simp
  | cons d rest => simp [h]

@[simp] theorem scan_plain_single (word : Option (List α)) (rest : List α) :
    scan m (.plain word) (m.single::rest)=scan m (.single (word.getD [])) rest := by
  cases rest <;>
    exact (if_neg (by simp)).trans ((if_neg (by simp)).trans (if_pos rfl))

@[simp] theorem scan_plain_double (word : Option (List α)) (rest : List α) :
    scan m (.plain word) (m.double::rest)=scan m (.double (word.getD [])) rest := by
  cases rest <;>
    exact (if_neg (by simp)).trans ((if_neg (by simp)).trans
      ((if_neg (by simp)).trans (if_pos rfl)))

/-- A character that is no mark joins the word. -/
theorem scan_plain_bare {c : α} (hc : c∉m.all) (word : Option (List α)) (rest : List α) :
    scan m (.plain word) (c::rest)=scan m (.plain (some (word.getD []++[c]))) rest := by
  simp only [Marks.all,List.mem_cons,List.not_mem_nil,or_false,not_or] at hc
  cases rest <;>
    exact (if_neg hc.1).trans ((if_neg hc.2.1).trans ((if_neg hc.2.2.1).trans (if_neg hc.2.2.2)))

@[simp] theorem scan_single_close (word rest : List α) :
    scan m (.single word) (m.single::rest)=scan m (.plain (some word)) rest :=
  if_pos rfl

/-- Inside single quotes any other character joins the word. -/
theorem scan_single_other {c : α} (hc : c≠m.single) (word rest : List α) :
    scan m (.single word) (c::rest)=scan m (.single (word++[c])) rest :=
  if_neg hc

@[simp] theorem scan_double_close (word rest : List α) :
    scan m (.double word) (m.double::rest)=scan m (.plain (some word)) rest := by
  cases rest <;> exact if_pos rfl

@[simp] theorem scan_double_escape_nil (word : List α) :
    scan m (.double word) [m.escape]=.error .quoteOpen :=
  (if_neg (Ne.symm m.distinct.2.2.2.1)).trans (if_pos rfl)

/-- Inside double quotes an escape in front of one of its two marks is dropped. -/
theorem scan_double_escape {d : α} (hd : d=m.double ∨ d=m.escape) (word rest : List α) :
    scan m (.double word) (m.escape::d::rest)=scan m (.double (word++[d])) rest :=
  (if_neg (Ne.symm m.distinct.2.2.2.1)).trans ((if_pos rfl).trans (if_pos hd))

/-- Inside double quotes an escape in front of any other character is kept. -/
theorem scan_double_kept {d : α} (hd : ¬(d=m.double ∨ d=m.escape)) (word rest : List α) :
    scan m (.double word) (m.escape::d::rest)=scan m (.double (word++[m.escape,d])) rest :=
  (if_neg (Ne.symm m.distinct.2.2.2.1)).trans ((if_pos rfl).trans (if_neg hd))

/-- Inside double quotes any other character joins the word. -/
theorem scan_double_other {c : α} (hd : c≠m.double) (he : c≠m.escape) (word rest : List α) :
    scan m (.double word) (c::rest)=scan m (.double (word++[c])) rest := by
  cases rest <;> exact (if_neg hd).trans (if_neg he)

/-- A run of characters that are no marks joins the word. -/
theorem scan_plain_run {text : List α} (ht : text≠[]) (hm : ∀ c∈text,c∉m.all)
    (word : Option (List α)) (rest : List α) :
    scan m (.plain word) (text++rest)=scan m (.plain (some (word.getD []++text))) rest := by
  induction text generalizing word with
  | nil => exact absurd rfl ht
  | cons c text ih =>
    rw [List.cons_append,scan_plain_bare (hm c List.mem_cons_self)]
    by_cases hn : text=[]
    · subst hn
      rfl
    · rw [ih hn (fun d hd => hm d (List.mem_cons_of_mem c hd))]
      simp

/-- Once a word has begun, characters that are no marks join it, if there are any. -/
theorem scan_plain_more {text : List α} (hm : ∀ c∈text,c∉m.all) (word rest : List α) :
    scan m (.plain (some word)) (text++rest)=scan m (.plain (some (word++text))) rest := by
  cases text with
  | nil => simp
  | cons c text => exact scan_plain_run (List.cons_ne_nil c text) hm (some word) rest

/-- Inside single quotes everything up to the closing mark joins the word. -/
theorem scan_single_run {text : List α} (ht : m.single∉text) (word rest : List α) :
    scan m (.single word) (text++rest)=scan m (.single (word++text)) rest := by
  induction text generalizing word with
  | nil => simp
  | cons c text ih =>
    rw [List.mem_cons,not_or] at ht
    rw [List.cons_append,scan_single_other (Ne.symm ht.1),ih ht.2]
    simp

/-- Inside double quotes a run without its two marks joins the word. -/
theorem scan_double_run {text : List α} (hd : m.double∉text) (he : m.escape∉text)
    (word rest : List α) :
    scan m (.double word) (text++rest)=scan m (.double (word++text)) rest := by
  induction text generalizing word with
  | nil => simp
  | cons c text ih =>
    rw [List.mem_cons,not_or] at hd he
    rw [List.cons_append,scan_double_other (Ne.symm hd.1) (Ne.symm he.1),ih hd.2 he.2]
    simp

end Reading

section Grammar

variable (m : Marks α)

/-- A piece of the text between two double quotes. -/
inductive Piece where
  /-- One literal character. -/
  | literal (c : α) (free : ¬(c=m.double ∨ c=m.escape))
  /-- An escaped quote or an escaped escape. -/
  | escaped (c : α) (mark : c=m.double ∨ c=m.escape)
  /-- An escape in front of another character; both stand for themselves. -/
  | kept (c : α) (free : ¬(c=m.double ∨ c=m.escape))

/-- An element of a line outside quotes. -/
inductive Item where
  /-- A space. -/
  | space
  /-- A character that is no mark. -/
  | bare (c : α) (free : c∉m.all)
  /-- An escaped character. -/
  | escaped (c : α)
  /-- A part between single quotes. -/
  | single (text : List α) (free : m.single∉text)
  /-- A part between double quotes. -/
  | double (pieces : List (Piece m))

/-- What follows the last whole element of a text. -/
inductive Tail where
  /-- Nothing: the text is a line. -/
  | closed
  /-- A single quote that is never closed. -/
  | single (text : List α) (free : m.single∉text)
  /-- A double quote that is never closed, maybe ending in an escape. -/
  | double (pieces : List (Piece m)) (pending : Bool)
  /-- An escape with nothing to escape. -/
  | escape

variable {m}

namespace Piece

/-- The piece as written. -/
def source : Piece m → List α
  | .literal c _ => [c]
  | .escaped c _ => [m.escape,c]
  | .kept c _ => [m.escape,c]

/-- What the piece stands for. -/
def value : Piece m → List α
  | .literal c _ => [c]
  | .escaped c _ => [c]
  | .kept c _ => [m.escape,c]

end Piece

namespace Item

/-- The element as written. -/
def source : Item m → List α
  | .space => [m.space]
  | .bare c _ => [c]
  | .escaped c => [m.escape,c]
  | .single text _ => m.single::text++[m.single]
  | .double pieces => m.double::pieces.flatMap Piece.source++[m.double]

/-- What the element adds to the word it stands in; a space ends the word. -/
def value : Item m → Option (List α)
  | .space => none
  | .bare c _ => some [c]
  | .escaped c => some [c]
  | .single text _ => some text
  | .double pieces => some (pieces.flatMap Piece.value)

end Item

/-- The tail as written. -/
def Tail.source : Tail m → List α
  | .closed => []
  | .single text _ => m.single::text
  | .double pieces pending => m.double::pieces.flatMap Piece.source++if pending then [m.escape] else []
  | .escape => [m.escape]

/-- The fault of a text with this tail. -/
def Tail.fault : Tail m → Option Fault
  | .closed => none
  | .single _ _ => some .quoteOpen
  | .double _ _ => some .quoteOpen
  | .escape => some .escapeAtEnd

/-- A line as written. -/
def source (line : List (Item m)) : List α := line.flatMap Item.source

@[simp] theorem source_nil : source ([] : List (Item m))=[] := rfl

@[simp] theorem source_cons (item : Item m) (line : List (Item m)) :
    source (item::line)=item.source++source line := rfl

@[simp] theorem source_append (first second : List (Item m)) :
    source (first++second)=source first++source second := by simp [source]

/-- The words of a line, where a word may have begun before it. -/
def words : Option (List α) → List (Item m) → List (List α)
  | word,[] => word.toList
  | word,item::line =>
    match item.value with
    | none => word.toList++words none line
    | some value => words (some (word.getD []++value)) line

/-- The text is a line followed by a quote that is never closed. -/
def QuoteLeftOpen (m : Marks α) (text : List α) : Prop :=
  ∃ (line : List (Item m)) (tail : Tail m),
    text=source line++tail.source ∧ tail.fault=some .quoteOpen

/-- The text is a line followed by an escape. -/
def EndsInEscape (m : Marks α) (text : List α) : Prop :=
  ∃ (line : List (Item m)) (tail : Tail m),
    text=source line++tail.source ∧ tail.fault=some .escapeAtEnd

end Grammar

section Agreement

variable [DecidableEq α] {m : Marks α}

/-- The text between double quotes joins the word as what its pieces stand for. -/
theorem scan_pieces (pieces : List (Piece m)) (word rest : List α) :
    scan m (.double word) (pieces.flatMap Piece.source++rest)=
      scan m (.double (word++pieces.flatMap Piece.value)) rest := by
  induction pieces generalizing word with
  | nil => simp
  | cons piece pieces ih =>
    cases piece with
    | literal c free =>
      rw [not_or] at free
      have hc := scan_double_run (by simpa using Ne.symm free.1 : m.double∉[c])
        (by simpa using Ne.symm free.2) word (pieces.flatMap Piece.source++rest)
      simpa [Piece.source,Piece.value,ih] using hc
    | escaped c mark =>
      have hc := scan_double_escape mark word (pieces.flatMap Piece.source++rest)
      simpa [Piece.source,Piece.value,ih] using hc
    | kept c free =>
      have hc := scan_double_kept free word (pieces.flatMap Piece.source++rest)
      simpa [Piece.source,Piece.value,ih] using hc

/-- A space hands the word over; every other element joins it. -/
theorem scan_item (item : Item m) (word : Option (List α)) (rest : List α) :
    scan m (.plain word) (item.source++rest)=
      match item.value with
      | none => prepend word.toList (scan m (.plain none) rest)
      | some value => scan m (.plain (some (word.getD []++value))) rest := by
  cases item with
  | space => simp [Item.source,Item.value]
  | bare c free => simpa [Item.source,Item.value] using scan_plain_bare free word rest
  | escaped c => simp [Item.source,Item.value]
  | single text free =>
    have ht := scan_single_run free (word.getD []) (m.single::rest)
    simpa [Item.source,Item.value] using ht
  | double pieces =>
    have hp := scan_pieces pieces (word.getD []) (m.double::rest)
    simpa [Item.source,Item.value] using hp

/-- A tail is read as its fault, or as the end of the word. -/
theorem scan_tail (tail : Tail m) (word : Option (List α)) :
    scan m (.plain word) tail.source=
      match tail.fault with
      | none => .ok word.toList
      | some fault => .error fault := by
  cases tail with
  | closed => simp [Tail.source,Tail.fault]
  | single text free =>
    have ht := scan_single_run free (word.getD []) []
    rw [List.append_nil] at ht
    simp [Tail.source,Tail.fault,ht]
  | double pieces pending =>
    have hp := scan_pieces pieces (word.getD []) (if pending then [m.escape] else [])
    cases pending <;> simp_all [Tail.source,Tail.fault]
  | escape => simp [Tail.source,Tail.fault]

/-- A line with its tail is read as the words of the line, or as the fault of the tail. -/
theorem scan_line (line : List (Item m)) (tail : Tail m) (word : Option (List α)) :
    scan m (.plain word) (source line++tail.source)=
      match tail.fault with
      | none => .ok (words word line)
      | some fault => .error fault := by
  induction line generalizing word with
  | nil => simpa [words] using scan_tail tail word
  | cons item line ih =>
    rw [source_cons,List.append_assoc,scan_item]
    cases hv : item.value with
    | none => cases hf : tail.fault <;> simp [words,hv,ih,hf]
    | some value => simp [words,hv,ih]

/-- Text after an opening double quote runs up to the closing one, or to its end. -/
theorem exists_pieces (m : Marks α) (text : List α) :
    ∃ pieces : List (Piece m),
      (∃ after,text=pieces.flatMap Piece.source++m.double::after) ∨
      ∃ pending : Bool,text=pieces.flatMap Piece.source++if pending then [m.escape] else [] := by
  induction hn : text.length using Nat.strongRecOn generalizing text with
  | _ n ih =>
    subst hn
    -- One piece is taken off the front and the rest is cut up by the induction hypothesis.
    have hstep : ∀ (piece : Piece m) (rest : List α),text=piece.source++rest →
        rest.length<text.length → ∃ pieces : List (Piece m),
          (∃ after,text=pieces.flatMap Piece.source++m.double::after) ∨
          ∃ pending : Bool,
            text=pieces.flatMap Piece.source++if pending then [m.escape] else [] := by
      intro piece rest ht hl
      obtain ⟨pieces,⟨after,hr⟩|⟨pending,hr⟩⟩ := ih rest.length hl rest rfl
      · exact ⟨piece::pieces,Or.inl ⟨after,by rw [ht,hr]; simp⟩⟩
      · exact ⟨piece::pieces,Or.inr ⟨pending,by rw [ht,hr]; simp⟩⟩
    cases text with
    | nil => exact ⟨[],Or.inr ⟨false,rfl⟩⟩
    | cons c rest =>
      by_cases hd : c=m.double
      · exact ⟨[],Or.inl ⟨rest,by rw [hd]; rfl⟩⟩
      by_cases he : c=m.escape
      · cases rest with
        | nil => exact ⟨[],Or.inr ⟨true,by rw [he]; rfl⟩⟩
        | cons d rest =>
          have hl : rest.length<(c::d::rest).length := by simp only [List.length_cons]; omega
          by_cases hm : d=m.double ∨ d=m.escape
          · exact hstep (.escaped d hm) rest (by rw [he]; rfl) hl
          · exact hstep (.kept d hm) rest (by rw [he]; rfl) hl
      · exact hstep (.literal c (by simp [hd,he])) rest rfl (Nat.lt_succ_self _)

/-- Every text is a line of the grammar with a tail. -/
theorem exists_line (m : Marks α) (text : List α) :
    ∃ (line : List (Item m)) (tail : Tail m),text=source line++tail.source := by
  induction hn : text.length using Nat.strongRecOn generalizing text with
  | _ n ih =>
    subst hn
    have hstep : ∀ (item : Item m) (rest : List α),text=item.source++rest →
        rest.length<text.length →
        ∃ (line : List (Item m)) (tail : Tail m),text=source line++tail.source := by
      intro item rest ht hl
      obtain ⟨line,tail,hr⟩ := ih rest.length hl rest rfl
      exact ⟨item::line,tail,by rw [ht,hr]; simp⟩
    cases text with
    | nil => exact ⟨[],.closed,rfl⟩
    | cons c rest =>
      by_cases hs : c=m.space
      · exact hstep .space rest (by rw [hs]; rfl) (Nat.lt_succ_self _)
      by_cases he : c=m.escape
      · cases rest with
        | nil => exact ⟨[],.escape,by rw [he]; rfl⟩
        | cons d rest =>
          exact hstep (.escaped d) rest (by rw [he]; rfl)
            (by simp only [List.length_cons]; omega)
      by_cases hq : c=m.single
      · by_cases hc : m.single∈rest
        · obtain ⟨before,after,hr,hb⟩ := List.eq_append_cons_of_mem hc
          exact hstep (.single before hb) after (by rw [hq,hr]; simp [Item.source])
            (by rw [hr]; simp only [List.length_cons,List.length_append]; omega)
        · exact ⟨[],.single rest hc,by rw [hq]; rfl⟩
      by_cases hd : c=m.double
      · obtain ⟨pieces,⟨after,hr⟩|⟨pending,hr⟩⟩ := exists_pieces m rest
        · exact hstep (.double pieces) after (by rw [hd,hr]; simp [Item.source])
            (by rw [hr]; simp only [List.length_cons,List.length_append]; omega)
        · exact ⟨[],.double pieces pending,by rw [hd,hr]; simp [Tail.source]⟩
      · exact hstep (.bare c (by simp [Marks.all,hs,he,hq,hd])) rest rfl (Nat.lt_succ_self _)

/-- The texts read without a fault are the lines of the grammar, read as their words. -/
theorem scan_eq_ok_iff {text : List α} {word : Option (List α)} {found : List (List α)} :
    scan m (.plain word) text=.ok found ↔
      ∃ line : List (Item m),text=source line ∧ found=words word line := by
  constructor
  · intro h
    obtain ⟨line,tail,ht⟩ := exists_line m text
    rw [ht,scan_line] at h
    cases tail with
    | closed =>
      refine ⟨line,by rw [ht]; simp [Tail.source],?_⟩
      simpa [Tail.fault] using h.symm
    | _ => simp [Tail.fault] at h
  · rintro ⟨line,rfl,rfl⟩
    simpa [Tail.source,Tail.fault] using scan_line line .closed word

/-- A text is read with a fault exactly when its tail has it. -/
theorem scan_eq_error_iff {text : List α} {word : Option (List α)} {fault : Fault} :
    scan m (.plain word) text=.error fault ↔
      ∃ (line : List (Item m)) (tail : Tail m),
        text=source line++tail.source ∧ tail.fault=some fault := by
  constructor
  · intro h
    obtain ⟨line,tail,ht⟩ := exists_line m text
    refine ⟨line,tail,ht,?_⟩
    rw [ht,scan_line] at h
    cases hf : tail.fault with
    | none => simp [hf] at h
    | some other => simpa [hf] using h
  · rintro ⟨line,tail,rfl,hf⟩
    rw [scan_line,hf]

/-- The reading fails exactly when a quote is left open or the text ends in an escape. -/
theorem scan_fails_iff {text : List α} {word : Option (List α)} :
    (∃ fault,scan m (.plain word) text=.error fault) ↔
      QuoteLeftOpen m text ∨ EndsInEscape m text := by
  constructor
  · rintro ⟨fault,h⟩
    cases fault with
    | quoteOpen => exact Or.inl (scan_eq_error_iff.mp h)
    | escapeAtEnd => exact Or.inr (scan_eq_error_iff.mp h)
  · rintro (h|h)
    · exact ⟨_,scan_eq_error_iff.mpr h⟩
    · exact ⟨_,scan_eq_error_iff.mpr h⟩

end Agreement

section EmptyWords

variable {m : Marks α}

/-- A run of elements that add nothing, at the end of the line or in front of a space. -/
structure EmptyRun (run after : List (Item m)) : Prop where
  /-- Every element adds nothing to its word. -/
  nothing : ∀ item∈run,item.value=some []
  /-- The word ends with the run. -/
  ends : after=[] ∨ after.head?=some .space

/-- The word begun before the line, or begun by it, ends empty. -/
def FrontEmpty (word : Option (List α)) (line : List (Item m)) : Prop :=
  ∃ run after,line=run++after ∧ EmptyRun run after ∧ (word=some [] ∨ word=none ∧ run≠[])

/-- A word begun after a space of the line ends empty. -/
def InnerEmpty (line : List (Item m)) : Prop :=
  ∃ before run after,line=before++.space::(run++after) ∧ EmptyRun run after ∧ run≠[]

theorem frontEmpty_space {word : Option (List α)} {line : List (Item m)} :
    FrontEmpty word (.space::line) ↔ word=some [] := by
  constructor
  · rintro ⟨run,after,hl,hr,hw⟩
    cases run with
    | nil => simpa using hw
    | cons item run =>
      rw [List.cons_append,List.cons.injEq] at hl
      have hi := hr.nothing item List.mem_cons_self
      rw [← hl.1] at hi
      simp [Item.value] at hi
  · intro hw
    exact ⟨[],.space::line,rfl,⟨by simp,Or.inr rfl⟩,Or.inl hw⟩

theorem innerEmpty_space {line : List (Item m)} :
    InnerEmpty (.space::line) ↔ FrontEmpty none line ∨ InnerEmpty line := by
  constructor
  · rintro ⟨before,run,after,hl,hr,hn⟩
    cases before with
    | nil =>
      rw [List.nil_append,List.cons.injEq] at hl
      exact Or.inl ⟨run,after,hl.2,hr,Or.inr ⟨rfl,hn⟩⟩
    | cons item before =>
      rw [List.cons_append,List.cons.injEq] at hl
      exact Or.inr ⟨before,run,after,hl.2,hr,hn⟩
  · rintro (⟨run,after,hl,hr,hw⟩|⟨before,run,after,hl,hr,hn⟩)
    · exact ⟨[],run,after,by rw [hl]; rfl,hr,by simpa using hw⟩
    · exact ⟨.space::before,run,after,by rw [hl]; rfl,hr,hn⟩

theorem frontEmpty_part {item : Item m} {value : List α} (hv : item.value=some value)
    {word : Option (List α)} {line : List (Item m)} :
    FrontEmpty word (item::line) ↔ FrontEmpty (some (word.getD []++value)) line := by
  constructor
  · rintro ⟨run,after,hl,hr,hw⟩
    cases run with
    | nil =>
      -- The run is not empty here: the line goes on with a part, not with a space.
      rw [List.nil_append] at hl
      have he := hr.ends
      rw [← hl] at he
      simp only [List.head?_cons,Option.some.injEq,reduceCtorEq,false_or] at he
      rw [he] at hv
      simp [Item.value] at hv
    | cons first run =>
      rw [List.cons_append,List.cons.injEq] at hl
      have hi := hr.nothing first List.mem_cons_self
      rw [← hl.1,hv,Option.some.injEq] at hi
      refine ⟨run,after,hl.2,⟨fun i h => hr.nothing i (List.mem_cons_of_mem _ h),hr.ends⟩,
        Or.inl ?_⟩
      rcases hw with hw|hw
      · simp [hw,hi]
      · simp [hw.1,hi]
  · rintro ⟨run,after,hl,hr,hw⟩
    have hw' : word.getD []=[] ∧ value=[] := by simpa using hw
    refine ⟨item::run,after,by rw [hl]; rfl,⟨?_,hr.ends⟩,?_⟩
    · intro i hi
      rcases List.mem_cons.mp hi with rfl|hi
      · rw [hv,hw'.2]
      · exact hr.nothing i hi
    · cases word with
      | none => exact Or.inr ⟨rfl,by simp⟩
      | some text => exact Or.inl (by simpa using hw'.1)

theorem innerEmpty_part {item : Item m} {value : List α} (hv : item.value=some value)
    {line : List (Item m)} : InnerEmpty (item::line) ↔ InnerEmpty line := by
  constructor
  · rintro ⟨before,run,after,hl,hr,hn⟩
    cases before with
    | nil =>
      rw [List.nil_append,List.cons.injEq] at hl
      rw [hl.1] at hv
      simp [Item.value] at hv
    | cons first before =>
      rw [List.cons_append,List.cons.injEq] at hl
      exact ⟨before,run,after,hl.2,hr,hn⟩
  · rintro ⟨before,run,after,hl,hr,hn⟩
    exact ⟨item::before,run,after,by rw [hl]; rfl,hr,hn⟩

/-- A line has an empty word exactly when one of its words is made of parts that add nothing. -/
theorem nil_mem_words {word : Option (List α)} {line : List (Item m)} :
    []∈words word line ↔ FrontEmpty word line ∨ InnerEmpty line := by
  induction line generalizing word with
  | nil =>
    have hf : FrontEmpty word ([] : List (Item m)) ↔ word=some [] := by
      constructor
      · rintro ⟨run,after,hl,-,hw⟩
        rw [List.nil_eq_append_iff] at hl
        simpa [hl.1] using hw
      · intro hw
        exact ⟨[],[],rfl,⟨by simp,Or.inl rfl⟩,Or.inl hw⟩
    have hi : ¬InnerEmpty ([] : List (Item m)) := by
      rintro ⟨before,run,after,hl,-⟩
      simp at hl
    simp [words,hf,hi]
  | cons item line ih =>
    cases hv : item.value with
    | none =>
      have hs : item=.space := by cases item <;> simp_all [Item.value]
      subst hs
      simp [words,hv,ih,frontEmpty_space,innerEmpty_space]
    | some value => simp only [words,hv,ih,frontEmpty_part hv,innerEmpty_part hv]

/-- The text has a word written as pairs of quotes with nothing between them: it stands at
the start or after a space, and at the end or in front of a space. -/
def HoldsEmptyWord (m : Marks α) (text : List α) : Prop :=
  ∃ (before after : List (Item m)) (pairs : List (List α)),
    text=source before++pairs.flatten++source after ∧ pairs≠[] ∧
    (∀ pair∈pairs,pair=[m.single,m.single] ∨ pair=[m.double,m.double]) ∧
    (before=[] ∨ before.getLast?=some .space) ∧ (after=[] ∨ after.head?=some .space)

/-- An element that adds nothing is a pair of quotes. -/
theorem source_of_value_nil {item : Item m} (hv : item.value=some []) :
    item.source=[m.single,m.single] ∨ item.source=[m.double,m.double] := by
  cases item with
  | single text free =>
    have ht : text=[] := by simpa [Item.value] using hv
    exact Or.inl (by rw [Item.source,ht]; rfl)
  | double pieces =>
    cases pieces with
    | nil => exact Or.inr rfl
    | cons piece pieces => cases piece <;> simp [Item.value,Piece.value] at hv
  | _ => simp [Item.value] at hv

/-- Pairs of quotes are elements that add nothing. -/
theorem exists_run (pairs : List (List α))
    (hp : ∀ pair∈pairs,pair=[m.single,m.single] ∨ pair=[m.double,m.double]) :
    ∃ run : List (Item m),source run=pairs.flatten ∧ run.length=pairs.length ∧
      ∀ item∈run,item.value=some [] := by
  induction pairs with
  | nil => exact ⟨[],rfl,rfl,by simp⟩
  | cons pair pairs ih =>
    obtain ⟨run,hs,hl,hr⟩ := ih (fun other ho => hp other (List.mem_cons_of_mem _ ho))
    rcases hp pair List.mem_cons_self with rfl|rfl
    · exact ⟨.single [] (by simp)::run,by simp [Item.source,hs],by simp [hl],
        by simpa [Item.value] using hr⟩
    · exact ⟨.double []::run,by simp [Item.source,hs],by simp [hl],
        by simpa [Item.value] using hr⟩

/-- A line has an empty word exactly when its text has a word of empty quotes. -/
theorem nil_mem_scan [DecidableEq α] {text : List α} {found : List (List α)}
    (h : scan m (.plain none) text=.ok found) : []∈found ↔ HoldsEmptyWord m text := by
  constructor
  · intro hn
    obtain ⟨line,rfl,rfl⟩ := scan_eq_ok_iff.mp h
    have hpairs : ∀ run : List (Item m),(∀ item∈run,item.value=some []) →
        ∀ pair∈run.map Item.source,pair=[m.single,m.single] ∨ pair=[m.double,m.double] := by
      intro run hr pair hp
      obtain ⟨item,hi,rfl⟩ := List.mem_map.mp hp
      exact source_of_value_nil (hr item hi)
    rcases nil_mem_words.mp hn with ⟨run,after,rfl,hr,hw⟩|⟨before,run,after,rfl,hr,hne⟩
    · refine ⟨[],after,run.map Item.source,?_,by simpa using hw,hpairs run hr.nothing,
        Or.inl rfl,hr.ends⟩
      simp [source,List.flatMap_def]
    · refine ⟨before++[.space],after,run.map Item.source,?_,by simpa using hne,
        hpairs run hr.nothing,Or.inr (by simp),hr.ends⟩
      simp [source,List.flatMap_def]
  · rintro ⟨before,after,pairs,ht,hne,hp,hb,ha⟩
    obtain ⟨run,hs,hl,hr⟩ := exists_run pairs hp
    have hrun : run≠[] := by
      intro he
      rw [he] at hl
      exact hne (List.length_eq_zero_iff.mp hl.symm)
    have hok : scan m (.plain none) text=.ok (words none (before++(run++after))) :=
      scan_eq_ok_iff.mpr ⟨before++(run++after),ht.trans (by simp [hs]),rfl⟩
    rw [h,Except.ok.injEq] at hok
    rw [hok,nil_mem_words]
    rcases hb with rfl|hb
    · exact Or.inl ⟨run,after,rfl,⟨hr,ha⟩,Or.inr ⟨rfl,hrun⟩⟩
    · obtain ⟨start,rfl⟩ := List.getLast?_eq_some_iff.mp hb
      exact Or.inr ⟨start,run,after,by simp,⟨hr,ha⟩,hrun⟩

end EmptyWords

end ProxyDroid.CharacterQuoting
