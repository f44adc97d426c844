import Mathlib.Data.List.Induction
import ProxyDroid.CharacterSequences
import ProxyDroid.CharacterQuoting

/-!
# Cracking and quoting command lines

The parser `translateCommandline` advances by the tokens of a string tokenizer, with three
states and two flags; the printer `toString` escapes character by character and puts a space
in front of an argument when something has been printed before it. A parser state stands for a
reading of the characters still to come: one token keeps that reading, so the whole run is the
reading of the whole text.
-/

namespace ProxyDroid.Commandline

open CharacterSequences CharacterQuoting

/-- The blank, the backslash, the apostrophe and the quotation mark. -/
def marks : Marks UInt16 where
  space := 32
  escape := 92
  single := 39
  double := 34
  nodup := by decide

/-- The exception raised for a text that cannot be cracked. -/
structure IllegalArgumentException where
  /-- Its message. -/
  message : JString
deriving DecidableEq, Repr

/-- The states of the parser. -/
inductive State where
  /-- Outside quotes. -/
  | normal
  /-- Inside single quotes. -/
  | inQuote
  /-- Inside double quotes. -/
  | inDoubleQuote
deriving DecidableEq, Repr

/-- The variables of the parsing loop. -/
structure Parser where
  /-- The state of the machine. -/
  state : State
  /-- The words found. -/
  result : List JString
  /-- The word being built. -/
  current : JString
  /-- The last token closed a quote. -/
  lastTokenHasBeenQuoted : Bool
  /-- The last token is a backslash that escapes the next one. -/
  lastTokenIsSlash : Bool

namespace Parser

/-- The variables before the first token. -/
def start : Parser := ⟨.normal,[],[],false,false⟩

/-- The word being built is to be kept, even when it is empty after a quote. -/
def present (p : Parser) : Bool := p.lastTokenHasBeenQuoted || !p.current.isEmpty

/-- One round of the loop inside single quotes. -/
def nextInQuote (p : Parser) (nextTok : JString) : Parser :=
  if nextTok=[marks.single] then {p with lastTokenHasBeenQuoted:=true,state:=.normal}
  else {p with current:=p.current++nextTok}

/-- One round of the loop inside double quotes. -/
def nextInDoubleQuote (p : Parser) (nextTok : JString) : Parser :=
  if nextTok=[marks.double] then
    if p.lastTokenIsSlash then {p with current:=p.current++nextTok,lastTokenIsSlash:=false}
    else {p with lastTokenHasBeenQuoted:=true,state:=.normal}
  else if nextTok=[marks.escape] then
    if p.lastTokenIsSlash then {p with current:=p.current++nextTok,lastTokenIsSlash:=false}
    else {p with lastTokenIsSlash:=true}
  else if p.lastTokenIsSlash then
    {p with current:=p.current++[marks.escape]++nextTok,lastTokenIsSlash:=false}
  else {p with current:=p.current++nextTok}

/-- One round of the loop outside quotes, up to the reset of the quote flag. -/
def nextNormal (p : Parser) (nextTok : JString) : Parser :=
  if p.lastTokenIsSlash then {p with current:=p.current++nextTok,lastTokenIsSlash:=false}
  else if nextTok=[marks.escape] then {p with lastTokenIsSlash:=true}
  else if nextTok=[marks.single] then {p with state:=.inQuote}
  else if nextTok=[marks.double] then {p with state:=.inDoubleQuote}
  else if nextTok=[marks.space] then
    if p.present then {p with result:=p.result++[p.current],current:=[]} else p
  else {p with current:=p.current++nextTok}

/-- One round of the parsing loop. -/
def next (p : Parser) (nextTok : JString) : Parser :=
  match p.state with
  | .inQuote => p.nextInQuote nextTok
  | .inDoubleQuote => p.nextInDoubleQuote nextTok
  | .normal => {p.nextNormal nextTok with lastTokenHasBeenQuoted:=false}

/-- The words after the last token. -/
def words (p : Parser) : List JString :=
  if p.present then p.result++[p.current] else p.result

end Parser

/-- Cracks a command line into its words. -/
def translateCommandline : Option JString → Except IllegalArgumentException (List JString)
  | none => .ok []
  | some toProcess =>
    if toProcess=[] then .ok []
    else
      let p := (tokens [marks.escape,marks.double,marks.single,marks.space] toProcess).foldl
        Parser.next Parser.start
      if p.state=.inQuote ∨ p.state=.inDoubleQuote then
        .error ⟨ofText "unbalanced quotes in "++toProcess⟩
      else if p.lastTokenIsSlash then
        .error ⟨ofText "escape character following nothing in "++toProcess⟩
      else .ok p.words

/-- A character as printed inside an argument. -/
def escaped (c : UInt16) : JString :=
  if c=marks.space ∨ c=marks.escape ∨ c=marks.double ∨ c=marks.single then [marks.escape,c] else [c]

/-- Prints one more argument. -/
def appendArg (result arg : JString) : JString :=
  (if result=[] then result else result++[marks.space])++arg.flatMap escaped

/-- Prints the arguments of a command line. -/
def toString : Option (List JString) → JString
  | none => []
  | some args => args.foldl appendArg []

section Reading

/-- The delimiters are the marks. -/
theorem mem_delims {c : UInt16} :
    c∈[marks.escape,marks.double,marks.single,marks.space] ↔ c∈marks.all := by
  simp only [Marks.all,List.mem_cons,List.not_mem_nil,or_false]
  tauto

namespace Parser

/-- The word begun so far. -/
def word (p : Parser) : Option JString := if p.present then some p.current else none

/-- What the reader is inside of when the parser is in this state. -/
def mode (p : Parser) : Mode UInt16 :=
  match p.state with
  | .normal => .plain p.word
  | .inQuote => .single p.current
  | .inDoubleQuote => .double p.current

/-- The backslash that was taken and has had no effect yet. -/
def pending (p : Parser) : JString := if p.lastTokenIsSlash then [marks.escape] else []

/-- The words this state finds in the characters still to come. -/
def reading (p : Parser) (rest : JString) : Except Fault (List JString) :=
  prepend p.result (scan marks p.mode (p.pending++rest))

/-- No backslash is pending inside single quotes. -/
def Settled (p : Parser) : Prop := p.state=.inQuote → p.lastTokenIsSlash=false

@[simp] theorem word_getD (p : Parser) : p.word.getD []=p.current := by
  unfold word present
  cases hc : p.current <;> cases p.lastTokenHasBeenQuoted <;> simp

theorem word_of_current {p : Parser} (h : p.current≠[]) : p.word=some p.current := by
  simp [word,present,h]

theorem words_eq (p : Parser) : p.words=p.result++p.word.toList := by
  unfold words word
  split_ifs <;> simp

/-- Outside quotes a pending backslash makes the next token join the word. -/
theorem reading_escaped {p : Parser} (hs : p.state=.normal) (hp : p.lastTokenIsSlash=true)
    {c : UInt16} {run : JString} (hr : ∀ d∈run,d∉marks.all) (rest : JString) :
    p.reading (c::run++rest)=(p.next (c::run)).reading rest := by
  have hn : p.next (c::run)=
      {p with current:=p.current++c::run,lastTokenIsSlash:=false,lastTokenHasBeenQuoted:=false} := by
    simp [next,hs,nextNormal,hp]
  have hw : (p.next (c::run)).word=some (p.current++c::run) := by
    rw [hn]
    exact word_of_current (by simp)
  have hm : (p.next (c::run)).mode=.plain (some (p.current++c::run)) := by
    rw [mode,hw,hn]
    simp [hs]
  have hq := scan_plain_more hr (p.current++[c]) rest
  rw [reading,reading,hm,hn]
  simpa [mode,hs,pending,hp] using congrArg (prepend p.result) hq

/-- Outside quotes a run of other characters joins the word. -/
theorem reading_run {p : Parser} (hs : p.state=.normal) (hp : p.lastTokenIsSlash=false)
    {c : UInt16} {run : JString} (hr : ∀ d∈c::run,d∉marks.all) (rest : JString) :
    p.reading (c::run++rest)=(p.next (c::run)).reading rest := by
  have hc : c∉marks.all := hr c List.mem_cons_self
  simp only [Marks.all,List.mem_cons,List.not_mem_nil,or_false,not_or] at hc
  have hn : p.next (c::run)=
      {p with current:=p.current++c::run,lastTokenHasBeenQuoted:=false} := by
    simp [next,hs,nextNormal,hp,hc]
  have hw : (p.next (c::run)).word=some (p.current++c::run) := by
    rw [hn]
    exact word_of_current (by simp)
  have hm : (p.next (c::run)).mode=.plain (some (p.current++c::run)) := by
    rw [mode,hw,hn]
    simp [hs]
  have hq := scan_plain_run (List.cons_ne_nil c run) hr p.word rest
  rw [reading,reading,hm,hn]
  simpa [mode,hs,pending,hp] using congrArg (prepend p.result) hq

/-- Outside quotes a space ends the word, if one has begun. -/
theorem reading_space {p : Parser} (hs : p.state=.normal) (hp : p.lastTokenIsSlash=false)
    (rest : JString) : p.reading (marks.space::rest)=(p.next [marks.space]).reading rest := by
  have hn : p.next [marks.space]=
      {p with result:=p.result++p.word.toList,current:=[],lastTokenHasBeenQuoted:=false} := by
    obtain ⟨hescape,⟨hsingle,-⟩,hdouble,-⟩ := marks.distinct
    cases hw : p.present with
    | true => simp [next,hs,nextNormal,hp,hw,word,hescape.symm,hsingle.symm,hdouble.symm]
    | false =>
      have hc : p.current=[] := by simpa [present] using (Bool.or_eq_false_iff.mp hw).2
      simp [next,hs,nextNormal,hp,hw,hc,word,hescape.symm,hsingle.symm,hdouble.symm]
  have hw : (p.next [marks.space]).word=none := by simp [hn,word,present]
  have hm : (p.next [marks.space]).mode=.plain none := by
    rw [mode,hw,hn]
    simp [hs]
  rw [reading,reading,hm,hn]
  simp [mode,hs,pending,hp]

/-- Outside quotes a backslash waits for the next token. -/
theorem reading_slash {p : Parser} (hs : p.state=.normal) (hp : p.lastTokenIsSlash=false)
    (rest : JString) : p.reading (marks.escape::rest)=(p.next [marks.escape]).reading rest := by
  have hn : p.next [marks.escape]={p with lastTokenIsSlash:=true,lastTokenHasBeenQuoted:=false} := by
    simp [next,hs,nextNormal,hp]
  have hc : scan marks (.plain p.word) (marks.escape::rest)=
      scan marks (.plain (p.next [marks.escape]).word) (marks.escape::rest) :=
    scan_plain_escape_congr (by simp [hn]) rest
  simpa [reading,mode,hn,hs,pending,hp] using congrArg (prepend p.result) hc

/-- Outside quotes a quotation mark of either kind opens its quote. -/
theorem reading_open {p : Parser} (hs : p.state=.normal) (hp : p.lastTokenIsSlash=false)
    {c : UInt16} (hc : c=marks.single ∨ c=marks.double) (rest : JString) :
    p.reading (c::rest)=(p.next [c]).reading rest := by
  rcases hc with rfl|rfl
  · simp [reading,next,nextNormal,mode,hs,pending,hp]
  · simp [reading,next,nextNormal,mode,hs,pending,hp]

/-- Outside quotes a token keeps the reading. -/
theorem reading_normal {p : Parser} (hs : p.state=.normal) {token : JString}
    (ht : Token [marks.escape,marks.double,marks.single,marks.space] token) (rest : JString) :
    p.reading (token++rest)=(p.next token).reading rest := by
  cases hp : p.lastTokenIsSlash with
  | true =>
    cases ht with
    | delim mem => exact reading_escaped hs hp (by simp) rest
    | run free =>
      refine reading_escaped hs hp (fun d hd => ?_) rest
      exact fun h => free d (List.mem_cons_of_mem _ hd) (mem_delims.mpr h)
  | false =>
    cases ht with
    | delim mem =>
      simp only [List.mem_cons,List.not_mem_nil,or_false] at mem
      rcases mem with rfl|rfl|rfl|rfl
      · exact reading_slash hs hp rest
      · exact reading_open hs hp (Or.inr rfl) rest
      · exact reading_open hs hp (Or.inl rfl) rest
      · exact reading_space hs hp rest
    | run free => exact reading_run hs hp (fun d hd h => free d hd (mem_delims.mpr h)) rest

/-- Inside single quotes a token keeps the reading. -/
theorem reading_inQuote {p : Parser} (hs : p.state=.inQuote) (hp : p.lastTokenIsSlash=false)
    {token : JString} (ht : Token [marks.escape,marks.double,marks.single,marks.space] token)
    (rest : JString) : p.reading (token++rest)=(p.next token).reading rest := by
  by_cases hc : token=[marks.single]
  · subst hc
    simp [reading,next,nextInQuote,mode,hs,pending,hp,word,present]
  · have hn : p.next token={p with current:=p.current++token} := by
      simp [next,hs,nextInQuote,hc]
    have hf : marks.single∉token := by
      cases ht with
      | delim mem => simpa [eq_comm] using hc
      | run free => exact fun h => free _ h (by simp)
    have hq := scan_single_run hf p.current rest
    simpa [reading,mode,hn,hs,pending,hp] using congrArg (prepend p.result) hq

/-- Inside double quotes a token keeps the reading. -/
theorem reading_inDoubleQuote {p : Parser} (hs : p.state=.inDoubleQuote) {token : JString}
    (ht : Token [marks.escape,marks.double,marks.single,marks.space] token) (rest : JString) :
    p.reading (token++rest)=(p.next token).reading rest := by
  by_cases hd : token=[marks.double]
  · subst hd
    cases hp : p.lastTokenIsSlash with
    | true =>
      have hq := scan_double_escape (m := marks) (Or.inl rfl) p.current rest
      simpa [reading,next,nextInDoubleQuote,mode,hs,pending,hp] using congrArg (prepend p.result) hq
    | false => simp [reading,next,nextInDoubleQuote,mode,hs,pending,hp,word,present]
  by_cases he : token=[marks.escape]
  · subst he
    obtain ⟨-,-,-,hdouble,-⟩ := marks.distinct
    cases hp : p.lastTokenIsSlash with
    | true =>
      have hq := scan_double_escape (m := marks) (Or.inr rfl) p.current rest
      simpa [reading,next,nextInDoubleQuote,mode,hs,pending,hp,hdouble.symm]
        using congrArg (prepend p.result) hq
    | false => simp [reading,next,nextInDoubleQuote,mode,hs,pending,hp,hdouble.symm]
  -- What is left are tokens without the two marks that matter here.
  have hfree : ∃ c run,token=c::run ∧ marks.double∉c::run ∧ marks.escape∉c::run := by
    cases ht with
    | @delim c mem => exact ⟨c,[],rfl,by simpa [eq_comm] using hd,by simpa [eq_comm] using he⟩
    | @run c run free =>
      exact ⟨c,run,rfl,fun h => free _ h (by simp),fun h => free _ h (by simp)⟩
  obtain ⟨c,run,rfl,hfd,hfe⟩ := hfree
  cases hp : p.lastTokenIsSlash with
  | true =>
    rw [List.mem_cons,not_or] at hfd hfe
    have hk := scan_double_kept (m := marks) (d := c)
      (not_or.mpr ⟨Ne.symm hfd.1,Ne.symm hfe.1⟩) p.current (run++rest)
    have hq := scan_double_run hfd.2 hfe.2 (p.current++[marks.escape,c]) rest
    simpa [reading,next,nextInDoubleQuote,hd,he,mode,hs,pending,hp]
      using congrArg (prepend p.result) (hk.trans hq)
  | false =>
    have hq := scan_double_run hfd hfe p.current rest
    simpa [reading,next,nextInDoubleQuote,hd,he,mode,hs,pending,hp]
      using congrArg (prepend p.result) hq

/-- A round of the loop leaves no backslash pending inside single quotes. -/
theorem settled_next {p : Parser} (hp : p.Settled) (token : JString) : (p.next token).Settled := by
  intro hs
  cases hst : p.state with
  | inQuote =>
    have hl := hp hst
    simp only [next,hst,nextInQuote] at hs ⊢
    split_ifs <;> exact hl
  | inDoubleQuote =>
    simp only [next,hst,nextInDoubleQuote] at hs
    split_ifs at hs
  | normal =>
    simp only [next,hst,nextNormal] at hs ⊢
    split_ifs at hs ⊢ <;> simp_all

/-- A token keeps the reading. -/
theorem reading_next {p : Parser} (hp : p.Settled) {token : JString}
    (ht : Token [marks.escape,marks.double,marks.single,marks.space] token) (rest : JString) :
    p.reading (token++rest)=(p.next token).reading rest := by
  cases hs : p.state with
  | normal => exact reading_normal hs ht rest
  | inQuote => exact reading_inQuote hs (hp hs) ht rest
  | inDoubleQuote => exact reading_inDoubleQuote hs ht rest

/-- The loop keeps the reading over all its tokens. -/
theorem reading_foldl {toks : List JString}
    (ht : ∀ token∈toks,Token [marks.escape,marks.double,marks.single,marks.space] token)
    {p : Parser} (hp : p.Settled) :
    (toks.foldl next p).Settled ∧ p.reading toks.flatten=(toks.foldl next p).reading [] := by
  induction toks generalizing p with
  | nil => exact ⟨hp,rfl⟩
  | cons token toks ih =>
    obtain ⟨hfirst,hlater⟩ := List.forall_mem_cons.mp ht
    obtain ⟨hs,hr⟩ := ih hlater (settled_next hp token)
    refine ⟨hs,?_⟩
    rw [List.flatten_cons,reading_next hp hfirst,hr,List.foldl_cons]

/-- With no token left the parser's checks say what the reader says. -/
theorem reading_nil {p : Parser} (hp : p.Settled) :
    p.reading []=
      if p.state=.inQuote ∨ p.state=.inDoubleQuote then .error .quoteOpen
      else if p.lastTokenIsSlash then .error .escapeAtEnd
      else .ok p.words := by
  cases hs : p.state with
  | normal => cases hl : p.lastTokenIsSlash <;> simp [reading,mode,hs,pending,hl,words_eq]
  | inQuote => simp [reading,mode,hs,pending,hp hs]
  | inDoubleQuote => cases hl : p.lastTokenIsSlash <;> simp [reading,mode,hs,pending,hl]

end Parser

/-- The exception raised for a fault of the text. -/
def raised (toProcess : JString) : Fault → IllegalArgumentException
  | .quoteOpen => ⟨ofText "unbalanced quotes in "++toProcess⟩
  | .escapeAtEnd => ⟨ofText "escape character following nothing in "++toProcess⟩

/-- Cracking a text is reading it. -/
theorem translateCommandline_eq_scan (toProcess : JString) :
    translateCommandline (some toProcess)=
      (scan marks (.plain none) toProcess).mapError (raised toProcess) := by
  by_cases hn : toProcess=[]
  · subst hn
    simp [translateCommandline,Except.mapError]
  · obtain ⟨hs,hr⟩ := Parser.reading_foldl
      (tokens_shape [marks.escape,marks.double,marks.single,marks.space] toProcess)
      (p := Parser.start) (by simp [Parser.Settled,Parser.start])
    have hstart : Parser.start.reading toProcess=scan marks (.plain none) toProcess := by
      simp [Parser.reading,Parser.mode,Parser.word,Parser.present,Parser.pending,Parser.start]
    rw [tokens_flatten,hstart,Parser.reading_nil hs] at hr
    rw [hr,translateCommandline,if_neg hn]
    dsimp only
    split_ifs <;> rfl

end Reading

/-- Cracking a command line is reading it character by character. It gives the words of the
quoting grammar exactly on the lines of that grammar, and it raises the exception exactly when
a quote is left open or the text ends in a backslash outside quotes with nothing to escape. -/
theorem translateCommandline_reads (s : JString) :
    translateCommandline (some s)=(scan marks (.plain none) s).mapError (raised s) ∧
    (∀ found,translateCommandline (some s)=.ok found ↔
      ∃ line : List (Item marks),s=source line ∧ found=words none line) ∧
    ((∃ e,translateCommandline (some s)=.error e) ↔
      QuoteLeftOpen marks s ∨ EndsInEscape marks s) := by
  have he := translateCommandline_eq_scan s
  refine ⟨he,fun found => ?_,?_⟩
  · rw [he,← scan_eq_ok_iff]
    cases scan marks (.plain none) s <;> simp [Except.mapError]
  · rw [he,← scan_fails_iff]
    cases scan marks (.plain none) s <;> simp [Except.mapError]

example : translateCommandline (some [97,32,39,32,39,98,32,34,34])=.ok [[97],[32,98],[]] := by decide

section Quoting

/-- A printed character is read as itself, outside quotes. -/
theorem scan_escaped (c : UInt16) (word : Option JString) (rest : JString) :
    scan marks (.plain word) (escaped c++rest)=
      scan marks (.plain (some (word.getD []++[c]))) rest := by
  unfold escaped
  split_ifs with hc
  · exact scan_plain_escape word c rest
  · refine scan_plain_bare (fun h => hc ?_) word rest
    simp only [Marks.all,List.mem_cons,List.not_mem_nil,or_false] at h
    tauto

/-- A printed argument is read as the characters it was printed from. -/
theorem scan_printed {arg : JString} (ha : arg≠[]) (word : Option JString) (rest : JString) :
    scan marks (.plain word) (arg.flatMap escaped++rest)=
      scan marks (.plain (some (word.getD []++arg))) rest := by
  induction arg generalizing word with
  | nil => exact absurd rfl ha
  | cons c arg ih =>
    rw [List.flatMap_cons,List.append_assoc,scan_escaped]
    by_cases hn : arg=[]
    · simp [hn]
    · rw [ih hn]
      simp

/-- The separator in front of an argument ends the word before it, if there is one. -/
theorem scan_separator (result rest : JString) :
    scan marks (.plain none) ((if result=[] then result else result++[marks.space])++rest)=
      scan marks (.plain none) (result++marks.space::rest) := by
  by_cases hr : result=[] <;> simp [hr]

/-- The printed arguments are read as the ones that are not empty, the last of them perhaps
still growing. -/
theorem scan_toString (args : List JString) :
    ∃ (done : List JString) (word : Option JString),
      done++word.toList=args.filter (·≠[]) ∧
      ∀ rest,scan marks (.plain none) (args.foldl appendArg []++rest)=
        prepend done (scan marks (.plain word) rest) := by
  induction args using List.reverseRecOn with
  | nil => exact ⟨[],none,rfl,fun rest => by simp⟩
  | append_singleton args arg ih =>
    obtain ⟨done,word,hd,hr⟩ := ih
    have hspace : ∀ rest,scan marks (.plain none) ((args++[arg]).foldl appendArg []++rest)=
        prepend (done++word.toList)
          (scan marks (.plain none) (arg.flatMap escaped++rest)) := by
      intro rest
      rw [List.foldl_append,List.foldl_cons,List.foldl_nil,appendArg,List.append_assoc,
        scan_separator,hr]
      simp
    by_cases ha : arg=[]
    · refine ⟨done++word.toList,none,by simp [hd,ha],fun rest => ?_⟩
      rw [hspace,ha]
      simp
    · refine ⟨done++word.toList,some arg,by simp [hd,ha],fun rest => ?_⟩
      rw [hspace,scan_printed ha]
      simp

/-- Cracking the printed arguments gives those that are not empty. -/
theorem translateCommandline_printed (args : List JString) :
    translateCommandline (some (toString (some args)))=.ok (args.filter (·≠[])) := by
  obtain ⟨done,word,hd,hr⟩ := scan_toString args
  have hq := hr []
  rw [List.append_nil,scan_plain_nil,prepend_ok,hd] at hq
  rw [translateCommandline_eq_scan,toString,hq]
  rfl

end Quoting

/-- Quoting is undone by cracking, for every list of arguments that are not empty. -/
theorem translateCommandline_toString (args : List JString) (h : ∀ arg∈args,arg≠[]) :
    translateCommandline (some (toString (some args)))=.ok args := by
  rw [translateCommandline_printed,List.filter_eq_self.mpr (by simpa using h)]

theorem translateCommandline_toString_quotes :
    translateCommandline (some (toString (some [[97,32,39],[92],[34,34]])))=
      .ok [[97,32,39],[92],[34,34]] :=
  translateCommandline_toString _ (by decide)

/-- Quoting the words of a command line and cracking them again gives the same words exactly
when the command line has no word that is written as empty quotes only: such a word is printed
as nothing. -/
theorem translateCommandline_requoted (s : JString) (args : List JString)
    (h : translateCommandline (some s)=.ok args) :
    translateCommandline (some (toString (some args)))=.ok args ↔ ¬HoldsEmptyWord marks s := by
  have hread : scan marks (.plain none) s=.ok args := by
    rw [translateCommandline_eq_scan] at h
    cases hr : scan marks (.plain none) s with
    | error fault => simp [hr,Except.mapError] at h
    | ok found => simpa [hr,Except.mapError] using h
  rw [translateCommandline_printed,Except.ok.injEq,List.filter_eq_self,← nil_mem_scan hread]
  constructor
  · intro hf hn
    simpa using hf [] hn
  · intro hn arg ha
    simpa using fun he : arg=[] => hn (he ▸ ha)

theorem translateCommandline_requoted_word :
    translateCommandline (some (toString (some [[97,32]])))=.ok [[97,32]] ↔
      ¬HoldsEmptyWord marks [34,97,32,34] :=
  translateCommandline_requoted [34,97,32,34] [[97,32]] (by decide)

/-- The line `a ''` has the words `a` and the empty one; printed and cracked again it has only
the first. -/
theorem translateCommandline_loses_empty :
    translateCommandline (some [97,32,39,39])=.ok [[97],[]] ∧
    translateCommandline (some (toString (some [[97],[]])))=.ok [[97]] ∧
    translateCommandline (some (toString (some [[97],[]])))≠.ok [[97],[]] := by decide

end ProxyDroid.Commandline
