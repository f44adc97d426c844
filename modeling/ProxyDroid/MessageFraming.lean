import ProxyDroid.InterceptedRuns

/-!
# Framing of intercepted messages

A message is framed when its one `Content-Length` is the number of bytes in
its body. `CorrectCRLFHander` writes the capacity of the buffer it fills:
for a request before the interceptor sees it, for a response after.
-/

namespace ProxyDroid.MessageFraming

open CallSemantics HandlerPipeline ConnectionTypes ConnectionHandlers ConnectionSystem
open InterceptedWrites InterceptedMessages InterceptedRuns

/-- Values of the `Content-Length` fields. -/
def contentLengths (headers : HttpHeaders) : List String :=
  (headers.filter (fun field => field.1.toLower="Content-Length".toLower)).map Prod.snd

/-- One `Content-Length`, and it is the number of readable bytes. -/
def Framed (headers : HttpHeaders) (content : ByteBuf) : Prop :=
  contentLengths headers=[toString content.data.length]

/-- A message handed to an HTTP encoder is framed. -/
def WellFramed : Obs → Prop
  | .encoded _ (.fullRequest request) => Framed request.headers request.content
  | .encoded _ (.fullResponse response) => Framed response.headers response.content
  | _ => True

/-- An interceptor that does not touch the length of a request. -/
def KeepsLength (i : HttpInterceptor) : Prop :=
  ∀ request, contentLengths (i.onRequest request).headers=contentLengths request.headers

/-- When what a message causes is framed: the body an interceptor returns for the
first request fills the buffer the request came in and the line end, the body
it returns for a response fills its own buffer, and a response before any
request is framed already. -/
def Fits (i : HttpInterceptor) (called : Bool) (w : World) : Message → Prop
  | .request request =>
    called=false → w.isActive .remote=true →
      (i.onRequest (CorrectCRLFHander.correctRequest request)).content.data.length=
        request.content.capacity+2
  | .response response =>
    w.isActive .client=true →
      if called then
        (i.onResponse response).content.data.length=(i.onResponse response).content.capacity
      else Framed response.headers response.content
  | .flushed _ => True

section Lengths

variable {headers : HttpHeaders} {content : ByteBuf}

/-- The corrected length is the only one. -/
theorem contentLengths_correctLength :
    contentLengths (CorrectCRLFHander.correctLength headers content)=[toString content.capacity] := by
  have hnone : (headers.remove "Content-Length").filter
      (fun field => field.1.toLower="Content-Length".toLower)=[] := by
    rw [HttpHeaders.remove,List.filter_filter,List.filter_eq_nil_iff]
    intro field hf
    simp
  rw [CorrectCRLFHander.correctLength,contentLengths,HttpHeaders.add,List.filter_append,hnone]
  simp

/-- A length that was written is right when the numbers agree. -/
theorem framed_iff_of_lengths {n : ℕ} (h : contentLengths headers=[toString n]) :
    Framed headers content ↔ content.data.length=n := by
  rw [Framed,h]
  constructor
  · intro heq
    have hdigits : Nat.toDigits 10 n=Nat.toDigits 10 content.data.length :=
      String.ofList_injective (List.head_eq_of_cons_eq heq)
    have hvalue := congrArg (fun digits => Nat.ofDigitChars 10 digits 0) hdigits
    simp only [Nat.ofDigitChars_toDigits (b:=10) (by decide) (by decide)] at hvalue
    exact hvalue.symm
  · intro heq
    rw [heq]

/-- A corrected response is framed when its body filled the buffer. -/
theorem framed_correctResponse (response : FullHttpResponse) :
    Framed (CorrectCRLFHander.correctResponse response).headers
        (CorrectCRLFHander.correctResponse response).content ↔
      response.content.data.length=response.content.capacity := by
  rw [CorrectCRLFHander.correctResponse,framed_iff_of_lengths contentLengths_correctLength]
  simp [CorrectCRLFHander.appendLine]

/-- A request that has passed the interceptor is framed when the body it then has
is as long as the corrected buffer. -/
theorem framed_onRequest {i : HttpInterceptor} (hi : KeepsLength i) (request : FullHttpRequest) :
    Framed (i.onRequest (CorrectCRLFHander.correctRequest request)).headers
        (i.onRequest (CorrectCRLFHander.correctRequest request)).content ↔
      (i.onRequest (CorrectCRLFHander.correctRequest request)).content.data.length=
        request.content.capacity+2 :=
  framed_iff_of_lengths ((hi _).trans contentLengths_correctLength)

end Lengths

section Results

variable {cfg : Config} {i : HttpInterceptor} {lead rear : List (Option Label×Handler)}
  {called : Bool} {w w₀ w' : World} {past : List Message} {message : Message}

/-- What one message shows is framed exactly when the message fits. -/
theorem shown_framed_iff (hi : KeepsLength i) :
    (∀ obs∈shown i called w message, WellFramed obs) ↔ Fits i called w message := by
  cases message with
  | request request =>
    cases called with
    | true => simp [shown,Fits,WellFramed]
    | false =>
      cases hr : w.isActive .remote <;> simp [shown,Fits,WellFramed,handed,hr,framed_onRequest hi]
  | response response =>
    cases hc : w.isActive .client with
    | false => simp [shown,Fits,hc]
    | true =>
      cases called <;> simp [shown,Fits,WellFramed,answered,hc,framed_correctResponse]
  | flushed s => simp [shown,Fits]

/-- At any point of an intercepted connection, whatever came before: the messages
that a request or a response hands to the encoders carry exactly one
`Content-Length`, equal to the bytes of their body, exactly when it fits. -/
theorem message_framed_iff (h : Wired i lead rear false w₀) (hwraps : Wraps cfg)
    (hi : KeepsLength i) (hrun : (messageSystem cfg).Run w₀ past w)
    (hturn : (messageSystem cfg).Turn w message w') :
    ∃ seen, w'.log=w.log++seen ∧
      ((∀ obs∈seen, WellFramed obs) ↔ Fits i (requests past≠[]) w message) :=
  ⟨_,(sees_of_turn (wired_run h hwraps hrun) hwraps hturn).log,shown_framed_iff hi⟩

/-- An interceptor that keeps a request of its own length. -/
theorem sample_request_framed :
    (messageSystem (interceptConfig keep)).Turn (sampleIntercepted keep) (.request sampleFull)
        sampleHandled ∧
      ∃ seen, sampleHandled.log=(sampleIntercepted keep).log++seen ∧
        ∀ obs∈seen, WellFramed obs := by
  have hrun : (messageSystem (interceptConfig keep)).Run (sampleIntercepted keep)
      ([]++[.request sampleFull]) sampleHandled := System.execute_run accepted rfl
  obtain ⟨w,hnil,-,hturn⟩ := hrun.last
  cases hnil.eq_of_nil
  obtain ⟨seen,hlog,hiff⟩ := message_framed_iff (wired_sample keep) (fun _ _ _ => ⟨rfl,rfl⟩)
    (fun _ => rfl) hnil hturn
  exact ⟨hturn,seen,hlog,hiff.mpr (fun _ _ => rfl)⟩

/-- An interceptor that empties the body of every request. -/
def emptyBody : HttpInterceptor :=
  ⟨fun request => ⟨request.initialLine,request.headers,emptyContent⟩,fun response => response⟩

/-- The SOCKS exchange and one request. -/
def sampleOnce : List Event :=
  sampleExchange++[.read .client sampleBytes]

/-- State after these events. -/
def sampleEmptied : World :=
  ((system (interceptConfig emptyBody)).execute 40 accepted sampleOnce).getD accepted

/-- The emptied request is handed on with the length of a line end. -/
theorem emptied_request_misframed :
    KeepsLength emptyBody ∧
      (system (interceptConfig emptyBody)).Run accepted sampleOnce sampleEmptied ∧
      ∃ obs∈sampleEmptied.log, ¬WellFramed obs := by
  have hlast : sampleEmptied.log[5]?=some (.encoded .remote (.fullRequest
      (emptyBody.onRequest (CorrectCRLFHander.correctRequest sampleFull)))) := rfl
  refine ⟨fun _ => rfl,System.execute_run accepted (by decide),_,List.mem_of_getElem? hlast,
    fun hframed => ?_⟩
  have hlength := (framed_onRequest (fun _ => rfl) sampleFull).mp hframed
  cases hlength

end Results

end ProxyDroid.MessageFraming
