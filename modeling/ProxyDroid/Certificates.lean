import Mathlib.Data.List.Basic
import Mathlib.Logic.Function.Basic
import ProxyDroid.CharacterSequences

/-!
# Certificates for intercepted hosts

The factory makes one certificate for each host it is asked about and keeps it for the life of
the process. A certificate is valid from the moment it is made for as long as a product of
32-bit integers says, which overflows. So the certificate served for a host is always the one
of the first call with that host's key, and it is valid only while that first call is recent.
The issuer it names is the printed name of the CA, split and put together again backwards.
-/

namespace ProxyDroid.Certificates

open CharacterSequences

/-- The library functions and classes the factory calls. -/
structure Library where
  /-- `String.trim`. -/
  trim : JString → JString
  /-- `String.toLowerCase`, in the locale of the process. -/
  toLowerCase : JString → JString
  /-- `X500Name` accepts the text; it raises an exception otherwise. -/
  parses : JString → Bool
  /-- The date a certificate keeps, which the encoding cuts to the second. -/
  stored : Int64 → Int64
  /-- Cutting a date never moves it to a later time. -/
  stored_le : ∀ date,stored date≤date
  /-- The host names that a certificate gives back for those put into its alternative name
  extension, where each is kept as an `IA5String`; nothing when it cannot be built. -/
  alternativeNames : List JString → Option (List JString)

/-- What the clocks and the random number generator return during a call. -/
structure Moment where
  /-- `Date()`, in milliseconds. -/
  now : Int64
  /-- `System.currentTimeMillis()`. -/
  millis : Int64
  /-- `(Math.random() * 10000).toLong()`. -/
  draw : Int64

variable {PrivateKey PublicKey : Type}

/-- A certificate as it is built. -/
structure X509Certificate (PrivateKey PublicKey : Type) where
  /-- The name of the issuer. -/
  issuer : JString
  /-- The serial number. -/
  serial : Int64
  /-- The first moment of validity. -/
  notBefore : Int64
  /-- The last moment of validity. -/
  notAfter : Int64
  /-- The name of the subject. -/
  subject : JString
  /-- The subject's key. -/
  publicKey : PublicKey
  /-- The host names of the alternative name extension. -/
  subjectAltName : List JString
  /-- The key of the signature. -/
  signedBy : PrivateKey

/-- The length of validity, a product of 32-bit integers. -/
def lifetime : Int64 := (12*30*24*60*60*1000 : Int32).toInt64

/-- The product overflows: twelve months come out as twelve days and 40 minutes. -/
theorem lifetime_eq : lifetime=1039228928 := by decide

/-- The name of the subject with its common name. -/
def subjectOf (host : JString) : JString :=
  ofText "C=CN, ST=zhejiang, L=hangzhou, O=youzan, OU=youzan, CN="++host

/-- Makes a certificate for a host and further alternative names. -/
def genCert (lib : Library) (issuer : JString) (caPriKey : PrivateKey) (serverPubKey : PublicKey)
    (moment : Moment) (host : JString) (more : List JString) :
    Option (X509Certificate PrivateKey PublicKey) :=
  if lib.parses issuer && lib.parses (subjectOf host) then
    (lib.alternativeNames (host::more)).map fun names =>
      { issuer:=issuer
        serial:=moment.millis+moment.draw+1000
        notBefore:=lib.stored moment.now
        notAfter:=lib.stored (moment.now+lifetime)
        subject:=subjectOf host
        publicKey:=serverPubKey
        subjectAltName:=names
        signedBy:=caPriKey }
  else none

/-- The certificate of the CA, with its issuer as the JDK prints it. -/
structure CaCertificate where
  /-- `issuerDN.toString()`. -/
  issuerDN : JString

/-- The comma and the blank between the components of a printed name. -/
def joinedNames (names : List JString) : JString := joined 44 32 names

/-- The components of the issuer's name in the opposite order. -/
def getSubject (certificate : CaCertificate) : JString :=
  joinedNames (split 44 32 certificate.issuerDN).reverse

/-- What the factory makes certificates with. -/
structure CertificateConfig (PrivateKey PublicKey : Type) where
  /-- The name of the issuer. -/
  iUser : JString
  /-- The CA's private key. -/
  caPriKey : PrivateKey
  /-- The public key of every certificate. -/
  serverPublicKey : PublicKey
  /-- The private key of every certificate. -/
  serverPrivateKey : PrivateKey

/-- The factory: its configuration and the certificates made so far. -/
structure SSLFactory (PrivateKey PublicKey : Type) where
  /-- The configuration. -/
  certConfig : CertificateConfig PrivateKey PublicKey
  /-- The certificate made for a key. -/
  certCache : JString → Option (X509Certificate PrivateKey PublicKey)

namespace SSLFactory

/-- The factory when the process starts. -/
def init (caCert : CaCertificate) (caPriKey serverPrivateKey : PrivateKey)
    (serverPublicKey : PublicKey) : SSLFactory PrivateKey PublicKey where
  certConfig := ⟨getSubject caCert,caPriKey,serverPublicKey,serverPrivateKey⟩
  certCache := fun _ => none

end SSLFactory

/-- The key of a host: trimmed and in lower case. -/
def keyOf (lib : Library) (host : JString) : JString := lib.toLowerCase (lib.trim host)

/-- The certificate made for a key at a moment. -/
def made (lib : Library) (config : CertificateConfig PrivateKey PublicKey) (key : JString)
    (moment : Moment) : Option (X509Certificate PrivateKey PublicKey) :=
  genCert lib config.iUser config.caPriKey config.serverPublicKey moment key []

/-- Serves the certificate of a host; nothing when an exception is raised. -/
def newCert (lib : Library) (factory : SSLFactory PrivateKey PublicKey) (moment : Moment)
    (host : JString) :
    Option (X509Certificate PrivateKey PublicKey)×SSLFactory PrivateKey PublicKey :=
  let key := keyOf lib host
  match factory.certCache key with
  | some certificate => (some certificate,factory)
  | none =>
    match made lib factory.certConfig key moment with
    | none => (none,factory)
    | some certificate =>
      (some certificate,
        {factory with certCache:=Function.update factory.certCache key (some certificate)})

/-- A call of `newCert`. -/
structure Call where
  /-- The host asked about. -/
  host : JString
  /-- When. -/
  moment : Moment

/-- The calls, each with what it returns. -/
def served (lib : Library) (factory : SSLFactory PrivateKey PublicKey) :
    List Call → List (Call×Option (X509Certificate PrivateKey PublicKey))
  | [] => []
  | call::calls =>
    (call,(newCert lib factory call.moment call.host).1)::
      served lib (newCert lib factory call.moment call.host).2 calls

section Cache

variable {lib : Library}

/-- The first of the calls with the key. -/
def firstCall (lib : Library) (key : JString) (calls : List Call) : Option Call :=
  calls.find? fun call => keyOf lib call.host=key

/-- The cache after some calls: under each key the certificate of the first call with it. -/
def Cached (lib : Library) (factory : SSLFactory PrivateKey PublicKey) (earlier : List Call) :
    Prop :=
  ∀ key,factory.certCache key=
    (firstCall lib key earlier).bind fun call => made lib factory.certConfig key call.moment

/-- Whether a certificate can be made depends on the names alone. -/
theorem made_eq_none {config : CertificateConfig PrivateKey PublicKey} {key : JString}
    {moment : Moment} :
    made lib config key moment=none ↔
      (lib.parses config.iUser=true → lib.parses (subjectOf key)=true →
        lib.alternativeNames [key]=none) := by
  simp [made,genCert]

/-- A call leaves the configuration as it is. -/
@[simp] theorem newCert_config (factory : SSLFactory PrivateKey PublicKey) (moment : Moment)
    (host : JString) : (newCert lib factory moment host).2.certConfig=factory.certConfig := by
  unfold newCert
  dsimp only
  split
  · rfl
  · split <;> rfl

/-- After a call the cache holds under its key what the call returned. -/
theorem newCert_certCache (factory : SSLFactory PrivateKey PublicKey) (moment : Moment)
    (host : JString) :
    (newCert lib factory moment host).2.certCache=
      Function.update factory.certCache (keyOf lib host) (newCert lib factory moment host).1 := by
  unfold newCert
  dsimp only
  split
  case h_1 certificate hc => rw [← hc,Function.update_eq_self]
  case h_2 hc =>
    split
    · dsimp only
      rw [← hc,Function.update_eq_self]
    · rfl

/-- The first call with a key, after one more call. -/
theorem firstCall_append (key : JString) (earlier : List Call) (call : Call) :
    firstCall lib key (earlier++[call])=
      (firstCall lib key earlier).or (if keyOf lib call.host=key then some call else none) := by
  unfold firstCall
  rw [List.find?_append]
  by_cases hk : keyOf lib call.host=key <;> simp [hk]

/-- A call returns the certificate of the first call with its key. -/
theorem newCert_fst {factory : SSLFactory PrivateKey PublicKey} {earlier : List Call}
    (h : Cached lib factory earlier) (call : Call) :
    (newCert lib factory call.moment call.host).1=
      (firstCall lib (keyOf lib call.host) (earlier++[call])).bind fun first =>
        made lib factory.certConfig (keyOf lib call.host) first.moment := by
  have hk := h (keyOf lib call.host)
  rw [firstCall_append,if_pos rfl]
  unfold newCert
  dsimp only
  cases hf : firstCall lib (keyOf lib call.host) earlier with
  | none =>
    rw [hf,Option.bind_none] at hk
    rw [hk,Option.none_or,Option.bind_some]
    dsimp only
    split <;> simp_all
  | some first =>
    rw [hf,Option.bind_some] at hk
    rw [Option.some_or,Option.bind_some,← hk]
    cases hc : factory.certCache (keyOf lib call.host) with
    | some certificate => rfl
    | none =>
      -- The first call failed, and so does this one: the names are the same.
      rw [hc] at hk
      have hm : made lib factory.certConfig (keyOf lib call.host) call.moment=none :=
        made_eq_none.mpr (made_eq_none.mp hk.symm)
      simp [hm]

/-- A call keeps in the cache the certificate of the first call with each key. -/
theorem cached_newCert {factory : SSLFactory PrivateKey PublicKey} {earlier : List Call}
    (h : Cached lib factory earlier) (call : Call) :
    Cached lib (newCert lib factory call.moment call.host).2 (earlier++[call]) := by
  intro key
  rw [newCert_config,newCert_certCache]
  by_cases hk : key=keyOf lib call.host
  · rw [hk,Function.update_self,newCert_fst h call]
  · rw [Function.update_of_ne hk,firstCall_append,if_neg (Ne.symm hk),Option.or_none]
    exact h key

/-- Every call returns the certificate of the first call with its key, wherever the calls
start. -/
theorem served_after {factory : SSLFactory PrivateKey PublicKey} {earlier : List Call}
    (h : Cached lib factory earlier) (calls : List Call) :
    served lib factory calls=calls.map fun call =>
      (call,(firstCall lib (keyOf lib call.host) (earlier++calls)).bind fun first =>
        made lib factory.certConfig (keyOf lib call.host) first.moment) := by
  induction calls generalizing factory earlier with
  | nil => rfl
  | cons call calls ih =>
    have hfirst : firstCall lib (keyOf lib call.host) (earlier++call::calls)=
        firstCall lib (keyOf lib call.host) (earlier++[call]) := by
      unfold firstCall
      rw [List.find?_append,List.find?_append]
      simp
    rw [served,ih (cached_newCert h call),newCert_config,newCert_fst h call,List.map_cons,hfirst,
      List.append_assoc,List.singleton_append]

/-- From the start of the process, every call returns the certificate of the first call with
its key. -/
theorem served_start (config : CertificateConfig PrivateKey PublicKey) (calls : List Call) :
    served lib ⟨config,fun _ => none⟩ calls=calls.map fun call =>
      (call,(firstCall lib (keyOf lib call.host) calls).bind fun first =>
        made lib config (keyOf lib call.host) first.moment) := by
  have hc : Cached lib (⟨config,fun _ => none⟩ : SSLFactory PrivateKey PublicKey) [] :=
    fun _ => rfl
  exact served_after hc calls

/-- A call has a first call with its key, and not after it when the clock never goes back. -/
theorem exists_firstCall {calls : List Call}
    (hs : calls.Pairwise fun earlier later => earlier.moment.now≤later.moment.now)
    {call : Call} (hc : call∈calls) :
    ∃ first,firstCall lib (keyOf lib call.host) calls=some first ∧
      first.moment.now≤call.moment.now := by
  induction calls with
  | nil => exact absurd hc List.not_mem_nil
  | cons head calls ih =>
    rw [List.pairwise_cons] at hs
    by_cases hk : keyOf lib head.host=keyOf lib call.host
    · refine ⟨head,by simp [firstCall,hk],?_⟩
      rcases List.mem_cons.mp hc with rfl|hm
      · exact Int64.le_refl _
      · exact hs.1 call hm
    · have hm : call∈calls := by
        rcases List.mem_cons.mp hc with rfl|hm
        · exact absurd rfl hk
        · exact hm
      obtain ⟨first,hf,hl⟩ := ih hs.2 hm
      exact ⟨first,by simpa [firstCall,hk] using hf,hl⟩

end Cache

/-- What a call returned is a certificate for its host that is valid at the time of the call. -/
def ValidFor (lib : Library) (call : Call)
    (answer : Option (X509Certificate PrivateKey PublicKey)) : Prop :=
  ∃ certificate,answer=some certificate ∧
    certificate.subjectAltName=[keyOf lib call.host] ∧
    certificate.notBefore≤call.moment.now ∧ call.moment.now≤certificate.notAfter

/-- The names of a certificate for a host can be parsed, and it gives the host back. -/
structure Names (lib : Library) (config : CertificateConfig PrivateKey PublicKey)
    (host : JString) : Prop where
  /-- The issuer is a name. -/
  issuer : lib.parses config.iUser=true
  /-- The subject is a name. -/
  subject : lib.parses (subjectOf host)=true
  /-- The encoding keeps the host. -/
  alternative : lib.alternativeNames [host]=some [host]

/-- A certificate made earlier is valid for a call exactly when its names are fine and the call
comes before its end. -/
theorem validFor_made {lib : Library} {config : CertificateConfig PrivateKey PublicKey}
    {call : Call} {moment : Moment} (hm : moment.now≤call.moment.now) :
    ValidFor lib call (made lib config (keyOf lib call.host) moment) ↔
      Names lib config (keyOf lib call.host) ∧
        call.moment.now≤lib.stored (moment.now+lifetime) := by
  have hb := Int64.le_trans (lib.stored_le moment.now) hm
  constructor
  · rintro ⟨certificate,hmade,hnames,-,hafter⟩
    unfold made genCert at hmade
    split_ifs at hmade with hparses
    obtain ⟨names,hgiven,rfl⟩ := Option.map_eq_some_iff.mp hmade
    obtain ⟨hissuer,hsubject⟩ := Bool.and_eq_true_iff.mp hparses
    have hnames : names=[keyOf lib call.host] := hnames
    rw [hnames] at hgiven
    exact ⟨⟨hissuer,hsubject,hgiven⟩,hafter⟩
  · rintro ⟨⟨hissuer,hsubject,hgiven⟩,hafter⟩
    rw [made,genCert,if_pos (by rw [hissuer,hsubject]; rfl),hgiven,Option.map_some]
    exact ⟨_,rfl,rfl,hb,hafter⟩

/-- Every call is served a certificate for its host that is valid then, exactly when the names of
each certificate are fine and every call comes before the end of the certificate made by the first
call with its key: the cache keeps that one for ever. -/
theorem served_valid_iff (lib : Library) (config : CertificateConfig PrivateKey PublicKey)
    (calls : List Call)
    (hs : calls.Pairwise fun earlier later => earlier.moment.now≤later.moment.now) :
    (∀ answer∈served lib ⟨config,fun _ => none⟩ calls,ValidFor lib answer.1 answer.2) ↔
      ∀ call∈calls,Names lib config (keyOf lib call.host) ∧
        ∀ first,firstCall lib (keyOf lib call.host) calls=some first →
          call.moment.now≤lib.stored (first.moment.now+lifetime) := by
  rw [served_start,List.forall_mem_map]
  refine forall₂_congr fun call hc => ?_
  obtain ⟨first,hf,hl⟩ : ∃ first,firstCall lib (keyOf lib call.host) calls=some first ∧
      first.moment.now≤call.moment.now := exists_firstCall hs hc
  rw [hf,Option.bind_some,validFor_made hl]
  simp

/-- A date of this epoch cut to the second. -/
def wholeSeconds (date : Int64) : Int64 := if 0≤date then date-date%1000 else date

theorem wholeSeconds_le (date : Int64) : wholeSeconds date≤date := by
  unfold wholeSeconds
  split_ifs with hpos
  · rw [Int64.le_iff_toInt_le] at hpos ⊢
    have hlow : 0≤date.toInt := hpos
    have hhigh := date.toInt_lt
    have hmod : (date%1000).toInt=date.toInt%1000 := by
      rw [Int64.toInt_mod]
      exact Int.tmod_eq_emod_of_nonneg hlow
    rw [Int64.toInt_sub,hmod,Int.bmod_eq_of_le (by omega) (by omega)]
    omega
  · exact Int64.le_refl date

/-- The library on texts of ASCII characters: every component of a name has an equals sign, dates
are cut to the second, and an `IA5String` has no other characters than these. -/
def sampleLibrary : Library where
  trim := fun text => ((text.dropWhile (· ≤ 32)).reverse.dropWhile (· ≤ 32)).reverse
  toLowerCase := fun text => text.map (fun c => if 65≤ c ∧ c≤90 then c+32 else c)
  parses := fun text => (split 44 32 text).all (fun component => component.contains 61)
  stored := wholeSeconds
  stored_le := wholeSeconds_le
  alternativeNames := fun names =>
    some (names.map (fun name => name.map (fun c => if c<128 then c else 65533)))

/-- The name of the CA that comes with the program, and no keys. -/
def sampleConfig : CertificateConfig Unit Unit :=
  ⟨ofText "C=CN, ST=zhejiang, L=hangzhou, O=youzan, OU=youzan, CN=youzan",(),(),()⟩

/-- A call for the host `a`. -/
def sampleCall (now : Int64) : Call := ⟨[97],now,now,0⟩

theorem served_valid_iff_twice :
    ([sampleCall 0,sampleCall 1039228000].Pairwise fun earlier later =>
      earlier.moment.now≤later.moment.now) ∧
    ∀ answer∈served sampleLibrary ⟨sampleConfig,fun _ => none⟩ [sampleCall 0,sampleCall 1039228000],
      ValidFor sampleLibrary answer.1 answer.2 := by
  refine ⟨by decide,(served_valid_iff sampleLibrary sampleConfig
    [sampleCall 0,sampleCall 1039228000] (by decide)).mpr (fun call hcall => ?_)⟩
  have hhost : call.host=[97] ∧ call.moment.now≤1039228000 := by
    rcases List.mem_cons.mp hcall with rfl|hcall
    · decide
    · rw [List.mem_singleton.mp hcall]
      decide
  have hkey : keyOf sampleLibrary call.host=[97] := by
    rw [hhost.1]
    decide
  refine ⟨?_,fun first hfirst => ?_⟩
  · rw [hkey]
    exact ⟨by decide +kernel,by decide +kernel,by decide⟩
  · rw [hkey] at hfirst
    have hstart : firstCall sampleLibrary [97] [sampleCall 0,sampleCall 1039228000]=
        some (sampleCall 0) := rfl
    rw [hstart] at hfirst
    rw [← Option.some.inj hfirst]
    exact Int64.le_trans hhost.2 (by decide)

/-- One millisecond after the stored end of the certificate, which comes twelve days and 40 minutes
after it was made, the second call for a host gets the certificate of the first. -/
theorem served_expired :
    ¬∀ answer∈served sampleLibrary ⟨sampleConfig,fun _ => none⟩
      [sampleCall 0,sampleCall 1039228001],ValidFor sampleLibrary answer.1 answer.2 := by
  rw [served_start,List.forall_mem_map]
  intro h
  have hv := h (sampleCall 1039228001) (by simp)
  have hf : firstCall sampleLibrary (keyOf sampleLibrary (sampleCall 1039228001).host)
      [sampleCall 0,sampleCall 1039228001]=some (sampleCall 0) := rfl
  rw [hf,Option.bind_some,validFor_made (by decide)] at hv
  exact absurd hv.2 (by decide)

section Issuer

/-- A component of a printed name. -/
structure Component where
  /-- The attribute's name. -/
  name : JString
  /-- The attribute's value as it is printed, with its quotes. -/
  value : JString

/-- The component with its equals sign. -/
def Component.print (component : Component) : JString := component.name++61::component.value

/-- The issuer of every served certificate is the text the configuration holds. -/
theorem served_issuer {lib : Library} {config : CertificateConfig PrivateKey PublicKey}
    {calls : List Call} {answer : Call×Option (X509Certificate PrivateKey PublicKey)}
    (ha : answer∈served lib ⟨config,fun _ => none⟩ calls)
    {certificate : X509Certificate PrivateKey PublicKey} (hc : answer.2=some certificate) :
    certificate.issuer=config.iUser := by
  rw [served_start] at ha
  obtain ⟨call,-,rfl⟩ := List.mem_map.mp ha
  obtain ⟨first,-,hm⟩ := Option.bind_eq_some_iff.mp hc
  unfold made genCert at hm
  split_ifs at hm
  obtain ⟨names,-,rfl⟩ := Option.map_eq_some_iff.mp hm
  rfl

end Issuer

/-- The components of the CA's name come back whole and in the opposite order, and every
certificate the factory serves names that issuer, exactly when the pieces of every component
between its separators read the same in both directions; a component without a separator is
such a piece. -/
theorem getSubject_reverses_iff (caCert : CaCertificate) (components : List Component)
    (hne : components≠[])
    (hp : caCert.issuerDN=joinedNames (components.map Component.print)) :
    (getSubject caCert=joinedNames (components.reverse.map Component.print) ∧
      ∀ (lib : Library) (caPriKey serverPrivateKey : PrivateKey) (serverPublicKey : PublicKey)
        (calls : List Call),
        ∀ answer∈served lib (SSLFactory.init caCert caPriKey serverPrivateKey serverPublicKey) calls,
          ∀ certificate,answer.2=some certificate →
            certificate.issuer=joinedNames (components.reverse.map Component.print)) ↔
      ∀ component∈components,
        (split 44 32 component.print).reverse=split 44 32 component.print := by
  have hr : getSubject caCert=joinedNames (components.reverse.map Component.print) ↔
      ∀ component∈components,
        (split 44 32 component.print).reverse=split 44 32 component.print := by
    have hj := joined_reverse_split (by decide : (44 : UInt16)≠32)
      (by simpa using hne : components.map Component.print≠[])
    rw [List.forall_mem_map] at hj
    rw [getSubject,hp,List.map_reverse]
    exact hj
  rw [← hr]
  refine ⟨fun h => h.1,fun h => ⟨h,?_⟩⟩
  intro lib caPriKey serverPrivateKey serverPublicKey calls answer ha certificate hc
  rw [← h]
  exact served_issuer ha hc

theorem getSubject_reverses_iff_pair :
    (getSubject ⟨joinedNames [[67,61,120],[79,61,121]]⟩=joinedNames [[79,61,121],[67,61,120]] ∧
      ∀ (lib : Library) (caPriKey serverPrivateKey serverPublicKey : Unit) (calls : List Call),
        ∀ answer∈served lib (SSLFactory.init ⟨joinedNames [[67,61,120],[79,61,121]]⟩ caPriKey
            serverPrivateKey serverPublicKey) calls,
          ∀ certificate,answer.2=some certificate →
            certificate.issuer=joinedNames [[79,61,121],[67,61,120]]) ↔
      ∀ component∈[(⟨[67],[120]⟩ : Component),⟨[79],[121]⟩],
        (split 44 32 component.print).reverse=split 44 32 component.print :=
  getSubject_reverses_iff ⟨joinedNames [[67,61,120],[79,61,121]]⟩ [⟨[67],[120]⟩,⟨[79],[121]⟩]
    (by decide) (by decide)

/-- The name `O="a, b"` comes back as `b", O="a`. -/
theorem getSubject_breaks_quoted :
    getSubject ⟨joinedNames [Component.print ⟨[79],[34,97,44,32,98,34]⟩]⟩=
        [98,34,44,32,79,61,34,97] ∧
      getSubject ⟨joinedNames [Component.print ⟨[79],[34,97,44,32,98,34]⟩]⟩≠
        joinedNames [Component.print ⟨[79],[34,97,44,32,98,34]⟩] := by decide

end ProxyDroid.Certificates
