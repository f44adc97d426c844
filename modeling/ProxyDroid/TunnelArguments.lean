import Mathlib.Data.Int.Notation
import Mathlib.Data.List.TakeWhile
import ProxyDroid.UdpDatagrams

/-!
# The arguments of the tunnel process

`ProxyService.startProxy` starts `tun2socks` with a command line, which `parse_arguments` reads
into `options`. The command lines that are read are the sequences of settings in any order and
with repetitions, where a setting is an option with arguments of the right form. Numbers are
those of C: `strtol` stops at the ends of `long`, whose width depends on the processor, and
`atoi` cuts the result off to an `int`.
-/

namespace ProxyDroid.TunnelArguments

open ConnectionTypes (Bytes)
open UdpDatagrams (hton16 processDeviceUdpPacket)

/-- The two kinds of processors the process is built for. -/
inductive Abi where
  /-- `long` has 32 bits. -/
  | ilp32
  /-- `long` has 64 bits. -/
  | lp64
  deriving DecidableEq

/-- `LONG_MAX`. -/
def Abi.longMax : Abi → ℤ
  | .ilp32 => 2147483647
  | .lp64 => 9223372036854775807

/-- What is fixed when the process is built. -/
structure Build where
  /-- The processor. -/
  abi : Abi
  /-- `blog_channel_list`: the channels of the logger with their first levels. -/
  channels : List (String×ℤ)

/-- `isspace`. -/
def isSpace (c : Char) : Bool := c = ' '||(9≤c.toNat&&c.toNat≤13)

/-- The text of a number without its sign. -/
def unsigned (s : List Char) : List Char :=
  if s.head?=some '-' ∨ s.head?=some '+' then s.tail else s

/-- The number of type `long` next to a number. -/
def Abi.toLong (abi : Abi) (number : ℤ) : ℤ := max (-abi.longMax-1) (min abi.longMax number)

/-- `strtol` in base 10: the number and the text `endptr` points to. -/
def strtol (abi : Abi) (s : List Char) : ℤ×List Char :=
  let body := s.dropWhile isSpace
  let digits := (unsigned body).takeWhile Char.isDigit
  if digits=[] then (0,s)
  else
    let number : ℤ := Nat.ofDigitChars 10 digits 0
    (abi.toLong (if body.head?=some '-' then -number else number),
      (unsigned body).dropWhile Char.isDigit)

/-- `atoi`, which converts the result of `strtol` to `int`. -/
def atoi (abi : Abi) (s : String) : ℤ := (strtol abi s.toList).1.bmod 4294967296

/-- `parse_loglevel`. -/
def parseLoglevel (abi : Abi) (str : String) : ℤ :=
  if str="none" then 0
  else if str="error" then 1
  else if str="warning" then 2
  else if str="notice" then 3
  else if str="info" then 4
  else if str="debug" then 5
  else
    let res := strtol abi str.toList
    if str.toList≠[] ∧ res.2=[] ∧ 0≤ res.1 ∧ res.1≤5 then res.1 else -1

/-- `LOGGER_STDOUT` and `LOGGER_SYSLOG`. -/
inductive Logger where
  | stdout
  | syslog
  deriving DecidableEq

/-- `options` of the Android build. A pointer that may be null is an optional string. -/
structure Options where
  help : Bool
  version : Bool
  logger : Logger
  loggerSyslogFacility : String
  loggerSyslogIdent : String
  loglevel : ℤ
  loglevels : List ℤ
  netifIpaddr : Option String
  netifNetmask : Option String
  netifIp6addr : Option String
  socksServerAddr : Option String
  username : Option String
  password : Option String
  passwordFile : Option String
  appendSourceToUsername : Bool
  udpgwRemoteServerAddr : Option String
  udpgwMaxConnections : ℤ
  tunFd : ℤ
  tunMtu : ℤ
  fakeProc : Bool
  sockPath : Option String
  pid : Option String
  dnsgw : Option String
  deriving DecidableEq

/-- The options before the first argument. `dnsgw` is not assigned by `parse_arguments`; it is
null as every static pointer. -/
def Options.initial (program : String) (channels : ℕ) : Options where
  help := false
  version := false
  logger := .stdout
  loggerSyslogFacility := "daemon"
  loggerSyslogIdent := program
  loglevel := -1
  loglevels := List.replicate channels (-1)
  netifIpaddr := none
  netifNetmask := none
  netifIp6addr := none
  socksServerAddr := none
  username := none
  password := none
  passwordFile := none
  appendSourceToUsername := false
  udpgwRemoteServerAddr := none
  udpgwMaxConnections := 256
  tunFd := -1
  tunMtu := 1500
  fakeProc := false
  sockPath := none
  pid := none
  dnsgw := none

/-- What is done for an option, by the number of its arguments. An argument is refused with the
text that stands behind the option in the message. -/
inductive Action where
  | flag (effect : Options → Options)
  | one (effect : String → Except String (Options → Options))
  | two (effect : String → String → Except String (Options → Options))

/-- An option that keeps its argument. -/
def text (keep : String → Options → Options) : Action := .one (fun value => .ok (keep value))

/-- An option with a positive number as its argument. -/
def positive (abi : Abi) (keep : ℤ → Options → Options) : Action :=
  .one (fun value =>
    if atoi abi value≤0 then .error "wrong argument" else .ok (keep (atoi abi value)))

/-- `--logger`. -/
def loggerAction : Action :=
  .one (fun value =>
    if value="stdout" then .ok (fun o => {o with logger:=.stdout})
    else if value="syslog" then .ok (fun o => {o with logger:=.syslog})
    else .error "wrong argument")

/-- `--loglevel`. -/
def loglevelAction (abi : Abi) : Action :=
  .one (fun value =>
    if parseLoglevel abi value<0 then .error "wrong argument"
    else .ok (fun o => {o with loglevel:=parseLoglevel abi value}))

/-- `BLogGlobal_GetChannelByName`. -/
def Build.getChannelByName (build : Build) (name : String) : Option ℕ :=
  build.channels.findIdx? (fun channel => channel.1=name)

/-- `--channel-loglevel`. -/
def channelLoglevelAction (build : Build) : Action :=
  .two (fun channel level =>
    match build.getChannelByName channel with
    | none => .error "wrong channel argument"
    | some index =>
      if parseLoglevel build.abi level<0 then .error "wrong loglevel argument"
      else .ok (fun o => {o with loglevels:=o.loglevels.set index (parseLoglevel build.abi level)}))

/-- The options of the Android build in the order in which an argument is compared with them. -/
def actions (build : Build) : List (String×Action) := [
  ("--help",.flag (fun o => {o with help:=true})),
  ("--version",.flag (fun o => {o with version:=true})),
  ("--logger",loggerAction),
  ("--syslog-facility",text (fun value o => {o with loggerSyslogFacility:=value})),
  ("--syslog-ident",text (fun value o => {o with loggerSyslogIdent:=value})),
  ("--loglevel",loglevelAction build.abi),
  ("--channel-loglevel",channelLoglevelAction build),
  ("--fake-proc",.flag (fun o => {o with fakeProc:=true})),
  ("--tunfd",positive build.abi (fun value o => {o with tunFd:=value})),
  ("--tunmtu",positive build.abi (fun value o => {o with tunMtu:=value})),
  ("--dnsgw",text (fun value o => {o with dnsgw:=some value})),
  ("--sock-path",text (fun value o => {o with sockPath:=some value})),
  ("--pid",text (fun value o => {o with pid:=some value})),
  ("--netif-ipaddr",text (fun value o => {o with netifIpaddr:=some value})),
  ("--netif-netmask",text (fun value o => {o with netifNetmask:=some value})),
  ("--netif-ip6addr",text (fun value o => {o with netifIp6addr:=some value})),
  ("--socks-server-addr",text (fun value o => {o with socksServerAddr:=some value})),
  ("--username",text (fun value o => {o with username:=some value})),
  ("--password",text (fun value o => {o with password:=some value})),
  ("--password-file",text (fun value o => {o with passwordFile:=some value})),
  ("--append-source-to-username",.flag (fun o => {o with appendSourceToUsername:=true})),
  ("--enable-udprelay",.flag (fun o => {o with udpgwRemoteServerAddr:=some "0.0.0.0:0"})),
  ("--udprelay-max-connections",positive build.abi (fun value o => {o with udpgwMaxConnections:=value}))]

/-- The option an argument is. -/
def actionOf (build : Build) (arg : String) : Option Action :=
  (actions build).lookup arg

/-- The loop over the arguments: the options, or the message of the argument it stops at. -/
def parseLoop (build : Build) : List String → Options → Except String Options
  | [],o => .ok o
  | arg::rest,o =>
    match actionOf build arg,rest with
    | none,_ => .error ("unknown option: "++arg++"\n")
    | some (.flag effect),rest => parseLoop build rest (effect o)
    | some (.one _),[] => .error (arg++": requires an argument\n")
    | some (.one effect),value::rest =>
      match effect value with
      | .ok keep => parseLoop build rest (keep o)
      | .error message => .error (arg++": "++message++"\n")
    | some (.two effect),first::second::rest =>
      match effect first second with
      | .ok keep => parseLoop build rest (keep o)
      | .error message => .error (arg++": "++message++"\n")
    | some (.two _),_ => .error (arg++": requires two arguments\n")

/-- The checks of `parse_arguments` behind the loop. -/
def required (o : Options) : Except String Options :=
  if o.help=true ∨ o.version=true then .ok o
  else if o.netifIpaddr=none then .error "--netif-ipaddr is required\n"
  else if o.netifNetmask=none then .error "--netif-netmask is required\n"
  else if o.socksServerAddr=none then .error "--socks-server-addr is required\n"
  else if o.username≠none ∧ o.password=none ∧ o.passwordFile=none then
    .error "username given but password not given\n"
  else if o.username≠none ∧ o.password≠none ∧ o.passwordFile≠none then
    .error "--password and --password-file cannot both be given\n"
  else .ok o

/-- `parse_arguments`. Without a program name there is no message. -/
def parseArguments (build : Build) : List String → Except String Options
  | [] => .error ""
  | program::args => do
    let o ← parseLoop build args (.initial program build.channels.length)
    required o

/-- The settings without arguments. -/
inductive Flag where
  | help
  | version
  | fakeProc
  | appendSourceToUsername
  | enableUdprelay

namespace Flag

/-- How a flag is written. -/
def word : Flag → String
  | help => "--help"
  | version => "--version"
  | fakeProc => "--fake-proc"
  | appendSourceToUsername => "--append-source-to-username"
  | enableUdprelay => "--enable-udprelay"

/-- What a flag asks for. -/
def keep : Flag → Options → Options
  | help => fun o => {o with help:=true}
  | version => fun o => {o with version:=true}
  | fakeProc => fun o => {o with fakeProc:=true}
  | appendSourceToUsername => fun o => {o with appendSourceToUsername:=true}
  | enableUdprelay => fun o => {o with udpgwRemoteServerAddr:=some "0.0.0.0:0"}

end Flag

/-- The settings with any text. -/
inductive TextField where
  | syslogFacility
  | syslogIdent
  | dnsgw
  | sockPath
  | pid
  | netifIpaddr
  | netifNetmask
  | netifIp6addr
  | socksServerAddr
  | username
  | password
  | passwordFile

namespace TextField

/-- How the setting is written. -/
def word : TextField → String
  | syslogFacility => "--syslog-facility"
  | syslogIdent => "--syslog-ident"
  | dnsgw => "--dnsgw"
  | sockPath => "--sock-path"
  | pid => "--pid"
  | netifIpaddr => "--netif-ipaddr"
  | netifNetmask => "--netif-netmask"
  | netifIp6addr => "--netif-ip6addr"
  | socksServerAddr => "--socks-server-addr"
  | username => "--username"
  | password => "--password"
  | passwordFile => "--password-file"

/-- Where the text goes. -/
def keep : TextField → String → Options → Options
  | syslogFacility => fun value o => {o with loggerSyslogFacility:=value}
  | syslogIdent => fun value o => {o with loggerSyslogIdent:=value}
  | dnsgw => fun value o => {o with dnsgw:=some value}
  | sockPath => fun value o => {o with sockPath:=some value}
  | pid => fun value o => {o with pid:=some value}
  | netifIpaddr => fun value o => {o with netifIpaddr:=some value}
  | netifNetmask => fun value o => {o with netifNetmask:=some value}
  | netifIp6addr => fun value o => {o with netifIp6addr:=some value}
  | socksServerAddr => fun value o => {o with socksServerAddr:=some value}
  | username => fun value o => {o with username:=some value}
  | password => fun value o => {o with password:=some value}
  | passwordFile => fun value o => {o with passwordFile:=some value}

end TextField

/-- The settings with a positive number. -/
inductive NumberField where
  | tunfd
  | tunmtu
  | udprelayMaxConnections

namespace NumberField

/-- How the setting is written. -/
def word : NumberField → String
  | tunfd => "--tunfd"
  | tunmtu => "--tunmtu"
  | udprelayMaxConnections => "--udprelay-max-connections"

/-- Where the number goes. -/
def keep : NumberField → ℤ → Options → Options
  | tunfd => fun value o => {o with tunFd:=value}
  | tunmtu => fun value o => {o with tunMtu:=value}
  | udprelayMaxConnections => fun value o => {o with udpgwMaxConnections:=value}

end NumberField

/-- How a logger is written. -/
def Logger.word : Logger → String
  | .stdout => "stdout"
  | .syslog => "syslog"

/-- A setting of the process, with arguments of the right form. -/
inductive Setting (build : Build) where
  | flag (f : Flag)
  | text (t : TextField) (value : String)
  | number (n : NumberField) (value : String) (hvalue : 0<atoi build.abi value)
  | logger (l : Logger)
  | loglevel (level : String) (hlevel : 0≤parseLoglevel build.abi level)
  | channelLoglevel (name level : String) (channel : ℕ)
      (hchannel : build.getChannelByName name=some channel)
      (hlevel : 0≤parseLoglevel build.abi level)

variable {build : Build}

/-- How a setting is written on the command line. -/
def Setting.words : Setting build → List String
  | .flag f => [f.word]
  | .text t value => [t.word,value]
  | .number n value _ => [n.word,value]
  | .logger l => ["--logger",l.word]
  | .loglevel level _ => ["--loglevel",level]
  | .channelLoglevel name level _ _ _ => ["--channel-loglevel",name,level]

/-- What a setting does to the options. -/
def Setting.effect : Setting build → Options → Options
  | .flag f => f.keep
  | .text t value => t.keep value
  | .number n value _ => n.keep (atoi build.abi value)
  | .logger l => fun o => {o with logger:=l}
  | .loglevel level _ => fun o => {o with loglevel:=parseLoglevel build.abi level}
  | .channelLoglevel _ level channel _ _ => fun o =>
    {o with loglevels:=o.loglevels.set channel (parseLoglevel build.abi level)}

/-- The options after settings in their order. -/
def applied (settings : List (Setting build)) (o : Options) : Options :=
  settings.foldl (fun o s => s.effect o) o

/-- What is given on a command line that is not refused: help or the version is asked for, or
the interface and the server are given and a user name comes with one kind of password. -/
def Complete (o : Options) : Prop :=
  o.help=true ∨ o.version=true ∨
    (o.netifIpaddr≠none ∧ o.netifNetmask≠none ∧ o.socksServerAddr≠none ∧
      (o.username≠none → (o.password=none ↔ o.passwordFile≠none)))

/-- The table has an entry for every flag. -/
theorem actionOf_flag (f : Flag) : actionOf build f.word=some (.flag f.keep) := by
  cases f <;> rfl

/-- It has one for every setting with a text. -/
theorem actionOf_text (t : TextField) : actionOf build t.word=some (text t.keep) := by
  cases t <;> rfl

/-- It has one for every setting with a number. -/
theorem actionOf_number (n : NumberField) :
    actionOf build n.word=some (positive build.abi n.keep) := by
  cases n <;> rfl

/-- The loop reads one setting and goes on behind it. -/
theorem parseLoop_setting (s : Setting build) (rest : List String) (o : Options) :
    parseLoop build (s.words++rest) o=parseLoop build rest (s.effect o) := by
  have hlogger : actionOf build "--logger"=some loggerAction := rfl
  have hlevels : actionOf build "--loglevel"=some (loglevelAction build.abi) := rfl
  have hchannels : actionOf build "--channel-loglevel"=some (channelLoglevelAction build) := rfl
  cases s with
  | flag f =>
    rw [Setting.words,List.singleton_append,parseLoop.eq_def]
    simp only [actionOf_flag,Setting.effect]
  | text t value =>
    rw [Setting.words,List.cons_append,parseLoop.eq_def]
    simp only [List.cons_append,List.nil_append,actionOf_text,text,Setting.effect]
  | number n value hvalue =>
    rw [Setting.words,List.cons_append,parseLoop.eq_def]
    simp only [List.cons_append,List.nil_append,actionOf_number,positive,Setting.effect,
      if_neg (Int.not_le.mpr hvalue)]
  | logger l =>
    rw [Setting.words,List.cons_append,parseLoop.eq_def]
    simp only [List.cons_append,List.nil_append,hlogger,loggerAction]
    cases l with
    | stdout => rfl
    | syslog => rfl
  | loglevel level hlevel =>
    rw [Setting.words,List.cons_append,parseLoop.eq_def]
    simp only [List.cons_append,List.nil_append,hlevels,loglevelAction,Setting.effect,
      if_neg (Int.not_lt.mpr hlevel)]
  | channelLoglevel name level channel hchannel hlevel =>
    rw [Setting.words,List.cons_append,parseLoop.eq_def]
    simp only [List.cons_append,List.nil_append,hchannels,channelLoglevelAction,hchannel,
      Setting.effect,if_neg (Int.not_lt.mpr hlevel)]

/-- The loop reads settings one behind the other. -/
theorem parseLoop_settings (settings : List (Setting build)) (o : Options) :
    parseLoop build (settings.flatMap Setting.words) o=.ok (applied settings o) := by
  induction settings generalizing o with
  | nil => rfl
  | cons s settings ih =>
    rw [List.flatMap_cons,parseLoop_setting,ih]
    rfl

/-- What is done for an option is what one of its settings does. -/
def Action.Described (build : Build) (option : String) : Action → Prop
  | .flag effect => ∃ s : Setting build, s.words=[option] ∧ s.effect=effect
  | .one effect => ∀ value keep, effect value=.ok keep →
    ∃ s : Setting build, s.words=[option,value] ∧ s.effect=keep
  | .two effect => ∀ first second keep, effect first second=.ok keep →
    ∃ s : Setting build, s.words=[option,first,second] ∧ s.effect=keep

theorem described_flag (f : Flag) : Action.Described build f.word (.flag f.keep) :=
  ⟨.flag f,rfl,rfl⟩

theorem described_text (t : TextField) : Action.Described build t.word (text t.keep) := by
  intro value keep hk
  cases hk
  exact ⟨.text t value,rfl,rfl⟩

theorem described_number (n : NumberField) :
    Action.Described build n.word (positive build.abi n.keep) := by
  intro value keep hk
  beta_reduce at hk
  by_cases hv : atoi build.abi value≤0
  · rw [if_pos hv] at hk
    cases hk
  · rw [if_neg hv] at hk
    cases hk
    exact ⟨.number n value (Int.not_le.mp hv),rfl,rfl⟩

theorem described_logger : Action.Described build "--logger" loggerAction := by
  intro value keep hk
  beta_reduce at hk
  split_ifs at hk with hout hsys
  · cases hk
    exact ⟨.logger .stdout,by rw [hout]; rfl,rfl⟩
  · cases hk
    exact ⟨.logger .syslog,by rw [hsys]; rfl,rfl⟩

theorem described_loglevel :
    Action.Described build "--loglevel" (loglevelAction build.abi) := by
  intro value keep hk
  beta_reduce at hk
  by_cases hv : parseLoglevel build.abi value<0
  · rw [if_pos hv] at hk
    cases hk
  · rw [if_neg hv] at hk
    cases hk
    exact ⟨.loglevel value (Int.not_lt.mp hv),rfl,rfl⟩

theorem described_channelLoglevel :
    Action.Described build "--channel-loglevel" (channelLoglevelAction build) := by
  intro name level keep hk
  cases hc : build.getChannelByName name with
  | none =>
    simp only [hc] at hk
    cases hk
  | some channel =>
    simp only [hc] at hk
    by_cases hv : parseLoglevel build.abi level<0
    · rw [if_pos hv] at hk
      cases hk
    · rw [if_neg hv] at hk
      cases hk
      exact ⟨.channelLoglevel name level channel hc (Int.not_lt.mp hv),rfl,rfl⟩

/-- Every entry of the table is described by the settings. -/
theorem actions_described : ∀ p∈actions build, p.2.Described build p.1 := by
  simp only [actions,List.forall_mem_cons,List.not_mem_nil,false_implies,implies_true,and_true]
  exact ⟨described_flag .help,described_flag .version,described_logger,
    described_text .syslogFacility,described_text .syslogIdent,described_loglevel,
    described_channelLoglevel,described_flag .fakeProc,described_number .tunfd,
    described_number .tunmtu,described_text .dnsgw,described_text .sockPath,described_text .pid,
    described_text .netifIpaddr,described_text .netifNetmask,described_text .netifIp6addr,
    described_text .socksServerAddr,described_text .username,described_text .password,
    described_text .passwordFile,described_flag .appendSourceToUsername,
    described_flag .enableUdprelay,described_number .udprelayMaxConnections⟩

theorem described_of_actionOf {option : String} {action : Action}
    (h : actionOf build option=some action) : action.Described build option := by
  obtain ⟨before,behind,hl,-⟩ := List.lookup_eq_some_iff.mp h
  have hmem : (option,action)∈actions build := by
    rw [hl]
    exact List.mem_append_right before List.mem_cons_self
  exact actions_described _ hmem

/-- The loop reads nothing but settings. -/
theorem exists_settings {args : List String} {o o' : Options}
    (h : parseLoop build args o=.ok o') :
    ∃ settings : List (Setting build),
      args=settings.flatMap Setting.words ∧ o'=applied settings o := by
  -- A setting in front of those that are read behind it.
  have hcons : ∀ {words rest : List String} {effect : Options → Options} {o : Options},
      (∃ s : Setting build, s.words=words ∧ s.effect=effect) →
      (∃ settings : List (Setting build),
        rest=settings.flatMap Setting.words ∧ o'=applied settings (effect o)) →
      ∃ settings : List (Setting build),
        words++rest=settings.flatMap Setting.words ∧ o'=applied settings o := by
    intro words rest effect o hs hr
    obtain ⟨s,rfl,rfl⟩ := hs
    obtain ⟨settings,hw,ho⟩ := hr
    exact ⟨s::settings,by rw [hw,List.flatMap_cons],ho⟩
  fun_induction parseLoop build args o with
  | case1 o =>
    cases h
    exact ⟨[],rfl,rfl⟩
  | case2 => cases h
  | case3 arg o effect rest ha ih => exact hcons (described_of_actionOf ha) (ih h)
  | case4 => cases h
  | case5 arg o effect value rest ha keep hk ih =>
    exact hcons (described_of_actionOf ha value keep hk) (ih h)
  | case6 => cases h
  | case7 arg o effect first second rest ha keep hk ih =>
    exact hcons (described_of_actionOf ha first second keep hk) (ih h)
  | case8 => cases h
  | case9 => cases h

/-- The checks behind the loop pass what is complete, unchanged. -/
theorem required_eq_ok {o o' : Options} : required o=.ok o' ↔ o'=o ∧ Complete o := by
  unfold required Complete
  grind

/-- `parse_arguments` takes exactly the command lines that are a program name and settings, in
any order and as often as one likes, if what they give together is complete. The settings take
effect one after the other. -/
theorem parses_iff {argv : List String} {o : Options} :
    parseArguments build argv=.ok o ↔
      ∃ program, ∃ settings : List (Setting build),
        argv=program::settings.flatMap Setting.words ∧
          o=applied settings (.initial program build.channels.length) ∧ Complete o := by
  constructor
  · intro h
    cases argv with
    | nil => cases h
    | cons program args =>
      cases hl : parseLoop build args (.initial program build.channels.length) with
      | error message =>
        simp only [parseArguments,hl] at h
        cases h
      | ok o' =>
        simp only [parseArguments,hl] at h
        obtain ⟨rfl,hc⟩ := required_eq_ok.mp h
        obtain ⟨settings,hw,ho⟩ := exists_settings hl
        exact ⟨program,settings,by rw [hw],ho,hc⟩
  · rintro ⟨program,settings,rfl,ho,hc⟩
    have hl := parseLoop_settings settings (.initial program build.channels.length)
    simp only [parseArguments,hl]
    rw [←ho]
    exact required_eq_ok.mpr ⟨rfl,hc⟩

/-- A number beyond the ends of `int` is refused or not, as the processor has it. -/
example : (0<atoi .ilp32 "2147483648") ∧ ¬(0<atoi .lp64 "2147483648") := by decide

/-- What every setting keeps holds after all of them. -/
theorem applied_invariant {I : Options → Prop} {settings : List (Setting build)} {o : Options}
    (hs : ∀ s∈settings, ∀ o, I o → I (s.effect o)) (ho : I o) : I (applied settings o) := by
  induction settings generalizing o with
  | nil => exact ho
  | cons s settings ih =>
    exact ih (fun t ht => hs t (List.mem_cons_of_mem s ht)) (hs s List.mem_cons_self o ho)

/-- The numbers of the options are in the ranges their users ask for. -/
structure InRange (channels : ℕ) (o : Options) : Prop where
  /-- Each channel has a level. -/
  length : o.loglevels.length=channels
  /-- `BLog_SetChannelLoglevel` asks for levels up to `BLOG_DEBUG`. -/
  levels : ∀ level∈o.loglevels, level≤5
  /-- So it does for the common level. -/
  level : o.loglevel≤5
  /-- The MTU of the device is positive. -/
  mtu : 0<o.tunMtu

/-- Levels that are read are levels. -/
theorem parseLoglevel_le (abi : Abi) (str : String) : parseLoglevel abi str≤5 := by
  unfold parseLoglevel
  grind

theorem inRange_initial (program : String) (channels : ℕ) :
    InRange channels (.initial program channels) where
  length := List.length_replicate
  levels := fun level hl => by rw [List.eq_of_mem_replicate hl]; decide
  level := (by decide : (-1 : ℤ)≤5)
  mtu := (by decide : (0 : ℤ)<1500)

/-- Every setting leaves the numbers in their ranges. -/
theorem InRange.stepped {channels : ℕ} {o : Options} (h : InRange channels o)
    (s : Setting build) : InRange channels (s.effect o) := by
  cases s with
  | flag f => cases f <;> exact ⟨h.length,h.levels,h.level,h.mtu⟩
  | text t value => cases t <;> exact ⟨h.length,h.levels,h.level,h.mtu⟩
  | number n value hvalue =>
    cases n with
    | tunfd => exact ⟨h.length,h.levels,h.level,h.mtu⟩
    | tunmtu => exact ⟨h.length,h.levels,h.level,hvalue⟩
    | udprelayMaxConnections => exact ⟨h.length,h.levels,h.level,h.mtu⟩
  | logger l => exact ⟨h.length,h.levels,h.level,h.mtu⟩
  | loglevel level hlevel => exact ⟨h.length,h.levels,parseLoglevel_le build.abi level,h.mtu⟩
  | channelLoglevel name level channel hchannel hlevel =>
    refine ⟨(List.length_set ..).trans h.length,fun l hl => ?_,h.level,h.mtu⟩
    rcases List.mem_or_eq_of_mem_set hl with hold|rfl
    · exact h.levels l hold
    · exact parseLoglevel_le build.abi level

/-- The options of a command line that is read are in their ranges. -/
theorem parsed_inRange {argv : List String} {o : Options}
    (h : parseArguments build argv=.ok o) : InRange build.channels.length o := by
  obtain ⟨program,settings,-,rfl,-⟩ := parses_iff.mp h
  exact applied_invariant (fun s _ o ho => ho.stepped s) (inRange_initial program _)

/-- No other setting turns the relay of UDP packets on. -/
theorem effect_udpgw (s : Setting build) (hs : "--enable-udprelay"∉s.words) (o : Options) :
    (s.effect o).udpgwRemoteServerAddr=o.udpgwRemoteServerAddr := by
  cases s with
  | flag f =>
    cases f with
    | enableUdprelay => exact absurd List.mem_cons_self hs
    | _ => rfl
  | text t value => cases t <;> rfl
  | number n value hvalue => cases n <;> rfl
  | _ => rfl

/-- What the packet functions use of the options. The device has the MTU that is given. -/
def Options.device (o : Options) : UdpDatagrams.Options where
  udpgw := o.udpgwRemoteServerAddr.isSome
  netifIp6addr := o.netifIp6addr.isSome
  dnsgw := o.dnsgw.isSome
  mtu := o.tunMtu.toNat

/-- A process takes UDP packets from the device only if it has been started with
`--enable-udprelay`. -/
theorem udp_taken_needs_option {argv : List String} {o : Options} {data : Bytes}
    {s : UdpDatagrams.Submission} (hp : parseArguments build argv=.ok o)
    (ht : processDeviceUdpPacket o.device data=some s) : "--enable-udprelay"∈argv := by
  obtain ⟨program,settings,rfl,rfl,-⟩ := parses_iff.mp hp
  by_contra hno
  have hnone : (applied settings (.initial program
      build.channels.length)).udpgwRemoteServerAddr=none := by
    refine applied_invariant (I:=fun o => o.udpgwRemoteServerAddr=none) (fun s hs o ho => ?_) rfl
    rw [effect_udpgw s (fun hw => hno ?_)]
    · exact ho
    · exact List.mem_cons_of_mem program (List.mem_flatMap.mpr ⟨s,hs,hw⟩)
  rw [processDeviceUdpPacket,if_pos (by simp only [Options.device,hnone,Option.isSome_none])] at ht
  cases ht

/-- A command line with the relay. -/
def sampleCommand : List String :=
  ["tun2socks","--netif-ipaddr","172.19.0.2","--netif-netmask","255.255.255.0",
    "--socks-server-addr","127.0.0.1:1080","--enable-udprelay"]

/-- The options it gives. -/
def sampleOptions : Options :=
  {Options.initial "tun2socks" 0 with
    netifIpaddr:=some "172.19.0.2",netifNetmask:=some "255.255.255.0",
    socksServerAddr:=some "127.0.0.1:1080",udpgwRemoteServerAddr:=some "0.0.0.0:0"}

/-- A packet the relay takes. -/
def sampleDatagram : Bytes :=
  UdpDatagrams.ipv4Packet UdpDatagrams.sampleLocalIp UdpDatagrams.sampleRemoteIp (hton16 5000)
    (hton16 53) [1,2]

theorem udp_taken_needs_option_sample : "--enable-udprelay"∈sampleCommand := by
  have hparse : parseArguments ⟨.lp64,[]⟩ sampleCommand=.ok sampleOptions := rfl
  have htaken : (processDeviceUdpPacket sampleOptions.device sampleDatagram).isSome=true := by
    decide +kernel
  obtain ⟨s,hs⟩ := Option.isSome_iff_exists.mp htaken
  exact udp_taken_needs_option hparse hs

/-- A character with which a number goes on is neither blank nor a sign. -/
theorem isDigit_cases {c : Char} (h : c.isDigit=true) :
    isSpace c=false ∧ c ≠ '-' ∧ c ≠ '+' := by
  have hc : 48≤c.toNat ∧ c.toNat≤57 := by
    simp only [Char.isDigit,Bool.and_eq_true,decide_eq_true_eq] at h
    exact h
  refine ⟨?_,?_,?_⟩
  · have hs : c ≠ ' ' := by
      rintro rfl
      exact absurd hc.1 (by decide)
    simp only [isSpace,Bool.or_eq_false_iff,decide_eq_false_iff_not,Bool.and_eq_false_iff]
    exact ⟨hs,.inr (by omega)⟩
  · rintro rfl
    exact absurd hc.1 (by decide)
  · rintro rfl
    exact absurd hc.1 (by decide)

section Digits

variable {abi : Abi} {digits : List Char} (hd : ∀ c∈digits, c.isDigit=true) (hne : digits≠[])

include hd hne

/-- Digits are read as their number. -/
theorem strtol_digits : strtol abi digits=(abi.toLong ↑(Nat.ofDigitChars 10 digits 0),[]) := by
  cases digits with
  | nil => exact absurd rfl hne
  | cons c rest =>
    obtain ⟨hs,hm,hp⟩ := isDigit_cases (hd c List.mem_cons_self)
    have htake : (c::rest).takeWhile Char.isDigit=c::rest := List.takeWhile_eq_self_iff.mpr hd
    have hdrop : (c::rest).dropWhile Char.isDigit=[] := List.dropWhile_eq_nil_iff.mpr hd
    have hbody : (c::rest).dropWhile isSpace=c::rest := by
      rw [List.dropWhile_cons_of_neg (by rw [hs]; decide)]
    have hun : unsigned (c::rest)=c::rest := by
      simp [unsigned,hm,hp]
    unfold strtol
    simp only [hbody,hun,htake,hdrop,List.head?_cons,Option.some.injEq,hm,if_false]
    rw [if_neg (List.cons_ne_nil c rest)]

/-- Digits behind a minus sign are read as the negated number. -/
theorem strtol_minus : strtol abi ('-'::digits)=(abi.toLong (-↑(Nat.ofDigitChars 10 digits 0)),[]) := by
  have htake : digits.takeWhile Char.isDigit=digits := List.takeWhile_eq_self_iff.mpr hd
  have hdrop : digits.dropWhile Char.isDigit=[] := List.dropWhile_eq_nil_iff.mpr hd
  have hbody : ('-'::digits).dropWhile isSpace = '-'::digits :=
    List.dropWhile_cons_of_neg (by decide)
  have hun : unsigned ('-'::digits)=digits := by
    simp [unsigned]
  unfold strtol
  simp only [hbody,hun,htake,hdrop,List.head?_cons,if_true]
  rw [if_neg hne]

end Digits

/-- Conversions between the integer types keep a number of type `int`. -/
theorem bmod_toLong (abi : Abi) {n : ℤ} (hlow : -2147483648≤n) (hhigh : n≤2147483647) :
    (abi.toLong n).bmod 4294967296=n := by
  have hlong : abi.toLong n=n := by
    unfold Abi.toLong
    cases abi <;> simp only [Abi.longMax] <;> omega
  rw [hlong,Int.bmod_def]
  omega

/-- `atoi` reads back a number of type `int` that has been printed. -/
theorem atoi_toString (abi : Abi) {n : ℤ} (hlow : -2147483648≤n) (hhigh : n≤2147483647) :
    atoi abi (toString n)=n := by
  have hdigits : ∀ m : ℕ, (∀ c∈Nat.toDigits 10 m, c.isDigit=true) ∧ Nat.toDigits 10 m≠[] ∧
      Nat.ofDigitChars 10 (Nat.toDigits 10 m) 0=m := fun m =>
    ⟨fun c hc => Nat.isDigit_of_mem_toDigits (by decide) (by decide) hc,
      Nat.toDigits_ne_nil,Nat.ofDigitChars_toDigits (by decide) (by decide)⟩
  have hlong := bmod_toLong abi hlow hhigh
  cases n with
  | ofNat m =>
    have hl : (toString (Int.ofNat m)).toList=Nat.toDigits 10 m := by
      change (Nat.repr m).toList=_
      simp [Nat.repr]
    obtain ⟨hd,hne,hv⟩ := hdigits m
    rw [atoi,hl,strtol_digits hd hne,hv]
    exact hlong
  | negSucc m =>
    have hl : (toString (Int.negSucc m)).toList = '-'::Nat.toDigits 10 (m+1) := by
      change ("-"++Nat.repr (m+1)).toList=_
      simp [Nat.repr]
    obtain ⟨hd,hne,hv⟩ := hdigits (m+1)
    rw [atoi,hl,strtol_minus hd hne,hv]
    exact hlong

/-- `PRIVATE_VLAN` with its last part. -/
def privateVlan (last : String) : String := "172.19.0."++last

/-- `VPN_MTU`. -/
def vpnMtu : ℤ := 1500

/-- The command line `startProxy` gives to the process pool for a descriptor. -/
def serviceCommand (program : String) (connectFD : ℤ) : List String :=
  [program,
    "--netif-ipaddr",privateVlan "2",
    "--netif-netmask","255.255.255.0",
    "--socks-server-addr","127.0.0.1:1080",
    "--tunfd",toString connectFD,
    "--tunmtu",toString vpnMtu,
    "--sock-path","sock_path",
    "--loglevel","3"]

/-- The options the service asks for. -/
def serviceOptions (program : String) (channels : ℕ) (connectFD : ℤ) : Options :=
  {Options.initial program channels with
    netifIpaddr:=some "172.19.0.2",netifNetmask:=some "255.255.255.0",
    socksServerAddr:=some "127.0.0.1:1080",tunFd:=connectFD,tunMtu:=1500,
    sockPath:=some "sock_path",loglevel:=3}

/-- The loop keeps the argument of an option. -/
theorem parseLoop_text {name : String} {keep : String → Options → Options}
    (ha : actionOf build name=some (text keep)) (value : String) (rest : List String)
    (o : Options) :
    parseLoop build (name::value::rest) o=parseLoop build rest (keep value o) := by
  rw [parseLoop.eq_def]
  simp only [ha,text]

/-- The loop reads a printed number of type `int` if it is positive. -/
theorem parseLoop_positive {name : String} {keep : ℤ → Options → Options}
    (ha : actionOf build name=some (positive build.abi keep)) {n : ℤ} (hlow : -2147483648≤n)
    (hhigh : n≤2147483647) (rest : List String) (o : Options) :
    parseLoop build (name::toString n::rest) o=
      if n≤0 then .error (name++": "++"wrong argument"++"\n")
      else parseLoop build rest (keep n o) := by
  rw [parseLoop.eq_def]
  simp only [ha,positive,atoi_toString build.abi hlow hhigh]
  by_cases hn : n≤0
  · simp only [if_pos hn]
  · simp only [if_neg hn]

/-- The command line of the service is read for a positive descriptor and refused otherwise. -/
theorem parse_serviceCommand (build : Build) (program : String) {connectFD : ℤ}
    (hlow : -2147483648≤connectFD) (hhigh : connectFD≤2147483647) :
    parseArguments build (serviceCommand program connectFD)=
      if connectFD≤0 then .error "--tunfd: wrong argument\n"
      else .ok (serviceOptions program build.channels.length connectFD) := by
  have hlevel : ∀ o, parseLoop build ["--loglevel","3"] o=.ok {o with loglevel:=3} := by
    intro o
    have hthree : 0≤parseLoglevel build.abi "3" := by
      cases build.abi <;> decide
    have hread := parseLoop_setting (.loglevel "3" hthree) [] o
    rw [show Setting.effect (.loglevel "3" hthree) o={o with loglevel:=3} by
      cases build with | mk abi channels => cases abi <;> rfl] at hread
    exact hread
  have hl : parseLoop build (serviceCommand program connectFD).tail
      (.initial program build.channels.length)=
        if connectFD≤0 then .error "--tunfd: wrong argument\n"
        else .ok (serviceOptions program build.channels.length connectFD) := by
    rw [serviceCommand,List.tail_cons,parseLoop_text rfl,parseLoop_text rfl,parseLoop_text rfl,
      parseLoop_positive rfl hlow hhigh,parseLoop_positive rfl (by decide) (by decide),
      if_neg (show ¬vpnMtu≤0 by decide),parseLoop_text rfl,hlevel]
    rfl
  change (parseLoop build (serviceCommand program connectFD).tail _ >>= required)=_
  rw [hl]
  by_cases hfd : connectFD≤0
  · rw [if_pos hfd]
    rfl
  · rw [if_neg hfd]
    rfl

end ProxyDroid.TunnelArguments
