import PrimoMiner.Rpc

/-!
# Configuration

`config.cpp`: the options of the command line, the config file, and the pools that both give.  An option that
cannot be read ends the program, which is `none` here.  What is only logged is left out.
-/

namespace PrimoMiner

def intMin : Int := -2 ^ 31
def intMax : Int := 2 ^ 31 - 1

/-- `MAX_THREADS` -/
def maxThreads : Int := 32

/-- What the build and the system decide. -/
structure ConfigEnv where
  -- `PRIMO_RANDOMX`
  randomx : Bool
  -- `inet_pton(AF_INET, …) == 1`
  inetPton : String → Bool
  -- `sysconf(_SC_NPROCESSORS_ONLN)`
  onlineCpus : Int

inductive CliKey where
  | algo | apiBind | benchmark | config | cpuAffinity | cpuPriority | debug | help | nicehash | pass
  | protocolDump | quiet | retries | retryPause | statsavg | threads | timeout | url | user | userpass | version
  deriving DecidableEq, Repr

structure CliOption where
  name : String
  hasArg : Bool
  val : CliKey

/-- `g_cli_options` -/
def cliOptions : List CliOption :=
  [⟨"algo", true, .algo⟩, ⟨"api-bind", true, .apiBind⟩, ⟨"benchmark", false, .benchmark⟩,
   ⟨"config", true, .config⟩, ⟨"cpu-affinity", true, .cpuAffinity⟩, ⟨"cpu-priority", true, .cpuPriority⟩,
   ⟨"debug", false, .debug⟩, ⟨"help", false, .help⟩, ⟨"nicehash", false, .nicehash⟩, ⟨"pass", true, .pass⟩,
   ⟨"protocol-dump", false, .protocolDump⟩, ⟨"quiet", false, .quiet⟩, ⟨"retries", true, .retries⟩,
   ⟨"retry-pause", true, .retryPause⟩, ⟨"statsavg", true, .statsavg⟩, ⟨"threads", true, .threads⟩,
   ⟨"timeout", true, .timeout⟩, ⟨"url", true, .url⟩, ⟨"user", true, .user⟩, ⟨"userpass", true, .userpass⟩,
   ⟨"version", false, .version⟩]

/-! ## State -/

/-- The global options. -/
structure GlobalOptions where
  debug : Bool := false
  quiet : Bool := false
  benchmark : Bool := false
  protocol : Bool := false
  nicehash : Bool := false
  nThreads : Int := 0
  timeout : Int := 300
  retries : Int := -1
  retryPause : Int := 30
  apiBind : Option String := none
  apiPort : Int := 4068
  apiPortExplicit : Bool := false
  statsavg : Int := 30
  priority : Int := 0
  affinitySet : Bool := false
  affinityMask : Nat := 0
  algo : Algo := .verus
  deriving DecidableEq, Repr

/-- A pool of the table with its timeout. -/
structure ConfiguredPool extends PoolInfos where
  timeout : Int := 0
  deriving DecidableEq, Repr

structure PoolDefaults where
  url : String := ""
  user : String := ""
  pass : String := ""
  urlSet : Bool := false
  userSet : Bool := false
  passSet : Bool := false
  deriving DecidableEq, Repr

/-- The extern variables that the configuration writes. -/
structure Configuration where
  options : GlobalOptions := {}
  pools : Nat → ConfiguredPool := fun _ => {}
  numPools : Nat := 0
  curPooln : Nat := 0

/-- With the static variables of the file. -/
structure ConfigState extends Configuration where
  defaults : PoolDefaults := {}
  usesPoolArray : Bool := false

/-! ## Pools -/

namespace PoolDefaults

def setUrl (d : PoolDefaults) (value : String) : PoolDefaults :=
  { d with url := snprintf 512 value, urlSet := value != "" }

def setUser (d : PoolDefaults) (value : String) : PoolDefaults :=
  { d with user := snprintf 192 value, userSet := true }

def setPass (d : PoolDefaults) (value : String) : PoolDefaults :=
  { d with pass := snprintf 384 value, passSet := true }

/-- `apply_pool_default_credentials` on one pool: `missingUser` and `missingPass` say which of them the
defaults may replace. -/
def applyCredentials (d : PoolDefaults) (updateUser updatePass : Bool) (missingUser missingPass : Bool)
    (p : ConfiguredPool) : ConfiguredPool :=
  let p := if updateUser ∧ d.userSet ∧ missingUser then { p with user := snprintf 192 d.user } else p
  if updatePass ∧ d.passSet ∧ missingPass then { p with pass := snprintf 384 d.pass } else p

end PoolDefaults

/-- The url of a pool and its short form. -/
def ConfiguredPool.setUrl (p : ConfiguredPool) (url : String) : ConfiguredPool :=
  { p with url := snprintf 512 url, shortUrl := snprintf 64 (shortUrlOf (snprintf 512 url)) }

namespace ConfigState

def setOptions (s : ConfigState) (options : GlobalOptions) : ConfigState := { s with options }

def setPool (s : ConfigState) (i : Nat) (p : ConfiguredPool) : ConfigState :=
  { s with pools := Function.update s.pools i p }

@[simp] theorem setPool_self (s : ConfigState) (i : Nat) (p : ConfiguredPool) : (s.setPool i p).pools i = p :=
  Function.update_self ..

theorem setPool_of_ne (s : ConfigState) {i j : Nat} (p : ConfiguredPool) (h : j ≠ i) :
    (s.setPool i p).pools j = s.pools j :=
  Function.update_of_ne h ..

def clearConfiguredPoolSet (s : ConfigState) : ConfigState :=
  { s with
    pools := fun _ => {}
    numPools := 0
    usesPoolArray := false
    curPooln := 0 }

/-- A loop over the configured pools that changes each on its own. -/
def mapConfigured (s : ConfigState) (f : ConfiguredPool → ConfiguredPool) : ConfigState :=
  { s with pools := fun i => if i < s.numPools ∧ (s.pools i).configured then f (s.pools i) else s.pools i }

def syncConfiguredPoolDefaults (s : ConfigState) (updateUser updatePass : Bool) : ConfigState :=
  s.mapConfigured (s.defaults.applyCredentials updateUser updatePass true true)

def syncConfiguredPoolTimeouts (s : ConfigState) (timeout : Int) : ConfigState :=
  s.mapConfigured fun p => { p with timeout }

def registerPoolIndex (s : ConfigState) (i : Nat) : ConfigState :=
  if maxUserPools ≤ i then s
  else
    { s.setPool i { s.pools i with configured := true } with
      numPools := if s.numPools < i + 1 then i + 1 else s.numPools }

end ConfigState

/-! ## Arguments -/

def parseCliIntOption (arg : String) : Option Int :=
  let (parsed, rest) := strtol arg.toList
  if rest.length = arg.toList.length ∨ rest ≠ [] ∨ parsed < intMin ∨ intMax < parsed then none
  else some parsed

def parseAlgorithmName (env : ConfigEnv) (name : String) : Option Algo :=
  if strcasecmpEq name "verus" then some .verus
  else if strcasecmpEq name "sha256d" || strcasecmpEq name "sha256" || strcasecmpEq name "btc" ||
      strcasecmpEq name "bitcoin" then some .sha256d
  else if strcasecmpEq name "scrypt" || strcasecmpEq name "ltc" || strcasecmpEq name "litecoin" then
    some .scrypt
  else if strcasecmpEq name "randomx" || strcasecmpEq name "rx" || strcasecmpEq name "rx/0" ||
      strcasecmpEq name "xmr" || strcasecmpEq name "monero" then
    if env.randomx then some .randomx else none
  else none

/-- `isxdigit` -/
def isHexDigit (c : Char) : Bool :=
  c.isDigit || ('a' ≤ c && c ≤ 'f') || ('A' ≤ c && c ≤ 'F')

def hexDigitValue (c : Char) : Nat :=
  if c.isDigit then c.toNat - '0'.toNat
  else if 'a' ≤ c && c ≤ 'f' then c.toNat - 'a'.toNat + 10
  else c.toNat - 'A'.toNat + 10

def affinityMaskHasHexAlpha (arg : List Char) : Bool := arg.any fun c => isHexDigit c && !c.isDigit

/-- The base of a number and its text behind a prefix, for `strtoul` in base 16 or 0. -/
def basePrefix (base : Nat) (text : List Char) : Nat × List Char :=
  match text with
  | '0' :: x :: d :: rest =>
    if (x = 'x' ∨ x = 'X') ∧ isHexDigit d then (16, d :: rest) else (if base = 0 then 8 else base, text)
  | '0' :: _ => (if base = 0 then 8 else base, text)
  | _ => (if base = 0 then 10 else base, text)

/-- `strtoul(s, &end, base)` for base 16 or 0: the value, absent when it does not fit, and the text at
`end`. -/
def strtoulBase (base : Nat) (s : List Char) : Option Nat × List Char :=
  let text := s.dropWhile isSpace
  let negative := text.head? = some '-'
  let (base, text) := basePrefix base (if negative ∨ text.head? = some '+' then text.tail else text)
  let isDigit := fun c => isHexDigit c && decide (hexDigitValue c < base)
  let digits := text.takeWhile isDigit
  let value := digits.foldl (fun v c => base * v + hexDigitValue c) 0
  if digits = [] then (some 0, s)
  else if 2 ^ 64 ≤ value then (none, text.dropWhile isDigit)
  else (some (if negative then (2 ^ 64 - value) % 2 ^ 64 else value), text.dropWhile isDigit)

def parseAffinityMaskArgument (arg : String) : Option Nat :=
  if arg = "" then none
  else if arg = "-1" || strcasecmpEq arg "all" then some (2 ^ 64 - 1)
  else
    let base := if startsWithNoCase arg "0x" || affinityMaskHasHexAlpha arg.toList then 16 else 0
    match strtoulBase base arg.toList with
    | (some parsed, []) => some parsed
    | _ => none

example : parseAffinityMaskArgument "0xf0" = some 240 ∧ parseAffinityMaskArgument "12" = some 12 ∧
    parseAffinityMaskArgument "all" = some (2 ^ 64 - 1) ∧ parseAffinityMaskArgument "1g" = none := by
  decide

def parseApiPortValue (arg : List Char) : Option Int :=
  if arg = [] then none
  else
    let (parsed, rest) := strtol arg
    if rest ≠ [] ∨ parsed < 0 ∨ 65535 < parsed then none else some parsed

/-- `INET_ADDRSTRLEN` -/
def inetAddrstrlen : Nat := 16

/-- The address and the port that an argument gives. -/
def parseApiBindArgument (env : ConfigEnv) (arg : String) : Option (Option String × Option Int) :=
  let text := arg.toList
  let host := text.takeWhile (· != ':')
  if arg = "" then none
  else if ':' ∈ text then
    let port := (text.dropWhile (· != ':')).tail
    if host = [] ∨ port = [] ∨ ':' ∈ port then none
    else if inetAddrstrlen ≤ host.length then none
    else if env.inetPton (String.ofList host) then
      (parseApiPortValue port).map fun parsed => (some (String.ofList host), some parsed)
    else none
  else if text.all Char.isDigit then (parseApiPortValue text).map fun parsed => (none, some parsed)
  else if env.inetPton arg then some (some arg, none)
  else none

/-- The two parts of `user:pass`. -/
def parseUserpass (arg : String) : Option (String × String) :=
  let text := arg.toList
  if ':' ∈ text then
    some (String.ofList (text.takeWhile (· != ':')), String.ofList (text.dropWhile (· != ':')).tail)
  else none

/-! ## Options -/

section apply
variable (env : ConfigEnv)

/-- The url becomes the default and that of the current pool. -/
def ConfigState.setCurrentUrl (s : ConfigState) (arg : String) : ConfigState :=
  let s := { s with defaults := s.defaults.setUrl arg }
  if s.curPooln < maxPools then
    s.setPool s.curPooln
      (s.defaults.applyCredentials true true true true ((s.pools s.curPooln).setUrl arg))
  else s

/-- A url puts a single pool in the place of the configured ones. -/
def applyUrl (arg : String) (s : ConfigState) : ConfigState :=
  (if s.usesPoolArray then s.clearConfiguredPoolSet else s).setCurrentUrl arg

def applyOption (key : CliKey) (arg : String) (s : ConfigState) : Option ConfigState :=
  let o := s.options
  match key with
  | .algo => (parseAlgorithmName env arg).map fun algo => s.setOptions { o with algo }
  | .apiBind =>
    (parseApiBindArgument env arg).map fun parsed =>
      s.setOptions
        { o with
          apiBind := parsed.1 <|> o.apiBind
          apiPort := parsed.2.getD o.apiPort
          apiPortExplicit := parsed.2.isSome || o.apiPortExplicit }
  | .debug => some (s.setOptions { o with debug := true })
  | .statsavg =>
    (parseCliIntOption arg).map fun value => s.setOptions { o with statsavg := if value < 1 then 1 else value }
  | .url => some (applyUrl arg s)
  | .userpass =>
    (parseUserpass arg).map fun parts =>
      { s with defaults := (s.defaults.setUser parts.1).setPass parts.2 }.syncConfiguredPoolDefaults true true
  | .pass => some ({ s with defaults := s.defaults.setPass arg }.syncConfiguredPoolDefaults false true)
  | .protocolDump => some (s.setOptions { o with protocol := true })
  | .quiet => some (s.setOptions { o with quiet := true })
  | .retries =>
    (parseCliIntOption arg).map fun value => s.setOptions { o with retries := if value < -1 then -1 else value }
  | .retryPause =>
    (parseCliIntOption arg).map fun value => s.setOptions { o with retryPause := if value < 1 then 1 else value }
  | .threads =>
    (parseCliIntOption arg).bind fun value =>
      if value < 1 ∨ maxThreads < value then none else some (s.setOptions { o with nThreads := value })
  | .timeout =>
    (parseCliIntOption arg).map fun value =>
      let value := if value < 1 then 1 else value
      (s.setOptions { o with timeout := value }).syncConfiguredPoolTimeouts value
  | .user => some ({ s with defaults := s.defaults.setUser arg }.syncConfiguredPoolDefaults true false)
  | .benchmark => some (s.setOptions { o with benchmark := true })
  | .nicehash => some (s.setOptions { o with nicehash := true })
  | .cpuAffinity =>
    (parseAffinityMaskArgument arg).map fun mask =>
      s.setOptions { o with affinityMask := mask, affinitySet := true }
  | .cpuPriority =>
    (parseCliIntOption arg).map fun value =>
      let value := if value < 0 then 0 else value
      s.setOptions { o with priority := if 5 < value then 5 else value }
  | .version | .help | .config => none

end apply

/-! ## The config file -/

def parseJsonBoolish : Option Json → Bool
  | some (.bool b) => b
  | some (.integer i) => i != 0
  | _ => false

/-- `(int)raw` -/
def intOfInt64 (raw : Int) : Int := Int.bmod raw (2 ^ 32)

def parsePoolTimeoutJson : Option Json → Int
  | some (.integer raw) =>
    if intMax < raw then 0
    else
      let parsed := intOfInt64 raw
      if 0 < parsed then parsed else 0
  | _ => 0

/-- The pool that an entry of the array makes of what stands in the table.  `pool_config_user_set` and
`pool_config_pass_set` are read where they have just been set. -/
def poolOfEntry (defaults : PoolDefaults) (config : Json) (url : String) (p : ConfiguredPool) : ConfiguredPool :=
  let user := Json.stringValue (config.objectGet "user")
  let pass := Json.stringValue (config.objectGet "pass")
  let p := match Json.stringValue (config.objectGet "name") with
    | some name => { p with name := snprintf 64 name }
    | none => p
  let p := p.setUrl url
  let p := match user with
    | some user => { p with user := snprintf 192 user }
    | none => p
  let p := match pass with
    | some pass => { p with pass := snprintf 384 pass }
    | none => p
  { defaults.applyCredentials true true user.isNone pass.isNone p with
    disabled := parseJsonBoolish (config.objectGet "disabled")
    timeout := parsePoolTimeoutJson (config.objectGet "timeout") }

def applyConfiguredPool (config : Json) (i : Nat) (s : ConfigState) : ConfigState :=
  if maxUserPools ≤ i then s
  else
    match Json.stringValue (config.objectGet "url") with
    | none => s
    | some url =>
      if url = "" then s
      else (s.setPool i (poolOfEntry s.defaults config url (s.pools i))).registerPoolIndex i

def applyJsonScalarOption (env : ConfigEnv) (option : CliOption) (value : Json) (s : ConfigState) :
    Option ConfigState :=
  match option.hasArg, value with
  | true, .string arg => applyOption env option.val arg s
  | true, .integer raw =>
    if raw < intMin ∨ intMax < raw then none
    else applyOption env option.val (snprintf 16 (toString raw)) s
  | false, .bool true => applyOption env option.val "" s
  | _, _ => some s

/-- The options of the config file, in the order of the table. -/
def applyConfigScalars (env : ConfigEnv) (config : Json) (s : ConfigState) : Option ConfigState :=
  cliOptions.foldlM (fun s option =>
    if option.name = "config" then some s
    else
      match config.objectGet option.name with
      | none => some s
      | some value => applyJsonScalarOption env option value s) s

def isObject : Json → Bool
  | .object _ => true
  | _ => false

/-- The entries of the array from `i` on. -/
def applyPoolEntries : List Json → Nat → ConfigState → ConfigState
  | [], _, s => s
  | config :: rest, i, s =>
    if i < maxUserPools then
      applyPoolEntries rest (i + 1) (if isObject config then applyConfiguredPool config i s else s)
    else s

def applyConfigPools (config : Json) (s : ConfigState) : ConfigState :=
  match config.objectGet "pools" with
  | some (.array entries) =>
    applyPoolEntries entries 0 (if 0 < entries.length then { s with usesPoolArray := true } else s)
  | _ => s

def applyConfigObject (env : ConfigEnv) (config : Json) (s : ConfigState) : Option ConfigState :=
  if isObject config then (applyConfigScalars env config s).map (applyConfigPools config) else some s

/-! ## The command line -/

def normalizeThreadCount (requested : Int) : Int :=
  if requested < 1 then 1 else if maxThreads < requested then maxThreads else requested

def ensureCliPoolIsRegistered (s : ConfigState) : ConfigState :=
  if s.numPools ≠ 0 ∨ s.defaults.urlSet = false then s
  else
    (s.setPool 0 (s.defaults.applyCredentials true true true true
      ((s.pools 0).setUrl s.defaults.url))).registerPoolIndex 0

namespace Configuration

def poolIsUsable (c : Configuration) (i : Nat) : Bool :=
  i < c.numPools && i < maxPools && (c.pools i).configured && !(c.pools i).disabled && (c.pools i).url != ""

def findFirstUsablePoolIndex (c : Configuration) : Option Nat := (List.range c.numPools).find? c.poolIsUsable

/-- `miner_get_pool_timeout` -/
def poolTimeout (c : Configuration) (i : Nat) : Int :=
  let timeout :=
    if i < c.numPools ∧ i < maxPools ∧ (c.pools i).configured ∧ 0 < (c.pools i).timeout then (c.pools i).timeout
    else c.options.timeout
  if 0 < timeout then timeout else 1

/-- The choice of the current pool. -/
def selectCurrentPool (c : Configuration) : Option Configuration :=
  if c.options.benchmark then some c
  else if c.numPools = 0 then none
  else c.findFirstUsablePoolIndex.map fun i => { c with curPooln := i }

end Configuration

/-- The options in their order; the config file was loaded before. -/
def applyCommandLine (env : ConfigEnv) (args : List (CliKey × String)) (s : ConfigState) : Option ConfigState :=
  args.foldlM (fun s arg => if arg.1 = .config then some s else applyOption env arg.1 arg.2 s) s

/-- What follows the loop over the command line. -/
def finishCommandLine (env : ConfigEnv) (s : ConfigState) : Option Configuration :=
  let requested := if s.options.nThreads = 0 then env.onlineCpus else s.options.nThreads
  let s := s.setOptions { s.options with nThreads := normalizeThreadCount requested }
  (ensureCliPoolIsRegistered s).toConfiguration.selectCurrentPool

/-- `parse_cmdline`, with the config file's value. -/
def parseCmdline (env : ConfigEnv) (config : Option Json) (args : List (CliKey × String)) :
    Option Configuration := do
  let s ← match config with
    | some config => applyConfigObject env config {}
    | none => some {}
  let s ← applyCommandLine env args s
  finishCommandLine env s

end PrimoMiner
