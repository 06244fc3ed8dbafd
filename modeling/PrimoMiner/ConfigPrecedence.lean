import PrimoMiner.Config

/-!
# What the command line leaves of the config file

The result of a command line is given by what each option says, whatever their order: an option that is
given replaces the value of the config file, a url replaces its pools, and everything else stays.
-/

namespace PrimoMiner

/-- What an option is given, if it is. -/
abbrev Given := CliKey → Option String

/-! ## What is left -/

namespace Given

variable (get : Given)

def number (key : CliKey) : Option Int := (get key).bind parseCliIntOption

def user : Option String := get .user <|> ((get .userpass).bind parseUserpass).map (·.1)

def pass : Option String := get .pass <|> ((get .userpass).bind parseUserpass).map (·.2)

def apiBind (env : ConfigEnv) : Option (Option String × Option Int) :=
  (get .apiBind).bind (parseApiBindArgument env)

end Given

/-- The options, each with its value in its range. -/
def GlobalOptions.override (env : ConfigEnv) (o : GlobalOptions) (get : Given) : GlobalOptions where
  debug := (get .debug).isSome || o.debug
  quiet := (get .quiet).isSome || o.quiet
  benchmark := (get .benchmark).isSome || o.benchmark
  protocol := (get .protocolDump).isSome || o.protocol
  nicehash := (get .nicehash).isSome || o.nicehash
  nThreads := (get.number .threads).getD o.nThreads
  timeout := (get.number .timeout).elim o.timeout (max 1)
  retries := (get.number .retries).elim o.retries (max (-1))
  retryPause := (get.number .retryPause).elim o.retryPause (max 1)
  apiBind := (get.apiBind env).bind (·.1) <|> o.apiBind
  apiPort := ((get.apiBind env).bind (·.2)).getD o.apiPort
  apiPortExplicit := ((get.apiBind env).bind (·.2)).isSome || o.apiPortExplicit
  statsavg := (get.number .statsavg).elim o.statsavg (max 1)
  priority := (get.number .cpuPriority).elim o.priority fun value => min 5 (max 0 value)
  affinitySet := ((get .cpuAffinity).bind parseAffinityMaskArgument).isSome || o.affinitySet
  affinityMask := ((get .cpuAffinity).bind parseAffinityMaskArgument).getD o.affinityMask
  algo := ((get .algo).bind (parseAlgorithmName env)).getD o.algo

def PoolDefaults.override (d : PoolDefaults) (get : Given) : PoolDefaults where
  url := (get .url).elim d.url (snprintf 512)
  urlSet := (get .url).elim d.urlSet (· != "")
  user := get.user.elim d.user (snprintf 192)
  userSet := get.user.isSome || d.userSet
  pass := get.pass.elim d.pass (snprintf 384)
  passSet := get.pass.isSome || d.passSet

/-- A configured pool keeps what the command line does not give. -/
def ConfiguredPool.override (p : ConfiguredPool) (get : Given) : ConfiguredPool :=
  { p with
    user := get.user.elim p.user (snprintf 192)
    pass := get.pass.elim p.pass (snprintf 384)
    timeout := (get.number .timeout).elim p.timeout (max 1) }

/-- The only pool. -/
def PoolDefaults.singlePool (d : PoolDefaults) : ConfiguredPool :=
  { configured := true, url := d.url, shortUrl := snprintf 64 (shortUrlOf d.url), user := d.user, pass := d.pass }

/-- The configuration after a command line, before the choice of the current pool. -/
def ConfigState.resolve (env : ConfigEnv) (s : ConfigState) (get : Given) : Configuration :=
  let defaults := s.defaults.override get
  let options := s.options.override env get
  if (get .url).isSome ∨ s.numPools = 0 then
    if defaults.urlSet then
      { options, pools := Function.update (fun _ => {}) 0 defaults.singlePool, numPools := 1 }
    else { options, pools := s.pools, numPools := 0 }
  else
    { options
      pools := fun i => if (s.pools i).configured then (s.pools i).override get else s.pools i
      numPools := s.numPools }

/-! ## Texts in their fields -/

theorem snprintf_snprintf (cap : Nat) (s : String) : snprintf cap (snprintf cap s) = snprintf cap s := by
  rw [snprintf, snprintf, String.toList_ofList, List.take_take, Nat.min_self]

/-- A text that does not fit is cut. -/
theorem snprintf_ne_self {cap : Nat} {s : String} (hcap : 0 < cap) (h : cap ≤ s.toList.length) :
    snprintf cap s ≠ s := by
  intro heq
  have hlen := congrArg (fun s : String => s.toList.length) heq
  simp only [snprintf, String.toList_ofList, List.length_take] at hlen
  omega

theorem snprintf_empty (cap : Nat) : snprintf cap "" = "" := by
  rw [snprintf, show "".toList = [] from rfl, List.take_nil]

theorem raise_eq_max (low value : Int) : (if value < low then low else value) = max low value := by
  split <;> omega

theorem lower_eq_min (high value : Int) : (if high < value then high else value) = min high value := by
  split <;> omega

/-! ## Invariant -/

namespace ConfigState

/-- A pool that is not configured: only the url of the options may have left something in it. -/
structure Unconfigured (d : PoolDefaults) (p : ConfiguredPool) : Prop where
  configured : p.configured = false
  disabled : p.disabled = false
  timeout : p.timeout = 0
  name : p.name = ""
  stratum : p.stratum = {}
  user : d.userSet = false → p.user = ""
  pass : d.passSet = false → p.pass = ""

structure Ok (s : ConfigState) : Prop where
  timeout : 1 ≤ s.options.timeout
  cur : s.curPooln = 0
  array : s.usesPoolArray = false → s.numPools = 0
  numPools : s.numPools ≤ maxUserPools
  bound : ∀ i, (s.pools i).configured = true → i < s.numPools
  empty : s.numPools = 0 → ∀ i, i ≠ 0 → s.pools i = {}
  first : s.numPools = 0 → Unconfigured s.defaults (s.pools 0)
  url : snprintf 512 s.defaults.url = s.defaults.url
  user : snprintf 192 s.defaults.user = s.defaults.user
  pass : snprintf 384 s.defaults.pass = s.defaults.pass
  noUser : s.defaults.userSet = false → s.defaults.user = ""
  noPass : s.defaults.passSet = false → s.defaults.pass = ""

theorem ok_init : ({} : ConfigState).Ok where
  timeout := by decide
  cur := rfl
  array _ := rfl
  numPools := Nat.zero_le _
  bound _ h := absurd h Bool.false_ne_true
  empty _ _ _ := rfl
  first _ := ⟨rfl, rfl, rfl, rfl, rfl, fun _ => rfl, fun _ => rfl⟩
  url := snprintf_empty _
  user := snprintf_empty _
  pass := snprintf_empty _
  noUser _ := rfl
  noPass _ := rfl

variable {s : ConfigState}

theorem Ok.setOptions (h : s.Ok) (o : GlobalOptions) (ho : 1 ≤ o.timeout) : (s.setOptions o).Ok :=
  { h with timeout := ho }

/-- Users and passwords of configured pools may change. -/
theorem Ok.mapConfigured (h : s.Ok) {f : ConfiguredPool → ConfiguredPool}
    (hf : ∀ p, (f p).configured = p.configured) : (s.mapConfigured f).Ok := by
  refine { h with bound := ?_, empty := ?_, first := ?_ }
  · intro i hi
    apply h.bound
    dsimp only [ConfigState.mapConfigured] at hi
    split at hi
    · rwa [hf] at hi
    · exact hi
  · intro hzero i hi
    dsimp only [ConfigState.mapConfigured]
    rw [if_neg (by have hz : s.numPools = 0 := hzero; omega)]
    exact h.empty hzero i hi
  · intro hzero
    dsimp only [ConfigState.mapConfigured]
    rw [if_neg (by have hz : s.numPools = 0 := hzero; omega)]
    exact h.first hzero

theorem applyCredentials_configured (d : PoolDefaults) (a b a' b' : Bool) (p : ConfiguredPool) :
    (d.applyCredentials a b a' b' p).configured = p.configured := by
  unfold PoolDefaults.applyCredentials
  split_ifs <;> rfl

theorem Ok.setUser (h : s.Ok) (value : String) : { s with defaults := s.defaults.setUser value }.Ok :=
  { h with
    first := fun hzero => { h.first hzero with user := fun hset => absurd hset (by simp [PoolDefaults.setUser]) }
    user := snprintf_snprintf 192 value
    noUser := fun hset => absurd hset (by simp [PoolDefaults.setUser]) }

theorem Ok.setPass (h : s.Ok) (value : String) : { s with defaults := s.defaults.setPass value }.Ok :=
  { h with
    first := fun hzero => { h.first hzero with pass := fun hset => absurd hset (by simp [PoolDefaults.setPass]) }
    pass := snprintf_snprintf 384 value
    noPass := fun hset => absurd hset (by simp [PoolDefaults.setPass]) }

/-! ## A url -/

/-- The table when a url comes: no pool is configured. -/
def cleared (s : ConfigState) : ConfigState := if s.usesPoolArray then s.clearConfiguredPoolSet else s

theorem Ok.cleared (h : s.Ok) : s.cleared.Ok ∧ s.cleared.numPools = 0 ∧ s.cleared.defaults = s.defaults ∧
    s.cleared.options = s.options := by
  unfold ConfigState.cleared
  split
  · refine ⟨?_, rfl, rfl, rfl⟩
    exact
      { h with
        cur := rfl
        array := fun _ => rfl
        numPools := Nat.zero_le _
        bound := fun _ hi => absurd hi Bool.false_ne_true
        empty := fun _ _ _ => rfl
        first := fun _ => ⟨rfl, rfl, rfl, rfl, rfl, fun _ => rfl, fun _ => rfl⟩ }
  case isFalse harray => exact ⟨h, h.array (by simpa using harray), rfl, rfl⟩

/-- The pool that the url leaves in the table; it is not configured. -/
def urlPool (s : ConfigState) (arg : String) : ConfiguredPool :=
  (s.defaults.setUrl arg).applyCredentials true true true true ((s.cleared.pools 0).setUrl arg)

theorem Ok.applyUrl_eq (h : s.Ok) (arg : String) :
    applyUrl arg s =
      { s.cleared with defaults := s.defaults.setUrl arg }.setPool 0 (s.urlPool arg) := by
  obtain ⟨hok, -, hdefaults, -⟩ := h.cleared
  have hcur : s.cleared.curPooln = 0 := hok.cur
  show s.cleared.setCurrentUrl arg = _
  rw [setCurrentUrl, hdefaults]
  dsimp only
  rw [hcur, if_pos (by decide)]
  rfl

theorem Ok.urlPool (h : s.Ok) (arg : String) : Unconfigured (s.defaults.setUrl arg) (s.urlPool arg) := by
  obtain ⟨hok, hzero, hdefaults, -⟩ := h.cleared
  have hfirst := hok.first hzero
  rw [hdefaults] at hfirst
  unfold ConfigState.urlPool PoolDefaults.applyCredentials ConfiguredPool.setUrl PoolDefaults.setUrl
  generalize s.cleared.pools 0 = p at *
  constructor
  · split_ifs <;> exact hfirst.configured
  · split_ifs <;> exact hfirst.disabled
  · split_ifs <;> exact hfirst.timeout
  · split_ifs <;> exact hfirst.name
  · split_ifs <;> exact hfirst.stratum
  · intro hset
    dsimp only at hset
    simp only [hset, Bool.false_eq_true, false_and, and_false, if_false]
    split_ifs <;> exact hfirst.user hset
  · intro hset
    dsimp only at hset
    simp only [hset, Bool.false_eq_true, false_and, and_false, if_false]
    split_ifs <;> exact hfirst.pass hset

theorem Ok.applyUrl (h : s.Ok) (arg : String) : (applyUrl arg s).Ok := by
  obtain ⟨hok, hzero, -, -⟩ := h.cleared
  have hpool := h.urlPool arg
  rw [h.applyUrl_eq]
  refine ⟨hok.timeout, hok.cur, hok.array, hok.numPools, ?_, ?_, ?_, snprintf_snprintf 512 arg, h.user, h.pass, h.noUser,
    h.noPass⟩
  · intro i hi
    apply hok.bound
    by_cases hi0 : i = 0
    · subst hi0
      rw [setPool_self] at hi
      exact absurd (hpool.configured.symm.trans hi) Bool.false_ne_true
    · rwa [setPool_of_ne _ _ hi0] at hi
  · intro _ i hi
    rw [setPool_of_ne _ _ hi]
    exact hok.empty hzero i hi
  · intro _
    rw [setPool_self]
    exact hpool

/-- Every option keeps the invariant. -/
theorem Ok.applyOption (h : s.Ok) {env : ConfigEnv} {key : CliKey} {arg : String} {s' : ConfigState}
    (happly : applyOption env key arg s = some s') : s'.Ok := by
  cases key with
  | url =>
    rw [← Option.some.inj happly]
    exact h.applyUrl arg
  | user =>
    rw [← Option.some.inj happly]
    exact (h.setUser arg).mapConfigured fun p => applyCredentials_configured ..
  | pass =>
    rw [← Option.some.inj happly]
    exact (h.setPass arg).mapConfigured fun p => applyCredentials_configured ..
  | userpass =>
    obtain ⟨parts, -, rfl⟩ := Option.map_eq_some_iff.mp happly
    exact ((h.setUser parts.1).setPass parts.2).mapConfigured fun p => applyCredentials_configured ..
  | timeout =>
    obtain ⟨value, -, rfl⟩ := Option.map_eq_some_iff.mp happly
    refine (h.setOptions _ ?_).mapConfigured fun p => rfl
    show 1 ≤ if value < 1 then 1 else value
    split <;> omega
  | threads =>
    obtain ⟨value, -, hvalue⟩ := Option.bind_eq_some_iff.mp happly
    split at hvalue
    · cases hvalue
    · rw [← Option.some.inj hvalue]
      exact h.setOptions _ h.timeout
  | algo | apiBind | statsavg | retries | retryPause | cpuAffinity | cpuPriority =>
    obtain ⟨value, -, rfl⟩ := Option.map_eq_some_iff.mp happly
    exact h.setOptions _ h.timeout
  | debug | protocolDump | quiet | benchmark | nicehash =>
    rw [← Option.some.inj happly]
    exact h.setOptions _ h.timeout
  | version | help | config => cases happly

/-! ## One option -/

/-- What is given to the pools is the same. -/
structure SamePools (get get' : Given) : Prop where
  url : get' .url = get .url
  user : get' .user = get .user
  pass : get' .pass = get .pass
  userpass : get' .userpass = get .userpass
  timeout : get' .timeout = get .timeout

theorem samePools_update (get : Given) {key : CliKey} (hkey : key ∉ [.url, .user, .pass, .userpass, .timeout])
    (arg : Option String) : SamePools get (Function.update get key arg) := by
  have hne : ∀ k ∈ [CliKey.url, .user, .pass, .userpass, .timeout], k ≠ key := by
    intro k hk heq
    exact hkey (heq ▸ hk)
  exact ⟨Function.update_of_ne (hne _ (by decide)) _ _, Function.update_of_ne (hne _ (by decide)) _ _,
    Function.update_of_ne (hne _ (by decide)) _ _, Function.update_of_ne (hne _ (by decide)) _ _,
    Function.update_of_ne (hne _ (by decide)) _ _⟩

theorem resolve_setOptions {env : ConfigEnv} {get get' : Given} (hsame : SamePools get get') {o : GlobalOptions}
    (ho : o.override env get = s.options.override env get') :
    (s.setOptions o).resolve env get = s.resolve env get' := by
  have huser : get'.user = get.user := by rw [Given.user, Given.user, hsame.user, hsame.userpass]
  have hpass : get'.pass = get.pass := by rw [Given.pass, Given.pass, hsame.pass, hsame.userpass]
  have htimeout : get'.number .timeout = get.number .timeout := by
    rw [Given.number, Given.number, hsame.timeout]
  have hdefaults : s.defaults.override get' = s.defaults.override get := by
    rw [PoolDefaults.override, PoolDefaults.override, huser, hpass, hsame.url]
  have hpool : ∀ p : ConfiguredPool, p.override get' = p.override get := by
    intro p
    rw [ConfiguredPool.override, ConfiguredPool.override, huser, hpass, htimeout]
  rw [resolve, resolve, hdefaults, hsame.url]
  simp only [hpool, ← ho]
  rfl

section step
variable {env : ConfigEnv} {get : Given}

theorem resolve_url (h : s.Ok) {arg : String} (hnew : get .url = none) (harg : arg ≠ "") :
    (PrimoMiner.applyUrl arg s).resolve env get = s.resolve env (Function.update get .url (some arg)) := by
  obtain ⟨-, hzero, -, hoptions⟩ := h.cleared
  have hset : (arg != "") = true := bne_iff_ne.mpr harg
  rw [h.applyUrl_eq]
  simp [resolve, PoolDefaults.override, PoolDefaults.setUrl, setPool, Given.user, Given.pass, hnew, hset, hoptions,
    hzero, GlobalOptions.override, Given.number, Given.apiBind]

/-- Every configured pool is in the loop. -/
theorem Ok.mapConfigured_pools (h : s.Ok) (f : ConfiguredPool → ConfiguredPool) (i : Nat) :
    (s.mapConfigured f).pools i = if (s.pools i).configured then f (s.pools i) else s.pools i := by
  dsimp only [ConfigState.mapConfigured]
  by_cases hi : (s.pools i).configured = true
  · rw [if_pos ⟨h.bound i hi, hi⟩, if_pos hi]
  · rw [if_neg fun hand => hi hand.2, if_neg hi]

/-- A change of the defaults that is made to the configured pools as well. -/
theorem resolve_mapConfigured {get' : Given} (h : s.Ok) (hurl : ∀ url, get' .url = some url → url ≠ "")
    (hsame : get' .url = get .url) {s' : ConfigState} {f : ConfiguredPool → ConfiguredPool}
    (hloop : s'.pools = (s.mapConfigured f).pools) (hcount : s'.numPools = s.numPools)
    (hd : s'.defaults.override get = s.defaults.override get')
    (ho : s'.options.override env get = s.options.override env get')
    (hf : ∀ p, (f p).configured = p.configured ∧ (f p).override get = p.override get') :
    s'.resolve env get = s.resolve env get' := by
  have hpools : (fun i => if ((s.mapConfigured f).pools i).configured then
      ((s.mapConfigured f).pools i).override get else (s.mapConfigured f).pools i) =
        fun i => if (s.pools i).configured then (s.pools i).override get' else s.pools i := by
    funext i
    rw [h.mapConfigured_pools]
    by_cases hi : (s.pools i).configured = true
    · rw [if_pos hi, if_pos (by rw [(hf _).1]; exact hi), if_pos hi, (hf _).2]
    · simp only [if_neg hi]
  have hunset : (s.defaults.override get').urlSet = false → (get .url).isSome ∨ s.numPools = 0 →
      (s.mapConfigured f).pools = s.pools := by
    intro hfalse hsingle
    have hnone : get' .url = none := by
      cases hget : get' .url with
      | none => rfl
      | some url =>
        rw [PoolDefaults.override, hget] at hfalse
        exact absurd (bne_eq_false_iff_eq.mp hfalse) (hurl url hget)
    rw [← hsame, hnone] at hsingle
    funext i
    dsimp only [ConfigState.mapConfigured]
    obtain hsome | hzero := hsingle
    · cases hsome
    · rw [if_neg (by omega)]
  unfold resolve
  simp only [hd, ho, hsame, hcount, hloop]
  by_cases hsingle : (get .url).isSome = true ∨ s.numPools = 0
  · rw [if_pos hsingle, if_pos hsingle]
    by_cases hset : (s.defaults.override get').urlSet = true
    · rw [if_pos hset, if_pos hset]
    · rw [if_neg hset, if_neg hset, hunset (by simpa using hset) hsingle]
  · rw [if_neg hsingle, if_neg hsingle, hpools]

/-- The options that a command line may hold beside this one: it is given once, a url is not empty, and
`-O` stands without `-u` and `-p`. -/
structure Fits (key : CliKey) (arg : String) (get : Given) : Prop where
  new : get key = none
  url : ∀ url, Function.update get key (some arg) .url = some url → url ≠ ""
  userpass : key = .userpass → get .user = none ∧ get .pass = none
  alone : key = .user ∨ key = .pass → get .userpass = none

theorem resolve_applyOption (h : s.Ok) {key : CliKey} {arg : String} {s' : ConfigState}
    (happly : PrimoMiner.applyOption env key arg s = some s') (hfits : Fits key arg get) :
    s'.resolve env get = s.resolve env (Function.update get key (some arg)) := by
  have hnew := hfits.new
  cases key with
  | url =>
    rw [← Option.some.inj happly]
    exact resolve_url h hnew (hfits.url arg (Function.update_self ..))
  | user =>
    have halone := hfits.alone (.inl rfl)
    rw [← Option.some.inj happly]
    apply resolve_mapConfigured h hfits.url
    · rfl
    · rfl
    · rfl
    · simp [PoolDefaults.override, PoolDefaults.setUser, Given.user, Given.pass, hnew, halone,
        syncConfiguredPoolDefaults, ConfigState.mapConfigured]
    · simp [GlobalOptions.override, Given.number, Given.apiBind, syncConfiguredPoolDefaults, ConfigState.mapConfigured]
    · intro p
      exact ⟨applyCredentials_configured .., by
        simp [ConfiguredPool.override, PoolDefaults.applyCredentials, PoolDefaults.setUser, Given.user, Given.pass,
          Given.number, hnew, halone, snprintf_snprintf]⟩
  | pass =>
    have halone := hfits.alone (.inr rfl)
    rw [← Option.some.inj happly]
    apply resolve_mapConfigured h hfits.url
    · rfl
    · rfl
    · rfl
    · simp [PoolDefaults.override, PoolDefaults.setPass, Given.user, Given.pass, hnew, halone,
        syncConfiguredPoolDefaults, ConfigState.mapConfigured]
    · simp [GlobalOptions.override, Given.number, Given.apiBind, syncConfiguredPoolDefaults, ConfigState.mapConfigured]
    · intro p
      exact ⟨applyCredentials_configured .., by
        simp [ConfiguredPool.override, PoolDefaults.applyCredentials, PoolDefaults.setPass, Given.user, Given.pass,
          Given.number, hnew, halone, snprintf_snprintf]⟩
  | userpass =>
    obtain ⟨huser, hpass⟩ := hfits.userpass rfl
    obtain ⟨parts, hparse, rfl⟩ := Option.map_eq_some_iff.mp happly
    apply resolve_mapConfigured h hfits.url
    · rfl
    · rfl
    · rfl
    · simp [PoolDefaults.override, PoolDefaults.setUser, PoolDefaults.setPass, Given.user, Given.pass, hnew, huser, hpass,
        hparse, syncConfiguredPoolDefaults, ConfigState.mapConfigured]
    · simp [GlobalOptions.override, Given.number, Given.apiBind, syncConfiguredPoolDefaults, ConfigState.mapConfigured]
    · intro p
      exact ⟨applyCredentials_configured .., by
        simp [ConfiguredPool.override, PoolDefaults.applyCredentials, PoolDefaults.setUser, PoolDefaults.setPass,
          Given.user, Given.pass, Given.number, hnew, huser, hpass, hparse, snprintf_snprintf]⟩
  | timeout =>
    obtain ⟨value, hparse, rfl⟩ := Option.map_eq_some_iff.mp happly
    apply resolve_mapConfigured (f := fun p => { p with timeout := if value < 1 then 1 else value }) h hfits.url
    case hsame => rfl
    case hloop => rfl
    case hcount => rfl
    case hd =>
      simp [PoolDefaults.override, Given.user, Given.pass, syncConfiguredPoolTimeouts, ConfigState.mapConfigured,
        ConfigState.setOptions]
    case ho =>
      simp [GlobalOptions.override, Given.number, Given.apiBind, hnew, hparse, raise_eq_max,
        syncConfiguredPoolTimeouts, ConfigState.mapConfigured, ConfigState.setOptions]
    case hf =>
      intro p
      refine ⟨rfl, ?_⟩
      simp [ConfiguredPool.override, Given.user, Given.pass, Given.number, hnew, hparse, raise_eq_max]
  | threads =>
    obtain ⟨value, hparse, hvalue⟩ := Option.bind_eq_some_iff.mp happly
    split at hvalue
    · cases hvalue
    · rw [← Option.some.inj hvalue]
      refine resolve_setOptions (samePools_update get (by decide) _) ?_
      simp [GlobalOptions.override, Given.number, Given.apiBind, hnew, hparse]
  | algo | apiBind | statsavg | retries | retryPause | cpuAffinity =>
    obtain ⟨value, hparse, rfl⟩ := Option.map_eq_some_iff.mp happly
    refine resolve_setOptions (samePools_update get (by decide) _) ?_
    simp [GlobalOptions.override, Given.number, Given.apiBind, hnew, hparse, raise_eq_max]
  | cpuPriority =>
    obtain ⟨value, hparse, rfl⟩ := Option.map_eq_some_iff.mp happly
    refine resolve_setOptions (samePools_update get (by decide) _) ?_
    simp only [raise_eq_max, lower_eq_min]
    simp [GlobalOptions.override, Given.number, Given.apiBind, hnew, hparse]
  | debug | protocolDump | quiet | benchmark | nicehash =>
    rw [← Option.some.inj happly]
    refine resolve_setOptions (samePools_update get (by decide) _) ?_
    simp [GlobalOptions.override, Given.number, Given.apiBind]
  | version | help | config => cases happly

end step

/-! ## A command line -/

/-- The pool that is registered at the end. -/
theorem Ok.registeredPool (h : s.Ok) (hzero : s.numPools = 0) :
    { s.defaults.applyCredentials true true true true ((s.pools 0).setUrl s.defaults.url) with configured := true } =
      s.defaults.singlePool := by
  have hfirst := h.first hzero
  have hurl := h.url
  have huser := h.user
  have hpass := h.pass
  have hnoUser := h.noUser
  have hnoPass := h.noPass
  obtain ⟨-, hdisabled, htimeout, hname, hstratum, hfirstUser, hfirstPass⟩ := hfirst
  generalize s.pools 0 = p at *
  obtain ⟨⟨configured, disabled, name, url, shortUrl, user, pass, stratum⟩, timeout⟩ := p
  dsimp only at hdisabled htimeout hname hstratum hfirstUser hfirstPass
  subst hdisabled htimeout hname hstratum
  unfold PoolDefaults.applyCredentials ConfiguredPool.setUrl PoolDefaults.singlePool
  cases hu : s.defaults.userSet <;> cases hp : s.defaults.passSet <;>
    simp_all

theorem Ok.ensure_eq (h : s.Ok) (env : ConfigEnv) :
    (ensureCliPoolIsRegistered s).toConfiguration = s.resolve env fun _ => none := by
  have hcur := h.cur
  have hoptions : s.options.override env (fun _ => none) = s.options := by
    simp [GlobalOptions.override, Given.number, Given.apiBind]
  have hdefaults : s.defaults.override (fun _ => none) = s.defaults := by
    simp [PoolDefaults.override, Given.user, Given.pass]
  have hpool : ∀ p : ConfiguredPool, p.override (fun _ => none) = p := by
    intro p
    simp [ConfiguredPool.override, Given.user, Given.pass, Given.number]
  unfold resolve ensureCliPoolIsRegistered
  simp only [hoptions, hdefaults, hpool, ite_self]
  by_cases hzero : s.numPools = 0
  · by_cases hset : s.defaults.urlSet = true
    · rw [if_neg (by simp [hzero, hset]), if_pos (.inr hzero), if_pos hset, ← h.registeredPool hzero]
      have hpools : ∀ p, Function.update s.pools 0 p = Function.update (fun _ => ({} : ConfiguredPool)) 0 p := by
        intro p
        funext i
        by_cases hi : i = 0
        · rw [hi, Function.update_self, Function.update_self]
        · rw [Function.update_of_ne hi, Function.update_of_ne hi, h.empty hzero i hi]
      simp [registerPoolIndex, maxUserPools, setPool, hzero, hcur, hpools]
    · rw [if_pos (.inr (by simpa using hset)), if_pos (.inr hzero), if_neg hset]
      show (⟨s.options, s.pools, s.numPools, s.curPooln⟩ : Configuration) = _
      rw [hzero, hcur]
  · rw [if_pos (.inl hzero), if_neg (by simp [hzero]), ← hcur]

theorem ensure_setOptions (o : GlobalOptions) :
    ensureCliPoolIsRegistered (s.setOptions o) = (ensureCliPoolIsRegistered s).setOptions o := by
  unfold ensureCliPoolIsRegistered registerPoolIndex
  show (if s.numPools ≠ 0 ∨ s.defaults.urlSet = false then s.setOptions o else _) = _
  by_cases hdone : s.numPools ≠ 0 ∨ s.defaults.urlSet = false
  · rw [if_pos hdone, if_pos hdone]
  · rw [if_neg hdone, if_neg hdone]
    rfl

end ConfigState

/-- The number of threads that the options or the system give. -/
def GlobalOptions.normalizeThreads (env : ConfigEnv) (o : GlobalOptions) : GlobalOptions :=
  { o with nThreads := normalizeThreadCount (if o.nThreads = 0 then env.onlineCpus else o.nThreads) }

def Configuration.normalizeThreads (env : ConfigEnv) (c : Configuration) : Configuration :=
  { c with options := c.options.normalizeThreads env }

theorem finishCommandLine_eq {s : ConfigState} (h : s.Ok) (env : ConfigEnv) :
    finishCommandLine env s = ((s.resolve env fun _ => none).normalizeThreads env).selectCurrentPool := by
  have hoptions : (ensureCliPoolIsRegistered s).options = s.options := by
    unfold ensureCliPoolIsRegistered ConfigState.registerPoolIndex
    split_ifs <;> rfl
  rw [finishCommandLine, ConfigState.ensure_setOptions, ← h.ensure_eq, Configuration.normalizeThreads, hoptions]
  rfl

/-- What a command line gives. -/
def given (args : List (CliKey × String)) : Given := fun key => args.lookup key

/-- A command line that gives no option twice, no empty url, and `-O` without `-u` and `-p`. -/
structure DistinctOptions (args : List (CliKey × String)) : Prop where
  nodup : (args.map (·.1)).Nodup
  url : (.url, "") ∉ args
  userpass : .userpass ∈ args.map (·.1) → .user ∉ args.map (·.1) ∧ .pass ∉ args.map (·.1)

section given
variable {args args' : List (CliKey × String)} {key : CliKey} {arg : String}

theorem given_cons (key : CliKey) (arg : String) (args : List (CliKey × String)) :
    given ((key, arg) :: args) = Function.update (given args) key (some arg) := by
  funext k
  rw [given, List.lookup_cons, Function.update_apply]
  by_cases hk : k = key
  · simp [hk]
  · have hbeq : (k == key) = false := beq_false_of_ne hk
    simp [hk, hbeq, given]

theorem given_eq_none : given args key = none ↔ key ∉ args.map (·.1) := by
  rw [given, List.lookup_eq_none_iff]
  simp only [bne_iff_ne, List.mem_map, not_exists, not_and]
  exact ⟨fun h a ha hkey => h a ha hkey.symm, fun h a ha hkey => h a ha hkey.symm⟩

/-- An option that is given once. -/
theorem given_eq_some (h : (args.map (·.1)).Nodup) : given args key = some arg ↔ (key, arg) ∈ args := by
  induction args with
  | nil => simp [given]
  | cons a args ih =>
    obtain ⟨k, v⟩ := a
    rw [List.map_cons, List.nodup_cons] at h
    rw [given_cons, Function.update_apply, List.mem_cons, ← ih h.2]
    by_cases hk : key = k
    · subst hk
      rw [if_pos rfl, given_eq_none.mpr h.1]
      simp [eq_comm]
    · simp [hk]

/-- The order does not count. -/
theorem given_perm (h : (args.map (·.1)).Nodup) (hperm : args'.Perm args) : given args' = given args := by
  funext key
  have h' : (args'.map (·.1)).Nodup := (hperm.map _).nodup_iff.mpr h
  apply Option.ext
  intro arg
  rw [given_eq_some h', given_eq_some h, hperm.mem_iff]

theorem DistinctOptions.perm (h : DistinctOptions args) (hperm : args'.Perm args) : DistinctOptions args' where
  nodup := (hperm.map _).nodup_iff.mpr h.nodup
  url := by
    rw [hperm.mem_iff]
    exact h.url
  userpass := by
    rw [(hperm.map _).mem_iff, (hperm.map _).mem_iff, (hperm.map _).mem_iff]
    exact h.userpass

theorem DistinctOptions.tail (h : DistinctOptions ((key, arg) :: args)) : DistinctOptions args where
  nodup := (List.nodup_cons.mp h.nodup).2
  url hmem := h.url (List.mem_cons_of_mem _ hmem)
  userpass hmem := by
    obtain ⟨huser, hpass⟩ := h.userpass (List.mem_cons_of_mem _ hmem)
    exact ⟨fun hu => huser (List.mem_cons_of_mem _ hu), fun hp => hpass (List.mem_cons_of_mem _ hp)⟩

theorem DistinctOptions.fits (h : DistinctOptions ((key, arg) :: args)) :
    ConfigState.Fits key arg (given args) where
  new := given_eq_none.mpr (List.nodup_cons.mp h.nodup).1
  url url hurl := by
    rw [← given_cons, given_eq_some h.nodup] at hurl
    rintro rfl
    exact h.url hurl
  userpass hkey := by
    subst hkey
    obtain ⟨huser, hpass⟩ := h.userpass List.mem_cons_self
    exact ⟨given_eq_none.mpr fun hu => huser (List.mem_cons_of_mem _ hu),
      given_eq_none.mpr fun hp => hpass (List.mem_cons_of_mem _ hp)⟩
  alone hkey := by
    apply given_eq_none.mpr
    intro hmem
    obtain ⟨huser, hpass⟩ := h.userpass (List.mem_cons_of_mem _ hmem)
    obtain rfl | rfl := hkey
    · exact huser List.mem_cons_self
    · exact hpass List.mem_cons_self

end given

/-! ## The loop over the command line -/

/-- Whether an option can be read; the state has no part in it. -/
def accepts (env : ConfigEnv) (arg : CliKey × String) : Bool :=
  arg.1 == .config || (applyOption env arg.1 arg.2 {}).isSome

theorem applyOption_isSome (env : ConfigEnv) (key : CliKey) (arg : String) (s s' : ConfigState) :
    (applyOption env key arg s).isSome = (applyOption env key arg s').isSome := by
  cases key with
  | threads =>
    rw [applyOption, applyOption]
    cases parseCliIntOption arg with
    | none => rfl
    | some value =>
      dsimp only [Option.bind_some]
      split <;> rfl
  | _ => simp [applyOption]

/-- One option of the loop. -/
def applyArg (env : ConfigEnv) (s : ConfigState) (arg : CliKey × String) : Option ConfigState :=
  if arg.1 = .config then some s else applyOption env arg.1 arg.2 s

section run
variable {env : ConfigEnv} {s s' : ConfigState}

theorem applyArg_isSome (arg : CliKey × String) : (applyArg env s arg).isSome = accepts env arg := by
  rw [applyArg, accepts, ← applyOption_isSome env arg.1 arg.2 s]
  by_cases hconfig : arg.1 = .config
  · simp [hconfig]
  · simp [hconfig]

theorem applyCommandLine_isSome (args : List (CliKey × String)) :
    (applyCommandLine env args s).isSome = args.all (accepts env) := by
  induction args generalizing s with
  | nil => rfl
  | cons arg args ih =>
    rw [List.all_cons, ← applyArg_isSome (s := s)]
    show ((applyArg env s arg).bind (applyCommandLine env args)).isSome = _
    cases applyArg env s arg with
    | none => rfl
    | some s₁ => exact (ih (s := s₁)).trans (Bool.true_and _).symm

/-- One option adds what it gives. -/
theorem applyArg_resolve (h : s.Ok) {key : CliKey} {arg : String} (happly : applyArg env s (key, arg) = some s')
    {get : Given} (hfits : ConfigState.Fits key arg get) :
    s'.Ok ∧ s'.resolve env get = s.resolve env (Function.update get key (some arg)) := by
  rw [applyArg] at happly
  split at happly
  case isTrue hconfig =>
    rw [← Option.some.inj happly]
    dsimp only at hconfig
    subst hconfig
    refine ⟨h, ConfigState.resolve_setOptions (ConfigState.samePools_update get (by decide) _) ?_⟩
    simp [GlobalOptions.override, Given.number, Given.apiBind]
  case isFalse => exact ⟨h.applyOption happly, ConfigState.resolve_applyOption h happly hfits⟩

/-- The whole loop, in any order. -/
theorem applyCommandLine_resolve (h : s.Ok) {args : List (CliKey × String)} (hargs : DistinctOptions args)
    (happly : applyCommandLine env args s = some s') :
    s'.Ok ∧ (s'.resolve env fun _ => none) = s.resolve env (given args) := by
  induction args generalizing s with
  | nil =>
    rw [← Option.some.inj happly]
    exact ⟨h, rfl⟩
  | cons a args ih =>
    obtain ⟨key, arg⟩ := a
    obtain ⟨s₁, hfirst, hrest⟩ := Option.bind_eq_some_iff.mp happly
    obtain ⟨hok, hstep⟩ := applyArg_resolve h hfirst hargs.fits
    rw [given_cons, ← hstep]
    exact ih hok hargs.tail hrest

end run

/-! ## The config file -/

section config
variable {env : ConfigEnv} {s s' : ConfigState}

theorem applyJsonScalarOption_ok (h : s.Ok) {option : CliOption} {value : Json}
    (happly : applyJsonScalarOption env option value s = some s') : s'.Ok := by
  unfold applyJsonScalarOption at happly
  split at happly
  · exact h.applyOption happly
  · split at happly
    · cases happly
    · exact h.applyOption happly
  · exact h.applyOption happly
  · rwa [← Option.some.inj happly]

theorem applyConfigScalars_ok {config : Json} (h : s.Ok) (happly : applyConfigScalars env config s = some s') :
    s'.Ok := by
  unfold applyConfigScalars at happly
  generalize cliOptions = options at happly
  induction options generalizing s with
  | nil => rwa [← Option.some.inj happly]
  | cons option options ih =>
    obtain ⟨s₁, hfirst, hrest⟩ := Option.bind_eq_some_iff.mp happly
    refine ih ?_ hrest
    dsimp only at hfirst
    split at hfirst
    · rwa [← Option.some.inj hfirst]
    · split at hfirst
      · rwa [← Option.some.inj hfirst]
      · exact applyJsonScalarOption_ok h hfirst

theorem applyConfiguredPool_ok (h : s.Ok) (harray : s.usesPoolArray = true) (config : Json) (i : Nat) :
    (applyConfiguredPool config i s).Ok ∧ (applyConfiguredPool config i s).usesPoolArray = true := by
  unfold applyConfiguredPool
  split
  · exact ⟨h, harray⟩
  case isFalse hi =>
    split
    · exact ⟨h, harray⟩
    · split
      · exact ⟨h, harray⟩
      · have hcount : s.numPools ≤ maxUserPools := h.numPools
        unfold ConfigState.registerPoolIndex
        rw [if_neg hi]
        refine ⟨{ h with array := ?_, numPools := ?_, bound := ?_, empty := ?_, first := ?_ }, harray⟩
        · intro hfalse
          exact absurd (harray.symm.trans hfalse) (by decide)
        · show (if s.numPools < i + 1 then i + 1 else s.numPools) ≤ maxUserPools
          split <;> omega
        · intro j hj
          show j < if s.numPools < i + 1 then i + 1 else s.numPools
          by_cases hji : j = i
          · split <;> omega
          · have hbound := h.bound j (by
              dsimp only at hj
              rwa [ConfigState.setPool_of_ne _ _ hji, ConfigState.setPool_of_ne _ _ hji] at hj)
            split <;> omega
        · intro hzero
          have hz : (if s.numPools < i + 1 then i + 1 else s.numPools) = 0 := hzero
          split at hz <;> omega
        · intro hzero
          have hz : (if s.numPools < i + 1 then i + 1 else s.numPools) = 0 := hzero
          split at hz <;> omega

theorem applyPoolEntries_ok (h : s.Ok) (harray : s.usesPoolArray = true) (entries : List Json) (i : Nat) :
    (applyPoolEntries entries i s).Ok := by
  induction entries generalizing s i with
  | nil => exact h
  | cons config rest ih =>
    rw [applyPoolEntries]
    split
    · split
      · obtain ⟨hok, hstill⟩ := applyConfiguredPool_ok h harray config i
        exact ih hok hstill (i + 1)
      · exact ih h harray (i + 1)
    · exact h

theorem applyConfigPools_ok (h : s.Ok) (config : Json) : (applyConfigPools config s).Ok := by
  unfold applyConfigPools
  split
  case h_1 entries _ =>
    split
    · have hok : ConfigState.Ok { s with usesPoolArray := true } :=
        { h with array := fun hfalse => absurd hfalse Bool.noConfusion }
      exact applyPoolEntries_ok hok rfl entries 0
    case isFalse hnone =>
      obtain rfl : entries = [] := List.eq_nil_of_length_eq_zero (by omega)
      exact h
  case h_2 => exact h

theorem applyConfigObject_ok (h : s.Ok) {config : Json} (happly : applyConfigObject env config s = some s') :
    s'.Ok := by
  unfold applyConfigObject at happly
  split at happly
  · obtain ⟨s₁, hscalars, rfl⟩ := Option.map_eq_some_iff.mp happly
    exact applyConfigPools_ok (applyConfigScalars_ok h hscalars) config
  · rwa [← Option.some.inj happly]

end config

/-! ## The configuration -/

section parse
variable {env : ConfigEnv} {config : Json} {base : ConfigState} {args : List (CliKey × String)}

/-- The result of a command line over a config file. -/
theorem parseCmdline_eq (hbase : applyConfigObject env config {} = some base) (hargs : DistinctOptions args) :
    parseCmdline env (some config) args =
      if args.all (accepts env) then ((base.resolve env (given args)).normalizeThreads env).selectCurrentPool
      else none := by
  have hok := applyConfigObject_ok ConfigState.ok_init hbase
  have hsome : (applyCommandLine env args base).isSome = args.all (accepts env) :=
    applyCommandLine_isSome args
  show (applyConfigObject env config {}).bind (fun s => (applyCommandLine env args s).bind _) = _
  rw [hbase, Option.bind_some, ← hsome]
  cases happly : applyCommandLine env args base with
  | none => rfl
  | some s =>
    obtain ⟨hs, hresolve⟩ := applyCommandLine_resolve hok hargs happly
    rw [← hresolve]
    exact finishCommandLine_eq hs env

theorem selectCurrentPool_eq {c r : Configuration} (h : c.selectCurrentPool = some r) :
    r.options = c.options ∧ r.pools = c.pools ∧ r.numPools = c.numPools ∧
      (r.curPooln = c.curPooln ∨ r.curPooln < c.numPools) := by
  unfold Configuration.selectCurrentPool at h
  split at h
  · rw [← Option.some.inj h]
    exact ⟨rfl, rfl, rfl, .inl rfl⟩
  · split at h
    · cases h
    · obtain ⟨i, hi, rfl⟩ := Option.map_eq_some_iff.mp h
      exact ⟨rfl, rfl, rfl, .inr (List.mem_range.mp (List.mem_of_find?_eq_some hi))⟩

/-- What a run that does not end the program leaves. -/
theorem parseCmdline_resolve (hbase : applyConfigObject env config {} = some base) (hargs : DistinctOptions args)
    {r : Configuration} (hr : parseCmdline env (some config) args = some r) :
    let c := base.resolve env (given args)
    r.options = c.options.normalizeThreads env ∧ r.pools = c.pools ∧ r.numPools = c.numPools ∧
      (r.curPooln = c.curPooln ∨ r.curPooln < c.numPools) := by
  rw [parseCmdline_eq hbase hargs] at hr
  split at hr
  · exact selectCurrentPool_eq hr
  · cases hr

end parse

namespace ConfigState

section resolve
variable {s : ConfigState} {env : ConfigEnv} {get : Given}

theorem resolve_options (s : ConfigState) (env : ConfigEnv) (get : Given) :
    (s.resolve env get).options = s.options.override env get := by
  unfold resolve
  dsimp only
  split_ifs <;> rfl

theorem resolve_curPooln (s : ConfigState) (env : ConfigEnv) (get : Given) :
    (s.resolve env get).curPooln = 0 := by
  unfold resolve
  dsimp only
  split_ifs <;> rfl

/-- With a url there is one pool. -/
theorem resolve_url_given (s : ConfigState) (env : ConfigEnv) {url : String} (hget : get .url = some url)
    (hurl : url ≠ "") :
    (s.resolve env get).numPools = 1 ∧
      (s.resolve env get).pools = Function.update (fun _ => {}) 0 (s.defaults.override get).singlePool := by
  have hset : (s.defaults.override get).urlSet = true := by
    rw [PoolDefaults.override, hget]
    exact bne_iff_ne.mpr hurl
  unfold resolve
  dsimp only
  rw [if_pos (.inl (by rw [hget]; rfl)), if_pos hset]
  exact ⟨rfl, rfl⟩

/-- Configured pools after a command line: the single one, or those of the config file. -/
theorem Ok.resolve_configured (h : s.Ok) (env : ConfigEnv) (hurl : ∀ url, get .url = some url → url ≠ "") {i : Nat}
    (hi : ((s.resolve env get).pools i).configured = true) :
    i < (s.resolve env get).numPools ∧ i < maxPools ∧
      ((s.resolve env get).pools i = (s.defaults.override get).singlePool ∨
        (s.resolve env get).pools i = (s.pools i).override get) := by
  have hcount := h.numPools
  unfold resolve at hi ⊢
  dsimp only at hi ⊢
  by_cases hsingle : (get .url).isSome = true ∨ s.numPools = 0
  · rw [if_pos hsingle] at hi ⊢
    by_cases hset : (s.defaults.override get).urlSet = true
    · rw [if_pos hset] at hi ⊢
      by_cases hi0 : i = 0
      · subst hi0
        refine ⟨Nat.one_pos, by decide, .inl ?_⟩
        dsimp only
        rw [Function.update_self]
      · dsimp only at hi
        rw [Function.update_of_ne hi0] at hi
        cases hi
    · rw [if_neg hset] at hi
      have hzero : s.numPools = 0 := by
        cases hget : get .url with
        | none => simpa [hget] using hsingle
        | some url =>
          rw [PoolDefaults.override, hget] at hset
          exact absurd (bne_iff_ne.mpr (hurl url hget)) hset
      have hbound := h.bound i hi
      omega
  · rw [if_neg hsingle] at hi ⊢
    have hconfigured : (s.pools i).configured = true := by
      by_contra hnot
      dsimp only at hi
      rw [if_neg hnot] at hi
      exact hnot hi
    have hbound := h.bound i hconfigured
    exact ⟨hbound, by unfold maxPools; omega, .inr (if_pos hconfigured)⟩

/-- Without a url the pools of the config file stay where they are. -/
theorem resolve_pools (s : ConfigState) (env : ConfigEnv) (hget : get .url = none) (hsome : s.numPools ≠ 0) :
    (s.resolve env get).numPools = s.numPools ∧ ∀ i, (s.resolve env get).pools i =
      if (s.pools i).configured then (s.pools i).override get else s.pools i := by
  unfold resolve
  dsimp only
  rw [if_neg (by simp [hget, hsome])]
  exact ⟨rfl, fun _ => rfl⟩

end resolve

end ConfigState

/-- The timeout of a configured pool is its own or else the global one. -/
theorem Configuration.poolTimeout_eq {c : Configuration} {i : Nat} (hcount : i < c.numPools) (hmax : i < maxPools)
    (hconfigured : (c.pools i).configured = true) :
    c.poolTimeout i = if 0 < (c.pools i).timeout then (c.pools i).timeout else max 1 c.options.timeout := by
  unfold poolTimeout
  by_cases hown : 0 < (c.pools i).timeout
  · simp [hcount, hmax, hconfigured, hown]
  · simp only [hown, and_false, if_false]
    split <;> omega

/-- A command line of distinct options gives the same configuration in any order.  Each of its values, cut
to its field or brought into its range, takes the place of the config file's, and a url leaves one pool. -/
theorem parseCmdline_precedence (env : ConfigEnv) (config : Json) {base : ConfigState}
    (hbase : applyConfigObject env config {} = some base) {args : List (CliKey × String)}
    (hargs : DistinctOptions args) :
    (∀ args', args'.Perm args →
      parseCmdline env (some config) args' = parseCmdline env (some config) args) ∧
    ∀ r, parseCmdline env (some config) args = some r →
      r.options = (base.options.override env (given args)).normalizeThreads env ∧
      (∀ i, (r.pools i).configured = true →
        (∀ user, (given args).user = some user → (r.pools i).user = snprintf 192 user) ∧
        (∀ pass, (given args).pass = some pass → (r.pools i).pass = snprintf 384 pass) ∧
        ∀ timeout, (given args).number .timeout = some timeout → r.poolTimeout i = max 1 timeout) ∧
      (∀ url, (.url, url) ∈ args →
        r.numPools = 1 ∧ r.curPooln = 0 ∧ (∀ i, i ≠ 0 → (r.pools i).configured = false) ∧
        (r.pools 0).configured = true ∧ (r.pools 0).disabled = false ∧ (r.pools 0).url = snprintf 512 url ∧
        (r.pools 0).user = (given args).user.elim base.defaults.user (snprintf 192) ∧
        (r.pools 0).pass = (given args).pass.elim base.defaults.pass (snprintf 384) ∧
        r.poolTimeout 0 = max 1 r.options.timeout) ∧
      ((given args) .url = none → base.numPools ≠ 0 →
        r.numPools = base.numPools ∧ ∀ i, (r.pools i).configured = (base.pools i).configured ∧
          (r.pools i).name = (base.pools i).name ∧ (r.pools i).url = (base.pools i).url ∧
          (r.pools i).disabled = (base.pools i).disabled ∧
          ((given args).user = none → (r.pools i).user = (base.pools i).user) ∧
          ((given args).pass = none → (r.pools i).pass = (base.pools i).pass) ∧
          ((given args).number .timeout = none → (r.pools i).timeout = (base.pools i).timeout)) := by
  have hok := applyConfigObject_ok ConfigState.ok_init hbase
  refine ⟨?_, ?_⟩
  · intro args' hperm
    rw [parseCmdline_eq hbase (hargs.perm hperm), parseCmdline_eq hbase hargs, given_perm hargs.nodup hperm,
      hperm.all_eq]
  intro r hr
  obtain ⟨hoptions, hpools, hcount, hcur⟩ := parseCmdline_resolve hbase hargs hr
  rw [ConfigState.resolve_options] at hoptions
  rw [ConfigState.resolve_curPooln] at hcur
  have hurl : ∀ url, given args .url = some url → url ≠ "" := by
    rintro _ hget rfl
    exact hargs.url ((given_eq_some hargs.nodup).mp hget)
  refine ⟨hoptions, ?_, ?_, ?_⟩
  · intro i hi
    rw [hpools] at hi
    obtain ⟨hlt, hmax, hshape⟩ := hok.resolve_configured env hurl hi
    rw [← hpools] at hi hshape
    rw [← hcount] at hlt
    refine ⟨?_, ?_, ?_⟩
    · intro user huser
      obtain hpool | hpool := hshape
      · rw [hpool, PoolDefaults.singlePool, PoolDefaults.override, huser]
        rfl
      · rw [hpool, ConfiguredPool.override, huser]
        rfl
    · intro pass hpass
      obtain hpool | hpool := hshape
      · rw [hpool, PoolDefaults.singlePool, PoolDefaults.override, hpass]
        rfl
      · rw [hpool, ConfiguredPool.override, hpass]
        rfl
    · intro timeout htimeout
      have hglobal : r.options.timeout = max 1 timeout := by
        rw [hoptions, GlobalOptions.normalizeThreads, GlobalOptions.override, htimeout]
        rfl
      rw [Configuration.poolTimeout_eq hlt hmax hi, hglobal]
      obtain hpool | hpool := hshape
      · have hunset : (r.pools i).timeout = 0 := by
          rw [hpool]
          rfl
        rw [if_neg (by omega)]
        omega
      · have hown : (r.pools i).timeout = max 1 timeout := by
          rw [hpool, ConfiguredPool.override, htimeout]
          rfl
        rw [if_pos (by omega), hown]
  · intro url hmem
    have hget := (given_eq_some hargs.nodup).mpr hmem
    obtain ⟨hone, hsingle⟩ := base.resolve_url_given env hget (hurl url hget)
    rw [hsingle] at hpools
    rw [hone] at hcount hcur
    have hfirst : r.pools 0 = (base.defaults.override (given args)).singlePool := by
      rw [hpools, Function.update_self]
    have hconfigured : (r.pools 0).configured = true := by
      rw [hfirst]
      rfl
    refine ⟨hcount, by omega, ?_, hconfigured, ?_⟩
    · intro i hi
      rw [hpools, Function.update_of_ne hi]
    · rw [Configuration.poolTimeout_eq (by omega) (by decide) hconfigured, hfirst]
      refine ⟨rfl, ?_, rfl, rfl, rfl⟩
      rw [PoolDefaults.singlePool, PoolDefaults.override, hget]
      rfl
  · intro hnone hsome
    obtain ⟨hsame, heach⟩ := base.resolve_pools env hnone hsome
    refine ⟨hcount.trans hsame, ?_⟩
    intro i
    rw [hpools, heach]
    by_cases hconfigured : (base.pools i).configured = true
    · rw [if_pos hconfigured, ConfiguredPool.override]
      refine ⟨rfl, rfl, rfl, rfl, ?_, ?_, ?_⟩
      · intro huser
        rw [huser]
        rfl
      · intro hpass
        rw [hpass]
        rfl
      · intro htimeout
        rw [htimeout]
        rfl
    · rw [if_neg hconfigured]
      exact ⟨rfl, rfl, rfl, rfl, fun _ => rfl, fun _ => rfl, fun _ => rfl⟩

/-- A build without RandomX on four cpus, where `127.0.0.1` is an address. -/
def bareEnv : ConfigEnv where
  randomx := false
  inetPton address := address == "127.0.0.1"
  onlineCpus := 4

/-- A user for all pools and two pools, of which the first has a user of its own. -/
def twoPools : Json :=
  .object
    [("user", .string "wallet"), ("timeout", .integer 90),
     ("pools", .array
       [.object [("url", .string "one:1"), ("user", .string "other"), ("timeout", .integer 20)],
        .object [("url", .string "two:2"), ("disabled", .bool true)]])]

/-- `-T 7 -u worker` over the two pools. -/
theorem parseCmdline_precedence_twoPools :
    parseCmdline bareEnv (some twoPools) [(.user, "worker"), (.timeout, "7")] =
        parseCmdline bareEnv (some twoPools) [(.timeout, "7"), (.user, "worker")] ∧
      (parseCmdline bareEnv (some twoPools) [(.timeout, "7"), (.user, "worker")]).map
          (fun r => ((r.pools 0).user, (r.pools 1).user, r.poolTimeout 0, r.curPooln)) =
        some ("worker", "worker", 7, 0) := by
  have hbase : (applyConfigObject bareEnv twoPools {}).isSome := by decide
  have hargs : DistinctOptions [(.timeout, "7"), (.user, "worker")] := ⟨by decide, by decide, by decide⟩
  have h := parseCmdline_precedence bareEnv twoPools (Option.some_get hbase).symm hargs
  exact ⟨h.1 _ (List.Perm.swap ..), by decide⟩

/-- A url alone. -/
theorem parseCmdline_url {url : String} (hempty : url ≠ "") {r : Configuration}
    (hr : parseCmdline bareEnv (some (.object [])) [(.url, url)] = some r) :
    DistinctOptions [(.url, url)] ∧ (r.pools 0).url = snprintf 512 url := by
  have hbase : (applyConfigObject bareEnv (.object []) {}).isSome := by decide +kernel
  have hargs : DistinctOptions [(.url, url)] := ⟨by simp, by simp [hempty.symm], by simp⟩
  obtain ⟨-, hpools, -, -⟩ := parseCmdline_resolve (Option.some_get hbase).symm hargs hr
  have hget : given [(.url, url)] .url = some url := (given_eq_some hargs.nodup).mpr List.mem_cons_self
  obtain ⟨-, hsingle⟩ := ConfigState.resolve_url_given ((applyConfigObject bareEnv (.object []) {}).get hbase)
    bareEnv hget hempty
  refine ⟨hargs, ?_⟩
  rw [hpools, hsingle, Function.update_self, PoolDefaults.singlePool, PoolDefaults.override, hget]
  rfl

theorem parseCmdline_url_isSome {url : String} (hempty : url ≠ "") :
    (parseCmdline bareEnv (some (.object [])) [(.url, url)]).isSome := by
  have hbase : (applyConfigObject bareEnv (.object []) {}).isSome := by decide
  have hargs : DistinctOptions [(.url, url)] := ⟨by simp, by simp [hempty.symm], by simp⟩
  have hget : given [(.url, url)] .url = some url := (given_eq_some hargs.nodup).mpr List.mem_cons_self
  obtain ⟨hcount, hsingle⟩ := ConfigState.resolve_url_given
    ((applyConfigObject bareEnv (.object []) {}).get hbase) bareEnv hget hempty
  have hfirst : snprintf 512 url ≠ "" := snprintf_ne_empty (by decide) hempty
  rw [parseCmdline_eq (Option.some_get hbase).symm hargs, if_pos (by simp [accepts, applyOption])]
  unfold Configuration.selectCurrentPool
  split
  · rfl
  · simp [Configuration.normalizeThreads, Configuration.findFirstUsablePoolIndex,
      Configuration.poolIsUsable, hcount, hsingle, PoolDefaults.singlePool, PoolDefaults.override, hget,
      hfirst, maxPools]
def longUrl : String := String.ofList (List.replicate 512 'p')

theorem longUrl_length : longUrl.toList.length = 512 := by
  have htext : longUrl.toList = List.replicate 512 'p' := String.toList_ofList
  rw [htext]
  exact List.length_replicate

theorem longUrl_ne_empty : longUrl ≠ "" := by
  intro hempty
  have hlen := longUrl_length
  rw [hempty] at hlen
  exact absurd hlen (by decide)

/-- A url that does not fit its field is not the url of the pool. -/
theorem longUrl_is_cut :
    ¬ ∀ (args : List (CliKey × String)) (r : Configuration), DistinctOptions args →
      parseCmdline bareEnv (some (.object [])) args = some r →
        ∀ url, (.url, url) ∈ args → (r.pools 0).url = url := by
  intro h
  obtain ⟨r, hr⟩ := Option.isSome_iff_exists.mp (parseCmdline_url_isSome longUrl_ne_empty)
  obtain ⟨hargs, hurl⟩ := parseCmdline_url longUrl_ne_empty hr
  have hsame := h _ r hargs hr longUrl List.mem_cons_self
  rw [hurl] at hsame
  exact snprintf_ne_self (by decide) longUrl_length.ge hsame

end PrimoMiner
