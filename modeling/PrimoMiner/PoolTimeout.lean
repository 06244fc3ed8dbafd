import PrimoMiner.ConfigPrecedence

/-!
# The timeout of a pool

What an entry of the pool array leaves as the timeout of its pool.  The value is narrowed to 32 bits after a
check of its upper end only.
-/

namespace PrimoMiner

/-! ## An entry of the array -/

section entries
variable {s : ConfigState} {config : Json} {i : Nat}

theorem applyConfiguredPool_of_ne (s : ConfigState) (config : Json) {i k : Nat} (h : k ≠ i) :
    (applyConfiguredPool config i s).pools k = s.pools k := by
  unfold applyConfiguredPool ConfigState.registerPoolIndex
  split
  · rfl
  · split
    · rfl
    · split
      · rfl
      · dsimp only
        rw [ConfigState.setPool_of_ne _ _ h, ConfigState.setPool_of_ne _ _ h]

/-- Entries from `i` on leave the pools before. -/
theorem applyPoolEntries_of_lt (entries : List Json) {k : Nat} (h : k < i) :
    (applyPoolEntries entries i s).pools k = s.pools k := by
  induction entries generalizing s i with
  | nil => rfl
  | cons config rest ih =>
    rw [applyPoolEntries]
    split
    · rw [ih (by omega)]
      split
      · exact applyConfiguredPool_of_ne s config (by omega)
      · rfl
    · rfl

/-- An entry with a url configures its pool. -/
theorem applyConfiguredPool_self (s : ConfigState) (hi : i < maxUserPools) {url : String}
    (hurl : Json.stringValue (config.objectGet "url") = some url) (hne : url ≠ "") :
    ((applyConfiguredPool config i s).pools i).configured = true ∧
      ((applyConfiguredPool config i s).pools i).timeout = parsePoolTimeoutJson (config.objectGet "timeout") := by
  unfold applyConfiguredPool ConfigState.registerPoolIndex
  rw [if_neg (by omega), hurl]
  dsimp only
  rw [if_neg hne, if_neg (by omega)]
  dsimp only
  rw [ConfigState.setPool_self, ConfigState.setPool_self]
  exact ⟨rfl, rfl⟩

theorem isObject_of_url {url : String} (hurl : Json.stringValue (config.objectGet "url") = some url) :
    isObject config = true := by
  cases config with
  | object members => rfl
  | _ => cases hurl

theorem applyPoolEntries_getElem (s : ConfigState) {entries : List Json} {j : Nat} (hi : i + j < maxUserPools)
    (hentry : entries[j]? = some config) {url : String}
    (hurl : Json.stringValue (config.objectGet "url") = some url) (hne : url ≠ "") :
    ((applyPoolEntries entries i s).pools (i + j)).configured = true ∧
      ((applyPoolEntries entries i s).pools (i + j)).timeout =
        parsePoolTimeoutJson (config.objectGet "timeout") := by
  induction entries generalizing s i j with
  | nil => cases hentry
  | cons first rest ih =>
    rw [applyPoolEntries, if_pos (by omega)]
    cases j with
    | zero =>
      obtain rfl : first = config := Option.some.inj hentry
      rw [if_pos (isObject_of_url hurl), show i + 0 = i from rfl,
        applyPoolEntries_of_lt rest (show i < i + 1 by omega)]
      exact applyConfiguredPool_self s hi hurl hne
    | succ j =>
      rw [show i + (j + 1) = i + 1 + j by omega]
      exact ih _ (by omega) hentry

end entries

/-- The pool of an entry, in the state that the config file leaves. -/
theorem applyConfigObject_entry {env : ConfigEnv} {config entry : Json} {base : ConfigState}
    (hbase : applyConfigObject env config {} = some base) {entries : List Json}
    (hpools : config.objectGet "pools" = some (.array entries)) {i : Nat} (hi : i < maxUserPools)
    (hentry : entries[i]? = some entry) {url : String}
    (hurl : Json.stringValue (entry.objectGet "url") = some url) (hne : url ≠ "") :
    (base.pools i).configured = true ∧
      (base.pools i).timeout = parsePoolTimeoutJson (entry.objectGet "timeout") := by
  have hobject : isObject config = true := by
    cases config with
    | object members => rfl
    | _ => cases hpools
  rw [applyConfigObject, if_pos hobject] at hbase
  obtain ⟨s, -, rfl⟩ := Option.map_eq_some_iff.mp hbase
  rw [applyConfigPools, hpools]
  have hget := applyPoolEntries_getElem (if 0 < entries.length then { s with usesPoolArray := true } else s)
    (show 0 + i < maxUserPools by omega) hentry hurl hne
  rwa [Nat.zero_add] at hget

/-! ## The number -/

/-- What is read of a number: a wrapped one where it is below the range. -/
theorem parsePoolTimeoutJson_integer (raw : Int) :
    parsePoolTimeoutJson (some (.integer raw)) =
      if 1 ≤ raw ∧ raw ≤ intMax then raw
      else if raw < intMin ∧ 0 < intOfInt64 raw then intOfInt64 raw else 0 := by
  have hrange : intMin ≤ raw → raw ≤ intMax → intOfInt64 raw = raw := by
    intro hlow hhigh
    unfold intMin at hlow
    unfold intMax at hhigh
    exact Int.bmod_eq_of_le (by omega) (by omega)
  show (if intMax < raw then 0 else if 0 < intOfInt64 raw then intOfInt64 raw else 0) = _
  by_cases hhigh : intMax < raw
  · have hmin : intMin ≤ intMax := by decide
    rw [if_pos hhigh, if_neg (by omega), if_neg (by omega)]
  · rw [if_neg hhigh]
    by_cases hlow : intMin ≤ raw
    · rw [hrange hlow (by omega)]
      by_cases hpos : 0 < raw
      · rw [if_pos hpos, if_pos (by omega)]
      · rw [if_neg hpos, if_neg (by omega), if_neg (by omega)]
    · have hmin : intMin < 1 := by decide
      rw [if_neg (show ¬ (1 ≤ raw ∧ raw ≤ intMax) by omega)]
      by_cases hpos : 0 < intOfInt64 raw
      · rw [if_pos hpos, if_pos ⟨by omega, hpos⟩]
      · rw [if_neg hpos, if_neg fun h => hpos h.2]

/-! ## The command line -/

/-- The pools are the same up to their credentials. -/
structure SameTimeouts (s s' : ConfigState) : Prop where
  numPools : s'.numPools = s.numPools
  configured : ∀ i, (s'.pools i).configured = (s.pools i).configured
  timeout : ∀ i, (s'.pools i).timeout = (s.pools i).timeout
  global : s'.options.timeout = s.options.timeout

namespace SameTimeouts
variable {env : ConfigEnv} {s s' s'' : ConfigState}

theorem refl (s : ConfigState) : SameTimeouts s s := ⟨rfl, fun _ => rfl, fun _ => rfl, rfl⟩

theorem trans (h : SameTimeouts s s') (h' : SameTimeouts s' s'') : SameTimeouts s s'' where
  numPools := h'.numPools.trans h.numPools
  configured i := (h'.configured i).trans (h.configured i)
  timeout i := (h'.timeout i).trans (h.timeout i)
  global := h'.global.trans h.global

theorem setOptions {o : GlobalOptions} (h : o.timeout = s.options.timeout) : SameTimeouts s (s.setOptions o) :=
  ⟨rfl, fun _ => rfl, fun _ => rfl, h⟩

theorem applyCredentials_timeout (d : PoolDefaults) (a b a' b' : Bool) (p : ConfiguredPool) :
    (d.applyCredentials a b a' b' p).timeout = p.timeout := by
  unfold PoolDefaults.applyCredentials
  split_ifs <;> rfl

theorem syncConfiguredPoolDefaults (d : PoolDefaults) (updateUser updatePass : Bool) :
    SameTimeouts s ({ s with defaults := d }.syncConfiguredPoolDefaults updateUser updatePass) := by
  refine ⟨rfl, fun i => ?_, fun i => ?_, rfl⟩
  · dsimp only [ConfigState.syncConfiguredPoolDefaults, ConfigState.mapConfigured]
    split
    · exact ConfigState.applyCredentials_configured ..
    · rfl
  · dsimp only [ConfigState.syncConfiguredPoolDefaults, ConfigState.mapConfigured]
    split
    · exact applyCredentials_timeout ..
    · rfl

/-- Every option but the timeout and the url. -/
theorem applyOption {key : CliKey} {arg : String} (htimeout : key ≠ .timeout) (hurl : key ≠ .url)
    (happly : applyOption env key arg s = some s') : SameTimeouts s s' := by
  cases key with
  | timeout => exact absurd rfl htimeout
  | url => exact absurd rfl hurl
  | user | pass =>
    rw [← Option.some.inj happly]
    exact syncConfiguredPoolDefaults ..
  | userpass =>
    obtain ⟨parts, -, rfl⟩ := Option.map_eq_some_iff.mp happly
    exact syncConfiguredPoolDefaults ..
  | threads =>
    obtain ⟨value, -, hvalue⟩ := Option.bind_eq_some_iff.mp happly
    split at hvalue
    · cases hvalue
    · rw [← Option.some.inj hvalue]
      exact setOptions rfl
  | algo | apiBind | statsavg | retries | retryPause | cpuAffinity | cpuPriority =>
    obtain ⟨value, -, rfl⟩ := Option.map_eq_some_iff.mp happly
    exact setOptions rfl
  | debug | protocolDump | quiet | benchmark | nicehash =>
    rw [← Option.some.inj happly]
    exact setOptions rfl
  | version | help | config => cases happly

/-- The whole loop, options that are given again included. -/
theorem applyCommandLine {args : List (CliKey × String)} (htimeout : .timeout ∉ args.map (·.1))
    (hurl : .url ∉ args.map (·.1)) (happly : applyCommandLine env args s = some s') : SameTimeouts s s' := by
  induction args generalizing s with
  | nil =>
    rw [← Option.some.inj happly]
    exact refl s
  | cons a args ih =>
    obtain ⟨key, arg⟩ := a
    rw [List.map_cons, List.mem_cons, not_or] at htimeout hurl
    obtain ⟨mid, hfirst, hrest⟩ := Option.bind_eq_some_iff.mp happly
    refine trans ?_ (ih htimeout.2 hurl.2 hrest)
    dsimp only at hfirst
    split at hfirst
    · rw [← Option.some.inj hfirst]
      exact refl s
    · exact applyOption (Ne.symm htimeout.1) (Ne.symm hurl.1) hfirst

/-- A table with pools is the one that is used. -/
theorem finishCommandLine (hpools : s.numPools ≠ 0) {r : Configuration} (hr : finishCommandLine env s = some r) :
    r.pools = s.pools ∧ r.numPools = s.numPools ∧ r.options.timeout = s.options.timeout := by
  rw [PrimoMiner.finishCommandLine, ConfigState.ensure_setOptions, ensureCliPoolIsRegistered,
    if_pos (.inl hpools)] at hr
  obtain ⟨hoptions, hsame, hcount, -⟩ := selectCurrentPool_eq hr
  exact ⟨hsame, hcount, by rw [hoptions]; rfl⟩

end SameTimeouts

/-- The timeout in effect of a pool with a timeout of its own, when neither the timeout nor the url is given on
the command line: the right one unless the number is below the 32-bit range and its low 32 bits are positive
and not by chance the global timeout. -/
theorem poolTimeout_iff (env : ConfigEnv) {config entry : Json} {base : ConfigState}
    (hbase : applyConfigObject env config {} = some base) {entries : List Json}
    (hpools : config.objectGet "pools" = some (.array entries)) {i : Nat} (hi : i < maxUserPools)
    (hentry : entries[i]? = some entry) {url : String}
    (hurl : Json.stringValue (entry.objectGet "url") = some url) (hne : url ≠ "") {raw : Int}
    (hraw : entry.objectGet "timeout" = some (.integer raw)) {args : List (CliKey × String)}
    (htimeout : .timeout ∉ args.map (·.1)) (hpool : .url ∉ args.map (·.1))
    {r : Configuration} (hr : parseCmdline env (some config) args = some r) :
    r.poolTimeout i = (if 1 ≤ raw ∧ raw ≤ intMax then raw else r.options.timeout) ↔
      ¬ (raw < intMin ∧ 0 < intOfInt64 raw ∧ intOfInt64 raw ≠ r.options.timeout) := by
  have hok := applyConfigObject_ok ConfigState.ok_init hbase
  obtain ⟨hconfigured, hown⟩ := applyConfigObject_entry hbase hpools hi hentry hurl hne
  have hbound := hok.bound i hconfigured
  rw [parseCmdline, hbase, Option.bind_eq_bind, Option.bind_some] at hr
  obtain ⟨s, hs, hfinish⟩ := Option.bind_eq_some_iff.mp hr
  have hkeep := SameTimeouts.applyCommandLine htimeout hpool hs
  obtain ⟨hpools, hcount, hglobal⟩ := SameTimeouts.finishCommandLine (by rw [hkeep.numPools]; omega) hfinish
  have hstill : (r.pools i).configured = true := by
    rw [hpools, hkeep.configured, hconfigured]
  have hpoolTimeout : (r.pools i).timeout = parsePoolTimeoutJson (some (.integer raw)) := by
    rw [hpools, hkeep.timeout, hown, hraw]
  have hpositive : 1 ≤ r.options.timeout := by
    rw [hglobal, hkeep.global]
    exact hok.timeout
  rw [hkeep.numPools] at hcount
  rw [Configuration.poolTimeout_eq (by omega) (by unfold maxPools; omega) hstill, hpoolTimeout,
    parsePoolTimeoutJson_integer]
  have hmin : intMin < 1 := by decide
  by_cases hin : 1 ≤ raw ∧ raw ≤ intMax
  · rw [if_pos hin, if_pos (by omega), if_pos hin]
    exact ⟨fun _ hbad => by omega, fun _ => rfl⟩
  · rw [if_neg hin, if_neg hin]
    by_cases hwrap : raw < intMin ∧ 0 < intOfInt64 raw
    · rw [if_pos hwrap, if_pos hwrap.2]
      exact ⟨fun heq hbad => hbad.2.2 heq, fun hgood => by_contra fun hbad => hgood ⟨hwrap.1, hwrap.2, hbad⟩⟩
    · rw [if_neg hwrap, if_neg (by omega)]
      exact ⟨fun _ hbad => hwrap ⟨hbad.1, hbad.2.1⟩, fun _ => by omega⟩

/-- One pool with a timeout. -/
def onePool (raw : Int) : Json :=
  .object [("pools", .array [.object [("url", .string "one:1"), ("timeout", .integer raw)]])]

theorem poolTimeout_iff_twenty :
    ∃ r, parseCmdline bareEnv (some (onePool 20)) [] = some r ∧ r.poolTimeout 0 = 20 := by
  have hbase : (applyConfigObject bareEnv (onePool 20) {}).isSome := by decide
  have hsome : (parseCmdline bareEnv (some (onePool 20)) []).isSome := by decide
  obtain ⟨r, hr⟩ := Option.isSome_iff_exists.mp hsome
  have hiff := poolTimeout_iff bareEnv (Option.some_get hbase).symm rfl (show 0 < maxUserPools by decide) rfl
    rfl (show "one:1" ≠ "" by decide) rfl List.not_mem_nil List.not_mem_nil hr
  exact ⟨r, hr, hiff.mpr fun hbad => absurd hbad.1 (by decide)⟩

/-- A negative number becomes a timeout of one second. -/
theorem negative_timeout_wraps :
    ¬ ∀ (raw : Int) (r : Configuration), parseCmdline bareEnv (some (onePool raw)) [] = some r →
      r.poolTimeout 0 = if 1 ≤ raw ∧ raw ≤ intMax then raw else r.options.timeout := by
  intro h
  have hwrapped : (parseCmdline bareEnv (some (onePool (-4294967295))) []).map
      (fun r => (r.poolTimeout 0, r.options.timeout)) = some (1, 300) := by decide
  obtain ⟨r, hr, hvalues⟩ := Option.map_eq_some_iff.mp hwrapped
  have hclaim := h _ r hr
  rw [Prod.mk.injEq] at hvalues
  rw [hvalues.1, hvalues.2] at hclaim
  exact absurd hclaim (by decide)

end PrimoMiner
