import PrimoMiner.Connection

/-!
# The difficulty and the extranonce in effect

Which difficulty and which extranonce the works of a session are built with, over every run of a
context.  The subscribe reply sets the difficulty back to 1, so a difficulty announced before it is
lost; the extranonce outlives its session, so until the reply a session still has that of the session
before it.
-/

namespace PrimoMiner

open Runs EventLog ConnEvent

/-! ## Lines of a pool -/

def callLine (method : String) (params : List Json) : ConnAct :=
  .receive (.line { val := .object [("method", .string method), ("params", .array params)] })

def subscribeReplyLine (xnonce1 : String) (xn2Size : Int) : ConnAct :=
  .receive (.line { val := .object [("id", .integer 1),
    ("result", .array [.array [], .string xnonce1, .integer xn2Size])] })

def zeroHex (digits : Nat) : Json := .string (String.ofList (List.replicate digits '0'))

def notifyLine (jobId : String) : ConnAct :=
  callLine "mining.notify" [.string jobId, zeroHex 64, zeroHex 0, zeroHex 0, .array [], zeroHex 8,
    zeroHex 8, zeroHex 8, .bool true]

/-- SHA256d, with a hash that is not looked at. -/
def plainEnv : HandlerEnv := ⟨.sha256d, fun _ => .zero, fun ctx _ => (ctx, none)⟩

def plainRun (acts : List ConnAct) : Option Conn :=
  exec (Conn.step plainEnv) (stratumInitContext .sha256d 0 {}) acts

/-- The publication that a log ends with, and the log before it. -/
def lastPublished (s : Conn) : Option (SessionCtx × Work × List ConnEvent) :=
  match s.log with
  | .published built work _ :: before => some (built, work, before)
  | _ => none

theorem lastPublished_suffix {s : Conn} {built : SessionCtx} {work : Work} {before : List ConnEvent}
    (h : lastPublished s = some (built, work, before)) :
    ∃ clean, .published built work clean :: before <:+ s.log := by
  unfold lastPublished at h
  split at h
  case h_1 b w clean log hlog =>
    simp only [Option.some.injEq, Prod.mk.injEq] at h
    obtain ⟨rfl, rfl, rfl⟩ := h
    exact ⟨clean, hlog ▸ List.suffix_rfl⟩
  case h_2 => exact absurd h (by simp)

/-- What a run that ends with a publication shows of it. -/
theorem exists_published {β : Type} {acts : List ConnAct} {f : SessionCtx × Work × List ConnEvent → β}
    {b : β} (h : ((plainRun acts).bind lastPublished).map f = some b) :
    ∃ s built work clean before, plainRun acts = some s ∧
      .published built work clean :: before <:+ s.log ∧ f (built, work, before) = b := by
  obtain ⟨⟨built, work, before⟩, hlast, hf⟩ := Option.map_eq_some_iff.mp h
  obtain ⟨s, hs, hpublished⟩ := Option.bind_eq_some_iff.mp hlast
  obtain ⟨clean, hsuffix⟩ := lastPublished_suffix hpublished
  exact ⟨s, built, work, clean, before, hs, hsuffix, hf⟩

/-! ## The difficulty -/

/-- The last difficulty accepted in the session. -/
def sessionDifficulty (log : List ConnEvent) : Option ℚ := lastOf announced? (sessionEvents log)

/-- The last difficulty accepted since the subscribe reply, or in the session before its reply. -/
def difficultySinceReply (log : List ConnEvent) : Option ℚ :=
  lastOf announced? (since (fun e => startsSession e || isSubscribed e) log)

/-- No difficulty of the session but 1 was overwritten by the subscribe reply, and something has been
stored in the context at all. -/
def DifficultyStands (log : List ConnEvent) : Prop :=
  ((sessionDifficulty log).getD 1 = 1 ∨ (difficultySinceReply log).isSome) ∧
    ∃ e ∈ log, (nextDiff? e).isSome

/-- An event that neither announces nor stores a difficulty leaves all readings of the log alone. -/
theorem readings_cons {e : ConnEvent} (log : List ConnEvent) (hannounced : announced? e = none)
    (hstored : nextDiff? e = none) (hstart : (startsSession e || isSubscribed e) = false) :
    sessionDifficulty (e :: log) = sessionDifficulty log ∧
      difficultySinceReply (e :: log) = difficultySinceReply log ∧
      lastOf nextDiff? (e :: log) = lastOf nextDiff? log := by
  have hsession : startsSession e = false := (Bool.or_eq_false_iff.mp hstart).1
  refine ⟨?_, ?_, lastOf_cons_of_none log hstored⟩
  · rw [sessionDifficulty, sessionEvents, since_cons_of_neg log hsession,
      lastOf_cons_of_none _ hannounced]
    rfl
  · rw [difficultySinceReply, since_cons_of_neg log hstart, lastOf_cons_of_none _ hannounced]
    rfl

/-- How the stored difficulty follows from the readings of the log. -/
theorem stored_difficulty {env : HandlerEnv} {log : List ConnEvent} (h : Always (EventOk env) log) :
    (∀ diff, difficultySinceReply log = some diff →
      lastOf nextDiff? log = some diff ∧ sessionDifficulty log = some diff) ∧
    (difficultySinceReply log = none → (lastOf nextDiff? log).getD 1 = 1) ∧
    (lastOf nextDiff? log = none → sessionDifficulty log = none) := by
  induction log with
  | nil => exact ⟨fun diff hdiff => absurd hdiff (by simp [difficultySinceReply]), fun _ => rfl, fun _ => rfl⟩
  | cons e log ih =>
    have hbefore := ih fun l hl => h l (hl.trans (List.suffix_cons e log))
    cases e with
    | connected =>
      refine ⟨fun diff hdiff => ?_, fun _ => h.now, fun _ => rfl⟩
      exact absurd hdiff (by simp [difficultySinceReply, since_cons, startsSession])
    | difficulty diff =>
      refine ⟨fun diff' hdiff => ?_, fun hnone => ?_, fun hnone => ?_⟩
      · have : diff = diff' := Option.some.inj hdiff
        exact ⟨congrArg some this, congrArg some this⟩
      · exact absurd hnone (by simp [difficultySinceReply, since_cons, startsSession, isSubscribed,
          lastOf_cons, announced?])
      · exact absurd hnone (by simp [lastOf_cons, nextDiff?])
    | subscribed xnonce1 =>
      refine ⟨fun diff hdiff => ?_, fun _ => rfl, fun hnone => ?_⟩
      · exact absurd hdiff (by simp [difficultySinceReply, since_cons, isSubscribed])
      · exact absurd hnone (by simp [lastOf_cons, nextDiff?])
    | closed =>
      refine ⟨fun diff hdiff => ?_, fun _ => rfl, fun _ => rfl⟩
      exact absurd hdiff (by simp [difficultySinceReply, since_cons, startsSession])
    | extranonce xnonce1 =>
      obtain ⟨hsession, hreply, hstored⟩ := readings_cons (e := .extranonce xnonce1) log rfl rfl rfl
      rwa [hsession, hreply, hstored]
    | published built work clean =>
      obtain ⟨hsession, hreply, hstored⟩ :=
        readings_cons (e := .published built work clean) log rfl rfl rfl
      rwa [hsession, hreply, hstored]
    | annotated jobId height =>
      obtain ⟨hsession, hreply, hstored⟩ := readings_cons (e := .annotated jobId height) log rfl rfl rfl
      rwa [hsession, hreply, hstored]
    | replied id result error =>
      obtain ⟨hsession, hreply, hstored⟩ := readings_cons (e := .replied id result error) log rfl rfl rfl
      rwa [hsession, hreply, hstored]
    | redirected url =>
      obtain ⟨hsession, hreply, hstored⟩ := readings_cons (e := .redirected url) log rfl rfl rfl
      rwa [hsession, hreply, hstored]

theorem lastOf_nextDiff_isSome (log : List ConnEvent) :
    (lastOf nextDiff? log).isSome ↔ ∃ e ∈ log, (nextDiff? e).isSome := by
  rw [lastOf, List.findSome?_isSome_iff]

/-- In every run, a work has the last difficulty accepted in its session, or 1 if there is none,
exactly when the subscribe reply has overwritten none and the context is past its first reset. -/
theorem targetdiff_in_effect_iff (env : HandlerEnv) (pooln : Nat) (net : StratumCtx)
    (acts : List ConnAct) (s : Conn) (built : SessionCtx) (work : Work) (clean : Bool)
    (before : List ConnEvent) (halgo : env.algo ≠ .randomx)
    (hrun : exec (Conn.step env) (stratumInitContext env.algo pooln net) acts = some s)
    (hpublished : .published built work clean :: before <:+ s.log) :
    work.targetdiff = (sessionDifficulty before).getD 1 ↔ DifficultyStands before := by
  have hhistory := (Conn.run_consistent halgo hrun).history
  obtain ⟨htarget, -, -⟩ := hhistory _ hpublished
  have hbefore : Always (EventOk env) before :=
    fun l hl => hhistory l ((hl.trans (List.suffix_cons _ _)).trans hpublished)
  obtain ⟨hreply, hnone, hunset⟩ := stored_difficulty hbefore
  rw [htarget, DifficultyStands, ← lastOf_nextDiff_isSome]
  cases hsince : difficultySinceReply before with
  | some diff =>
    obtain ⟨hstored, hsession⟩ := hreply diff hsince
    simp [hstored, hsession]
  | none =>
    cases hstored : lastOf nextDiff? before with
    | none => simp [hunset hstored]
    | some diff =>
      have hone : diff = 1 := by simpa [hstored] using hnone hsince
      simp [hone, eq_comm]

/-- Subscribe reply, difficulty 8, job. -/
theorem targetdiff_in_effect_after_reply : ∃ s built work clean before,
    plainRun [.connect {}, subscribeReplyLine "00000001" 4,
      callLine "mining.set_difficulty" [.integer 8], notifyLine "1"] = some s ∧
    .published built work clean :: before <:+ s.log ∧ DifficultyStands before ∧
    work.targetdiff = (sessionDifficulty before).getD 1 := by
  have hshown : ((plainRun [.connect {}, subscribeReplyLine "00000001" 4,
      callLine "mining.set_difficulty" [.integer 8], notifyLine "1"]).bind lastPublished).map
      (fun p => ((difficultySinceReply p.2.2).isSome, (lastOf nextDiff? p.2.2).isSome)) =
      some (true, true) := by decide
  obtain ⟨s, built, work, clean, before, hrun, hsuffix, hf⟩ := exists_published hshown
  rw [Prod.mk.injEq] at hf
  have hstands : DifficultyStands before := ⟨.inr hf.1, (lastOf_nextDiff_isSome before).mp hf.2⟩
  refine ⟨s, built, work, clean, before, hrun, hsuffix, hstands, ?_⟩
  exact (targetdiff_in_effect_iff plainEnv 0 {} _ s built work clean before (by decide) hrun
    hsuffix).mpr hstands

/-- Difficulty 8, subscribe reply, job: the difficulty is lost. -/
theorem difficulty_lost_at_reply : ∃ s built work clean before,
    plainRun [.connect {}, callLine "mining.set_difficulty" [.integer 8],
      subscribeReplyLine "00000001" 4, notifyLine "1"] = some s ∧
    .published built work clean :: before <:+ s.log ∧
    work.targetdiff ≠ (sessionDifficulty before).getD 1 := by
  have hshown : ((plainRun [.connect {}, callLine "mining.set_difficulty" [.integer 8],
      subscribeReplyLine "00000001" 4, notifyLine "1"]).bind lastPublished).map
      (fun p => (p.2.1.targetdiff, (sessionDifficulty p.2.2).getD 1)) = some (1, 8) := by
    decide
  obtain ⟨s, built, work, clean, before, hrun, hsuffix, hf⟩ := exists_published hshown
  rw [Prod.mk.injEq] at hf
  refine ⟨s, built, work, clean, before, hrun, hsuffix, ?_⟩
  rw [hf.1, hf.2]
  decide

/-! ## The extranonce -/

/-- The extranonce accepted last in the session, by its subscribe reply or after it. -/
def repliedXnonce1 : List ConnEvent → Option (List Byte)
  | [] => none
  | .subscribed xnonce1 :: _ => some xnonce1
  | .extranonce xnonce1 :: before => (repliedXnonce1 before).map fun _ => xnonce1
  | _ :: before => repliedXnonce1 before

theorem xnonce1_isSome_of_subscribed {events : List ConnEvent}
    (h : ∃ e ∈ events, isSubscribed e = true) : (lastOf xnonce1? events).isSome := by
  rw [lastOf, List.findSome?_isSome_iff]
  obtain ⟨e, he, hsubscribed⟩ := h
  cases e with
  | subscribed xnonce1 => exact ⟨_, he, rfl⟩
  | _ => simp [isSubscribed] at hsubscribed

/-- After the reply, the extranonce accepted last is the one accepted last by any message. -/
theorem repliedXnonce1_eq (events : List ConnEvent) :
    repliedXnonce1 events =
      if events.any isSubscribed then lastOf xnonce1? events else none := by
  induction events with
  | nil => rfl
  | cons e events ih =>
    cases e with
    | subscribed xnonce1 => rfl
    | extranonce xnonce1 =>
      rw [repliedXnonce1, ih]
      simp only [List.any_cons, isSubscribed, Bool.false_or, lastOf_cons, xnonce1?, Option.some_or]
      split
      case isTrue h =>
        have hsome := xnonce1_isSome_of_subscribed (List.any_eq_true.mp h)
        obtain ⟨x, hx⟩ := Option.isSome_iff_exists.mp hsome
        rw [hx, Option.map_some]
      case isFalse => rfl
    | _ => simpa [repliedXnonce1, isSubscribed, lastOf_cons, xnonce1?] using ih

/-- In every run, a work is built with the extranonce that its session's subscribe reply or a later
message set exactly when the session has had its reply. -/
theorem xnonce1_in_effect_iff (env : HandlerEnv) (pooln : Nat) (net : StratumCtx)
    (acts : List ConnAct) (s : Conn) (built : SessionCtx) (work : Work) (clean : Bool)
    (before : List ConnEvent) (halgo : env.algo ≠ .randomx)
    (hrun : exec (Conn.step env) (stratumInitContext env.algo pooln net) acts = some s)
    (hpublished : .published built work clean :: before <:+ s.log) :
    (∃ xnonce1, repliedXnonce1 (sessionEvents before) = some xnonce1 ∧
      BuiltWith env xnonce1 built work ∧ built.xnonce1 = xnonce1) ↔
      ∃ e ∈ sessionEvents before, isSubscribed e = true := by
  obtain ⟨-, hstored, hbuilt⟩ := (Conn.run_consistent halgo hrun).history _ hpublished
  constructor
  · rintro ⟨xnonce1, hreplied, -, -⟩
    rw [repliedXnonce1_eq] at hreplied
    split at hreplied
    case isTrue h => exact List.any_eq_true.mp h
    case isFalse => exact absurd hreplied (by simp)
  · intro hreply
    have hany : (sessionEvents before).any isSubscribed = true := List.any_eq_true.mpr hreply
    obtain ⟨xnonce1, hxnonce1⟩ :=
      Option.isSome_iff_exists.mp (xnonce1_isSome_of_subscribed hreply)
    have heq : built.xnonce1 = xnonce1 := by
      rw [hstored, lastOf_of_lastOf_since hxnonce1, Option.getD_some]
    refine ⟨xnonce1, ?_, heq ▸ hbuilt, heq⟩
    rw [repliedXnonce1_eq, if_pos hany, hxnonce1]

theorem xnonce1_in_effect_after_reply : ∃ s built work clean before,
    plainRun [.connect {}, subscribeReplyLine "00000001" 4, notifyLine "1"] = some s ∧
    .published built work clean :: before <:+ s.log ∧
    (∃ e ∈ sessionEvents before, isSubscribed e = true) ∧
    ∃ xnonce1, repliedXnonce1 (sessionEvents before) = some xnonce1 ∧
      BuiltWith plainEnv xnonce1 built work ∧ built.xnonce1 = xnonce1 := by
  have hshown : ((plainRun [.connect {}, subscribeReplyLine "00000001" 4,
      notifyLine "1"]).bind lastPublished).map
      (fun p => (sessionEvents p.2.2).any isSubscribed) = some true := by decide
  obtain ⟨s, built, work, clean, before, hrun, hsuffix, hany⟩ := exists_published hshown
  have hreply := List.any_eq_true.mp hany
  refine ⟨s, built, work, clean, before, hrun, hsuffix, hreply, ?_⟩
  exact (xnonce1_in_effect_iff plainEnv 0 {} _ s built work clean before (by decide) hrun
    hsuffix).mpr hreply

/-- A job before the subscribe reply is built with the extranonce of the server before. -/
theorem xnonce1_of_last_session : ∃ s built work clean before,
    plainRun [.connect { url := "stratum+tcp://a:1" }, subscribeReplyLine "00000001" 4,
      .receive .failed, .connect { url := "stratum+tcp://b:1" }, notifyLine "1"] = some s ∧
    .published built work clean :: before <:+ s.log ∧
    repliedXnonce1 (sessionEvents before) = none ∧ built.xnonce1 = [0, 0, 0, 1] := by
  have hshown : ((plainRun [.connect { url := "stratum+tcp://a:1" }, subscribeReplyLine "00000001" 4,
      .receive .failed, .connect { url := "stratum+tcp://b:1" },
      notifyLine "1"]).bind lastPublished).map
      (fun p => (repliedXnonce1 (sessionEvents p.2.2), p.1.xnonce1)) =
      some (none, [0, 0, 0, 1]) := by decide
  obtain ⟨s, built, work, clean, before, hrun, hsuffix, hf⟩ := exists_published hshown
  rw [Prod.mk.injEq] at hf
  exact ⟨s, built, work, clean, before, hrun, hsuffix, hf.1, hf.2⟩

end PrimoMiner
