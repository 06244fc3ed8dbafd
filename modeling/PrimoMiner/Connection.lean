import PrimoMiner.Dispatch
import PrimoMiner.Library.EventLog
import Mathlib.Tactic.Linarith

/-!
# A context over its sessions

One context from `stratum_init_context` on, through any number of sessions: the handshake, the message
loop and the disconnect that ends each of them.  The difficulty and the extranonce of the context are
what the last events of the log say, and every work is built from both as they stand.
-/

namespace PrimoMiner

open Runs EventLog

inductive ConnAct where
  -- the transport is open; the url may have changed since the last session, as the dev fee slot's does
  | connect (net : StratumCtx)
  | receive (r : Received)
  -- the message loop ends by itself: abort, reconnect request or slice boundary
  | leave
  | disconnect

namespace Conn

section session
variable (env : HandlerEnv)

def goto (s : Conn) (phase : ConnPhase) : Conn := { s with phase := phase }

/-- A failed extranonce subscription is not a failure of the handshake. -/
def requestFailed (s : Conn) : Request → Conn
  | .extranonceSubscribe => s.goto .loop
  | _ => s.stratumDisconnect

def stratumApplySubscribeReply (s : Conn) (reply : Json) : Option Conn :=
  let resVal := reply.objectGet "result"
  (stratumParseExtranonce env.algo s.ctx resVal 1).map fun ctx =>
    { s with
      ctx := stratumStoreSessionId ctx (getStratumSessionId resVal)
      log := .subscribed ctx.xnonce1 :: s.log }

/-- The array dialects never send a login. -/
def requestAnswered (s : Conn) (reply : Json) : Request → Conn
  | .subscribe attempt =>
    if stratumReplyHasRpcError reply true then
      if attempt + 1 < 2 then s.goto (.waiting (.subscribe (attempt + 1)))
      else s.requestFailed (.subscribe attempt)
    else
      match s.stratumApplySubscribeReply env reply with
      | none => s.requestFailed (.subscribe attempt)
      | some s => s.goto (.waiting .authorize)
  | .authorize =>
    if stratumReplyHasRpcError reply false then s.requestFailed .authorize
    else s.goto (.waiting .extranonceSubscribe)
  | .extranonceSubscribe => s.goto .loop
  | .login => s

def receive (s : Conn) (r : Received) : Option Conn :=
  match s.phase with
  | .waiting request =>
    match waitIteration env request.id s r with
    | (s, none) => some s
    | (s, some (.ok reply)) => some (s.requestAnswered env reply.val request)
    | (s, some _) => some (s.requestFailed request)
  | .loop =>
    match r with
    | .line line =>
      let (s, status) := s.stratumDispatchJsonMessage env line
      some (if status = .fatal then s.goto .leaving else s)
    | .invalid => some (s.goto .leaving)
    -- a timeout at the fee boundary
    | .timedOut => some s
    | .failed => some (s.goto .leaving)
  | _ => none

def step (s : Conn) : ConnAct → Option Conn
  | .connect net =>
    if s.phase = .closed then
      some { s with net := net, phase := .waiting (.subscribe 0), log := .connected :: s.log }
    else none
  | .receive r => s.receive env r
  | .leave => if s.phase = .loop then some (s.goto .leaving) else none
  -- also after a connect that failed
  | .disconnect =>
    if s.phase = .closed ∨ s.phase = .leaving then some s.stratumDisconnect else none

end session

end Conn

/-! ## What the log says -/

namespace ConnEvent

/-- A session is what happens from one of these on. -/
def startsSession : ConnEvent → Bool
  | .connected => true
  | .closed => true
  | _ => false

def isSubscribed : ConnEvent → Bool
  | .subscribed _ => true
  | _ => false

/-- The difficulty that the pool announces. -/
def announced? : ConnEvent → Option ℚ
  | .difficulty diff => some diff
  | _ => none

/-- What the event stores as the difficulty for the next job. -/
def nextDiff? : ConnEvent → Option ℚ
  | .difficulty diff => some diff
  | .subscribed _ => some 1
  | .closed => some 1
  | _ => none

def xnonce1? : ConnEvent → Option (List Byte)
  | .subscribed xnonce1 => some xnonce1
  | .extranonce xnonce1 => some xnonce1
  | _ => none

/-- An event that stores nothing in the context and publishes nothing. -/
def Neutral : ConnEvent → Prop
  | .annotated _ _ => True
  | .replied _ _ _ => True
  | .redirected _ => True
  | _ => False

theorem Neutral.stores_nothing {e : ConnEvent} (h : e.Neutral) :
    e.nextDiff? = none ∧ e.xnonce1? = none := by
  cases e <;> simp_all [Neutral, nextDiff?, xnonce1?]

end ConnEvent

open ConnEvent

/-- The events of the current session, newest first. -/
def sessionEvents (log : List ConnEvent) : List ConnEvent := since startsSession log

/-- How a work uses the extranonce of the context it was built from. -/
def BuiltWith (env : HandlerEnv) (xnonce1 : List Byte) (built : SessionCtx) (work : Work) : Prop :=
  (∃ coinb1 coinb2,
    built.job.coinbase = coinb1 ++ xnonce1 ++ built.job.xnonce2 ++ coinb2 ∧
    work = buildStandardWork env.sha256d env.algo built) ∨
  (work = buildVerusWork built (env.algo == .verus) ∧
    work.data.bytes 108 xnonce1.length = xnonce1)

/-- What the newest event may be after the events before it. -/
def EventOk (env : HandlerEnv) : List ConnEvent → Prop
  | .published built work _ :: before =>
    work.targetdiff = (lastOf nextDiff? before).getD 0 ∧
    built.xnonce1 = (lastOf xnonce1? before).getD [] ∧ BuiltWith env built.xnonce1 built work
  -- a session begins with the default difficulty, or with none at all
  | .connected :: before => (lastOf nextDiff? before).getD 1 = 1
  | _ => True

structure Conn.Consistent (env : HandlerEnv) (s : Conn) : Prop where
  nextDiff : s.ctx.nextDiff = (lastOf nextDiff? s.log).getD 0
  xnonce1 : s.ctx.xnonce1 = (lastOf xnonce1? s.log).getD []
  history : Always (EventOk env) s.log
  closed : s.phase = .closed → (lastOf nextDiff? s.log).getD 1 = 1

/-! ## What a message does -/

/-- Only events that store nothing are recorded. -/
structure Conn.Quiet (s s' : Conn) : Prop where
  phase : s'.phase = s.phase
  nextDiff : s'.ctx.nextDiff = s.ctx.nextDiff
  xnonce1 : s'.ctx.xnonce1 = s.ctx.xnonce1
  log : ∃ events, s'.log = events ++ s.log ∧ ∀ e ∈ events, e.Neutral

/-- Everything that a message can do to the context, the phase and the log. -/
inductive Conn.Effect (env : HandlerEnv) (s s' : Conn) : Prop
  | quiet (h : s.Quiet s')
  | difficulty (diff : ℚ) (hphase : s'.phase = s.phase) (hdiff : s'.ctx.nextDiff = diff)
      (hxnonce1 : s'.ctx.xnonce1 = s.ctx.xnonce1) (hlog : s'.log = .difficulty diff :: s.log)
  | extranonce (hphase : s'.phase = s.phase) (hdiff : s'.ctx.nextDiff = s.ctx.nextDiff)
      (hlog : s'.log = .extranonce s'.ctx.xnonce1 :: s.log)
  | published (work : Work) (clean : Bool) (hphase : s'.phase = s.phase)
      (hdiff : s'.ctx.nextDiff = s.ctx.nextDiff) (hxnonce1 : s'.ctx.xnonce1 = s.ctx.xnonce1)
      (htarget : work.targetdiff = s.ctx.nextDiff) (hbuilt : BuiltWith env s.ctx.xnonce1 s'.ctx work)
      (hlog : s'.log = .published s'.ctx work clean :: s.log)
  | redirected (url : String) (hphase : s'.phase = .leaving) (hdiff : s'.ctx.nextDiff = 1)
      (hxnonce1 : s'.ctx.xnonce1 = s.ctx.xnonce1)
      (hlog : s'.log = .closed :: .redirected url :: s.log)

namespace Conn

variable {env : HandlerEnv} {s s' : Conn}

theorem Quiet.refl (s : Conn) : s.Quiet s := ⟨rfl, rfl, rfl, [], rfl, by simp⟩

theorem Quiet.trans {t : Conn} (h : s.Quiet s') (h' : s'.Quiet t) : s.Quiet t := by
  obtain ⟨events, hlog, hneutral⟩ := h.log
  obtain ⟨events', hlog', hneutral'⟩ := h'.log
  refine ⟨h'.phase.trans h.phase, h'.nextDiff.trans h.nextDiff, h'.xnonce1.trans h.xnonce1,
    events' ++ events, ?_, ?_⟩
  · rw [hlog', hlog, List.append_assoc]
  · intro e he
    exact (List.mem_append.mp he).elim (hneutral' e) (hneutral e)

theorem quiet_record (s : Conn) {e : ConnEvent} (h : e.Neutral) : s.Quiet (s.record e) :=
  ⟨rfl, rfl, rfl, [e], rfl, by simpa using h⟩

theorem Effect.refl (env : HandlerEnv) (s : Conn) : Effect env s s := .quiet (.refl s)

theorem verusWork_xnonce1 {built : SessionCtx} {isVerus : Bool}
    (h : verusValidateNonceLayout built = true) :
    (buildVerusWork built isVerus).data.bytes 108 built.xnonce1.length = built.xnonce1 := by
  have hlen : built.xnonce1.length ≤ 12 := by
    simp only [verusValidateNonceLayout, Bool.and_eq_true, decide_eq_true_eq] at h
    exact h.2
  apply List.ext_getElem
  · rw [Buffer.bytes_length]
  · intro i hi hi'
    rw [Buffer.bytes_length] at hi
    simp only [Buffer.bytes, List.getElem_map, List.getElem_range, buildVerusWork]
    rw [byte_setWord_of_ne (by omega), Buffer.byte_memcpy_of_mem (by omega) (by omega) (by omega),
      Buffer.source, List.getD_eq_getElem?_getD, Nat.add_sub_cancel_left, List.getElem?_eq_getElem hi',
      Option.getD_some]

/-- The work of an accepted notify is built with the difficulty and the extranonce of the context. -/
theorem handleNotify_published {ctx : SessionCtx} {line : Line} {work : Work} {clean : Bool}
    (halgo : env.algo ≠ .randomx) (h : handleNotify env s line = (ctx, some (work, clean))) :
    ctx.nextDiff = s.ctx.nextDiff ∧ ctx.xnonce1 = s.ctx.xnonce1 ∧
      work.targetdiff = s.ctx.nextDiff ∧ BuiltWith env s.ctx.xnonce1 ctx work := by
  rw [handleNotify, if_neg halgo] at h
  split at h
  · obtain ⟨msg, solution, delta, -, -, -, happly, rfl, -⟩ := verusStratumNotify_accepted h
    obtain ⟨hlayout, _, _, _, _, _, _, _, _, _, _, _, _, _, rfl⟩ := applyVerusJobLocked_eq happly
    exact ⟨rfl, rfl, rfl, Or.inr ⟨rfl, verusWork_xnonce1 hlayout⟩⟩
  · obtain ⟨msg, merkle, delta, -, -, -, happly, rfl, -⟩ := stratumNotifyStandard_accepted _ _ h
    obtain ⟨coinb1, coinb2, _, _, _, _, _, _, _, _, _, _, rfl⟩ := applyStandardJobLocked_eq happly
    exact ⟨rfl, rfl, rfl, Or.inl ⟨coinb1, coinb2, rfl, rfl⟩⟩

theorem handleNotify_refused {ctx : SessionCtx} {line : Line} (halgo : env.algo ≠ .randomx)
    (h : handleNotify env s line = (ctx, none)) :
    ∃ delta, ctx = { s.ctx with srvtimeDiff := delta } := by
  rw [handleNotify, if_neg halgo] at h
  split at h
  · exact verusStratumNotify_refused h
  · exact stratumNotifyStandard_refused _ _ h

theorem notify_effect (s : Conn) (line : Line) (halgo : env.algo ≠ .randomx) :
    Effect env s (stratumHandleNotifyMethod env s line).1 := by
  unfold stratumHandleNotifyMethod
  split
  case h_1 ctx h =>
    obtain ⟨delta, rfl⟩ := handleNotify_refused halgo h
    exact .quiet ⟨rfl, rfl, rfl, [], rfl, by simp⟩
  case h_2 ctx work clean h =>
    obtain ⟨hdiff, hxnonce1, htarget, hbuilt⟩ := handleNotify_published halgo h
    exact .published work clean rfl hdiff hxnonce1 htarget hbuilt rfl

theorem sendReply_quiet (s : Conn) (line : Line) (result error : Json) :
    s.Quiet (s.sendReply line result error).1 := by
  unfold sendReply
  split
  · exact .refl s
  · exact .refl s
  · split
    · exact quiet_record s (by trivial)
    · exact .refl s

theorem annotateHeight_quiet (s : Conn) (height : BitVec 32) : s.Quiet (s.annotateHeight height) := by
  have hheight : s.Quiet { s with ctx := { s.ctx with job := { s.ctx.job with height := height } } } :=
    ⟨rfl, rfl, rfl, [], rfl, by simp⟩
  unfold annotateHeight
  dsimp only
  split
  · exact hheight
  · exact hheight.trans (quiet_record _ (by trivial))

theorem setDifficulty_effect (s : Conn) (line : Line) :
    Effect env s (stratumHandleSetDifficultyMethod s line).1 := by
  unfold stratumHandleSetDifficultyMethod
  split
  · exact .refl env s
  · exact .difficulty _ rfl rfl rfl rfl

theorem setTarget_effect (s : Conn) (line : Line) :
    Effect env s (stratumHandleSetTargetMethod env s line).1 := by
  unfold stratumHandleSetTargetMethod
  split
  · exact .refl env s
  · split
    · exact .refl env s
    · exact .difficulty _ rfl rfl rfl rfl

theorem setExtranonce_effect (s : Conn) (line : Line) :
    Effect env s (stratumHandleSetExtranonceMethod env s line).1 := by
  unfold stratumHandleSetExtranonceMethod
  split
  · exact .refl env s
  case h_2 ctx h =>
    obtain ⟨xnonce1, size, rfl⟩ := stratumParseExtranonce_frame h
    exact .extranonce rfl rfl rfl

theorem reconnect_effect (s : Conn) (line : Line) :
    Effect env s (stratumHandleReconnectMethod s line).1 := by
  unfold stratumHandleReconnectMethod
  split
  · exact .refl env s
  · exact .redirected _ rfl rfl rfl rfl

theorem showMessage_quiet (s : Conn) (line : Line) :
    s.Quiet (stratumHandleShowMessageMethod s line).1 := by
  have hheight : s.Quiet (s.noteHeight line) := by
    unfold noteHeight
    split
    · exact .refl s
    · exact annotateHeight_quiet s _
  unfold stratumHandleShowMessageMethod
  dsimp only
  split
  · exact hheight
  · exact hheight.trans (sendReply_quiet _ line _ _)

theorem dispatch_effect (s : Conn) (line : Line) (halgo : env.algo ≠ .randomx) :
    Effect env s (s.stratumDispatchJsonMessage env line).1 := by
  unfold stratumDispatchJsonMessage
  split
  · split
    case h_1 handler _ =>
      cases handler with
      | notify => exact notify_effect s line halgo
      | ping => exact .quiet (sendReply_quiet s line _ _)
      | setDifficulty => exact setDifficulty_effect s line
      | setTarget => exact setTarget_effect s line
      | setExtranonce => exact setExtranonce_effect s line
      | reconnect => exact reconnect_effect s line
      | getAlgo => exact .quiet (sendReply_quiet s line _ _)
      | getVersion => exact .quiet (sendReply_quiet s line _ _)
      | showMessage => exact .quiet (showMessage_quiet s line)
    case h_2 =>
      unfold unknownMethod
      split
      · exact .refl env s
      · exact .quiet (sendReply_quiet s line _ _)
  · exact .refl env s

/-! ## The log tells the state -/

theorem EventOk.of_neutral {e : ConnEvent} (h : e.Neutral) (log : List ConnEvent) :
    EventOk env (e :: log) := by
  cases e <;> trivial

theorem Quiet.consistent (h : s.Quiet s') (hs : s.Consistent env) : s'.Consistent env := by
  obtain ⟨events, hlog, hneutral⟩ := h.log
  have hdiff : lastOf nextDiff? s'.log = lastOf nextDiff? s.log := by
    rw [hlog, lastOf_append_of_none s.log fun e he => (hneutral e he).stores_nothing.1]
  have hxnonce1 : lastOf xnonce1? s'.log = lastOf xnonce1? s.log := by
    rw [hlog, lastOf_append_of_none s.log fun e he => (hneutral e he).stores_nothing.2]
  refine ⟨?_, ?_, ?_, ?_⟩
  · rw [h.nextDiff, hs.nextDiff, hdiff]
  · rw [h.xnonce1, hs.xnonce1, hxnonce1]
  · rw [hlog]
    exact hs.history.append fun e he log _ => EventOk.of_neutral (hneutral e he) log
  · rw [h.phase, hdiff]
    exact hs.closed

theorem Effect.consistent (h : Effect env s s') (hs : s.Consistent env) (hopen : s.phase ≠ .closed) :
    s'.Consistent env := by
  cases h with
  | quiet h => exact h.consistent hs
  | difficulty diff hphase hdiff hxnonce1 hlog =>
    refine ⟨?_, ?_, ?_, ?_⟩
    · rw [hdiff, hlog]
      rfl
    · rw [hxnonce1, hs.xnonce1, hlog]
      rfl
    · rw [hlog]
      exact always_cons trivial hs.history
    · rw [hphase]
      exact fun hclosed => absurd hclosed hopen
  | extranonce hphase hdiff hlog =>
    refine ⟨?_, ?_, ?_, ?_⟩
    · rw [hdiff, hs.nextDiff, hlog]
      rfl
    · rw [hlog]
      rfl
    · rw [hlog]
      exact always_cons trivial hs.history
    · rw [hphase]
      exact fun hclosed => absurd hclosed hopen
  | published work clean hphase hdiff hxnonce1 htarget hbuilt hlog =>
    refine ⟨?_, ?_, ?_, ?_⟩
    · rw [hdiff, hs.nextDiff, hlog]
      rfl
    · rw [hxnonce1, hs.xnonce1, hlog]
      rfl
    · rw [hlog]
      rw [← hxnonce1] at hbuilt
      exact always_cons ⟨htarget.trans hs.nextDiff, hxnonce1.trans hs.xnonce1, hbuilt⟩ hs.history
    · rw [hphase]
      exact fun hclosed => absurd hclosed hopen
  | redirected url hphase hdiff hxnonce1 hlog =>
    refine ⟨?_, ?_, ?_, ?_⟩
    · rw [hdiff, hlog]
      rfl
    · rw [hxnonce1, hs.xnonce1, hlog]
      rfl
    · rw [hlog]
      exact always_cons trivial (always_cons trivial hs.history)
    · rw [hphase]
      exact fun hclosed => absurd hclosed (by simp)

theorem stratumDisconnect_consistent (hs : s.Consistent env) : s.stratumDisconnect.Consistent env :=
  ⟨rfl, hs.xnonce1, always_cons trivial hs.history, fun _ => rfl⟩

theorem goto_consistent {phase : ConnPhase} (hs : s.Consistent env) (hphase : phase ≠ .closed) :
    (s.goto phase).Consistent env :=
  ⟨hs.nextDiff, hs.xnonce1, hs.history, fun hclosed => absurd hclosed hphase⟩

theorem requestFailed_consistent (request : Request) (hs : s.Consistent env) :
    (s.requestFailed request).Consistent env := by
  cases request with
  | subscribe attempt => exact stratumDisconnect_consistent hs
  | authorize => exact stratumDisconnect_consistent hs
  | extranonceSubscribe => exact goto_consistent hs (by simp)
  | login => exact stratumDisconnect_consistent hs

/-- The subscribe reply stores the extranonce and sets the difficulty back to 1. -/
theorem subscribed_consistent {reply : Json} {t : Conn} {phase : ConnPhase} (hs : s.Consistent env)
    (happly : s.stratumApplySubscribeReply env reply = some t) (hphase : phase ≠ .closed) :
    (t.goto phase).Consistent env := by
  rw [stratumApplySubscribeReply, Option.map_eq_some_iff] at happly
  obtain ⟨ctx, -, rfl⟩ := happly
  exact ⟨rfl, rfl, always_cons trivial hs.history, fun hclosed => absurd hclosed hphase⟩

theorem requestAnswered_consistent (reply : Json) (request : Request) (hs : s.Consistent env) :
    (s.requestAnswered env reply request).Consistent env := by
  cases request with
  | subscribe attempt =>
    rw [requestAnswered]
    split
    · split
      · exact goto_consistent hs (by simp)
      · exact requestFailed_consistent _ hs
    · split
      · exact requestFailed_consistent _ hs
      case h_2 t happly => exact subscribed_consistent hs happly (by simp)
  | authorize =>
    rw [requestAnswered]
    split
    · exact requestFailed_consistent _ hs
    · exact goto_consistent hs (by simp)
  | extranonceSubscribe => exact goto_consistent hs (by simp)
  | login => exact hs

theorem receive_consistent {r : Received} (halgo : env.algo ≠ .randomx) (hs : s.Consistent env)
    (h : s.receive env r = some s') : s'.Consistent env := by
  unfold receive at h
  split at h
  case h_1 request hphase =>
    have hopen : s.phase ≠ .closed := by simp [hphase]
    cases r with
    | line line =>
      cases hid : stratumReplyMatchesId line.val request.id with
      | true =>
        simp only [waitIteration, hid, if_true, Option.some.injEq] at h
        rw [← h]
        exact requestAnswered_consistent _ request hs
      | false =>
        simp only [waitIteration, hid, Bool.false_eq_true, if_false, Option.some.injEq] at h
        rw [← h]
        exact (dispatch_effect s line halgo).consistent hs hopen
    | invalid =>
      rw [← Option.some.inj h]
      exact requestFailed_consistent request hs
    | timedOut =>
      rw [← Option.some.inj h]
      exact requestFailed_consistent request hs
    | failed =>
      rw [← Option.some.inj h]
      exact requestFailed_consistent request hs
  case h_2 hphase =>
    have hopen : s.phase ≠ .closed := by simp [hphase]
    cases r with
    | line line =>
      have hdispatch := (dispatch_effect s line halgo).consistent hs hopen
      dsimp only at h
      generalize s.stratumDispatchJsonMessage env line = result at h hdispatch
      rw [← Option.some.inj h]
      split
      · exact goto_consistent hdispatch (by simp)
      · exact hdispatch
    | invalid =>
      rw [← Option.some.inj h]
      exact goto_consistent hs (by simp)
    | timedOut => rwa [← Option.some.inj h]
    | failed =>
      rw [← Option.some.inj h]
      exact goto_consistent hs (by simp)
  case h_3 => exact absurd h (by simp)

theorem step_consistent {act : ConnAct} (halgo : env.algo ≠ .randomx) (hs : s.Consistent env)
    (h : s.step env act = some s') : s'.Consistent env := by
  cases act with
  | connect net =>
    rw [step, Option.ite_none_right_eq_some] at h
    obtain ⟨hclosed, h⟩ := h
    rw [← Option.some.inj h]
    exact ⟨hs.nextDiff, hs.xnonce1, always_cons (hs.closed hclosed) hs.history, fun hphase =>
      absurd hphase (by simp)⟩
  | receive r => exact receive_consistent halgo hs h
  | leave =>
    rw [step, Option.ite_none_right_eq_some] at h
    rw [← Option.some.inj h.2]
    exact goto_consistent hs (by simp)
  | disconnect =>
    rw [step, Option.ite_none_right_eq_some] at h
    rw [← Option.some.inj h.2]
    exact stratumDisconnect_consistent hs

theorem start_consistent (env : HandlerEnv) (algo : Algo) (pooln : Nat) (net : StratumCtx) :
    (stratumInitContext algo pooln net).Consistent env :=
  ⟨rfl, rfl, always_nil trivial, fun _ => rfl⟩

theorem run_consistent {algo : Algo} {pooln : Nat} {net : StratumCtx} {acts : List ConnAct}
    (halgo : env.algo ≠ .randomx)
    (hrun : exec (step env) (stratumInitContext algo pooln net) acts = some s) : s.Consistent env :=
  exec_invariant (fun _ _ _ hs h => step_consistent halgo hs h) (start_consistent env algo pooln net) hrun

end Conn

end PrimoMiner
