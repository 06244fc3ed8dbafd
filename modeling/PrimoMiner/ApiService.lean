import PrimoMiner.Library.RankedRuns

/-!
# Starting and stopping the API thread

`api_start_service`, `api_stop_service` and `api_thread_main` of `api.cpp`.  The main thread starts and
stops the service any number of times; the flags are read and written in sections under
`g_api_service_lock`, each a step of its own.  `pthread_join` waits for the end of the thread, and the
starter waits on `g_api_service_cond` until it reads `g_api_startup_complete`.
-/

namespace PrimoMiner

open Runs

/-! ## The system -/

/-- The flags under `g_api_service_lock`. -/
structure ServiceFlags where
  active : Bool := false
  joinPending : Bool := false
  shutdownRequested : Bool := false
  startupComplete : Bool := false
  startupSucceeded : Bool := false
  deriving DecidableEq, Repr

/-- The thread that was created last. -/
inductive ApiThreadPc where
  -- none, or it has been joined
  | absent
  -- in `api_open_listen_socket`
  | opening
  -- at the condition of its loop, in `poll`, and at `accept` in the loop over the waiting clients
  | listening | polling | accepting
  -- the loop is left
  | closing
  -- `api_thread_main` has returned; `announced` says whether it had a socket
  | ended (announced : Bool)
  deriving DecidableEq, Repr

namespace ApiThreadPc

def alive : ApiThreadPc → Bool
  | .opening | .listening | .polling | .accepting | .closing => true
  | _ => false

end ApiThreadPc

/-- Where the main thread stands. -/
inductive StarterPc where
  | idle
  -- `api_start_service`: the join of a thread that ended by itself, the creation, the wait, and the join
  -- and the last section after a failed startup
  | reap | creating | waiting | failedJoin | failedClear
  -- `api_stop_service`: the join and the last section
  | stopJoin | stopClear
  deriving DecidableEq, Repr

structure ApiService where
  flags : ServiceFlags := {}
  thread : ApiThreadPc := .absent
  main : StarterPc := .idle
  abortFlag : Bool := false
  -- the threads created and joined so far
  created : Nat := 0
  joined : Nat := 0
  deriving DecidableEq, Repr

/-- What `poll` says of the socket. -/
inductive Polled where
  | failed | interrupted | timeout | ready
  deriving DecidableEq, Repr

/-- The end of an `accept`: a client, which is served, a signal, or no client, because none waits or the
socket fails. -/
inductive Accepted where
  | client | interrupted | none
  deriving DecidableEq, Repr

inductive ServiceAct where
  | start
  | stop
  | join
  | create (ok : Bool)
  | wake
  | clear
  -- the thread's socket is open, or could not be opened
  | announce (ok : Bool)
  -- a turn of the loop begins, or the loop ends
  | turn
  | leave
  | poll (result : Polled)
  | accept (result : Accepted)
  | close
  | requestAbort
  deriving DecidableEq, Repr

namespace ApiService

/-- The first section of `api_start_service`. -/
def start (s : ApiService) : ApiService :=
  if s.flags.active then s
  else if s.flags.joinPending then { s with main := .reap }
  else { s with main := .creating }

def stop (s : ApiService) : ApiService :=
  if s.flags.joinPending then
    { s with flags := { s.flags with shutdownRequested := true }, main := .stopJoin }
  else s

/-- The second section of `api_start_service`; `ok` is the outcome of `pthread_create`. -/
def create (s : ApiService) (ok : Bool) : ApiService :=
  if ok then
    { s with
      flags := { active := true, joinPending := true }
      thread := .opening
      main := .waiting
      created := s.created + 1 }
  else { s with flags := { active := s.flags.active }, main := .idle }

def afterJoin : StarterPc → Option StarterPc
  | .reap => some .creating
  | .failedJoin => some .failedClear
  | .stopJoin => some .stopClear
  | _ => none

def ended : ApiThreadPc → Bool
  | .ended _ => true
  | _ => false

def step (s : ApiService) : ServiceAct → Option ApiService
  | .start => if s.main = .idle then some s.start else none
  | .stop => if s.main = .idle then some s.stop else none
  | .join =>
    match afterJoin s.main with
    | some pc =>
      if ended s.thread then some { s with thread := .absent, main := pc, joined := s.joined + 1 }
      else none
    | none => none
  | .create ok => if s.main = .creating then some (s.create ok) else none
  | .wake =>
    if s.main = .waiting then
      if s.flags.startupComplete then
        some { s with main := if s.flags.startupSucceeded then .idle else .failedJoin }
      else none
    else none
  | .clear =>
    match s.main with
    | .failedClear =>
      some { s with flags := { s.flags with joinPending := false, active := false }, main := .idle }
    | .stopClear =>
      some { s with
        flags := { s.flags with joinPending := false, active := false, shutdownRequested := false }
        main := .idle }
    | _ => none
  | .announce ok =>
    if s.thread = .opening then
      if ok then
        some { s with
          flags := { s.flags with startupComplete := true, startupSucceeded := true }
          thread := .listening }
      else
        some { s with
          flags := { s.flags with
            active := false
            shutdownRequested := false
            startupComplete := true
            startupSucceeded := false }
          thread := .ended false }
    else none
  | .turn =>
    if s.thread = .listening ∧ (s.abortFlag || s.flags.shutdownRequested) = false then
      some { s with thread := .polling }
    else none
  | .leave =>
    if s.thread = .listening ∧ (s.abortFlag || s.flags.shutdownRequested) = true then
      some { s with thread := .closing }
    else none
  | .poll result =>
    if s.thread = .polling then
      some { s with
        thread :=
          match result with
          | .failed => .closing
          | .interrupted | .timeout => .listening
          | .ready => .accepting }
    else none
  | .accept result =>
    -- neither flag is looked at between two clients
    if s.thread = .accepting then
      some { s with thread := if result = .none then .listening else .accepting }
    else none
  | .close =>
    if s.thread = .closing then
      some { s with
        flags := { s.flags with
          active := false
          shutdownRequested := false
          startupComplete := false
          startupSucceeded := false }
        thread := .ended true }
    else none
  | .requestAbort => some { s with abortFlag := true }

/-! ## What a step does -/

/-- The steps by their outcomes. -/
inductive Trans (s : ApiService) : ServiceAct → ApiService → Prop
  -- a call with nothing to do returns at once
  | startActive (hmain : s.main = .idle) (hactive : s.flags.active = true) : Trans s .start s
  | startReap (hmain : s.main = .idle) (hdead : s.flags.active = false)
      (hpending : s.flags.joinPending = true) :
      Trans s .start { s with main := .reap }
  | startCreate (hmain : s.main = .idle) (hdead : s.flags.active = false)
      (hnone : s.flags.joinPending = false) :
      Trans s .start { s with main := .creating }
  | stop (hmain : s.main = .idle) (hpending : s.flags.joinPending = true) :
      Trans s .stop { s with flags := { s.flags with shutdownRequested := true }, main := .stopJoin }
  | stopNone (hmain : s.main = .idle) (hnone : s.flags.joinPending = false) : Trans s .stop s
  | join {pc : StarterPc} (hafter : afterJoin s.main = some pc) (hended : ended s.thread = true) :
      Trans s .join { s with thread := .absent, main := pc, joined := s.joined + 1 }
  | create {ok : Bool} (hmain : s.main = .creating) : Trans s (.create ok) (s.create ok)
  | wake (hmain : s.main = .waiting) (hcomplete : s.flags.startupComplete = true) :
      Trans s .wake { s with main := if s.flags.startupSucceeded then .idle else .failedJoin }
  | failedClear (hmain : s.main = .failedClear) :
      Trans s .clear { s with flags := { s.flags with joinPending := false, active := false }, main := .idle }
  | stopClear (hmain : s.main = .stopClear) :
      Trans s .clear
        { s with
          flags := { s.flags with joinPending := false, active := false, shutdownRequested := false }
          main := .idle }
  | announced (hthread : s.thread = .opening) :
      Trans s (.announce true)
        { s with
          flags := { s.flags with startupComplete := true, startupSucceeded := true }
          thread := .listening }
  | openFails (hthread : s.thread = .opening) :
      Trans s (.announce false)
        { s with
          flags := { s.flags with
            active := false
            shutdownRequested := false
            startupComplete := true
            startupSucceeded := false }
          thread := .ended false }
  | turn (hthread : s.thread = .listening) (hnot : (s.abortFlag || s.flags.shutdownRequested) = false) :
      Trans s .turn { s with thread := .polling }
  | leave (hthread : s.thread = .listening) (htold : (s.abortFlag || s.flags.shutdownRequested) = true) :
      Trans s .leave { s with thread := .closing }
  | pollFails (hthread : s.thread = .polling) : Trans s (.poll .failed) { s with thread := .closing }
  | pollAgain {result : Polled} (hthread : s.thread = .polling)
      (hagain : result = .interrupted ∨ result = .timeout) :
      Trans s (.poll result) { s with thread := .listening }
  | pollReady (hthread : s.thread = .polling) : Trans s (.poll .ready) { s with thread := .accepting }
  | noClient (hthread : s.thread = .accepting) : Trans s (.accept .none) { s with thread := .listening }
  | acceptAgain {result : Accepted} (hthread : s.thread = .accepting) (hagain : result ≠ .none) :
      Trans s (.accept result) { s with thread := .accepting }
  | close (hthread : s.thread = .closing) :
      Trans s .close
        { s with
          flags := { s.flags with
            active := false
            shutdownRequested := false
            startupComplete := false
            startupSucceeded := false }
          thread := .ended true }
  | requestAbort : Trans s .requestAbort { s with abortFlag := true }

theorem step_trans {s s' : ApiService} {a : ServiceAct} (hstep : s.step a = some s') : Trans s a s' := by
  cases a <;> simp only [step] at hstep
  case start =>
    split at hstep
    next hmain =>
      obtain rfl := Option.some.inj hstep
      unfold start
      split
      next hactive => exact .startActive hmain hactive
      next hdead =>
        split
        next hpending => exact .startReap hmain (Bool.eq_false_iff.mpr hdead) hpending
        next hnone => exact .startCreate hmain (Bool.eq_false_iff.mpr hdead) (Bool.eq_false_iff.mpr hnone)
    next => cases hstep
  case stop =>
    split at hstep
    next hmain =>
      obtain rfl := Option.some.inj hstep
      unfold stop
      split
      next hpending => exact .stop hmain hpending
      next hnone => exact .stopNone hmain (Bool.eq_false_iff.mpr hnone)
    next => cases hstep
  case join =>
    split at hstep
    next pc hafter =>
      split at hstep
      next hended =>
        obtain rfl := Option.some.inj hstep
        exact .join hafter hended
      next => cases hstep
    next => cases hstep
  case create ok =>
    split at hstep
    next hmain =>
      obtain rfl := Option.some.inj hstep
      exact .create hmain
    next => cases hstep
  case wake =>
    split at hstep
    next hmain =>
      split at hstep
      next hcomplete =>
        obtain rfl := Option.some.inj hstep
        exact .wake hmain hcomplete
      next => cases hstep
    next => cases hstep
  case clear =>
    split at hstep
    next hmain =>
      obtain rfl := Option.some.inj hstep
      exact .failedClear hmain
    next hmain =>
      obtain rfl := Option.some.inj hstep
      exact .stopClear hmain
    next => cases hstep
  case announce ok =>
    split at hstep
    next hthread =>
      cases ok <;> obtain rfl := Option.some.inj hstep
      · exact .openFails hthread
      · exact .announced hthread
    next => cases hstep
  case turn =>
    split at hstep
    next hturn =>
      obtain rfl := Option.some.inj hstep
      exact .turn hturn.1 hturn.2
    next => cases hstep
  case leave =>
    split at hstep
    next hleaves =>
      obtain rfl := Option.some.inj hstep
      exact .leave hleaves.1 hleaves.2
    next => cases hstep
  case poll result =>
    split at hstep
    next hthread =>
      cases result <;> obtain rfl := Option.some.inj hstep
      · exact .pollFails hthread
      · exact .pollAgain hthread (Or.inl rfl)
      · exact .pollAgain hthread (Or.inr rfl)
      · exact .pollReady hthread
    next => cases hstep
  case accept result =>
    split at hstep
    next hthread =>
      obtain rfl := Option.some.inj hstep
      split
      next hnone =>
        subst hnone
        exact .noClient hthread
      next hagain => exact .acceptAgain hthread hagain
    next => cases hstep
  case close =>
    split at hstep
    next hthread =>
      obtain rfl := Option.some.inj hstep
      exact .close hthread
    next => cases hstep
  case requestAbort =>
    obtain rfl := Option.some.inj hstep
    exact .requestAbort

end ApiService

/-! ## The invariant -/

/-- What the thread has written into the flags of the startup. -/
def StartupOk (flags : ServiceFlags) : ApiThreadPc → Prop
  | .absent => True
  | .opening => flags.startupComplete = false
  | .listening | .polling | .accepting | .closing =>
    flags.startupComplete = true ∧ flags.startupSucceeded = true
  -- a thread that had a socket takes its announcement back when it ends
  | .ended announced => flags.startupComplete = !announced ∧ flags.startupSucceeded = false

/-- What the main thread relies on at each of its places. -/
def StarterOk (flags : ServiceFlags) (thread : ApiThreadPc) : StarterPc → Prop
  | .idle => flags.joinPending = true ↔ thread ≠ .absent
  | .reap | .failedJoin => ApiService.ended thread = true
  | .creating | .failedClear | .stopClear => thread = .absent
  | .waiting => flags.joinPending = true ∧ thread ≠ .absent
  | .stopJoin => thread ≠ .absent ∧ (thread.alive = true → flags.shutdownRequested = true)

structure ServiceInv (s : ApiService) : Prop where
  alive : s.flags.active = s.thread.alive
  counts : s.created = s.joined + if s.thread = .absent then 0 else 1
  startup : StartupOk s.flags s.thread
  main : StarterOk s.flags s.thread s.main

section invariant
variable {s s' : ApiService}

theorem ended_ne_absent {thread : ApiThreadPc} (h : ApiService.ended thread = true) :
    thread ≠ .absent ∧ thread.alive = false := by
  cases thread with
  | ended announced => exact ⟨fun heq => ApiThreadPc.noConfusion heq, rfl⟩
  | absent | opening | listening | polling | accepting | closing => cases h

/-- A thread that is there and does not live has ended. -/
theorem ended_of_not_alive {thread : ApiThreadPc} (hthere : thread ≠ .absent) (hdead : thread.alive = false) :
    ApiService.ended thread = true := by
  cases thread with
  | absent => exact absurd rfl hthere
  | ended announced => rfl
  | opening | listening | polling | accepting | closing => cases hdead

/-- Between the calls `joinPending` says whether the thread is there. -/
theorem ServiceInv.idle (h : ServiceInv s) (hmain : s.main = .idle) :
    s.flags.joinPending = true ↔ s.thread ≠ .absent := by
  have hidle := h.main
  rwa [hmain] at hidle

theorem ServiceInv.absent (h : ServiceInv s) (hmain : s.main = .idle) (hnone : s.flags.joinPending = false) :
    s.thread = .absent := by
  by_contra hthere
  exact Bool.noConfusion (hnone.symm.trans ((h.idle hmain).mpr hthere))

theorem ServiceInv.stop (h : ServiceInv s) (hthere : s.thread ≠ .absent) :
    ServiceInv { s with flags := { s.flags with shutdownRequested := true }, main := .stopJoin } := by
  refine ⟨h.alive, h.counts, ?_, ?_⟩
  · have hstartup := h.startup
    show StartupOk { s.flags with shutdownRequested := true } s.thread
    cases hthread : s.thread <;> rw [hthread] at hstartup <;> exact hstartup
  · exact And.intro hthere fun _ => rfl

theorem ServiceInv.join (h : ServiceInv s) {pc : StarterPc} (hpc : ApiService.afterJoin s.main = some pc)
    (hended : ApiService.ended s.thread = true) :
    ServiceInv { s with thread := .absent, main := pc, joined := s.joined + 1 } := by
  obtain ⟨hthere, hdead⟩ := ended_ne_absent hended
  refine ⟨?_, ?_, trivial, ?_⟩
  · show s.flags.active = false
    rw [h.alive, hdead]
  · show s.created = s.joined + 1 + 0
    rw [h.counts, if_neg hthere]
  · cases hmain : s.main <;> rw [hmain] at hpc <;> cases hpc <;> rfl

theorem ServiceInv.create (h : ServiceInv s) (hmain : s.main = .creating) (ok : Bool) :
    ServiceInv (s.create ok) := by
  have habsent : s.thread = .absent := by
    have hcreating := h.main
    rw [hmain] at hcreating
    exact hcreating
  have hcounts := h.counts
  rw [if_pos habsent] at hcounts
  cases ok with
  | true =>
    refine ⟨rfl, ?_, rfl, ?_⟩
    · show s.created + 1 = s.joined + 1
      rw [hcounts]
    · exact And.intro rfl fun hthread => ApiThreadPc.noConfusion hthread
  | false =>
    refine ⟨h.alive, h.counts, ?_, ?_⟩
    · show StartupOk _ s.thread
      rw [habsent]
      trivial
    · show false = true ↔ s.thread ≠ .absent
      simp [habsent]

theorem ServiceInv.wake (h : ServiceInv s) (hmain : s.main = .waiting)
    (hcomplete : s.flags.startupComplete = true) :
    ServiceInv { s with main := if s.flags.startupSucceeded then .idle else .failedJoin } := by
  have hwaiting := h.main
  have hstartup := h.startup
  rw [hmain] at hwaiting
  refine ⟨h.alive, h.counts, hstartup, ?_⟩
  show StarterOk s.flags s.thread (if s.flags.startupSucceeded then .idle else .failedJoin)
  by_cases hsucceeded : s.flags.startupSucceeded = true
  · rw [if_pos hsucceeded]
    exact ⟨fun _ => hwaiting.2, fun _ => hwaiting.1⟩
  · rw [if_neg hsucceeded]
    show ApiService.ended s.thread = true
    cases hthread : s.thread <;> rw [hthread] at hstartup
    case absent => exact absurd hthread hwaiting.2
    case opening => exact absurd (hstartup.symm.trans hcomplete) Bool.false_ne_true
    case ended => rfl
    all_goals exact absurd hstartup.2 hsucceeded

theorem ServiceInv.clear (h : ServiceInv s) (habsent : s.thread = .absent) {flags : ServiceFlags}
    (hactive : flags.active = false) (hpending : flags.joinPending = false) :
    ServiceInv { s with flags := flags, main := .idle } := by
  refine ⟨?_, h.counts, ?_, ?_⟩
  · show flags.active = s.thread.alive
    rw [hactive, habsent]
    rfl
  · show StartupOk flags s.thread
    rw [habsent]
    trivial
  · show flags.joinPending = true ↔ s.thread ≠ .absent
    simp [hpending, habsent]

/-- The thread moves on.  What the main thread relies on is that it is there, and that it was told to end
if it still lives. -/
theorem ServiceInv.thread (h : ServiceInv s) {flags : ServiceFlags} {thread : ApiThreadPc}
    (hlive : s.thread.alive = true) (hthere : thread ≠ .absent) (hactive : flags.active = thread.alive)
    (hpending : flags.joinPending = s.flags.joinPending)
    (hshutdown : thread.alive = true → flags.shutdownRequested = s.flags.shutdownRequested)
    (hstartup : StartupOk flags thread) :
    ServiceInv { s with flags := flags, thread := thread } := by
  have hwas : s.thread ≠ .absent := by
    intro habsent
    rw [habsent] at hlive
    cases hlive
  have hmain := h.main
  refine ⟨hactive, ?_, hstartup, ?_⟩
  · show s.created = s.joined + if thread = .absent then 0 else 1
    rw [h.counts, if_neg hwas, if_neg hthere]
  · show StarterOk flags thread s.main
    cases hpc : s.main <;> rw [hpc] at hmain
    case idle =>
      show flags.joinPending = true ↔ thread ≠ .absent
      rw [hpending]
      exact ⟨fun _ => hthere, fun _ => hmain.mpr hwas⟩
    case reap => exact absurd (hlive.symm.trans (ended_ne_absent hmain).2) (by decide)
    case failedJoin => exact absurd (hlive.symm.trans (ended_ne_absent hmain).2) (by decide)
    case creating => exact absurd hmain hwas
    case failedClear => exact absurd hmain hwas
    case stopClear => exact absurd hmain hwas
    case waiting => exact ⟨hpending.trans hmain.1, hthere⟩
    case stopJoin =>
      refine ⟨hthere, fun hstill => ?_⟩
      rw [hshutdown hstill]
      exact hmain.2 hlive

/-- The thread goes on in its loop, or leaves it. -/
theorem ServiceInv.loop (h : ServiceInv s) {thread : ApiThreadPc}
    (hwas : s.thread = .listening ∨ s.thread = .polling ∨ s.thread = .accepting)
    (hnow : thread = .listening ∨ thread = .polling ∨ thread = .accepting ∨ thread = .closing) :
    ServiceInv { s with thread := thread } := by
  have hlive : s.thread.alive = true := by rcases hwas with hpc | hpc | hpc <;> rw [hpc] <;> rfl
  have hstartup : s.flags.startupComplete = true ∧ s.flags.startupSucceeded = true := by
    have hstartup := h.startup
    rcases hwas with hpc | hpc | hpc <;> rw [hpc] at hstartup <;> exact hstartup
  have hstill : thread.alive = true ∧ thread ≠ .absent ∧ StartupOk s.flags thread := by
    rcases hnow with rfl | rfl | rfl | rfl <;>
      exact ⟨rfl, fun heq => ApiThreadPc.noConfusion heq, hstartup⟩
  exact h.thread hlive hstill.2.1 (h.alive.trans (hlive.trans hstill.1.symm)) rfl (fun _ => rfl) hstill.2.2

theorem ServiceInv.requestAbort (h : ServiceInv s) : ServiceInv { s with abortFlag := true } :=
  ⟨h.alive, h.counts, h.startup, h.main⟩

theorem ServiceInv.step (h : ServiceInv s) {a : ServiceAct} (hstep : s.step a = some s') : ServiceInv s' := by
  cases ApiService.step_trans hstep with
  | startActive | stopNone => exact h
  | startReap hmain hdead hpending =>
    have hended := ended_of_not_alive ((h.idle hmain).mp hpending) (h.alive.symm.trans hdead)
    exact ⟨h.alive, h.counts, h.startup, hended⟩
  | startCreate hmain _ hnone => exact ⟨h.alive, h.counts, h.startup, h.absent hmain hnone⟩
  | stop hmain hpending => exact h.stop ((h.idle hmain).mp hpending)
  | join hafter hended => exact h.join hafter hended
  | create hmain => exact h.create hmain _
  | wake hmain hcomplete => exact h.wake hmain hcomplete
  | failedClear hmain | stopClear hmain =>
    have habsent := h.main
    rw [hmain] at habsent
    exact h.clear habsent rfl rfl
  | announced hthread =>
    have hlive : s.thread.alive = true := by
      rw [hthread]
      rfl
    exact h.thread hlive (fun heq => ApiThreadPc.noConfusion heq) (h.alive.trans hlive) rfl (fun _ => rfl)
      ⟨rfl, rfl⟩
  | openFails hthread | close hthread =>
    have hlive : s.thread.alive = true := by
      rw [hthread]
      rfl
    exact h.thread hlive (fun heq => ApiThreadPc.noConfusion heq) rfl rfl
      (fun hstill => Bool.noConfusion hstill) ⟨rfl, rfl⟩
  | turn hthread => exact h.loop (Or.inl hthread) (Or.inr (Or.inl rfl))
  | leave hthread => exact h.loop (Or.inl hthread) (Or.inr (Or.inr (Or.inr rfl)))
  | pollFails hthread => exact h.loop (Or.inr (Or.inl hthread)) (Or.inr (Or.inr (Or.inr rfl)))
  | pollAgain hthread => exact h.loop (Or.inr (Or.inl hthread)) (Or.inl rfl)
  | pollReady hthread => exact h.loop (Or.inr (Or.inl hthread)) (Or.inr (Or.inr (Or.inl rfl)))
  | noClient hthread => exact h.loop (Or.inr (Or.inr hthread)) (Or.inl rfl)
  | acceptAgain hthread => exact h.loop (Or.inr (Or.inr hthread)) (Or.inr (Or.inr (Or.inl rfl)))
  | requestAbort => exact h.requestAbort

/-- The main thread joins a thread that is there. -/
theorem ServiceInv.joins_there (h : ServiceInv s) (hjoins : (ApiService.afterJoin s.main).isSome = true) :
    s.thread ≠ .absent := by
  have hmain := h.main
  cases hpc : s.main <;> rw [hpc] at hmain hjoins
  case reap => exact (ended_ne_absent hmain).1
  case failedJoin => exact (ended_ne_absent hmain).1
  case stopJoin => exact hmain.1
  all_goals cases hjoins

theorem run_serviceInv {acts : List ServiceAct} (hrun : exec ApiService.step {} acts = some s) :
    ServiceInv s := by
  refine exec_invariant (fun _ _ _ h hstep => h.step hstep) ?_ hrun
  refine ⟨rfl, rfl, trivial, ?_⟩
  exact Iff.intro (fun hpending => Bool.noConfusion hpending) fun hthere => absurd rfl hthere

end invariant

/-! ## Joins -/

/-- However starts, stops and the ends of threads follow on each other, a thread that was created is
joined at most once and before the next one is created, the main thread joins only a thread that is
there, and between its calls `joinPending` says whether one is. -/
theorem api_thread_joined_once {acts : List ServiceAct} {s : ApiService}
    (hrun : exec ApiService.step {} acts = some s) :
    (s.created = s.joined ∨ s.created = s.joined + 1) ∧
    (s.main = .creating → s.created = s.joined) ∧
    ((ApiService.afterJoin s.main).isSome = true → s.created = s.joined + 1) ∧
    (s.main = .idle → (s.flags.joinPending = true ↔ s.created = s.joined + 1)) ∧
    (s.flags.active = true → s.created = s.joined + 1) := by
  have h := run_serviceInv hrun
  have hmain := h.main
  have hcounts := h.counts
  have hthere : s.thread ≠ .absent → s.created = s.joined + 1 := by
    intro hne
    rwa [if_neg hne] at hcounts
  have hgone : s.thread = .absent → s.created = s.joined := by
    intro habsent
    rwa [if_pos habsent] at hcounts
  refine ⟨?_, ?_, ?_, ?_, ?_⟩
  · by_cases habsent : s.thread = .absent
    · exact Or.inl (hgone habsent)
    · exact Or.inr (hthere habsent)
  · intro hpc
    rw [hpc] at hmain
    exact hgone hmain
  · exact fun hjoins => hthere (h.joins_there hjoins)
  · intro hpc
    rw [hpc] at hmain
    refine ⟨fun hpending => hthere (hmain.mp hpending), fun hcreated => hmain.mpr fun habsent => ?_⟩
    have hnone := hgone habsent
    omega
  · intro hactive
    refine hthere fun habsent => ?_
    rw [h.alive, habsent] at hactive
    cases hactive

/-! ## Waiting -/

/-- A step of the main thread inside of a call, or of the API thread. -/
def ServiceAct.own : ServiceAct → Bool
  | .start | .stop | .requestAbort => false
  | _ => true

/-- Neither thread can go on. -/
def ApiService.Stuck (s : ApiService) : Prop := ∀ a : ServiceAct, a.own = true → s.step a = none

/-- The loop is not left while the starter waits for the startup. -/
def ApiService.LeavesLater (s : ApiService) : ServiceAct → Prop
  | .leave | .poll .failed => s.main ≠ .waiting
  | _ => True

section waiting
variable {s s' : ApiService}

theorem not_stuck {a : ServiceAct} (ha : a.own = true) (hstep : (s.step a).isSome = true) : ¬ s.Stuck := by
  intro hstuck
  rw [hstuck a ha] at hstep
  cases hstep

theorem not_stuck_join {pc : StarterPc} (hpc : ApiService.afterJoin s.main = some pc)
    (hended : ApiService.ended s.thread = true) : ¬ s.Stuck :=
  not_stuck (a := .join) rfl (by simp [ApiService.step, hpc, hended])

theorem not_stuck_wake (hpc : s.main = .waiting) (hcomplete : s.flags.startupComplete = true) : ¬ s.Stuck :=
  not_stuck (a := .wake) rfl (by simp [ApiService.step, hpc, hcomplete])

theorem not_stuck_opening (hthread : s.thread = .opening) : ¬ s.Stuck :=
  not_stuck (a := .announce true) rfl (by simp [ApiService.step, hthread])

theorem not_stuck_closing (hthread : s.thread = .closing) : ¬ s.Stuck :=
  not_stuck (a := .close) rfl (by simp [ApiService.step, hthread])

theorem ServiceInv.stuck_iff (h : ServiceInv s) (hcall : s.main ≠ .idle) :
    s.Stuck ↔ s.main = .waiting ∧ s.thread = .ended true := by
  have hmain := h.main
  have hstartup := h.startup
  constructor
  · intro hstuck
    by_contra hno
    cases hpc : s.main <;> rw [hpc] at hmain
    case idle => exact hcall hpc
    case reap => exact not_stuck_join (by rw [hpc]; rfl) hmain hstuck
    case failedJoin => exact not_stuck_join (by rw [hpc]; rfl) hmain hstuck
    case creating => exact not_stuck (a := .create true) rfl (by simp [ApiService.step, hpc]) hstuck
    case failedClear => exact not_stuck (a := .clear) rfl (by simp [ApiService.step, hpc]) hstuck
    case stopClear => exact not_stuck (a := .clear) rfl (by simp [ApiService.step, hpc]) hstuck
    case waiting =>
      cases hthread : s.thread <;> rw [hthread] at hstartup
      case absent => exact hmain.2 hthread
      case opening => exact not_stuck_opening hthread hstuck
      case listening => exact not_stuck_wake hpc hstartup.1 hstuck
      case polling => exact not_stuck_wake hpc hstartup.1 hstuck
      case accepting => exact not_stuck_wake hpc hstartup.1 hstuck
      case closing => exact not_stuck_closing hthread hstuck
      case ended announced =>
        cases announced with
        | true => exact hno ⟨hpc, hthread⟩
        | false => exact not_stuck_wake hpc hstartup.1 hstuck
    case stopJoin =>
      cases hthread : s.thread <;> rw [hthread] at hmain
      case absent => exact hmain.1 rfl
      case opening => exact not_stuck_opening hthread hstuck
      case listening =>
        have htold : s.flags.shutdownRequested = true := hmain.2 rfl
        exact not_stuck (a := .leave) rfl (by simp [ApiService.step, hthread, htold]) hstuck
      case polling => exact not_stuck (a := .poll .timeout) rfl (by simp [ApiService.step, hthread]) hstuck
      case accepting => exact not_stuck (a := .accept .none) rfl (by simp [ApiService.step, hthread]) hstuck
      case closing => exact not_stuck_closing hthread hstuck
      case ended announced => exact not_stuck_join (by rw [hpc]; rfl) (by rw [hthread]; rfl) hstuck
  · rintro ⟨hpc, hthread⟩ a ha
    rw [hthread] at hstartup
    have hincomplete : s.flags.startupComplete = false := hstartup.1
    cases a <;> first
      | exact absurd ha (by decide)
      | simp [ApiService.step, ApiService.afterJoin, hpc, hthread, hincomplete]

/-- While the starter waits the thread is on its way to its announcement, or stands in its loop. -/
def StarterPatient (s : ApiService) : Prop :=
  s.main = .waiting → s.thread = .opening ∨ s.thread = .listening ∨ s.thread = .polling ∨
    s.thread = .accepting ∨ s.thread = .ended false

theorem StarterPatient.step (h : StarterPatient s) {a : ServiceAct} (hlater : s.LeavesLater a)
    (hstep : s.step a = some s') : StarterPatient s' := by
  intro hpc
  cases ApiService.step_trans hstep with
  | startActive | stopNone | requestAbort => exact h hpc
  | startReap | startCreate | stop | failedClear | stopClear => cases hpc
  | @join pc hafter =>
    have hwaiting : pc = .waiting := hpc
    rw [hwaiting] at hafter
    cases hmain : s.main <;> rw [hmain] at hafter <;> cases hafter
  | @create ok =>
    cases ok with
    | true => exact Or.inl rfl
    | false => cases hpc
  | wake =>
    have hwaiting : (if s.flags.startupSucceeded then StarterPc.idle else .failedJoin) = .waiting := hpc
    split at hwaiting <;> cases hwaiting
  | announced | pollAgain | noClient => exact Or.inr (Or.inl rfl)
  | openFails => exact Or.inr (Or.inr (Or.inr (Or.inr rfl)))
  | turn => exact Or.inr (Or.inr (Or.inl rfl))
  | pollReady | acceptAgain => exact Or.inr (Or.inr (Or.inr (Or.inl rfl)))
  | leave | pollFails => exact absurd hpc hlater
  | close hthread =>
    have hwhere := h hpc
    simp [hthread] at hwhere

end waiting

/-- Inside of a call the two threads can always go on, except when the API thread has announced its socket
and come to its end before the starter has looked: it takes the announcement back, and `api_start_service`
waits for ever.  This needs its loop to end, on an abort or a failing `poll`, while the starter waits. -/
theorem api_start_stuck_iff {acts : List ServiceAct} {s : ApiService}
    (hrun : exec ApiService.step {} acts = some s) (hcall : s.main ≠ .idle) :
    (s.Stuck ↔ s.main = .waiting ∧ s.thread = .ended true) ∧
    (AllSteps ApiService.step ApiService.LeavesLater {} acts → ¬ s.Stuck) := by
  have hiff := (run_serviceInv hrun).stuck_iff hcall
  refine ⟨hiff, ?_⟩
  intro hlater hstuck
  have hpatient : StarterPatient s :=
    exec_invariant_of_allSteps (fun _ _ _ h hlater hstep => h.step hlater hstep)
      (fun hpc => StarterPc.noConfusion hpc) hlater hrun
  obtain ⟨hpc, hthread⟩ := hiff.mp hstuck
  have hwhere := hpatient hpc
  simp [hthread] at hwhere

namespace Scenario

/-- The thread has its socket; an abort request ends it before the starter wakes up. -/
def abortedStart : List ServiceAct :=
  [.start, .create true, .announce true, .requestAbort, .leave, .close]

end Scenario

open Scenario in
theorem api_start_stuck_aborted :
    ∃ s, exec ApiService.step {} abortedStart = some s ∧ s.main = .waiting ∧ s.Stuck := by
  have hrun : exec ApiService.step {} abortedStart =
      some { thread := .ended true, main := .waiting, abortFlag := true, created := 1,
             flags := { joinPending := true } } := rfl
  exact ⟨_, hrun, rfl, (api_start_stuck_iff hrun (by decide)).1.mpr ⟨rfl, rfl⟩⟩

open Scenario in
theorem api_thread_joined_once_aborted :
    ∃ s, exec ApiService.step {} abortedStart = some s ∧ s.created = s.joined + 1 := by
  have hrun : exec ApiService.step {} abortedStart =
      some { thread := .ended true, main := .waiting, abortFlag := true, created := 1,
             flags := { joinPending := true } } := rfl
  have hpending := (api_thread_joined_once hrun).1.resolve_left (by decide)
  exact ⟨_, hrun, hpending⟩

/-! ## Stopping -/

/-- An end of `accept` that leads to the next one. -/
def ServiceAct.again : ServiceAct → Bool
  | .accept .client | .accept .interrupted => true
  | _ => false

def ApiThreadPc.rank : ApiThreadPc → Nat
  | .polling => 4
  | .opening | .accepting => 3
  | .listening => 2
  | .closing => 1
  | .ended _ | .absent => 0

/-- The steps that `api_stop_service` still has to wait for or to take, when no client comes. -/
def ApiService.stopRank (s : ApiService) : Nat :=
  match s.main with
  | .stopJoin => s.thread.rank + 2
  | .stopClear => 1
  | _ => 0

section stopping
variable {s s' : ApiService} {a : ServiceAct}

/-- While the main thread waits for the end of the thread, each step of the thread but one that takes it from
client to client brings it nearer. -/
theorem stopJoin_step (h : ServiceInv s) (hpc : s.main = .stopJoin) (hcalls : a ≠ .start ∧ a ≠ .stop)
    (hstep : s.step a = some s') :
    (s'.main = .stopJoin ∧ s'.thread.rank + a.own.toNat ≤ s.thread.rank + a.again.toNat) ∨
      (s'.main = .stopClear ∧ a = .join) := by
  cases ApiService.step_trans hstep with
  | startActive | startReap | startCreate => exact absurd rfl hcalls.1
  | stop | stopNone => exact absurd rfl hcalls.2
  | join hafter =>
    rw [hpc] at hafter
    obtain rfl := Option.some.inj hafter
    exact Or.inr ⟨rfl, rfl⟩
  | create hmain | wake hmain | failedClear hmain | stopClear hmain => cases hpc.symm.trans hmain
  | turn hthread hnot =>
    -- the thread has been told to end
    have htold := h.main
    rw [hpc] at htold
    have hshutdown : s.flags.shutdownRequested = true := htold.2 (by rw [hthread]; rfl)
    rw [hshutdown, Bool.or_true] at hnot
    cases hnot
  | announced hthread | openFails hthread | leave hthread | pollFails hthread | pollAgain hthread
  | pollReady hthread | noClient hthread | close hthread =>
    exact Or.inl ⟨hpc, by simp [hthread, ApiThreadPc.rank, ServiceAct.own, ServiceAct.again]⟩
  | @acceptAgain result hthread hagain =>
    cases result with
    | none => exact absurd rfl hagain
    | client | interrupted =>
      exact Or.inl ⟨hpc, by simp [hthread, ApiThreadPc.rank, ServiceAct.own, ServiceAct.again]⟩
  | requestAbort => exact Or.inl ⟨hpc, Nat.le_refl _⟩

/-- Without a thread nothing but the last section of `api_stop_service` is left. -/
theorem stopped_step (habsent : s.thread = .absent) (hpc : s.main = .stopClear ∨ s.main = .idle)
    (hcalls : a ≠ .start ∧ a ≠ .stop) (hstep : s.step a = some s') :
    (a = .clear ∧ s.main = .stopClear ∧ s'.main = .idle) ∨ (a = .requestAbort ∧ s'.main = s.main) := by
  cases ApiService.step_trans hstep with
  | startActive | startReap | startCreate => exact absurd rfl hcalls.1
  | stop | stopNone => exact absurd rfl hcalls.2
  | join _ hended => exact absurd habsent (ended_ne_absent hended).1
  | create hmain | wake hmain | failedClear hmain => rcases hpc with hpc | hpc <;> cases hpc.symm.trans hmain
  | stopClear hmain => exact Or.inl ⟨rfl, hmain, rfl⟩
  | announced hthread | openFails hthread | turn hthread | leave hthread | pollFails hthread | pollAgain hthread
  | pollReady hthread | noClient hthread | acceptAgain hthread | close hthread =>
    cases habsent.symm.trans hthread
  | requestAbort => exact Or.inr ⟨rfl, rfl⟩

/-- The main thread is in `api_stop_service` or has returned from it. -/
structure Stopping (s : ApiService) : Prop where
  inv : ServiceInv s
  main : s.main = .stopJoin ∨ ((s.main = .stopClear ∨ s.main = .idle) ∧ s.thread = .absent)

theorem stopping_step (h : Stopping s) (hcalls : a ≠ .start ∧ a ≠ .stop) (hstep : s.step a = some s') :
    Stopping s' ∧ s'.stopRank + a.own.toNat ≤ s.stopRank + a.again.toNat := by
  have hinv := h.inv.step hstep
  rcases h.main with hpc | ⟨hpc, habsent⟩
  · rcases stopJoin_step h.inv hpc hcalls hstep with ⟨hpc', hrank⟩ | ⟨hpc', rfl⟩
    · refine ⟨⟨hinv, Or.inl hpc'⟩, ?_⟩
      simp only [ApiService.stopRank, hpc, hpc']
      omega
    · have habsent := hinv.main
      rw [hpc'] at habsent
      refine ⟨⟨hinv, Or.inr ⟨Or.inl hpc', habsent⟩⟩, ?_⟩
      simp only [ApiService.stopRank, hpc, hpc']
      exact Nat.le_add_left ..
  · rcases stopped_step habsent hpc hcalls hstep with ⟨rfl, hclear, hpc'⟩ | ⟨rfl, hpc'⟩
    · simp only [ApiService.step, hclear] at hstep
      obtain rfl := Option.some.inj hstep
      refine ⟨⟨hinv, Or.inr ⟨Or.inr rfl, habsent⟩⟩, ?_⟩
      simp only [ApiService.stopRank, hclear]
      exact Nat.le_refl _
    · obtain rfl := Option.some.inj hstep
      exact ⟨⟨hinv, Or.inr ⟨hpc, habsent⟩⟩, Nat.le_refl _⟩

/-- A stop needs no client to go on. -/
theorem Stopping.step_enabled (h : Stopping s) (hcall : s.main ≠ .idle) :
    ∃ a : ServiceAct, a.own = true ∧ a.again = false ∧ (s.step a).isSome = true := by
  rcases h.main with hpc | ⟨hpc | hpc, -⟩
  · have htold := h.inv.main
    rw [hpc] at htold
    cases hthread : s.thread <;> rw [hthread] at htold
    case absent => exact absurd rfl htold.1
    case opening => exact ⟨.announce true, rfl, rfl, by simp [ApiService.step, hthread]⟩
    case listening =>
      have hshutdown : s.flags.shutdownRequested = true := htold.2 rfl
      exact ⟨.leave, rfl, rfl, by simp [ApiService.step, hthread, hshutdown]⟩
    case polling => exact ⟨.poll .timeout, rfl, rfl, by simp [ApiService.step, hthread]⟩
    case accepting => exact ⟨.accept .none, rfl, rfl, by simp [ApiService.step, hthread]⟩
    case closing => exact ⟨.close, rfl, rfl, by simp [ApiService.step, hthread]⟩
    case ended =>
      exact ⟨.join, rfl, rfl, by simp [ApiService.step, ApiService.afterJoin, ApiService.ended, hpc, hthread]⟩
  · exact ⟨.clear, rfl, rfl, by simp [ApiService.step, hpc]⟩
  · exact absurd hpc hcall

/-- The loop over the clients looks at no flag. -/
theorem accept_clients (hthread : s.thread = .accepting) (n : Nat) :
    exec ApiService.step s (List.replicate n (.accept .client)) = some s := by
  have hserved : s.step (.accept .client) = some s := by
    simp only [ApiService.step, if_pos hthread, Option.some.injEq]
    rw [if_neg (by decide), ← hthread]
  induction n with
  | zero => rfl
  | succ n ih => rw [List.replicate_succ, exec_cons, hserved, Option.bind_some, ih]

end stopping

/-- Once `api_stop_service` waits for the thread, the two threads take at most six steps more and one for
each client that is served and each signal in between, and until the call has returned they can go on
without another client.  A thread that has begun to serve clients goes on with it for as long as they
come. -/
theorem api_stop_returns {acts more : List ServiceAct} {s s' : ApiService}
    (hrun : exec ApiService.step {} acts = some s) (hpc : s.main = .stopJoin)
    (hcalls : ∀ a ∈ more, a ≠ .start ∧ a ≠ .stop) (hmore : exec ApiService.step s more = some s') :
    more.countP ServiceAct.own ≤ 6 + more.countP ServiceAct.again ∧
    (s'.main ≠ .idle → ∃ a : ServiceAct, a.own = true ∧ a.again = false ∧ (s'.step a).isSome = true) ∧
    (s.thread = .accepting → ∀ n, exec ApiService.step s (List.replicate n (.accept .client)) = some s) := by
  obtain ⟨hstopped, hle⟩ := exec_ranked (fun _ _ _ => stopping_step) ⟨run_serviceInv hrun, Or.inl hpc⟩
    hcalls hmore
  have hrank : s.stopRank ≤ 6 := by
    simp only [ApiService.stopRank, hpc]
    cases s.thread <;> simp [ApiThreadPc.rank]
  have hown : s'.stopRank + more.countP ServiceAct.own ≤ s.stopRank + more.countP ServiceAct.again := hle
  exact ⟨by omega, hstopped.step_enabled, accept_clients⟩

namespace Scenario

def stopWhileAccepting : List ServiceAct :=
  [.start, .create true, .announce true, .wake, .turn, .poll .ready, .stop]

def stopSteps : List ServiceAct := [.accept .client, .accept .none, .leave, .close, .join, .clear]

end Scenario

open Scenario in
theorem api_stop_returns_accepting :
    ∃ s s', exec ApiService.step {} stopWhileAccepting = some s ∧
      exec ApiService.step s stopSteps = some s' ∧
      stopSteps.countP ServiceAct.own ≤ 6 + stopSteps.countP ServiceAct.again := by
  have hrun : exec ApiService.step {} stopWhileAccepting =
      some { thread := .accepting, main := .stopJoin, created := 1,
             flags := ⟨true, true, true, true, true⟩ } := rfl
  have hmore : exec ApiService.step
      { thread := .accepting, main := .stopJoin, created := 1, flags := ⟨true, true, true, true, true⟩ }
      stopSteps = some { created := 1, joined := 1 } := rfl
  exact ⟨_, _, hrun, hmore, (api_stop_returns hrun rfl (by decide) hmore).1⟩

/-! ## Inside of a call -/

/-- `api_stop_service` is not under way. -/
def ApiService.Starting (s : ApiService) : Prop := s.main ≠ .stopJoin ∧ s.main ≠ .stopClear

/-- The steps that `api_start_service` still has to take, or to wait for before the announcement. -/
def ApiService.startRank (s : ApiService) : Nat :=
  match s.main with
  | .reap => 6
  | .creating => 5
  | .waiting => 3 + if s.thread = .opening then 1 else 0
  | .failedJoin => 2
  | .failedClear => 1
  | _ => 0

/-- A turn of the API thread's loops. -/
def ServiceAct.round : ServiceAct → Bool
  | .turn | .poll _ | .accept _ => true
  | _ => false

def ApiThreadPc.stepsLeft : ApiThreadPc → Nat
  | .opening => 3
  | .listening | .polling | .accepting => 2
  | .closing => 1
  | .ended _ | .absent => 0

def StarterPc.stepsLeft : StarterPc → Nat
  | .reap => 8
  -- the steps of the thread are still to come
  | .creating => 7
  | .waiting => 3
  | .failedJoin | .stopJoin => 2
  | .failedClear | .stopClear => 1
  | .idle => 0

/-- The steps of both threads that are no turns of a loop. -/
def ApiService.stepsLeft (s : ApiService) : Nat := s.main.stepsLeft + s.thread.stepsLeft

section calls
variable {s s' : ApiService} {a : ServiceAct}

theorem own_not_call (hown : a.own = true) : a ≠ .start ∧ a ≠ .stop := by
  refine ⟨?_, ?_⟩
  · rintro rfl
    cases hown
  · rintro rfl
    cases hown

/-- The thread works between the calls, and the main thread works only inside of them. -/
theorem own_step_idle (hidle : s.main = .idle) (hown : a.own = true) (hstep : s.step a = some s') :
    s'.main = .idle := by
  cases ApiService.step_trans hstep with
  | startActive | startReap | startCreate | stop | stopNone | requestAbort => cases hown
  | join hafter => simp [ApiService.afterJoin, hidle] at hafter
  | create hmain | wake hmain | failedClear hmain | stopClear hmain => cases hidle.symm.trans hmain
  | _ => exact hidle

theorem own_step_starting (h : s.Starting) (hown : a.own = true) (hstep : s.step a = some s') :
    s'.Starting := by
  cases ApiService.step_trans hstep with
  | startActive | startReap | startCreate | stop | stopNone | requestAbort => cases hown
  | join hafter =>
    cases hpc : s.main with
    | reap | failedJoin =>
      rw [hpc] at hafter
      cases hafter
      simp [ApiService.Starting]
    | stopJoin => exact absurd hpc h.1
    | idle | creating | waiting | failedClear | stopClear =>
      rw [hpc] at hafter
      cases hafter
  | @create ok => cases ok <;> simp [ApiService.Starting, ApiService.create]
  | wake => cases hsucceeded : s.flags.startupSucceeded <;> simp [ApiService.Starting]
  | failedClear => simp [ApiService.Starting]
  | stopClear hmain => exact absurd hmain h.2
  | _ => exact h

/-- Only `api_start_service` creates the thread. -/
theorem own_step_absent (habsent : s.thread = .absent) (hpc : s.main ≠ .creating) (hown : a.own = true)
    (hstep : s.step a = some s') : s'.thread = .absent := by
  cases ApiService.step_trans hstep with
  | startActive | startReap | startCreate | stop | stopNone | requestAbort => cases hown
  | join => rfl
  | create hmain => exact absurd hmain hpc
  | wake | failedClear | stopClear => exact habsent
  | announced hthread | openFails hthread | turn hthread | leave hthread | pollFails hthread | pollAgain hthread
  | pollReady hthread | noClient hthread | acceptAgain hthread | close hthread =>
    cases habsent.symm.trans hthread

theorem own_step_abortFlag (hown : a.own = true) (hstep : s.step a = some s') :
    s'.abortFlag = s.abortFlag := by
  cases ApiService.step_trans hstep with
  | requestAbort => cases hown
  | @create ok => cases ok <;> rfl
  | _ => rfl

theorem own_step_stepsLeft (hown : a.own = true) (hstep : s.step a = some s') :
    s'.stepsLeft + (!a.round).toNat ≤ s.stepsLeft := by
  unfold ApiService.stepsLeft
  cases ApiService.step_trans hstep with
  | startActive | startReap | startCreate | stop | stopNone | requestAbort => cases hown
  | join hafter =>
    cases hpc : s.main <;> rw [hpc] at hafter <;> cases hafter <;>
      simp [StarterPc.stepsLeft, ApiThreadPc.stepsLeft, ServiceAct.round]
  | @create ok hmain =>
    cases ok
    · show 0 + s.thread.stepsLeft + 1 ≤ _
      rw [hmain]
      simp only [StarterPc.stepsLeft]
      omega
    · simp [ApiService.create, hmain, StarterPc.stepsLeft, ApiThreadPc.stepsLeft, ServiceAct.round]
  | wake hmain =>
    have hnext : (if s.flags.startupSucceeded then StarterPc.idle else .failedJoin).stepsLeft ≤ 2 := by
      split <;> decide
    rw [hmain]
    calc _ = (if s.flags.startupSucceeded then StarterPc.idle else .failedJoin).stepsLeft +
          s.thread.stepsLeft + 1 := rfl
      _ ≤ 3 + s.thread.stepsLeft := by omega
  | failedClear hmain | stopClear hmain =>
    simp [hmain, StarterPc.stepsLeft, ServiceAct.round, Nat.add_comm]
  | announced hthread | openFails hthread | turn hthread | leave hthread | pollFails hthread | pollAgain hthread
  | pollReady hthread | noClient hthread | acceptAgain hthread | close hthread =>
    simp [hthread, ApiThreadPc.stepsLeft, ServiceAct.round]

theorem start_stepsLeft (hstep : s.step .start = some s') : s'.stepsLeft ≤ s.stepsLeft + 8 := by
  unfold ApiService.stepsLeft
  cases ApiService.step_trans hstep with
  | startActive => exact Nat.le_add_right _ _
  | startReap | startCreate =>
    simp only [StarterPc.stepsLeft]
    omega

theorem stop_stepsLeft (hstep : s.step .stop = some s') : s'.stepsLeft ≤ s.stepsLeft + 2 := by
  unfold ApiService.stepsLeft
  cases ApiService.step_trans hstep with
  | stop =>
    simp only [StarterPc.stepsLeft]
    omega
  | stopNone => exact Nat.le_add_right _ _

theorem start_starting (hstep : s.step .start = some s') : s'.Starting := by
  cases ApiService.step_trans hstep with
  | startActive hmain => simp [ApiService.Starting, hmain]
  | startReap | startCreate => simp [ApiService.Starting]

theorem Stopping.absent (h : Stopping s) (hidle : s.main = .idle) : s.thread = .absent := by
  rcases h.main with hpc | ⟨-, habsent⟩
  · rw [hidle] at hpc
    cases hpc
  · exact habsent

theorem stop_abortFlag (hstep : s.step .stop = some s') : s'.abortFlag = s.abortFlag := by
  cases ApiService.step_trans hstep <;> rfl

theorem stop_thread (hstep : s.step .stop = some s') : s'.thread = s.thread := by
  cases ApiService.step_trans hstep <;> rfl

theorem stop_stopping (h : ServiceInv s) (hstep : s.step .stop = some s') : Stopping s' := by
  refine ⟨h.step hstep, ?_⟩
  cases ApiService.step_trans hstep with
  | stop => exact Or.inl rfl
  | stopNone hmain hnone => exact Or.inr ⟨Or.inr hmain, h.absent hmain hnone⟩

/-- An announcement that has not been taken back wakes the starter up. -/
theorem ServiceInv.announced (h : ServiceInv s) (hpc : s.main = .waiting) (hopening : s.thread ≠ .opening)
    (hmissed : s.thread ≠ .ended true) : s.flags.startupComplete = true := by
  have hthere := h.main
  have hstartup := h.startup
  rw [hpc] at hthere
  cases hthread : s.thread <;> rw [hthread] at hstartup
  case absent => exact absurd hthread hthere.2
  case opening => exact absurd hthread hopening
  case ended announced =>
    cases announced with
    | true => exact absurd hthread hmissed
    | false => exact hstartup.1
  all_goals exact hstartup.1

theorem join_step {pc : StarterPc} (hpc : ApiService.afterJoin s.main = some pc)
    (hended : ApiService.ended s.thread = true) :
    s.step .join = some { s with thread := .absent, main := pc, joined := s.joined + 1 } := by
  simp only [ApiService.step, hpc, if_pos hended]

theorem ServiceInv.start_next (h : ServiceInv s) (hstarting : s.Starting)
    (hmissed : ¬ (s.main = .waiting ∧ s.thread = .ended true)) (hcall : s.main ≠ .idle) :
    ∃ a s', a.own = true ∧ s.step a = some s' ∧ ¬ (s'.main = .waiting ∧ s'.thread = .ended true) ∧
      s'.startRank < s.startRank := by
  have hmain := h.main
  cases hpc : s.main <;> rw [hpc] at hmain
  case idle => exact absurd hpc hcall
  case stopJoin => exact absurd hpc hstarting.1
  case stopClear => exact absurd hpc hstarting.2
  case reap =>
    exact ⟨.join, _, rfl, join_step (by rw [hpc]; rfl) hmain, by simp, by simp [ApiService.startRank, hpc]⟩
  case failedJoin =>
    exact ⟨.join, _, rfl, join_step (by rw [hpc]; rfl) hmain, by simp, by simp [ApiService.startRank, hpc]⟩
  case creating =>
    exact ⟨.create false, _, rfl, if_pos hpc, by simp [ApiService.create],
      by simp [ApiService.startRank, ApiService.create, hpc]⟩
  case failedClear =>
    have hclear : s.step .clear =
        some { s with flags := { s.flags with joinPending := false, active := false }, main := .idle } := by
      simp only [ApiService.step, hpc]
    exact ⟨.clear, _, rfl, hclear, by simp, by simp [ApiService.startRank, hpc]⟩
  case waiting =>
    by_cases hopening : s.thread = .opening
    · exact ⟨.announce true, _, rfl, if_pos hopening, by simp, by simp [ApiService.startRank, hpc, hopening]⟩
    · have hcomplete := h.announced hpc hopening fun hthread => hmissed ⟨hpc, hthread⟩
      have hwake : s.step .wake =
          some { s with main := if s.flags.startupSucceeded then .idle else .failedJoin } := by
        simp only [ApiService.step, if_pos hpc, if_pos hcomplete]
      refine ⟨.wake, _, rfl, hwake, ?_, ?_⟩ <;> cases s.flags.startupSucceeded <;>
        simp [ApiService.startRank, hpc, hopening]

/-- `api_start_service` comes to its end, if it has not missed the announcement. -/
theorem start_returns (h : ServiceInv s) (hstarting : s.Starting)
    (hmissed : ¬ (s.main = .waiting ∧ s.thread = .ended true)) :
    ∃ acts s', (∀ a ∈ acts, a.own = true) ∧ exec ApiService.step s acts = some s' ∧ s'.main = .idle := by
  have hreach : ∃ acts s', (∀ a ∈ acts, a.own = true) ∧ exec ApiService.step s acts = some s' ∧
      (ServiceInv s' ∧ s'.Starting ∧ ¬ (s'.main = .waiting ∧ s'.thread = .ended true)) ∧ s'.main = .idle := by
    refine exec_reaches ApiService.startRank ?_ ⟨h, hstarting, hmissed⟩
    rintro s ⟨h, hstarting, hmissed⟩ hcall
    obtain ⟨a, s', hown, hstep, hmissed', hlt⟩ := h.start_next hstarting hmissed hcall
    exact ⟨a, s', hown, hstep, ⟨h.step hstep, own_step_starting hstarting hown hstep, hmissed'⟩, hlt⟩
  obtain ⟨acts, s', hown, hrun, -, hidle⟩ := hreach
  exact ⟨acts, s', hown, hrun, hidle⟩

/-- `api_stop_service` comes to its end, if no more clients come. -/
theorem Stopping.returns (h : Stopping s) :
    ∃ acts s', (∀ a ∈ acts, a.own = true) ∧ exec ApiService.step s acts = some s' ∧ s'.main = .idle := by
  have hreach : ∃ acts s', (∀ a ∈ acts, a.own = true) ∧ exec ApiService.step s acts = some s' ∧ Stopping s' ∧
      s'.main = .idle := by
    refine exec_reaches ApiService.stopRank ?_ h
    intro s h hcall
    obtain ⟨a, hown, hagain, hsome⟩ := h.step_enabled hcall
    obtain ⟨s', hstep⟩ := Option.isSome_iff_exists.mp hsome
    obtain ⟨h', hrank⟩ := stopping_step h (own_not_call hown) hstep
    rw [hown, hagain] at hrank
    exact ⟨a, s', hown, hstep, h', Nat.lt_of_succ_le hrank⟩
  obtain ⟨acts, s', hown, hrun, -, hidle⟩ := hreach
  exact ⟨acts, s', hown, hrun, hidle⟩

end calls

end PrimoMiner
