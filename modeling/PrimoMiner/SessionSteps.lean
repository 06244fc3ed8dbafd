import PrimoMiner.Session

/-!
# What one step of the service thread can do

`Svc.Wf` is the thread's structural invariant: the pool it is on, the slice flag and the program
point agree.  In such a state every switch the thread asks for is possible, and `Svc.Trans` lists
what a step can then do, with the tests it has passed.  `step_trans` is the only place where the
transition function is taken apart; every invariant of a run is proved from `Trans`.
-/

namespace PrimoMiner

open Runs RingScan

/-! ## The setup of a run -/

/-- What `startup` leaves in the tables: the dev slot, when there is one, is the last pool and is
disabled, and the cadence is one of the three the code can compute. -/
structure Setup (opt : Options) (g : Globals) : Prop where
  enabled : g.devfee.enabled = true ↔ ∃ d, g.devfee.devPoolIndex = some d
  slot : ∀ d, g.devfee.devPoolIndex = some d → d + 1 = g.numPools ∧ (g.pools d).disabled = true
  targets : g.devfee.numTargets ≤ (kDevFeeTargets opt.algo).length
  cadence : g.devfee.enabled = true →
    (g.devfee.sliceSeconds = 60 ∧ (g.devfee.cycleSeconds = 3000 ∨ g.devfee.cycleSeconds = 6000)) ∨
    (g.devfee.sliceSeconds = 20 ∧ g.devfee.cycleSeconds = 120)

theorem Setup.of_same {opt : Options} {g₀ g : Globals} (h : Setup opt g₀) (same : SameSetup g₀ g) :
    Setup opt g where
  enabled := by rw [same.enabled, same.devPoolIndex]; exact h.enabled
  slot d hd := by
    rw [same.devPoolIndex] at hd
    rw [same.numPools, same.disabled]
    exact h.slot d hd
  targets := by rw [same.numTargets]; exact h.targets
  cadence he := by
    rw [same.enabled] at he
    rw [same.sliceSeconds, same.cycleSeconds]
    exact h.cadence he

/-- The dev slot is disabled, so no usable pool is the dev slot. -/
theorem Setup.usable_ne_dev {opt : Options} {g : Globals} (h : Setup opt g) {i d : Nat}
    (hi : minerPoolIsUsable g i = true) (hd : g.devfee.devPoolIndex = some d) : i ≠ d := by
  intro heq
  have hon := minerPoolIsUsable_enabled hi
  rw [heq, (h.slot d hd).2] at hon
  exact absurd hon (by decide)

theorem Setup.not_dev_of_usable {opt : Options} {g : Globals} (h : Setup opt g) {i : Nat}
    (hi : minerPoolIsUsable g i = true) : devfeeIsDevPool g i = false := by
  unfold devfeeIsDevPool
  rw [Bool.and_eq_false_iff]
  right
  rw [beq_eq_false_iff_ne]
  intro hd
  exact h.usable_ne_dev hi hd rfl

theorem devfeeIsDevPool_iff {opt : Options} {g : Globals} (h : Setup opt g) {i : Nat} :
    devfeeIsDevPool g i = true ↔ g.devfee.devPoolIndex = some i := by
  unfold devfeeIsDevPool
  rw [Bool.and_eq_true, beq_iff_eq]
  constructor
  · exact And.right
  · intro hd
    exact ⟨h.enabled.mpr ⟨i, hd⟩, hd⟩

theorem SameSetup.isDevPool {g₀ g : Globals} (same : SameSetup g₀ g) (i : Nat) :
    devfeeIsDevPool g i = devfeeIsDevPool g₀ i := by
  rw [devfeeIsDevPool, devfeeIsDevPool, same.enabled, same.devPoolIndex]

/-- The failover search depends on the setup only. -/
theorem SameSetup.findNext {g₀ g : Globals} (same : SameSetup g₀ g) (i : Nat) :
    stratumFindNextPoolIndex g i = stratumFindNextPoolIndex g₀ i := by
  have husable : minerPoolIsUsable g = minerPoolIsUsable g₀ := funext same.usable
  rw [stratumFindNextPoolIndex, stratumFindNextPoolIndex, same.numPools, husable]

theorem stratumFindNextPoolIndex_usable {g : Globals} {i : Nat}
    (hne : stratumFindNextPoolIndex g i ≠ i) :
    minerPoolIsUsable g (stratumFindNextPoolIndex g i) = true := by
  unfold stratumFindNextPoolIndex at hne ⊢
  split at hne
  · exact absurd rfl hne
  · rename_i hn
    rw [if_neg hn]
    exact ok_nextInRing hne

namespace Svc

/-! ## Simp set for the small state changes -/

section fields
variable (s : Svc) (pc : Pc) (e : Event) (next : Nat)

@[simp] theorem ctx_def : s.ctx = s.g.ctx s.pool := rfl

@[simp] theorem moveTo_devfee : (s.moveTo next).g.devfee = s.g.devfee := rfl
@[simp] theorem moveTo_abortFlag : (s.moveTo next).g.abortFlag = s.g.abortFlag := rfl
@[simp] theorem moveTo_curPooln : (s.moveTo next).g.curPooln = next := rfl
@[simp] theorem moveTo_numPools : (s.moveTo next).g.numPools = s.g.numPools := rfl
@[simp] theorem moveTo_pool : (s.moveTo next).pool = next := rfl
@[simp] theorem moveTo_now : (s.moveTo next).now = s.now := rfl
@[simp] theorem moveTo_pc : (s.moveTo next).pc = s.pc := rfl
@[simp] theorem moveTo_connected : (s.moveTo next).connected = s.connected := rfl
@[simp] theorem moveTo_retryCount : (s.moveTo next).retryCount = s.retryCount := rfl
@[simp] theorem moveTo_retryCycleStartPoolIndex :
    (s.moveTo next).retryCycleStartPoolIndex = s.retryCycleStartPoolIndex := rfl
@[simp] theorem moveTo_log : (s.moveTo next).log = .switched next :: s.log := rfl

/-- A switch moves the two `thread_active` marks and nothing else of the contexts. -/
theorem moveTo_ctx (i : Nat) :
    ∃ b, (s.moveTo next).g.ctx i = { s.g.ctx i with threadActive := b } := by
  have hctx : (s.moveTo next).g.ctx i =
      ((s.g.modifyCtx s.pool fun c => { c with threadActive := false }).modifyCtx next
        fun c => { c with threadActive := true }).ctx i := rfl
  rw [hctx, Globals.modifyCtx_ctx, Globals.modifyCtx_ctx, Globals.modifyCtx_ctx]
  by_cases hn : i = next
  · subst hn
    refine ⟨true, ?_⟩
    by_cases hp : i = s.pool <;> simp [hp]
  · rw [if_neg hn]
    by_cases hp : i = s.pool
    · exact ⟨false, by rw [if_pos hp, hp]⟩
    · exact ⟨(s.g.ctx i).threadActive, by rw [if_neg hp]⟩

@[simp] theorem moveTo_reconnectRequested (i : Nat) :
    ((s.moveTo next).g.ctx i).reconnectRequested = (s.g.ctx i).reconnectRequested := by
  obtain ⟨b, hb⟩ := s.moveTo_ctx next i
  rw [hb]

@[simp] theorem moveTo_ctxUrl (i : Nat) :
    ((s.moveTo next).g.ctx i).url = (s.g.ctx i).url := by
  obtain ⟨b, hb⟩ := s.moveTo_ctx next i
  rw [hb]

theorem moveTo_same : SameSetup s.g (s.moveTo next).g :=
  ((SameSetup.modifyCtx _ _ _).trans (SameSetup.modifyCtx _ _ _)).trans
    (SameSetup.minerSetCurrentPoolIndex _ _)

/-- The events recorded when an attempt begins, and when a message may have published work. -/
theorem recordAttempt_log :
    ∃ es, s.recordAttempt.log = es ++ s.log ∧ ∀ e ∈ es, e = .attempted s.pool := by
  unfold recordAttempt
  cases s.onDevPool
  · exact ⟨[.attempted s.pool], rfl, by simp⟩
  · exact ⟨[], rfl, by simp⟩

theorem recordPublished_log (publishes : Bool) :
    ∃ es, (s.recordPublished publishes).log = es ++ s.log ∧ ∀ e ∈ es, e = .published s.pool := by
  unfold recordPublished
  cases publishes
  · exact ⟨[], rfl, by simp⟩
  · exact ⟨[.published s.pool], rfl, by simp⟩

theorem transitionEvents_mem (h : e ∈ s.transitionEvents) :
    e = .sliceEnded s.now ∨ e = .sliceBegan s.now ∨ e = .targetSet 0 := by
  unfold transitionEvents at h
  split at h
  · exact Or.inl (List.mem_singleton.mp h)
  · right
    split at h
    · simpa using h
    · exact Or.inl (List.mem_singleton.mp h)

theorem openFailed_pc : s.openFailed.pc = .devAdvance ∨ s.openFailed.pc = .handling := by
  unfold openFailed
  split
  · exact Or.inl rfl
  · exact Or.inr rfl

end fields

/-! ## The structural invariant -/

/-- What holds at the program points of the exit paths. -/
def PcOk (g₀ : Globals) (s : Svc) : Prop :=
  match s.pc with
  | .exitAbort | .exitFlag => g₀.devfee.enabled = true
  | .devAdvance | .devAbort => s.g.devfee.inSlice = true
  | .handling => s.g.devfee.inSlice = true → s.g.abortFlag = true
  | .handleAbort next wrapped =>
    (s.g.devfee.inSlice = true → s.g.abortFlag = true) ∧
      next = stratumFindNextPoolIndex g₀ s.pool ∧
      wrapped = (next != s.pool && next == s.retryCycleStartPoolIndex)
  | .handleTake next wrapped =>
    s.g.devfee.inSlice = false ∧ next = stratumFindNextPoolIndex g₀ s.pool ∧
      wrapped = (next != s.pool && next == s.retryCycleStartPoolIndex)
  | .pausing next =>
    s.g.devfee.inSlice = false ∧ next = stratumFindNextPoolIndex g₀ s.pool ∧
      (next ≠ s.pool → next = s.retryCycleStartPoolIndex)
  | _ => True

structure Wf (g₀ : Globals) (s : Svc) : Prop where
  same : SameSetup g₀ s.g
  cur : s.g.curPooln = s.pool
  inSlice : s.g.devfee.inSlice = true →
    g₀.devfee.devPoolIndex = some s.pool ∧
      ∃ u, s.g.devfee.userPoolIndex = some u ∧ minerPoolIsUsable g₀ u = true
  outside : s.g.devfee.inSlice = false → minerPoolIsUsable g₀ s.pool = true
  pcOk : PcOk g₀ s

/-! ## The steps -/

/-- Moves that change the program point only. -/
inductive Goto (s : Svc) : Pc → Prop
  | nextRequest {r r' : Request} (hpc : s.pc = .waiting r) (hr : r ≠ .extranonceSubscribe)
      (hconn : s.connected = true) : Goto s (.waiting r')
  | handshakeDone (hpc : s.pc = .waiting .extranonceSubscribe) : Goto s .opened
  | loopAborted (hpc : s.pc = .loopAbort) : Goto s .exitDue
  | loopToFlag (hpc : s.pc = .loopAbort) : Goto s .loopFlag
  | loopFlagSet (hpc : s.pc = .loopFlag) : Goto s .exitDue
  | loopToDue (hpc : s.pc = .loopFlag) (hflag : (s.g.ctx s.pool).reconnectRequested = false) :
      Goto s .loopDue
  | loopDueNow (hpc : s.pc = .loopDue) : Goto s .exitDue
  | loopToRecv (hpc : s.pc = .loopDue) : Goto s .loopRecv
  | loopLost (hpc : s.pc = .loopRecv) : Goto s .exitDue
  | loopAgain (hpc : s.pc = .loopRecv) : Goto s .loopAbort
  | exitToAbort (hpc : s.pc = .exitDue) (hdue : devfeeTransitionDue s.g s.now = true) :
      Goto s .exitAbort
  | exitNotDue (hpc : s.pc = .exitDue) : Goto s .exitDev
  | exitToFlag (hpc : s.pc = .exitAbort) : Goto s .exitFlag
  | exitAborted (hpc : s.pc = .exitAbort) : Goto s .exitDev
  | exitFlagSet (hpc : s.pc = .exitFlag) : Goto s .exitDev
  | devLost (hpc : s.pc = .exitDev) (hdev : s.onDevPool = true) : Goto s .devAdvance
  | userLost (hpc : s.pc = .exitDev) (hdev : s.onDevPool = true → s.g.abortFlag = true) :
      Goto s .handling
  | noTargetLeft (hpc : s.pc = .devAdvance) : Goto s .devAbort

/-- The steps from a well-formed state, by what they do. -/
inductive Trans (opt : Options) (g₀ : Globals) (s : Svc) : Act → Svc → Prop
  | goto {a : Act} {pc : Pc} (h : Goto s pc) : Trans opt g₀ s a (s.goto pc)
  | exit {a : Act} (habort : s.g.abortFlag = true) : Trans opt g₀ s a s.exit
  | connecting (hpc : s.pc = .head) (hurl : (s.g.ctx s.pool).url ≠ "") :
      Trans opt g₀ s .run (s.recordAttempt.goto .connecting)
  | connectingFresh (hpc : s.pc = .head) (hurl : (s.g.ctx s.pool).url = "") :
      Trans opt g₀ s .run
        ({ s.recordAttempt with
            g := s.g.modifyCtx s.pool fun c => { c with url := (s.g.pools s.pool).url } }.goto
          .connecting)
  | noUrl (hpc : s.pc = .head) : Trans opt g₀ s .run s.recordAttempt.openFailed
  | connected (tls : Bool) {a : Act} (hpc : s.pc = .connecting) :
      Trans opt g₀ s a
        ({ s with
            g := s.g.modifyCtx s.pool fun c => { c with useTls := tls }
            connected := true }.goto (.waiting opt.handshake))
  | connectFailed (tls : Bool) {a : Act} (hpc : s.pc = .connecting) :
      Trans opt g₀ s a
        { s with g := s.g.modifyCtx s.pool fun c => { c with useTls := tls } }.openFailed
  | requestFailed {r : Request} {a : Act} (hpc : s.pc = .waiting r)
      (hr : r ≠ .extranonceSubscribe) : Trans opt g₀ s a s.stratumDisconnect.openFailed
  | loggedIn (publishes : Bool) {a : Act} (hpc : s.pc = .waiting .login)
      (hconn : s.connected = true) : Trans opt g₀ s a ((s.recordPublished publishes).goto .opened)
  | redirected {val : Json} {outcome : HandlerOutcome} {url : String} {pc : Pc}
      (hpc : (∃ r, s.pc = .waiting r ∧ pc = .waiting r) ∨ (s.pc = .loopRecv ∧ pc = .loopAbort))
      (hconn : s.connected = true)
      (hreply : ∀ r, s.pc = .waiting r → stratumReplyMatchesId val r.id = false)
      (hurl : acceptedRedirect (s.g.ctx s.pool) val = some url) :
      Trans opt g₀ s (.line (some val) outcome)
        (({ s with g := s.g.setPool s.pool ((s.g.pools s.pool).redirect url) }.record
          (.redirected s.pool url)).stratumDisconnect.goto pc)
  | message (publishes : Bool) {a : Act} {pc : Pc}
      (hpc : (∃ r, s.pc = .waiting r ∧ pc = .waiting r) ∨
        (s.pc = .loopRecv ∧ (pc = .loopAbort ∨ pc = .exitDue)))
      (hconn : s.connected = true) : Trans opt g₀ s a ((s.recordPublished publishes).goto pc)
  | sessionOpened (hpc : s.pc = .opened) : Trans opt g₀ s .run s.sessionOpened
  | enterLoop (hpc : s.pc = .loopEntry) : Trans opt g₀ s .run s.enterMessageLoop
  | sliceBegun {d : Nat} (hpc : s.pc = .exitFlag)
      (hflag : (s.g.ctx s.pool).reconnectRequested = false) (hin : s.g.devfee.inSlice = false)
      (hd : g₀.devfee.devPoolIndex = some d) :
      Trans opt g₀ s .run
        (({ s with
            g := (devfeeTakeTransition opt s.g s.now s.pool).1
            log := s.transitionEvents ++ s.log }.stratumDisconnect.moveTo d).goto .head)
  | sliceEnded {u : Nat} (hpc : s.pc = .exitFlag)
      (hflag : (s.g.ctx s.pool).reconnectRequested = false) (hin : s.g.devfee.inSlice = true)
      (hu : s.g.devfee.userPoolIndex = some u) :
      Trans opt g₀ s .run
        (({ s with
            g := (devfeeTakeTransition opt s.g s.now s.pool).1
            log := s.transitionEvents ++ s.log }.stratumDisconnect.moveTo u).goto .head)
  | targetAdvanced (hpc : s.pc = .devAdvance) (hin : s.g.devfee.inSlice = true)
      (hleft : s.g.devfee.curTarget + 1 < s.g.devfee.numTargets) :
      Trans opt g₀ s .run
        ({ s with
            g := devfeeSetPoolTarget opt s.g (s.g.devfee.curTarget + 1)
            log := .targetSet (s.g.devfee.curTarget + 1) :: s.log }.stratumDisconnect.goto .head)
  | sliceAborted {u : Nat} (hpc : s.pc = .devAbort) (hin : s.g.devfee.inSlice = true)
      (hu : s.g.devfee.userPoolIndex = some u) :
      Trans opt g₀ s .run
        (({ s with
            g := (devfeeAbortSlice s.g s.now).1
            log := .sliceEnded s.now :: s.log }.stratumDisconnect.moveTo u).goto .head)
  | handle (hpc : s.pc = .handling) : Trans opt g₀ s .run s.handleDisconnectedSession
  | failed {next : Nat} {wrapped : Bool} (hpc : s.pc = .handleAbort next wrapped)
      (hrun : s.g.abortFlag = false) :
      Trans opt g₀ s .run ((s.record (.failed s.pool)).goto (.handleTake next wrapped))
  | reconnectTaken {next : Nat} {wrapped : Bool} (hpc : s.pc = .handleTake next wrapped) :
      Trans opt g₀ s .run
        ((({ s with
            g := s.g.modifyCtx s.pool fun c => { c with reconnectRequested := false } }.record
          (.reconnectTaken s.pool)).stratumResetRetryCycle).goto .head)
  | failedOver {next : Nat} {wrapped : Bool} (hpc : s.pc = .handleTake next wrapped)
      (hflag : (s.g.ctx s.pool).reconnectRequested = false) (hnext : next ≠ s.pool)
      (hwrap : wrapped = false) : Trans opt g₀ s .run ((s.moveTo next).goto .head)
  | retryLimit {next : Nat} {wrapped : Bool} (hpc : s.pc = .handleTake next wrapped)
      (hflag : (s.g.ctx s.pool).reconnectRequested = false)
      (hwrap : next = s.pool ∨ wrapped = true)
      (hlimit : 0 ≤ opt.retries ∧ opt.retries < ↑(s.retryCount + 1)) :
      Trans opt g₀ s .run
        ({ s with
            g := s.g.minerRequestAbort
            retryCount := s.retryCount + 1
            log := .retried (s.retryCount + 1) :: s.log }.exit)
  | retryPause {next : Nat} {wrapped : Bool} (hpc : s.pc = .handleTake next wrapped)
      (hflag : (s.g.ctx s.pool).reconnectRequested = false)
      (hwrap : next = s.pool ∨ wrapped = true)
      (hlimit : ¬ (0 ≤ opt.retries ∧ opt.retries < ↑(s.retryCount + 1))) :
      Trans opt g₀ s .run
        ({ s with
            retryCount := s.retryCount + 1
            log := .paused :: .retried (s.retryCount + 1) :: s.log }.goto (.pausing next))
  | resumedNext {next : Nat} (hpc : s.pc = .pausing next) (hnext : next ≠ s.pool) :
      Trans opt g₀ s .run ({ s.moveTo next with retryCycleStartPoolIndex := next }.goto .head)
  | resumed {next : Nat} (hpc : s.pc = .pausing next) (hnext : next = s.pool) :
      Trans opt g₀ s .run ({ s with retryCycleStartPoolIndex := s.pool }.goto .head)
  | minerRaised (p : Nat) :
      Trans opt g₀ s (.minerRaise p)
        ({ s with g := s.g.modifyCtx p fun c => { c with reconnectRequested := true } }.record
          (.minerRaised p))
  | abortRequested : Trans opt g₀ s .requestAbort { s with g := s.g.minerRequestAbort }
  | clock (t : Int) : Trans opt g₀ s (.clock t) { s with now := t }

section steps
variable {opt : Options} {g₀ : Globals} {s s' : Svc}

theorem leaveFor_some {q : Nat} (hlt : q < s.g.numPools) (hne : q ≠ s.pool) :
    s.leaveFor (some q) = (s.stratumDisconnect.moveTo q).goto .head := by
  have hswitch : s.stratumDisconnect.stratumSwitchToPool q = some (s.stratumDisconnect.moveTo q) :=
    if_pos ⟨hlt, hne⟩
  unfold leaveFor
  simp only [Option.bind_some, hswitch, Option.getD_some]

/-- A pool that failover may select can be switched to from every other pool. -/
theorem stratumSwitchToPool_of_usable (hw : Wf g₀ s) {q : Nat}
    (hq : minerPoolIsUsable g₀ q = true) (hne : q ≠ s.pool) :
    s.stratumSwitchToPool q = some (s.moveTo q) := by
  have hlt := minerPoolIsUsable_lt hq
  rw [← hw.same.numPools] at hlt
  exact if_pos ⟨hlt, hne⟩

/-- The failover target is usable. -/
theorem next_usable {next : Nat} (hnext : next = stratumFindNextPoolIndex g₀ s.pool)
    (hne : next ≠ s.pool) : minerPoolIsUsable g₀ next = true := by
  rw [hnext] at hne ⊢
  exact stratumFindNextPoolIndex_usable hne

theorem Wf.onDevPool (hsetup : Setup opt g₀) (hw : Wf g₀ s) :
    s.onDevPool = s.g.devfee.inSlice := by
  have hdev : s.onDevPool = devfeeIsDevPool g₀ s.pool := hw.same.isDevPool s.pool
  rw [hdev]
  cases hin : s.g.devfee.inSlice with
  | true => exact (devfeeIsDevPool_iff hsetup).mpr (hw.inSlice hin).1
  | false => exact hsetup.not_dev_of_usable (hw.outside hin)

/-- Inside a slice the remembered user pool is another pool of the table. -/
theorem Wf.userPool_ne (hsetup : Setup opt g₀) (hw : Wf g₀ s)
    (hin : s.g.devfee.inSlice = true) {u : Nat} (hu : s.g.devfee.userPoolIndex = some u) :
    u < s.g.numPools ∧ u ≠ s.pool := by
  obtain ⟨hdev, u', hu', husable⟩ := hw.inSlice hin
  rw [hu, Option.some.injEq] at hu'
  subst hu'
  have hlt := minerPoolIsUsable_lt husable
  rw [← hw.same.numPools] at hlt
  exact ⟨hlt, hsetup.usable_ne_dev husable hdev⟩

theorem sliceBoundary_trans (hsetup : Setup opt g₀) (hw : Wf g₀ s) (hpc : s.pc = .exitFlag)
    (hflag : (s.g.ctx s.pool).reconnectRequested = false) :
    Trans opt g₀ s .run (s.sliceBoundary opt) := by
  have hpcOk := hw.pcOk
  simp only [PcOk, hpc] at hpcOk
  unfold sliceBoundary
  cases hin : s.g.devfee.inSlice with
  | true =>
    obtain ⟨-, u, hu, -⟩ := hw.inSlice hin
    obtain ⟨hlt, hne⟩ := hw.userPool_ne hsetup hin hu
    have htarget : (devfeeTakeTransition opt s.g s.now s.pool).2 = some u := by
      simp [devfeeTakeTransition, hin, hu]
    have hnum : (devfeeTakeTransition opt s.g s.now s.pool).1.numPools = s.g.numPools := by
      simp [devfeeTakeTransition, hin]
    dsimp only
    rw [htarget, leaveFor_some]
    · exact .sliceEnded hpc hflag hin hu
    · rw [hnum]
      exact hlt
    · exact hne
  | false =>
    obtain ⟨d, hd⟩ := hsetup.enabled.mp hpcOk
    have hdev : s.g.devfee.devPoolIndex = some d := by rw [hw.same.devPoolIndex, hd]
    have htarget : (devfeeTakeTransition opt s.g s.now s.pool).2 = some d := by
      simp only [devfeeTakeTransition, hin, Bool.false_eq_true, if_false]
      split <;> simp [hdev]
    have hnum : (devfeeTakeTransition opt s.g s.now s.pool).1.numPools = s.g.numPools := by
      simp only [devfeeTakeTransition, hin, Bool.false_eq_true, if_false]
      split <;> simp
    have hlt : d < s.g.numPools := by
      rw [hw.same.numPools]
      have := (hsetup.slot d hd).1
      omega
    have hne : d ≠ s.pool := fun h => hsetup.usable_ne_dev (hw.outside hin) hd h.symm
    dsimp only
    rw [htarget, leaveFor_some]
    · exact .sliceBegun hpc hflag hin hd
    · rw [hnum]
      exact hlt
    · exact hne

theorem devAdvance_trans (hpc : s.pc = .devAdvance) :
    Trans opt g₀ s .run (s.devAdvance opt) := by
  unfold devAdvance
  cases hadv : devfeeAdvanceTarget opt s.g s.now with
  | none => exact .goto (.noTargetLeft hpc)
  | some g =>
    obtain ⟨rfl, hin, hleft⟩ := devfeeAdvanceTarget_eq_some hadv
    exact .targetAdvanced hpc hin hleft

theorem devAbort_trans (hsetup : Setup opt g₀) (hw : Wf g₀ s) (hpc : s.pc = .devAbort) :
    Trans opt g₀ s .run s.devAbort := by
  have hin := hw.pcOk
  simp only [PcOk, hpc] at hin
  obtain ⟨-, u, hu, -⟩ := hw.inSlice hin
  obtain ⟨hlt, hne⟩ := hw.userPool_ne hsetup hin hu
  have htarget : (devfeeAbortSlice s.g s.now).2 = some u := hu
  unfold devAbort
  dsimp only
  rw [htarget, leaveFor_some]
  · exact .sliceAborted hpc hin hu
  · exact hlt
  · exact hne

theorem takeReconnectRequest_trans (hw : Wf g₀ s) {next : Nat} {wrapped : Bool}
    (hpc : s.pc = .handleTake next wrapped) :
    Trans opt g₀ s .run (s.takeReconnectRequest opt next wrapped) := by
  have hok := hw.pcOk
  simp only [PcOk, hpc] at hok
  unfold takeReconnectRequest
  cases hflag : s.ctx.reconnectRequested with
  | true => exact .reconnectTaken hpc
  | false =>
    simp only [Bool.false_eq_true, if_false]
    split
    · rename_i hgo
      unfold failOver
      rw [stratumSwitchToPool_of_usable hw (next_usable hok.2.1 hgo.1) hgo.1]
      exact .failedOver hpc hflag hgo.1 hgo.2
    · rename_i hstay
      have hwrap : next = s.pool ∨ wrapped = true := by
        by_cases hn : next = s.pool
        · exact Or.inl hn
        · refine Or.inr ?_
          by_contra hf
          exact hstay ⟨hn, by simpa using hf⟩
      unfold retryLater
      dsimp only [record]
      split
      · rename_i hlimit
        exact .retryLimit hpc hflag hwrap hlimit
      · rename_i hlimit
        exact .retryPause hpc hflag hwrap hlimit

theorem endPause_trans (hw : Wf g₀ s) {next : Nat} (hpc : s.pc = .pausing next) :
    Trans opt g₀ s .run (s.endPause next) := by
  have hok := hw.pcOk
  simp only [PcOk, hpc] at hok
  unfold endPause
  split
  · rename_i hne
    rw [stratumSwitchToPool_of_usable hw (next_usable hok.2.1 hne) hne]
    exact .resumedNext hpc hne
  · rename_i heq
    exact .resumed hpc (not_not.mp heq)

theorem stratumOpenPoolConnection_trans (hpc : s.pc = .head) :
    Trans opt g₀ s .run s.stratumOpenPoolConnection := by
  have hctx : s.recordAttempt.ctx = s.g.ctx s.pool := rfl
  unfold stratumOpenPoolConnection
  simp only [hctx]
  split
  · rename_i hurl
    exact .connecting hpc hurl
  · rename_i hurl
    have hpool : (s.recordAttempt.g.pools s.recordAttempt.pool).url = (s.g.pools s.pool).url := rfl
    by_cases hset : (s.g.pools s.pool).url = ""
    · simp only [stratumSetUrl, hpool, hset, if_true]
      exact .noUrl hpc
    · simp only [stratumSetUrl, hpool, hset, if_false]
      exact .connectingFresh hpc (not_not.mp hurl)

theorem run_trans (hsetup : Setup opt g₀) (hw : Wf g₀ s) (h : s.run opt = some s') :
    Trans opt g₀ s .run s' := by
  unfold run at h
  cases hpc : s.pc <;> simp only [hpc, Option.some.injEq, reduceCtorEq] at h <;> subst h
  case head =>
    split
    · rename_i habort
      exact .exit habort
    · exact stratumOpenPoolConnection_trans hpc
  case opened => exact .sessionOpened hpc
  case loopEntry => exact .enterLoop hpc
  case loopAbort =>
    split
    · exact .goto (.loopAborted hpc)
    · exact .goto (.loopToFlag hpc)
  case loopFlag =>
    split
    · exact .goto (.loopFlagSet hpc)
    · rename_i hflag
      exact .goto (.loopToDue hpc (by simpa using hflag))
  case loopDue =>
    split
    · exact .goto (.loopDueNow hpc)
    · exact .goto (.loopToRecv hpc)
  case exitDue =>
    split
    · rename_i hdue
      exact .goto (.exitToAbort hpc hdue)
    · exact .goto (.exitNotDue hpc)
  case exitAbort =>
    split
    · exact .goto (.exitAborted hpc)
    · exact .goto (.exitToFlag hpc)
  case exitFlag =>
    split
    · exact .goto (.exitFlagSet hpc)
    · rename_i hflag
      exact sliceBoundary_trans hsetup hw hpc (by simpa using hflag)
  case exitDev =>
    split
    · rename_i hdev
      rw [Bool.and_eq_true] at hdev
      exact .goto (.devLost hpc hdev.1)
    · rename_i hdev
      exact .goto (.userLost hpc (by simpa using hdev))
  case devAdvance => exact devAdvance_trans hpc
  case devAbort => exact devAbort_trans hsetup hw hpc
  case handling => exact .handle hpc
  case handleAbort next wrapped =>
    split
    · rename_i habort
      exact .exit habort
    · rename_i hrun
      exact .failed hpc (by simpa using hrun)
  case handleTake next wrapped => exact takeReconnectRequest_trans hw hpc
  case pausing next =>
    split
    · rename_i habort
      exact .exit habort
    · exact endPause_trans hw hpc

theorem connect_trans {ok : Bool} {a : Act} (hpc : s.pc = .connecting) :
    Trans opt g₀ s a (s.connect opt ok) := by
  -- without a scheme the context is left alone, which is a write of its own `use_tls`
  have hsame : s.g.modifyCtx s.pool (fun _ => s.ctx) =
      s.g.modifyCtx s.pool fun c => { c with useTls := s.ctx.useTls } := rfl
  unfold connect stratumConnect
  cases hscheme : strstr "://".toList s.ctx.url.toList with
  | none =>
    simp only [hsame, Bool.false_eq_true, if_false]
    exact .connectFailed s.ctx.useTls hpc
  | some rest =>
    cases ok with
    | true => exact .connected (stratumUrlIsTls s.ctx.url) hpc
    | false => exact .connectFailed (stratumUrlIsTls s.ctx.url) hpc

theorem requestFailed_trans {r : Request} {a : Act} (hpc : s.pc = .waiting r) :
    Trans opt g₀ s a (s.requestFailed r) := by
  cases r with
  | extranonceSubscribe => exact .goto (.handshakeDone hpc)
  | subscribe attempt => exact .requestFailed hpc (by simp)
  | authorize => exact .requestFailed hpc (by simp)
  | login => exact .requestFailed hpc (by simp)

theorem requestAnswered_trans {r : Request} {a : Act} {reply : Json} {outcome : HandlerOutcome}
    (hpc : s.pc = .waiting r) (hconn : s.connected = true) :
    Trans opt g₀ s a (s.requestAnswered reply outcome r) := by
  cases r with
  | subscribe attempt =>
    simp only [requestAnswered]
    split
    · split
      · exact .goto (.nextRequest hpc (by simp) hconn)
      · exact requestFailed_trans hpc
    · split
      · exact requestFailed_trans hpc
      · exact .goto (.nextRequest hpc (by simp) hconn)
  | authorize =>
    simp only [requestAnswered]
    split
    · exact requestFailed_trans hpc
    · exact .goto (.nextRequest hpc (by simp) hconn)
  | extranonceSubscribe => exact .goto (.handshakeDone hpc)
  | login =>
    simp only [requestAnswered]
    split
    · exact requestFailed_trans hpc
    · exact .loggedIn outcome.publishes hpc hconn

/-- What dispatching a message does, before the program point is set. -/
theorem dispatch_cases (hpool : s.pool < s.g.numPools) (val : Json) (outcome : HandlerOutcome) :
    (∃ url, acceptedRedirect (s.g.ctx s.pool) val = some url ∧
      s.dispatch val outcome =
        (({ s with g := s.g.setPool s.pool ((s.g.pools s.pool).redirect url) }.record
          (.redirected s.pool url)).stratumDisconnect, .ok)) ∨
    ∃ publishes status, s.dispatch val outcome = (s.recordPublished publishes, status) := by
  unfold dispatch acceptedRedirect
  split
  · rw [stratumReconnect_eq_map _ hpool]
    cases hurl : stratumReconnectUrl (s.g.ctx s.pool) (val.objectGet "params") with
    | none => exact Or.inr ⟨false, .fatal, rfl⟩
    | some url =>
      have hctx : ((s.g.setPool s.pool ((s.g.pools s.pool).redirect url)).ctx s.pool).url = url := by
        simp [Globals.ctx, PoolInfos.redirect]
      refine Or.inl ⟨url, rfl, ?_⟩
      simp [record, hctx]
  · exact Or.inr ⟨_, _, rfl⟩

theorem receiveLine_trans (hpool : s.pool < s.g.numPools) {val : Option Json}
    {outcome : HandlerOutcome} (h : s.receiveLine val outcome = some s') :
    Trans opt g₀ s (.line val outcome) s' := by
  unfold receiveLine at h
  split at h
  · rename_i hconn
    cases hpc : s.pc <;> cases val <;> simp only [hpc, Option.some.injEq, reduceCtorEq] at h
    case waiting.none r => exact h ▸ requestFailed_trans hpc
    case waiting.some r val =>
      split at h
      · rw [Option.some.injEq] at h
        exact h ▸ requestAnswered_trans hpc hconn
      · rename_i hreply
        rw [Option.some.injEq] at h
        rcases dispatch_cases hpool val outcome with ⟨url, hurl, hs⟩ | ⟨publishes, status, hs⟩
        · have hstay : Trans opt g₀ s (.line (some val) outcome) _ :=
            .redirected (Or.inl ⟨r, hpc, rfl⟩) hconn (by simp [hpc, hreply]) hurl
          rw [← h, hs]
          simpa [Svc.goto, stratumDisconnect, record, hpc] using hstay
        · have hstay : Trans opt g₀ s (.line (some val) outcome) _ :=
            .message publishes (Or.inl ⟨r, hpc, rfl⟩) hconn
          rw [← h, hs]
          simpa [Svc.goto, recordPublished, hpc] using hstay
    case loopRecv.none => exact h ▸ .goto (.loopLost hpc)
    case loopRecv.some val =>
      rcases dispatch_cases hpool val outcome with ⟨url, hurl, hs⟩ | ⟨publishes, status, hs⟩
      · rw [← h, hs]
        exact .redirected (Or.inr ⟨hpc, rfl⟩) hconn (by simp [hpc]) hurl
      · rw [← h, hs]
        dsimp only
        split
        · exact .message publishes (Or.inr ⟨hpc, Or.inr rfl⟩) hconn
        · exact .message publishes (Or.inr ⟨hpc, Or.inl rfl⟩) hconn
  · exact absurd h (by simp)

theorem receiveFailed_trans {a : Act} (h : s.receiveFailed = some s') : Trans opt g₀ s a s' := by
  unfold receiveFailed at h
  cases hpc : s.pc <;> simp only [hpc, Option.some.injEq, reduceCtorEq] at h
  case waiting r => exact h ▸ requestFailed_trans hpc
  case loopRecv => exact h ▸ .goto (.loopLost hpc)

theorem Wf.pool_lt (hsetup : Setup opt g₀) (hw : Wf g₀ s) : s.pool < s.g.numPools := by
  rw [hw.same.numPools]
  cases hin : s.g.devfee.inSlice with
  | true =>
    have := (hsetup.slot _ (hw.inSlice hin).1).1
    omega
  | false => exact minerPoolIsUsable_lt (hw.outside hin)

/-- Every step from a well-formed state is one of the listed ones. -/
theorem step_trans (hsetup : Setup opt g₀) (hw : Wf g₀ s) {a : Act} (h : s.step opt a = some s') :
    Trans opt g₀ s a s' := by
  cases a with
  | run => exact run_trans hsetup hw h
  | connect ok =>
    simp only [step] at h
    split at h
    · rename_i hpc
      rw [Option.some.injEq] at h
      exact h ▸ connect_trans hpc
    · exact absurd h (by simp)
  | line val outcome => exact receiveLine_trans (hw.pool_lt hsetup) h
  | recvFailed => exact receiveFailed_trans h
  | idle =>
    simp only [step] at h
    split at h
    · rename_i hpc
      rw [Option.some.injEq] at h
      exact h ▸ .goto (.loopAgain hpc)
    · exact absurd h (by simp)
  | minerRaise p =>
    simp only [step, Option.some.injEq] at h
    exact h ▸ .minerRaised p
  | requestAbort =>
    simp only [step, Option.some.injEq] at h
    exact h ▸ .abortRequested
  | clock t =>
    simp only [step, Option.some.injEq] at h
    exact h ▸ .clock t

/-! ## The steps keep the invariant -/

/-- Environment steps move no program point; an abort request only adds to what holds there. -/
theorem PcOk.mono {t : Svc} (hok : PcOk g₀ s) (hpc : t.pc = s.pc) (hpool : t.pool = s.pool)
    (hin : t.g.devfee.inSlice = s.g.devfee.inSlice)
    (hmark : t.retryCycleStartPoolIndex = s.retryCycleStartPoolIndex)
    (habort : s.g.abortFlag = true → t.g.abortFlag = true) : PcOk g₀ t := by
  unfold PcOk at hok ⊢
  rw [hpc, hpool, hin, hmark]
  cases hs : s.pc <;> simp only [hs] at hok ⊢
  all_goals first
    | exact hok
    | exact fun h => habort (hok h)
    | exact ⟨fun h => habort (hok.1 h), hok.2⟩

/-- A state change that keeps the setup, the pool and the slice keeps the invariant when the new
program point allows it. -/
theorem Wf.of_same_slice {t : Svc} (hw : Wf g₀ s) (same : SameSetup s.g t.g)
    (hcur : t.g.curPooln = s.g.curPooln) (hpool : t.pool = s.pool)
    (hin : t.g.devfee.inSlice = s.g.devfee.inSlice)
    (huser : t.g.devfee.userPoolIndex = s.g.devfee.userPoolIndex) (hpc : PcOk g₀ t) : Wf g₀ t where
  same := hw.same.trans same
  cur := by rw [hcur, hpool]; exact hw.cur
  inSlice := by rw [hin, hpool, huser]; exact hw.inSlice
  outside := by rw [hin, hpool]; exact hw.outside
  pcOk := hpc

/-- The thread ends up on a usable pool outside a slice, at the head of the loop. -/
theorem Wf.of_user_pool {t : Svc} {q : Nat} (hw : Wf g₀ s) (same : SameSetup s.g t.g)
    (hq : minerPoolIsUsable g₀ q = true) (hin : t.g.devfee.inSlice = false) :
    Wf g₀ ((t.moveTo q).goto .head) where
  same := (hw.same.trans same).trans (t.moveTo_same q)
  cur := rfl
  inSlice := fun h => absurd (hin.symm.trans h) (by decide)
  outside := fun _ => hq
  pcOk := trivial

section keep
variable (hsetup : Setup opt g₀) (hw : Wf g₀ s)
include hsetup hw

theorem Goto.wf {pc : Pc} (h : Goto s pc) : Wf g₀ (s.goto pc) := by
  have hdev := hw.onDevPool hsetup
  have hok := hw.pcOk
  refine ⟨hw.same, hw.cur, hw.inSlice, hw.outside, ?_⟩
  cases h with
  | exitToAbort hpc hdue =>
    -- a boundary is due only when the fee is on
    show g₀.devfee.enabled = true
    rw [← hw.same.enabled]
    by_contra hoff
    simp [devfeeTransitionDue, devfeeSecondsUntilTransition, hoff] at hdue
  | exitToFlag hpc => simpa only [PcOk, hpc, Svc.goto] using hok
  | devLost hpc honDev => exact hdev.symm.trans honDev
  | userLost hpc habort =>
    intro hin
    exact habort (hdev.trans hin)
  | noTargetLeft hpc => simpa only [PcOk, hpc, Svc.goto] using hok
  | _ => trivial

theorem openFailed_wf : Wf g₀ s.openFailed := by
  have hdev := hw.onDevPool hsetup
  refine hw.of_same_slice (SameSetup.refl _) rfl rfl rfl rfl ?_
  unfold openFailed
  cases hin : s.g.devfee.inSlice with
  | true =>
    rw [if_pos (hdev.trans hin)]
    exact hin
  | false =>
    rw [if_neg (by rw [hdev, hin]; decide)]
    intro h
    exact absurd (hin.symm.trans h) (by decide)

/-- The pool of a running session is the disabled dev slot or has a url. -/
theorem Wf.pool_redirectable : (s.g.pools s.pool).disabled = true ∨ (s.g.pools s.pool).url ≠ "" := by
  cases hin : s.g.devfee.inSlice with
  | true =>
    left
    rw [hw.same.disabled]
    exact (hsetup.slot _ (hw.inSlice hin).1).2
  | false =>
    right
    have husable := hw.outside hin
    rw [← hw.same.usable] at husable
    simp only [minerPoolIsUsable, Bool.and_eq_true, bne_iff_ne] at husable
    exact husable.2

theorem sliceBegun_wf {d : Nat} (hin : s.g.devfee.inSlice = false)
    (hd : g₀.devfee.devPoolIndex = some d) (log : List Event) :
    Wf g₀ (({ s with
      g := (devfeeTakeTransition opt s.g s.now s.pool).1
      log := log }.stratumDisconnect.moveTo d).goto .head) := by
  have hdisabled : ∀ d, s.g.devfee.devPoolIndex = some d → (s.g.pools d).disabled = true :=
    fun d hd => ((hsetup.of_same hw.same).slot d hd).2
  have hbegun : (devfeeTakeTransition opt s.g s.now s.pool).1.devfee.inSlice = true ∧
      (devfeeTakeTransition opt s.g s.now s.pool).1.devfee.userPoolIndex = some s.pool := by
    simp only [devfeeTakeTransition, hin, Bool.false_eq_true, if_false]
    split <;> simp
  refine ⟨?_, rfl, fun _ => ⟨hd, s.pool, hbegun.2, hw.outside hin⟩, ?_, trivial⟩
  · have htake : SameSetup s.g (devfeeTakeTransition opt s.g s.now s.pool).1 :=
      devfeeTakeTransition_same hdisabled
    refine (hw.same.trans htake).trans ?_
    exact moveTo_same { s with g := (devfeeTakeTransition opt s.g s.now s.pool).1 } d
  · intro hout
    exact absurd (hbegun.1.symm.trans hout) (by decide)

theorem Trans.wf {a : Act} (h : Trans opt g₀ s a s') : Wf g₀ s' := by
  have hok := hw.pcOk
  have hdisabled : ∀ d, s.g.devfee.devPoolIndex = some d → (s.g.pools d).disabled = true :=
    fun d hd => ((hsetup.of_same hw.same).slot d hd).2
  cases h with
  | goto h => exact h.wf hsetup hw
  | exit _ =>
    have same := SameSetup.modifyCtx s.g s.pool fun c => { c with threadActive := false }
    exact hw.of_same_slice same rfl rfl rfl rfl trivial
  | connecting _ _ => exact hw.of_same_slice (SameSetup.refl _) rfl rfl rfl rfl trivial
  | connectingFresh _ _ =>
    have same := SameSetup.modifyCtx s.g s.pool fun c => { c with url := (s.g.pools s.pool).url }
    exact hw.of_same_slice same rfl rfl rfl rfl trivial
  | noUrl hpc =>
    apply openFailed_wf hsetup
    refine hw.of_same_slice (SameSetup.refl _) rfl rfl rfl rfl ?_
    simp only [PcOk, recordAttempt, hpc]
  | connected tls _ =>
    have same := SameSetup.modifyCtx s.g s.pool fun c => { c with useTls := tls }
    exact hw.of_same_slice same rfl rfl rfl rfl trivial
  | connectFailed tls hpc =>
    have same := SameSetup.modifyCtx s.g s.pool fun c => { c with useTls := tls }
    apply openFailed_wf hsetup
    refine hw.of_same_slice same rfl rfl rfl rfl ?_
    simp only [PcOk, hpc]
  | requestFailed hpc _ =>
    apply openFailed_wf hsetup
    refine hw.of_same_slice (SameSetup.refl _) rfl rfl rfl rfl ?_
    simp only [PcOk, stratumDisconnect, hpc]
  | loggedIn _ _ _ => exact hw.of_same_slice (SameSetup.refl _) rfl rfl rfl rfl trivial
  | redirected hpc _ _ hurl =>
    have same := stratumReconnect_same _ (acceptedRedirect_ne_empty hurl)
      (hw.pool_redirectable hsetup)
    refine hw.of_same_slice same rfl rfl rfl rfl ?_
    rcases hpc with ⟨r, -, rfl⟩ | ⟨-, rfl⟩ <;> trivial
  | message _ hpc _ =>
    refine hw.of_same_slice (SameSetup.refl _) rfl rfl rfl rfl ?_
    rcases hpc with ⟨r, -, rfl⟩ | ⟨-, rfl | rfl⟩ <;> trivial
  | sessionOpened _ => exact hw.of_same_slice (SameSetup.refl _) rfl rfl rfl rfl trivial
  | enterLoop _ => exact hw.of_same_slice (SameSetup.refl _) rfl rfl rfl rfl trivial
  | sliceBegun _ _ hin hd => exact sliceBegun_wf hsetup hw hin hd _
  | sliceEnded _ _ hin hu =>
    obtain ⟨-, u, hu', husable⟩ := hw.inSlice hin
    rw [hu, Option.some.injEq] at hu'
    subst hu'
    refine hw.of_user_pool (devfeeTakeTransition_same hdisabled) husable ?_
    simp [stratumDisconnect, devfeeTakeTransition, hin]
  | targetAdvanced _ _ _ =>
    refine hw.of_same_slice (devfeeSetPoolTarget_same _ _ _ hdisabled) ?_ rfl ?_ ?_ trivial
    all_goals simp [Svc.goto, stratumDisconnect]
  | sliceAborted _ hin hu =>
    obtain ⟨-, u, hu', husable⟩ := hw.inSlice hin
    rw [hu, Option.some.injEq] at hu'
    subst hu'
    exact hw.of_user_pool devfeeAbortSlice_same husable rfl
  | handle hpc =>
    simp only [PcOk, hpc] at hok
    exact hw.of_same_slice (SameSetup.refl _) rfl rfl rfl rfl ⟨hok, hw.same.findNext _, rfl⟩
  | failed hpc hrun =>
    simp only [PcOk, hpc] at hok
    have hout : s.g.devfee.inSlice = false := by
      by_contra hin
      rw [Bool.not_eq_false] at hin
      exact absurd (hrun.symm.trans (hok.1 hin)) (by decide)
    exact hw.of_same_slice (SameSetup.refl _) rfl rfl rfl rfl ⟨hout, hok.2⟩
  | reconnectTaken _ =>
    have same := SameSetup.modifyCtx s.g s.pool fun c => { c with reconnectRequested := false }
    exact hw.of_same_slice same rfl rfl rfl rfl trivial
  | failedOver hpc _ hne _ =>
    simp only [PcOk, hpc] at hok
    exact hw.of_user_pool (SameSetup.refl _) (next_usable hok.2.1 hne) hok.1
  | retryLimit _ _ _ _ =>
    have same := (SameSetup.minerRequestAbort s.g).trans
      (SameSetup.modifyCtx _ s.pool fun c => { c with threadActive := false })
    exact hw.of_same_slice same rfl rfl rfl rfl trivial
  | retryPause hpc _ hwrap _ =>
    simp only [PcOk, hpc] at hok
    refine hw.of_same_slice (SameSetup.refl _) rfl rfl rfl rfl ⟨hok.1, hok.2.1, fun hne => ?_⟩
    rcases hwrap with heq | htrue
    · exact absurd heq hne
    · rw [hok.2.2] at htrue
      simp only [Bool.and_eq_true, beq_iff_eq] at htrue
      exact htrue.2
  | resumedNext hpc hne =>
    simp only [PcOk, hpc] at hok
    have huser := hw.of_user_pool (SameSetup.refl _) (next_usable hok.2.1 hne) hok.1
    exact ⟨huser.same, huser.cur, huser.inSlice, huser.outside, trivial⟩
  | resumed _ _ => exact hw.of_same_slice (SameSetup.refl _) rfl rfl rfl rfl trivial
  | minerRaised p =>
    have same := SameSetup.modifyCtx s.g p fun c => { c with reconnectRequested := true }
    exact hw.of_same_slice same rfl rfl rfl rfl (hok.mono rfl rfl rfl rfl id)
  | abortRequested =>
    exact hw.of_same_slice (SameSetup.minerRequestAbort _) rfl rfl rfl rfl
      (hok.mono rfl rfl rfl rfl fun _ => rfl)
  | clock t =>
    exact hw.of_same_slice (SameSetup.refl _) rfl rfl rfl rfl (hok.mono rfl rfl rfl rfl id)

end keep

end steps

end Svc

end PrimoMiner
