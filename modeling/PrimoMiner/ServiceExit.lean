import PrimoMiner.Library.RankedRuns
import PrimoMiner.SessionRuns

/-!
# The end of the service thread

After an abort request the service thread winds up.  Every step of its own brings it nearer to its return,
except that in the handshake it handles a line that is not the reply it waits for; it begins no connection
attempt, to a user pool or on the dev slot; and wherever it stands it can go on without the pool.
-/

namespace PrimoMiner

open Runs

/-- Own steps to the return of the thread once the abort flag is set. -/
def Pc.exitRank : Pc → Nat
  | .exited => 0
  | .head | .handleAbort _ _ | .pausing _ => 1
  | .handling | .devAbort | .handleTake _ _ => 2
  | .devAdvance | .exitDev => 3
  | .exitAbort | .exitFlag => 4
  | .exitDue => 5
  | .loopAbort => 6
  | .loopRecv | .loopEntry => 7
  | .loopDue | .opened => 8
  | .loopFlag => 9
  | .waiting .extranonceSubscribe | .waiting .login => 9
  | .waiting .authorize => 10
  | .waiting (.subscribe attempt) => if attempt = 0 then 12 else 11
  | .connecting => 13

namespace Act

/-- The steps of the service thread; the others are of the mining threads, of the main thread and of the
clock. -/
def own : Act → Bool
  | .run | .connect _ | .line _ _ | .recvFailed | .idle => true
  | .minerRaise _ | .requestAbort | .clock _ => false

def isLine : Act → Bool
  | .line _ _ => true
  | _ => false

theorem isLine_le_own (a : Act) : a.isLine.toNat ≤ a.own.toNat := by
  cases a <;> simp [isLine, own]

end Act

/-- The step takes the thread into `stratum_connect`, for whichever pool it is on. -/
def BeginsAttempt (opt : Options) (s : Svc) (a : Act) : Prop :=
  s.pc ≠ .connecting ∧ ∃ s', s.step opt a = some s' ∧ s'.pc = .connecting

section steps
variable {opt : Options} {s s' : Svc}

/-- A switch keeps the flag whether it is refused or not. -/
theorem switch_abortFlag (h : s.g.abortFlag = true) (target : Option Nat) :
    ((target.bind s.stratumSwitchToPool).getD s).g.abortFlag = true := by
  cases target with
  | none => exact h
  | some next =>
    show ((s.stratumSwitchToPool next).getD s).g.abortFlag = true
    unfold Svc.stratumSwitchToPool
    split
    · exact h
    · exact h

theorem leaveFor_abortFlag (h : s.g.abortFlag = true) (target : Option Nat) :
    (s.leaveFor target).g.abortFlag = true :=
  switch_abortFlag (s := s.stratumDisconnect) h target

theorem openFailed_exitRank (s : Svc) : s.openFailed.pc.exitRank ≤ 3 := by
  rcases s.openFailed_pc with hpc | hpc <;> rw [hpc] <;> decide

theorem devfeeTakeTransition_abortFlag (opt : Options) (g : Globals) (now : Int) (p : Nat) :
    (devfeeTakeTransition opt g now p).1.abortFlag = g.abortFlag := by
  unfold devfeeTakeTransition
  split
  · rfl
  · dsimp only
    split
    · rw [devfeeSetPoolTarget_abortFlag]
    · rfl

/-! ## The steps of the thread on its own -/

theorem sliceBoundary_abortFlag (h : s.g.abortFlag = true) :
    (s.sliceBoundary opt).g.abortFlag = true := by
  unfold Svc.sliceBoundary
  apply leaveFor_abortFlag
  exact (devfeeTakeTransition_abortFlag opt s.g s.now s.pool).trans h

theorem devAdvance_windsUp (h : s.g.abortFlag = true) :
    (s.devAdvance opt).g.abortFlag = true ∧ (s.devAdvance opt).pc.exitRank ≤ 2 := by
  unfold Svc.devAdvance
  split
  · rename_i g hg
    refine ⟨leaveFor_abortFlag ?_ none, Nat.le_succ _⟩
    unfold devfeeAdvanceTarget at hg
    split at hg
    · cases hg
    · split at hg
      · cases hg
      · split at hg
        · cases hg
        · rw [← Option.some.inj hg, devfeeSetPoolTarget_abortFlag]
          exact h
  · exact ⟨h, Nat.le_refl _⟩

theorem devAbort_abortFlag (h : s.g.abortFlag = true) : s.devAbort.g.abortFlag = true := by
  have hended : ({ s with
      g := (devfeeAbortSlice s.g s.now).1
      log := .sliceEnded s.now :: s.log } : Svc).g.abortFlag = true := h
  exact leaveFor_abortFlag hended _

theorem takeReconnectRequest_windsUp (h : s.g.abortFlag = true) (next : Nat) (wrapped : Bool) :
    (s.takeReconnectRequest opt next wrapped).g.abortFlag = true ∧
      (s.takeReconnectRequest opt next wrapped).pc.exitRank ≤ 1 := by
  unfold Svc.takeReconnectRequest
  split
  · exact ⟨h, Nat.le_refl _⟩
  · split
    · unfold Svc.failOver
      split
      · rename_i hswitch
        refine ⟨?_, Nat.le_refl _⟩
        have hmoved := switch_abortFlag h (some next)
        simp only [Option.bind_some, hswitch, Option.getD_some] at hmoved
        exact hmoved
      · exact ⟨h, Nat.zero_le _⟩
    · unfold Svc.retryLater
      dsimp only
      split
      · exact ⟨rfl, Nat.zero_le _⟩
      · exact ⟨h, Nat.le_refl _⟩

/-- A move of the program point alone. -/
theorem goto_windsUp (h : s.g.abortFlag = true) {pc pc' : Pc} (hpc : s.pc = pc)
    (hrank : pc'.exitRank + 1 ≤ pc.exitRank) :
    (s.goto pc').g.abortFlag = true ∧ (s.goto pc').pc.exitRank + 1 ≤ s.pc.exitRank :=
  ⟨h, hpc ▸ hrank⟩

theorem run_windsUp (h : s.g.abortFlag = true) (hrun : s.run opt = some s') :
    s'.g.abortFlag = true ∧ s'.pc.exitRank + 1 ≤ s.pc.exitRank := by
  cases hpc : s.pc with
  | connecting | waiting request | loopRecv | exited => simp [Svc.run, hpc] at hrun
  | head =>
    simp only [Svc.run, hpc, h, if_true] at hrun
    exact Option.some.inj hrun ▸ ⟨h, Nat.le_refl _⟩
  | opened | loopEntry =>
    simp only [Svc.run, hpc] at hrun
    exact Option.some.inj hrun ▸ ⟨h, Nat.le_refl _⟩
  | loopAbort =>
    simp only [Svc.run, hpc, h, if_true] at hrun
    exact Option.some.inj hrun ▸ hpc ▸ goto_windsUp h hpc (by decide)
  | loopFlag =>
    simp only [Svc.run, hpc] at hrun
    rw [← Option.some.inj hrun, ← hpc]
    split <;> exact goto_windsUp h hpc (by decide)
  | loopDue =>
    simp only [Svc.run, hpc] at hrun
    rw [← Option.some.inj hrun, ← hpc]
    split <;> exact goto_windsUp h hpc (by decide)
  | exitDue =>
    simp only [Svc.run, hpc] at hrun
    rw [← Option.some.inj hrun, ← hpc]
    split <;> exact goto_windsUp h hpc (by decide)
  | exitAbort =>
    simp only [Svc.run, hpc, h, if_true] at hrun
    exact Option.some.inj hrun ▸ hpc ▸ goto_windsUp h hpc (by decide)
  | exitFlag =>
    simp only [Svc.run, hpc] at hrun
    rw [← Option.some.inj hrun]
    split
    · exact hpc ▸ goto_windsUp h hpc (by decide)
    · exact ⟨sliceBoundary_abortFlag h, (by decide : 1 + 1 ≤ 4)⟩
  | exitDev =>
    simp only [Svc.run, hpc, h, Bool.not_true, Bool.and_false, Bool.false_eq_true, if_false] at hrun
    exact Option.some.inj hrun ▸ hpc ▸ goto_windsUp h hpc (by decide)
  | devAdvance =>
    simp only [Svc.run, hpc] at hrun
    rw [← Option.some.inj hrun]
    obtain ⟨habort, hrank⟩ := devAdvance_windsUp h
    exact ⟨habort, Nat.succ_le_succ hrank⟩
  | devAbort =>
    simp only [Svc.run, hpc] at hrun
    exact Option.some.inj hrun ▸ ⟨devAbort_abortFlag h, Nat.le_refl _⟩
  | handling =>
    simp only [Svc.run, hpc] at hrun
    exact Option.some.inj hrun ▸ ⟨h, Nat.le_refl _⟩
  | handleAbort next wrapped =>
    simp only [Svc.run, hpc, h, if_true] at hrun
    exact Option.some.inj hrun ▸ ⟨h, Nat.le_refl _⟩
  | handleTake next wrapped =>
    simp only [Svc.run, hpc] at hrun
    rw [← Option.some.inj hrun]
    obtain ⟨habort, hrank⟩ := takeReconnectRequest_windsUp h next wrapped
    exact ⟨habort, Nat.succ_le_succ hrank⟩
  | pausing next =>
    simp only [Svc.run, hpc, h, if_true] at hrun
    exact Option.some.inj hrun ▸ ⟨h, Nat.le_refl _⟩

/-! ## The handshake and the lines -/

theorem handshake_exitRank (opt : Options) : (Pc.waiting opt.handshake).exitRank ≤ 12 := by
  unfold Options.handshake
  split <;> decide

theorem request_exitRank (request : Request) : 9 ≤ (Pc.waiting request).exitRank := by
  cases request with
  | subscribe attempt =>
    show 9 ≤ if attempt = 0 then 12 else 11
    split <;> decide
  | authorize | extranonceSubscribe | login => decide

theorem connect_windsUp (h : s.g.abortFlag = true) (hpc : s.pc = .connecting) (ok : Bool) :
    (s.connect opt ok).g.abortFlag = true ∧ (s.connect opt ok).pc.exitRank + 1 ≤ s.pc.exitRank := by
  rw [hpc]
  unfold Svc.connect
  dsimp only
  split
  · exact ⟨h, Nat.succ_le_succ (handshake_exitRank opt)⟩
  · refine ⟨h, ?_⟩
    have hrank := openFailed_exitRank { s with g := s.g.modifyCtx s.pool fun _ => (stratumConnect s.ctx ok).1 }
    exact Nat.le_trans (Nat.succ_le_succ hrank) (by decide)

theorem requestFailed_windsUp (h : s.g.abortFlag = true) {request : Request} (hpc : s.pc = .waiting request) :
    (s.requestFailed request).g.abortFlag = true ∧
      (s.requestFailed request).pc.exitRank + 1 ≤ s.pc.exitRank := by
  have hbefore := request_exitRank request
  rw [hpc]
  have hfailed : s.stratumDisconnect.openFailed.g.abortFlag = true ∧
      s.stratumDisconnect.openFailed.pc.exitRank + 1 ≤ (Pc.waiting request).exitRank := by
    refine ⟨h, ?_⟩
    have hrank := openFailed_exitRank s.stratumDisconnect
    omega
  cases request with
  | extranonceSubscribe => exact ⟨h, Nat.le_refl _⟩
  | subscribe attempt => exact hfailed
  | authorize => exact hfailed
  | login => exact hfailed

theorem requestAnswered_windsUp (h : s.g.abortFlag = true) {request : Request} (hpc : s.pc = .waiting request)
    (reply : Json) (outcome : HandlerOutcome) :
    (s.requestAnswered reply outcome request).g.abortFlag = true ∧
      (s.requestAnswered reply outcome request).pc.exitRank + 1 ≤ s.pc.exitRank := by
  have hfailed := requestFailed_windsUp h hpc
  cases request with
  | subscribe attempt =>
    unfold Svc.requestAnswered
    dsimp only
    split
    · split
      · rename_i hfirst
        have hzero : attempt = 0 := by omega
        rw [hpc, hzero]
        exact ⟨h, Nat.le_refl _⟩
      · exact hfailed
    · split
      · exact hfailed
      · refine goto_windsUp h hpc ?_
        show 10 + 1 ≤ if attempt = 0 then 12 else 11
        split <;> decide
  | authorize =>
    unfold Svc.requestAnswered
    dsimp only
    split
    · exact hfailed
    · exact goto_windsUp h hpc (by decide)
  | extranonceSubscribe => exact goto_windsUp h hpc (by decide)
  | login =>
    unfold Svc.requestAnswered
    dsimp only
    split
    · exact hfailed
    · rw [hpc]
      exact ⟨h, Nat.le_refl _⟩

/-- A line that is not awaited leaves the thread where it is. -/
theorem dispatch_windsUp (h : s.g.abortFlag = true) (val : Json) (outcome : HandlerOutcome) :
    (s.dispatch val outcome).1.g.abortFlag = true ∧ (s.dispatch val outcome).1.pc = s.pc := by
  unfold Svc.dispatch
  split
  · split
    · rename_i g hg
      have habort : g.abortFlag = true := by
        unfold stratumReconnect at hg
        split at hg
        · cases hg
        · split at hg
          · cases hg
          · split at hg
            · rw [← Option.some.inj hg]
              exact h
            · rw [← Option.some.inj hg]
              exact h
      exact ⟨habort, rfl⟩
    · exact ⟨h, rfl⟩
  · exact ⟨h, rfl⟩

theorem receiveLine_windsUp (h : s.g.abortFlag = true) {val : Option Json} {outcome : HandlerOutcome}
    (hline : s.receiveLine val outcome = some s') :
    s'.g.abortFlag = true ∧ s'.pc.exitRank ≤ s.pc.exitRank := by
  unfold Svc.receiveLine at hline
  split at hline
  · split at hline
    · rename_i hpc
      obtain ⟨habort, hrank⟩ := requestFailed_windsUp h hpc
      exact Option.some.inj hline ▸ ⟨habort, by omega⟩
    · rename_i request val hpc
      split at hline
      · obtain ⟨habort, hrank⟩ := requestAnswered_windsUp h hpc val outcome
        exact Option.some.inj hline ▸ ⟨habort, by omega⟩
      · obtain ⟨habort, hsame⟩ := dispatch_windsUp h val outcome
        exact Option.some.inj hline ▸ ⟨habort, by rw [hsame]⟩
    · rename_i hpc
      rw [hpc]
      exact Option.some.inj hline ▸ ⟨h, (by decide : 5 ≤ 7)⟩
    · rename_i val hpc
      have hdispatched := (dispatch_windsUp h val outcome).1
      dsimp only at hline
      generalize s.dispatch val outcome = dispatched at hline hdispatched
      rw [← Option.some.inj hline, hpc]
      refine ⟨hdispatched, ?_⟩
      show (if dispatched.2 = .fatal then Pc.exitDue else .loopAbort).exitRank ≤ 7
      split <;> decide
    · cases hline
  · cases hline

theorem receiveFailed_windsUp (h : s.g.abortFlag = true) (hfailed : s.receiveFailed = some s') :
    s'.g.abortFlag = true ∧ s'.pc.exitRank + 1 ≤ s.pc.exitRank := by
  unfold Svc.receiveFailed at hfailed
  split at hfailed
  · rename_i request hpc
    exact Option.some.inj hfailed ▸ requestFailed_windsUp h hpc
  · rename_i hpc
    exact Option.some.inj hfailed ▸ goto_windsUp h hpc (by decide)
  · cases hfailed

theorem step_windsUp (h : s.g.abortFlag = true) {a : Act} (hstep : s.step opt a = some s') :
    s'.g.abortFlag = true ∧ s'.pc.exitRank + a.own.toNat ≤ s.pc.exitRank + a.isLine.toNat := by
  cases a with
  | run => exact run_windsUp h hstep
  | connect ok =>
    simp only [Svc.step] at hstep
    split at hstep
    · rename_i hpc
      exact Option.some.inj hstep ▸ connect_windsUp h hpc ok
    · cases hstep
  | line val outcome =>
    obtain ⟨habort, hrank⟩ := receiveLine_windsUp h hstep
    exact ⟨habort, Nat.succ_le_succ hrank⟩
  | recvFailed => exact receiveFailed_windsUp h hstep
  | idle =>
    simp only [Svc.step] at hstep
    split at hstep
    · rename_i hpc
      exact Option.some.inj hstep ▸ goto_windsUp h hpc (by decide)
    · cases hstep
  | minerRaise p =>
    obtain rfl := Option.some.inj hstep
    exact ⟨h, Nat.le_refl _⟩
  | requestAbort =>
    obtain rfl := Option.some.inj hstep
    exact ⟨rfl, Nat.le_refl _⟩
  | clock time =>
    obtain rfl := Option.some.inj hstep
    exact ⟨h, Nat.le_refl _⟩

/-- The thread never waits for the pool alone: a connect and a receive can fail. -/
theorem own_step_enabled (opt : Options) (hpc : s.pc ≠ .exited) :
    ∃ a : Act, a.own = true ∧ a.isLine = false ∧ (s.step opt a).isSome = true := by
  cases hat : s.pc with
  | exited => exact absurd hat hpc
  | connecting => exact ⟨.connect false, rfl, rfl, by simp [Svc.step, hat]⟩
  | waiting request => exact ⟨.recvFailed, rfl, rfl, by simp [Svc.step, Svc.receiveFailed, hat]⟩
  | loopRecv => exact ⟨.recvFailed, rfl, rfl, by simp [Svc.step, Svc.receiveFailed, hat]⟩
  | _ => exact ⟨.run, rfl, rfl, by simp [Svc.step, Svc.run, hat]⟩

/-- The connect is the point farthest from the return. -/
theorem exitRank_of_ne {pc : Pc} (hpc : pc ≠ .connecting) : pc.exitRank ≤ 12 := by
  cases pc with
  | connecting => exact absurd rfl hpc
  | waiting request =>
    cases request with
    | subscribe attempt =>
      show (if attempt = 0 then 12 else 11) ≤ 12
      split <;> decide
    | authorize | extranonceSubscribe | login => decide
  | handleAbort next wrapped => exact (by decide : 1 ≤ 12)
  | handleTake next wrapped => exact (by decide : 2 ≤ 12)
  | pausing next => exact (by decide : 1 ≤ 12)
  | _ => decide

theorem exitRank_le (pc : Pc) : pc.exitRank ≤ 13 := by
  by_cases hpc : pc = .connecting
  · rw [hpc]
    exact Nat.le_refl _
  · exact Nat.le_succ_of_le (exitRank_of_ne hpc)

/-- No step leads away from the return, so none leads into a connect. -/
theorem not_beginsAttempt (h : s.g.abortFlag = true) (a : Act) : ¬ BeginsAttempt opt s a := by
  rintro ⟨hpc, s', hstep, hpc'⟩
  have hrank := (step_windsUp h hstep).2
  have hbefore := exitRank_of_ne hpc
  have hown := a.isLine_le_own
  have hconnecting : s'.pc.exitRank = 13 := by rw [hpc']; rfl
  omega

end steps

/-- From any state of the service thread in which an abort has been requested, and however the pool, the
mining threads and the clock go on: the thread takes at most thirteen steps and one for each line it is
sent, it begins no connection attempt, and until it has returned it can go on without another line. -/
theorem service_exits_after_abort {opt : Options} {s s' : Svc} (habort : s.g.abortFlag = true)
    {acts : List Act} (hrun : exec (Svc.step opt) s acts = some s') :
    acts.countP Act.own ≤ 13 + acts.countP Act.isLine ∧
      AllSteps (Svc.step opt) (fun t a => ¬ BeginsAttempt opt t a) s acts ∧
      (s'.pc ≠ .exited → ∃ a : Act, a.own = true ∧ a.isLine = false ∧ (s'.step opt a).isSome = true) := by
  have hrank : s'.pc.exitRank + acts.countP Act.own ≤ s.pc.exitRank + acts.countP Act.isLine :=
    (exec_ranked (I := fun t : Svc => t.g.abortFlag = true) (Q := fun _ => True)
      (fun t a t' ht _ hstep => step_windsUp ht hstep) habort (fun _ _ => trivial) hrun).2
  have hle := exitRank_le s.pc
  refine ⟨by omega, ?_, own_step_enabled opt⟩
  exact AllSteps.of_invariant (I := fun t : Svc => t.g.abortFlag = true)
    (fun t a t' ht hstep => (step_windsUp ht hstep).1) (fun t a ht => not_beginsAttempt ht a) habort

open Scenario in
/-- An abort while the thread waits for the reply to its subscription. -/
theorem service_exits_after_abort_handshake :
    ∃ s s', (startup verus pools 0 0).bind (fun s₀ =>
        exec (Svc.step verus) s₀ [.run, .connect true, .requestAbort]) = some s ∧
      exec (Svc.step verus) s [.recvFailed, .run, .run] = some s' ∧ s'.pc = .exited ∧
      AllSteps (Svc.step verus) (fun t a => ¬ BeginsAttempt verus t a) s [.recvFailed, .run, .run] := by
  have heval : ((startup verus pools 0 0).bind fun s₀ =>
      (exec (Svc.step verus) s₀ [.run, .connect true, .requestAbort]).bind fun s =>
        (exec (Svc.step verus) s [.recvFailed, .run, .run]).map fun s' => (s.g.abortFlag, s'.pc)) =
      some (true, .exited) := by decide
  obtain ⟨s₀, hstart, hrest⟩ := Option.bind_eq_some_iff.mp heval
  obtain ⟨s, hrun, hrest⟩ := Option.bind_eq_some_iff.mp hrest
  obtain ⟨s', hmore, hend⟩ := Option.map_eq_some_iff.mp hrest
  simp only [Prod.mk.injEq] at hend
  refine ⟨s, s', ?_, hmore, hend.2, (service_exits_after_abort hend.1 hmore).2.1⟩
  rw [hstart]
  exact hrun

end PrimoMiner
