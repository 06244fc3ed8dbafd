import PrimoMiner.SessionRuns
import PrimoMiner.Library.EventLog

/-!
# The fee's duty cycle

`next_transition` is the start of the next slice outside a slice and the end of the slice inside
one.  The invariant `Duty` says where it stands relative to the slices begun and ended so far; it
holds as long as the clock does not go back.  The cast of the remaining time to `int` is harmless
there, since a boundary is never more than one cycle away.
-/

namespace PrimoMiner

open Runs EventLog

def beganAt : Event → Option Int
  | .sliceBegan t => some t
  | _ => none

def endedAt : Event → Option Int
  | .sliceEnded t => some t
  | _ => none

/-- The newest event, if it is the start of a slice, keeps its distance from the start of the
clock, from the last end of a slice and from the last start. -/
def SliceSpaced (begin slice cycle : Int) : List Event → Prop
  | .sliceBegan t :: before =>
    begin + slice ≤ t ∧ (∀ e, lastOf endedAt before = some e → e + cycle ≤ t) ∧
      ∀ t', lastOf beganAt before = some t' → t' + cycle ≤ t
  | _ => True

def clockReading : Act → Option Int
  | .clock t => some t
  | _ => none

/-- A clock reading of the step does not go back. -/
def ClockForward (s : Svc) (a : Act) : Prop := s.now ≤ (clockReading a).getD s.now

instance (s : Svc) (a : Act) : Decidable (ClockForward s a) :=
  inferInstanceAs (Decidable (s.now ≤ (clockReading a).getD s.now))

theorem castInt_eq_self {t : Int} (hpos : 0 ≤ t) (hlt : t < 2 ^ 31) : castInt t = t := by
  unfold castInt
  rw [Int.bmod_eq_of_le] <;> omega

/-- With a boundary at most one cycle away, a transition that is due has been reached. -/
theorem devfeeTransitionDue_reached {opt : Options} {g : Globals} (hsetup : Setup opt g) {now : Int}
    (hbound : g.devfee.nextTransition ≤ now + g.devfee.cycleSeconds)
    (hdue : devfeeTransitionDue g now = true) : g.devfee.nextTransition ≤ now := by
  unfold devfeeTransitionDue devfeeSecondsUntilTransition at hdue
  by_contra hlater
  split at hdue
  · rename_i hon
    have hcadence := hsetup.cadence hon
    rw [castInt_eq_self (by omega) (by omega), beq_iff_eq] at hdue
    omega
  · exact absurd hdue (by decide)

structure Duty (g₀ : Globals) (begin : Int) (s : Svc) : Prop where
  running : s.g.devfee.inSlice = true → ∃ t, lastOf beganAt s.log = some t ∧
    s.g.devfee.nextTransition = t + g₀.devfee.sliceSeconds ∧ t ≤ s.now
  resting : s.g.devfee.inSlice = false →
    begin + g₀.devfee.sliceSeconds ≤ s.g.devfee.nextTransition ∧
    s.g.devfee.nextTransition ≤ s.now + g₀.devfee.cycleSeconds ∧
    (∀ e, lastOf endedAt s.log = some e → e + g₀.devfee.cycleSeconds ≤ s.g.devfee.nextTransition) ∧
    ∀ t, lastOf beganAt s.log = some t → t + g₀.devfee.cycleSeconds ≤ s.g.devfee.nextTransition
  due : s.pc = .exitAbort ∨ s.pc = .exitFlag → s.g.devfee.nextTransition ≤ s.now
  begun : begin ≤ s.now
  spaced : Always (SliceSpaced begin g₀.devfee.sliceSeconds g₀.devfee.cycleSeconds) s.log

section duty
variable {opt : Options} {g₀ : Globals} {begin : Int} {s s' : Svc}

/-- A step that begins and ends no slice and lets the clock run on keeps the invariant. -/
theorem Duty.frame (hd : Duty g₀ begin s) (hin : s'.g.devfee.inSlice = s.g.devfee.inSlice)
    (hnext : s'.g.devfee.nextTransition = s.g.devfee.nextTransition) (hnow : s.now ≤ s'.now)
    (es : List Event) (hlog : s'.log = es ++ s.log)
    (hes : ∀ e ∈ es, beganAt e = none ∧ endedAt e = none)
    (hpc : s'.pc = .exitAbort ∨ s'.pc = .exitFlag → s.g.devfee.nextTransition ≤ s'.now) :
    Duty g₀ begin s' where
  running := by
    rw [hin, hnext, hlog, lastOf_append_of_none _ fun e he => (hes e he).1]
    intro h
    obtain ⟨t, hlast, hend, hle⟩ := hd.running h
    exact ⟨t, hlast, hend, Int.le_trans hle hnow⟩
  resting := by
    rw [hin, hnext, hlog, lastOf_append_of_none _ fun e he => (hes e he).1,
      lastOf_append_of_none _ fun e he => (hes e he).2]
    intro h
    obtain ⟨hfirst, hbound, hended, hbegan⟩ := hd.resting h
    exact ⟨hfirst, by omega, hended, hbegan⟩
  due := by
    rw [hnext]
    exact hpc
  begun := Int.le_trans hd.begun hnow
  spaced := by
    rw [hlog]
    apply hd.spaced.append
    intro e he l _
    cases e with
    | sliceBegan t => exact absurd (hes _ he).1 (by simp [beganAt])
    | _ => trivial

/-- A boundary is never further away than one cycle. -/
theorem Duty.next_le (hsetup : Setup opt g₀) (hw : Svc.Wf g₀ s) (hd : Duty g₀ begin s)
    (hon : g₀.devfee.enabled = true) :
    s.g.devfee.nextTransition ≤ s.now + s.g.devfee.cycleSeconds := by
  have hcadence := hsetup.cadence hon
  rw [hw.same.cycleSeconds]
  cases hin : s.g.devfee.inSlice with
  | true =>
    obtain ⟨t, -, hend, hle⟩ := hd.running hin
    omega
  | false => exact (hd.resting hin).2.1

theorem Duty.sliceBegun (hw : Svc.Wf g₀ s) (hd : Duty g₀ begin s) {d : Nat}
    (hpc : s.pc = .exitFlag) (hin : s.g.devfee.inSlice = false) :
    Duty g₀ begin
      (({ s with
          g := (devfeeTakeTransition opt s.g s.now s.pool).1
          log := s.transitionEvents ++ s.log }.stratumDisconnect.moveTo d).goto .head) := by
  have hdue := hd.due (Or.inr hpc)
  obtain ⟨hfirst, -, hended, hbegan⟩ := hd.resting hin
  have hdevfee : (devfeeTakeTransition opt s.g s.now s.pool).1.devfee.inSlice = true ∧
      (devfeeTakeTransition opt s.g s.now s.pool).1.devfee.nextTransition =
        s.now + g₀.devfee.sliceSeconds := by
    rw [← hw.same.sliceSeconds]
    simp only [devfeeTakeTransition, hin, Bool.false_eq_true, if_false]
    split <;> simp
  have hevents : ∃ es, s.transitionEvents = .sliceBegan s.now :: es ∧
      ∀ e ∈ es, beganAt e = none ∧ endedAt e = none := by
    simp only [Svc.transitionEvents, hin, Bool.false_eq_true, if_false]
    split
    · exact ⟨[.targetSet 0], rfl, by simp [beganAt, endedAt]⟩
    · exact ⟨[], rfl, by simp⟩
  obtain ⟨es, hes, hquiet⟩ := hevents
  have hlog : (({ s with
      g := (devfeeTakeTransition opt s.g s.now s.pool).1
      log := s.transitionEvents ++ s.log }.stratumDisconnect.moveTo d).goto .head : Svc).log =
      .switched d :: .disconnected s.pool :: .sliceBegan s.now :: (es ++ s.log) := by
    simp [Svc.goto, Svc.stratumDisconnect, hes]
  have hspaced : Always (SliceSpaced begin g₀.devfee.sliceSeconds g₀.devfee.cycleSeconds)
      (.sliceBegan s.now :: (es ++ s.log)) := by
    apply always_cons
    · refine ⟨by omega, ?_, ?_⟩
      · rw [lastOf_append_of_none _ fun e he => (hquiet e he).2]
        intro e he
        exact Int.le_trans (hended e he) hdue
      · rw [lastOf_append_of_none _ fun e he => (hquiet e he).1]
        intro t ht
        exact Int.le_trans (hbegan t ht) hdue
    · apply hd.spaced.append
      intro e he l _
      cases e with
      | sliceBegan t => exact absurd (hquiet _ he).1 (by simp [beganAt])
      | _ => trivial
  refine ⟨fun _ => ⟨s.now, ?_, hdevfee.2, Int.le_refl _⟩, ?_, ?_, hd.begun, ?_⟩
  · rw [hlog]
    rfl
  · intro hout
    exact absurd (hdevfee.1.symm.trans hout) (by decide)
  · intro h
    rcases h with h | h <;> cases h
  · rw [hlog]
    exact always_cons trivial (always_cons trivial hspaced)

/-- Completed or aborted, a slice schedules the next one a full cycle away. -/
theorem Duty.sliceStopped (hd : Duty g₀ begin s) (hin : s.g.devfee.inSlice = true)
    (hsetup : Setup opt g₀) (hon : g₀.devfee.enabled = true) {t : Svc} (es : List Event)
    (hout : t.g.devfee.inSlice = false)
    (hnext : t.g.devfee.nextTransition = s.now + g₀.devfee.cycleSeconds) (hnow : t.now = s.now)
    (hlog : t.log = es ++ .sliceEnded s.now :: s.log)
    (hes : ∀ e ∈ es, beganAt e = none ∧ endedAt e = none) (hpc : t.pc = .head) :
    Duty g₀ begin t := by
  have hcadence := hsetup.cadence hon
  have hbegun := hd.begun
  obtain ⟨b, hlast, -, hle⟩ := hd.running hin
  refine ⟨?_, ?_, ?_, ?_, ?_⟩
  · intro h
    exact absurd (hout.symm.trans h) (by decide)
  · intro _
    rw [hnext, hnow, hlog, lastOf_append_of_none _ fun e he => (hes e he).1,
      lastOf_append_of_none _ fun e he => (hes e he).2]
    refine ⟨by omega, Int.le_refl _, ?_, ?_⟩
    · intro e he
      have hlast : lastOf endedAt (.sliceEnded s.now :: s.log) = some s.now := rfl
      rw [hlast, Option.some.injEq] at he
      omega
    · intro b' hb'
      rw [lastOf_cons_of_none _ rfl, hlast, Option.some.injEq] at hb'
      omega
  · rw [hpc]
    intro h
    rcases h with h | h <;> cases h
  · rw [hnow]
    exact hbegun
  · rw [hlog]
    refine (always_cons ?_ hd.spaced).append ?_
    · trivial
    · intro e he l _
      cases e with
      | sliceBegan t => exact absurd (hes _ he).1 (by simp [beganAt])
      | _ => trivial

/-- One step keeps the invariant when the clock does not go back in it. -/
theorem Duty.step (hsetup : Setup opt g₀) (hw : Svc.Wf g₀ s) (hd : Duty g₀ begin s) {a : Act}
    (hclock : ClockForward s a) (ht : Svc.Trans opt g₀ s a s') : Duty g₀ begin s' := by
  have hnow := Int.le_refl s.now
  have hlost : ∀ t : Svc, t.openFailed.pc = .exitAbort ∨ t.openFailed.pc = .exitFlag → False := by
    intro t h
    rcases t.openFailed_pc with hpc | hpc <;> rw [hpc] at h <;> simp at h
  have hattempt : ∀ e, e = Event.attempted s.pool → beganAt e = none ∧ endedAt e = none := by
    rintro e rfl
    exact ⟨rfl, rfl⟩
  have hpublished : ∀ e, e = Event.published s.pool → beganAt e = none ∧ endedAt e = none := by
    rintro e rfl
    exact ⟨rfl, rfl⟩
  cases ht with
  | goto h =>
    refine hd.frame rfl rfl hnow [] rfl (by simp) ?_
    cases h with
    | exitToAbort hpc hdue =>
      intro _
      have hon : g₀.devfee.enabled = true := by
        rw [← hw.same.enabled]
        by_contra hoff
        simp [devfeeTransitionDue, devfeeSecondsUntilTransition, hoff] at hdue
      exact devfeeTransitionDue_reached (hsetup.of_same hw.same) (hd.next_le hsetup hw hon) hdue
    | exitToFlag hpc => exact fun _ => hd.due (Or.inl hpc)
    | _ => simp [Svc.goto]
  | exit _ => exact hd.frame rfl rfl hnow [] rfl (by simp) (by simp [Svc.exit])
  | connecting _ _ =>
    obtain ⟨es, hlog, hes⟩ := s.recordAttempt_log
    exact hd.frame rfl rfl hnow es hlog (fun e he => hattempt e (hes e he)) (by simp [Svc.goto])
  | connectingFresh _ _ =>
    obtain ⟨es, hlog, hes⟩ := s.recordAttempt_log
    exact hd.frame rfl rfl hnow es hlog (fun e he => hattempt e (hes e he)) (by simp [Svc.goto])
  | noUrl _ =>
    obtain ⟨es, hlog, hes⟩ := s.recordAttempt_log
    exact hd.frame rfl rfl hnow es hlog (fun e he => hattempt e (hes e he))
      fun h => (hlost _ h).elim
  | connected tls _ => exact hd.frame rfl rfl hnow [] rfl (by simp) (by simp [Svc.goto])
  | connectFailed tls _ =>
    exact hd.frame rfl rfl hnow [] rfl (by simp) fun h => (hlost _ h).elim
  | requestFailed _ _ =>
    exact hd.frame rfl rfl hnow [_] rfl (by simp [beganAt, endedAt]) fun h => (hlost _ h).elim
  | loggedIn publishes _ _ =>
    obtain ⟨es, hlog, hes⟩ := s.recordPublished_log publishes
    exact hd.frame rfl rfl hnow es hlog (fun e he => hpublished e (hes e he)) (by simp [Svc.goto])
  | redirected hpc _ _ _ =>
    refine hd.frame rfl rfl hnow [_, _] rfl (by simp [beganAt, endedAt]) ?_
    rcases hpc with ⟨r, -, rfl⟩ | ⟨-, rfl⟩ <;> simp [Svc.goto]
  | message publishes hpc _ =>
    obtain ⟨es, hlog, hes⟩ := s.recordPublished_log publishes
    refine hd.frame rfl rfl hnow es hlog (fun e he => hpublished e (hes e he)) ?_
    rcases hpc with ⟨r, -, rfl⟩ | ⟨-, rfl | rfl⟩ <;> simp [Svc.goto]
  | sessionOpened _ =>
    exact hd.frame rfl rfl hnow [_] rfl (by simp [beganAt, endedAt])
      (by simp [Svc.sessionOpened, Svc.goto])
  | enterLoop _ =>
    exact hd.frame rfl rfl hnow [_] rfl (by simp [beganAt, endedAt])
      (by simp [Svc.enterMessageLoop, Svc.goto])
  | sliceBegun hpc _ hin _ => exact hd.sliceBegun hw hpc hin
  | sliceEnded hpc _ hin _ =>
    have hon := hw.pcOk
    simp only [Svc.PcOk, hpc] at hon
    apply hd.sliceStopped hin hsetup hon [_, _]
    · simp [Svc.goto, Svc.stratumDisconnect, devfeeTakeTransition, hin]
    · simp [Svc.goto, Svc.stratumDisconnect, devfeeTakeTransition, hin, hw.same.cycleSeconds]
    · rfl
    · simp only [Svc.goto, Svc.stratumDisconnect, Svc.moveTo_log, Svc.transitionEvents, hin]
      rfl
    · simp [beganAt, endedAt]
    · rfl
  | targetAdvanced _ _ _ =>
    exact hd.frame (devfeeSetPoolTarget_inSlice _ _ _) (devfeeSetPoolTarget_nextTransition _ _ _)
      hnow [_, _] rfl (by simp [beganAt, endedAt]) (by simp [Svc.goto])
  | sliceAborted hpc hin _ =>
    have hon := hsetup.enabled.mpr ⟨_, (hw.inSlice hin).1⟩
    apply hd.sliceStopped hin hsetup hon [_, _]
    · rfl
    · show s.now + s.g.devfee.cycleSeconds = _
      rw [hw.same.cycleSeconds]
    · rfl
    · rfl
    · simp [beganAt, endedAt]
    · rfl
  | handle _ =>
    exact hd.frame rfl rfl hnow [_] rfl (by simp [beganAt, endedAt])
      (by simp [Svc.handleDisconnectedSession, Svc.goto])
  | failed _ _ =>
    exact hd.frame rfl rfl hnow [_] rfl (by simp [beganAt, endedAt]) (by simp [Svc.goto])
  | reconnectTaken _ =>
    exact hd.frame rfl rfl hnow [_] rfl (by simp [beganAt, endedAt]) (by simp [Svc.goto])
  | failedOver _ _ _ _ =>
    exact hd.frame rfl rfl hnow [_] rfl (by simp [beganAt, endedAt]) (by simp [Svc.goto])
  | retryLimit _ _ _ _ =>
    exact hd.frame rfl rfl hnow [_] rfl (by simp [beganAt, endedAt]) (by simp [Svc.exit])
  | retryPause _ _ _ _ =>
    exact hd.frame rfl rfl hnow [_, _] rfl (by simp [beganAt, endedAt]) (by simp [Svc.goto])
  | resumedNext _ _ =>
    exact hd.frame rfl rfl hnow [_] rfl (by simp [beganAt, endedAt]) (by simp [Svc.goto])
  | resumed _ _ => exact hd.frame rfl rfl hnow [] rfl (by simp) (by simp [Svc.goto])
  | minerRaised p =>
    exact hd.frame rfl rfl hnow [_] rfl (by simp [beganAt, endedAt]) hd.due
  | abortRequested => exact hd.frame rfl rfl hnow [] rfl (by simp) hd.due
  | clock t =>
    have hforward : s.now ≤ t := hclock
    exact hd.frame rfl rfl hforward [] rfl (by simp) fun h => Int.le_trans (hd.due h) hforward

end duty

section runs
variable {opt : Options} {userPools : List PoolInfos} {now : Int} {draw : Nat} {s₀ : Svc}

theorem startup_nextTransition (hstart : startup opt userPools now draw = some s₀) :
    s₀.now = now ∧ now + s₀.g.devfee.sliceSeconds ≤ s₀.g.devfee.nextTransition ∧
      s₀.g.devfee.nextTransition ≤ now + s₀.g.devfee.cycleSeconds := by
  obtain ⟨g, first, hbench, hroom, -, -, -, -, rfl⟩ := startup_eq_some hstart
  have hinstall : Setup opt (devfeeInstallPool opt g) := devfeeInstallPool_setup hbench hroom
  have hon : (devfeeInstallPool opt g).devfee.enabled = true := by
    obtain ⟨target, -, heq⟩ := devfeeInstallPool_spec hbench hroom
    rw [heq]
  have hnext := devfeeRuntimeBegin_next (hinstall.of_same (SameSetup.initContexts _)) hon now draw
  have same := SameSetup.runtimeBegin (stratumInitContexts (devfeeInstallPool opt g)) now draw
  rw [← same.sliceSeconds, ← same.cycleSeconds] at hnext
  exact ⟨rfl, hnext⟩

theorem startup_duty (hstart : startup opt userPools now draw = some s₀) : Duty s₀.g now s₀ := by
  obtain ⟨hnow, hfirst, hbound⟩ := startup_nextTransition hstart
  have hout := startup_outside hstart
  have hlog := startup_thread hstart
  refine ⟨?_, ?_, ?_, by omega, ?_⟩
  · intro hin
    exact absurd (hout.symm.trans hin) (by decide)
  · intro _
    rw [hlog.1]
    exact ⟨hfirst, by omega, by simp, by simp⟩
  · rw [hlog.2.1]
    simp
  · rw [hlog.1]
    exact always_nil trivial

/-- Along every run whose clock does not go back: a slice never starts within one slice length of
the start of the fee clock, nor within one cycle of the last end or the last start of a slice; and a
running slice is scheduled to end one slice length after its start. -/
theorem devfee_duty_cycle (hstart : startup opt userPools now draw = some s₀) {acts : List Act}
    {s : Svc} (hclock : AllSteps (Svc.step opt) ClockForward s₀ acts)
    (hrun : exec (Svc.step opt) s₀ acts = some s) :
    Always (SliceSpaced now s₀.g.devfee.sliceSeconds s₀.g.devfee.cycleSeconds) s.log ∧
      (s.g.devfee.inSlice = true → ∃ t, lastOf beganAt s.log = some t ∧
        s.g.devfee.nextTransition = t + s₀.g.devfee.sliceSeconds) := by
  have hsetup := startup_setup hstart
  have hd : Duty s₀.g now s := (run_induction hstart (startup_duty hstart)
    (fun _ _ _ hw hd hP ht => hd.step hsetup hw hP ht) hclock hrun).2
  refine ⟨hd.spaced, fun hin => ?_⟩
  obtain ⟨t, hlast, hend, -⟩ := hd.running hin
  exact ⟨t, hlast, hend⟩

open Scenario in
/-- Two slices of a run, 3060 seconds apart in a cycle of 3000. -/
theorem devfee_duty_cycle_two_slices :
    ∃ s₀ s, startup verus pools 0 0 = some s₀ ∧
      exec (Svc.step verus) s₀ (openSession ++ boundary 60 ++ openSession ++ boundary 120 ++
        openSession ++ boundary 3120) = some s ∧
      s.log.filterMap beganAt = [3120, 60] ∧ Always (SliceSpaced 0 60 3000) s.log := by
  have heval : ((startup verus pools 0 0).bind fun s₀ =>
      (exec (Svc.step verus) s₀ (openSession ++ boundary 60 ++ openSession ++ boundary 120 ++
        openSession ++ boundary 3120)).map fun s => s.log.filterMap beganAt) =
      some [3120, 60] := by decide +kernel
  have hclock : (startup verus pools 0 0).all (fun s₀ =>
      decide (AllSteps (Svc.step verus) ClockForward s₀ (openSession ++ boundary 60 ++
        openSession ++ boundary 120 ++ openSession ++ boundary 3120)) &&
      s₀.g.devfee.sliceSeconds == 60 && s₀.g.devfee.cycleSeconds == 3000) = true := by
    decide +kernel
  obtain ⟨s₀, s, hstart, hrun, hbegan⟩ := run_of_eval heval
  simp only [hstart, Option.all_some, Bool.and_eq_true, decide_eq_true_eq, beq_iff_eq] at hclock
  obtain ⟨⟨hforward, hslice⟩, hcycle⟩ := hclock
  have hspaced := (devfee_duty_cycle hstart hforward hrun).1
  rw [hslice, hcycle] at hspaced
  exact ⟨s₀, s, hstart, hrun, hbegan, hspaced⟩

end runs

end PrimoMiner
