import PrimoMiner.SessionRuns
import PrimoMiner.Library.EventLog
import Mathlib.Data.List.Perm.Subperm

/-!
# The failover retry bound

`retry_cycle_start_pool_index` marks where a pass over the pools began.  While the mark is a pool
that failover can select, every failover moves strictly away from it round the table, so a pass
meets each pool once and the search comes back to the mark, where the retry counter goes up and the
thread pauses.  A session of the dev slot moves the mark to the dev slot, which the search never
returns: the counterexample at the end runs on from there, and the bound is proved for the runs in
which no failure of a user pool is handled in that situation.
-/

namespace PrimoMiner

open Runs EventLog RingScan

def failedPool : Event → Option Nat
  | .failed p => some p
  | _ => none

def attemptedPool : Event → Option Nat
  | .attempted p => some p
  | _ => none

/-- The pool of a session that was opened, or that asked to be reconnected. -/
def sessionPool : Event → Option Nat
  | .opened p => some p
  | .reconnectTaken p => some p
  | _ => none

/-- What ends a stretch of failures: a session, or a reconnect request. -/
def endsStretch (e : Event) : Bool := (sessionPool e).isSome

/-- What ends a pass: the end of the stretch, or an increment of `retry_count`. -/
def endsPass : Event → Bool
  | .retried _ => true
  | e => endsStretch e

/-- What ends a pass as the user sees it: the end of the stretch, or the retry pause. -/
def endsPause : Event → Bool
  | .paused => true
  | e => endsStretch e

def usablePools (g : Globals) : List Nat := (List.range g.numPools).filter (minerPoolIsUsable g)

/-- The bound as it stands after the newest event of the log: no pool fails or is attempted twice
between two increments of `retry_count`, none fails twice between two pauses, a pool that failed
since the last pause is not attempted again before the next, and with a retry limit the whole
stretch has at most one pass more than the limit. -/
structure RetryBounded (opt : Options) (g : Globals) (log : List Event) : Prop where
  failures : (collect failedPool endsPass log).Nodup
  attempts : (collect attemptedPool endsPass log).Nodup
  pauses : (collect failedPool endsPause log).Nodup
  paused : ∀ p before, log = .attempted p :: before → p ∉ collect failedPool endsPause before
  limit : 0 ≤ opt.retries → (collect failedPool endsStretch log).length ≤
    (usablePools g).length * (opt.retries.toNat + 1)

def isRun : Act → Bool
  | .run => true
  | _ => false

/-- The step does not handle a failure of a user pool while the dev slot's was the last session,
unless there is no other pool to fail over to. -/
def MarkGuard (s : Svc) (a : Act) : Prop :=
  isRun a = true → s.pc = .handling → s.onDevPool = false →
    (lastOf sessionPool s.log).any (devfeeIsDevPool s.g) = true →
    stratumFindNextPoolIndex s.g s.pool = s.pool

instance (s : Svc) (a : Act) : Decidable (MarkGuard s a) := by
  unfold MarkGuard
  infer_instance

/-! ## One pass over the pools -/

/-- Where the pools of a pass lie, by program point: before the mark's distance of the current
pool, and empty once a session was open. -/
def PassAt (n mark pool : Nat) (pc : Pc) (failed attempted : List Nat) : Prop :=
  match pc with
  | .head =>
    (∀ p ∈ failed, ringDist n mark p < ringDist n mark pool) ∧
      ∀ p ∈ attempted, ringDist n mark p < ringDist n mark pool
  | .connecting | .waiting _ | .opened | .devAdvance | .devAbort | .handling | .handleAbort _ _ =>
    (∀ p ∈ failed, ringDist n mark p < ringDist n mark pool) ∧
      ∀ p ∈ attempted, ringDist n mark p ≤ ringDist n mark pool
  | .handleTake _ _ =>
    (∀ p ∈ failed, ringDist n mark p ≤ ringDist n mark pool) ∧
      ∀ p ∈ attempted, ringDist n mark p ≤ ringDist n mark pool
  | .exited => True
  | _ => failed = [] ∧ attempted = []

/-- Newest first, the pools of a pass come nearer to the mark. -/
def Descending (n mark : Nat) (pools : List Nat) : Prop :=
  pools.Pairwise fun newer older => ringDist n mark older < ringDist n mark newer

theorem Descending.nodup {n mark : Nat} {pools : List Nat} (h : Descending n mark pools) :
    pools.Nodup := by
  refine List.Pairwise.imp ?_ h
  intro a b hlt heq
  rw [heq] at hlt
  exact Nat.lt_irrefl _ hlt

structure Pass (g₀ : Globals) (ends : Event → Bool) (s : Svc) : Prop where
  failed : Descending g₀.numPools s.retryCycleStartPoolIndex (collect failedPool ends s.log)
  attempted : Descending g₀.numPools s.retryCycleStartPoolIndex (collect attemptedPool ends s.log)
  usable : ∀ p ∈ collect failedPool ends s.log, minerPoolIsUsable g₀ p = true
  slice : s.g.devfee.inSlice = true →
    collect failedPool ends s.log = [] ∧ collect attemptedPool ends s.log = []
  here : PassAt g₀.numPools s.retryCycleStartPoolIndex s.pool s.pc (collect failedPool ends s.log)
    (collect attemptedPool ends s.log)

/-- What the proof needs of an event that ends a pass. -/
structure PassEnds (ends : Event → Bool) : Prop where
  opened : ∀ p, ends (.opened p) = true
  reconnectTaken : ∀ p, ends (.reconnectTaken p) = true
  failed : ∀ p, ends (.failed p) = false
  attempted : ∀ p, ends (.attempted p) = false
  pass : (∀ k, ends (.retried k) = true) ∨ ends .paused = true

theorem endsPass_ok : PassEnds endsPass :=
  ⟨fun _ => rfl, fun _ => rfl, fun _ => rfl, fun _ => rfl, Or.inl fun _ => rfl⟩

theorem endsPause_ok : PassEnds endsPause :=
  ⟨fun _ => rfl, fun _ => rfl, fun _ => rfl, fun _ => rfl, Or.inr rfl⟩

theorem PassAt.shrink {n mark pool : Nat} {pc : Pc} {F A F' A' : List Nat}
    (h : PassAt n mark pool pc F A) (hF : F' = [] ∨ F' = F) (hA : A' = [] ∨ A' = A) :
    PassAt n mark pool pc F' A' := by
  unfold PassAt at h ⊢
  rcases hF with rfl | rfl <;> rcases hA with rfl | rfl <;> cases pc <;> simp_all

theorem passAt_nil (n mark pool : Nat) (pc : Pc) : PassAt n mark pool pc [] [] := by
  unfold PassAt
  cases pc <;> simp

/-- Events that a pass does not read. -/
def Quiet (es : List Event) : Prop := ∀ e ∈ es, failedPool e = none ∧ attemptedPool e = none

section pass
variable {opt : Options} {g₀ : Globals} {ends : Event → Bool} {s s' : Svc}

theorem Pass.of_empty (hF : collect failedPool ends s.log = [])
    (hA : collect attemptedPool ends s.log = []) : Pass g₀ ends s := by
  refine ⟨?_, ?_, ?_, fun _ => ⟨hF, hA⟩, ?_⟩
  · rw [hF]
    exact List.Pairwise.nil
  · rw [hA]
    exact List.Pairwise.nil
  · rw [hF]
    simp
  · rw [hF, hA]
    exact passAt_nil _ _ _ _

/-- A step that records quiet events and keeps the mark and the pool. -/
theorem Pass.frame (h : Pass g₀ ends s) (es : List Event) (hlog : s'.log = es ++ s.log)
    (hes : Quiet es) (hpool : s'.pool = s.pool)
    (hmark : s'.retryCycleStartPoolIndex = s.retryCycleStartPoolIndex)
    (hslice : s'.g.devfee.inSlice = s.g.devfee.inSlice)
    (hpc : ∀ F A, PassAt g₀.numPools s.retryCycleStartPoolIndex s.pool s.pc F A →
      PassAt g₀.numPools s.retryCycleStartPoolIndex s.pool s'.pc F A) : Pass g₀ ends s' := by
  have hF : collect failedPool ends s'.log = [] ∨
      collect failedPool ends s'.log = collect failedPool ends s.log := by
    rw [hlog]
    exact collect_append_of_none _ fun e he => (hes e he).1
  have hA : collect attemptedPool ends s'.log = [] ∨
      collect attemptedPool ends s'.log = collect attemptedPool ends s.log := by
    rw [hlog]
    exact collect_append_of_none _ fun e he => (hes e he).2
  refine ⟨?_, ?_, ?_, ?_, ?_⟩
  · rw [hmark]
    rcases hF with hF | hF <;> rw [hF]
    · exact List.Pairwise.nil
    · exact h.failed
  · rw [hmark]
    rcases hA with hA | hA <;> rw [hA]
    · exact List.Pairwise.nil
    · exact h.attempted
  · rcases hF with hF | hF <;> rw [hF]
    · simp
    · exact h.usable
  · rw [hslice]
    intro hin
    obtain ⟨hFnil, hAnil⟩ := h.slice hin
    exact ⟨hF.elim id fun hF => hF.trans hFnil, hA.elim id fun hA => hA.trans hAnil⟩
  · rw [hmark, hpool]
    exact (hpc _ _ h.here).shrink hF hA

/-- Quiet events after an empty pass leave it empty, wherever the thread goes. -/
theorem Pass.of_empty_quiet (hF : collect failedPool ends s.log = [])
    (hA : collect attemptedPool ends s.log = []) (es : List Event) (hlog : s'.log = es ++ s.log)
    (hes : Quiet es) : Pass g₀ ends s' := by
  apply Pass.of_empty
  · rw [hlog]
    rcases collect_append_of_none s.log fun e he => (hes e he).1 with h | h
    · exact h
    · exact h.trans hF
  · rw [hlog]
    rcases collect_append_of_none s.log fun e he => (hes e he).2 with h | h
    · exact h
    · exact h.trans hA

/-- An event that ends the pass, with quiet events after it. -/
theorem Pass.of_ended (es : List Event) (hes : Quiet es) {e : Event} (hend : ends e = true)
    (log : List Event) (hlog : s'.log = es ++ e :: log) : Pass g₀ ends s' := by
  apply Pass.of_empty
  · rw [hlog]
    rcases collect_append_of_none (e :: log) fun e he => (hes e he).1 with h | h
    · exact h
    · exact h.trans (collect_cons_of_pos log hend)
  · rw [hlog]
    rcases collect_append_of_none (e :: log) fun e he => (hes e he).2 with h | h
    · exact h
    · exact h.trans (collect_cons_of_pos log hend)

/-- The next attempt of a pass goes to a pool beyond those attempted so far. -/
theorem Pass.attempt (hends : PassEnds ends) (h : Pass g₀ ends s) (hpc : s.pc = .head)
    (hdev : s.onDevPool = s.g.devfee.inSlice) (hlog : s'.log = s.recordAttempt.log)
    (hpool : s'.pool = s.pool)
    (hmark : s'.retryCycleStartPoolIndex = s.retryCycleStartPoolIndex)
    (hslice : s'.g.devfee.inSlice = s.g.devfee.inSlice)
    (hpc' : ∀ F A, PassAt g₀.numPools s.retryCycleStartPoolIndex s.pool .connecting F A →
      PassAt g₀.numPools s.retryCycleStartPoolIndex s.pool s'.pc F A) : Pass g₀ ends s' := by
  cases hin : s.g.devfee.inSlice with
  | true =>
    obtain ⟨hF, hA⟩ := h.slice hin
    have hquiet : s.recordAttempt.log = s.log := by simp [Svc.recordAttempt, hdev, hin]
    rw [hquiet] at hlog
    exact Pass.of_empty_quiet hF hA [] hlog (by simp [Quiet])
  | false =>
    have hrecorded : s.recordAttempt.log = .attempted s.pool :: s.log := by
      simp [Svc.recordAttempt, hdev, hin]
    rw [hrecorded] at hlog
    have hF : collect failedPool ends s'.log = [] ∨
        collect failedPool ends s'.log = collect failedPool ends s.log := by
      rw [hlog]
      exact collect_cons_of_none s.log rfl
    have hA : collect attemptedPool ends s'.log = s.pool :: collect attemptedPool ends s.log := by
      rw [hlog]
      exact collect_cons_of_some s.log (hends.attempted _) rfl
    have hhere := h.here
    rw [hpc] at hhere
    obtain ⟨hFlt, hAlt⟩ := hhere
    refine ⟨?_, ?_, ?_, ?_, ?_⟩
    · rw [hmark]
      rcases hF with hF | hF <;> rw [hF]
      · exact List.Pairwise.nil
      · exact h.failed
    · rw [hmark, hA]
      exact List.Pairwise.cons hAlt h.attempted
    · rcases hF with hF | hF <;> rw [hF]
      · simp
      · exact h.usable
    · rw [hslice, hin]
      intro hfalse
      exact absurd hfalse (by decide)
    · rw [hmark, hpool, hA]
      refine (hpc' _ _ ⟨hFlt, ?_⟩).shrink hF (Or.inr rfl)
      intro p hp
      rcases List.mem_cons.mp hp with rfl | hp
      · exact Nat.le_refl _
      · exact Nat.le_of_lt (hAlt p hp)

/-- The pool whose failure is handled lies beyond those that failed before it in the pass. -/
theorem Pass.fail (hends : PassEnds ends) (h : Pass g₀ ends s) {next : Nat} {wrapped : Bool}
    (hpc : s.pc = .handleAbort next wrapped) (hin : s.g.devfee.inSlice = false)
    (husable : minerPoolIsUsable g₀ s.pool = true) :
    Pass g₀ ends ((s.record (.failed s.pool)).goto (.handleTake next wrapped)) := by
  have hF : collect failedPool ends (.failed s.pool :: s.log) =
      s.pool :: collect failedPool ends s.log :=
    collect_cons_of_some s.log (hends.failed _) rfl
  have hA : collect attemptedPool ends (.failed s.pool :: s.log) = [] ∨
      collect attemptedPool ends (.failed s.pool :: s.log) = collect attemptedPool ends s.log :=
    collect_cons_of_none s.log rfl
  have hhere := h.here
  rw [hpc] at hhere
  obtain ⟨hFlt, hAle⟩ := hhere
  refine ⟨?_, ?_, ?_, ?_, ?_⟩
  · show Descending _ _ (collect failedPool ends (.failed s.pool :: s.log))
    rw [hF]
    exact List.Pairwise.cons hFlt h.failed
  · show Descending _ _ (collect attemptedPool ends (.failed s.pool :: s.log))
    rcases hA with hA | hA <;> rw [hA]
    · exact List.Pairwise.nil
    · exact h.attempted
  · show ∀ p ∈ collect failedPool ends (.failed s.pool :: s.log), _
    rw [hF]
    intro p hp
    rcases List.mem_cons.mp hp with rfl | hp
    · exact husable
    · exact h.usable p hp
  · intro htrue
    exact absurd (hin.symm.trans htrue) (by decide)
  · have hat : PassAt g₀.numPools s.retryCycleStartPoolIndex s.pool (.handleTake next wrapped)
        (s.pool :: collect failedPool ends s.log) (collect attemptedPool ends s.log) := by
      refine ⟨?_, hAle⟩
      intro p hp
      rcases List.mem_cons.mp hp with rfl | hp
      · exact Nat.le_refl _
      · exact Nat.le_of_lt (hFlt p hp)
    exact hat.shrink (Or.inr hF) hA

/-- A failover moves on beyond every pool of the pass. -/
theorem Pass.failOver (h : Pass g₀ ends s) {next : Nat} {wrapped : Bool}
    (hpc : s.pc = .handleTake next wrapped)
    (hbeyond : ringDist g₀.numPools s.retryCycleStartPoolIndex s.pool <
      ringDist g₀.numPools s.retryCycleStartPoolIndex next)
    (hin : s.g.devfee.inSlice = false) : Pass g₀ ends ((s.moveTo next).goto .head) := by
  have hF : collect failedPool ends (.switched next :: s.log) = [] ∨
      collect failedPool ends (.switched next :: s.log) = collect failedPool ends s.log :=
    collect_cons_of_none s.log rfl
  have hA : collect attemptedPool ends (.switched next :: s.log) = [] ∨
      collect attemptedPool ends (.switched next :: s.log) = collect attemptedPool ends s.log :=
    collect_cons_of_none s.log rfl
  have hhere := h.here
  rw [hpc] at hhere
  obtain ⟨hFle, hAle⟩ := hhere
  refine ⟨?_, ?_, ?_, ?_, ?_⟩
  · show Descending _ _ (collect failedPool ends (.switched next :: s.log))
    rcases hF with hF | hF <;> rw [hF]
    · exact List.Pairwise.nil
    · exact h.failed
  · show Descending _ _ (collect attemptedPool ends (.switched next :: s.log))
    rcases hA with hA | hA <;> rw [hA]
    · exact List.Pairwise.nil
    · exact h.attempted
  · show ∀ p ∈ collect failedPool ends (.switched next :: s.log), _
    rcases hF with hF | hF <;> rw [hF]
    · simp
    · exact h.usable
  · intro htrue
    exact absurd (hin.symm.trans htrue) (by decide)
  · have hat : PassAt g₀.numPools s.retryCycleStartPoolIndex next .head
        (collect failedPool ends s.log) (collect attemptedPool ends s.log) :=
      ⟨fun p hp => Nat.lt_of_le_of_lt (hFle p hp) hbeyond,
        fun p hp => Nat.lt_of_le_of_lt (hAle p hp) hbeyond⟩
    exact hat.shrink hF hA

/-- While the mark is selectable, failover goes on beyond the current pool. -/
theorem ringDist_lt_findNext {mark pool : Nat} (hmark : minerPoolIsUsable g₀ mark = true)
    (hpool : pool < g₀.numPools) (hne : stratumFindNextPoolIndex g₀ pool ≠ pool)
    (hwrap : stratumFindNextPoolIndex g₀ pool ≠ mark) :
    ringDist g₀.numPools mark pool <
      ringDist g₀.numPools mark (stratumFindNextPoolIndex g₀ pool) := by
  unfold stratumFindNextPoolIndex at hne hwrap ⊢
  split at hne
  · exact absurd rfl hne
  · rename_i hn
    rw [if_neg hn] at hwrap ⊢
    exact ringDist_lt_next (minerPoolIsUsable_lt hmark) hpool hmark hne hwrap

theorem quiet_transition (s : Svc) (q : Nat) :
    Quiet (.switched q :: .disconnected s.pool :: s.transitionEvents) := by
  intro e he
  rcases List.mem_cons.mp he with rfl | he
  · exact ⟨rfl, rfl⟩
  · rcases List.mem_cons.mp he with rfl | he
    · exact ⟨rfl, rfl⟩
    · rcases s.transitionEvents_mem e he with rfl | rfl | rfl <;> exact ⟨rfl, rfl⟩

theorem Goto.passAt {n mark : Nat} {pc : Pc} (h : Svc.Goto s pc) (F A : List Nat)
    (hat : PassAt n mark s.pool s.pc F A) : PassAt n mark s.pool pc F A := by
  -- within the handshake nothing changes; out of the message loop the pass is empty
  cases h <;> rename_i hpc <;> simp_all [PassAt]

/-- One step keeps a pass in order.  `hsafe` is needed where a failure has been turned into a
failover: the mark must be selectable for the failover to move away from it. -/
theorem Pass.step (hends : PassEnds ends) (hsetup : Setup opt g₀) (hw : Svc.Wf g₀ s)
    (hsafe : ∀ next wrapped, s.pc = .handleTake next wrapped →
      minerPoolIsUsable g₀ s.retryCycleStartPoolIndex = true ∨ next = s.pool)
    (h : Pass g₀ ends s) {a : Act} (ht : Svc.Trans opt g₀ s a s') : Pass g₀ ends s' := by
  have hdev := hw.onDevPool hsetup
  have hok := hw.pcOk
  have hhere := h.here
  cases ht with
  | goto hgoto => exact h.frame [] rfl (by simp [Quiet]) rfl rfl rfl (Goto.passAt hgoto)
  | exit _ => exact h.frame [] rfl (by simp [Quiet]) rfl rfl rfl fun _ _ _ => trivial
  | connecting hpc _ => exact h.attempt hends hpc hdev rfl rfl rfl rfl fun _ _ h => h
  | connectingFresh hpc _ => exact h.attempt hends hpc hdev rfl rfl rfl rfl fun _ _ h => h
  | noUrl hpc =>
    refine h.attempt hends hpc hdev rfl rfl rfl rfl fun F A hat => ?_
    rcases s.recordAttempt.openFailed_pc with hfail | hfail <;> rw [hfail] <;> exact hat
  | connected tls hpc =>
    refine h.frame [] rfl (by simp [Quiet]) rfl rfl rfl fun F A hat => ?_
    rw [hpc] at hat
    exact hat
  | connectFailed tls hpc =>
    refine h.frame [] rfl (by simp [Quiet]) rfl rfl rfl fun F A hat => ?_
    rw [hpc] at hat
    rcases Svc.openFailed_pc _ with hfail | hfail <;> rw [hfail] <;> exact hat
  | requestFailed hpc _ =>
    refine h.frame [_] rfl (by simp [Quiet, failedPool, attemptedPool]) rfl rfl rfl ?_
    intro F A hat
    rw [hpc] at hat
    rcases Svc.openFailed_pc _ with hfail | hfail <;> rw [hfail] <;> exact hat
  | loggedIn publishes hpc _ =>
    obtain ⟨es, hlog, hes⟩ := s.recordPublished_log publishes
    refine h.frame es hlog ?_ rfl rfl rfl ?_
    · intro e he
      rw [hes e he]
      exact ⟨rfl, rfl⟩
    · intro F A hat
      rw [hpc] at hat
      exact hat
  | redirected hpc _ _ _ =>
    refine h.frame [_, _] rfl (by simp [Quiet, failedPool, attemptedPool]) rfl rfl rfl ?_
    intro F A hat
    rcases hpc with ⟨r, hpc, rfl⟩ | ⟨hpc, rfl⟩ <;> rw [hpc] at hat <;> exact hat
  | message publishes hpc _ =>
    obtain ⟨es, hlog, hes⟩ := s.recordPublished_log publishes
    refine h.frame es hlog ?_ rfl rfl rfl ?_
    · intro e he
      rw [hes e he]
      exact ⟨rfl, rfl⟩
    · intro F A hat
      rcases hpc with ⟨r, hpc, rfl⟩ | ⟨hpc, rfl | rfl⟩ <;> rw [hpc] at hat <;> exact hat
  | sessionOpened _ => exact Pass.of_ended [] (by simp [Quiet]) (hends.opened s.pool) s.log rfl
  | enterLoop hpc =>
    refine h.frame [_] rfl (by simp [Quiet, failedPool, attemptedPool]) rfl rfl rfl ?_
    intro F A hat
    rw [hpc] at hat
    exact hat
  | @sliceBegun d hpc _ _ _ =>
    rw [hpc] at hhere
    exact Pass.of_empty_quiet hhere.1 hhere.2 _ rfl (quiet_transition s d)
  | @sliceEnded u _ _ hin _ =>
    obtain ⟨hF, hA⟩ := h.slice hin
    exact Pass.of_empty_quiet hF hA _ rfl (quiet_transition s u)
  | targetAdvanced _ hin _ =>
    obtain ⟨hF, hA⟩ := h.slice hin
    exact Pass.of_empty_quiet hF hA [_, _] rfl (by simp [Quiet, failedPool, attemptedPool])
  | sliceAborted _ hin _ =>
    obtain ⟨hF, hA⟩ := h.slice hin
    exact Pass.of_empty_quiet hF hA [_, _, _] rfl (by simp [Quiet, failedPool, attemptedPool])
  | handle hpc =>
    refine h.frame [_] rfl (by simp [Quiet, failedPool, attemptedPool]) rfl rfl rfl ?_
    intro F A hat
    rw [hpc] at hat
    exact hat
  | failed hpc hrun =>
    simp only [Svc.PcOk, hpc] at hok
    have hin : s.g.devfee.inSlice = false := by
      by_contra hin
      rw [Bool.not_eq_false] at hin
      exact absurd (hrun.symm.trans (hok.1 hin)) (by decide)
    exact h.fail hends hpc hin (hw.outside hin)
  | reconnectTaken _ =>
    exact Pass.of_ended [] (by simp [Quiet]) (hends.reconnectTaken s.pool) s.log rfl
  | @failedOver next wrapped hpc _ hne hwrap =>
    have hmark := (hsafe next wrapped hpc).resolve_right hne
    simp only [Svc.PcOk, hpc] at hok
    have hbeyond : next ≠ s.retryCycleStartPoolIndex := by
      intro heq
      rw [hwrap] at hok
      have hfalse := hok.2.2
      simp only [← heq, beq_self_eq_true, Bool.and_true] at hfalse
      exact hne (by simpa using hfalse)
    apply h.failOver hpc _ hok.1
    rw [hok.2.1] at hne hbeyond ⊢
    exact ringDist_lt_findNext hmark (minerPoolIsUsable_lt (hw.outside hok.1)) hne hbeyond
  | retryLimit _ _ _ _ =>
    exact h.frame [_] rfl (by simp [Quiet, failedPool, attemptedPool]) rfl rfl rfl
      fun _ _ _ => trivial
  | retryPause _ _ _ _ =>
    rcases hends.pass with hretried | hpaused
    · exact Pass.of_ended [_] (by simp [Quiet, failedPool, attemptedPool]) (hretried _) s.log rfl
    · exact Pass.of_ended [] (by simp [Quiet]) hpaused _ rfl
  | resumedNext hpc _ =>
    rw [hpc] at hhere
    exact Pass.of_empty_quiet hhere.1 hhere.2 [_] rfl (by simp [Quiet, failedPool, attemptedPool])
  | resumed hpc _ =>
    rw [hpc] at hhere
    exact Pass.of_empty_quiet hhere.1 hhere.2 [] rfl (by simp [Quiet])
  | minerRaised p =>
    exact h.frame [_] rfl (by simp [Quiet, failedPool, attemptedPool]) rfl rfl rfl fun _ _ h => h
  | abortRequested => exact h.frame [] rfl (by simp [Quiet]) rfl rfl rfl fun _ _ h => h
  | clock t => exact h.frame [] rfl (by simp [Quiet]) rfl rfl rfl fun _ _ h => h

end pass

/-! ## The bookkeeping of a step -/

/-- Events that neither a pass nor the mark depends on. -/
def Silent (es : List Event) : Prop :=
  ∀ e ∈ es, failedPool e = none ∧ attemptedPool e = none ∧ sessionPool e = none ∧ endsPass e = false

/-- What a step does to the log, `retry_count` and the mark. -/
inductive Bookkeeping (opt : Options) (g₀ : Globals) (s s' : Svc) : Prop
  | silent (es : List Event) (hes : Silent es) (hlog : s'.log = es ++ s.log)
      (hcount : s'.retryCount = s.retryCount)
      (hmark : s'.retryCycleStartPoolIndex = s.retryCycleStartPoolIndex ∨
        minerPoolIsUsable g₀ s'.retryCycleStartPoolIndex = true)
      (hpc : s'.pc ≠ .exited → s.pc ≠ .exited)
  | attempted (hpc : s.pc = .head) (hlog : s'.log = .attempted s.pool :: s.log)
      (hcount : s'.retryCount = s.retryCount)
      (hmark : s'.retryCycleStartPoolIndex = s.retryCycleStartPoolIndex)
  | failed {next : Nat} {wrapped : Bool} (hpc : s.pc = .handleAbort next wrapped)
      (hin : s.g.devfee.inSlice = false) (hlog : s'.log = .failed s.pool :: s.log)
      (hcount : s'.retryCount = s.retryCount)
      (hmark : s'.retryCycleStartPoolIndex = s.retryCycleStartPoolIndex)
  | session (es : List Event) (hes : Silent es) (e : Event) (he : sessionPool e = some s.pool)
      (hlog : s'.log = es ++ e :: s.log) (hcount : s'.retryCount = 0)
      (hmark : s'.retryCycleStartPoolIndex = s.pool)
  | retried (es : List Event) (hes : Silent es) (hpc : s.pc ≠ .exited)
      (hlog : s'.log = es ++ .retried (s.retryCount + 1) :: s.log)
      (hcount : s'.retryCount = s.retryCount + 1)
      (hmark : s'.retryCycleStartPoolIndex = s.retryCycleStartPoolIndex)
      (hlimit : s'.pc = .exited ∨ ¬ (0 ≤ opt.retries ∧ opt.retries < ↑(s.retryCount + 1)))

section bookkeeping
variable {opt : Options} {g₀ : Globals} {s s' : Svc}

theorem silent_nil : Silent [] := by simp [Silent]

theorem silent_transition (s : Svc) (q : Nat) :
    Silent (.switched q :: .disconnected s.pool :: s.transitionEvents) := by
  intro e he
  rcases List.mem_cons.mp he with rfl | he
  · exact ⟨rfl, rfl, rfl, rfl⟩
  · rcases List.mem_cons.mp he with rfl | he
    · exact ⟨rfl, rfl, rfl, rfl⟩
    · rcases s.transitionEvents_mem e he with rfl | rfl | rfl <;> exact ⟨rfl, rfl, rfl, rfl⟩

theorem silent_published {es : List Event} (hes : ∀ e ∈ es, e = Event.published s.pool) :
    Silent es := by
  intro e he
  rw [hes e he]
  exact ⟨rfl, rfl, rfl, rfl⟩

/-- An attempt is recorded outside a slice and only there. -/
theorem bookkeeping_attempt (hdev : s.onDevPool = s.g.devfee.inSlice) (hpc : s.pc = .head)
    (hlog : s'.log = s.recordAttempt.log) (hcount : s'.retryCount = s.retryCount)
    (hmark : s'.retryCycleStartPoolIndex = s.retryCycleStartPoolIndex) :
    Bookkeeping opt g₀ s s' := by
  cases hin : s.g.devfee.inSlice with
  | true =>
    have hquiet : s.recordAttempt.log = s.log := by simp [Svc.recordAttempt, hdev, hin]
    exact .silent [] silent_nil (hlog.trans hquiet) hcount (Or.inl hmark) fun _ => by simp [hpc]
  | false =>
    have hrecorded : s.recordAttempt.log = .attempted s.pool :: s.log := by
      simp [Svc.recordAttempt, hdev, hin]
    exact .attempted hpc (hlog.trans hrecorded) hcount hmark

theorem Svc.Trans.bookkeeping (hsetup : Setup opt g₀) (hw : Svc.Wf g₀ s) {a : Act}
    (ht : Svc.Trans opt g₀ s a s') : Bookkeeping opt g₀ s s' := by
  have hdev := hw.onDevPool hsetup
  have hok := hw.pcOk
  have hone : ∀ e : Event, failedPool e = none → attemptedPool e = none → sessionPool e = none →
      endsPass e = false → Silent [e] := by
    intro e hf ha hs he e' he'
    rw [List.mem_singleton.mp he']
    exact ⟨hf, ha, hs, he⟩
  cases ht with
  | goto h =>
    refine .silent [] silent_nil rfl rfl (Or.inl rfl) fun _ => ?_
    cases h <;> rename_i hpc <;> simp_all
  | exit _ => exact .silent [] silent_nil rfl rfl (Or.inl rfl) fun h => absurd rfl h
  | connecting hpc _ => exact bookkeeping_attempt hdev hpc rfl rfl rfl
  | connectingFresh hpc _ => exact bookkeeping_attempt hdev hpc rfl rfl rfl
  | noUrl hpc => exact bookkeeping_attempt hdev hpc rfl rfl rfl
  | connected tls hpc => exact .silent [] silent_nil rfl rfl (Or.inl rfl) fun _ => by simp [hpc]
  | connectFailed tls hpc =>
    exact .silent [] silent_nil rfl rfl (Or.inl rfl) fun _ => by simp [hpc]
  | requestFailed hpc _ =>
    exact .silent [_] (hone _ rfl rfl rfl rfl) rfl rfl (Or.inl rfl) fun _ => by simp [hpc]
  | loggedIn publishes hpc _ =>
    obtain ⟨es, hlog, hes⟩ := s.recordPublished_log publishes
    exact .silent es (silent_published hes) hlog rfl (Or.inl rfl) fun _ => by simp [hpc]
  | redirected hpc _ _ _ =>
    refine .silent [_, _] ?_ rfl rfl (Or.inl rfl) fun _ => ?_
    · simp [Silent, failedPool, attemptedPool, sessionPool, endsPass, endsStretch]
    · rcases hpc with ⟨r, hpc, -⟩ | ⟨hpc, -⟩ <;> simp [hpc]
  | message publishes hpc _ =>
    obtain ⟨es, hlog, hes⟩ := s.recordPublished_log publishes
    refine .silent es (silent_published hes) hlog rfl (Or.inl rfl) fun _ => ?_
    rcases hpc with ⟨r, hpc, -⟩ | ⟨hpc, -⟩ <;> simp [hpc]
  | sessionOpened _ => exact .session [] silent_nil (.opened s.pool) rfl rfl rfl rfl
  | enterLoop hpc =>
    exact .silent [_] (hone _ rfl rfl rfl rfl) rfl rfl (Or.inl rfl) fun _ => by simp [hpc]
  | @sliceBegun d hpc _ _ _ =>
    exact .silent _ (silent_transition s d) rfl rfl (Or.inl rfl) fun _ => by simp [hpc]
  | @sliceEnded u hpc _ _ _ =>
    exact .silent _ (silent_transition s u) rfl rfl (Or.inl rfl) fun _ => by simp [hpc]
  | targetAdvanced hpc _ _ =>
    refine .silent [_, _] ?_ rfl rfl (Or.inl rfl) fun _ => by simp [hpc]
    simp [Silent, failedPool, attemptedPool, sessionPool, endsPass, endsStretch]
  | sliceAborted hpc _ _ =>
    refine .silent [_, _, _] ?_ rfl rfl (Or.inl rfl) fun _ => by simp [hpc]
    simp [Silent, failedPool, attemptedPool, sessionPool, endsPass, endsStretch]
  | handle hpc =>
    exact .silent [_] (hone _ rfl rfl rfl rfl) rfl rfl (Or.inl rfl) fun _ => by simp [hpc]
  | failed hpc hrun =>
    simp only [Svc.PcOk, hpc] at hok
    have hin : s.g.devfee.inSlice = false := by
      by_contra hin
      rw [Bool.not_eq_false] at hin
      exact absurd (hrun.symm.trans (hok.1 hin)) (by decide)
    exact .failed hpc hin rfl rfl rfl
  | reconnectTaken _ => exact .session [] silent_nil (.reconnectTaken s.pool) rfl rfl rfl rfl
  | failedOver hpc _ _ _ =>
    exact .silent [_] (hone _ rfl rfl rfl rfl) rfl rfl (Or.inl rfl) fun _ => by simp [hpc]
  | retryLimit hpc _ _ _ =>
    exact .retried [] silent_nil (by simp [hpc]) rfl rfl rfl (Or.inl rfl)
  | retryPause hpc _ _ hlimit =>
    exact .retried [_] (hone _ rfl rfl rfl rfl) (by simp [hpc]) rfl rfl rfl (Or.inr hlimit)
  | resumedNext hpc hne =>
    simp only [Svc.PcOk, hpc] at hok
    exact .silent [_] (hone _ rfl rfl rfl rfl) rfl rfl (Or.inr (Svc.next_usable hok.2.1 hne))
      fun _ => by simp [hpc]
  | resumed hpc _ =>
    simp only [Svc.PcOk, hpc] at hok
    exact .silent [] silent_nil rfl rfl (Or.inr (hw.outside hok.1)) fun _ => by simp [hpc]
  | minerRaised p => exact .silent [_] (hone _ rfl rfl rfl rfl) rfl rfl (Or.inl rfl) fun h => h
  | abortRequested => exact .silent [] silent_nil rfl rfl (Or.inl rfl) fun h => h
  | clock t => exact .silent [] silent_nil rfl rfl (Or.inl rfl) fun h => h

theorem length_le_usablePools {pools : List Nat} (hnodup : pools.Nodup)
    (husable : ∀ p ∈ pools, minerPoolIsUsable g₀ p = true) :
    pools.length ≤ (usablePools g₀).length := by
  apply (hnodup.subperm _).length_le
  intro p hp
  rw [usablePools, List.mem_filter, List.mem_range]
  exact ⟨minerPoolIsUsable_lt (husable p hp), husable p hp⟩

/-- The bound does not notice an event that a pass does not read. -/
theorem RetryBounded.cons_quiet {log : List Event} {e : Event} (h : RetryBounded opt g₀ log)
    (hf : failedPool e = none) (ha : attemptedPool e = none) : RetryBounded opt g₀ (e :: log) := by
  refine ⟨?_, ?_, ?_, ?_, ?_⟩
  · rcases collect_cons_of_none (p := endsPass) log hf with hnil | hsame
    · rw [hnil]
      exact List.nodup_nil
    · rw [hsame]
      exact h.failures
  · rcases collect_cons_of_none (p := endsPass) log ha with hnil | hsame
    · rw [hnil]
      exact List.nodup_nil
    · rw [hsame]
      exact h.attempts
  · rcases collect_cons_of_none (p := endsPause) log hf with hnil | hsame
    · rw [hnil]
      exact List.nodup_nil
    · rw [hsame]
      exact h.pauses
  · intro p before heq
    rw [List.cons.injEq] at heq
    rw [heq.1] at ha
    exact absurd ha (by simp [attemptedPool])
  · intro hR
    rcases collect_cons_of_none (p := endsStretch) log hf with hnil | hsame
    · rw [hnil]
      exact Nat.zero_le _
    · rw [hsame]
      exact h.limit hR

structure RetryInv (opt : Options) (g₀ : Globals) (s : Svc) : Prop where
  bounded : Always (RetryBounded opt g₀) s.log
  pass : Pass g₀ endsPass s
  pause : Pass g₀ endsPause s
  mark : minerPoolIsUsable g₀ s.retryCycleStartPoolIndex = true ∨
    (lastOf sessionPool s.log).any (devfeeIsDevPool g₀) = true
  safe : ∀ next wrapped, s.pc = .handleAbort next wrapped ∨ s.pc = .handleTake next wrapped →
    s.g.devfee.inSlice = false →
    minerPoolIsUsable g₀ s.retryCycleStartPoolIndex = true ∨ next = s.pool
  count : (collect failedPool endsStretch s.log).length ≤
    (usablePools g₀).length * s.retryCount + (collect failedPool endsPass s.log).length
  limit : s.pc ≠ .exited → 0 ≤ opt.retries → ↑s.retryCount ≤ opt.retries

theorem endsStretch_of_silent {es : List Event} (hes : Silent es) :
    ∀ e ∈ es, failedPool e = none ∧ endsStretch e = false := by
  intro e he
  obtain ⟨hf, -, hs, -⟩ := hes e he
  exact ⟨hf, by rw [endsStretch, hs]; rfl⟩

theorem endsPass_of_silent {es : List Event} (hes : Silent es) :
    ∀ e ∈ es, failedPool e = none ∧ endsPass e = false :=
  fun e he => ⟨(hes e he).1, (hes e he).2.2.2⟩

theorem RetryInv.passes (hsetup : Setup opt g₀) (hw : Svc.Wf g₀ s) (h : RetryInv opt g₀ s) {a : Act}
    (ht : Svc.Trans opt g₀ s a s') : Pass g₀ endsPass s' ∧ Pass g₀ endsPause s' := by
  have hsafe : ∀ next wrapped, s.pc = .handleTake next wrapped →
      minerPoolIsUsable g₀ s.retryCycleStartPoolIndex = true ∨ next = s.pool := by
    intro next wrapped hpc
    have hok := hw.pcOk
    simp only [Svc.PcOk, hpc] at hok
    exact h.safe next wrapped (Or.inr hpc) hok.1
  exact ⟨h.pass.step endsPass_ok hsetup hw hsafe ht, h.pause.step endsPause_ok hsetup hw hsafe ht⟩

theorem collect_failed {ends : Event → Bool} (hends : ∀ p, ends (.failed p) = false) {p : Nat}
    {log : List Event} : collect failedPool ends (.failed p :: log) =
      p :: collect failedPool ends log :=
  collect_cons_of_some log (hends p) rfl

/-- The bound after a step, for every event of the step. -/
theorem RetryInv.bounded_step (h : RetryInv opt g₀ s) (hpass : Pass g₀ endsPass s')
    (hpause : Pass g₀ endsPause s') (hb : Bookkeeping opt g₀ s s') :
    Always (RetryBounded opt g₀) s'.log := by
  have hquiet : ∀ e l, failedPool e = none → attemptedPool e = none → RetryBounded opt g₀ l →
      RetryBounded opt g₀ (e :: l) := fun _ _ hf ha hl => hl.cons_quiet hf ha
  cases hb with
  | silent es hes hlog _ _ _ =>
    rw [hlog]
    exact h.bounded.append fun e he l hl => hquiet e l (hes e he).1 (hes e he).2.1 hl
  | session es hes e he hlog _ _ =>
    have hread : failedPool e = none ∧ attemptedPool e = none := by
      cases e <;> simp_all [sessionPool, failedPool, attemptedPool]
    rw [hlog]
    refine (always_cons (hquiet e _ hread.1 hread.2 h.bounded.now) h.bounded).append ?_
    exact fun e he l hl => hquiet e l (hes e he).1 (hes e he).2.1 hl
  | retried es hes _ hlog _ _ _ =>
    rw [hlog]
    refine (always_cons (hquiet _ _ rfl rfl h.bounded.now) h.bounded).append ?_
    exact fun e he l hl => hquiet e l (hes e he).1 (hes e he).2.1 hl
  | attempted hpc hlog _ _ =>
    have hhere := h.pause.here
    rw [hpc] at hhere
    have hpassF := hpass.failed.nodup
    have hpassA := hpass.attempted.nodup
    have hpauseF := hpause.failed.nodup
    rw [hlog] at hpassF hpassA hpauseF ⊢
    refine always_cons ⟨hpassF, hpassA, hpauseF, ?_, ?_⟩ h.bounded
    · intro p before heq hmem
      simp only [List.cons.injEq, Event.attempted.injEq] at heq
      obtain ⟨rfl, rfl⟩ := heq
      exact Nat.lt_irrefl _ (hhere.1 _ hmem)
    · intro hR
      have hsame : collect failedPool endsStretch (.attempted s.pool :: s.log) =
          collect failedPool endsStretch s.log := collect_cons_of_neg s.log rfl rfl
      rw [hsame]
      exact h.bounded.now.limit hR
  | failed hpc _ hlog hcount _ =>
    have hpassF := hpass.failed.nodup
    have hpassA := hpass.attempted.nodup
    have hpauseF := hpause.failed.nodup
    have hlen := length_le_usablePools hpassF hpass.usable
    rw [hlog] at hpassF hpassA hpauseF hlen ⊢
    refine always_cons ⟨hpassF, hpassA, hpauseF, ?_, ?_⟩ h.bounded
    · intro p before heq
      simp at heq
    · intro hR
      have hlimit := h.limit (by simp [hpc]) hR
      have hcount := h.count
      rw [collect_failed endsPass_ok.failed, List.length_cons] at hlen
      rw [collect_failed fun _ => rfl, List.length_cons]
      have hmul : (usablePools g₀).length * s.retryCount ≤
          (usablePools g₀).length * opt.retries.toNat := Nat.mul_le_mul_left _ (by omega)
      rw [Nat.mul_add, Nat.mul_one]
      omega

theorem RetryInv.count_step (h : RetryInv opt g₀ s) (hpass : Pass g₀ endsPass s)
    (hb : Bookkeeping opt g₀ s s') :
    (collect failedPool endsStretch s'.log).length ≤
      (usablePools g₀).length * s'.retryCount + (collect failedPool endsPass s'.log).length := by
  have hcount := h.count
  cases hb with
  | silent es hes hlog hsame _ _ =>
    rw [hlog, hsame, collect_append_of_neg _ (endsStretch_of_silent hes),
      collect_append_of_neg _ (endsPass_of_silent hes)]
    exact hcount
  | session es hes e he hlog _ _ =>
    have hend : endsStretch e = true := by rw [endsStretch, he]; rfl
    rw [hlog, collect_append_of_neg _ (endsStretch_of_silent hes), collect_cons_of_pos _ hend]
    exact Nat.zero_le _
  | retried es hes _ hlog hsucc _ _ =>
    have hlen := length_le_usablePools hpass.failed.nodup hpass.usable
    have hsame : collect failedPool endsStretch (.retried (s.retryCount + 1) :: s.log) =
        collect failedPool endsStretch s.log := collect_cons_of_neg s.log rfl rfl
    rw [hlog, hsucc, collect_append_of_neg _ (endsStretch_of_silent hes),
      collect_append_of_neg _ (endsPass_of_silent hes), hsame, collect_cons_of_pos _ rfl,
      Nat.mul_add, Nat.mul_one]
    simp only [List.length_nil]
    omega
  | attempted _ hlog hsame _ =>
    have hstretch : collect failedPool endsStretch (.attempted s.pool :: s.log) =
        collect failedPool endsStretch s.log := collect_cons_of_neg s.log rfl rfl
    have hpassed : collect failedPool endsPass (.attempted s.pool :: s.log) =
        collect failedPool endsPass s.log := collect_cons_of_neg s.log rfl rfl
    rw [hlog, hsame, hstretch, hpassed]
    exact hcount
  | failed _ _ hlog hsame _ =>
    rw [hlog, hsame, collect_failed fun _ => rfl, collect_failed endsPass_ok.failed]
    simp only [List.length_cons]
    omega

theorem RetryInv.mark_step (hsetup : Setup opt g₀) (hw : Svc.Wf g₀ s) (h : RetryInv opt g₀ s)
    (hb : Bookkeeping opt g₀ s s') :
    minerPoolIsUsable g₀ s'.retryCycleStartPoolIndex = true ∨
      (lastOf sessionPool s'.log).any (devfeeIsDevPool g₀) = true := by
  cases hb with
  | silent es hes hlog _ hmark _ =>
    rw [hlog, lastOf_append_of_none _ fun e he => (hes e he).2.2.1]
    rcases hmark with hsame | husable
    · rw [hsame]
      exact h.mark
    · exact Or.inl husable
  | attempted _ hlog _ hmark =>
    rw [hlog, hmark, lastOf_cons_of_none _ rfl]
    exact h.mark
  | failed _ _ hlog _ hmark =>
    rw [hlog, hmark, lastOf_cons_of_none _ rfl]
    exact h.mark
  | session es hes e he hlog _ hmark =>
    rw [hlog, hmark, lastOf_append_of_none _ fun e he => (hes e he).2.2.1,
      lastOf_cons_of_some _ he]
    -- outside a slice the session's pool is selectable, inside it is the dev slot
    cases hin : s.g.devfee.inSlice with
    | false => exact Or.inl (hw.outside hin)
    | true => exact Or.inr ((devfeeIsDevPool_iff hsetup).mpr (hw.inSlice hin).1)
  | retried es hes _ hlog _ hmark _ =>
    rw [hlog, hmark, lastOf_append_of_none _ fun e he => (hes e he).2.2.1,
      lastOf_cons_of_none _ rfl]
    exact h.mark

theorem RetryInv.limit_step (h : RetryInv opt g₀ s) (hb : Bookkeeping opt g₀ s s')
    (hrun : s'.pc ≠ .exited) (hR : 0 ≤ opt.retries) : ↑s'.retryCount ≤ opt.retries := by
  cases hb with
  | silent _ _ _ hcount _ hpc =>
    rw [hcount]
    exact h.limit (hpc hrun) hR
  | attempted hpc _ hcount _ =>
    rw [hcount]
    exact h.limit (by simp [hpc]) hR
  | failed hpc _ _ hcount _ =>
    rw [hcount]
    exact h.limit (by simp [hpc]) hR
  | session _ _ _ _ _ hcount _ =>
    rw [hcount]
    exact hR
  | retried _ _ _ _ hcount _ hlimit =>
    rw [hcount]
    have hbelow := hlimit.resolve_left hrun
    omega

/-- A failure that is handled leaves a failover target only with a selectable mark. -/
theorem RetryInv.safe_step (hsetup : Setup opt g₀) (hw : Svc.Wf g₀ s) (h : RetryInv opt g₀ s)
    {a : Act} (hguard : MarkGuard s a) (ht : Svc.Trans opt g₀ s a s') (next : Nat) (wrapped : Bool)
    (hpc' : s'.pc = .handleAbort next wrapped ∨ s'.pc = .handleTake next wrapped)
    (hin : s'.g.devfee.inSlice = false) :
    minerPoolIsUsable g₀ s'.retryCycleStartPoolIndex = true ∨ next = s'.pool := by
  have hlost : ∀ t : Svc, t.openFailed.pc = .handleAbort next wrapped ∨
      t.openFailed.pc = .handleTake next wrapped → False := by
    intro t h
    rcases t.openFailed_pc with hpc | hpc <;> rw [hpc] at h <;> simp at h
  cases ht with
  | handle hpc =>
    have hnext : next = stratumFindNextPoolIndex s.g s.pool := by
      rcases hpc' with hpc' | hpc' <;>
        simp [Svc.handleDisconnectedSession, Svc.goto] at hpc'
      exact hpc'.1.symm
    rcases h.mark with husable | hdev
    · exact Or.inl husable
    · right
      rw [hnext]
      refine hguard rfl hpc ?_ ?_
      · rw [hw.onDevPool hsetup]
        exact hin
      · have hsame : devfeeIsDevPool s.g = devfeeIsDevPool g₀ := funext hw.same.isDevPool
        rw [hsame]
        exact hdev
  | failed hpc _ =>
    rcases hpc' with hpc' | hpc' <;> simp [Svc.goto] at hpc'
    obtain ⟨rfl, rfl⟩ := hpc'
    exact h.safe _ _ (Or.inl hpc) hin
  | minerRaised p => exact h.safe next wrapped hpc' hin
  | abortRequested => exact h.safe next wrapped hpc' hin
  | clock t => exact h.safe next wrapped hpc' hin
  | goto hgoto =>
    cases hgoto <;> simp [Svc.goto] at hpc'
  | redirected hpc _ _ _ =>
    rcases hpc with ⟨r, -, rfl⟩ | ⟨-, rfl⟩ <;> simp [Svc.goto] at hpc'
  | message _ hpc _ =>
    rcases hpc with ⟨r, -, rfl⟩ | ⟨-, rfl | rfl⟩ <;> simp [Svc.goto] at hpc'
  | noUrl _ => exact (hlost _ hpc').elim
  | connectFailed tls _ => exact (hlost _ hpc').elim
  | requestFailed _ _ => exact (hlost _ hpc').elim
  | _ => simp [Svc.goto, Svc.exit, Svc.sessionOpened, Svc.enterMessageLoop] at hpc'

theorem RetryInv.step (hsetup : Setup opt g₀) (hw : Svc.Wf g₀ s) (h : RetryInv opt g₀ s)
    {a : Act} (hguard : MarkGuard s a) (ht : Svc.Trans opt g₀ s a s') : RetryInv opt g₀ s' := by
  have hb := ht.bookkeeping hsetup hw
  obtain ⟨hpass, hpause⟩ := h.passes hsetup hw ht
  exact ⟨h.bounded_step hpass hpause hb, hpass, hpause, h.mark_step hsetup hw hb,
    h.safe_step hsetup hw hguard ht, h.count_step h.pass hb, h.limit_step hb⟩

end bookkeeping

section runs
variable {opt : Options} {userPools : List PoolInfos} {now : Int} {draw : Nat} {s₀ : Svc}

theorem retryBounded_nil (opt : Options) (g : Globals) : RetryBounded opt g [] :=
  ⟨List.nodup_nil, List.nodup_nil, List.nodup_nil, by simp, fun _ => Nat.zero_le _⟩

theorem startup_retryInv (hstart : startup opt userPools now draw = some s₀) :
    RetryInv opt s₀.g s₀ := by
  have hw := startup_wf hstart
  have husable := hw.outside (startup_outside hstart)
  obtain ⟨hlog, hpc, hcount, hmark⟩ := startup_thread hstart
  refine ⟨?_, ?_, ?_, ?_, ?_, ?_, ?_⟩
  · rw [hlog]
    exact always_nil (retryBounded_nil opt s₀.g)
  · apply Pass.of_empty <;> rw [hlog] <;> rfl
  · apply Pass.of_empty <;> rw [hlog] <;> rfl
  · rw [hmark]
    exact Or.inl husable
  · rw [hpc]
    intro next wrapped h
    simp at h
  · rw [hlog]
    exact Nat.zero_le _
  · intro _ hR
    rw [hcount]
    exact hR

/-- Along every run that handles no failure of a user pool right after a session of the dev slot,
the bound holds after every event. -/
theorem failover_retry_bound (hstart : startup opt userPools now draw = some s₀) {acts : List Act}
    {s : Svc} (hguard : AllSteps (Svc.step opt) MarkGuard s₀ acts)
    (hrun : exec (Svc.step opt) s₀ acts = some s) : Always (RetryBounded opt s₀.g) s.log :=
  (run_induction hstart (startup_retryInv hstart)
    (fun _ _ _ hw h hP ht => h.step (startup_setup hstart) hw hP ht) hguard hrun).2.bounded

end runs

namespace Scenario

/-- Both pools refuse, the thread pauses and tries the first one again. -/
def refusedTwice : List Act := connectFails ++ connectFails ++ ([.run] : List Act) ++ connectFails

/-- A slice is mined in full, then both user pools are down. -/
def downAfterSlice : List Act :=
  openSession ++ boundary 60 ++ openSession ++ boundary 120 ++
    connectFails ++ connectFails ++ connectFails

def noRetries : Options := { verus with retries := 0 }

end Scenario

open Scenario

theorem failover_retry_bound_refusedTwice :
    ∃ s₀ s, startup verus pools 0 0 = some s₀ ∧ exec (Svc.step verus) s₀ refusedTwice = some s ∧
      s.log.filterMap failedPool = [0, 1, 0] ∧ Always (RetryBounded verus s₀.g) s.log := by
  have heval : ((startup verus pools 0 0).bind fun s₀ =>
      (exec (Svc.step verus) s₀ refusedTwice).map fun s => s.log.filterMap failedPool) =
      some [0, 1, 0] := by decide +kernel
  have hguard : (startup verus pools 0 0).all (fun s₀ =>
      decide (AllSteps (Svc.step verus) MarkGuard s₀ refusedTwice)) = true := by decide +kernel
  obtain ⟨s₀, s, hstart, hrun, hfailed⟩ := run_of_eval heval
  simp only [hstart, Option.all_some, decide_eq_true_eq] at hguard
  exact ⟨s₀, s, hstart, hrun, hfailed, failover_retry_bound hstart hguard hrun⟩

/-- After a slice the two pools are tried in turn without end: here the first one fails a second
time in the same pass, with no pause and beyond the limit of two failures. -/
theorem failover_retry_bound_fails :
    ∃ s₀ s, startup noRetries pools 0 0 = some s₀ ∧
      exec (Svc.step noRetries) s₀ downAfterSlice = some s ∧
      collect failedPool endsPass s.log = [0, 1, 0] ∧ s.retryCount = 0 ∧
      (usablePools s₀.g).length = 2 ∧ ¬ Always (RetryBounded noRetries s₀.g) s.log := by
  have heval : ((startup noRetries pools 0 0).bind fun s₀ =>
      (exec (Svc.step noRetries) s₀ downAfterSlice).map fun s =>
        (collect failedPool endsPass s.log, s.retryCount)) = some ([0, 1, 0], 0) := by
    decide +kernel
  have husable : (startup noRetries pools 0 0).all (fun s₀ =>
      (usablePools s₀.g).length == 2) = true := by decide
  obtain ⟨s₀, s, hstart, hrun, hlog⟩ := run_of_eval heval
  simp only [hstart, Option.all_some, beq_iff_eq] at husable
  rw [Prod.mk.injEq] at hlog
  refine ⟨s₀, s, hstart, hrun, hlog.1, hlog.2, husable, fun h => ?_⟩
  have hnodup := h.now.failures
  rw [hlog.1] at hnodup
  exact absurd hnodup (by decide)

end PrimoMiner
