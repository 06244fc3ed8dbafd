import PrimoMiner.SubmitSteps

/-!
# Shares and sessions

A mining thread checks that its work is of the current generation and sends the share some steps
later.  At the check the session of the work is still the one of its context, or its transport is
closed and the work about to be reset.  From then on nothing but a new socket of the same context can
make the line go to another session: the send reads the socket of the context, not of the session, and
it does not wait for `stratum_connect` to return.
-/

namespace PrimoMiner

open Runs SlotTable

/-- A line goes out on the session in which the share's work was published. -/
def SentInSession : SubmitEvent → Prop
  | .sent _ _ _ session shareSession => session = shareSession
  | _ => True

/-- No socket of a context is opened while a thread is on its way from the generation check to the send
on it, and no generation is checked that has come round to its old value. -/
def SessionGuard (cfg : SubmitConfig) (s : SubmitSys) : SubmitAct → Prop
  | .openSocket => ∀ t < cfg.optNThreads, (s.pc t).passed.map Share.pool ≠ some s.pool
  | .checkGeneration t => ∀ share ∈ s.held t, s.bumps < share.bumpsAt + 2 ^ 32
  | _ => True

instance (cfg : SubmitConfig) (s : SubmitSys) : ∀ a, Decidable (SessionGuard cfg s a)
  | .openSocket =>
    inferInstanceAs
      (Decidable (∀ t < cfg.optNThreads, (s.pc t).passed.map Share.pool ≠ some s.pool))
  | .checkGeneration t =>
    inferInstanceAs (Decidable (∀ share ∈ s.held t, s.bumps < share.bumpsAt + 2 ^ 32))
  | .connect _ | .switchPool _ | .authorize _ | .publish _ _ _ | .updateHeight _ _ | .rekey
  | .response _ | .closeTransport | .resetWork | .resetPending | .clearAuthenticated
  | .copyWork _ _ | .checkAuthenticated _ | .encodeFails _ | .nextId _ | .reserve _ _
  | .send _ _ | .release _ => isTrue trivial

/-! ## The invariant -/

/-- The context of the share is in the session of its work, or in none. -/
def InSession (s : SubmitSys) (share : Share) : Prop :=
  (s.ctxs share.pool).session = none ∨ (s.ctxs share.pool).session = some share.session

/-- A work that a thread holds or could copy now. -/
def SubmitSys.Live (s : SubmitSys) (share : Share) : Prop :=
  (∃ t, s.held t = some share) ∨
    (s.rt.workReady = true ∧ share = ⟨s.rt.currentWork, s.currentSession, s.currentBumps⟩)

structure Stamped (s : SubmitSys) (share : Share) : Prop where
  stamp : share.work.restartGeneration = BitVec.ofNat 32 share.bumpsAt
  le : share.bumpsAt ≤ s.bumps
  -- without a bump since, the session has not been replaced
  fresh : share.bumpsAt = s.bumps →
    (s.phase = .opened ∨ s.phase = .workStale) ∧ InSession s share

structure SessionInv (s : SubmitSys) : Prop where
  generation : s.generation = BitVec.ofNat 32 s.bumps
  others : ∀ p, p ≠ s.pool → (s.ctxs p).session = none
  closed : s.phase ≠ .opened → s.phase ≠ .connecting → s.ctx.session = none
  ready : s.rt.workReady = true → 0 < s.bumps
  live : ∀ share, s.Live share → Stamped s share
  passed : ∀ t share, (s.pc t).passed = some share → InSession s share
  sent : ∀ e ∈ s.log, SentInSession e

section sessions
variable {cfg : SubmitConfig} {s s' : SubmitSys} {share : Share}

/-- What a step of a mining thread or an access to the table leaves alone. -/
structure SameCore (s s' : SubmitSys) : Prop where
  rt : s'.rt = s.rt
  generation : s'.generation = s.generation
  phase : s'.phase = s.phase
  pool : s'.pool = s.pool
  held : s'.held = s.held
  currentSession : s'.currentSession = s.currentSession
  currentBumps : s'.currentBumps = s.currentBumps
  bumps : s'.bumps = s.bumps

theorem InSession.congr (h : InSession s share)
    (hsession : (s'.ctxs share.pool).session = (s.ctxs share.pool).session) :
    InSession s' share := by
  unfold InSession
  rw [hsession]
  exact h

theorem Stamped.congr (h : Stamped s share) (hbumps : s'.bumps = s.bumps)
    (hphase : s'.phase = s.phase) (hsession : ∀ p, (s'.ctxs p).session = (s.ctxs p).session) :
    Stamped s' share := by
  refine ⟨h.stamp, ?_, ?_⟩
  · rw [hbumps]
    exact h.le
  · rw [hbumps, hphase]
    intro heq
    exact ⟨(h.fresh heq).1, (h.fresh heq).2.congr (hsession _)⟩

theorem SubmitSys.Live.congr (hlive : s'.Live share) (hcore : SameCore s s') : s.Live share := by
  unfold Live at hlive ⊢
  rw [← hcore.rt, ← hcore.held, ← hcore.currentSession, ← hcore.currentBumps]
  exact hlive

theorem SessionInv.frame (h : SessionInv s) (hcore : SameCore s s')
    (hsession : ∀ p, (s'.ctxs p).session = (s.ctxs p).session)
    (hpassed : ∀ t share, (s'.pc t).passed = some share →
      (s.pc t).passed = some share ∨ InSession s share)
    (hsent : ∀ e ∈ s'.log, SentInSession e) : SessionInv s' := by
  refine ⟨?_, ?_, ?_, ?_, ?_, ?_, hsent⟩
  · rw [hcore.generation, hcore.bumps]
    exact h.generation
  · intro p hp
    rw [hsession]
    exact h.others p (hcore.pool ▸ hp)
  · rw [hcore.phase, SubmitSys.ctx, hsession, hcore.pool]
    exact h.closed
  · rw [hcore.rt, hcore.bumps]
    exact h.ready
  · intro share hlive
    exact (h.live share (hlive.congr hcore)).congr hcore.bumps hcore.phase hsession
  · intro t share hp
    rcases hpassed t share hp with hbefore | hin
    · exact (h.passed t share hbefore).congr (hsession _)
    · exact hin.congr (hsession _)

/-- A step of one thread that gains nothing but what it may. -/
theorem SessionInv.thread (h : SessionInv s) {t : Nat} {pc : SubmitPc} {ctxs : Nat → SubmitCtx}
    {log : List SubmitEvent} (hsession : ∀ p, (ctxs p).session = (s.ctxs p).session)
    (hpassed : ∀ share, pc.passed = some share → InSession s share)
    (hsent : ∀ e ∈ log, SentInSession e) :
    SessionInv ({ s with ctxs := ctxs, log := log }.setPc t pc) := by
  refine h.frame ⟨rfl, rfl, rfl, rfl, rfl, rfl, rfl, rfl⟩ hsession ?_ hsent
  intro u share hu
  rw [SubmitSys.setPc_pc] at hu
  split at hu
  · exact Or.inr (hpassed share hu)
  · exact Or.inl hu

theorem setCtx_session {p : Nat} {c : SubmitCtx} (hc : c.session = (s.ctxs p).session) (q : Nat) :
    (Function.update s.ctxs p c q).session = (s.ctxs q).session := by
  rw [Function.update_apply]
  split
  · rename_i hq
    rw [hc, hq]
  · rfl

/-- A bump makes every work stale, so the phase and the sessions may change with it. -/
theorem Stamped.bumped (h : Stamped s share) (hlt : s.bumps < s'.bumps) : Stamped s' share := by
  refine ⟨h.stamp, ?_, ?_⟩
  · have := h.le
    omega
  · intro heq
    have := h.le
    omega

/-- Between the reset of the work and the next publication no work is current. -/
theorem Stamped.closed (h : Stamped s share) (hopened : s.phase ≠ .opened)
    (hstale : s.phase ≠ .workStale) (hbumps : s'.bumps = s.bumps) : Stamped s' share := by
  refine ⟨h.stamp, ?_, ?_⟩
  · rw [hbumps]
    exact h.le
  · intro heq
    rw [hbumps] at heq
    rcases (h.fresh heq).1 with hphase | hphase
    · exact absurd hphase hopened
    · exact absurd hphase hstale

/-! ## Steps of the service thread -/

theorem SessionInv.openSocket (h : SessionInv s) (hidle : s.ThreadsIdle cfg)
    (hphase : s.phase = .closed ∨ s.phase = .connecting)
    (hguard : ∀ t < cfg.optNThreads, (s.pc t).passed.map Share.pool ≠ some s.pool) :
    SessionInv s.openSocket := by
  have hother : ∀ p, p ≠ s.pool → (s.openSocket.ctxs p).session = (s.ctxs p).session := by
    intro p hp
    simp [SubmitSys.openSocket, SubmitSys.setCtx, Function.update_of_ne hp]
  refine ⟨h.generation, ?_, fun _ hne => absurd rfl hne, h.ready, ?_, ?_, h.sent⟩
  · intro p hp
    rw [hother p hp]
    exact h.others p hp
  · intro share hlive
    rcases hphase with hphase | hphase <;>
      exact (h.live share hlive).closed (by simp [hphase]) (by simp [hphase]) rfl
  · intro t share hpassed
    -- the share is of another context, which is not touched
    have hp : (s.pc t).passed = some share := hpassed
    have hlt : t < cfg.optNThreads := by
      refine hidle.lt (Or.inr ?_)
      intro hpc
      rw [hpc] at hp
      exact absurd hp (by simp [SubmitPc.passed])
    have hne : share.pool ≠ s.pool := by
      intro heq
      refine hguard t hlt ?_
      rw [hp, Option.map_some, heq]
    exact (h.passed t share hpassed).congr (hother _ hne)

/-- The works that were published are stale by the time a connection is opened. -/
theorem SessionInv.connected (h : SessionInv s) (hphase : s.phase = .connecting) :
    SessionInv { s with phase := .opened } := by
  refine ⟨h.generation, h.others, fun hne => absurd rfl hne, h.ready, ?_, h.passed, h.sent⟩
  intro share hlive
  exact (h.live share hlive).closed (by simp [hphase]) (by simp [hphase]) rfl

/-- A context loses its session. -/
theorem setCtx_none (s : SubmitSys) (p q : Nat) :
    ((s.setCtx p { s.ctxs p with session := none }).ctxs q).session = none ∨
      ((s.setCtx p { s.ctxs p with session := none }).ctxs q).session = (s.ctxs q).session := by
  rw [SubmitSys.setCtx_ctxs]
  split
  · exact Or.inl rfl
  · exact Or.inr rfl

theorem SessionInv.connectFails (h : SessionInv s) (hphase : s.phase = .connecting) :
    SessionInv { s.setCtx s.pool { s.ctx with session := none } with phase := .closed } := by
  have hsession := setCtx_none s s.pool
  refine ⟨h.generation, ?_, ?_, h.ready, ?_, ?_, h.sent⟩
  · intro p hp
    rcases hsession p with hnone | hsame
    · exact hnone
    · exact hsame.trans (h.others p hp)
  · intro _ _
    show ((s.setCtx s.pool { s.ctx with session := none }).ctxs s.pool).session = none
    rw [SubmitSys.setCtx_ctxs_self]
  · intro share hlive
    exact (h.live share hlive).closed (by simp [hphase]) (by simp [hphase]) rfl
  · intro t share hpassed
    rcases hsession share.pool with hnone | hsame
    · exact Or.inl hnone
    · exact (h.passed t share hpassed).congr hsame

theorem SessionInv.switchPool (h : SessionInv s) (hphase : s.phase = .closed) (next : Nat) :
    SessionInv { s with pool := next } := by
  have hnone : ∀ p, (s.ctxs p).session = none := by
    intro p
    by_cases hp : p = s.pool
    · rw [hp]
      exact h.closed (by simp [hphase]) (by simp [hphase])
    · exact h.others p hp
  refine ⟨h.generation, fun p _ => hnone p, fun _ _ => hnone next, h.ready, ?_, ?_, h.sent⟩
  · intro share hlive
    exact (h.live share hlive).closed (by simp [hphase]) (by simp [hphase]) rfl
  · intro t share hpassed
    exact Or.inl (hnone _)

theorem publish_bumps (s : SubmitSys) (newWork : Work) (clean copied : Bool) :
    s.bumps ≤ (s.publish newWork clean copied).bumps := by
  simp only [SubmitSys.publish]
  split <;> omega

theorem publish_generation_eq (h : SessionInv s) (newWork : Work) (clean copied : Bool) :
    (s.publish newWork clean copied).generation =
      BitVec.ofNat 32 (s.publish newWork clean copied).bumps := by
  cases copied with
  | false => exact h.generation
  | true =>
    simp only [SubmitSys.publish, stratumPublishWork, if_true, Bool.true_and]
    split
    · rw [h.generation, generation_succ]
    · exact h.generation

/-- Works published before stay as they are: either nothing was bumped or they are stale now. -/
theorem Stamped.publish (h : Stamped s share) (newWork : Work) (clean copied : Bool) :
    Stamped (s.publish newWork clean copied) share := by
  rcases Nat.lt_or_ge s.bumps (s.publish newWork clean copied).bumps with hlt | hge
  · exact h.bumped hlt
  · have heq : (s.publish newWork clean copied).bumps = s.bumps :=
      Nat.le_antisymm hge (publish_bumps s newWork clean copied)
    refine ⟨h.stamp, ?_, ?_⟩
    · rw [heq]
      exact h.le
    · rw [heq]
      exact fun hfresh => h.fresh hfresh

theorem SessionInv.publish (h : SessionInv s) (hphase : s.phase = .opened) (newWork : Work)
    (clean copied : Bool) : SessionInv (s.publish newWork clean copied) := by
  have hready : (s.publish newWork clean copied).rt.workReady = true →
      0 < (s.publish newWork clean copied).bumps := by
    intro hready
    have hle := publish_bumps s newWork clean copied
    cases hbefore : s.rt.workReady with
    | true =>
      have := h.ready hbefore
      omega
    | false =>
      -- the first work is announced by a bump
      cases copied with
      | false => exact absurd (hbefore.symm.trans hready) (by decide)
      | true => simp [SubmitSys.publish, RuntimeState.shouldRestart, hbefore]
  refine ⟨publish_generation_eq h newWork clean copied, h.others, h.closed, hready, ?_,
    h.passed, h.sent⟩
  rintro share (hheld | ⟨hnow, rfl⟩)
  · exact (h.live share (Or.inl hheld)).publish newWork clean copied
  · cases copied with
    | true =>
      refine ⟨publish_generation_eq h newWork clean true, Nat.le_refl _,
        fun _ => ⟨Or.inl hphase, ?_⟩⟩
      show s.ctx.session = none ∨ s.ctx.session = some (s.ctx.session.getD 0)
      cases s.ctx.session with
      | none => exact Or.inl rfl
      | some session => exact Or.inr rfl
    | false =>
      -- a cleared work carries generation 0, which is past
      refine ⟨rfl, Nat.zero_le _, fun hzero => ?_⟩
      have hpos := hready hnow
      rw [← hzero] at hpos
      exact absurd hpos (by simp [SubmitSys.publish])

theorem SessionInv.updateHeight (h : SessionInv s) (jobId : String) (height : BitVec 32) :
    SessionInv
      { s with rt := (stratumUpdateActiveWorkHeightLocked s.rt s.pool jobId height).1 } := by
  obtain ⟨new, hframe⟩ := stratumUpdateActiveWorkHeightLocked_frame s.rt s.pool jobId height
  rw [hframe]
  refine ⟨h.generation, h.others, h.closed, h.ready, ?_, h.passed, h.sent⟩
  rintro share (hheld | ⟨hready, rfl⟩)
  · exact (h.live share (Or.inl hheld)).congr rfl rfl fun _ => rfl
  · have hstamped := h.live _ (Or.inr ⟨hready, rfl⟩)
    exact ⟨hstamped.stamp, hstamped.le, hstamped.fresh⟩

theorem SessionInv.rekey (h : SessionInv s) :
    SessionInv
      { s with generation := minerWorkGenerationBump s.generation, bumps := s.bumps + 1 } := by
  refine ⟨?_, h.others, h.closed, fun _ => Nat.succ_pos _, ?_, h.passed, h.sent⟩
  · show minerWorkGenerationBump s.generation = _
    rw [h.generation, generation_succ]
  · intro share hlive
    exact (h.live share hlive).bumped (Nat.lt_succ_self _)

theorem SessionInv.closeTransport (h : SessionInv s) : SessionInv s.closeTransport := by
  have hsession : ∀ p, (s.closeTransport.ctxs p).session = none ∨
      (s.closeTransport.ctxs p).session = (s.ctxs p).session := setCtx_none s s.pool
  have hin : ∀ share, InSession s share → InSession s.closeTransport share := by
    intro share hshare
    rcases hsession share.pool with hnone | hsame
    · exact Or.inl hnone
    · exact hshare.congr hsame
  refine ⟨h.generation, ?_, ?_, h.ready, ?_, ?_, h.sent⟩
  · intro p hp
    rcases hsession p with hnone | hsame
    · exact hnone
    · rw [hsame]
      exact h.others p hp
  · intro _ _
    show (s.closeTransport.ctxs s.pool).session = none
    simp [SubmitSys.closeTransport]
  · intro share hlive
    have hstamped := h.live share hlive
    exact ⟨hstamped.stamp, hstamped.le, fun heq => ⟨Or.inr rfl, hin share (hstamped.fresh heq).2⟩⟩
  · intro t share hpassed
    exact hin share (h.passed t share hpassed)

theorem SessionInv.resetWork (h : SessionInv s) (hphase : s.phase = .workStale) :
    SessionInv s.resetWork := by
  refine ⟨?_, h.others, fun _ _ => h.closed (by simp [hphase]) (by simp [hphase]),
    fun hready => absurd hready Bool.false_ne_true, ?_, h.passed, h.sent⟩
  · show minerWorkGenerationBump s.generation = BitVec.ofNat 32 (s.bumps + 1)
    rw [h.generation, generation_succ]
  · rintro share (hheld | ⟨hready, -⟩)
    · exact (h.live share (Or.inl hheld)).bumped (Nat.lt_succ_self _)
    · exact absurd hready Bool.false_ne_true

/-- The last two parts of a disconnect leave the sessions alone and end in a phase with no current
work. -/
theorem SessionInv.disconnecting (h : SessionInv s) {c : SubmitCtx} {phase : Phase}
    {log : List SubmitEvent} (hopened : s.phase ≠ .opened) (hconnecting : s.phase ≠ .connecting)
    (hstale : s.phase ≠ .workStale)
    (hc : c.session = s.ctx.session) (hsent : ∀ e ∈ log, SentInSession e) :
    SessionInv { s.setCtx s.pool c with phase := phase, log := log } := by
  have hsession : ∀ p, ((s.setCtx s.pool c).ctxs p).session = (s.ctxs p).session :=
    fun p => setCtx_session hc p
  refine ⟨h.generation, ?_, ?_, h.ready, ?_, ?_, hsent⟩
  · intro p hp
    exact (hsession p).trans (h.others p hp)
  · intro _ _
    exact (hsession s.pool).trans (h.closed hopened hconnecting)
  · intro share hlive
    exact (h.live share hlive).closed hopened hstale rfl
  · intro t share hpassed
    exact (h.passed t share hpassed).congr (hsession _)

/-! ## Steps of a mining thread -/

theorem SessionInv.copyWork (h : SessionInv s) (thread : Nat) (copied : Bool) :
    SessionInv (s.copyWork thread copied) := by
  unfold SubmitSys.copyWork
  split
  · rename_i hready
    refine ⟨h.generation, h.others, h.closed, h.ready, ?_, h.passed, h.sent⟩
    intro share hlive
    -- what a thread holds now was live before
    have hbefore : s.Live share := by
      rcases hlive with ⟨t, ht⟩ | hcurrent
      · dsimp only at ht
        rw [Function.update_apply] at ht
        split at ht
        · cases copied with
          | true =>
            rw [if_pos rfl, Option.some.injEq] at ht
            exact Or.inr ⟨hready, ht.symm⟩
          | false => exact absurd ht (by simp)
        · exact Or.inl ⟨t, ht⟩
      · exact Or.inr hcurrent
    exact (h.live share hbefore).congr rfl rfl fun _ => rfl
  · exact h

/-- The check finds the session of the work still in place. -/
theorem SessionInv.inSession_of_check (h : SessionInv s) {thread : Nat}
    (hheld : s.held thread = some share) (hgen : s.generation = share.work.restartGeneration)
    (hguard : s.bumps < share.bumpsAt + 2 ^ 32) : InSession s share := by
  have hstamped := h.live share (Or.inl ⟨thread, hheld⟩)
  have hle := hstamped.le
  rw [h.generation, hstamped.stamp] at hgen
  have hnat := congrArg BitVec.toNat hgen
  rw [BitVec.toNat_ofNat, BitVec.toNat_ofNat] at hnat
  exact (hstamped.fresh (by omega)).2

theorem SessionInv.step (h : SessionInv s) (hidle : s.ThreadsIdle cfg) {a : SubmitAct}
    (hguard : SessionGuard cfg s a) (ht : SubmitSys.Trans cfg s a s') : SessionInv s' := by
  cases ht with
  | openSocket hphase => exact h.openSocket hidle hphase hguard
  | connected hphase => exact h.connected hphase
  | connectFails hphase => exact h.connectFails hphase
  | switchPool hphase next => exact h.switchPool hphase next
  | authorize hphase ok =>
    exact h.frame ⟨rfl, rfl, rfl, rfl, rfl, rfl, rfl, rfl⟩ (fun p => setCtx_session (by rfl) p)
      (fun _ _ hp => Or.inl hp) h.sent
  | publish hphase newWork clean copied => exact h.publish hphase newWork clean copied
  | updateHeight hphase jobId height => exact h.updateHeight jobId height
  | rekey hphase => exact h.rekey
  | ignored hphase val => exact h
  | counted hphase hid hten hentry =>
    refine h.frame ⟨rfl, rfl, rfl, rfl, rfl, rfl, rfl, rfl⟩ (fun p => setCtx_session (by rfl) p)
      (fun _ _ hp => Or.inl hp) ?_
    exact List.forall_mem_cons.mpr ⟨trivial, h.sent⟩
  | closeTransport hphase => exact h.closeTransport
  | resetWork hphase => exact h.resetWork hphase
  | resetPending hphase =>
    refine h.disconnecting (by simp [hphase]) (by simp [hphase]) (by simp [hphase]) rfl ?_
    exact List.forall_mem_cons.mpr ⟨trivial, h.sent⟩
  | clearAuthenticated hphase =>
    exact h.disconnecting (by simp [hphase]) (by simp [hphase]) (by simp [hphase]) rfl h.sent
  | copyWork hthread hpc copied => exact h.copyWork _ copied
  | dropped hpc => exact h
  | @checked thread share hpc hheld hgen =>
    refine h.thread (fun _ => rfl) ?_ h.sent
    intro share' hpassed
    simp only [SubmitPc.passed, Option.some.injEq] at hpassed
    subst hpassed
    exact h.inSession_of_check hheld hgen (hguard share hheld)
  | unauthenticated hpc =>
    exact h.thread (fun _ => rfl) (by simp [SubmitPc.passed]) h.sent
  | @authorized thread share hpc =>
    refine h.thread (fun _ => rfl) ?_ h.sent
    intro share' hpassed
    exact h.passed thread share' (by rw [hpc]; exact hpassed)
  | encodeFails hpc =>
    exact h.thread (fun _ => rfl) (by simp [SubmitPc.passed]) h.sent
  | @numbered thread share hpc =>
    refine h.thread (fun p => setCtx_session (by rfl) p) ?_ h.sent
    intro share' hpassed
    exact h.passed thread share' (by rw [hpc]; exact hpassed)
  | @reserved thread share id ticket now pending hpc hput =>
    refine h.thread (fun p => setCtx_session (by rfl) p) ?_ ?_
    · intro share' hpassed
      exact h.passed thread share' (by rw [hpc]; exact hpassed)
    · exact List.forall_mem_cons.mpr ⟨trivial, h.sent⟩
  | queueFull now hpc =>
    exact h.thread (fun p => setCtx_session (by rfl) p) (by simp [SubmitPc.passed]) h.sent
  | @sent thread share id ticket session hpc hsession =>
    refine h.thread (fun _ => rfl) (by simp [SubmitPc.passed]) ?_
    refine List.forall_mem_cons.mpr ⟨?_, h.sent⟩
    -- the transport the line is written to is of the share's session
    have hin := h.passed thread share (by rw [hpc]; rfl)
    rw [InSession, hsession] at hin
    simpa [SentInSession] using hin
  | sendFailed hpc =>
    exact h.thread (fun _ => rfl) (by simp [SubmitPc.passed]) h.sent
  | released hpc =>
    exact h.thread (fun p => setCtx_session (by rfl) p) (by simp [SubmitPc.passed]) h.sent

theorem sessionInv_start (pool : Nat) : SessionInv (.start pool) := by
  refine ⟨rfl, fun _ _ => rfl, fun _ _ => rfl, fun hready => absurd hready Bool.false_ne_true, ?_,
    ?_, ?_⟩
  · rintro share (⟨t, ht⟩ | ⟨hready, -⟩)
    · exact absurd ht (by simp [SubmitSys.start])
    · exact absurd hready Bool.false_ne_true
  · intro t share hpassed
    exact absurd hpassed (by simp [SubmitSys.start, SubmitPc.passed])
  · simp [SubmitSys.start]

end sessions

/-- In every run that opens no socket of a context under a thread on its way to the send, and checks no
generation that has wrapped around, a submit line is written only on the session in which the work
of its share was published. -/
theorem no_cross_session_share {cfg : SubmitConfig} {pool : Nat} {labels : List SubmitAct}
    {s : SubmitSys}
    (hguard : AllSteps (SubmitSys.step cfg) (SessionGuard cfg) (.start pool) labels)
    (hrun : exec (SubmitSys.step cfg) (.start pool) labels = some s) :
    ∀ e ∈ s.log, SentInSession e := by
  have hinit : SessionInv (.start pool) ∧ (SubmitSys.start pool).ThreadsIdle cfg :=
    ⟨sessionInv_start pool, SubmitSys.threadsIdle_start cfg pool⟩
  have hall : SessionInv s ∧ s.ThreadsIdle cfg := by
    refine exec_invariant_of_allSteps (I := fun s => SessionInv s ∧ s.ThreadsIdle cfg) ?_ hinit
      hguard hrun
    intro s a s' h hguard hstep
    have ht := SubmitSys.step_trans hstep
    exact ⟨h.1.step h.2 hguard ht, h.2.step ht⟩
  exact hall.1.sent

/-! ### One thread and one reconnect -/

namespace Scenario

/-- The connection is lost before the thread comes to the check. -/
def lostBeforeCheck : List SubmitAct :=
  openedWithWork ++ ([.checkGeneration 0] : List SubmitAct) ++ sendShare ++ disconnected ++
    ([.openSocket, .connect true, .authorize true, .checkGeneration 0] : List SubmitAct)

/-- The connection is lost, and the pool reopened, right after the thread's check. -/
def lostAfterCheck : List SubmitAct :=
  openedWithWork ++ ([.checkGeneration 0] : List SubmitAct) ++ disconnected ++
    ([.openSocket, .connect true, .authorize true] : List SubmitAct) ++ sendShare

end Scenario

open Scenario

/-- The share of the session is sent, the one found after it is dropped. -/
theorem no_cross_session_share_dropped :
    ∃ s, exec (SubmitSys.step oneThread) (.start 0) lostBeforeCheck = some s ∧
      s.log = [.tableReset 0, .sent 0 10 0 0 0, .reserved 0 0] ∧ s.pc 0 = .idle ∧
      ∀ e ∈ s.log, SentInSession e := by
  have heval : (exec (SubmitSys.step oneThread) (.start 0) lostBeforeCheck).map
      (fun s => (s.log, s.pc 0)) =
      some ([.tableReset 0, .sent 0 10 0 0 0, .reserved 0 0], .idle) := by decide
  have hguard : AllSteps (SubmitSys.step oneThread) (SessionGuard oneThread) (.start 0)
      lostBeforeCheck := by decide
  rw [Option.map_eq_some_iff] at heval
  obtain ⟨s, hrun, hs⟩ := heval
  rw [Prod.mk.injEq] at hs
  exact ⟨s, hrun, hs.1, hs.2, no_cross_session_share hguard hrun⟩

/-- A thread that has passed the check while session 0 was up writes its line on session 1. -/
theorem cross_session_share_sent :
    ∃ s, exec (SubmitSys.step oneThread) (.start 0) lostAfterCheck = some s ∧
      SubmitEvent.sent 0 10 0 1 0 ∈ s.log ∧ ¬ ∀ e ∈ s.log, SentInSession e := by
  have heval : (exec (SubmitSys.step oneThread) (.start 0) lostAfterCheck).map (fun s => s.log) =
      some [.sent 0 10 0 1 0, .reserved 0 0, .tableReset 0] := by decide
  rw [Option.map_eq_some_iff] at heval
  obtain ⟨s, hrun, hlog⟩ := heval
  have hsent : SubmitEvent.sent 0 10 0 1 0 ∈ s.log := by simp [hlog]
  refine ⟨s, hrun, hsent, ?_⟩
  intro h
  exact absurd (h _ hsent) (by simp [SentInSession])

end PrimoMiner
