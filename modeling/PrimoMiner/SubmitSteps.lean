import PrimoMiner.Submit

/-!
# What one step of the submit path can do

`SubmitSys.Trans` lists the outcomes of a step with the tests it has passed; `step_trans` shows that
there are no others.  The invariants over submissions are proved from the list.
-/

namespace PrimoMiner

open Runs SlotTable

/-- The share of a thread that has passed the generation check and has not sent its line. -/
def SubmitPc.passed : SubmitPc → Option Share
  | .idle => none
  | .checked share => some share
  | .authorized share => some share
  | .numbered share _ _ => some share
  | .reserved share _ _ => some share
  | .sendFailed _ _ _ => none

namespace SubmitSys

section fields
variable (s : SubmitSys) (p q : Nat) (c : SubmitCtx) (thread t : Nat) (pc : SubmitPc)

theorem setCtx_ctxs : (s.setCtx p c).ctxs q = if q = p then c else s.ctxs q := by
  simp [setCtx, Function.update_apply]

@[simp] theorem setCtx_ctxs_self : (s.setCtx p c).ctxs p = c := by simp [setCtx]

theorem setPc_pc : (s.setPc thread pc).pc t = if t = thread then pc else s.pc t := by
  simp [setPc, Function.update_apply]

@[simp] theorem setPc_pc_self : (s.setPc thread pc).pc thread = pc := by simp [setPc]

end fields

/-- The entry that `submit_id_reserve` stores. -/
def newEntry (id : BitVec 32) (thread ticket : Nat) (now : Int) : PendingSubmit :=
  { id := id, threadId := thread, queuedAt := now, used := true, ticket := ticket }

/-- The table of pool `p` with the entries reaped that are stale at `now`. -/
def reaped (cfg : SubmitConfig) (s : SubmitSys) (p : Nat) (now : Int) : List PendingSubmit :=
  submitIdReapStaleLocked (s.ctxs p).pending now (submitIdTimeoutSeconds (cfg.poolTimeout p))

/-- The context of pool `p` after the reaping, with the table given. -/
def reapedCtx (cfg : SubmitConfig) (s : SubmitSys) (p : Nat) (now : Int)
    (pending : List PendingSubmit) : SubmitCtx :=
  { s.ctxs p with
    pending := pending
    reapedTickets := ((s.ctxs p).pending.filter (PendingSubmit.stale now
      (submitIdTimeoutSeconds (cfg.poolTimeout p)))).map PendingSubmit.ticket ++
        (s.ctxs p).reapedTickets }

inductive Trans (cfg : SubmitConfig) (s : SubmitSys) : SubmitAct → SubmitSys → Prop
  | openSocket (hphase : s.phase = .closed ∨ s.phase = .connecting) :
      Trans cfg s .openSocket s.openSocket
  | connected (hphase : s.phase = .connecting) :
      Trans cfg s (.connect true) { s with phase := .opened }
  | connectFails (hphase : s.phase = .connecting) :
      Trans cfg s (.connect false)
        { s.setCtx s.pool { s.ctx with session := none } with phase := .closed }
  | switchPool (hphase : s.phase = .closed) (next : Nat) :
      Trans cfg s (.switchPool next) { s with pool := next }
  | authorize (hphase : s.phase = .opened) (ok : Bool) :
      Trans cfg s (.authorize ok) (s.setCtx s.pool { s.ctx with authenticated := ok })
  | publish (hphase : s.phase = .opened) (newWork : Work) (clean copied : Bool) :
      Trans cfg s (.publish newWork clean copied) (s.publish newWork clean copied)
  | updateHeight (hphase : s.phase = .opened) (jobId : String) (height : BitVec 32) :
      Trans cfg s (.updateHeight jobId height)
        { s with rt := (stratumUpdateActiveWorkHeightLocked s.rt s.pool jobId height).1 }
  | rekey (hphase : s.phase = .opened) :
      Trans cfg s .rekey
        { s with generation := minerWorkGenerationBump s.generation, bumps := s.bumps + 1 }
  -- an id that does not parse, an id of the handshake or no entry with the id
  | ignored (hphase : s.phase = .opened) (val : Json) : Trans cfg s (.response val) s
  | counted (hphase : s.phase = .opened) {val : Json} {id : Nat} {entry : PendingSubmit}
      (hid : stratumParseResponseView val = some id) (hten : 10 ≤ id)
      (hentry : lookup PendingSubmit.used (·.id == BitVec.ofNat 32 id) s.ctx.pending = some entry) :
      Trans cfg s (.response val)
        { s.setCtx s.pool
            { s.ctx with pending := submitIdRelease s.ctx.pending (BitVec.ofNat 32 id) } with
          stats := countResponse cfg.g cfg.optNThreads s.stats s.pool entry.threadId
            (submitResultOk val)
          log := .counted s.pool entry.ticket entry.threadId (submitResultOk val) :: s.log }
  | closeTransport (hphase : s.phase = .closed ∨ s.phase = .opened) :
      Trans cfg s .closeTransport s.closeTransport
  | resetWork (hphase : s.phase = .workStale) : Trans cfg s .resetWork s.resetWork
  | resetPending (hphase : s.phase = .pendingStale) : Trans cfg s .resetPending s.resetPending
  | clearAuthenticated (hphase : s.phase = .authStale) :
      Trans cfg s .clearAuthenticated s.clearAuthenticated
  | copyWork {thread : Nat} (hthread : thread < cfg.optNThreads) (hpc : s.pc thread = .idle)
      (copied : Bool) :
      Trans cfg s (.copyWork thread copied) (s.copyWork thread copied)
  | dropped {thread : Nat} (hpc : s.pc thread = .idle) : Trans cfg s (.checkGeneration thread) s
  | checked {thread : Nat} {share : Share} (hpc : s.pc thread = .idle)
      (hheld : s.held thread = some share) (hgen : s.generation = share.work.restartGeneration) :
      Trans cfg s (.checkGeneration thread) (s.setPc thread (.checked share))
  | unauthenticated {thread : Nat} {share : Share} (hpc : s.pc thread = .checked share) :
      Trans cfg s (.checkAuthenticated thread) (s.setPc thread .idle)
  | authorized {thread : Nat} {share : Share} (hpc : s.pc thread = .checked share) :
      Trans cfg s (.checkAuthenticated thread) (s.setPc thread (.authorized share))
  | encodeFails {thread : Nat} {share : Share}
      (hpc : s.pc thread = .authorized share ∨ ∃ id ticket, s.pc thread = .numbered share id ticket) :
      Trans cfg s (.encodeFails thread) (s.setPc thread .idle)
  | numbered {thread : Nat} {share : Share} (hpc : s.pc thread = .authorized share) :
      Trans cfg s (.nextId thread)
        ((s.setCtx share.pool
          { s.ctxs share.pool with
            nextSubmitId := (stratumSubmitIdNext (s.ctxs share.pool).nextSubmitId).2
            tickets := (s.ctxs share.pool).tickets + 1
            issued := ((stratumSubmitIdNext (s.ctxs share.pool).nextSubmitId).1,
              (s.ctxs share.pool).tickets) :: (s.ctxs share.pool).issued }).setPc thread
          (.numbered share (stratumSubmitIdNext (s.ctxs share.pool).nextSubmitId).1
            (s.ctxs share.pool).tickets))
  | reserved {thread : Nat} {share : Share} {id : BitVec 32} {ticket : Nat} {now : Int}
      {pending : List PendingSubmit} (hpc : s.pc thread = .numbered share id ticket)
      (hput : put PendingSubmit.used (newEntry id thread ticket now)
        (s.reaped cfg share.pool now) = some pending) :
      Trans cfg s (.reserve thread now)
        ({ s.setCtx share.pool (s.reapedCtx cfg share.pool now pending) with
            log := .reserved share.pool ticket :: s.log }.setPc thread (.reserved share id ticket))
  | queueFull {thread : Nat} {share : Share} {id : BitVec 32} {ticket : Nat} (now : Int)
      (hpc : s.pc thread = .numbered share id ticket) :
      Trans cfg s (.reserve thread now)
        ((s.setCtx share.pool
          (s.reapedCtx cfg share.pool now (s.reaped cfg share.pool now))).setPc thread .idle)
  | sent {thread : Nat} {share : Share} {id : BitVec 32} {ticket session : Nat}
      (hpc : s.pc thread = .reserved share id ticket)
      (hsession : (s.ctxs share.pool).session = some session) :
      Trans cfg s (.send thread true)
        ({ s with log := .sent share.pool id ticket session share.session :: s.log }.setPc thread
          .idle)
  | sendFailed {thread : Nat} {share : Share} {id : BitVec 32} {ticket : Nat}
      (hpc : s.pc thread = .reserved share id ticket) :
      Trans cfg s (.send thread false) (s.setPc thread (.sendFailed share id ticket))
  | released {thread : Nat} {share : Share} {id : BitVec 32} {ticket : Nat}
      (hpc : s.pc thread = .sendFailed share id ticket) :
      Trans cfg s (.release thread)
        ((s.setCtx share.pool
          { s.ctxs share.pool with
            pending := submitIdRelease (s.ctxs share.pool).pending id }).setPc thread .idle)

section steps
variable {cfg : SubmitConfig} {s s' : SubmitSys}

theorem of_phase {P : Prop} [Decidable P] {t : SubmitSys}
    (h : (if P then some t else none) = some s') : P ∧ t = s' := by
  rw [Option.ite_none_right_eq_some, Option.some.injEq] at h
  exact h

theorem response_trans (hphase : s.phase = .opened) (val : Json) :
    Trans cfg s (.response val) (s.response cfg val) := by
  unfold response
  split
  · exact .ignored hphase val
  · rename_i id hid
    split
    · exact .ignored hphase val
    · rename_i hten
      unfold submitIdTakeMetadata
      cases hentry : lookup PendingSubmit.used (·.id == BitVec.ofNat 32 id) s.ctx.pending with
      | none => exact .ignored hphase val
      | some entry => exact .counted hphase hid (by omega) hentry

theorem reserve_trans {thread : Nat} {now : Int} (h : s.reserve cfg thread now = some s') :
    Trans cfg s (.reserve thread now) s' := by
  unfold reserve at h
  cases hpc : s.pc thread with
  | numbered share id ticket =>
    simp only [hpc, submitIdReserve] at h
    cases hput : put PendingSubmit.used (newEntry id thread ticket now)
        (s.reaped cfg share.pool now) with
    | none =>
      simp only [newEntry, reaped] at hput
      simp only [hput, Bool.false_eq_true, if_false, Option.some.injEq] at h
      exact h ▸ .queueFull now hpc
    | some pending =>
      have hstored : Trans cfg s (.reserve thread now) _ := .reserved hpc hput
      simp only [newEntry, reaped] at hput
      simp only [hput, if_true, Option.some.injEq] at h
      exact h ▸ hstored
  | _ => simp [hpc] at h

theorem step_trans {a : SubmitAct} (h : s.step cfg a = some s') : Trans cfg s a s' := by
  cases a with
  | openSocket =>
    obtain ⟨hphase, rfl⟩ := of_phase h
    exact .openSocket hphase
  | connect ok =>
    obtain ⟨hphase, rfl⟩ := of_phase h
    cases ok with
    | true => exact .connected hphase
    | false => exact .connectFails hphase
  | switchPool next =>
    obtain ⟨hphase, rfl⟩ := of_phase h
    exact .switchPool hphase next
  | authorize ok =>
    obtain ⟨hphase, rfl⟩ := of_phase h
    exact .authorize hphase ok
  | publish newWork clean copied =>
    obtain ⟨hphase, rfl⟩ := of_phase h
    exact .publish hphase newWork clean copied
  | updateHeight jobId height =>
    obtain ⟨hphase, rfl⟩ := of_phase h
    exact .updateHeight hphase jobId height
  | rekey =>
    obtain ⟨hphase, rfl⟩ := of_phase h
    exact .rekey hphase
  | response val =>
    obtain ⟨hphase, rfl⟩ := of_phase h
    exact response_trans hphase val
  | closeTransport =>
    obtain ⟨hphase, rfl⟩ := of_phase h
    exact .closeTransport hphase
  | resetWork =>
    obtain ⟨hphase, rfl⟩ := of_phase h
    exact .resetWork hphase
  | resetPending =>
    obtain ⟨hphase, rfl⟩ := of_phase h
    exact .resetPending hphase
  | clearAuthenticated =>
    obtain ⟨hphase, rfl⟩ := of_phase h
    exact .clearAuthenticated hphase
  | copyWork thread copied =>
    obtain ⟨⟨hthread, hpc⟩, rfl⟩ := of_phase h
    exact .copyWork hthread hpc copied
  | checkGeneration thread =>
    simp only [step, checkGeneration] at h
    split at h
    · rename_i share hpc hheld
      split at h
      · rw [Option.some.injEq] at h
        exact h ▸ .dropped hpc
      · rename_i hfresh
        rw [Option.some.injEq] at h
        refine h ▸ .checked hpc hheld ?_
        simpa [minerWorkRestartRequested] using hfresh
    · exact absurd h (by simp)
  | checkAuthenticated thread =>
    simp only [step, checkAuthenticated] at h
    split at h
    · rename_i share hpc
      split at h
      · rw [Option.some.injEq] at h
        exact h ▸ .authorized hpc
      · rw [Option.some.injEq] at h
        exact h ▸ .unauthenticated hpc
    · exact absurd h (by simp)
  | encodeFails thread =>
    simp only [step, encodeFails] at h
    split at h
    · rename_i share hpc
      rw [Option.some.injEq] at h
      exact h ▸ .encodeFails (Or.inl hpc)
    · rename_i share id ticket hpc
      rw [Option.some.injEq] at h
      exact h ▸ .encodeFails (Or.inr ⟨id, ticket, hpc⟩)
    · exact absurd h (by simp)
  | nextId thread =>
    simp only [step, nextId] at h
    split at h
    · rename_i share hpc
      rw [Option.some.injEq] at h
      exact h ▸ .numbered hpc
    · exact absurd h (by simp)
  | reserve thread now => exact reserve_trans h
  | send thread ok =>
    simp only [step, send] at h
    split at h
    · rename_i share id ticket hpc
      cases ok with
      | true =>
        rw [if_pos rfl, Option.map_eq_some_iff] at h
        obtain ⟨session, hsession, rfl⟩ := h
        exact .sent hpc hsession
      | false =>
        rw [if_neg (by decide), Option.some.injEq] at h
        exact h ▸ .sendFailed hpc
    · exact absurd h (by simp)
  | release thread =>
    simp only [step, release] at h
    split at h
    · rename_i share id ticket hpc
      rw [Option.some.injEq] at h
      exact h ▸ .released hpc
    · exact absurd h (by simp)

end steps

/-! ### Threads that do not exist -/

/-- Only the threads of the configuration hold works and submit. -/
def ThreadsIdle (cfg : SubmitConfig) (s : SubmitSys) : Prop :=
  ∀ t, cfg.optNThreads ≤ t → s.held t = none ∧ s.pc t = .idle

section threads
variable {cfg : SubmitConfig} {s s' : SubmitSys}

theorem ThreadsIdle.lt (h : ThreadsIdle cfg s) {t : Nat}
    (hbusy : s.held t ≠ none ∨ s.pc t ≠ .idle) : t < cfg.optNThreads := by
  by_contra hge
  obtain ⟨hheld, hpc⟩ := h t (by omega)
  rcases hbusy with hne | hne
  · exact hne hheld
  · exact hne hpc

theorem ThreadsIdle.setPc (h : ThreadsIdle cfg s) {t : Nat} (pc : SubmitPc)
    (hbusy : s.held t ≠ none ∨ s.pc t ≠ .idle) (hheld : s'.held = s.held)
    (hpc : s'.pc = Function.update s.pc t pc) : ThreadsIdle cfg s' := by
  have hlt := h.lt hbusy
  intro u hu
  rw [hheld, hpc, Function.update_of_ne (by omega)]
  exact h u hu

theorem ThreadsIdle.step (h : ThreadsIdle cfg s) {a : SubmitAct} (ht : Trans cfg s a s') :
    ThreadsIdle cfg s' := by
  cases ht with
  | @copyWork thread hthread _ copied =>
    unfold SubmitSys.copyWork
    split
    · intro u hu
      obtain ⟨hheld, hpc⟩ := h u hu
      refine ⟨?_, hpc⟩
      dsimp only
      rw [Function.update_of_ne (by omega)]
      exact hheld
    · exact h
  | checked hpc hheld hgen => exact h.setPc _ (Or.inl (by simp [hheld])) rfl rfl
  | unauthenticated hpc => exact h.setPc _ (Or.inr (by simp [hpc])) rfl rfl
  | authorized hpc => exact h.setPc _ (Or.inr (by simp [hpc])) rfl rfl
  | encodeFails hpc =>
    refine h.setPc _ (Or.inr ?_) rfl rfl
    rcases hpc with hpc | ⟨id, ticket, hpc⟩ <;> simp [hpc]
  | numbered hpc => exact h.setPc _ (Or.inr (by simp [hpc])) rfl rfl
  | reserved hpc hput => exact h.setPc _ (Or.inr (by simp [hpc])) rfl rfl
  | queueFull now hpc => exact h.setPc _ (Or.inr (by simp [hpc])) rfl rfl
  | sent hpc hsession => exact h.setPc _ (Or.inr (by simp [hpc])) rfl rfl
  | sendFailed hpc => exact h.setPc _ (Or.inr (by simp [hpc])) rfl rfl
  | released hpc => exact h.setPc _ (Or.inr (by simp [hpc])) rfl rfl
  -- the service thread
  | _ => exact h

theorem threadsIdle_start (cfg : SubmitConfig) (pool : Nat) : ThreadsIdle cfg (.start pool) :=
  fun _ _ => ⟨rfl, rfl⟩

end threads

end SubmitSys

/-! ### One pool and one thread -/

namespace Scenario

/-- One user pool and one mining thread. -/
def oneThread : SubmitConfig where
  g := { numPools := 1, pools := fun _ => {} }
  optNThreads := 1
  poolTimeout := fun _ => 300

/-- A session with a work that thread `thread` has copied. -/
def openedFor (thread : Nat) : List SubmitAct :=
  [.openSocket, .connect true, .authorize true,
   .publish { jobId := "1", height := 7, target := 9 } true true, .copyWork thread true]

def openedWithWork : List SubmitAct := openedFor 0

def disconnected : List SubmitAct := [.closeTransport, .resetWork, .resetPending, .clearAuthenticated]

/-- The rest of a submission after the generation check. -/
def sendShare : List SubmitAct :=
  [.checkAuthenticated 0, .nextId 0, .reserve 0 100, .send 0 true]

end Scenario

end PrimoMiner
