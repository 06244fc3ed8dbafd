import PrimoMiner.SessionRuns
import PrimoMiner.Library.EventLog

/-!
# Reconnect requests stay in their session

`reconnect_requested` is set by an accepted `client.reconnect` and by mining threads, and cleared
in one place, where the end of a user pool's session is handled.  A request for the thread's user pool
is on its way there from the start of the message loop on, and so is a redirect in the handshake: it
closes the transport, and the receive that follows fails.  Every other request can meet a later
session: nothing clears the flag of the dev slot or of a pool that the thread has left, and what comes
before the message loop is found by the session that is being opened.
-/

namespace PrimoMiner

open Runs EventLog

def opensSession (p : Nat) : Event → Bool
  | .opened q => q == p
  | _ => false

/-- A mining thread has raised the flag of pool `p` since a session of the pool was opened. -/
def RaisedSinceOpened (p : Nat) (log : List Event) : Prop :=
  .minerRaised p ∈ since (opensSession p) log

instance (p : Nat) (log : List Event) : Decidable (RaisedSinceOpened p log) :=
  inferInstanceAs (Decidable (_ ∈ _))

/-- A message loop entered with the flag set answers a mining thread of this session. -/
def FlagExplained : List Event → Prop
  | .enteredLoop p true :: before => RaisedSinceOpened p before
  | _ => True

/-- The line of the step reaches `stratum_reconnect` and is accepted there. -/
def redirects (s : Svc) : Act → Bool
  | .line (some val) _ =>
    s.connected && (acceptedRedirect s.ctx val).isSome &&
      match s.pc with
      | .waiting r => !stratumReplyMatchesId val r.id
      | .loopRecv => true
      | _ => false
  | _ => false

/-- No redirect is accepted on the dev slot or during the extranonce subscription. -/
def RedirectGuard (s : Svc) (a : Act) : Prop :=
  redirects s a = true → s.onDevPool = false ∧ s.pc ≠ .waiting .extranonceSubscribe

instance (s : Svc) (a : Act) : Decidable (RedirectGuard s a) := by
  unfold RedirectGuard
  infer_instance

/-- The program points from which a request of the current user pool can only be taken. -/
def TakesRequest (s : Svc) : Prop :=
  match s.pc with
  | .waiting r => r ≠ .extranonceSubscribe ∧ s.connected = false
  | .loopEntry => RaisedSinceOpened s.pool s.log
  | .loopAbort | .loopFlag | .loopDue | .loopRecv => True
  | .exitDue | .exitAbort | .exitFlag | .exitDev => True
  | .handling | .handleAbort _ _ | .handleTake _ _ => True
  | _ => False

instance (s : Svc) : Decidable (TakesRequest s) := by
  unfold TakesRequest
  split <;> infer_instance

/-- A mining thread asks for a reconnect only on the thread's user pool, from the start of the message loop
on or where a request of the pool is about to be taken, or when there is no session any more. -/
def RaiseGuard (s : Svc) : Act → Prop
  | .minerRaise p =>
    s.pc = .exited ∨ (p = s.pool ∧ s.onDevPool = false ∧ (s.pc = .loopEntry ∨ TakesRequest s))
  | _ => True

instance (s : Svc) : ∀ a, Decidable (RaiseGuard s a)
  | .minerRaise p =>
    inferInstanceAs (Decidable (s.pc = .exited ∨
      (p = s.pool ∧ s.onDevPool = false ∧ (s.pc = .loopEntry ∨ TakesRequest s))))
  | .run | .connect _ | .line _ _ | .recvFailed | .idle | .requestAbort | .clock _ => isTrue trivial

/-- Every request is made where it can only be taken. -/
def RequestGuard (s : Svc) (a : Act) : Prop := RedirectGuard s a ∧ RaiseGuard s a

instance (s : Svc) (a : Act) : Decidable (RequestGuard s a) :=
  inferInstanceAs (Decidable (_ ∧ _))

structure FlagInv (s : Svc) : Prop where
  explained : Always FlagExplained s.log
  flags : s.pc ≠ .exited → ∀ p, (s.g.ctx p).reconnectRequested = true →
    p = s.pool ∧ s.g.devfee.inSlice = false ∧ TakesRequest s

section flags
variable {opt : Options} {g₀ : Globals} {s s' : Svc} {p : Nat}

theorem raisedSinceOpened_minerRaised (log : List Event) :
    RaisedSinceOpened p (.minerRaised p :: log) := by
  unfold RaisedSinceOpened
  rw [since_cons_of_neg _ rfl]
  exact List.mem_cons_self

/-- Events that enter no message loop. -/
def Unrelated (es : List Event) : Prop := ∀ e ∈ es, ∀ p b, e ≠ .enteredLoop p b

theorem flagExplained_append {log : List Event} (h : Always FlagExplained log) (es : List Event)
    (hes : ∀ e ∈ es, ∀ p, e ≠ .enteredLoop p true) : Always FlagExplained (es ++ log) := by
  apply h.append
  intro e he l _
  cases e with
  | enteredLoop q b =>
    cases b with
    | true => exact absurd rfl (hes _ he q)
    | false => trivial
  | _ => trivial

/-- A step that leaves the flags alone and moves towards where a request is taken. -/
theorem FlagInv.frame (h : FlagInv s) (es : List Event) (hlog : s'.log = es ++ s.log)
    (hes : Unrelated es)
    (hflags : ∀ p, (s'.g.ctx p).reconnectRequested = (s.g.ctx p).reconnectRequested)
    (hrun : s'.pc ≠ .exited → s.pc ≠ .exited)
    (htakes : (s.g.ctx s.pool).reconnectRequested = true → s.g.devfee.inSlice = false →
      TakesRequest s → s'.pc ≠ .exited →
      s'.pool = s.pool ∧ s'.g.devfee.inSlice = false ∧ TakesRequest s') : FlagInv s' where
  explained := by
    rw [hlog]
    exact flagExplained_append h.explained es fun e he q => hes e he q true
  flags := by
    intro hne p hflag
    rw [hflags] at hflag
    obtain ⟨rfl, hin, htake⟩ := h.flags (hrun hne) p hflag
    obtain ⟨hpool, hin', htake'⟩ := htakes hflag hin htake hne
    exact ⟨hpool.symm, hin', htake'⟩

theorem unrelated_nil : Unrelated [] := by simp [Unrelated]

theorem unrelated_of_mem {es : List Event} {q : Nat}
    (hes : ∀ e ∈ es, e = Event.attempted q ∨ e = Event.published q) : Unrelated es := by
  intro e he
  rcases hes e he with rfl | rfl <;> simp

theorem unrelated_transition (s : Svc) (q : Nat) :
    Unrelated (.switched q :: .disconnected s.pool :: s.transitionEvents) := by
  intro e he
  rcases List.mem_cons.mp he with rfl | he
  · simp
  · rcases List.mem_cons.mp he with rfl | he
    · simp
    · rcases s.transitionEvents_mem e he with rfl | rfl | rfl <;> simp

theorem modifyCtx_reconnectRequested (g : Globals) (i : Nat) (f : StratumCtx → StratumCtx)
    (hf : ∀ c, (f c).reconnectRequested = c.reconnectRequested) (p : Nat) :
    ((g.modifyCtx i f).ctx p).reconnectRequested = (g.ctx p).reconnectRequested := by
  rw [Globals.modifyCtx_ctx]
  split
  · rename_i hp
    rw [hf, hp]
  · rfl

theorem devfeeTakeTransition_reconnectRequested (opt : Options) (g : Globals) (now : Int)
    (pool p : Nat) : (((devfeeTakeTransition opt g now pool).1).ctx p).reconnectRequested =
      (g.ctx p).reconnectRequested := by
  unfold devfeeTakeTransition
  split
  · rfl
  · dsimp only
    split
    · rw [devfeeSetPoolTarget_reconnectRequested]
      rfl
    · rfl

/-- No request of the current pool is pending at a point from which it would not be taken. -/
theorem FlagInv.frame_elsewhere (h : FlagInv s) (es : List Event) (hlog : s'.log = es ++ s.log)
    (hes : Unrelated es)
    (hflags : ∀ p, (s'.g.ctx p).reconnectRequested = (s.g.ctx p).reconnectRequested)
    (hrun : s.pc ≠ .exited)
    (hnone : (s.g.ctx s.pool).reconnectRequested = true → s.g.devfee.inSlice = false →
      TakesRequest s → False) : FlagInv s' :=
  h.frame es hlog hes hflags (fun _ => hrun) fun hflag hin htake => (hnone hflag hin htake).elim

theorem FlagInv.goto (hsetup : Setup opt g₀) (hw : Svc.Wf g₀ s) (h : FlagInv s) {pc : Pc}
    (hgoto : Svc.Goto s pc) : FlagInv (s.goto pc) := by
  have hdev := hw.onDevPool hsetup
  refine h.frame [] rfl unrelated_nil (fun _ => rfl) ?_ ?_
  · intro _
    cases hgoto <;> rename_i hpc <;> simp_all
  · intro hflag hin htake _
    refine ⟨rfl, hin, ?_⟩
    cases hgoto with
    | nextRequest hpc _ hconn =>
      simp only [TakesRequest, hpc, hconn] at htake
      exact absurd htake.2 (by decide)
    | handshakeDone hpc =>
      simp only [TakesRequest, hpc] at htake
      exact absurd rfl htake.1
    | noTargetLeft hpc => simp only [TakesRequest, hpc] at htake
    | devLost _ honDev => exact absurd (hin.symm.trans (hdev.symm.trans honDev)) (by decide)
    | _ => trivial

/-- A redirect of a user pool, outside the extranonce subscription, is on its way to be taken. -/
theorem FlagInv.redirected (h : FlagInv s) {url : String} {pc : Pc}
    (hpc : (∃ r, s.pc = .waiting r ∧ pc = .waiting r) ∨ (s.pc = .loopRecv ∧ pc = .loopAbort))
    (hin : s.g.devfee.inSlice = false) (hextra : s.pc ≠ .waiting .extranonceSubscribe) :
    FlagInv (({ s with g := s.g.setPool s.pool ((s.g.pools s.pool).redirect url) }.record
      (.redirected s.pool url)).stratumDisconnect.goto pc) := by
  have hlog : (({ s with g := s.g.setPool s.pool ((s.g.pools s.pool).redirect url) }.record
      (.redirected s.pool url)).stratumDisconnect.goto pc : Svc).log =
      [.disconnected s.pool, .redirected s.pool url] ++ s.log := rfl
  refine ⟨?_, ?_⟩
  · rw [hlog]
    exact flagExplained_append h.explained _ (by simp)
  · intro _ p hflag
    by_cases hp : p = s.pool
    · refine ⟨hp, hin, ?_⟩
      rcases hpc with ⟨r, hwait, rfl⟩ | ⟨-, rfl⟩
      · refine ⟨?_, rfl⟩
        intro hr
        exact hextra (hwait.trans (by rw [hr]))
      · trivial
    · have hsame : ((s.g.setPool s.pool ((s.g.pools s.pool).redirect url)).ctx p) = s.g.ctx p := by
        rw [Globals.ctx, Globals.setPool_pools, if_neg hp]
        rfl
      have hrun : s.pc ≠ .exited := by
        rcases hpc with ⟨r, hwait, -⟩ | ⟨hrecv, -⟩ <;> simp [*]
      exact absurd (h.flags hrun p (by rw [← hsame]; exact hflag)).1 hp

/-- A session is opened with every flag clear. -/
theorem FlagInv.sessionOpened (h : FlagInv s) (hpc : s.pc = .opened) : FlagInv s.sessionOpened :=
  h.frame_elsewhere [.opened s.pool] rfl (by simp [Unrelated]) (fun _ => rfl) (by simp [hpc])
    (by simp [TakesRequest, hpc])

theorem FlagInv.enterLoop (h : FlagInv s) (hpc : s.pc = .loopEntry) :
    FlagInv s.enterMessageLoop := by
  have hflags := h.flags (by simp [hpc])
  refine ⟨always_cons ?_ h.explained, ?_⟩
  · rw [Svc.ctx_def]
    cases hflag : (s.g.ctx s.pool).reconnectRequested with
    | true =>
      obtain ⟨-, -, htake⟩ := hflags s.pool hflag
      simp only [TakesRequest, hpc] at htake
      exact htake
    | false => trivial
  · intro _ p hflag
    obtain ⟨hp, hin, -⟩ := hflags p hflag
    exact ⟨hp, hin, trivial⟩

theorem FlagInv.reconnectTaken (h : FlagInv s) {next : Nat} {wrapped : Bool}
    (hpc : s.pc = .handleTake next wrapped) :
    FlagInv ((({ s with
        g := s.g.modifyCtx s.pool fun c => { c with reconnectRequested := false } }.record
      (.reconnectTaken s.pool)).stratumResetRetryCycle).goto .head) := by
  refine ⟨flagExplained_append h.explained [.reconnectTaken s.pool] (by simp), ?_⟩
  intro _ p hflag
  have hctx : ((s.g.modifyCtx s.pool fun c => { c with reconnectRequested := false }).ctx
      p).reconnectRequested = true := hflag
  rw [Globals.modifyCtx_ctx] at hctx
  split at hctx
  · exact absurd hctx (by simp)
  · rename_i hp
    exact absurd (h.flags (by simp [hpc]) p hctx).1 hp

/-- A request that a mining thread makes where it can only be taken. -/
theorem FlagInv.minerRaised (h : FlagInv s) (hdev : s.onDevPool = s.g.devfee.inSlice) {q : Nat}
    (hguard : RaiseGuard s (.minerRaise q)) :
    FlagInv ({ s with g := s.g.modifyCtx q fun c => { c with reconnectRequested := true } }.record
      (.minerRaised q)) := by
  refine ⟨flagExplained_append h.explained [.minerRaised q] (by simp), ?_⟩
  intro hrun p hflag
  obtain hexited | ⟨rfl, huser, htake⟩ := hguard
  · exact absurd hexited hrun
  · by_cases hp : p = s.pool
    · refine ⟨hp, hdev.symm.trans huser, ?_⟩
      by_cases hentry : s.pc = .loopEntry
      · simp only [TakesRequest, Svc.record, hentry]
        exact raisedSinceOpened_minerRaised s.log
      · have htakes := htake.resolve_left hentry
        unfold TakesRequest at htakes ⊢
        cases hpc : s.pc <;> simp_all [Svc.record]
    · have hctx : ((s.g.modifyCtx s.pool fun c => { c with reconnectRequested := true }).ctx
          p).reconnectRequested = true := hflag
      rw [Globals.modifyCtx_ctx, if_neg hp] at hctx
      exact absurd (h.flags hrun p hctx).1 hp

theorem FlagInv.step (hsetup : Setup opt g₀) (hw : Svc.Wf g₀ s) (h : FlagInv s) {a : Act}
    (hguard : RequestGuard s a) (ht : Svc.Trans opt g₀ s a s') : FlagInv s' := by
  have hdev := hw.onDevPool hsetup
  cases ht with
  | goto hgoto => exact h.goto hsetup hw hgoto
  | exit _ =>
    refine h.frame [] rfl unrelated_nil ?_ (fun hne => absurd rfl hne)
      fun _ _ _ hne => absurd rfl hne
    exact modifyCtx_reconnectRequested s.g s.pool (fun c => { c with threadActive := false })
      fun _ => rfl
  | connecting hpc _ =>
    obtain ⟨es, hlog, hes⟩ := s.recordAttempt_log
    exact h.frame_elsewhere es hlog (unrelated_of_mem fun e he => Or.inl (hes e he))
      (fun _ => rfl) (by simp [hpc]) (by simp [TakesRequest, hpc])
  | connectingFresh hpc _ =>
    obtain ⟨es, hlog, hes⟩ := s.recordAttempt_log
    refine h.frame_elsewhere es hlog (unrelated_of_mem fun e he => Or.inl (hes e he)) ?_
      (by simp [hpc]) (by simp [TakesRequest, hpc])
    exact modifyCtx_reconnectRequested s.g s.pool
      (fun c => { c with url := (s.g.pools s.pool).url }) fun _ => rfl
  | noUrl hpc =>
    obtain ⟨es, hlog, hes⟩ := s.recordAttempt_log
    exact h.frame_elsewhere es hlog (unrelated_of_mem fun e he => Or.inl (hes e he))
      (fun _ => rfl) (by simp [hpc]) (by simp [TakesRequest, hpc])
  | connected tls hpc =>
    refine h.frame_elsewhere [] rfl unrelated_nil ?_ (by simp [hpc]) (by simp [TakesRequest, hpc])
    exact modifyCtx_reconnectRequested s.g s.pool (fun c => { c with useTls := tls }) fun _ => rfl
  | connectFailed tls hpc =>
    refine h.frame_elsewhere [] rfl unrelated_nil ?_ (by simp [hpc]) (by simp [TakesRequest, hpc])
    exact modifyCtx_reconnectRequested s.g s.pool (fun c => { c with useTls := tls }) fun _ => rfl
  | requestFailed hpc _ =>
    refine h.frame [_] rfl (by simp [Unrelated]) (fun _ => rfl)
      (fun _ => by simp [hpc]) ?_
    intro _ hin _ _
    have huser : s.onDevPool = false := hdev.trans hin
    have hpc' : s.stratumDisconnect.openFailed.pc = .handling := by
      show (if s.onDevPool = true then Pc.devAdvance else Pc.handling) = .handling
      rw [huser]
      rfl
    exact ⟨rfl, hin, by simp [TakesRequest, hpc']⟩
  | loggedIn publishes hpc hconn =>
    obtain ⟨es, hlog, hes⟩ := s.recordPublished_log publishes
    exact h.frame_elsewhere es hlog (unrelated_of_mem fun e he => Or.inr (hes e he))
      (fun _ => rfl) (by simp [hpc]) (by simp [TakesRequest, hpc, hconn])
  | @redirected val outcome url pc hpc hconn hreply hurl =>
    have hredirects : redirects s (.line (some val) outcome) = true := by
      rcases hpc with ⟨r, hwait, -⟩ | ⟨hrecv, -⟩
      · simp [redirects, hconn, hurl, hwait, hreply r hwait]
      · simp [redirects, hconn, hurl, hrecv]
    obtain ⟨huser, hextra⟩ := hguard.1 hredirects
    exact h.redirected hpc (hdev.symm.trans huser) hextra
  | message publishes hpc hconn =>
    obtain ⟨es, hlog, hes⟩ := s.recordPublished_log publishes
    refine h.frame es hlog (unrelated_of_mem fun e he => Or.inr (hes e he)) (fun _ => rfl) ?_ ?_
    · rcases hpc with ⟨r, hpc, -⟩ | ⟨hpc, -⟩ <;> simp [hpc]
    · intro _ hin htake _
      refine ⟨rfl, hin, ?_⟩
      rcases hpc with ⟨r, hpc, -⟩ | ⟨-, rfl | rfl⟩
      · simp [TakesRequest, hpc, hconn] at htake
      · trivial
      · trivial
  | sessionOpened hpc => exact h.sessionOpened hpc
  | enterLoop hpc => exact h.enterLoop hpc
  | @sliceBegun d hpc hclear _ _ =>
    refine h.frame_elsewhere _ rfl (unrelated_transition s d) ?_ (by simp [hpc]) (by simp [hclear])
    intro p
    exact (Svc.moveTo_reconnectRequested _ d p).trans
      (devfeeTakeTransition_reconnectRequested opt s.g s.now s.pool p)
  | @sliceEnded u hpc hclear _ _ =>
    refine h.frame_elsewhere _ rfl (unrelated_transition s u) ?_ (by simp [hpc]) (by simp [hclear])
    intro p
    exact (Svc.moveTo_reconnectRequested _ u p).trans
      (devfeeTakeTransition_reconnectRequested opt s.g s.now s.pool p)
  | targetAdvanced hpc _ _ =>
    refine h.frame_elsewhere [_, _] rfl (by simp [Unrelated]) ?_ (by simp [hpc])
      (by simp [TakesRequest, hpc])
    exact devfeeSetPoolTarget_reconnectRequested opt s.g _
  | sliceAborted hpc _ _ =>
    refine h.frame_elsewhere [_, _, _] rfl (by simp [Unrelated]) ?_
      (by simp [hpc]) (by simp [TakesRequest, hpc])
    exact fun p => Svc.moveTo_reconnectRequested _ _ p
  | handle hpc =>
    refine h.frame [_] rfl (by simp [Unrelated]) (fun _ => rfl)
      (fun _ => by simp [hpc]) fun _ hin _ _ => ⟨rfl, hin, trivial⟩
  | failed hpc _ =>
    refine h.frame [_] rfl (by simp [Unrelated]) (fun _ => rfl)
      (fun _ => by simp [hpc]) fun _ hin _ _ => ⟨rfl, hin, trivial⟩
  | reconnectTaken hpc => exact h.reconnectTaken hpc
  | failedOver hpc hclear _ _ =>
    exact h.frame_elsewhere [_] rfl (by simp [Unrelated])
      (fun p => Svc.moveTo_reconnectRequested _ _ p) (by simp [hpc]) (by simp [hclear])
  | retryLimit hpc _ _ _ =>
    refine h.frame [_] rfl (by simp [Unrelated]) ?_ (fun hne => absurd rfl hne)
      fun _ _ _ hne => absurd rfl hne
    exact modifyCtx_reconnectRequested s.g.minerRequestAbort s.pool
      (fun c => { c with threadActive := false }) fun _ => rfl
  | retryPause hpc hclear _ _ =>
    exact h.frame_elsewhere [_, _] rfl (by simp [Unrelated]) (fun _ => rfl)
      (by simp [hpc]) (by simp [hclear])
  | resumedNext hpc _ =>
    exact h.frame_elsewhere [_] rfl (by simp [Unrelated])
      (fun p => Svc.moveTo_reconnectRequested _ _ p) (by simp [hpc]) (by simp [TakesRequest, hpc])
  | resumed hpc _ =>
    exact h.frame_elsewhere [] rfl unrelated_nil (fun _ => rfl) (by simp [hpc])
      (by simp [TakesRequest, hpc])
  | minerRaised q => exact h.minerRaised hdev hguard.2
  | abortRequested =>
    exact h.frame [] rfl unrelated_nil (fun _ => rfl) id fun _ hin htake _ => ⟨rfl, hin, htake⟩
  | clock t =>
    exact h.frame [] rfl unrelated_nil (fun _ => rfl) id fun _ hin htake _ => ⟨rfl, hin, htake⟩

end flags

section runs
variable {opt : Options} {userPools : List PoolInfos} {now : Int} {draw : Nat} {s₀ : Svc}

end runs

namespace Scenario

/-- `client.reconnect` to another host. -/
def redirectLine : Act :=
  .line (some (.object [("id", .null), ("method", .string "client.reconnect"),
    ("params", .array [.string "c.example", .integer 4444])])) handled

/-- From the tests of the message loop to the receive, and the redirect. -/
def redirected : List Act := [.run, .run, .run, redirectLine]

end Scenario

open Scenario

end PrimoMiner
