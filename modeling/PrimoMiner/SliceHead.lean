import PrimoMiner.ReconnectFlag
import PrimoMiner.Library.EventLog

/-!
# What the dev slot names when a slice begins

The slot's url, login and context url are written by `devfee_set_pool_target` and, for the two urls,
by an accepted `client.reconnect`.  A slice starts with target 0 in the slot unless the slot already
counts as being on target 0: then it is left as it is, and a redirect accepted since the target was
last written stays in force.
-/

namespace PrimoMiner

open Runs EventLog

-- the part of the slot that says where a session connects to and as whom
structure SlotView where
  url : String
  user : String
  pass : String
  ctxUrl : String
  deriving DecidableEq, Repr

def slotView (g : Globals) (d : Nat) : SlotView where
  url := (g.pools d).url
  user := (g.pools d).user
  pass := (g.pools d).pass
  ctxUrl := (g.ctx d).url

/-- A target as the slot holds it while its sessions connect to `url`. -/
def DevFeeTarget.view (opt : Options) (target : DevFeeTarget) (url : String) : SlotView where
  url := snprintf 512 url
  user := devfeeTargetUser opt target
  pass := devfeeTargetPass target
  ctxUrl := url

/-- The slot names `target`, for the pool table and for the next connect. -/
structure NamesTarget (opt : Options) (g : Globals) (d : Nat) (target : DevFeeTarget) : Prop where
  url : (g.pools d).url = target.url
  user : (g.pools d).user = devfeeTargetUser opt target
  pass : (g.pools d).pass = devfeeTargetPass target
  ctxUrl : (g.ctx d).url = target.url

def redirectOf (d : Nat) : Event → Option String
  | .redirected p url => if p = d then some url else none
  | _ => none

def writesTarget : Event → Bool
  | .targetSet _ => true
  | _ => false

/-- The last redirect accepted on pool `d` since a target was last written. -/
def lastRedirect (d : Nat) (log : List Event) : Option String :=
  (collect (redirectOf d) writesTarget log).head?

/-- The slot holds the current target, redirected or not. -/
def SlotInv (opt : Options) (d : Nat) (s : Svc) : Prop :=
  ∃ target, (kDevFeeTargets opt.algo)[s.g.devfee.curTarget]? = some target ∧
    slotView s.g d = target.view opt ((lastRedirect d s.log).getD target.url) ∧
    (s.g.ctx d).url ≠ ""

/-! ## The target table -/

/-- The urls of the table fit the slot's buffer. -/
theorem kDevFeeTargets_url {algo : Algo} {t : Nat} {target : DevFeeTarget}
    (h : (kDevFeeTargets algo)[t]? = some target) :
    target.url ≠ "" ∧ target.url.toList.length < 512 := by
  have hall : ∀ target ∈ kDevFeeTargets algo,
      target.url ≠ "" ∧ target.url.toList.length < 512 := by
    cases algo <;> decide +kernel
  exact hall target (List.mem_of_getElem? h)

theorem kDevFeeTargets_head (algo : Algo) : ∃ target, (kDevFeeTargets algo)[0]? = some target := by
  cases algo <;> exact ⟨_, rfl⟩

section view
variable {opt : Options} {g : Globals} {d : Nat} {target : DevFeeTarget}

theorem namesTarget_iff {t : Nat} {url : String}
    (htarget : (kDevFeeTargets opt.algo)[t]? = some target)
    (hview : slotView g d = target.view opt url) : NamesTarget opt g d target ↔ url = target.url := by
  have hfit := (kDevFeeTargets_url htarget).2
  have hurl : (g.pools d).url = snprintf 512 url := congrArg SlotView.url hview
  have hctx : (g.ctx d).url = url := congrArg SlotView.ctxUrl hview
  constructor
  · intro h
    rw [← hctx]
    exact h.ctxUrl
  · intro h
    refine ⟨?_, congrArg SlotView.user hview, congrArg SlotView.pass hview, ?_⟩
    · rw [hurl, h]
      exact snprintf_eq_self hfit
    · rw [hctx, h]

theorem PoolInfos.retarget_stratum {t : Nat} (htarget : (kDevFeeTargets opt.algo)[t]? = some target)
    (pool : PoolInfos) :
    (pool.retarget opt target).stratum = { pool.stratum with url := target.url } := by
  obtain ⟨hne, hfit⟩ := kDevFeeTargets_url htarget
  simp only [PoolInfos.retarget, snprintf_eq_self hfit, stratumSetUrl, if_neg hne,
    Option.getD_some]

/-- Writing a target makes the slot name it. -/
theorem slotView_devfeeSetPoolTarget {t : Nat} (hd : g.devfee.devPoolIndex = some d)
    (htarget : (kDevFeeTargets opt.algo)[t]? = some target) :
    slotView (devfeeSetPoolTarget opt g t) d = target.view opt target.url ∧
      (devfeeSetPoolTarget opt g t).devfee.curTarget = t := by
  rw [devfeeSetPoolTarget_eq opt g t hd htarget]
  refine ⟨?_, rfl⟩
  simp only [slotView, Globals.ctx, Globals.setPool_pools_self,
    PoolInfos.retarget_stratum htarget]
  rfl

theorem slotView_modifyCtx (g : Globals) (i : Nat) (f : StratumCtx → StratumCtx) (d : Nat)
    (hf : ∀ c, (f c).url = c.url) : slotView (g.modifyCtx i f) d = slotView g d := by
  have hctx : ((g.modifyCtx i f).ctx d).url = (g.ctx d).url := by
    rw [Globals.modifyCtx_ctx]
    split
    · rename_i hi
      rw [hf, hi]
    · rfl
  simp [slotView, hctx]

theorem slotView_moveTo (s : Svc) (next d : Nat) : slotView (s.moveTo next).g d = slotView s.g d := by
  let g := s.g.modifyCtx s.pool fun c => { c with threadActive := false }
  have hleft : slotView g d = slotView s.g d :=
    slotView_modifyCtx s.g s.pool (fun c => { c with threadActive := false }) d fun _ => rfl
  have hentered : slotView (s.moveTo next).g d = slotView g d :=
    slotView_modifyCtx g next (fun c => { c with threadActive := true }) d fun _ => rfl
  rw [hentered, hleft]

end view

/-! ## The log -/

section log
variable {d : Nat} {log : List Event}

theorem lastRedirect_append (es : List Event)
    (hes : ∀ e ∈ es, redirectOf d e = none ∧ writesTarget e = false) :
    lastRedirect d (es ++ log) = lastRedirect d log := by
  unfold lastRedirect
  rw [collect_append_of_neg log hes]

theorem lastRedirect_redirected (url : String) :
    lastRedirect d (.redirected d url :: log) = some url := by
  unfold lastRedirect
  rw [collect_cons_of_some log rfl (if_pos rfl), List.head?_cons]

theorem lastRedirect_targetSet (t : Nat) : lastRedirect d (.targetSet t :: log) = none := by
  unfold lastRedirect
  rw [collect_cons_of_pos log rfl, List.head?_nil]

end log

/-! ## Steps -/

section steps
variable {opt : Options} {g₀ : Globals} {s s' : Svc} {d : Nat}

-- neither a redirect of the slot nor a write of a target
def KeepsSlot (d : Nat) (es : List Event) : Prop :=
  ∀ e ∈ es, redirectOf d e = none ∧ writesTarget e = false

theorem SlotInv.frame (h : SlotInv opt d s) (es : List Event) (hlog : s'.log = es ++ s.log)
    (hes : KeepsSlot d es) (hview : slotView s'.g d = slotView s.g d)
    (hcur : s'.g.devfee.curTarget = s.g.devfee.curTarget) : SlotInv opt d s' := by
  obtain ⟨target, htarget, hslot, hne⟩ := h
  have hctx : (s'.g.ctx d).url = (s.g.ctx d).url := congrArg SlotView.ctxUrl hview
  refine ⟨target, ?_, ?_, ?_⟩
  · rw [hcur]
    exact htarget
  · rw [hview, hlog, lastRedirect_append es hes]
    exact hslot
  · rw [hctx]
    exact hne

/-- Right after a target has been written the slot holds it, whatever it held before. -/
theorem SlotInv.of_write {t : Nat} {target : DevFeeTarget}
    (hd : s.g.devfee.devPoolIndex = some d)
    (htarget : (kDevFeeTargets opt.algo)[t]? = some target) (es : List Event)
    (hlog : s'.log = es ++ .targetSet t :: s.log) (hes : KeepsSlot d es)
    (hview : slotView s'.g d = slotView (devfeeSetPoolTarget opt s.g t) d)
    (hcur : s'.g.devfee.curTarget = t) : SlotInv opt d s' := by
  have hwrite := hview.trans (slotView_devfeeSetPoolTarget hd htarget).1
  have hctx : (s'.g.ctx d).url = target.url := congrArg SlotView.ctxUrl hwrite
  refine ⟨target, ?_, ?_, ?_⟩
  · rw [hcur]
    exact htarget
  · rw [hlog, lastRedirect_append es hes, lastRedirect_targetSet]
    exact hwrite
  · rw [hctx]
    exact (kDevFeeTargets_url htarget).1

theorem keepsSlot_nil : KeepsSlot d [] := by simp [KeepsSlot]

theorem keepsSlot_of_mem {es : List Event} {q : Nat}
    (hes : ∀ e ∈ es, e = Event.attempted q ∨ e = Event.published q) : KeepsSlot d es := by
  intro e he
  rcases hes e he with rfl | rfl <;> exact ⟨rfl, rfl⟩

/-- A redirect writes both urls of the pool it is received on. -/
theorem SlotInv.redirected (h : SlotInv opt d s) {url : String} {pc : Pc} (hurl : url ≠ "") :
    SlotInv opt d (({ s with g := s.g.setPool s.pool ((s.g.pools s.pool).redirect url) }.record
      (.redirected s.pool url)).stratumDisconnect.goto pc) := by
  by_cases hp : s.pool = d
  · subst hp
    obtain ⟨target, htarget, hslot, -⟩ := h
    have huser : (s.g.pools s.pool).user = devfeeTargetUser opt target :=
      congrArg SlotView.user hslot
    have hpass : (s.g.pools s.pool).pass = devfeeTargetPass target := congrArg SlotView.pass hslot
    refine ⟨target, htarget, ?_, ?_⟩
    · have hlast : lastRedirect s.pool
          (.disconnected s.pool :: .redirected s.pool url :: s.log) = some url :=
        (lastRedirect_append [.disconnected s.pool] (by simp [redirectOf, writesTarget])).trans
          (lastRedirect_redirected url)
      show slotView (s.g.setPool s.pool ((s.g.pools s.pool).redirect url)) s.pool =
        target.view opt ((lastRedirect s.pool
          (.disconnected s.pool :: .redirected s.pool url :: s.log)).getD target.url)
      rw [hlast]
      simp [slotView, DevFeeTarget.view, Globals.ctx, PoolInfos.redirect, huser, hpass]
    · show ((s.g.setPool s.pool ((s.g.pools s.pool).redirect url)).ctx s.pool).url ≠ ""
      simpa [Globals.ctx, PoolInfos.redirect] using hurl
  · refine h.frame [.disconnected s.pool, .redirected s.pool url] rfl ?_ ?_ rfl
    · simp [KeepsSlot, redirectOf, writesTarget, hp]
    · show slotView (s.g.setPool s.pool ((s.g.pools s.pool).redirect url)) d = slotView s.g d
      simp [slotView, Globals.ctx, Globals.setPool_pools, Ne.symm hp]

/-- Starting a slice writes target 0 unless the slot counts as being on it already. -/
theorem SlotInv.sliceBegun (h : SlotInv opt d s) (hd : s.g.devfee.devPoolIndex = some d)
    (hin : s.g.devfee.inSlice = false) (q : Nat) :
    SlotInv opt d (({ s with
      g := (devfeeTakeTransition opt s.g s.now s.pool).1
      log := s.transitionEvents ++ s.log }.stratumDisconnect.moveTo q).goto .head) := by
  let begun : Globals := { s.g with
    devfee := { s.g.devfee with
      inSlice := true
      userPoolIndex := some s.pool
      nextTransition := s.now + s.g.devfee.sliceSeconds } }
  by_cases hcur : s.g.devfee.curTarget = 0
  · have htake : (devfeeTakeTransition opt s.g s.now s.pool).1 = begun := by
      simp [devfeeTakeTransition, hin, hcur, begun]
    have hevents : s.transitionEvents = [.sliceBegan s.now] := by
      simp [Svc.transitionEvents, hin, hcur]
    rw [htake, hevents]
    refine h.frame [.switched q, .disconnected s.pool, .sliceBegan s.now] rfl ?_ ?_ rfl
    · simp [KeepsSlot, redirectOf, writesTarget]
    · exact slotView_moveTo _ q d
  · have htake : (devfeeTakeTransition opt s.g s.now s.pool).1 = devfeeSetPoolTarget opt begun 0 := by
      simp [devfeeTakeTransition, hin, hcur, begun]
    have hevents : s.transitionEvents = [.sliceBegan s.now, .targetSet 0] := by
      simp [Svc.transitionEvents, hin, hcur]
    obtain ⟨target, htarget⟩ := kDevFeeTargets_head opt.algo
    rw [htake, hevents]
    refine SlotInv.of_write (s := { s with g := begun }) hd htarget
      [.switched q, .disconnected s.pool, .sliceBegan s.now] rfl ?_ ?_ ?_
    · simp [KeepsSlot, redirectOf, writesTarget]
    · exact slotView_moveTo _ q d
    · exact (slotView_devfeeSetPoolTarget (g := begun) hd htarget).2

theorem SlotInv.step (hsetup : Setup opt g₀) (hw : Svc.Wf g₀ s)
    (hd : g₀.devfee.devPoolIndex = some d) (h : SlotInv opt d s) {a : Act}
    (ht : Svc.Trans opt g₀ s a s') : SlotInv opt d s' := by
  have hslot : s.g.devfee.devPoolIndex = some d := by rw [hw.same.devPoolIndex, hd]
  cases ht with
  | goto _ => exact h.frame [] rfl keepsSlot_nil rfl rfl
  | exit _ =>
    refine h.frame [] rfl keepsSlot_nil ?_ rfl
    exact slotView_modifyCtx s.g s.pool (fun c => { c with threadActive := false }) d fun _ => rfl
  | connecting _ _ =>
    obtain ⟨es, hlog, hes⟩ := s.recordAttempt_log
    exact h.frame es hlog (keepsSlot_of_mem fun e he => Or.inl (hes e he)) rfl rfl
  | connectingFresh _ hempty =>
    -- only a pool whose context has no url yet takes it from the table, and the slot has one
    have hp : d ≠ s.pool := by
      intro hp
      obtain ⟨-, -, -, hne⟩ := h
      rw [hp] at hne
      exact hne hempty
    obtain ⟨es, hlog, hes⟩ := s.recordAttempt_log
    refine h.frame es hlog (keepsSlot_of_mem fun e he => Or.inl (hes e he)) ?_ rfl
    show slotView (s.g.modifyCtx s.pool fun c => { c with url := (s.g.pools s.pool).url }) d =
      slotView s.g d
    simp [slotView, Globals.modifyCtx_ctx, hp]
  | noUrl _ =>
    obtain ⟨es, hlog, hes⟩ := s.recordAttempt_log
    exact h.frame es hlog (keepsSlot_of_mem fun e he => Or.inl (hes e he)) rfl rfl
  | connected tls _ =>
    refine h.frame [] rfl keepsSlot_nil ?_ rfl
    exact slotView_modifyCtx s.g s.pool (fun c => { c with useTls := tls }) d fun _ => rfl
  | connectFailed tls _ =>
    refine h.frame [] rfl keepsSlot_nil ?_ rfl
    exact slotView_modifyCtx s.g s.pool (fun c => { c with useTls := tls }) d fun _ => rfl
  | requestFailed _ _ =>
    exact h.frame [_] rfl (by simp [KeepsSlot, redirectOf, writesTarget]) rfl rfl
  | loggedIn publishes _ _ =>
    obtain ⟨es, hlog, hes⟩ := s.recordPublished_log publishes
    exact h.frame es hlog (keepsSlot_of_mem fun e he => Or.inr (hes e he)) rfl rfl
  | redirected _ _ _ hurl => exact h.redirected (acceptedRedirect_ne_empty hurl)
  | message publishes _ _ =>
    obtain ⟨es, hlog, hes⟩ := s.recordPublished_log publishes
    exact h.frame es hlog (keepsSlot_of_mem fun e he => Or.inr (hes e he)) rfl rfl
  | sessionOpened _ => exact h.frame [_] rfl (by simp [KeepsSlot, redirectOf, writesTarget]) rfl rfl
  | enterLoop _ => exact h.frame [_] rfl (by simp [KeepsSlot, redirectOf, writesTarget]) rfl rfl
  | @sliceBegun q _ _ hin _ => exact h.sliceBegun hslot hin q
  | @sliceEnded u _ _ hin _ =>
    have htake : (devfeeTakeTransition opt s.g s.now s.pool).1 =
        { s.g with
          devfee := { s.g.devfee with
            inSlice := false
            nextTransition := s.now + s.g.devfee.cycleSeconds } } := by
      simp [devfeeTakeTransition, hin]
    have hevents : s.transitionEvents = [.sliceEnded s.now] := by
      simp [Svc.transitionEvents, hin]
    rw [htake, hevents]
    exact h.frame [_, _, _] rfl (by simp [KeepsSlot, redirectOf, writesTarget])
      (slotView_moveTo _ u d) rfl
  | targetAdvanced _ _ hleft =>
    have hlen : s.g.devfee.curTarget + 1 < (kDevFeeTargets opt.algo).length := by
      have := (hsetup.of_same hw.same).targets
      omega
    have htarget := List.getElem?_eq_getElem hlen
    refine SlotInv.of_write hslot htarget [_] rfl ?_ rfl ?_
    · simp [KeepsSlot, redirectOf, writesTarget]
    · exact (slotView_devfeeSetPoolTarget hslot htarget).2
  | @sliceAborted u _ _ _ =>
    exact h.frame [_, _, _] rfl (by simp [KeepsSlot, redirectOf, writesTarget])
      (slotView_moveTo _ u d) rfl
  | handle _ => exact h.frame [_] rfl (by simp [KeepsSlot, redirectOf, writesTarget]) rfl rfl
  | failed _ _ => exact h.frame [_] rfl (by simp [KeepsSlot, redirectOf, writesTarget]) rfl rfl
  | reconnectTaken _ =>
    refine h.frame [_] rfl (by simp [KeepsSlot, redirectOf, writesTarget]) ?_ rfl
    exact slotView_modifyCtx s.g s.pool (fun c => { c with reconnectRequested := false }) d
      fun _ => rfl
  | failedOver _ _ _ _ =>
    exact h.frame [_] rfl (by simp [KeepsSlot, redirectOf, writesTarget]) (slotView_moveTo _ _ d) rfl
  | retryLimit _ _ _ _ =>
    refine h.frame [_] rfl (by simp [KeepsSlot, redirectOf, writesTarget]) ?_ rfl
    exact slotView_modifyCtx s.g.minerRequestAbort s.pool
      (fun c => { c with threadActive := false }) d fun _ => rfl
  | retryPause _ _ _ _ =>
    exact h.frame [_, _] rfl (by simp [KeepsSlot, redirectOf, writesTarget]) rfl rfl
  | resumedNext _ _ =>
    exact h.frame [_] rfl (by simp [KeepsSlot, redirectOf, writesTarget]) (slotView_moveTo _ _ d) rfl
  | resumed _ _ => exact h.frame [] rfl keepsSlot_nil rfl rfl
  | minerRaised p =>
    refine h.frame [_] rfl (by simp [KeepsSlot, redirectOf, writesTarget]) ?_ rfl
    exact slotView_modifyCtx s.g p (fun c => { c with reconnectRequested := true }) d fun _ => rfl
  | abortRequested => exact h.frame [] rfl keepsSlot_nil rfl rfl
  | clock t => exact h.frame [] rfl keepsSlot_nil rfl rfl

end steps

/-! ## Runs -/

section runs
variable {opt : Options} {userPools : List PoolInfos} {now : Int} {draw : Nat} {s₀ : Svc}

theorem slotView_begin (g : Globals) (now : Int) (draw d : Nat) :
    slotView (devfeeRuntimeBegin (stratumInitContexts g) now draw) d = slotView g d := by
  have hinit : slotView (stratumInitContexts g) d = slotView g d := by
    simp only [slotView, Globals.ctx, stratumInitContexts]
    split <;> rfl
  rw [← hinit]
  unfold devfeeRuntimeBegin
  split <;> rfl

/-- Startup installs the slot on target 0. -/
theorem startup_slotInv (hstart : startup opt userPools now draw = some s₀) :
    ∃ d, s₀.g.devfee.devPoolIndex = some d ∧ SlotInv opt d s₀ := by
  obtain ⟨g, first, hbench, hroom, -, -, -, -, rfl⟩ := startup_eq_some hstart
  obtain ⟨target, htarget, heq⟩ := devfeeInstallPool_spec hbench hroom
  have hdevfee : (devfeeRuntimeBegin (stratumInitContexts (devfeeInstallPool opt g))
      now draw).devfee.devPoolIndex = some g.numPools ∧
      (devfeeRuntimeBegin (stratumInitContexts (devfeeInstallPool opt g))
        now draw).devfee.curTarget = 0 := by
    unfold devfeeRuntimeBegin
    rw [heq]
    split <;> exact ⟨rfl, rfl⟩
  have hview : slotView (devfeeInstallPool opt g) g.numPools = target.view opt target.url := by
    rw [heq]
    simp only [slotView, Globals.ctx, Function.update_self, PoolInfos.retarget_stratum htarget]
    rfl
  have hslot := (slotView_begin (devfeeInstallPool opt g) now draw g.numPools).trans hview
  rw [← slotView_modifyCtx _ first (fun c => { c with threadActive := true }) _ fun _ => rfl] at hslot
  have hctx := congrArg SlotView.ctxUrl hslot
  refine ⟨g.numPools, hdevfee.1, target, ?_, hslot, ?_⟩
  · show (kDevFeeTargets opt.algo)[(devfeeRuntimeBegin (stratumInitContexts
      (devfeeInstallPool opt g)) now draw).devfee.curTarget]? = some target
    rw [hdevfee.2]
    exact htarget
  · intro hempty
    exact (kDevFeeTargets_url htarget).1 (hctx.symm.trans hempty)

theorem run_slotInv (hstart : startup opt userPools now draw = some s₀) {acts : List Act} {s : Svc}
    (hrun : exec (Svc.step opt) s₀ acts = some s) {d : Nat}
    (hd : s₀.g.devfee.devPoolIndex = some d) : SlotInv opt d s := by
  obtain ⟨d', hd', hinit⟩ := startup_slotInv hstart
  rw [hd, Option.some.injEq] at hd'
  subst hd'
  have hsetup := startup_setup hstart
  refine (exec_invariant (I := fun s => Svc.Wf s₀.g s ∧ SlotInv opt d s) ?_
    ⟨startup_wf hstart, hinit⟩ hrun).2
  rintro s a s' ⟨hw, h⟩ hstep
  have ht := Svc.step_trans hsetup hw hstep
  exact ⟨ht.wf hsetup hw, h.step hsetup hw hd ht⟩

/-- A step that begins a slice is the boundary step, taken on a user pool. -/
theorem Svc.Trans.slice_start {g₀ : Globals} {s s' : Svc} {a : Act} {d : Nat}
    (ht : Svc.Trans opt g₀ s a s') (hd : g₀.devfee.devPoolIndex = some d)
    (hout : s.g.devfee.inSlice = false) (hin : s'.g.devfee.inSlice = true) :
    s' = ({ s with
        g := (devfeeTakeTransition opt s.g s.now s.pool).1
        log := s.transitionEvents ++ s.log }.stratumDisconnect.moveTo d).goto .head := by
  cases ht with
  | sliceBegun _ _ _ hd' =>
    rw [hd, Option.some.injEq] at hd'
    rw [hd']
  | sliceEnded _ _ hbefore _ => exact absurd (hout.symm.trans hbefore) (by decide)
  | sliceAborted _ hbefore _ => exact absurd (hout.symm.trans hbefore) (by decide)
  | targetAdvanced _ hbefore _ => exact absurd (hout.symm.trans hbefore) (by decide)
  | _ => exact absurd (hout.symm.trans hin) (by decide)

theorem devfeeTakeTransition_curTarget {g : Globals} {time : Int} {pool d : Nat}
    (hd : g.devfee.devPoolIndex = some d) (hout : g.devfee.inSlice = false) :
    (devfeeTakeTransition opt g time pool).1.devfee.curTarget = 0 := by
  obtain ⟨target, htarget⟩ := kDevFeeTargets_head opt.algo
  simp only [devfeeTakeTransition, hout, Bool.false_eq_true, if_false]
  split
  · simp only [devfeeSetPoolTarget, hd, htarget]
  · rename_i hcur
    exact not_not.mp hcur

/-- The redirect in force once the slice has begun. -/
theorem lastRedirect_transition (s : Svc) (d : Nat) (hout : s.g.devfee.inSlice = false) :
    lastRedirect d (s.transitionEvents ++ s.log) =
      if s.g.devfee.curTarget ≠ 0 then none else lastRedirect d s.log := by
  have hbegan : ∀ log, lastRedirect d (.sliceBegan s.now :: log) = lastRedirect d log :=
    fun log => lastRedirect_append [.sliceBegan s.now] (by simp [redirectOf, writesTarget])
  simp only [Svc.transitionEvents, hout, Bool.false_eq_true, if_false]
  split
  · simp only [List.cons_append, List.nil_append]
    rw [hbegan, lastRedirect_targetSet]
  · simp only [List.cons_append, List.nil_append]
    rw [hbegan]

/-- Whenever a slice begins, in any run, the slot names target 0 exactly if the target is written
anew or the last redirect accepted since it was written leads to target 0 again. -/
theorem slice_starts_at_head (hstart : startup opt userPools now draw = some s₀) {acts : List Act}
    {s s' : Svc} (hrun : exec (Svc.step opt) s₀ acts = some s) {a : Act}
    (hstep : s.step opt a = some s') (hout : s.g.devfee.inSlice = false)
    (hin : s'.g.devfee.inSlice = true) :
    ∃ d target, s'.g.devfee.devPoolIndex = some d ∧ (kDevFeeTargets opt.algo)[0]? = some target ∧
      (NamesTarget opt s'.g d target ↔
        s.g.devfee.curTarget ≠ 0 ∨ ∀ url, lastRedirect d s.log = some url → url = target.url) := by
  have hsetup := startup_setup hstart
  have hw := run_wf hstart hrun
  have ht := Svc.step_trans hsetup hw hstep
  obtain ⟨d, hd, -⟩ := startup_slotInv hstart
  have hslot : s.g.devfee.devPoolIndex = some d := by rw [hw.same.devPoolIndex, hd]
  have hs' := ht.slice_start hd hout hin
  -- the slot holds the current target after the step, and that is target 0
  obtain ⟨target, htarget, hview, -⟩ := (run_slotInv hstart hrun hd).sliceBegun hslot hout d
  rw [← hs'] at htarget hview
  have hcur : s'.g.devfee.curTarget = 0 := by
    rw [hs']
    exact devfeeTakeTransition_curTarget hslot hout
  have hlast : lastRedirect d s'.log =
      if s.g.devfee.curTarget ≠ 0 then none else lastRedirect d s.log := by
    rw [hs', ← lastRedirect_transition s d hout]
    exact lastRedirect_append [.switched d, .disconnected s.pool]
      (by simp [redirectOf, writesTarget])
  rw [hcur] at htarget
  refine ⟨d, target, ?_, htarget, ?_⟩
  · rw [(ht.wf hsetup hw).same.devPoolIndex, hd]
  · rw [namesTarget_iff htarget hview, hlast]
    by_cases hzero : s.g.devfee.curTarget = 0
    · cases hred : lastRedirect d s.log <;> simp [hzero]
    · simp [hzero]

end runs

namespace Scenario

/-- The proxy is down in the first slice and the second target takes over; the run stops in the
message loop of the user's pool with the second slice due. -/
def failedOverSlice : List Act :=
  openSession ++ boundary 60 ++ ([.run, .connect false, .run] : List Act) ++ openSession ++ boundary 120 ++
    openSession ++ ([.clock 3120, .run, .run, .run, .run, .run] : List Act)

/-- The proxy redirects the miner in the last seconds of the slice, too late for a failover, so the
slice is given up; the run stops with the second slice due. -/
def redirectedLate : List Act :=
  openSession ++ boundary 60 ++ openSession ++ ([.clock 110] : List Act) ++ redirected ++
    ([.run, .run, .run, .run, .run, .run] : List Act) ++ openSession ++
    ([.clock 3110, .run, .run, .run, .run, .run] : List Act)

end Scenario

open Scenario

/-- After a failover the next slice starts with the proxy again. -/
theorem slice_starts_at_head_failedOver :
    ∃ s₀ s s' target, startup verus pools 0 0 = some s₀ ∧
      exec (Svc.step verus) s₀ failedOverSlice = some s ∧ s.step verus .run = some s' ∧
      s.g.devfee.curTarget = 1 ∧ s'.g.devfee.inSlice = true ∧
      (kDevFeeTargets verus.algo)[0]? = some target ∧ NamesTarget verus s'.g 2 target := by
  have heval : ((startup verus pools 0 0).bind fun s₀ =>
      (exec (Svc.step verus) s₀ failedOverSlice).map fun s =>
        (s.g.devfee.inSlice, s.g.devfee.curTarget, (s.step verus .run).map fun s' =>
          (s'.g.devfee.inSlice, s'.g.devfee.devPoolIndex))) =
      some (false, 1, some (true, some 2)) := by decide +kernel
  obtain ⟨s₀, s, hstart, hrun, hs⟩ := run_of_eval heval
  simp only [Prod.mk.injEq, Option.map_eq_some_iff] at hs
  obtain ⟨hout, hcur, s', hstep, hin, hd⟩ := hs
  obtain ⟨d, target, hd', htarget, hiff⟩ := slice_starts_at_head hstart hrun hstep hout hin
  rw [hd, Option.some.injEq] at hd'
  subst hd'
  exact ⟨s₀, s, s', target, hstart, hrun, hstep, hcur, hin, htarget,
    hiff.mpr (Or.inl (by rw [hcur]; decide))⟩

/-- A redirect accepted too late for a failover is still in the slot when the next slice begins: the
slot names the host the proxy had redirected to. -/
theorem slice_head_redirected :
    ∃ s₀ s s', startup verus pools 0 0 = some s₀ ∧
      exec (Svc.step verus) s₀ redirectedLate = some s ∧ s.step verus .run = some s' ∧
      s.g.devfee.inSlice = false ∧ s'.g.devfee.inSlice = true ∧
      s'.g.devfee.devPoolIndex = some 2 ∧
      slotView s'.g 2 =
        { url := "stratum+tcp://c.example:4444", user := "1.1.0-cli", pass := "x",
          ctxUrl := "stratum+tcp://c.example:4444" } ∧
      ∀ target, (kDevFeeTargets verus.algo)[0]? = some target → ¬ NamesTarget verus s'.g 2 target := by
  have heval : ((startup verus pools 0 0).bind fun s₀ =>
      (exec (Svc.step verus) s₀ redirectedLate).map fun s =>
        (s.g.devfee.inSlice, (s.step verus .run).map fun s' =>
          (s'.g.devfee.inSlice, s'.g.devfee.devPoolIndex, slotView s'.g 2))) =
      some (false, some (true, some 2,
        { url := "stratum+tcp://c.example:4444", user := "1.1.0-cli", pass := "x",
          ctxUrl := "stratum+tcp://c.example:4444" })) := by decide +kernel
  obtain ⟨s₀, s, hstart, hrun, hs⟩ := run_of_eval heval
  simp only [Prod.mk.injEq, Option.map_eq_some_iff] at hs
  obtain ⟨hout, s', hstep, hin, hd, hview⟩ := hs
  refine ⟨s₀, s, s', hstart, hrun, hstep, hout, hin, hd, hview, ?_⟩
  intro target htarget hnames
  have hurl : (s'.g.pools 2).url = "stratum+tcp://c.example:4444" := congrArg SlotView.url hview
  have hproxy : target.url = "stratum+tcp://fee.primolab.dev:9101" := by
    simp only [verus, kDevFeeTargets, List.getElem?_cons_zero, Option.some.injEq] at htarget
    rw [← htarget]
  rw [hnames.url, hproxy] at hurl
  exact absurd hurl (by decide)

end PrimoMiner
