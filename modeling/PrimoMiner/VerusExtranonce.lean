import PrimoMiner.Library.Runs
import PrimoMiner.VerusWire

/-!
# Verus submissions under `mining.set_extranonce`

One session and its mining threads.  A notify builds a work with the extranonce of the moment; a thread
copies it, scans it and submits its shares.  A submission reads the size of the extranonce from the
session, without the lock, once for the length of the nonce string and once for its offset, so messages
can come between.  `built` is the extranonce that a work was built with.
-/

namespace PrimoMiner

open Runs

structure PublishedWork where
  work : Work
  built : List Byte

/-- The work of a thread after a scan: `scanned` is the header the scan was given. -/
structure ScannedWork where
  built : List Byte
  solution : Buffer 1344
  scanned : Buffer 272
  work : Work

/-- A submission that has passed the test of the layout; the length is read first. -/
structure LaidOutSubmit where
  id : Fin 2
  lenSize : Option Nat := none

structure SubmitThread where
  copied : Option PublishedWork := none
  shares : Option ScannedWork := none
  pending : Option LaidOutSubmit := none

structure SentShare where
  built : List Byte
  solution : Buffer 1344
  scanned : Buffer 272
  tail : Buffer 15
  view : VerusSubmitView

structure ExtraSys where
  ctx : SessionCtx
  published : Option PublishedWork := none
  threads : Nat → SubmitThread := fun _ => {}
  sent : List SentShare := []

inductive ExtraAct where
  | setExtranonce (params : Option Json)
  | notify (params : Option Json) (now : BitVec 32)
  | copy (thread : Nat)
  | scan (thread : Nat) (l : ThreadLocals) (mode : VerusMode) (stop : Nat → Bool) (maxHashes : Nat)
  -- the restoration and the test of the layout
  | submit (thread : Nat) (id : Fin 2)
  | readLength (thread : Nat)
  -- the last read; the share is sent
  | readOffset (thread : Nat)

namespace ExtraSys

def setThread (s : ExtraSys) (thread : Nat) (th : SubmitThread) : ExtraSys :=
  { s with threads := fun i => if i = thread then th else s.threads i }

/-- A refused message leaves the extranonce as it is. -/
def setExtranonce (s : ExtraSys) (params : Option Json) : ExtraSys :=
  { s with ctx := (stratumParseExtranonce .verus s.ctx params 0).getD s.ctx }

def notify (s : ExtraSys) (params : Option Json) (now : BitVec 32) : ExtraSys :=
  let (ctx, built) := verusStratumNotify .verus s.ctx params now
  { s with
    ctx := ctx
    published := (built.map fun b => { work := b.1, built := ctx.xnonce1 }).or s.published }

def copy (s : ExtraSys) (thread : Nat) : Option ExtraSys :=
  if (s.threads thread).pending.isNone then
    s.published.map fun p => s.setThread thread { copied := some p }
  else none

def scan (s : ExtraSys) (thread : Nat) (l : ThreadLocals) (mode : VerusMode) (stop : Nat → Bool)
    (maxHashes : Nat) : Option ExtraSys :=
  let th := s.threads thread
  if th.pending.isNone then
    th.copied.bind fun p =>
      p.work.verus.bind fun payload =>
        (scanhashVerus mode stop (l.stamp .verus p.work thread) maxHashes).map fun scan =>
          let shares : ScannedWork :=
            { built := p.built
              solution := payload.solution
              scanned := (l.stamp .verus p.work thread).data
              work := scan.work }
          s.setThread thread { th with shares := some shares }
  else none

def submit (s : ExtraSys) (thread : Nat) (id : Fin 2) : Option ExtraSys :=
  let th := s.threads thread
  th.shares.bind fun shares =>
    if th.pending.isNone ∧ id.val < shares.work.validNonces then
      some (s.setThread thread
        { th with
          shares := some { shares with work := verusRestore { shares.work with submitNonceId := id } }
          pending := if verusValidateNonceLayout s.ctx then some { id := id } else none })
    else none

def readLength (s : ExtraSys) (thread : Nat) : Option ExtraSys :=
  let th := s.threads thread
  th.pending.bind fun pending =>
    if pending.lenSize.isNone then
      some (s.setThread thread
        { th with pending := some { pending with lenSize := some s.ctx.xnonce1.length } })
    else none

def readOffset (s : ExtraSys) (thread : Nat) : Option ExtraSys :=
  let th := s.threads thread
  th.pending.bind fun pending =>
    pending.lenSize.bind fun lenSize =>
      th.shares.bind fun shares =>
        shares.work.verus.bind fun payload =>
          (verusSubmitView lenSize s.ctx.xnonce1.length shares.work).map fun view =>
            { s with sent :=
                { built := shares.built, solution := shares.solution, scanned := shares.scanned,
                  tail := payload.nonceTail pending.id, view := view } :: s.sent }.setThread thread
              { th with pending := none }

def step (s : ExtraSys) : ExtraAct → Option ExtraSys
  | .setExtranonce params => some (s.setExtranonce params)
  | .notify params now => some (s.notify params now)
  | .copy thread => s.copy thread
  | .scan thread l mode stop maxHashes => s.scan thread l mode stop maxHashes
  | .submit thread id => s.submit thread id
  | .readLength thread => s.readLength thread
  | .readOffset thread => s.readOffset thread

/-- The size is still the one that the work of the thread was built with. -/
def sizeKept (s : ExtraSys) (thread : Nat) : Prop :=
  ∀ shares, (s.threads thread).shares = some shares → s.ctx.xnonce1.length = shares.built.length

/-- A submission reads the size that its work was built with. -/
def ReadsBuiltSize (s : ExtraSys) : ExtraAct → Prop
  | .readLength thread => s.sizeKept thread
  | .readOffset thread => s.sizeKept thread
  | _ => True

end ExtraSys

/-- The nonce string of a share that was sent. -/
def SentShare.Agrees (share : SentShare) : Prop :=
  NonceFieldAgrees share.built share.solution share.scanned share.tail share.view.noncestr

/-! ## The invariant -/

/-- A published work begins its nonce field with the extranonce. -/
structure PublishedWork.Ok (p : PublishedWork) : Prop where
  length : p.built.length ≤ 12
  field : ∀ i, i < 12 → p.work.data.byte (108 + i) = Buffer.source p.built i

/-- The work comes from a scan and has gone through the submissions `ids`. -/
def ScannedWork.FromScan (shares : ScannedWork) (ids : List (Fin 2)) : Prop :=
  ∃ st payload mode stop maxHashes scan, st.verus = some payload ∧ st.validNonces = 0 ∧
    shares.built.length ≤ 12 ∧
    (∀ i, i < 12 → st.data.byte (108 + i) = Buffer.source shares.built i) ∧
    scanhashVerus mode stop st maxHashes = some scan ∧ shares.solution = payload.solution ∧
    shares.scanned = st.data ∧ shares.work = verusSubmits scan.work ids ∧
    ∀ id ∈ ids, id.val < scan.work.validNonces

structure SubmitThread.Ok (th : SubmitThread) : Prop where
  copied : ∀ p, th.copied = some p → p.Ok
  shares : ∀ shares, th.shares = some shares → ∃ ids, shares.FromScan ids
  pending : ∀ pending, th.pending = some pending → ∃ shares ids, th.shares = some shares ∧
    shares.FromScan (ids ++ [pending.id]) ∧
    ∀ len, pending.lenSize = some len → len = shares.built.length

structure ExtraSys.Ok (s : ExtraSys) : Prop where
  published : ∀ p, s.published = some p → p.Ok
  threads : ∀ thread, (s.threads thread).Ok
  sent : ∀ share ∈ s.sent, share.Agrees

theorem verusSubmits_validNonces (work : Work) (ids : List (Fin 2)) :
    (verusSubmits work ids).validNonces = work.validNonces := by
  induction ids generalizing work with
  | nil => rfl
  | cons id ids ih => exact ih _

/-- A submission of the next share. -/
theorem ScannedWork.FromScan.submit {shares : ScannedWork} {ids : List (Fin 2)}
    (h : shares.FromScan ids) {id : Fin 2} (hid : id.val < shares.work.validNonces) :
    ScannedWork.FromScan
      { shares with work := verusRestore { shares.work with submitNonceId := id } } (ids ++ [id]) := by
  obtain ⟨st, payload, mode, stop, maxHashes, scan, hpayload, hfresh, hlen, hfield, hscan, hsolution,
    hscanned, hwork, hids⟩ := h
  rw [hwork, verusSubmits_validNonces] at hid
  refine ⟨st, payload, mode, stop, maxHashes, scan, hpayload, hfresh, hlen, hfield, hscan, hsolution,
    hscanned, ?_, ?_⟩
  · rw [hwork, verusSubmits, verusSubmits, List.foldl_append]
    rfl
  · intro i hi
    rcases List.mem_append.mp hi with hold | hnew
    · exact hids i hold
    · rw [List.mem_singleton.mp hnew]
      exact hid

/-- With the right sizes, the share that is sent agrees. -/
theorem ScannedWork.FromScan.agrees {shares : ScannedWork} {ids : List (Fin 2)} {id : Fin 2}
    (h : shares.FromScan (ids ++ [id])) {payload : VerusPayload} {view : VerusSubmitView}
    (hpayload : shares.work.verus = some payload)
    (hview : verusSubmitView shares.built.length shares.built.length shares.work = some view) :
    SentShare.Agrees
      { built := shares.built
        solution := shares.solution
        scanned := shares.scanned
        tail := payload.nonceTail id
        view := view } := by
  obtain ⟨st, p, mode, stop, maxHashes, scan, hp, hfresh, hlen, hfield, hscan, hsolution, hscanned,
    hwork, hids⟩ := h
  obtain ⟨p', view', hp', hview', hconsistent⟩ := selfConsistent_of_scan hp hfresh hlen hfield hscan ids
    (hids id (by simp))
  rw [hwork] at hpayload hview
  rw [hpayload, Option.some.injEq] at hp'
  rw [hview, Option.some.injEq] at hview'
  rw [SentShare.Agrees, hsolution, hscanned, hp', hview']
  exact hconsistent.field

/-! ## Steps -/

namespace ExtraSys

variable {s s' : ExtraSys}

theorem Ok.setThread (h : s.Ok) {thread : Nat} {th : SubmitThread} (hth : th.Ok) :
    (s.setThread thread th).Ok where
  published := h.published
  threads := by
    intro i
    show (if i = thread then th else s.threads i).Ok
    split
    · exact hth
    · exact h.threads i
  sent := h.sent

theorem notify_ok (h : s.Ok) (params : Option Json) (now : BitVec 32) : (s.notify params now).Ok := by
  rw [notify]
  cases hbuilt : verusStratumNotify .verus s.ctx params now with
  | mk ctx built =>
    cases built with
    | none => exact ⟨h.published, h.threads, h.sent⟩
    | some b =>
      obtain ⟨work, clean⟩ := b
      refine ⟨?_, h.threads, h.sent⟩
      intro p hp
      obtain ⟨msg, solution, delta, -, -, -, happly, hwork, -⟩ := verusStratumNotify_accepted hbuilt
      obtain ⟨hlayout, _, _, _, _, _, _, _, -, -, -, -, -, -, hctx⟩ := applyVerusJobLocked_eq happly
      have hxnonce1 : ctx.xnonce1 = s.ctx.xnonce1 := by rw [hctx]
      simp only [verusValidateNonceLayout, Bool.and_eq_true, decide_eq_true_eq] at hlayout
      rw [← Option.some.inj hp]
      refine ⟨?_, fun i hi => ?_⟩
      · show ctx.xnonce1.length ≤ 12
        rw [hxnonce1]
        exact hlayout.2
      · show work.data.byte (108 + i) = Buffer.source ctx.xnonce1 i
        rw [hwork]
        exact byte_buildVerusWork ctx (Algo.verus == Algo.verus) (by omega)

theorem copy_ok (h : s.Ok) {thread : Nat} (hcopy : s.copy thread = some s') : s'.Ok := by
  rw [copy, Option.ite_none_right_eq_some, Option.map_eq_some_iff] at hcopy
  obtain ⟨-, p, hp, rfl⟩ := hcopy
  apply h.setThread
  refine ⟨?_, by simp, by simp⟩
  intro q hq
  rw [← Option.some.inj hq]
  exact h.published p hp

theorem scan_ok (h : s.Ok) {thread : Nat} {l : ThreadLocals} {mode : VerusMode} {stop : Nat → Bool}
    {maxHashes : Nat} (hscan : s.scan thread l mode stop maxHashes = some s') : s'.Ok := by
  simp only [scan, Option.ite_none_right_eq_some, Option.bind_eq_some_iff,
    Option.map_eq_some_iff] at hscan
  obtain ⟨hidle, p, hcopied, payload, hpayload, result, hresult, rfl⟩ := hscan
  have hp := (h.threads thread).copied p hcopied
  apply h.setThread
  refine ⟨(h.threads thread).copied, ?_, ?_⟩
  · intro shares hshares
    rw [← Option.some.inj hshares]
    refine ⟨[], l.stamp .verus p.work thread, payload, mode, stop, maxHashes, result, hpayload, rfl,
      hp.length, ?_, hresult, rfl, rfl, rfl, by simp⟩
    intro i hi
    rw [byte_stamp l p.work thread (by omega)]
    exact hp.field i hi
  · intro pending hpending
    rw [show (s.threads thread).pending = none by simpa using hidle] at hpending
    exact absurd hpending (by simp)

theorem submit_ok (h : s.Ok) {thread : Nat} {id : Fin 2} (hsubmit : s.submit thread id = some s') :
    s'.Ok := by
  simp only [submit, Option.bind_eq_some_iff, Option.ite_none_right_eq_some] at hsubmit
  obtain ⟨shares, hshares, hid, hs'⟩ := hsubmit
  rw [← Option.some.inj hs']
  obtain ⟨ids, hfrom⟩ := (h.threads thread).shares shares hshares
  have hnext := hfrom.submit hid.2
  apply h.setThread
  refine ⟨(h.threads thread).copied, ?_, ?_⟩
  · intro shares' hshares'
    rw [← Option.some.inj hshares']
    exact ⟨_, hnext⟩
  · intro pending hpending
    refine ⟨_, ids, rfl, ?_⟩
    simp only [Option.ite_none_right_eq_some, Option.some.injEq] at hpending
    rw [← hpending.2]
    exact ⟨hnext, by simp⟩

theorem readLength_ok (h : s.Ok) {thread : Nat} (hkept : s.sizeKept thread)
    (hread : s.readLength thread = some s') : s'.Ok := by
  simp only [readLength, Option.bind_eq_some_iff, Option.ite_none_right_eq_some] at hread
  obtain ⟨pending, hpending, -, hs'⟩ := hread
  rw [← Option.some.inj hs']
  obtain ⟨shares, ids, hshares, hfrom, -⟩ := (h.threads thread).pending pending hpending
  apply h.setThread
  refine ⟨(h.threads thread).copied, (h.threads thread).shares, ?_⟩
  intro pending' hpending'
  rw [← Option.some.inj hpending']
  refine ⟨shares, ids, hshares, hfrom, ?_⟩
  intro len hlen
  rw [← Option.some.inj hlen]
  exact hkept shares hshares

theorem readOffset_ok (h : s.Ok) {thread : Nat} (hkept : s.sizeKept thread)
    (hread : s.readOffset thread = some s') : s'.Ok := by
  simp only [readOffset, Option.bind_eq_some_iff, Option.map_eq_some_iff] at hread
  obtain ⟨pending, hpending, len, hlen, shares, hshares, payload, hpayload, view, hview, rfl⟩ := hread
  obtain ⟨shares', ids, hshares', hfrom, hlength⟩ := (h.threads thread).pending pending hpending
  rw [hshares, Option.some.injEq] at hshares'
  subst hshares'
  rw [hlength len hlen, hkept shares hshares] at hview
  have hagrees := hfrom.agrees hpayload hview
  have hsent : ExtraSys.Ok { s with sent :=
      { built := shares.built, solution := shares.solution, scanned := shares.scanned,
        tail := payload.nonceTail pending.id, view := view } :: s.sent } := by
    refine ⟨h.published, h.threads, ?_⟩
    intro share hshare
    rcases List.mem_cons.mp hshare with rfl | hold
    · exact hagrees
    · exact h.sent share hold
  apply hsent.setThread
  exact ⟨(h.threads thread).copied, (h.threads thread).shares, by simp⟩

theorem step_ok {act : ExtraAct} (h : s.Ok) (hreads : s.ReadsBuiltSize act)
    (hstep : s.step act = some s') : s'.Ok := by
  cases act with
  | setExtranonce params =>
    rw [← Option.some.inj hstep]
    exact ⟨h.published, h.threads, h.sent⟩
  | notify params now =>
    rw [← Option.some.inj hstep]
    exact notify_ok h params now
  | copy thread => exact copy_ok h hstep
  | scan thread l mode stop maxHashes => exact scan_ok h hstep
  | submit thread id => exact submit_ok h hstep
  | readLength thread => exact readLength_ok h hreads hstep
  | readOffset thread => exact readOffset_ok h hreads hstep

end ExtraSys

/-- In every run whose submissions read the size that their work was built with, the extranonce of the
work followed by the nonce string is the nonce field that the share was validated with. -/
theorem submitted_nonce_field_of_built_size (ctx : SessionCtx) (acts : List ExtraAct) (s : ExtraSys)
    (hreads : AllSteps ExtraSys.step ExtraSys.ReadsBuiltSize { ctx := ctx } acts)
    (hrun : exec ExtraSys.step { ctx := ctx } acts = some s) :
    ∀ share ∈ s.sent, share.Agrees := by
  have hstart : ExtraSys.Ok { ctx := ctx } :=
    ⟨by simp, fun _ => ⟨by simp, by simp, by simp⟩, by simp⟩
  have hok : s.Ok := exec_invariant_of_allSteps
    (fun _ _ _ h hreads hstep => ExtraSys.step_ok h hreads hstep) hstart hreads hrun
  exact hok.sent

/-! ## A change of size between scan and submission -/

namespace ExtraSys

variable {s s' : ExtraSys} {thread : Nat}

theorem submit_frame {id : Fin 2} (h : s.submit thread id = some s') :
    s'.ctx = s.ctx ∧
      (s'.threads thread).shares.map ScannedWork.built =
        (s.threads thread).shares.map ScannedWork.built := by
  simp only [submit, Option.bind_eq_some_iff, Option.ite_none_right_eq_some] at h
  obtain ⟨shares, hshares, -, hs'⟩ := h
  rw [← Option.some.inj hs', hshares]
  simp [setThread]

theorem readLength_frame (h : s.readLength thread = some s') :
    s'.ctx = s.ctx ∧ (s'.threads thread).shares = (s.threads thread).shares := by
  simp only [readLength, Option.bind_eq_some_iff, Option.ite_none_right_eq_some] at h
  obtain ⟨pending, -, -, hs'⟩ := h
  rw [← Option.some.inj hs']
  simp [setThread]

theorem sizeKept_iff : s.sizeKept thread ↔ ∀ built,
    (s.threads thread).shares.map ScannedWork.built = some built →
      s.ctx.xnonce1.length = built.length := by
  constructor
  · intro h built hbuilt
    obtain ⟨shares, hshares, rfl⟩ := Option.map_eq_some_iff.mp hbuilt
    exact h shares hshares
  · intro h shares hshares
    exact h shares.built (by rw [hshares]; rfl)

/-- A submission with no message in between reads one size. -/
theorem submission_reads (id : Fin 2) (h : s.sizeKept thread) :
    AllSteps step ReadsBuiltSize s [.submit thread id, .readLength thread, .readOffset thread] := by
  refine ⟨trivial, fun s1 hs1 => ?_⟩
  obtain ⟨hctx1, hbuilt1⟩ := submit_frame hs1
  have h1 : s1.sizeKept thread := by
    rw [sizeKept_iff, hctx1, hbuilt1]
    exact sizeKept_iff.mp h
  refine ⟨h1, fun s2 hs2 => ?_⟩
  obtain ⟨hctx2, hshares2⟩ := readLength_frame hs2
  refine ⟨?_, fun _ _ => trivial⟩
  intro shares hshares
  rw [hctx2]
  exact h1 shares (hshares2 ▸ hshares)

/-- What such a submission sends: the nonce string has the bytes that the size of the moment leaves. -/
theorem submission_sends {shares : ScannedWork} {payload : VerusPayload} (id : Fin 2)
    (hidle : (s.threads thread).pending = none) (hshares : (s.threads thread).shares = some shares)
    (hid : id.val < shares.work.validNonces) (hpayload : shares.work.verus = some payload)
    (hlayout : verusValidateNonceLayout s.ctx = true) :
    ∃ s' share, exec step s [.submit thread id, .readLength thread, .readOffset thread] = some s' ∧
      s'.sent = share :: s.sent ∧ share.built = shares.built ∧
      ∃ nonce, hexBytes share.view.noncestr = some nonce ∧
        nonce.length = 32 - s.ctx.xnonce1.length := by
  have hsubmit : s.submit thread id = some (s.setThread thread
      { s.threads thread with
        shares := some { shares with work := verusRestore { shares.work with submitNonceId := id } }
        pending := some { id := id } }) := by
    simp only [submit, hshares, Option.bind_some, hidle, hlayout]
    rw [if_pos ⟨rfl, hid⟩]
    rfl
  have hrestored := verusRestore_eq hpayload id
  simp only [exec_cons, exec_nil, step, hsubmit, Option.bind_some, readLength, readOffset, setThread,
    if_true, Option.isNone_none, hrestored, verusSubmitView, Option.map_some]
  refine ⟨_, _, rfl, rfl, rfl, _, hexBytes_bin2hex _, ?_⟩
  rw [Buffer.bytes_length]
  rfl

end ExtraSys

/-- The thread scans one nonce of the job and finds a share. -/
def scanShare : List ExtraAct :=
  [.notify mergedParams 0, .copy 0,
   .scan 0 { nextNonceIndex := 7, verusNonceEpoch := 5 } { mergedMode with useX2 := false }
    (fun _ => false) 1]

theorem scanShare_run : ∃ s shares payload,
    exec ExtraSys.step { ctx := mergedCtx } scanShare = some s ∧ s.ctx = mergedNotify.1 ∧
      s.sent = [] ∧ (s.threads 0).pending = none ∧ (s.threads 0).shares = some shares ∧
      shares.built = mergedNotify.1.xnonce1 ∧ shares.work.validNonces = 1 ∧
      shares.work.verus = some payload := by
  obtain ⟨haccepted, -, -, -, hpayload, htarget⟩ := mergedNotify_spec
  obtain ⟨payload, hpayload⟩ := Option.isSome_iff_exists.mp hpayload
  obtain ⟨⟨work, clean⟩, hpublished⟩ := Option.isSome_iff_exists.mp haccepted
  have hwork : mergedWork = work := by rw [mergedWork, hpublished, Option.getD_some]
  have hnotify : ExtraSys.notify { ctx := mergedCtx } mergedParams 0 =
      { ctx := mergedNotify.1
        published := some { work := mergedWork, built := mergedNotify.1.xnonce1 } } := by
    have hmerged : verusStratumNotify .verus mergedCtx mergedParams 0 = (mergedNotify.1, some (work, clean)) := by
      rw [← hpublished]
      exact (Prod.mk.eta (p := mergedNotify)).symm
    rw [ExtraSys.notify, hmerged, hwork]
    rfl
  have hstamped := hpayload
  rw [← ThreadLocals.stamp_verus { nextNonceIndex := 7, verusNonceEpoch := 5 } mergedWork 0] at hstamped
  rw [← ThreadLocals.stamp_target { nextNonceIndex := 7, verusNonceEpoch := 5 } mergedWork 0] at htarget
  obtain ⟨scan, payload', hscan, hverus, hvalid, -⟩ := scanhashVerus_allOnes
    { mergedMode with useX2 := false } (fun _ => false) rfl rfl hstamped rfl htarget 0
  simp only [scanShare, exec_cons, exec_nil, ExtraSys.step, hnotify, Option.bind_some, ExtraSys.copy,
    ExtraSys.scan, ExtraSys.setThread, Option.isNone_none, if_true, Option.map_some, hpayload, hscan]
  exact ⟨_, _, payload', rfl, rfl, rfl, rfl, rfl, rfl, hvalid, hverus⟩

/-- An extranonce of eight bytes. -/
def widerParams : Option Json := some (.array [.string "0102030405060708"])

theorem widerParams_accepted :
    ((stratumParseExtranonce .verus mergedNotify.1 widerParams 0).getD mergedNotify.1).xnonce1.length = 8 ∧
      verusValidateNonceLayout
        ((stratumParseExtranonce .verus mergedNotify.1 widerParams 0).getD mergedNotify.1) = true := by
  decide +kernel

def submission : List ExtraAct := [.submit 0 ⟨0, Nat.zero_lt_two⟩, .readLength 0, .readOffset 0]

/-- An extranonce of eight bytes between scan and submission: four bytes of the field are lost. -/
theorem set_extranonce_shortens_nonce :
    ∃ s share, exec ExtraSys.step { ctx := mergedCtx }
        (scanShare ++ ([.setExtranonce widerParams] ++ submission)) = some s ∧
      share ∈ s.sent ∧ ¬ share.Agrees := by
  obtain ⟨s, shares, payload, hrun, hctx, hnone, hidle, hshares, hbuilt, hvalid, hpayload⟩ := scanShare_run
  have hwider : (s.setExtranonce widerParams).ctx =
      (stratumParseExtranonce .verus mergedNotify.1 widerParams 0).getD mergedNotify.1 := by
    rw [ExtraSys.setExtranonce, hctx]
  obtain ⟨hlen, hlayout⟩ := widerParams_accepted
  rw [← hwider] at hlen hlayout
  obtain ⟨s', share, hsubmit, hsent, hsame, nonce, hnonce, hnonceLen⟩ :=
    ExtraSys.submission_sends (s := s.setExtranonce widerParams) 0 hidle hshares
      (by rw [hvalid]; decide) hpayload hlayout
  refine ⟨s', share, ?_, by rw [hsent]; simp, ?_⟩
  · rw [exec_append, hrun, Option.bind_some, exec_append]
    exact hsubmit
  · rintro ⟨nonce', hnonce', hlength, -⟩
    rw [hnonce, Option.some.injEq] at hnonce'
    rw [← hnonce', List.length_append, hnonceLen, hlen, hsame, hbuilt, mergedNotify_spec.2.1] at hlength
    exact absurd hlength (by decide)

theorem submitted_nonce_field_unchanged :
    ∃ s share, AllSteps ExtraSys.step ExtraSys.ReadsBuiltSize { ctx := mergedCtx }
        (scanShare ++ submission) ∧
      exec ExtraSys.step { ctx := mergedCtx } (scanShare ++ submission) = some s ∧
      s.sent = [share] ∧ share.Agrees := by
  obtain ⟨s, shares, payload, hrun, hctx, hnone, hidle, hshares, hbuilt, hvalid, hpayload⟩ := scanShare_run
  obtain ⟨s', share, hsubmit, hsent, -, -⟩ := ExtraSys.submission_sends 0 hidle hshares
    (by rw [hvalid]; decide) hpayload (by rw [hctx]; exact mergedNotify_spec.2.2.1)
  have hkept : s.sizeKept 0 := by
    intro shares' hshares'
    rw [hshares, Option.some.injEq] at hshares'
    rw [← hshares', hbuilt, hctx]
  have hsteps : AllSteps ExtraSys.step ExtraSys.ReadsBuiltSize { ctx := mergedCtx }
      (scanShare ++ submission) := by
    apply AllSteps.append
    · apply AllSteps.of_forall
      intro act hact _
      simp only [scanShare, List.mem_cons, List.not_mem_nil, or_false] at hact
      rcases hact with rfl | rfl | rfl <;> trivial
    · intro s'' hs''
      rw [hrun, Option.some.injEq] at hs''
      rw [← hs'']
      exact ExtraSys.submission_reads 0 hkept
  have hall : exec ExtraSys.step { ctx := mergedCtx } (scanShare ++ submission) = some s' := by
    rw [exec_append, hrun]
    exact hsubmit
  rw [hnone] at hsent
  have hagrees := submitted_nonce_field_of_built_size mergedCtx (scanShare ++ submission) s' hsteps hall
  exact ⟨s', share, hsteps, hall, hsent, hagrees share (by rw [hsent]; simp)⟩

end PrimoMiner
