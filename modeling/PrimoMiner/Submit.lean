import PrimoMiner.DevFee
import PrimoMiner.Rpc
import PrimoMiner.Work
import PrimoMiner.Library.Runs
import PrimoMiner.Library.SlotTable

/-!
# Submitting shares

Mining threads submit on the context of their work's pool while the service thread publishes, answers
and reconnects.  Every critical section and every atomic access of the submit path is a step of its
own, and so are the two parts of `stratum_connect`, whose sockets can be written to before it returns,
and the four parts of `stratum_disconnect`.  Sessions are numbered as their sockets open, a submission
gets a ticket together with its id, and the log records what was reserved, sent, counted and reset; the
program sees none of these.
-/

namespace PrimoMiner

open Runs SlotTable

/-! ## The table of pending submits -/

structure PendingSubmit where
  id : BitVec 32 := 0
  threadId : Nat := 0
  queuedAt : Int := 0
  used : Bool := false
  -- which submission the entry stands for
  ticket : Nat := 0
  deriving DecidableEq, Repr

def maxPendingSubmits : Nat := 256

namespace PendingSubmit

def clear (e : PendingSubmit) : PendingSubmit := { e with used := false, queuedAt := 0 }

def stale (now timeoutSeconds : Int) (e : PendingSubmit) : Bool :=
  e.used && e.queuedAt != 0 && !(now < e.queuedAt) && !(castInt (now - e.queuedAt) < timeoutSeconds)

end PendingSubmit

def submitIdReapStaleLocked (pending : List PendingSubmit) (now timeoutSeconds : Int) :
    List PendingSubmit :=
  freeAll PendingSubmit.clear (PendingSubmit.stale now timeoutSeconds) pending

/-- The reaping part runs whether or not a slot is found. -/
def submitIdReserve (pending : List PendingSubmit) (now timeoutSeconds : Int) (id : BitVec 32)
    (threadId ticket : Nat) : List PendingSubmit × Bool :=
  let pending := submitIdReapStaleLocked pending now timeoutSeconds
  let entry : PendingSubmit :=
    { id := id, threadId := threadId, queuedAt := now, used := true, ticket := ticket }
  match put PendingSubmit.used entry pending with
  | some pending => (pending, true)
  | none => (pending, false)

def submitIdRelease (pending : List PendingSubmit) (id : BitVec 32) : List PendingSubmit :=
  freeFirst PendingSubmit.used PendingSubmit.clear (·.id == id) pending

def submitIdTakeMetadata (pending : List PendingSubmit) (id : BitVec 32) :
    List PendingSubmit × Option PendingSubmit :=
  match lookup PendingSubmit.used (·.id == id) pending with
  | some entry => (submitIdRelease pending id, some entry)
  | none => (pending, none)

def submitIdTimeoutSeconds (timeout : Int) : Int := if 0 < timeout then timeout else 1

/-! ## Share counters -/

structure ShareStats where
  shareAcceptedTotal : BitVec 32 := 0
  shareRejectedTotal : BitVec 32 := 0
  poolAccepted : Nat → BitVec 32 := fun _ => 0
  poolRejected : Nat → BitVec 32 := fun _ => 0
  threadAccepted : Nat → BitVec 32 := fun _ => 0
  threadRejected : Nat → BitVec 32 := fun _ => 0

def bumpAt (counters : Nat → BitVec 32) (i : Nat) : Nat → BitVec 32 :=
  Function.update counters i (counters i + 1)

/-- Results of the dev slot stay out of the totals. -/
def stratumUpdateShareStats (g : Globals) (stats : ShareStats) (pooln : Nat) (accepted : Bool) :
    ShareStats :=
  let stats :=
    if pooln < g.numPools then
      if accepted then { stats with poolAccepted := bumpAt stats.poolAccepted pooln }
      else { stats with poolRejected := bumpAt stats.poolRejected pooln }
    else stats
  if devfeeIsDevPool g pooln then stats
  else if accepted then { stats with shareAcceptedTotal := stats.shareAcceptedTotal + 1 }
  else { stats with shareRejectedTotal := stats.shareRejectedTotal + 1 }

def minerRecordThreadShareResult (optNThreads : Nat) (stats : ShareStats) (threadId : Nat)
    (accepted : Bool) : ShareStats :=
  if threadId < optNThreads then
    if accepted then { stats with threadAccepted := bumpAt stats.threadAccepted threadId }
    else { stats with threadRejected := bumpAt stats.threadRejected threadId }
  else stats

/-! ## Responses -/

/-- The id of a line that is a response, `none` for a method call and for an id that does not
parse. -/
def stratumParseResponseView (val : Json) : Option Nat :=
  if (Json.stringValue (val.objectGet "method")).isSome then none
  else stratumParseRpcId (val.objectGet "id")

/-- The result `true`, or the Monero dialect's status `OK`. -/
def submitResultOk (val : Json) : Bool :=
  Json.isTrue (val.objectGet "result") ||
    match val.objectGet "result" with
    | some (.object members) =>
      match Json.stringValue (Json.objectGet (.object members) "status") with
      | some status => strcasecmpEq status "OK"
      | none => false
    | _ => false

/-- The counters after the reply to a submission of `threadId` on pool `pooln`. -/
def countResponse (g : Globals) (optNThreads : Nat) (stats : ShareStats) (pooln threadId : Nat)
    (accepted : Bool) : ShareStats :=
  if devfeeIsDevPool g pooln then stratumUpdateShareStats g stats pooln accepted
  else
    stratumUpdateShareStats g (minerRecordThreadShareResult optNThreads stats threadId accepted)
      pooln accepted

/-! ## The system -/

/-- A work as a thread holds it, with the session and the number of generation bumps at the time it
was published. -/
structure Share where
  work : Work
  session : Nat
  bumpsAt : Nat
  deriving DecidableEq, Repr

def Share.pool (share : Share) : Nat := share.work.pooln

/-- Where a mining thread is in `submit_ready_share`: what it has passed so far. -/
inductive SubmitPc where
  | idle
  | checked (share : Share)
  | authorized (share : Share)
  | numbered (share : Share) (id : BitVec 32) (ticket : Nat)
  | reserved (share : Share) (id : BitVec 32) (ticket : Nat)
  | sendFailed (share : Share) (id : BitVec 32) (ticket : Nat)
  deriving DecidableEq, Repr

/-- The part of `struct stratum_ctx` that belongs to a session. -/
structure SubmitCtx where
  nextSubmitId : BitVec 32 := 10
  pending : List PendingSubmit := List.replicate maxPendingSubmits {}
  authenticated : Bool := false
  -- the session of the socket
  session : Option Nat := none
  -- the number of ids handed out, and the ids and tickets handed out since the last reset
  tickets : Nat := 0
  issued : List (BitVec 32 × Nat) := []
  -- the tickets of the entries that were freed as stale
  reapedTickets : List Nat := []
  deriving DecidableEq, Repr

/-- Where the service thread is: connected or not, in `stratum_connect` with a socket open, or in
`stratum_disconnect` with the part named still to be reset. -/
inductive Phase where
  | closed | connecting | opened | workStale | pendingStale | authStale
  deriving DecidableEq, Repr

inductive SubmitEvent where
  | reserved (pool ticket : Nat)
  | sent (pool : Nat) (id : BitVec 32) (ticket : Nat) (session shareSession : Nat)
  | counted (pool ticket threadId : Nat) (accepted : Bool)
  | tableReset (pool : Nat)
  deriving DecidableEq, Repr

structure SubmitSys where
  rt : RuntimeState := {}
  generation : BitVec 32 := 0
  ctxs : Nat → SubmitCtx := fun _ => {}
  phase : Phase := .closed
  -- the pool of the service thread
  pool : Nat
  held : Nat → Option Share := fun _ => none
  pc : Nat → SubmitPc := fun _ => .idle
  stats : ShareStats := {}
  -- the session and the bumps at the publication of the current work
  currentSession : Nat := 0
  currentBumps : Nat := 0
  bumps : Nat := 0
  sessions : Nat := 0
  log : List SubmitEvent := []

/-- What does not change while the miner runs: the pool table as far as the counters read it, the
number of threads and the timeouts of the pools. -/
structure SubmitConfig where
  g : Globals
  optNThreads : Nat
  poolTimeout : Nat → Int

inductive SubmitAct where
  -- the service thread
  | openSocket
  | connect (ok : Bool)
  | switchPool (next : Nat)
  | authorize (ok : Bool)
  | publish (newWork : Work) (clean copied : Bool)
  | updateHeight (jobId : String) (height : BitVec 32)
  | rekey
  | response (val : Json)
  | closeTransport
  | resetWork
  | resetPending
  | clearAuthenticated
  -- a mining thread
  | copyWork (thread : Nat) (copied : Bool)
  | checkGeneration (thread : Nat)
  | checkAuthenticated (thread : Nat)
  | encodeFails (thread : Nat)
  | nextId (thread : Nat)
  | reserve (thread : Nat) (now : Int)
  | send (thread : Nat) (ok : Bool)
  | release (thread : Nat)

/-- The id that is handed out and the next one. -/
def stratumSubmitIdNext (nextSubmitId : BitVec 32) : BitVec 32 × BitVec 32 :=
  let id := if nextSubmitId < 10 then 10 else nextSubmitId
  (id, id + 1)

namespace SubmitSys

def ctx (s : SubmitSys) : SubmitCtx := s.ctxs s.pool

def setCtx (s : SubmitSys) (p : Nat) (c : SubmitCtx) : SubmitSys :=
  { s with ctxs := Function.update s.ctxs p c }

def setPc (s : SubmitSys) (thread : Nat) (pc : SubmitPc) : SubmitSys :=
  { s with pc := Function.update s.pc thread pc }

/-! ### The service thread -/

/-- `opensocket_grab_cb` puts the socket into the context without a lock.  One `curl_easy_perform` can
come here for several addresses, and the retry with the fallback resolver once more. -/
def openSocket (s : SubmitSys) : SubmitSys :=
  { s.setCtx s.pool { s.ctx with session := some s.sessions } with
    phase := .connecting
    sessions := s.sessions + 1 }

/-- The rest of `stratum_connect`, which closes the transport again when it fails. -/
def connect (s : SubmitSys) (ok : Bool) : SubmitSys :=
  if ok then { s with phase := .opened }
  else { s.setCtx s.pool { s.ctx with session := none } with phase := .closed }

/-- The builders stamp the work with the pool of the context. -/
def publish (s : SubmitSys) (newWork : Work) (clean copied : Bool) : SubmitSys :=
  let newWork := { newWork with pooln := s.pool }
  let (rt, generation) := stratumPublishWork s.rt s.generation newWork clean copied
  let bumps := if copied && s.rt.shouldRestart newWork clean then s.bumps + 1 else s.bumps
  { s with
    rt := rt
    generation := generation
    bumps := bumps
    currentSession := s.ctx.session.getD 0
    currentBumps := if copied then bumps else 0 }

/-- `stratum_handle_response_value` -/
def response (cfg : SubmitConfig) (s : SubmitSys) (val : Json) : SubmitSys :=
  match stratumParseResponseView val with
  | none => s
  | some id =>
    if id < 10 then s
    else
      match submitIdTakeMetadata s.ctx.pending (BitVec.ofNat 32 id) with
      | (pending, some entry) =>
        { s.setCtx s.pool { s.ctx with pending := pending } with
          stats := countResponse cfg.g cfg.optNThreads s.stats s.pool entry.threadId
            (submitResultOk val)
          log := .counted s.pool entry.ticket entry.threadId (submitResultOk val) :: s.log }
      | (_, none) => s

def closeTransport (s : SubmitSys) : SubmitSys :=
  { s.setCtx s.pool { s.ctx with session := none } with phase := .workStale }

def resetWork (s : SubmitSys) : SubmitSys :=
  let (rt, generation) := stratumResetWorkState s.rt s.generation
  { s with rt := rt, generation := generation, bumps := s.bumps + 1, phase := .pendingStale }

def resetPending (s : SubmitSys) : SubmitSys :=
  { s.setCtx s.pool
      { s.ctx with
        pending := List.replicate maxPendingSubmits {}
        nextSubmitId := 10
        issued := [] } with
    phase := .authStale
    log := .tableReset s.pool :: s.log }

def clearAuthenticated (s : SubmitSys) : SubmitSys :=
  { s.setCtx s.pool { s.ctx with authenticated := false } with phase := .closed }

/-! ### A mining thread -/

def copyWork (s : SubmitSys) (thread : Nat) (copied : Bool) : SubmitSys :=
  if s.rt.workReady then
    { s with
      held := Function.update s.held thread
        (if copied then some ⟨s.rt.currentWork, s.currentSession, s.currentBumps⟩ else none) }
  else s

def checkGeneration (s : SubmitSys) (thread : Nat) : Option SubmitSys :=
  match s.pc thread, s.held thread with
  | .idle, some share =>
    if minerWorkRestartRequested s.generation share.work.restartGeneration then some s
    else some (s.setPc thread (.checked share))
  | _, _ => none

def checkAuthenticated (s : SubmitSys) (thread : Nat) : Option SubmitSys :=
  match s.pc thread with
  | .checked share =>
    if (s.ctxs share.pool).authenticated then some (s.setPc thread (.authorized share))
    else some (s.setPc thread .idle)
  | _ => none

/-- The share, or later the request line, cannot be encoded. -/
def encodeFails (s : SubmitSys) (thread : Nat) : Option SubmitSys :=
  match s.pc thread with
  | .authorized _ => some (s.setPc thread .idle)
  | .numbered _ _ _ => some (s.setPc thread .idle)
  | _ => none

def nextId (s : SubmitSys) (thread : Nat) : Option SubmitSys :=
  match s.pc thread with
  | .authorized share =>
    let c := s.ctxs share.pool
    let (id, next) := stratumSubmitIdNext c.nextSubmitId
    some ((s.setCtx share.pool
        { c with
          nextSubmitId := next
          tickets := c.tickets + 1
          issued := (id, c.tickets) :: c.issued }).setPc thread (.numbered share id c.tickets))
  | _ => none

def reserve (cfg : SubmitConfig) (s : SubmitSys) (thread : Nat) (now : Int) : Option SubmitSys :=
  match s.pc thread with
  | .numbered share id ticket =>
    let c := s.ctxs share.pool
    let timeout := submitIdTimeoutSeconds (cfg.poolTimeout share.pool)
    let (pending, stored) := submitIdReserve c.pending now timeout id thread ticket
    let stale := c.pending.filter (PendingSubmit.stale now timeout)
    let s := s.setCtx share.pool
      { c with
        pending := pending
        reapedTickets := stale.map PendingSubmit.ticket ++ c.reapedTickets }
    if stored then
      some ({ s with log := .reserved share.pool ticket :: s.log }.setPc thread
        (.reserved share id ticket))
    else some (s.setPc thread .idle)
  | _ => none

/-- A line is written to the socket of the context, whether or not `stratum_connect` has returned. -/
def send (s : SubmitSys) (thread : Nat) (ok : Bool) : Option SubmitSys :=
  match s.pc thread with
  | .reserved share id ticket =>
    if ok then
      (s.ctxs share.pool).session.map fun session =>
        { s with log := .sent share.pool id ticket session share.session :: s.log }.setPc thread
          .idle
    else some (s.setPc thread (.sendFailed share id ticket))
  | _ => none

def release (s : SubmitSys) (thread : Nat) : Option SubmitSys :=
  match s.pc thread with
  | .sendFailed share id _ =>
    let c := s.ctxs share.pool
    some ((s.setCtx share.pool { c with pending := submitIdRelease c.pending id }).setPc thread
      .idle)
  | _ => none

def step (cfg : SubmitConfig) (s : SubmitSys) : SubmitAct → Option SubmitSys
  | .openSocket => if s.phase = .closed ∨ s.phase = .connecting then some s.openSocket else none
  | .connect ok => if s.phase = .connecting then some (s.connect ok) else none
  | .switchPool next => if s.phase = .closed then some { s with pool := next } else none
  | .authorize ok =>
    if s.phase = .opened then some (s.setCtx s.pool { s.ctx with authenticated := ok }) else none
  | .publish newWork clean copied =>
    if s.phase = .opened then some (s.publish newWork clean copied) else none
  | .updateHeight jobId height =>
    if s.phase = .opened then
      some { s with rt := (stratumUpdateActiveWorkHeightLocked s.rt s.pool jobId height).1 }
    else none
  | .rekey =>
    if s.phase = .opened then
      some { s with generation := minerWorkGenerationBump s.generation, bumps := s.bumps + 1 }
    else none
  | .response val => if s.phase = .opened then some (s.response cfg val) else none
  | .closeTransport =>
    if s.phase = .closed ∨ s.phase = .opened then some s.closeTransport else none
  | .resetWork => if s.phase = .workStale then some s.resetWork else none
  | .resetPending => if s.phase = .pendingStale then some s.resetPending else none
  | .clearAuthenticated => if s.phase = .authStale then some s.clearAuthenticated else none
  | .copyWork thread copied =>
    if thread < cfg.optNThreads ∧ s.pc thread = .idle then some (s.copyWork thread copied) else none
  | .checkGeneration thread => s.checkGeneration thread
  | .checkAuthenticated thread => s.checkAuthenticated thread
  | .encodeFails thread => s.encodeFails thread
  | .nextId thread => s.nextId thread
  | .reserve thread now => s.reserve cfg thread now
  | .send thread ok => s.send thread ok
  | .release thread => s.release thread

end SubmitSys

/-- The miner as `start_mining` leaves it, its service thread on pool `pool`. -/
def SubmitSys.start (pool : Nat) : SubmitSys := { pool := pool }

end PrimoMiner
