import PrimoMiner.DevFee
import PrimoMiner.Rpc
import PrimoMiner.Library.Runs
import PrimoMiner.Library.RingScan

/-!
# The stratum service thread

`stratum_service_thread` as a transition function.  A program point `Pc` stands wherever another
thread, the pool or the clock can act between two steps of the thread; the flags and the clock are
read in the step that leaves the point.  The outcome of a connect, the lines received, reconnect
requests of mining threads, an abort request and the clock come from outside, as the labels `Act`.
What the thread does is recorded in `log`, newest event first.
-/

namespace PrimoMiner

open Runs RingScan

/-- The request whose reply `stratum_wait_for_response` waits for. -/
inductive Request where
  | subscribe (attempt : Nat) | authorize | extranonceSubscribe | login
  deriving DecidableEq, Repr

def Request.id : Request → Nat
  | .subscribe _ => 1
  | .authorize => 2
  | .extranonceSubscribe => 3
  | .login => 4

/-- The Monero dialect replaces subscribe and authorize by one login. -/
def Options.handshake (opt : Options) : Request :=
  if opt.algo = .randomx then .login else .subscribe 0

inductive Pc where
  -- the condition of the service loop
  | head
  -- `stratum_open_pool_connection`: in `stratum_connect`, then in the handshake, then done
  | connecting
  | waiting (request : Request)
  | opened
  -- `stratum_run_message_loop`: its start, its three tests, then the receive
  | loopEntry
  | loopAbort | loopFlag | loopDue | loopRecv
  -- the three tests of the slice boundary and the dev slot test after the message loop
  | exitDue | exitAbort | exitFlag | exitDev
  | devAdvance
  | devAbort
  -- `stratum_handle_disconnected_session`
  | handling
  | handleAbort (next : Nat) (wrapped : Bool)
  | handleTake (next : Nat) (wrapped : Bool)
  | pausing (next : Nat)
  | exited
  deriving DecidableEq, Repr

inductive Event where
  -- a connection attempt to a user pool begins
  | attempted (pool : Nat)
  | opened (pool : Nat)
  | enteredLoop (pool : Nat) (reconnectRequested : Bool)
  | redirected (pool : Nat) (url : String)
  | reconnectTaken (pool : Nat)
  | minerRaised (pool : Nat)
  -- the end of a session, or of an attempt, is handled as a failure
  | failed (pool : Nat)
  | retried (count : Nat)
  | paused
  | targetSet (target : Nat)
  | sliceBegan (time : Int)
  | sliceEnded (time : Int)
  | published (pool : Nat)
  | disconnected (pool : Nat)
  | switched (pool : Nat)
  deriving DecidableEq, Repr

structure Svc where
  g : Globals
  -- `sctx->pooln` of the thread's pool
  pool : Nat
  retryCount : Nat
  retryCycleStartPoolIndex : Nat
  -- the transport of the thread's pool is open
  connected : Bool
  now : Int
  pc : Pc
  log : List Event

/-- What a handler outside this module does: its status and whether it published work. -/
structure HandlerOutcome where
  status : MessageStatus
  publishes : Bool
  deriving DecidableEq, Repr

inductive Act where
  | run
  | connect (ok : Bool)
  -- a line arrives; `none` is one that is not JSON
  | line (val : Option Json) (outcome : HandlerOutcome)
  | recvFailed
  -- a receive that ends at the fee boundary or was answered with a keepalive
  | idle
  | minerRaise (pool : Nat)
  | requestAbort
  | clock (time : Int)

def stratumFindNextPoolIndex (g : Globals) (currentPoolIndex : Nat) : Nat :=
  if g.numPools ≤ 1 then currentPoolIndex
  else nextInRing g.numPools (minerPoolIsUsable g) currentPoolIndex

def stratumUrlIsTls (url : String) : Bool :=
  startsWithNoCase url "stratum+ssl://" || startsWithNoCase url "stratum+tcps://" ||
    startsWithNoCase url "ssl://" || startsWithNoCase url "tls://"

/-- `stratum_connect`; `ok` is the outcome of the transfer library. -/
def stratumConnect (ctx : StratumCtx) (ok : Bool) : StratumCtx × Bool :=
  match strstr "://".toList ctx.url.toList with
  | none => (ctx, false)
  | some _ => ({ ctx with useTls := stratumUrlIsTls ctx.url }, ok)

namespace Svc

def record (s : Svc) (e : Event) : Svc := { s with log := e :: s.log }

def goto (s : Svc) (pc : Pc) : Svc := { s with pc := pc }

def ctx (s : Svc) : StratumCtx := s.g.ctx s.pool

def onDevPool (s : Svc) : Bool := devfeeIsDevPool s.g s.pool

def stratumDisconnect (s : Svc) : Svc :=
  { s with connected := false, log := .disconnected s.pool :: s.log }

/-- The effect of a switch that is not refused. -/
def moveTo (s : Svc) (next : Nat) : Svc :=
  let g := s.g.modifyCtx s.pool fun c => { c with threadActive := false }
  let g := g.modifyCtx next fun c => { c with threadActive := true }
  { s with
    g := g.minerSetCurrentPoolIndex next
    pool := next
    log := .switched next :: s.log }

/-- `none` when the switch is refused. -/
def stratumSwitchToPool (s : Svc) (next : Nat) : Option Svc :=
  if next < s.g.numPools ∧ next ≠ s.pool then some (s.moveTo next) else none

/-- The thread returns. -/
def exit (s : Svc) : Svc :=
  { s with
    g := s.g.modifyCtx s.pool fun c => { c with threadActive := false }
    pc := .exited }

/-- The end of a slice branch: disconnect, switch when the target allows it, next iteration. -/
def leaveFor (s : Svc) (target : Option Nat) : Svc :=
  let s := s.stratumDisconnect
  ((target.bind s.stratumSwitchToPool).getD s).goto .head

/-! ## Opening a session -/

/-- `stratum_open_pool_connection` returned false. -/
def openFailed (s : Svc) : Svc := s.goto (if s.onDevPool then .devAdvance else .handling)

def recordAttempt (s : Svc) : Svc :=
  { s with log := if s.onDevPool then s.log else .attempted s.pool :: s.log }

def stratumOpenPoolConnection (s : Svc) : Svc :=
  let s := s.recordAttempt
  if s.ctx.url ≠ "" then s.goto .connecting
  else
    match stratumSetUrl s.ctx (s.g.pools s.pool).url with
    | some ctx => { s with g := s.g.modifyCtx s.pool fun _ => ctx }.goto .connecting
    | none => s.openFailed

def connect (opt : Options) (s : Svc) (ok : Bool) : Svc :=
  let (ctx, ok) := stratumConnect s.ctx ok
  let s := { s with g := s.g.modifyCtx s.pool fun _ => ctx }
  if ok then { s with connected := true }.goto (.waiting opt.handshake) else s.openFailed

/-- Receiving or decoding fails, or the reply is refused.  A failed extranonce subscription is not
a failure of the handshake. -/
def requestFailed (s : Svc) : Request → Svc
  | .extranonceSubscribe => s.goto .opened
  | _ => s.stratumDisconnect.openFailed

def recordPublished (s : Svc) (publishes : Bool) : Svc :=
  { s with log := if publishes then .published s.pool :: s.log else s.log }

def requestAnswered (s : Svc) (reply : Json) (outcome : HandlerOutcome) : Request → Svc
  | .subscribe attempt =>
    if stratumReplyHasRpcError reply true then
      if attempt + 1 < 2 then s.goto (.waiting (.subscribe (attempt + 1)))
      else s.requestFailed (.subscribe attempt)
    else if outcome.status = .fatal then s.requestFailed (.subscribe attempt)
    else s.goto (.waiting .authorize)
  | .authorize =>
    if stratumReplyHasRpcError reply false then s.requestFailed .authorize
    else s.goto (.waiting .extranonceSubscribe)
  | .extranonceSubscribe => s.goto .opened
  | .login =>
    if stratumReplyHasRpcError reply false ∨ outcome.status = .fatal then s.requestFailed .login
    else (s.recordPublished outcome.publishes).goto .opened

/-! ## Messages -/

/-- `stratum_dispatch_json_message` -/
def dispatch (s : Svc) (val : Json) (outcome : HandlerOutcome) : Svc × MessageStatus :=
  if stratumMethodOf val = some .reconnect then
    match stratumReconnect s.g s.pool (val.objectGet "params") with
    | some g =>
      let s := { s with g := g }
      ((s.record (.redirected s.pool s.ctx.url)).stratumDisconnect, .ok)
    | none => (s, .fatal)
  else (s.recordPublished (stratumMethodOf val = some .notify && outcome.publishes), outcome.status)

def receiveLine (s : Svc) (val : Option Json) (outcome : HandlerOutcome) : Option Svc :=
  if s.connected then
    match s.pc, val with
    | .waiting request, none => some (s.requestFailed request)
    | .waiting request, some val =>
      if stratumReplyMatchesId val request.id then some (s.requestAnswered val outcome request)
      else some (s.dispatch val outcome).1
    | .loopRecv, none => some (s.goto .exitDue)
    | .loopRecv, some val =>
      let (s, status) := s.dispatch val outcome
      some (s.goto (if status = .fatal then .exitDue else .loopAbort))
    | _, _ => none
  else none

def receiveFailed (s : Svc) : Option Svc :=
  match s.pc with
  | .waiting request => some (s.requestFailed request)
  | .loopRecv => some (s.goto .exitDue)
  | _ => none

/-! ## Leaving a session -/

def stratumResetRetryCycle (s : Svc) : Svc :=
  { s with retryCount := 0, retryCycleStartPoolIndex := s.pool }

/-- `stratum_open_pool_connection` returned true. -/
def sessionOpened (s : Svc) : Svc :=
  (s.record (.opened s.pool)).stratumResetRetryCycle.goto .loopEntry

def enterMessageLoop (s : Svc) : Svc :=
  (s.record (.enteredLoop s.pool s.ctx.reconnectRequested)).goto .loopAbort

/-- What `devfee_take_transition` does, as events. -/
def transitionEvents (s : Svc) : List Event :=
  if s.g.devfee.inSlice then [.sliceEnded s.now]
  else if s.g.devfee.curTarget ≠ 0 then [.sliceBegan s.now, .targetSet 0]
  else [.sliceBegan s.now]

/-- The slice boundary after the message loop. -/
def sliceBoundary (opt : Options) (s : Svc) : Svc :=
  let (g, target) := devfeeTakeTransition opt s.g s.now s.pool
  { s with g := g, log := s.transitionEvents ++ s.log }.leaveFor target

def devAdvance (opt : Options) (s : Svc) : Svc :=
  match devfeeAdvanceTarget opt s.g s.now with
  | some g =>
    { s with g := g, log := .targetSet (s.g.devfee.curTarget + 1) :: s.log }.leaveFor none
  | none => s.goto .devAbort

def devAbort (s : Svc) : Svc :=
  let (g, target) := devfeeAbortSlice s.g s.now
  { s with g := g, log := .sliceEnded s.now :: s.log }.leaveFor target

def handleDisconnectedSession (s : Svc) : Svc :=
  let next := stratumFindNextPoolIndex s.g s.pool
  s.stratumDisconnect.goto
    (.handleAbort next (next != s.pool && next == s.retryCycleStartPoolIndex))

/-- Fail over to `next`, or leave the loop when the switch is refused. -/
def failOver (s : Svc) (next : Nat) : Svc :=
  match s.stratumSwitchToPool next with
  | some s => s.goto .head
  | none => s.exit

def retryLater (opt : Options) (s : Svc) (next : Nat) : Svc :=
  let s := { s with retryCount := s.retryCount + 1 }.record (.retried (s.retryCount + 1))
  if 0 ≤ opt.retries ∧ opt.retries < s.retryCount then
    { s with g := s.g.minerRequestAbort }.exit
  else (s.record .paused).goto (.pausing next)

def takeReconnectRequest (opt : Options) (s : Svc) (next : Nat) (wrapped : Bool) : Svc :=
  if s.ctx.reconnectRequested then
    let s := { s with g := s.g.modifyCtx s.pool fun c => { c with reconnectRequested := false } }
    ((s.record (.reconnectTaken s.pool)).stratumResetRetryCycle).goto .head
  else if next ≠ s.pool ∧ wrapped = false then s.failOver next
  else s.retryLater opt next

/-- The end of the retry pause. -/
def endPause (s : Svc) (next : Nat) : Svc :=
  if next ≠ s.pool then
    match s.stratumSwitchToPool next with
    | some s => { s with retryCycleStartPoolIndex := s.pool }.goto .head
    | none => s.exit
  else { s with retryCycleStartPoolIndex := s.pool }.goto .head

/-- One step of the thread on its own. -/
def run (opt : Options) (s : Svc) : Option Svc :=
  match s.pc with
  | .head => some (if s.g.abortFlag then s.exit else s.stratumOpenPoolConnection)
  | .connecting => none
  | .waiting _ => none
  | .opened => some s.sessionOpened
  | .loopEntry => some s.enterMessageLoop
  | .loopAbort => some (s.goto (if s.g.abortFlag then .exitDue else .loopFlag))
  | .loopFlag => some (s.goto (if s.ctx.reconnectRequested then .exitDue else .loopDue))
  | .loopDue => some (s.goto (if devfeeTransitionDue s.g s.now then .exitDue else .loopRecv))
  | .loopRecv => none
  | .exitDue => some (s.goto (if devfeeTransitionDue s.g s.now then .exitAbort else .exitDev))
  | .exitAbort => some (s.goto (if s.g.abortFlag then .exitDev else .exitFlag))
  | .exitFlag => some (if s.ctx.reconnectRequested then s.goto .exitDev else s.sliceBoundary opt)
  | .exitDev => some (s.goto (if s.onDevPool && !s.g.abortFlag then .devAdvance else .handling))
  | .devAdvance => some (s.devAdvance opt)
  | .devAbort => some s.devAbort
  | .handling => some s.handleDisconnectedSession
  | .handleAbort next wrapped =>
    some (if s.g.abortFlag then s.exit
      else (s.record (.failed s.pool)).goto (.handleTake next wrapped))
  | .handleTake next wrapped => some (s.takeReconnectRequest opt next wrapped)
  | .pausing next => some (if s.g.abortFlag then s.exit else s.endPause next)
  | .exited => none

def step (opt : Options) (s : Svc) : Act → Option Svc
  | .run => s.run opt
  | .connect ok => if s.pc = .connecting then some (s.connect opt ok) else none
  | .line val outcome => s.receiveLine val outcome
  | .recvFailed => s.receiveFailed
  | .idle => if s.pc = .loopRecv then some (s.goto .loopAbort) else none
  -- `submit_id_request_reconnect` of a mining thread
  | .minerRaise p =>
    let g := s.g.modifyCtx p fun c => { c with reconnectRequested := true }
    some ({ s with g := g }.record (.minerRaised p))
  | .requestAbort => some { s with g := s.g.minerRequestAbort }
  | .clock t => some { s with now := t }

end Svc

/-! ## Startup -/

/-- `stratum_init_context` for every pool; it keeps the url. -/
def stratumInitContexts (g : Globals) : Globals :=
  { g with
    pools := fun i => if i < g.numPools then
      { g.pools i with stratum := { url := (g.pools i).stratum.url } } else g.pools i }

/-- The service thread as `start_mining` leaves it: the first usable user pool is selected, then the
dev fee slot is installed, the contexts are initialised and the fee clock starts. -/
def startup (opt : Options) (userPools : List PoolInfos) (now : Int) (draw : Nat) : Option Svc :=
  if userPools.length ≤ maxUserPools ∧ opt.benchmark = false then
    let g : Globals :=
      { numPools := userPools.length
        pools := fun i => { userPools.getD i {} with stratum := {} } }
    (findFirstUsablePoolIndex g).map fun first =>
      let g := devfeeInstallPool opt (g.minerSetCurrentPoolIndex first)
      let g := devfeeRuntimeBegin (stratumInitContexts g) now draw
      { g := g.modifyCtx first fun c => { c with threadActive := true }
        pool := first
        retryCount := 0
        retryCycleStartPoolIndex := first
        connected := false
        now := now
        pc := .head
        log := [] }
  else none

end PrimoMiner
