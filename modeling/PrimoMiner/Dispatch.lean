import PrimoMiner.Notify
import PrimoMiner.Session
import PrimoMiner.Submit

/-!
# Dispatch of the pool's messages

`stratum_rpc.cpp` and the waiting loop of `stratum_handshake.cpp` on one context, with the handlers of
the array dialects in full.  The handler of a Monero job comes from outside.  What a message does is
recorded in `log`, newest event first.
-/

namespace PrimoMiner

inductive ConnEvent where
  -- the transport is open, a session begins
  | connected
  | difficulty (diff : ℚ)
  | subscribed (xnonce1 : List Byte)
  | extranonce (xnonce1 : List Byte)
  -- the context as the work was built from it
  | published (built : SessionCtx) (work : Work) (clean : Bool)
  | annotated (jobId : String) (height : BitVec 32)
  | replied (id result error : Json)
  | redirected (url : String)
  | closed

/-- Where the service thread stands with a context; `leaving` when its session reads no more lines. -/
inductive ConnPhase where
  | closed
  | waiting (request : Request)
  | loop
  | leaving
  deriving DecidableEq, Repr

/-- A context and what is done with it. -/
structure Conn where
  ctx : SessionCtx
  net : StratumCtx
  phase : ConnPhase
  log : List ConnEvent

/-- A line that decodes, the time at which it is handled and whether an answer to it can be sent. -/
structure Line where
  val : Json
  now : BitVec 32 := 0
  sendOk : Bool := true

structure HandlerEnv where
  algo : Algo
  sha256d : Sha256d
  xmrStratumHandleJob : SessionCtx → Option Json → SessionCtx × Option (Work × Bool)

/-- `json_is_null` and absent. -/
def isNullId (id : Option Json) : Bool := id.isNone || Json.isNull id

def statusFromBool (ok : Bool) : MessageStatus := if ok then .ok else .fatal

/-! ## Texts -/

def dropSpace (s : List Char) : List Char := s.dropWhile isSpace

/-- The rest of a text that starts with `word`. -/
def expect (word : String) (s : List Char) : Option (List Char) :=
  if word.toList.isPrefixOf s then some (s.drop word.toList.length) else none

/-- `sscanf(data, "equihash %31s block %u", symbol, &height) > 1`: the height read. -/
def scanEquihashBlock (data : List Char) : Option (BitVec 32) := do
  let rest ← expect "equihash" data
  let rest := dropSpace rest
  let symbol := (rest.take 31).takeWhile fun c => !isSpace c
  guard (symbol ≠ [])
  let rest ← expect "block" (dropSpace (rest.drop symbol.length))
  let (negative, value, _) ← scanDecimal rest
  let parsed := if 2 ^ 64 ≤ value then 2 ^ 64 - 1 else value
  return if negative ∧ value < 2 ^ 64 then -BitVec.ofNat 32 parsed else BitVec.ofNat 32 parsed

/-- `USER_AGENT` -/
def userAgent : String := "primo-arm-miner/1.1.0"

def algoName : Algo → String
  | .verus => "verus"
  | .sha256d => "sha256d"
  | .scrypt => "scrypt"
  | .randomx => "randomx"

def getStratumSessionId (val : Option Json) : Option String :=
  match Json.arrayGet val 0 with
  | some (.array items) =>
    -- an item that is not an array ends the search
    ((items.takeWhile fun item => isArray (some item)).find? fun item =>
      match Json.stringValue (Json.arrayGet (some item) 0) with
      | some notify => strcasecmpEq notify "mining.notify"
      | none => false).bind fun item => Json.stringValue (Json.arrayGet (some item) 1)
  | _ => none

/-! ## Replies -/

/-- `stratum_init_context` on a context that was zeroed. -/
def stratumInitContext (algo : Algo) (pooln : Nat) (net : StratumCtx) : Conn :=
  { ctx := { pooln := pooln, isVerusProtocol := algo == .verus }, net := net, phase := .closed,
    log := [] }

namespace Conn

def record (s : Conn) (e : ConnEvent) : Conn := { s with log := e :: s.log }

/-- The answer to a call, false when the call has no id or the answer cannot be sent. -/
def sendReply (s : Conn) (line : Line) (result error : Json) : Conn × Bool :=
  match line.val.objectGet "id" with
  | none => (s, false)
  | some .null => (s, false)
  | some id => if line.sendOk then (s.record (.replied id result error), true) else (s, false)

def sendRpcResult (s : Conn) (line : Line) (result : Json) : Conn × Bool :=
  s.sendReply line result .null

def sendRpcError (s : Conn) (line : Line) (code : Int) (message : String) : Conn × Bool :=
  s.sendReply line (.bool false) (.object [("code", .integer code), ("message", .string message)])

def stratumDisconnect (s : Conn) : Conn :=
  { s with
    ctx := { stratumFreeJob s.ctx with nextDiff := 1, srvtimeDiff := 0 }
    phase := .closed
    log := .closed :: s.log }

/-! ## Handlers -/

section handlers
variable (env : HandlerEnv) (s : Conn) (line : Line)

def params : Option Json := line.val.objectGet "params"

/-- `handle_notify` of `stratum_get_protocol_ops`. -/
def handleNotify : SessionCtx × Option (Work × Bool) :=
  if s.ctx.isVerus env.algo then verusStratumNotify env.algo s.ctx (params line) line.now
  else if env.algo = .randomx then env.xmrStratumHandleJob s.ctx (params line)
  else stratumNotifyStandard env.sha256d env.algo s.ctx (params line) line.now

def stratumHandleNotifyMethod : Conn × MessageStatus :=
  match handleNotify env s line with
  | (ctx, none) => ({ s with ctx := ctx }, .fatal)
  | (ctx, some (work, clean)) =>
    ({ s with ctx := ctx, log := .published ctx work clean :: s.log }, .ok)

def storeDifficulty (diff : ℚ) : Conn :=
  { s with ctx := stratumStoreNextDiff s.ctx diff, log := .difficulty diff :: s.log }

def stratumHandleSetDifficultyMethod : Conn × MessageStatus :=
  match stratumSetDifficulty (params line) with
  | none => (s, .fatal)
  | some diff => (s.storeDifficulty diff, .ok)

def stratumHandleSetTargetMethod : Conn × MessageStatus :=
  if s.ctx.isVerus env.algo = false then (s, .ignored)
  else
    match verusStratumSetTarget (params line) with
    | none => (s, .fatal)
    | some diff =>
      let s := s.storeDifficulty diff
      ({ s with ctx := { s.ctx with isVerusProtocol := true } }, .ok)

def stratumHandleSetExtranonceMethod : Conn × MessageStatus :=
  match stratumParseExtranonce env.algo s.ctx (params line) 0 with
  | none => (s, .fatal)
  | some ctx => ({ s with ctx := ctx, log := .extranonce ctx.xnonce1 :: s.log }, .ok)

/-- The transport is closed by the handler; the session then reads no more lines. -/
def stratumHandleReconnectMethod : Conn × MessageStatus :=
  match stratumReconnectUrl s.net (params line) with
  | none => (s, .fatal)
  | some url =>
    let s := { s with net := { s.net with url := url, reconnectRequested := true } }
    ({ (s.record (.redirected url)).stratumDisconnect with phase := .leaving }, .ok)

/-- The height that a message announces, which is not 0. -/
def announcedHeight : Option (BitVec 32) :=
  ((Json.stringValue (Json.arrayGet (params line) 0)).bind fun data =>
    scanEquihashBlock data.toList).filter fun height => height ≠ 0

def annotateHeight (height : BitVec 32) : Conn :=
  let s := { s with ctx := { s.ctx with job := { s.ctx.job with height := height } } }
  match s.ctx.job.jobId with
  | none => s
  | some jobId => s.record (.annotated (snprintf 128 jobId) height)

def noteHeight : Conn :=
  match announcedHeight line with
  | none => s
  | some height => s.annotateHeight height

def stratumHandleShowMessageMethod : Conn × MessageStatus :=
  let s := s.noteHeight line
  if isNullId (line.val.objectGet "id") then (s, .ok)
  else
    let (s, ok) := s.sendRpcResult line (.bool true)
    (s, statusFromBool ok)

/-- `stratum_pong`, `stratum_get_algo` and `stratum_get_version`. -/
def sendText (text : String) : Conn × MessageStatus :=
  let (s, ok) := s.sendRpcResult line (.string text)
  (s, statusFromBool ok)

def handle : MethodHandler → Conn × MessageStatus
  | .notify => stratumHandleNotifyMethod env s line
  | .ping => s.sendText line "pong"
  | .setDifficulty => stratumHandleSetDifficultyMethod s line
  | .setTarget => stratumHandleSetTargetMethod env s line
  | .setExtranonce => stratumHandleSetExtranonceMethod env s line
  | .reconnect => stratumHandleReconnectMethod s line
  | .getAlgo => s.sendText line (algoName env.algo)
  | .getVersion => s.sendText line userAgent
  | .showMessage => stratumHandleShowMessageMethod s line

def unknownMethod : Conn × MessageStatus :=
  if isNullId (line.val.objectGet "id") then (s, .ignored)
  else
    let (s, ok) := s.sendRpcError line (-32601) "Method not found"
    (s, if ok then .ignored else .fatal)

/-- A response to a submit is the business of the share accounting; it is never fatal. -/
def stratumHandleResponseValue : MessageStatus :=
  match stratumParseResponseView line.val with
  | none => .fatal
  | some id => if id < 10 then .ignored else .ok

def stratumDispatchJsonMessage : Conn × MessageStatus :=
  match Json.stringValue (line.val.objectGet "method") with
  | some method =>
    match findStratumMethodHandler method with
    | some handler => handle env s line handler
    | none => s.unknownMethod line
  | none => (s, stratumHandleResponseValue line)

/-- `stratum_handle_json_message`, whose result the handshake ignores. -/
def stratumHandleJsonMessage : Conn := (stratumDispatchJsonMessage env s line).1

end handlers

end Conn

/-! ## Waiting for a reply -/

/-- What one iteration of a receive loop gets. -/
inductive Received where
  | line (line : Line)
  -- a line that is not JSON
  | invalid
  | timedOut
  | failed

inductive WaitStatus where
  | ok (reply : Line)
  | timeout
  | recvError
  | jsonError

/-- One iteration of `stratum_wait_for_response`; `none` when it waits on. -/
def waitIteration (env : HandlerEnv) (expectedId : Nat) (s : Conn) :
    Received → Conn × Option WaitStatus
  | .line line =>
    if stratumReplyMatchesId line.val expectedId then (s, some (.ok line))
    else (s.stratumHandleJsonMessage env line, none)
  | .invalid => (s, some .jsonError)
  | .timedOut => (s, some .timeout)
  | .failed => (s, some .recvError)

/-- The context, the iterations that waited on and the status, `none` while the wait goes on. -/
def stratumWaitForResponse (env : HandlerEnv) (expectedId : Nat) :
    Conn → List Received → Conn × List Received × Option WaitStatus
  | s, [] => (s, [], none)
  | s, r :: rest =>
    match waitIteration env expectedId s r with
    | (s, some status) => (s, [], some status)
    | (s, none) =>
      let (s, passed, status) := stratumWaitForResponse env expectedId s rest
      (s, r :: passed, status)

/-- A response to the request with this id: an object without a method whose id parses to it. -/
def IsReplyTo (expectedId : Nat) (val : Json) : Prop :=
  stratumParseResponseView val = some expectedId

/-- The iteration that a status ends the wait with. -/
def WaitStatus.received : WaitStatus → Received
  | .ok reply => .line reply
  | .timeout => .timedOut
  | .recvError => .failed
  | .jsonError => .invalid

/-- What a wait should do: the lines before the one that ends it are all dispatched, once and in
order, none of them is a response to the request, and what is taken as the reply is one. -/
structure WaitsForReply (env : HandlerEnv) (expectedId : Nat) (s : Conn) (received : List Received)
    (result : Conn × List Received × Option WaitStatus) : Prop where
  dispatched : ∃ lines : List Line, result.2.1 = lines.map .line ∧
    result.1 = lines.foldl (fun s line => s.stratumHandleJsonMessage env line) s ∧
    ∀ line ∈ lines, ¬ IsReplyTo expectedId line.val
  inOrder : ∃ rest, received = result.2.1 ++ result.2.2.toList.map WaitStatus.received ++ rest
  reply : ∀ reply, result.2.2 = some (.ok reply) → IsReplyTo expectedId reply.val

/-- The first line with this id, when nothing ends the wait before it. -/
def firstWithId (expectedId : Nat) : List Received → Option Line
  | .line line :: rest =>
    if stratumReplyMatchesId line.val expectedId then some line else firstWithId expectedId rest
  | _ => none

theorem isReplyTo_iff {expectedId : Nat} {val : Json} : IsReplyTo expectedId val ↔
    stratumReplyMatchesId val expectedId = true ∧
      Json.stringValue (val.objectGet "method") = none := by
  unfold IsReplyTo stratumParseResponseView stratumReplyMatchesId
  cases hmethod : Json.stringValue (val.objectGet "method") with
  | some method => simp
  | none => simp

section wait
variable (env : HandlerEnv) (expectedId : Nat)

/-- The wait dispatches the lines it passes over, and none of them has the id. -/
theorem stratumWaitForResponse_dispatched (s : Conn) (received : List Received) :
    ∃ lines : List Line, (stratumWaitForResponse env expectedId s received).2.1 = lines.map .line ∧
      (stratumWaitForResponse env expectedId s received).1 =
        lines.foldl (fun s line => s.stratumHandleJsonMessage env line) s ∧
      ∀ line ∈ lines, stratumReplyMatchesId line.val expectedId = false := by
  induction received generalizing s with
  | nil => exact ⟨[], rfl, rfl, by simp⟩
  | cons r rest ih =>
    cases r with
    | line line =>
      cases hid : stratumReplyMatchesId line.val expectedId with
      | true => exact ⟨[], by simp [stratumWaitForResponse, waitIteration, hid]⟩
      | false =>
        obtain ⟨lines, hpassed, hctx, hnone⟩ := ih (s.stratumHandleJsonMessage env line)
        refine ⟨line :: lines, ?_, ?_, ?_⟩
        · simp [stratumWaitForResponse, waitIteration, hid, hpassed]
        · simp [stratumWaitForResponse, waitIteration, hid, hctx]
        · simpa [hid] using hnone
    | invalid => exact ⟨[], rfl, rfl, by simp⟩
    | timedOut => exact ⟨[], rfl, rfl, by simp⟩
    | failed => exact ⟨[], rfl, rfl, by simp⟩

theorem stratumWaitForResponse_inOrder (s : Conn) (received : List Received) :
    ∃ rest, received = (stratumWaitForResponse env expectedId s received).2.1 ++
      (stratumWaitForResponse env expectedId s received).2.2.toList.map WaitStatus.received ++ rest := by
  induction received generalizing s with
  | nil => exact ⟨[], rfl⟩
  | cons r rest ih =>
    cases r with
    | line line =>
      cases hid : stratumReplyMatchesId line.val expectedId with
      | true =>
        exact ⟨rest, by simp [stratumWaitForResponse, waitIteration, hid, WaitStatus.received]⟩
      | false =>
        obtain ⟨after, hafter⟩ := ih (s.stratumHandleJsonMessage env line)
        refine ⟨after, ?_⟩
        simp only [stratumWaitForResponse, waitIteration, hid, Bool.false_eq_true, if_false,
          List.cons_append, List.cons.injEq, true_and]
        exact hafter
    | invalid => exact ⟨rest, rfl⟩
    | timedOut => exact ⟨rest, rfl⟩
    | failed => exact ⟨rest, rfl⟩

/-- The line taken as the reply is the first one with the id, whatever else it is. -/
theorem stratumWaitForResponse_ok_iff (s : Conn) (received : List Received) (reply : Line) :
    (stratumWaitForResponse env expectedId s received).2.2 = some (.ok reply) ↔
      firstWithId expectedId received = some reply := by
  induction received generalizing s with
  | nil => simp [stratumWaitForResponse, firstWithId]
  | cons r rest ih =>
    cases r with
    | line line =>
      cases hid : stratumReplyMatchesId line.val expectedId with
      | true => simp [stratumWaitForResponse, waitIteration, firstWithId, hid]
      | false => simp [stratumWaitForResponse, waitIteration, firstWithId, hid, ih]
    | invalid => simp [stratumWaitForResponse, waitIteration, firstWithId]
    | timedOut => simp [stratumWaitForResponse, waitIteration, firstWithId]
    | failed => simp [stratumWaitForResponse, waitIteration, firstWithId]

theorem firstWithId_matches {expectedId : Nat} {received : List Received} {line : Line}
    (h : firstWithId expectedId received = some line) :
    stratumReplyMatchesId line.val expectedId = true := by
  induction received with
  | nil => simp [firstWithId] at h
  | cons r rest ih =>
    cases r with
    | line first =>
      rw [firstWithId] at h
      split at h
      case isTrue hid =>
        rw [Option.some.injEq] at h
        rwa [← h]
      case isFalse => exact ih h
    | invalid => simp [firstWithId] at h
    | timedOut => simp [firstWithId] at h
    | failed => simp [firstWithId] at h

end wait

/-- A wait does what it should exactly when the first line that carries the id is not a call. -/
theorem wait_takes_reply_iff (env : HandlerEnv) (expectedId : Nat) (s : Conn)
    (received : List Received) :
    WaitsForReply env expectedId s received (stratumWaitForResponse env expectedId s received) ↔
      ∀ line, firstWithId expectedId received = some line →
        Json.stringValue (line.val.objectGet "method") = none := by
  constructor
  · intro h line hfirst
    have hreply := h.reply line ((stratumWaitForResponse_ok_iff env expectedId s received line).mpr hfirst)
    exact (isReplyTo_iff.mp hreply).2
  · intro hmethod
    obtain ⟨lines, hpassed, hctx, hnone⟩ :=
      stratumWaitForResponse_dispatched env expectedId s received
    refine ⟨⟨lines, hpassed, hctx, ?_⟩, stratumWaitForResponse_inOrder env expectedId s received, ?_⟩
    · intro line hline hreply
      rw [isReplyTo_iff, hnone line hline] at hreply
      exact absurd hreply.1 (by simp)
    · intro reply hok
      have hfirst := (stratumWaitForResponse_ok_iff env expectedId s received reply).mp hok
      exact isReplyTo_iff.mpr ⟨firstWithId_matches hfirst, hmethod reply hfirst⟩

/-- A ping with the id of the request is taken as the reply and is not answered. -/
theorem wait_takes_ping_as_reply :
    let env : HandlerEnv := ⟨.sha256d, fun _ => .zero, fun ctx _ => (ctx, none)⟩
    let ping : Line := { val := .object [("id", .integer 1), ("method", .string "mining.ping")] }
    let s := stratumInitContext .sha256d 0 {}
    ¬ WaitsForReply env 1 s [.line ping] (stratumWaitForResponse env 1 s [.line ping]) := by
  intro env ping s h
  have hreply : IsReplyTo 1 ping.val := h.reply ping rfl
  rw [isReplyTo_iff] at hreply
  exact absurd hreply.2 (by decide)

end PrimoMiner
