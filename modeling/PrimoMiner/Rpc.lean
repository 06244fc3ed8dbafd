import PrimoMiner.Globals

/-!
# Messages from the pool

The part of `stratum_rpc.cpp` and `stratum_handshake.cpp` that decides what a decoded line is: a
reply to a request of the handshake, a response, or a call of one of the client's methods.
`client.reconnect` is the only method that changes a context's url or its reconnect flag, so its
handler is given in full.
-/

namespace PrimoMiner

inductive MessageStatus where
  | ok | ignored | fatal
  deriving DecidableEq, Repr

def uint32Max : Nat := 2 ^ 32 - 1

def stratumParseRpcId : Option Json → Option Nat
  | some (.integer id) => if 0 ≤ id ∧ id.toNat ≤ uint32Max then some id.toNat else none
  | some (.string s) =>
    match s.toList with
    | [] => none
    | '-' :: _ => none
    | text =>
      let (parsed, rest) := strtoul text
      if rest.length = text.length ∨ rest ≠ [] ∨ uint32Max < parsed then none else some parsed
  | _ => none

def stratumReplyMatchesId (reply : Json) (expectedId : Nat) : Bool :=
  stratumParseRpcId (reply.objectGet "id") == some expectedId

def isFalse : Option Json → Bool
  | some (.bool b) => !b
  | _ => false

def stratumReplyHasRpcError (reply : Json) (allowFalseResult : Bool) : Bool :=
  let result := reply.objectGet "result"
  let error := reply.objectGet "error"
  (result.isNone || Json.isNull result || (!allowFalseResult && isFalse result)) ||
    (error.isSome && !Json.isNull error)

/-! ## Methods -/

inductive MethodHandler where
  | notify | ping | setDifficulty | setTarget | setExtranonce | reconnect | getAlgo | getVersion
  | showMessage
  deriving DecidableEq, Repr

def stratumMethodHandlers : List (String × MethodHandler) :=
  [("mining.notify", .notify),
   ("job", .notify),
   ("mining.ping", .ping),
   ("mining.set_difficulty", .setDifficulty),
   ("mining.set_target", .setTarget),
   ("mining.set_extranonce", .setExtranonce),
   ("client.reconnect", .reconnect),
   ("client.get_algo", .getAlgo),
   ("client.get_version", .getVersion),
   ("client.show_message", .showMessage)]

def findStratumMethodHandler (method : String) : Option MethodHandler :=
  (stratumMethodHandlers.find? fun entry => strcasecmpEq method entry.1).map (·.2)

/-- The handler that `stratum_dispatch_json_message` calls, `none` for a response and for a method
that is not in the table. -/
def stratumMethodOf (val : Json) : Option MethodHandler :=
  (Json.stringValue (val.objectGet "method")).bind findStratumMethodHandler

/-! ## client.reconnect -/

/-- The port of a redirect, `0` when it is missing or malformed. -/
def stratumReconnectPort : Option Json → Int
  | some (.string portStr) =>
    let (parsed, rest) := strtol portStr.toList
    if rest = [] ∧ rest.length ≠ portStr.toList.length ∧ 0 < parsed ∧ parsed ≤ 65535 then parsed
    else 0
  | some (.integer parsed) => if 0 < parsed ∧ parsed ≤ 65535 then parsed else 0
  | _ => 0

/-- A TLS pool that redirects stays on TLS. -/
def redirectUrl (useTls : Bool) (host : String) (port : Int) : String :=
  let scheme := if useTls then "stratum+ssl" else "stratum+tcp"
  snprintf (32 + host.toList.length) (scheme ++ "://" ++ host ++ ":" ++ toString port)

/-- The url a redirect names, `none` when the redirect is refused. -/
def stratumReconnectUrl (ctx : StratumCtx) (params : Option Json) : Option String :=
  let port := stratumReconnectPort (Json.arrayGet params 1)
  match Json.stringValue (Json.arrayGet params 0) with
  | none => none
  | some host =>
    if host = "" ∨ port ≤ 0 ∨ 65535 < port then none
    else some (redirectUrl ctx.useTls host port)

def shortUrlOf (url : String) : String :=
  match strstr "://".toList url.toList with
  | some rest => String.ofList (rest.drop 3)
  | none => url

/-- The pool table entry after a redirect to `url` has been accepted. -/
def PoolInfos.redirect (pool : PoolInfos) (url : String) : PoolInfos :=
  { pool with
    url := snprintf 512 url
    shortUrl := snprintf 64 (shortUrlOf url)
    stratum := { pool.stratum with url := url, reconnectRequested := true } }

/-- `stratum_reconnect` up to its `stratum_disconnect`; `none` when the redirect is refused. -/
def stratumReconnect (g : Globals) (p : Nat) (params : Option Json) : Option Globals :=
  match stratumReconnectUrl (g.ctx p) params with
  | none => none
  | some url =>
    match stratumSetUrl (g.ctx p) url with
    | none => none
    | some ctx =>
      if p < g.numPools then some (g.setPool p ((g.pools p).redirect url))
      else some (g.modifyCtx p fun _ => { ctx with reconnectRequested := true })

/-- The redirect a message asks for, if the message is a `client.reconnect` that is accepted. -/
def acceptedRedirect (ctx : StratumCtx) (val : Json) : Option String :=
  if stratumMethodOf val = some .reconnect then stratumReconnectUrl ctx (val.objectGet "params")
  else none

theorem redirectUrl_ne_empty (useTls : Bool) (host : String) (port : Int) :
    redirectUrl useTls host port ≠ "" := by
  unfold redirectUrl
  apply snprintf_ne_empty
  · omega
  · cases useTls <;> simp [String.append_eq_empty_iff]

theorem stratumReconnectUrl_ne_empty {ctx : StratumCtx} {params : Option Json} {url : String}
    (h : stratumReconnectUrl ctx params = some url) : url ≠ "" := by
  simp only [stratumReconnectUrl] at h
  split at h
  · exact absurd h (by simp)
  · split at h
    · exact absurd h (by simp)
    · rw [Option.some.injEq] at h
      rw [← h]
      exact redirectUrl_ne_empty _ _ _

theorem acceptedRedirect_ne_empty {ctx : StratumCtx} {val : Json} {url : String}
    (h : acceptedRedirect ctx val = some url) : url ≠ "" := by
  unfold acceptedRedirect at h
  split at h
  · exact stratumReconnectUrl_ne_empty h
  · exact absurd h (by simp)

/-- A redirect of a pool of the table is accepted as soon as its host and port are. -/
theorem stratumReconnect_eq_map {g : Globals} {p : Nat} (params : Option Json)
    (hp : p < g.numPools) :
    stratumReconnect g p params =
      (stratumReconnectUrl (g.ctx p) params).map fun url =>
        g.setPool p ((g.pools p).redirect url) := by
  unfold stratumReconnect
  cases hurl : stratumReconnectUrl (g.ctx p) params with
  | none => rfl
  | some url => simp [stratumSetUrl, stratumReconnectUrl_ne_empty hurl, hp]

theorem stratumReconnect_same {g : Globals} {p : Nat} (url : String) (hurl : url ≠ "")
    (hpool : (g.pools p).disabled = true ∨ (g.pools p).url ≠ "") :
    SameSetup g (g.setPool p ((g.pools p).redirect url)) := by
  have hnew : snprintf 512 url ≠ "" := snprintf_ne_empty (by omega) hurl
  apply SameSetup.setPool
  · rfl
  · rfl
  · exact hpool.imp_right fun hold => ⟨hnew, hold⟩

end PrimoMiner
