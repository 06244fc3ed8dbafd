import PrimoMiner.ApiHistory
import PrimoMiner.WebSocket
import Mathlib.Data.List.Infix

/-!
# Requests to the API

`api_handle_client`: a request is received in pieces, cut at the end of a line or of the HTTP headers, and
parsed in place.  It is either a line `command|params` or an HTTP `GET /command/params`, which may ask for
an upgrade to a WebSocket.
-/

namespace PrimoMiner

/-- `API_RECV_SIZE` -/
def apiRecvSize : Nat := 1024

/-! ## Receiving -/

/-- What one turn of the loop of `api_recv_request` meets. -/
inductive ApiTurn where
  -- `api_wait_for_fd` fails
  | waitFailed
  | timeout
  -- what the peer has sent; `recv` takes as much of it as fits
  | bytes (s : List Char)
  -- `EINTR`
  | interrupted
  -- `EAGAIN`
  | blocked
  | recvFailed
  | closed
  deriving DecidableEq, Repr

/-- A C string in a buffer, from `off` on. -/
def cstr (buf : List Char) (off : Nat) : List Char := (buf.drop off).takeWhile (· != '\x00')

def isNewline (c : Char) : Bool := c == '\n' || c == '\r'

def apiHttpHeadersComplete (request : List Char) : Bool :=
  (strstr "\r\n\r\n".toList request).isSome || (strstr "\n\n".toList request).isSome

def getSlash : List Char := "GET /".toList

/-- `strncmp(request, "GET /", 5) == 0`. -/
def startsWithGet (request : List Char) : Bool := getSlash.isPrefixOf request

/-- The loop of `api_recv_request`; `none` is its `-1`.  Where there is no turn left the wait times out. -/
def recvRequestLoop (requestSize : Nat) : List ApiTurn → List Char → Bool → Option (List Char)
  | [], buf, _ => some buf
  | turn :: turns, buf, isHttp =>
    if requestSize ≤ buf.length + 1 then some buf
    else match turn with
      | .waitFailed => none
      | .timeout => some buf
      | .interrupted => recvRequestLoop requestSize turns buf isHttp
      | .blocked => if 0 < buf.length then some buf else none
      | .recvFailed => none
      | .closed => some buf
      | .bytes s =>
        let received := s.take (requestSize - buf.length - 1)
        if received = [] then some buf
        else
          let buf := buf ++ received
          let text := cstr buf 0
          let isHttp := isHttp || (decide (5 ≤ buf.length) && startsWithGet text)
          if isHttp = true ∧ apiHttpHeadersComplete text = true then some buf
          else if isHttp = false ∧ text.any isNewline = true then some buf
          else recvRequestLoop requestSize turns buf isHttp

def apiRecvRequest (turns : List ApiTurn) : Option (List Char) :=
  recvRequestLoop (apiRecvSize + 1) turns [] false

/-! ## Parsing -/

/-- `strchr` in a buffer: the place of the character. -/
def strchrAt (c : Char) (buf : List Char) (off : Nat) : Option Nat :=
  if c ∈ cstr buf off then some (off + (cstr buf off).idxOf c) else none

def apiTrimTrailingNewlines (buf : List Char) : List Char := (cstr buf 0).rdropWhile isNewline

def websocketKeyField : List Char := "Sec-WebSocket-Key:".toList

/-- `api_find_websocket_key`: where the key begins, and the buffer with its end marked. -/
def apiFindWebsocketKey (buf : List Char) : Option (Nat × List Char) :=
  match strstr websocketKeyField (cstr buf 0) with
  | none => none
  | some found =>
    let key := (cstr buf 0).length - found.length + websocketKeyField.length
    let key := key + ((cstr buf key).takeWhile (· == ' ')).length
    match (strchrAt '\r' buf key).or (strchrAt '\n' buf key) with
    | some lineEnd => some (key, buf.set lineEnd '\x00')
    | none => some (key, buf)

/-- The buffer and the values that the parsers set. -/
structure ApiParse where
  request : List Char
  command : List Char := []
  params : List Char := []
  websocketKey : Option Nat := none

def commandSize : Nat := 64
def paramsSize : Nat := 256

/-- `snprintf(to, size, "%s", s)` -/
def printed (size : Nat) (s : List Char) : List Char := s.take (size - 1)

/-- The part of `api_parse_http_get` that cuts the path. -/
def parsePath (p : ApiParse) : Bool × ApiParse :=
  match strchrAt ' ' p.request 5 with
  | none => (false, p)
  | some pathEnd =>
    let request := p.request.set pathEnd '\x00'
    let p := match strchrAt '/' request 5 with
      | some slash =>
        let request := request.set slash '\x00'
        { p with
          request := request
          command := printed commandSize (cstr request 5)
          params := printed paramsSize (cstr request (slash + 1)) }
      | none => { p with request := request, command := printed commandSize (cstr request 5), params := [] }
    (p.command != [], p)

def apiParseHttpGet (p : ApiParse) : Bool × ApiParse :=
  if startsWithGet (cstr p.request 0) = false then (false, p)
  else match apiFindWebsocketKey p.request with
    | none => parsePath p
    | some (key, request) => parsePath { p with request := request, websocketKey := some key }

/-- The part of `api_parse_command` for a line that is no HTTP request. -/
def parseSeparator (p : ApiParse) : Bool × ApiParse :=
  let p := match strchrAt '|' p.request 0 with
    | none => p
    | some separator =>
      let request := p.request.set separator '\x00'
      let params := printed paramsSize (cstr request (separator + 1))
      { p with
        request := request
        params := if params.getLast? = some '|' then params.dropLast else params }
  let p := { p with command := printed commandSize (cstr p.request 0) }
  (p.command != [], p)

def apiParseCommand (request : List Char) : Bool × ApiParse :=
  match apiParseHttpGet { request := apiTrimTrailingNewlines request } with
  | (true, p) => (true, p)
  | (false, p) => parseSeparator p

/-! ## Answering -/

namespace ApiCommand

def name : ApiCommand → String
  | summary => "summary"
  | threads => "threads"
  | pool => "pool"
  | histo => "histo"
  | hwinfo => "hwinfo"
  | meminfo => "meminfo"
  | scanlog => "scanlog"
  | help => "help"

/-- `g_api_commands` -/
def all : List ApiCommand := [summary, threads, pool, histo, hwinfo, meminfo, scanlog, help]

end ApiCommand

def apiFindCommand (command : List Char) : Option ApiCommand :=
  ApiCommand.all.find? fun c => c.name.toList == command

/-- `api_handle_client`: what is sent to the client, when anything is.  `calloc` says which sizes can be
allocated, and the command's handler gets the size of its buffer and the parameters. -/
def apiHandleClient (handler : ApiCommand → Nat → String → String) (calloc : Nat → Bool) (optNThreads : Int)
    (turns : List ApiTurn) : Option (List (List Byte)) :=
  match apiRecvRequest turns with
  | none => none
  | some request =>
    if request = [] then none
    else match apiParseCommand request with
      | (false, _) => none
      | (true, p) =>
        match apiFindCommand p.command with
        | none => none
        | some command =>
          if calloc (apiResponseCapacity optNThreads command) = false then none
          else
            let response := handler command (apiResponseCapacity optNThreads command) (String.ofList p.params)
            match p.websocketKey with
            | some key => some (apiSendWebsocketResponse response (String.ofList (cstr p.request key)))
            | none => some [textBytes response]

/-! ## What the loop receives -/

/-- The bytes of the turns. -/
def delivered (turns : List ApiTurn) : List Char :=
  turns.flatMap fun
    | .bytes s => s
    | _ => []

/-- The peer sends `r` in some pieces and then nothing more. -/
structure Arrives (turns : List ApiTurn) (r : List Char) : Prop where
  pieces : ∀ t ∈ turns, t = .interrupted ∨ ∃ s, s ≠ [] ∧ t = .bytes s
  whole : delivered turns = r

/-- The loop ends here. -/
def RequestComplete (text : List Char) : Prop :=
  if startsWithGet text = true then apiHttpHeadersComplete text = true else text.any isNewline = true

/-- A text without a NUL inside, up to the NUL behind it or the end of the buffer. -/
theorem cstr_eq {buf a b : List Char} {off : Nat} (hdrop : buf.drop off = a ++ b) (hnul : '\x00' ∉ a)
    (hend : b.head? = some '\x00' ∨ b = []) : cstr buf off = a := by
  have hall : ∀ x ∈ a, (x != '\x00') = true := by
    intro x hx
    rw [bne_iff_ne]
    rintro rfl
    exact hnul hx
  rw [cstr, hdrop, List.takeWhile_append_of_pos hall]
  have hb : b.takeWhile (· != '\x00') = [] := by
    rcases b with _ | ⟨x, b⟩
    · rfl
    · rcases hend with hx | hx
      · rw [List.head?_cons, Option.some.injEq] at hx
        rw [List.takeWhile_cons_of_neg (by simp [hx])]
      · cases hx
  rw [hb, List.append_nil]

theorem cstr_eq_drop {buf : List Char} (h : '\x00' ∉ buf) (off : Nat) : cstr buf off = buf.drop off :=
  cstr_eq (b := []) (by simp) (fun hmem => h (List.mem_of_mem_drop hmem)) (Or.inr rfl)

theorem cstr_append {a : List Char} (hnul : '\x00' ∉ a) (b : List Char) : cstr (a ++ b) 0 = a ++ cstr b 0 :=
  List.takeWhile_append_of_pos fun _ hx => bne_iff_ne.mpr fun heq => hnul (heq ▸ hx)

theorem cstr_cstr (buf : List Char) : cstr (cstr buf 0) 0 = cstr buf 0 := List.takeWhile_idem ..

theorem cstr_begins (buf : List Char) : cstr buf 0 <+: buf := List.takeWhile_prefix _

/-- What is received behind a text does not shorten it. -/
theorem cstr_begins_append (buf s : List Char) : cstr buf 0 <+: cstr (buf ++ s) 0 := by
  simp only [cstr, List.drop_zero, List.takeWhile_append]
  split
  · exact (List.takeWhile_prefix _).trans (List.prefix_append ..)
  · exact List.prefix_rfl

theorem nul_notMem_cstr (buf : List Char) : '\x00' ∉ cstr buf 0 := by
  intro hmem
  have hkept := List.mem_takeWhile_imp hmem
  simp at hkept

theorem startsWithGet_iff {text : List Char} : startsWithGet text = true ↔ getSlash <+: text :=
  List.isPrefixOf_iff_prefix

theorem startsWithGet_mono {text text' : List Char} (h : startsWithGet text = true) (hbegins : text <+: text') :
    startsWithGet text' = true := by
  rw [startsWithGet_iff] at h ⊢
  exact h.trans hbegins

/-- What the loop knows of HTTP is a matter of the text alone. -/
theorem isHttp_step {buf s : List Char} {isHttp : Bool} (h : isHttp = startsWithGet (cstr buf 0)) :
    (isHttp || (decide (5 ≤ (buf ++ s).length) && startsWithGet (cstr (buf ++ s) 0))) =
      startsWithGet (cstr (buf ++ s) 0) := by
  subst h
  cases hnew : startsWithGet (cstr (buf ++ s) 0) with
  | false =>
    cases hold : startsWithGet (cstr buf 0) with
    | false => simp
    | true =>
      exact absurd (startsWithGet_mono hold (cstr_begins_append buf s)) (Bool.eq_false_iff.mp hnew)
  | true =>
    have hlength : 5 ≤ (buf ++ s).length :=
      (startsWithGet_iff.mp hnew).length_le.trans (cstr_begins (buf ++ s)).length_le
    rw [decide_eq_true hlength, Bool.and_self, Bool.or_true]

theorem recvRequestLoop_full {n : Nat} (turns : List ApiTurn) {buf : List Char} (isHttp : Bool)
    (hfull : n ≤ buf.length) : recvRequestLoop (n + 1) turns buf isHttp = some buf := by
  cases turns with
  | nil => rfl
  | cons turn turns =>
    unfold recvRequestLoop
    rw [if_pos (by omega)]

theorem recvRequestLoop_spec {n : Nat} {turns : List ApiTurn} {r buf : List Char} {isHttp : Bool}
    (hturns : Arrives turns r) (hroom : buf.length ≤ n) (hhttp : isHttp = startsWithGet (cstr buf 0)) :
    ∃ q, recvRequestLoop (n + 1) turns buf isHttp = some q ∧ q <+: buf ++ r ∧
      (q = (buf ++ r).take n ∨ RequestComplete (cstr q 0)) := by
  -- a full buffer holds the first bytes of the request
  have hfull : ∀ {q rest : List Char}, q.length = n → q = (q ++ rest).take n := by
    intro q rest hlength
    rw [← hlength, List.take_left]
  induction turns generalizing buf isHttp r with
  | nil =>
    obtain rfl : r = [] := hturns.whole.symm
    refine ⟨buf, rfl, List.prefix_append buf [], Or.inl ?_⟩
    rw [List.append_nil, List.take_of_length_le hroom]
  | cons turn turns ih =>
    have hpieces : ∀ t ∈ turns, t = .interrupted ∨ ∃ s, s ≠ [] ∧ t = .bytes s :=
      fun t ht => hturns.pieces t (by simp [ht])
    by_cases hlt : n ≤ buf.length
    · exact ⟨buf, recvRequestLoop_full _ _ hlt, List.prefix_append buf r, Or.inl (hfull (by omega))⟩
    · obtain rfl | ⟨s, hs, rfl⟩ := hturns.pieces turn (by simp)
      · rw [recvRequestLoop, if_neg (by omega)]
        exact ih ⟨hpieces, hturns.whole⟩ hroom hhttp
      · obtain ⟨r', rfl⟩ : ∃ r', r = s ++ r' := ⟨delivered turns, hturns.whole.symm⟩
        have hrest : Arrives turns r' := ⟨hpieces, List.append_cancel_left hturns.whole⟩
        have hne : s.take (n + 1 - buf.length - 1) ≠ [] := by
          rw [Ne, List.take_eq_nil_iff]
          rintro (hzero | hnil)
          · omega
          · exact hs hnil
        have hbegins : buf ++ s.take (n + 1 - buf.length - 1) <+: buf ++ (s ++ r') :=
          (List.prefix_append_right_inj buf).mpr ((List.take_prefix ..).trans (List.prefix_append ..))
        rw [recvRequestLoop, if_neg (by omega)]
        simp only [hne, if_false, isHttp_step hhttp]
        split
        next hcomplete =>
          refine ⟨_, rfl, hbegins, Or.inr ?_⟩
          rw [RequestComplete, if_pos hcomplete.1]
          exact hcomplete.2
        next =>
          split
          next hcomplete =>
            refine ⟨_, rfl, hbegins, Or.inr ?_⟩
            rw [RequestComplete, if_neg (by simp [hcomplete.1])]
            exact hcomplete.2
          next =>
            by_cases hfits : s.length ≤ n + 1 - buf.length - 1
            · rw [List.take_of_length_le hfits, ← List.append_assoc]
              exact ih hrest (by rw [List.length_append]; omega) rfl
            · -- the buffer is full
              have hlength : (buf ++ s.take (n + 1 - buf.length - 1)).length = n := by
                rw [List.length_append, List.length_take]
                omega
              refine ⟨_, recvRequestLoop_full _ _ (by omega), hbegins, Or.inl ?_⟩
              obtain ⟨rest, hrest⟩ := hbegins
              rw [← hrest]
              exact hfull hlength

/-- However a request arrives, its first bytes are received: as many as fit, or all up to an end of the
text. -/
theorem apiRecvRequest_spec {turns : List ApiTurn} {r : List Char} (hturns : Arrives turns r) :
    ∃ q, apiRecvRequest turns = some q ∧ q <+: r ∧ (q = r.take apiRecvSize ∨ RequestComplete (cstr q 0)) := by
  have hempty : ([] : List Char).length ≤ apiRecvSize := Nat.zero_le _
  exact recvRequestLoop_spec hturns hempty rfl

/-! ## What the parser makes of it -/

/-- A command with its parameters, if there are any, behind a separator. -/
def withParams (separator : Char) (command : List Char) : Option (List Char) → List Char
  | none => command
  | some params => command ++ separator :: params

/-- A command and parameters that both forms of a request can carry. -/
structure RequestWords (command : List Char) (params : Option (List Char)) : Prop where
  command_ne_nil : command ≠ []
  command_length : command.length < commandSize
  command_chars : ∀ c ∈ ['|', '/', ' ', '\n', '\r', '\x00'], c ∉ command
  params_length : ∀ ps ∈ params, ps.length < paramsSize
  params_chars : ∀ ps ∈ params, ∀ c ∈ [' ', '\n', '\r', '\x00'], c ∉ ps
  params_last : ∀ ps ∈ params, ps.getLast? ≠ some '|'

section parsing

variable {buf a b : List Char} {c : Char} {off : Nat} {command : List Char} {params : Option (List Char)}

theorem strchrAt_eq (hdrop : buf.drop off = a ++ c :: b) (hnul : '\x00' ∉ a) (hc : c ∉ a)
    (hne : c ≠ '\x00') : strchrAt c buf off = some (off + a.length) := by
  have hall : ∀ x ∈ a, (x != '\x00') = true := by
    intro x hx
    rw [bne_iff_ne]
    rintro rfl
    exact hnul hx
  have htext : cstr buf off = a ++ c :: b.takeWhile (· != '\x00') := by
    rw [cstr, hdrop, List.takeWhile_append_of_pos hall, List.takeWhile_cons_of_pos (by simpa using hne)]
  rw [strchrAt, htext, if_pos (by simp), List.idxOf_append_of_notMem hc, List.idxOf_cons_self,
    Nat.add_zero]

theorem printed_eq {size : Nat} {s : List Char} (h : s.length < size) : printed size s = s :=
  List.take_of_length_le (by omega)

namespace RequestWords

theorem not_mem_withParams (h : RequestWords command params) {separator : Char}
    (hc : c ∈ [' ', '\n', '\r', '\x00']) (hne : c ≠ separator) :
    c ∉ withParams separator command params := by
  have hcommand : c ∉ command := h.command_chars c (by
    simp only [List.mem_cons, List.not_mem_nil, or_false] at hc ⊢
    tauto)
  cases params with
  | none => exact hcommand
  | some ps =>
    have hps := h.params_chars ps rfl c hc
    simp [withParams, hcommand, hps, hne]

theorem no_newline (h : RequestWords command params) {separator : Char} (hsep : isNewline separator = false) :
    ∀ c ∈ withParams separator command params, isNewline c = false := by
  intro c hc
  by_contra hnewline
  rw [Bool.not_eq_false, isNewline, Bool.or_eq_true, beq_iff_eq, beq_iff_eq] at hnewline
  rcases hnewline with rfl | rfl
  · exact h.not_mem_withParams (by decide) (by rintro rfl; cases hsep) hc
  · exact h.not_mem_withParams (by decide) (by rintro rfl; cases hsep) hc

theorem withParams_length (h : RequestWords command params) (separator : Char) :
    (withParams separator command params).length < commandSize + paramsSize := by
  have hcommand := h.command_length
  cases params with
  | none => exact Nat.lt_add_right _ hcommand
  | some ps =>
    have hps := h.params_length ps rfl
    rw [withParams, List.length_append, List.length_cons]
    omega

theorem withParams_ne_nil (h : RequestWords command params) (separator : Char) :
    withParams separator command params ≠ [] := by
  cases params with
  | none => exact h.command_ne_nil
  | some ps => simp [withParams]

/-- A line is no HTTP request, for want of a space. -/
theorem line_not_get (h : RequestWords command params) : startsWithGet (withParams '|' command params) = false := by
  rw [← Bool.not_eq_true, startsWithGet_iff]
  intro hbegins
  have hspace : ' ' ∈ getSlash := by decide
  exact h.not_mem_withParams (by decide) (by decide) (hbegins.subset hspace)

theorem parseSeparator_line (h : RequestWords command params) :
    ∃ p, parseSeparator { request := withParams '|' command params } = (true, p) ∧ p.command = command ∧
      p.params = params.getD [] ∧ p.websocketKey = none := by
  have hbar : '|' ∉ command := h.command_chars '|' (by decide)
  have hnul : '\x00' ∉ command := h.command_chars '\x00' (by decide)
  have hcommand : printed commandSize command = command := printed_eq h.command_length
  have hne : (command != []) = true := bne_iff_ne.mpr h.command_ne_nil
  unfold parseSeparator
  cases params with
  | none =>
    have htext : cstr command 0 = command := cstr_eq_drop hnul 0
    have hnone : strchrAt '|' command 0 = none := by
      rw [strchrAt, htext]
      exact if_neg hbar
    simp [withParams, hnone, htext, hcommand, hne]
  | some ps =>
    have hps : '\x00' ∉ ps := h.params_chars ps rfl _ (by decide)
    have hsome : strchrAt '|' (command ++ '|' :: ps) 0 = some command.length := by
      rw [strchrAt_eq (a := command) (b := ps) rfl hnul hbar (by decide), Nat.zero_add]
    have hset : (command ++ '|' :: ps).set command.length '\x00' = command ++ '\x00' :: ps := by simp
    have hrest : cstr (command ++ '\x00' :: ps) (command.length + 1) = ps :=
      cstr_eq (b := []) (by simp) hps (Or.inr rfl)
    have htext : cstr (command ++ '\x00' :: ps) 0 = command :=
      cstr_eq (b := '\x00' :: ps) rfl hnul (Or.inl rfl)
    have hparams : printed paramsSize ps = ps := printed_eq (h.params_length ps rfl)
    have hlast := h.params_last ps rfl
    simp [withParams, hsome, hset, hrest, htext, hcommand, hparams, hlast, hne]

theorem parse_line (h : RequestWords command params) {q : List Char}
    (hq : apiTrimTrailingNewlines q = withParams '|' command params) :
    ∃ p, apiParseCommand q = (true, p) ∧ p.command = command ∧ p.params = params.getD [] ∧
      p.websocketKey = none := by
  have hnul : '\x00' ∉ withParams '|' command params := h.not_mem_withParams (by decide) (by decide)
  have hget : apiParseHttpGet { request := withParams '|' command params } =
      (false, { request := withParams '|' command params }) := by
    rw [apiParseHttpGet, cstr_eq_drop hnul, List.drop_zero, if_pos h.line_not_get]
  rw [apiParseCommand, hq, hget]
  exact h.parseSeparator_line

/-- The path of a `GET` is cut, and what stands behind it is left alone. -/
theorem parsePath_get (h : RequestWords command params) (p : ApiParse) {rest : List Char}
    (hrequest : p.request = getSlash ++ (withParams '/' command params ++ ' ' :: rest)) :
    ∃ p', parsePath p = (true, p') ∧ p'.command = command ∧ p'.params = params.getD [] ∧
      p'.websocketKey = p.websocketKey ∧
      ∃ path, path.length = (getSlash ++ withParams '/' command params).length ∧
        p'.request = path ++ '\x00' :: rest := by
  have hslash : '/' ∉ command := h.command_chars '/' (by decide)
  have hnul : '\x00' ∉ command := h.command_chars '\x00' (by decide)
  have hcommand : printed commandSize command = command := printed_eq h.command_length
  have hne : (command != []) = true := bne_iff_ne.mpr h.command_ne_nil
  have hspace : strchrAt ' ' p.request 5 = some (5 + (withParams '/' command params).length) := by
    rw [hrequest]
    exact strchrAt_eq rfl (h.not_mem_withParams (by decide) (by decide))
      (h.not_mem_withParams (by decide) (by decide)) (by decide)
  have hset : p.request.set (5 + (withParams '/' command params).length) '\x00' =
      getSlash ++ (withParams '/' command params ++ '\x00' :: rest) := by
    have hplace : 5 + (withParams '/' command params).length =
        (getSlash ++ withParams '/' command params).length := by
      rw [List.length_append]
      rfl
    rw [hrequest, hplace, ← List.append_assoc]
    simp
  unfold parsePath
  rw [hspace]
  dsimp only
  rw [hset]
  cases params with
  | none =>
    have htext : cstr (getSlash ++ (command ++ '\x00' :: rest)) 5 = command :=
      cstr_eq (b := '\x00' :: rest) rfl hnul (Or.inl rfl)
    have hnone : strchrAt '/' (getSlash ++ (command ++ '\x00' :: rest)) 5 = none := by
      rw [strchrAt, htext]
      exact if_neg hslash
    refine ⟨{ p with request := getSlash ++ (command ++ '\x00' :: rest), command := command, params := [] },
      ?_, rfl, rfl, rfl, getSlash ++ command, rfl, by simp⟩
    simp [withParams, hnone, htext, hcommand, hne]
  | some ps =>
    have hps : '\x00' ∉ ps := h.params_chars ps rfl _ (by decide)
    have hparams : printed paramsSize ps = ps := printed_eq (h.params_length ps rfl)
    have hmark : strchrAt '/' (getSlash ++ (command ++ '/' :: (ps ++ '\x00' :: rest))) 5 =
        some (5 + command.length) := strchrAt_eq rfl hnul hslash (by decide)
    have hset : (getSlash ++ (command ++ '/' :: (ps ++ '\x00' :: rest))).set (5 + command.length) '\x00' =
        getSlash ++ (command ++ '\x00' :: (ps ++ '\x00' :: rest)) := by
      have hplace : 5 + command.length = (getSlash ++ command).length := by
        rw [List.length_append]
        rfl
      rw [hplace, ← List.append_assoc]
      simp
    have htext : cstr (getSlash ++ (command ++ '\x00' :: (ps ++ '\x00' :: rest))) 5 = command :=
      cstr_eq (b := '\x00' :: (ps ++ '\x00' :: rest)) rfl hnul (Or.inl rfl)
    have hrest : cstr (getSlash ++ (command ++ '\x00' :: (ps ++ '\x00' :: rest))) (5 + command.length + 1) =
        ps := by
      refine cstr_eq (b := '\x00' :: rest) ?_ hps (Or.inl rfl)
      have hplace : 5 + command.length + 1 = (getSlash ++ command ++ ['\x00']).length := by
        simp only [List.length_append]
        rfl
      rw [hplace, ← List.append_assoc, List.append_cons _ _ (ps ++ '\x00' :: rest), List.drop_left]
    refine ⟨{ p with
        request := getSlash ++ (command ++ '\x00' :: (ps ++ '\x00' :: rest)), command := command, params := ps },
      ?_, rfl, rfl, rfl, getSlash ++ (command ++ '\x00' :: ps), by simp [withParams], by simp⟩
    simp [withParams, hmark, hset, htext, hrest, hcommand, hparams, hne]

end RequestWords

/-! ### Trimming -/

theorem rdropWhile_append_all {p : Char → Bool} (ha : ∀ x ∈ a, p x = false) (hb : ∀ x ∈ b, p x = true) :
    (a ++ b).rdropWhile p = a := by
  rw [List.rdropWhile, List.reverse_append, List.dropWhile_append_of_pos (by simpa using hb)]
  rw [← List.rdropWhile, List.rdropWhile_eq_self_iff]
  intro hne
  rw [ha _ (List.getLast_mem hne)]
  decide

/-- Only the text behind a character that stays can be cut. -/
theorem rdropWhile_append_stop {p : Char → Bool} (hc : p c = false) :
    (a ++ c :: b).rdropWhile p = a ++ c :: b.rdropWhile p := by
  have hdrop : (b.reverse ++ (c :: a.reverse)).dropWhile p =
      b.reverse.dropWhile p ++ (c :: a.reverse) := by
    rw [List.dropWhile_append]
    split
    next hnil => rw [List.isEmpty_iff.mp hnil, List.dropWhile_cons_of_neg (by simp [hc]), List.nil_append]
    next => rfl
  simp only [List.rdropWhile, List.reverse_append, List.reverse_cons, List.append_assoc,
    List.singleton_append, hdrop]
  simp

theorem strstr_eq_none_iff {needle : List Char} (hne : needle ≠ []) (text : List Char) :
    strstr needle text = none ↔ ¬ needle <:+: text := by
  induction text with
  | nil => simp [strstr, hne, List.infix_nil]
  | cons x xs ih =>
    rw [strstr, List.infix_cons_iff, ← List.isPrefixOf_iff_prefix]
    split
    next hhere => simp [hhere]
    next hhere => simp [hhere, ih]

/-- The first occurrence is found. -/
theorem strstr_first {needle before after : List Char}
    (hfirst : ¬ needle <:+: before ++ needle.dropLast) :
    strstr needle (before ++ (needle ++ after)) = some (needle ++ after) := by
  have hne : needle ≠ [] := by
    rintro rfl
    exact hfirst (List.nil_infix)
  induction before with
  | nil =>
    obtain ⟨x, xs, rfl⟩ := List.exists_cons_of_ne_nil hne
    have hhere : (x :: xs).isPrefixOf (x :: (xs ++ after)) = true :=
      List.isPrefixOf_iff_prefix.mpr (List.prefix_append (x :: xs) after)
    simp only [List.nil_append, List.cons_append, strstr, hhere, if_true]
  | cons y before ih =>
    have hlater : ¬ needle <:+: before ++ needle.dropLast :=
      fun hcontains => hfirst (hcontains.trans (List.suffix_cons y _).isInfix)
    have hnot : needle.isPrefixOf (y :: (before ++ (needle ++ after))) = false := by
      rw [← Bool.not_eq_true, List.isPrefixOf_iff_prefix]
      intro hbegins
      have hthere : y :: (before ++ needle.dropLast) <+: y :: (before ++ (needle ++ after)) := by
        rw [List.cons_prefix_cons, List.prefix_append_right_inj]
        exact ⟨rfl, (List.dropLast_prefix needle).trans (List.prefix_append needle after)⟩
      refine hfirst (List.prefix_of_prefix_length_le hbegins hthere ?_).isInfix
      simp only [List.length_cons, List.length_append, List.length_dropLast]
      omega
    rw [List.cons_append, strstr, hnot, if_neg (by decide)]
    exact ih hlater

theorem mem_of_strstr {needle text : List Char} (hne : needle ≠ []) (h : (strstr needle text).isSome = true)
    (hc : c ∈ needle) : c ∈ text := by
  have hcontains : needle <:+: text := by
    by_contra hno
    rw [(strstr_eq_none_iff hne text).mpr hno] at h
    cases h
  exact hcontains.subset hc

/-- The end of a request is not before its first line break. -/
theorem RequestComplete.newline {text : List Char} (h : RequestComplete text) :
    ∃ c ∈ text, isNewline c = true := by
  unfold RequestComplete at h
  split at h
  · rw [apiHttpHeadersComplete, Bool.or_eq_true] at h
    rcases h with h | h
    · exact ⟨'\n', mem_of_strstr (by decide) h (by decide), by decide⟩
    · exact ⟨'\n', mem_of_strstr (by decide) h (by decide), by decide⟩
  · exact List.any_eq_true.mp h

/-- Nothing ends a line before its line break. -/
theorem line_open {line : List Char} (hline : ∀ c ∈ line, isNewline c = false) :
    ∀ q, q <+: line → ¬ RequestComplete q := by
  intro q hq hcomplete
  obtain ⟨c, hc, hnewline⟩ := hcomplete.newline
  rw [hline c (hq.subset hc)] at hnewline
  cases hnewline

theorem strstr_mono {needle text text' : List Char} (hne : needle ≠ []) (hbegins : text <+: text')
    (h : (strstr needle text).isSome = true) : (strstr needle text').isSome = true := by
  rw [Option.isSome_iff_ne_none, Ne, strstr_eq_none_iff hne, not_not] at h ⊢
  exact h.trans hbegins.isInfix

/-- Nothing ends an HTTP request before its headers are over. -/
theorem headers_open {head : List Char} (hget : getSlash <+: head)
    (hopen : apiHttpHeadersComplete head = false) : ∀ q, q <+: head → ¬ RequestComplete q := by
  intro q hq hcomplete
  by_cases hlength : q.length < getSlash.length
  · -- not even the method is there
    have hbegins : q <+: getSlash := List.prefix_of_prefix_length_le hq hget hlength.le
    have hmethod : getSlash.all (fun c => !isNewline c) = true := by decide
    exact line_open (fun c hc => by simpa using List.all_eq_true.mp hmethod c hc) q hbegins hcomplete
  · have hstarts : startsWithGet q = true :=
      startsWithGet_iff.mpr (List.prefix_of_prefix_length_le hget hq (Nat.le_of_not_lt hlength))
    rw [RequestComplete, if_pos hstarts, apiHttpHeadersComplete, Bool.or_eq_true] at hcomplete
    rw [apiHttpHeadersComplete, Bool.or_eq_false_iff] at hopen
    rcases hcomplete with hblank | hblank
    · exact Bool.noConfusion (hopen.1.symm.trans (strstr_mono (by decide) hq hblank))
    · exact Bool.noConfusion (hopen.2.symm.trans (strstr_mono (by decide) hq hblank))

/-- A received text holds all of a head that fits and that nothing ends. -/
theorem received_head {q head rest : List Char} {n : Nat} (hbegins : q <+: head ++ rest)
    (hend : q = (head ++ rest).take n ∨ RequestComplete (cstr q 0))
    (hopen : ∀ q, q <+: head → ¬ RequestComplete q) (hroom : head.length ≤ n) :
    ∃ rest', q = head ++ rest' ∧ rest' <+: rest := by
  have hle : head.length ≤ q.length := by
    rcases hend with rfl | hcomplete
    · rw [List.length_take, List.length_append]
      omega
    · by_contra hlt
      have hq : q <+: head := List.prefix_of_prefix_length_le hbegins (List.prefix_append head rest) (by omega)
      exact hopen _ ((cstr_begins q).trans hq) hcomplete
  obtain ⟨rest', rfl⟩ := List.prefix_of_prefix_length_le (List.prefix_append head rest) hbegins hle
  exact ⟨rest', rfl, (List.prefix_append_right_inj head).mp hbegins⟩

/-- The parser looks at the text only. -/
theorem apiParseCommand_cstr (q : List Char) : apiParseCommand (cstr q 0) = apiParseCommand q := by
  simp only [apiParseCommand, apiTrimTrailingNewlines, cstr_cstr]

end parsing

/-! ## The two forms of a request -/

section forms

variable {handler : ApiCommand → Nat → String → String} {calloc : Nat → Bool} {optNThreads : Int}
  {turns : List ApiTurn} {command : List Char} {params : Option (List Char)}

/-- The answer to a command, if there is one of this name and room for its response. -/
def response (handler : ApiCommand → Nat → String → String) (calloc : Nat → Bool) (optNThreads : Int)
    (command : List Char) (params : Option (List Char)) : Option String :=
  ((apiFindCommand command).filter fun c => calloc (apiResponseCapacity optNThreads c)).map fun c =>
    handler c (apiResponseCapacity optNThreads c) (String.ofList (params.getD []))

theorem apiHandleClient_eq {q : List Char} {p : ApiParse} (hrecv : apiRecvRequest turns = some q)
    (hparse : apiParseCommand q = (true, p)) (hcommand : p.command = command)
    (hparams : p.params = params.getD []) (hne : q ≠ []) :
    apiHandleClient handler calloc optNThreads turns =
      (response handler calloc optNThreads command params).map fun r =>
        match p.websocketKey with
        | some key => apiSendWebsocketResponse r (String.ofList (cstr p.request key))
        | none => [textBytes r] := by
  unfold apiHandleClient response
  simp only [hrecv, hne, if_false, hparse, hcommand, hparams]
  cases apiFindCommand command with
  | none => rfl
  | some c =>
    by_cases hroom : calloc (apiResponseCapacity optNThreads c) = true
    · cases p.websocketKey <;> simp [hroom]
    · simp [Bool.eq_false_iff.mpr hroom]

/-- A request line, however it arrives. -/
theorem line_answered (hw : RequestWords command params) {ending : List Char}
    (hending : ∀ c ∈ ending, isNewline c = true)
    (hturns : Arrives turns (withParams '|' command params ++ ending)) :
    apiHandleClient handler calloc optNThreads turns =
      (response handler calloc optNThreads command params).map fun r => [textBytes r] := by
  have hline : ∀ c ∈ withParams '|' command params, isNewline c = false := hw.no_newline (by decide)
  have hnul : '\x00' ∉ withParams '|' command params ++ ending := by
    intro hmem
    rcases List.mem_append.mp hmem with hmem | hmem
    · exact hw.not_mem_withParams (by decide) (by decide) hmem
    · exact absurd (hending _ hmem) (by decide)
  obtain ⟨q, hrecv, hbegins, hend⟩ := apiRecvRequest_spec hturns
  have hroom : (withParams '|' command params).length ≤ apiRecvSize :=
    (hw.withParams_length '|').le.trans (by decide)
  obtain ⟨ending', rfl, hending'⟩ := received_head hbegins hend (line_open hline) hroom
  have htrim : apiTrimTrailingNewlines (withParams '|' command params ++ ending') =
      withParams '|' command params := by
    rw [apiTrimTrailingNewlines, cstr_eq_drop (fun hmem => hnul (hbegins.subset hmem)), List.drop_zero]
    exact rdropWhile_append_all hline fun c hc => hending c (hending'.subset hc)
  obtain ⟨p, hparse, hcommand, hparams, hkey⟩ := hw.parse_line htrim
  have hne : withParams '|' command params ++ ending' ≠ [] :=
    List.append_ne_nil_of_left_ne_nil (hw.withParams_ne_nil '|') _
  rw [apiHandleClient_eq hrecv hparse hcommand hparams hne, hkey]

/-- An HTTP request that asks for no upgrade, however it arrives and whatever its headers are. -/
theorem get_answered (hw : RequestWords command params) {rest : List Char}
    (hkey : ¬ websocketKeyField <:+: getSlash ++ (withParams '/' command params ++ ' ' :: rest))
    (hturns : Arrives turns (getSlash ++ (withParams '/' command params ++ ' ' :: rest))) :
    apiHandleClient handler calloc optNThreads turns =
      (response handler calloc optNThreads command params).map fun r => [textBytes r] := by
  obtain ⟨q, hrecv, hbegins, hend⟩ := apiRecvRequest_spec hturns
  -- the request line is received whole, and the end of the text is cut behind it
  obtain ⟨rest', rfl, hrest'⟩ : ∃ rest', q = getSlash ++ (withParams '/' command params ++ ' ' :: rest') ∧
      rest' <+: rest := by
    have hline : ∀ c ∈ getSlash ++ (withParams '/' command params ++ [' ']), isNewline c = false := by
      intro c hc
      rcases List.mem_append.mp hc with hc | hc
      · have hget : getSlash.all (fun c => !isNewline c) = true := by decide
        simpa using List.all_eq_true.mp hget c hc
      · rcases List.mem_append.mp hc with hc | hc
        · exact hw.no_newline (by decide) c hc
        · rw [List.mem_singleton.mp hc]
          decide
    have hroom : (getSlash ++ (withParams '/' command params ++ [' '])).length ≤ apiRecvSize := by
      have hlength := hw.withParams_length '/'
      have hsizes : getSlash.length + (commandSize + paramsSize + 1) ≤ apiRecvSize := by decide
      rw [List.length_append, List.length_append, List.length_singleton]
      omega
    have hsplit : getSlash ++ (withParams '/' command params ++ ' ' :: rest) =
        getSlash ++ (withParams '/' command params ++ [' ']) ++ rest := by simp
    rw [hsplit] at hbegins hend
    obtain ⟨rest', hq, hrest'⟩ := received_head hbegins hend (line_open hline) hroom
    exact ⟨rest', by simpa using hq, hrest'⟩
  have hpath : '\x00' ∉ getSlash ++ (withParams '/' command params ++ [' ']) := by
    have hwords : '\x00' ∉ withParams '/' command params := hw.not_mem_withParams (by decide) (by decide)
    simp [getSlash, hwords]
  have htext : cstr (getSlash ++ (withParams '/' command params ++ ' ' :: rest')) 0 =
      getSlash ++ (withParams '/' command params ++ ' ' :: cstr rest' 0) := by
    have hsplit : ∀ tail, getSlash ++ (withParams '/' command params ++ ' ' :: tail) =
        getSlash ++ (withParams '/' command params ++ [' ']) ++ tail := by simp
    rw [hsplit, cstr_append hpath, ← hsplit]
  have htrim : apiTrimTrailingNewlines (getSlash ++ (withParams '/' command params ++ ' ' :: rest')) =
      getSlash ++ (withParams '/' command params ++ ' ' :: (cstr rest' 0).rdropWhile isNewline) := by
    rw [apiTrimTrailingNewlines, htext, ← List.append_assoc, rdropWhile_append_stop (by decide),
      List.append_assoc]
  have hbehind : (cstr rest' 0).rdropWhile isNewline <+: cstr rest' 0 := List.rdropWhile_prefix isNewline _
  have hcut : getSlash ++ (withParams '/' command params ++ ' ' :: (cstr rest' 0).rdropWhile isNewline) <+:
      getSlash ++ (withParams '/' command params ++ ' ' :: rest) := by
    simp only [List.prefix_append_right_inj, List.cons_prefix_cons, true_and]
    exact hbehind.trans ((cstr_begins rest').trans hrest')
  have hno : strstr websocketKeyField
      (getSlash ++ (withParams '/' command params ++ ' ' :: (cstr rest' 0).rdropWhile isNewline)) = none :=
    (strstr_eq_none_iff (by decide) _).mpr fun hcontains => hkey (hcontains.trans hcut.isInfix)
  have hnul : '\x00' ∉
      getSlash ++ (withParams '/' command params ++ ' ' :: (cstr rest' 0).rdropWhile isNewline) := by
    intro hmem
    have hsame : getSlash ++ (withParams '/' command params ++ ' ' :: (cstr rest' 0).rdropWhile isNewline) =
        getSlash ++ (withParams '/' command params ++ [' ']) ++ (cstr rest' 0).rdropWhile isNewline := by simp
    rw [hsame, List.mem_append] at hmem
    rcases hmem with hmem | hmem
    · exact hpath hmem
    · exact nul_notMem_cstr rest' (hbehind.subset hmem)
  obtain ⟨p, hparse, hcommand, hparams, hnone, -⟩ := hw.parsePath_get
    { request := getSlash ++ (withParams '/' command params ++ ' ' :: (cstr rest' 0).rdropWhile isNewline) } rfl
  have hparse : apiParseCommand (getSlash ++ (withParams '/' command params ++ ' ' :: rest')) = (true, p) := by
    have hcstr := cstr_eq_drop hnul 0
    rw [apiParseCommand, htrim, apiParseHttpGet]
    simp only [hcstr, List.drop_zero, apiFindWebsocketKey, hno, hparse]
    rfl
  rw [apiHandleClient_eq hrecv hparse hcommand hparams (by simp [getSlash]), hnone]

/-- A request with the field of the key in it. -/
def keyRequest (before : List Char) (spaces : Nat) (key tail : List Char) : List Char :=
  before ++ (websocketKeyField ++ (List.replicate spaces ' ' ++ (key ++ tail)))

/-- A key that a header can carry. -/
structure HeaderKey (key : List Char) : Prop where
  ne_nil : key ≠ []
  head : key.head? ≠ some ' '
  chars : ∀ c ∈ ['\n', '\r', '\x00'], c ∉ key

section upgrade

variable {before key tail : List Char} {spaces : Nat}

theorem drop_keyRequest (before : List Char) (spaces : Nat) (key tail : List Char) :
    (keyRequest before spaces key tail).drop (before.length + 18 + spaces) = key ++ tail := by
  have hlength : before.length + 18 + spaces =
      (before ++ (websocketKeyField ++ List.replicate spaces ' ')).length := by
    simp only [List.length_append, List.length_replicate]
    rw [← Nat.add_assoc]
    rfl
  have hsplit : keyRequest before spaces key tail =
      before ++ (websocketKeyField ++ List.replicate spaces ' ') ++ (key ++ tail) := by
    simp [keyRequest]
  rw [hlength, hsplit, List.drop_left]

theorem apiFindWebsocketKey_eq (hkey : HeaderKey key) (hnul : '\x00' ∉ keyRequest before spaces key tail)
    (hfirst : ¬ websocketKeyField <:+: before ++ websocketKeyField.dropLast)
    (htail : tail = [] ∨ ∃ t, tail = '\r' :: t) :
    ∃ tail', apiFindWebsocketKey (keyRequest before spaces key tail) =
        some (before.length + 18 + spaces, keyRequest before spaces key tail') ∧
      (tail'.head? = some '\x00' ∨ tail' = []) := by
  have htext := fun off => cstr_eq_drop hnul off
  have hfound : strstr websocketKeyField (keyRequest before spaces key tail) =
      some (websocketKeyField ++ (List.replicate spaces ' ' ++ (key ++ tail))) := strstr_first hfirst
  have hplace : (keyRequest before spaces key tail).length -
      (websocketKeyField ++ (List.replicate spaces ' ' ++ (key ++ tail))).length + websocketKeyField.length =
      before.length + 18 := by
    rw [keyRequest, List.length_append, Nat.add_sub_cancel]
    rfl
  have hspaces : ((keyRequest before spaces key tail).drop (before.length + 18)).takeWhile (· == ' ') =
      List.replicate spaces ' ' := by
    have hdrop := drop_keyRequest before 0 (List.replicate spaces ' ' ++ key) tail
    have hsame : keyRequest before 0 (List.replicate spaces ' ' ++ key) tail =
        keyRequest before spaces key tail := by
      simp [keyRequest]
    rw [hsame, Nat.add_zero, List.append_assoc] at hdrop
    obtain ⟨x, xs, hxs⟩ := List.exists_cons_of_ne_nil hkey.ne_nil
    have hx : x ≠ ' ' := fun heq => hkey.head (by rw [hxs, heq]; rfl)
    rw [hdrop, List.takeWhile_append_of_pos (by simp), hxs, List.cons_append,
      List.takeWhile_cons_of_neg (by simpa using hx), List.append_nil]
  have hcr : '\r' ∉ key := hkey.chars _ (by decide)
  unfold apiFindWebsocketKey
  simp only [htext, List.drop_zero, hfound, hplace, hspaces, List.length_replicate]
  rcases htail with rfl | ⟨t, rfl⟩
  · refine ⟨[], ?_, Or.inr rfl⟩
    have hnone : ∀ c ∈ ['\n', '\r', '\x00'],
        strchrAt c (keyRequest before spaces key []) (before.length + 18 + spaces) = none := by
      intro c hc
      rw [strchrAt, htext, drop_keyRequest, List.append_nil]
      exact if_neg (hkey.chars c hc)
    rw [hnone _ (by decide), hnone _ (by decide)]
    rfl
  · refine ⟨'\x00' :: t, ?_, Or.inl rfl⟩
    rw [strchrAt_eq (drop_keyRequest before spaces key ('\r' :: t)) (hkey.chars _ (by decide)) hcr (by decide)]
    have hsplit : ∀ tail', keyRequest before spaces key tail' =
        before ++ (websocketKeyField ++ (List.replicate spaces ' ' ++ key)) ++ tail' := by
      simp [keyRequest]
    have hplace : before.length + 18 + spaces + key.length =
        (before ++ (websocketKeyField ++ (List.replicate spaces ' ' ++ key))).length := by
      simp only [List.length_append, List.length_replicate, ← Nat.add_assoc]
      rfl
    rw [Option.some_or]
    simp only [hplace, hsplit]
    simp

theorem keyRequest_append (a b : List Char) (spaces : Nat) (key tail : List Char) :
    keyRequest (a ++ b) spaces key tail = a ++ keyRequest b spaces key tail :=
  List.append_assoc a b _

/-- Line breaks are cut from the end only behind the key. -/
theorem rdropWhile_keyRequest (hkey : HeaderKey key) :
    (keyRequest before spaces key tail).rdropWhile isNewline =
      keyRequest before spaces key (tail.rdropWhile isNewline) := by
  have hlast : isNewline (key.getLast hkey.ne_nil) = false := by
    have hmem := List.getLast_mem hkey.ne_nil
    by_contra hnewline
    rw [Bool.not_eq_false, isNewline, Bool.or_eq_true, beq_iff_eq, beq_iff_eq] at hnewline
    rcases hnewline with heq | heq
    · exact hkey.chars '\n' (by decide) (heq ▸ hmem)
    · exact hkey.chars '\r' (by decide) (heq ▸ hmem)
  have hsplit : ∀ t, keyRequest before spaces key t =
      before ++ (websocketKeyField ++ (List.replicate spaces ' ' ++ key.dropLast)) ++
        key.getLast hkey.ne_nil :: t := by
    intro t
    have hlastly : key ++ t = key.dropLast ++ key.getLast hkey.ne_nil :: t := by
      rw [List.append_cons, List.dropLast_append_getLast hkey.ne_nil]
    simp only [keyRequest, hlastly, List.append_assoc]
  rw [hsplit, rdropWhile_append_stop hlast, ← hsplit]

theorem upgrade_parsed (hw : RequestWords command params) (hkey : HeaderKey key)
    (hfirst : ¬ websocketKeyField <:+:
      getSlash ++ (withParams '/' command params ++ ' ' :: before) ++ websocketKeyField.dropLast)
    {after : List Char}
    (hnul : '\x00' ∉ keyRequest (getSlash ++ (withParams '/' command params ++ ' ' :: before)) spaces key
      ('\r' :: after)) :
    ∃ p off, apiParseCommand (keyRequest (getSlash ++ (withParams '/' command params ++ ' ' :: before)) spaces
        key ('\r' :: after)) = (true, p) ∧ p.command = command ∧ p.params = params.getD [] ∧
      p.websocketKey = some off ∧ cstr p.request off = key := by
  have hcut : ('\r' :: after).rdropWhile isNewline <+: '\r' :: after := List.rdropWhile_prefix _ _
  have htail : ('\r' :: after).rdropWhile isNewline = [] ∨
      ∃ t, ('\r' :: after).rdropWhile isNewline = '\r' :: t := by
    rcases hlist : ('\r' :: after).rdropWhile isNewline with _ | ⟨x, t⟩
    · exact Or.inl rfl
    · rw [hlist, List.cons_prefix_cons] at hcut
      exact Or.inr ⟨t, by rw [hcut.1]⟩
  have hnul' : '\x00' ∉ keyRequest (getSlash ++ (withParams '/' command params ++ ' ' :: before)) spaces key
      (('\r' :: after).rdropWhile isNewline) := by
    intro hmem
    rw [← rdropWhile_keyRequest hkey] at hmem
    exact hnul ((List.rdropWhile_prefix _ _).subset hmem)
  obtain ⟨tail', hfind, htail'⟩ := apiFindWebsocketKey_eq hkey hnul' hfirst htail
  have hrequest : ∀ t, keyRequest (getSlash ++ (withParams '/' command params ++ ' ' :: before)) spaces key t =
      getSlash ++ (withParams '/' command params ++ ' ' :: keyRequest before spaces key t) := by
    intro t
    rw [keyRequest_append, keyRequest_append]
    rfl
  have hget : startsWithGet (keyRequest (getSlash ++ (withParams '/' command params ++ ' ' :: before)) spaces
      key (('\r' :: after).rdropWhile isNewline)) = true := by
    rw [hrequest, startsWithGet_iff]
    exact List.prefix_append _ _
  obtain ⟨p, hpath, hcommand, hparams, hoff, path, hlength, hmarked⟩ := hw.parsePath_get
    { request := keyRequest (getSlash ++ (withParams '/' command params ++ ' ' :: before)) spaces key tail',
      websocketKey := some ((getSlash ++ (withParams '/' command params ++ ' ' :: before)).length + 18 + spaces) }
    (hrequest tail')
  refine ⟨p, _, ?_, hcommand, hparams, hoff, ?_⟩
  · rw [apiParseCommand, apiTrimTrailingNewlines, cstr_eq_drop hnul, List.drop_zero, rdropWhile_keyRequest hkey,
      apiParseHttpGet]
    simp only [cstr_eq_drop hnul', List.drop_zero, hget, hfind, hpath]
    rfl
  · have hplace : (getSlash ++ (withParams '/' command params ++ ' ' :: before)).length =
        (path ++ '\x00' :: before).length := by
      simp only [List.length_append, List.length_cons] at hlength ⊢
      omega
    have hwhole : p.request = keyRequest (path ++ '\x00' :: before) spaces key tail' := by
      rw [hmarked, keyRequest_append]
      rfl
    rw [hwhole, hplace]
    exact cstr_eq (drop_keyRequest _ _ _ _) (hkey.chars _ (by decide)) htail'

end upgrade

end forms

/-- A command is answered the same way as a line `command|params` and as an HTTP `GET /command/params` that
asks for no upgrade.  It does not matter in which pieces the request arrives, which line breaks end the
line, and what and how long the headers are. -/
theorem request_forms_agree (handler : ApiCommand → Nat → String → String) (calloc : Nat → Bool)
    (optNThreads : Int) {command : List Char} {params : Option (List Char)} (hw : RequestWords command params)
    {ending rest : List Char} (hending : ∀ c ∈ ending, isNewline c = true)
    (hkey : ¬ websocketKeyField <:+: getSlash ++ (withParams '/' command params ++ ' ' :: rest))
    {turns turns' : List ApiTurn} (hline : Arrives turns (withParams '|' command params ++ ending))
    (hget : Arrives turns' (getSlash ++ (withParams '/' command params ++ ' ' :: rest))) :
    apiHandleClient handler calloc optNThreads turns = apiHandleClient handler calloc optNThreads turns' ∧
    apiHandleClient handler calloc optNThreads turns =
      (response handler calloc optNThreads command params).map fun r => [textBytes r] := by
  have hplain : apiHandleClient handler calloc optNThreads turns =
      (response handler calloc optNThreads command params).map fun r => [textBytes r] :=
    line_answered hw hending hline
  have hhttp : apiHandleClient handler calloc optNThreads turns' =
      (response handler calloc optNThreads command params).map fun r => [textBytes r] :=
    get_answered hw hkey hget
  exact ⟨hplain.trans hhttp.symm, hplain⟩

namespace Scenario

/-- Answers with the name of the command and its parameters. -/
def echo : ApiCommand → Nat → String → String := fun c _ params => c.name ++ " " ++ params

theorem histoWords : RequestWords "histo".toList (some "3".toList) where
  command_ne_nil := by decide
  command_length := by decide
  command_chars := by simp
  params_length := by
    rintro ps ⟨⟩
    decide
  params_chars := by
    rintro ps ⟨⟩
    simp
  params_last := by
    rintro ps ⟨⟩
    decide

/-- A line that arrives in two pieces. -/
def lineTurns : List ApiTurn := [.bytes "his".toList, .interrupted, .bytes "to|3\r\n".toList]

/-- The same request as a `GET`. -/
def getTurns : List ApiTurn :=
  [.bytes "GET /histo/3 HTT".toList, .bytes "P/1.1\r\nHost: a\r\n\r\n".toList]

end Scenario

open Scenario in
theorem request_forms_agree_histo :
    apiHandleClient echo (fun _ => true) 4 lineTurns = some [textBytes "histo 3"] ∧
    apiHandleClient echo (fun _ => true) 4 getTurns = some [textBytes "histo 3"] := by
  have hkey : ¬ websocketKeyField <:+: "GET /histo/3 HTTP/1.1\r\nHost: a\r\n\r\n".toList :=
    (strstr_eq_none_iff (by decide) _).mp (by decide)
  have hline : Arrives lineTurns (withParams '|' "histo".toList (some "3".toList) ++ "\r\n".toList) :=
    ⟨by simp [lineTurns], by decide⟩
  have hget : Arrives getTurns (getSlash ++ (withParams '/' "histo".toList (some "3".toList) ++
      ' ' :: "HTTP/1.1\r\nHost: a\r\n\r\n".toList)) := ⟨by simp [getTurns], by decide⟩
  obtain ⟨hsame, hanswer⟩ := request_forms_agree echo (fun _ => true) 4 histoWords (by simp [isNewline]) hkey
    hline hget
  exact ⟨hanswer, hsame ▸ hanswer⟩

/-- An HTTP request whose first `Sec-WebSocket-Key` field stands among its headers and whose line with the key
ends with a carriage return within the receive buffer is answered with the handshake for exactly this key
and the response in a frame.  It does not matter in which pieces it arrives, what stands before the field
and what behind the line. -/
theorem upgrade_request_answered (handler : ApiCommand → Nat → String → String) (calloc : Nat → Bool)
    (optNThreads : Int) {command : List Char} {params : Option (List Char)} (hw : RequestWords command params)
    {before key head after : List Char} {spaces : Nat} (hkey : HeaderKey key)
    (hhead : head =
      keyRequest (getSlash ++ (withParams '/' command params ++ ' ' :: before)) spaces key ['\r'])
    (hnul : '\x00' ∉ head)
    (hfirst : ¬ websocketKeyField <:+:
      getSlash ++ (withParams '/' command params ++ ' ' :: before) ++ websocketKeyField.dropLast)
    (hopen : apiHttpHeadersComplete head = false) (hfit : head.length ≤ apiRecvSize)
    {turns : List ApiTurn} (hturns : Arrives turns (head ++ after)) :
    apiHandleClient handler calloc optNThreads turns =
      (response handler calloc optNThreads command params).map fun r =>
        apiSendWebsocketResponse r (String.ofList key) := by
  obtain ⟨q, hrecv, hbegins, hend⟩ := apiRecvRequest_spec hturns
  have hget : getSlash <+: head := by
    rw [hhead, keyRequest, List.append_assoc]
    exact List.prefix_append ..
  obtain ⟨after', rfl, -⟩ := received_head hbegins hend (headers_open hget hopen) hfit
  -- the text is the one that was received up to a NUL
  have htext : cstr (head ++ after') 0 =
      keyRequest (getSlash ++ (withParams '/' command params ++ ' ' :: before)) spaces key
        ('\r' :: cstr after' 0) := by
    rw [cstr_append hnul, hhead]
    simp [keyRequest]
  have hclean : '\x00' ∉ cstr (head ++ after') 0 := nul_notMem_cstr _
  rw [htext] at hclean
  obtain ⟨p, off, hparse, hcommand, hparams, hoff, hcstr⟩ := upgrade_parsed hw hkey hfirst hclean
  rw [← htext, apiParseCommand_cstr] at hparse
  have hne : head ++ after' ≠ [] := by simp [hhead, keyRequest, getSlash]
  rw [apiHandleClient_eq hrecv hparse hcommand hparams hne, hoff, ← hcstr]

namespace Scenario

theorem helpWords : RequestWords "help".toList none where
  command_ne_nil := by decide
  command_length := by decide
  command_chars := by simp
  params_length := by simp
  params_chars := by simp
  params_last := by simp

def upgradeHead : List Char := "GET /help HTTP/1.1\r\nSec-WebSocket-Key: AQ==\r".toList

/-- The request arrives in two pieces. -/
def upgradeTurns : List ApiTurn :=
  [.bytes (upgradeHead.take 30), .bytes (upgradeHead.drop 30 ++ "\n\r\n".toList)]

end Scenario

open Scenario in
theorem upgrade_request_answered_help :
    apiHandleClient echo (fun _ => true) 4 upgradeTurns = some (apiSendWebsocketResponse "help " "AQ==") := by
  have hkey : HeaderKey "AQ==".toList := ⟨by decide, by decide, by simp⟩
  have hfirst : ¬ websocketKeyField <:+: getSlash ++ (withParams '/' "help".toList none ++
      ' ' :: "HTTP/1.1\r\n".toList) ++ websocketKeyField.dropLast :=
    (strstr_eq_none_iff (by decide) _).mp (by decide)
  have hturns : Arrives upgradeTurns (upgradeHead ++ "\n\r\n".toList) := by
    refine ⟨?_, by decide⟩
    intro t ht
    rcases List.mem_cons.mp ht with rfl | ht
    · exact Or.inr ⟨_, by decide, rfl⟩
    · rw [List.mem_singleton.mp ht]
      exact Or.inr ⟨_, by decide, rfl⟩
  have hhead : upgradeHead = keyRequest (getSlash ++ (withParams '/' "help".toList none ++
      ' ' :: "HTTP/1.1\r\n".toList)) 1 "AQ==".toList ['\r'] := by decide
  rw [upgrade_request_answered echo (fun _ => true) 4 helpWords hkey hhead (by decide) hfirst (by decide) (by decide)
    hturns]
  rfl

end PrimoMiner
