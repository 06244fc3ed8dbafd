import PrimoMiner.Library.Runs
import PrimoMiner.LineFraming
import Mathlib.Logic.Function.Basic

/-!
# Lines onto the socket

`stratum_transport.cpp`: `stratum_send_line` writes a line and its newline under `stratum_sock_lock`, plain
as two pieces of one `sendmsg`, over TLS as one copy.  The service thread and the mining threads send on
the same connection.  The transport takes as much of a write as it likes, and a send can fail with a part
of its line on the wire.

A turn of a send loop, an acquisition of the lock and a change of the connection are steps.  The pool sees
`wire`; the ends of the sends are recorded beside it and the program sees neither.
-/

namespace PrimoMiner

open Runs

/-! ## The loops -/

/-- What `stratum_poll_socket` finds when it waits until the socket can be written. -/
inductive PollOut where
  | error
  | timedOut
  -- one of `POLLERR`, `POLLHUP` and `POLLNVAL`, and `POLLOUT`
  | ready (failed writable : Bool)
  deriving DecidableEq, Repr

/-- What `sendmsg` or `curl_easy_send` gives. -/
inductive SocketWrite where
  | taken (n : Nat)
  -- `EAGAIN` or `CURLE_AGAIN`
  | blocked
  | failed
  deriving DecidableEq, Repr

structure SendTurn where
  poll : PollOut
  write : SocketWrite
  deriving DecidableEq, Repr

inductive TurnEnd where
  | again (sent : Nat)
  | failed
  deriving DecidableEq, Repr

/-- A turn of the loop of `send_line`: it waits and then writes. -/
def sendLineTurn (sent : Nat) (t : SendTurn) : TurnEnd :=
  match t.poll with
  | .error => .failed
  | .timedOut => .failed
  | .ready failed writable =>
    if failed then .failed
    else if !writable then .failed
    else
      match t.write with
      | .failed => .failed
      | .blocked => .again sent
      | .taken n => .again (sent + n)

/-- A turn of the loop of `send_line_tls`: it writes and waits only when the write would block. -/
def sendLineTlsTurn (sent : Nat) (t : SendTurn) : TurnEnd :=
  match t.write with
  | .taken n => .again (sent + n)
  | .failed => .failed
  | .blocked =>
    match t.poll with
    | .error => .failed
    | .timedOut => .failed
    | .ready failed _ => if failed then .failed else .again sent

/-- `msg_iov`: the rest of the payload, and the newline while it is to be sent. -/
def lineIov (s : List Byte) (sent : Nat) : List (List Byte) :=
  let payloadSent := if sent < s.length then sent else s.length
  let newlineSent := if s.length < sent then sent - s.length else 0
  (if payloadSent < s.length then [s.drop payloadSent] else []) ++
    (if newlineSent = 0 then [[newlineByte]] else [])

/-- What a turn offers to the transport. -/
def offered (useTls : Bool) (s : List Byte) (sent : Nat) : List Byte :=
  if useTls then (s ++ [newlineByte]).drop sent else (lineIov s sent).flatten

/-! ## The system -/

/-- A line as the callers build it. -/
structure StratumLine where
  text : List Byte
  single : newlineByte ∉ text

namespace StratumLine

def bytes (line : StratumLine) : List Byte := line.text ++ [newlineByte]

end StratumLine

/-- Where a thread stands in `stratum_send_line`. -/
inductive SenderPc where
  | idle
  | waiting (line : StratumLine)
  | sending (line : StratumLine) (sent : Nat)

/-- A send that has returned, with the bytes of its line that the transport took. -/
structure SendEnd where
  line : StratumLine
  sent : Nat
  ok : Bool

def SendEnd.bytes (e : SendEnd) : List Byte := e.line.bytes.take e.sent

structure SendSys where
  useTls : Bool := false
  -- there is a handle and a socket
  connected : Bool := false
  sockLock : Option Nat := none
  sender : Nat → SenderPc := fun _ => .idle
  -- what the transport has taken since it was opened, and the sends that have returned since
  wire : List Byte := []
  ended : List SendEnd := []

inductive SendAct where
  -- a new transport is open, or the old one has been closed
  | connect (useTls : Bool)
  | close
  | call (t : Nat) (line : StratumLine)
  -- the lock is taken; `allocated` says whether the copy of a TLS line could be
  | enter (t : Nat) (allocated : Bool)
  | turn (t : Nat) (turn : SendTurn)

namespace SendSys

def setSender (s : SendSys) (t : Nat) (pc : SenderPc) : SendSys :=
  { s with sender := Function.update s.sender t pc }

/-- `stratum_send_line` returns. -/
def finish (s : SendSys) (t : Nat) (line : StratumLine) (sent : Nat) (ok : Bool) : SendSys :=
  { s.setSender t .idle with sockLock := none, ended := s.ended ++ [⟨line, sent, ok⟩] }

def turnEnd (s : SendSys) (sent : Nat) (turn : SendTurn) : TurnEnd :=
  if s.useTls then sendLineTlsTurn sent turn else sendLineTurn sent turn

/-- The transport has taken the next bytes, up to `sent`. -/
def advance (s : SendSys) (t : Nat) (line : StratumLine) (before sent : Nat) : SendSys :=
  let s := { s with wire := s.wire ++ (offered s.useTls line.text before).take (sent - before) }
  if sent < line.text.length + 1 then s.setSender t (.sending line sent)
  else s.finish t line sent true

/-- The transport never takes more than it is offered. -/
def step (s : SendSys) : SendAct → Option SendSys
  | .connect useTls =>
    if s.sockLock = none then
      some { s with useTls := useTls, connected := true, wire := [], ended := [] }
    else none
  | .close => if s.sockLock = none then some { s with connected := false } else none
  | .call t line =>
    match s.sender t with
    | .idle => some (s.setSender t (.waiting line))
    | _ => none
  | .enter t allocated =>
    match s.sender t with
    | .waiting line =>
      if s.sockLock = none then
        if s.connected && (!s.useTls || allocated) then
          some { s.setSender t (.sending line 0) with sockLock := some t }
        else some (s.finish t line 0 false)
      else none
    | _ => none
  | .turn t turn =>
    match s.sender t with
    | .sending line before =>
      match s.turnEnd before turn with
      | .failed => some (s.finish t line before false)
      | .again sent =>
        if sent ≤ before + (offered s.useTls line.text before).length then
          some (s.advance t line before sent)
        else none
    | _ => none

/-- What the send that holds the lock has put on the wire. -/
def inFlight (s : SendSys) : List Byte :=
  match s.sockLock with
  | none => []
  | some t =>
    match s.sender t with
    | .sending line sent => line.bytes.take sent
    | _ => []

end SendSys

/-! ## What a turn puts on the wire -/

theorem lineIov_flatten {s : List Byte} {sent : Nat} (h : sent ≤ s.length) :
    (lineIov s sent).flatten = (s ++ [newlineByte]).drop sent := by
  have hnewline : (if s.length < sent then sent - s.length else 0) = 0 := if_neg (by omega)
  simp only [lineIov, hnewline, if_true]
  by_cases hlt : sent < s.length
  · rw [if_pos hlt, if_pos hlt, List.drop_append_of_le_length h]
    simp
  · have heq : sent = s.length := by omega
    rw [if_neg hlt, if_neg (Nat.lt_irrefl _), heq, List.drop_left]
    rfl

/-- Both transports are offered the same bytes. -/
theorem offered_eq (useTls : Bool) (line : StratumLine) {sent : Nat} (h : sent ≤ line.text.length) :
    offered useTls line.text sent = line.bytes.drop sent := by
  cases useTls with
  | true => rfl
  | false => exact lineIov_flatten h

theorem StratumLine.bytes_length (line : StratumLine) : line.bytes.length = line.text.length + 1 := by
  rw [bytes, List.length_append, List.length_singleton]

/-- The bytes sent so far and those that are taken now are a longer prefix of the line. -/
theorem StratumLine.take_offered (line : StratumLine) (useTls : Bool) {before sent : Nat}
    (hbefore : before ≤ line.text.length) (hle : before ≤ sent) :
    line.bytes.take before ++ (offered useTls line.text before).take (sent - before) =
      line.bytes.take sent := by
  rw [offered_eq useTls line hbefore, ← List.take_add, Nat.add_sub_cancel' hle]

theorem turnEnd_le {s : SendSys} {before sent : Nat} {turn : SendTurn}
    (h : s.turnEnd before turn = .again sent) : before ≤ sent := by
  unfold SendSys.turnEnd at h
  split at h
  · unfold sendLineTlsTurn at h
    split at h
    · exact TurnEnd.again.inj h ▸ Nat.le_add_right ..
    · cases h
    · split at h
      · cases h
      · cases h
      · split at h
        · cases h
        · exact (TurnEnd.again.inj h).le
  · unfold sendLineTurn at h
    split at h
    · cases h
    · cases h
    · split at h
      · cases h
      · split at h
        · cases h
        · split at h
          · cases h
          · exact (TurnEnd.again.inj h).le
          · exact TurnEnd.again.inj h ▸ Nat.le_add_right ..

/-! ## The invariant -/

/-- A send returns true exactly when all of its line is on the wire. -/
structure SendEnd.Ok (e : SendEnd) : Prop where
  le : e.sent ≤ e.line.text.length + 1
  complete : e.ok = true ↔ e.sent = e.line.text.length + 1

structure SendInv (s : SendSys) : Prop where
  holder : ∀ t line sent, s.sender t = .sending line sent →
    s.sockLock = some t ∧ sent ≤ line.text.length
  busy : ∀ t, s.sockLock = some t → ∃ line sent, s.sender t = .sending line sent
  wire : s.wire = s.ended.flatMap SendEnd.bytes ++ s.inFlight
  ended : ∀ e ∈ s.ended, e.Ok

section invariant
variable {s s' : SendSys} {t : Nat} {line : StratumLine}

theorem inFlight_free (h : s.sockLock = none) : s.inFlight = [] := by
  unfold SendSys.inFlight
  rw [h]

theorem inFlight_sending {sent : Nat} (hlock : s.sockLock = some t)
    (hpc : s.sender t = .sending line sent) : s.inFlight = line.bytes.take sent := by
  unfold SendSys.inFlight
  rw [hlock]
  dsimp only
  rw [hpc]

theorem SendInv.free_of_none (h : SendInv s) (hfree : s.sockLock = none) {u : Nat} {line : StratumLine}
    {sent : Nat} : s.sender u ≠ .sending line sent := by
  intro hpc
  exact absurd (h.holder u line sent hpc).1 (by simp [hfree])

/-- The lock is free and no send is under way. -/
theorem SendInv.of_free (hfree : s.sockLock = none)
    (hnobody : ∀ u line sent, s.sender u ≠ .sending line sent)
    (hwire : s.wire = s.ended.flatMap SendEnd.bytes) (hended : ∀ e ∈ s.ended, e.Ok) : SendInv s where
  holder u line sent hpc := absurd hpc (hnobody u line sent)
  busy u hlock := absurd hlock (by simp [hfree])
  wire := by rw [hwire, inFlight_free hfree, List.append_nil]
  ended := hended

/-- Nobody but `t` is in a send, and `t` leaves it. -/
theorem SendInv.finish (h : SendInv s) (hothers : ∀ u line sent, u ≠ t → s.sender u ≠ .sending line sent)
    {sent : Nat} {ok : Bool} {wire : List Byte} (hend : SendEnd.Ok ⟨line, sent, ok⟩)
    (hwire : wire = s.ended.flatMap SendEnd.bytes ++ line.bytes.take sent) :
    SendInv ({ s with wire := wire }.finish t line sent ok) := by
  refine SendInv.of_free rfl ?_ ?_ ?_
  · intro u line' sent' hpc
    have hupdated : Function.update s.sender t .idle u = .sending line' sent' := hpc
    by_cases heq : u = t
    · rw [heq, Function.update_self] at hupdated
      cases hupdated
    · rw [Function.update_of_ne heq] at hupdated
      exact hothers u line' sent' heq hupdated
  · show wire = (s.ended ++ [SendEnd.mk line sent ok]).flatMap SendEnd.bytes
    rw [hwire, List.flatMap_append, List.flatMap_singleton]
    rfl
  · intro e he
    rcases List.mem_append.mp he with hold | hnew
    · exact h.ended e hold
    · rw [List.mem_singleton.mp hnew]
      exact hend

theorem SendInv.alone (h : SendInv s) {sent : Nat} (hpc : s.sender t = .sending line sent) (u : Nat)
    (line' : StratumLine) (sent' : Nat) (hu : u ≠ t) : s.sender u ≠ .sending line' sent' := by
  intro hother
  have hlock := (h.holder t line sent hpc).1.symm.trans (h.holder u line' sent' hother).1
  exact hu (Option.some.inj hlock).symm

/-- The holder of the lock stays in its send. -/
theorem SendInv.sending (hothers : ∀ u line sent, u ≠ t → s.sender u ≠ .sending line sent)
    (hended : ∀ e ∈ s.ended, e.Ok) {sent : Nat} {wire : List Byte} (hle : sent ≤ line.text.length)
    (hwire : wire = s.ended.flatMap SendEnd.bytes ++ line.bytes.take sent) :
    SendInv { s with
      wire := wire, sender := Function.update s.sender t (.sending line sent), sockLock := some t } := by
  have hself : Function.update s.sender t (.sending line sent) t = .sending line sent :=
    Function.update_self ..
  refine ⟨?_, ?_, ?_, hended⟩
  · intro u line' sent' hpc
    by_cases heq : u = t
    · have hsame : SenderPc.sending line sent = .sending line' sent' := by
        rw [← hpc, heq]
        exact hself.symm
      obtain ⟨rfl, rfl⟩ := SenderPc.sending.inj hsame
      exact ⟨congrArg some heq.symm, hle⟩
    · have hother : Function.update s.sender t (.sending line sent) u = .sending line' sent' := hpc
      rw [Function.update_of_ne heq] at hother
      exact absurd hother (hothers u line' sent' heq)
  · intro u hu
    obtain rfl := Option.some.inj hu
    exact ⟨line, sent, hself⟩
  · rw [inFlight_sending rfl hself]
    exact hwire

theorem SendInv.turn (h : SendInv s) {before : Nat} (hpc : s.sender t = .sending line before) {sent : Nat}
    (hle : before ≤ sent) (hroom : sent ≤ before + (offered s.useTls line.text before).length) :
    SendInv (s.advance t line before sent) := by
  obtain ⟨hlock, hbefore⟩ := h.holder t line before hpc
  have hwire : s.wire ++ (offered s.useTls line.text before).take (sent - before) =
      s.ended.flatMap SendEnd.bytes ++ line.bytes.take sent := by
    rw [h.wire, inFlight_sending hlock hpc, List.append_assoc, line.take_offered s.useTls hbefore hle]
  have hbound : sent ≤ line.text.length + 1 := by
    rw [offered_eq s.useTls line hbefore, List.length_drop, line.bytes_length] at hroom
    omega
  unfold SendSys.advance
  by_cases hmore : sent < line.text.length + 1
  · have hsending : SendInv { s with
        wire := s.wire ++ (offered s.useTls line.text before).take (sent - before),
        sender := Function.update s.sender t (.sending line sent), sockLock := some t } :=
      SendInv.sending (h.alone hpc) h.ended (by omega) hwire
    rw [← hlock] at hsending
    rw [if_pos hmore]
    exact hsending
  · have hall : sent = line.text.length + 1 := by omega
    rw [if_neg hmore]
    exact h.finish (h.alone hpc) ⟨hbound, fun _ => hall, fun _ => rfl⟩ hwire

theorem SendInv.step (h : SendInv s) {a : SendAct} (hstep : s.step a = some s') : SendInv s' := by
  cases a with
  | connect useTls =>
    simp only [SendSys.step] at hstep
    split at hstep
    · rename_i hfree
      obtain rfl := Option.some.inj hstep
      exact SendInv.of_free hfree (fun u line sent => h.free_of_none hfree) rfl (by simp)
    · cases hstep
  | close =>
    simp only [SendSys.step] at hstep
    split at hstep
    · obtain rfl := Option.some.inj hstep
      exact ⟨h.holder, h.busy, h.wire, h.ended⟩
    · cases hstep
  | call t line =>
    simp only [SendSys.step] at hstep
    split at hstep
    · rename_i hpc
      obtain rfl := Option.some.inj hstep
      -- a thread outside of the lock moves
      have hsame : ∀ u line' sent, Function.update s.sender t (.waiting line) u = .sending line' sent ↔
          s.sender u = .sending line' sent := by
        intro u line' sent
        by_cases heq : u = t
        · rw [heq, Function.update_self, hpc]
          simp
        · rw [Function.update_of_ne heq]
      refine ⟨fun u line' sent hu => h.holder u line' sent ((hsame u line' sent).mp hu), ?_, ?_, h.ended⟩
      · intro u hu
        obtain ⟨line', sent, hsend⟩ := h.busy u hu
        exact ⟨line', sent, (hsame u line' sent).mpr hsend⟩
      · show s.wire = s.ended.flatMap SendEnd.bytes ++ (s.setSender t (.waiting line)).inFlight
        rw [h.wire]
        cases hlock : s.sockLock with
        | none => rw [inFlight_free hlock, inFlight_free (s := s.setSender t (.waiting line)) hlock]
        | some u =>
          obtain ⟨line', sent, hsend⟩ := h.busy u hlock
          rw [inFlight_sending hlock hsend, inFlight_sending (s := s.setSender t (.waiting line)) hlock
            ((hsame u line' sent).mpr hsend)]
    · cases hstep
  | enter t allocated =>
    simp only [SendSys.step] at hstep
    split at hstep
    · rename_i line hpc
      split at hstep
      · rename_i hfree
        have hothers : ∀ u line' sent, u ≠ t → s.sender u ≠ .sending line' sent :=
          fun u line' sent _ => h.free_of_none hfree
        have hwire : s.wire = s.ended.flatMap SendEnd.bytes ++ line.bytes.take 0 := by
          rw [h.wire, inFlight_free hfree, List.take_zero]
        split at hstep
        · obtain rfl := Option.some.inj hstep
          exact SendInv.sending hothers h.ended (Nat.zero_le _) hwire
        · obtain rfl := Option.some.inj hstep
          exact h.finish hothers ⟨Nat.zero_le _, by simp⟩ hwire
      · cases hstep
    · cases hstep
  | turn t turn =>
    simp only [SendSys.step] at hstep
    split at hstep
    · rename_i line before hpc
      obtain ⟨hlock, hbefore⟩ := h.holder t line before hpc
      split at hstep
      · obtain rfl := Option.some.inj hstep
        refine h.finish (h.alone hpc) ⟨Nat.le_succ_of_le hbefore, ?_⟩ ?_
        · constructor
          · intro hok
            cases hok
          · intro hall
            have hsent : before = line.text.length + 1 := hall
            omega
        · rw [h.wire, inFlight_sending hlock hpc]
      · rename_i sent hagain
        split at hstep
        · rename_i hroom
          obtain rfl := Option.some.inj hstep
          exact h.turn hpc (turnEnd_le hagain) hroom
        · cases hstep
    · cases hstep

theorem run_sendInv {acts : List SendAct} (hrun : exec SendSys.step {} acts = some s) : SendInv s := by
  refine exec_invariant (fun _ _ _ h hstep => h.step hstep) ?_ hrun
  exact SendInv.of_free rfl (fun _ _ _ hpc => nomatch hpc) rfl (by simp)

end invariant

/-! ## What the pool reads -/

/-- The lines that arrive when `part` is what failed sends have left in front of the next one. -/
def receivedLines : (part : List Byte) → List SendEnd → List (List Byte)
  | _, [] => []
  | part, e :: ends =>
    if e.ok then (part ++ e.line.text) :: receivedLines [] ends
    else receivedLines (part ++ e.bytes) ends

section received
variable {e : SendEnd} {ends : List SendEnd} {part : List Byte}

theorem SendEnd.Ok.bytes_of_ok (h : e.Ok) (hok : e.ok = true) : e.bytes = e.line.text ++ [newlineByte] := by
  rw [SendEnd.bytes, h.complete.mp hok, ← e.line.bytes_length, List.take_length]
  rfl

theorem StratumLine.take_single (line : StratumLine) {sent : Nat} (h : sent ≤ line.text.length) :
    newlineByte ∉ line.bytes.take sent := by
  rw [bytes, List.take_append_of_le_length h]
  exact fun hmem => line.single (List.mem_of_mem_take hmem)

theorem SendEnd.Ok.bytes_of_failed (h : e.Ok) (hfailed : e.ok = false) : newlineByte ∉ e.bytes := by
  refine e.line.take_single ?_
  have hle := h.le
  have hne : e.sent ≠ e.line.text.length + 1 := by
    intro hall
    exact Bool.false_ne_true (hfailed.symm.trans (h.complete.mpr hall))
  omega

theorem completeLines_sends {rest : List Byte} (hends : ∀ e ∈ ends, e.Ok) (hpart : newlineByte ∉ part)
    (hrest : newlineByte ∉ rest) :
    completeLines (part ++ ends.flatMap SendEnd.bytes ++ rest) = receivedLines part ends := by
  induction ends generalizing part with
  | nil =>
    refine completeLines_fragment ?_
    simp [hpart, hrest]
  | cons e ends ih =>
    have he := hends e List.mem_cons_self
    have htail : ∀ e ∈ ends, e.Ok := fun e he => hends e (List.mem_cons_of_mem _ he)
    rw [receivedLines, List.flatMap_cons]
    cases hok : e.ok with
    | true =>
      have hsplit : part ++ (e.bytes ++ ends.flatMap SendEnd.bytes) ++ rest =
          (part ++ e.line.text) ++ newlineByte :: ([] ++ ends.flatMap SendEnd.bytes ++ rest) := by
        rw [he.bytes_of_ok hok]
        simp
      rw [hsplit, completeLines_line _ (by simp [hpart, e.line.single]), ih htail (by simp)]
      rfl
    | false =>
      have hsplit : part ++ (e.bytes ++ ends.flatMap SendEnd.bytes) ++ rest =
          (part ++ e.bytes) ++ ends.flatMap SendEnd.bytes ++ rest := by simp
      rw [hsplit, ih htail (by simp [hpart, he.bytes_of_failed hok])]
      rfl

/-- One line arrives for each send that returned true, with the line of the send at its end. -/
theorem receivedLines_sent (part : List Byte) (ends : List SendEnd) :
    List.Forall₂ (fun line e => e.line.text <:+ line) (receivedLines part ends)
      (ends.filter SendEnd.ok) := by
  induction ends generalizing part with
  | nil => exact .nil
  | cons e ends ih =>
    rw [receivedLines, List.filter_cons]
    cases e.ok with
    | true => exact .cons (List.suffix_append _ _) (ih [])
    | false => exact ih _

/-- Sends that failed before their first byte leave nothing in front of the next line. -/
theorem receivedLines_clean (hclean : ∀ e ∈ ends, e.ok = false → e.sent = 0) :
    receivedLines [] ends = (ends.filter SendEnd.ok).map (·.line.text) := by
  induction ends with
  | nil => rfl
  | cons e ends ih =>
    have htail := ih fun e he => hclean e (List.mem_cons_of_mem _ he)
    rw [receivedLines, List.filter_cons]
    cases hok : e.ok with
    | true =>
      rw [if_pos rfl, if_pos rfl, htail]
      rfl
    | false =>
      have hnone : e.bytes = [] := by
        rw [SendEnd.bytes, hclean e List.mem_cons_self hok]
        rfl
      rw [if_neg Bool.false_ne_true, if_neg Bool.false_ne_true, hnone]
      exact htail

end received

/-- Let any threads send on one connection at any time, with any splitting of the writes, plain or over
TLS.  The lines that arrive are, in order, those of the sends that returned true, each behind what failed
sends since the line before it left on the wire; without such a rest they arrive as they were sent. -/
theorem sent_lines_framed {acts : List SendAct} {s : SendSys} (hrun : exec SendSys.step {} acts = some s) :
    completeLines s.wire = receivedLines [] s.ended ∧
    List.Forall₂ (fun line e => e.line.text <:+ line) (completeLines s.wire)
      (s.ended.filter SendEnd.ok) ∧
    ((∀ e ∈ s.ended, e.ok = false → e.sent = 0) →
      completeLines s.wire = (s.ended.filter SendEnd.ok).map (·.line.text)) := by
  have h := run_sendInv hrun
  have hlines : completeLines s.wire = receivedLines [] s.ended := by
    have hrest : newlineByte ∉ s.inFlight := by
      cases hlock : s.sockLock with
      | none => simp [inFlight_free hlock]
      | some t =>
        obtain ⟨line, sent, hpc⟩ := h.busy t hlock
        rw [inFlight_sending hlock hpc]
        exact line.take_single (h.holder t line sent hpc).2
    rw [h.wire]
    have hnil : newlineByte ∉ ([] : List Byte) := by simp
    exact completeLines_sends h.ended hnil hrest
  refine ⟨hlines, ?_, ?_⟩
  · rw [hlines]
    exact receivedLines_sent [] s.ended
  · intro hclean
    rw [hlines]
    exact receivedLines_clean hclean

namespace Scenario

def lineOf (text : List Byte) (h : newlineByte ∉ text) : StratumLine := ⟨text, h⟩

def writable (n : Nat) : SendTurn := ⟨.ready false true, .taken n⟩

/-- A login is written in two parts; a share fails after its first byte and the next one is sent whole. -/
def sends : List SendAct :=
  [.connect false, .call 0 (lineOf [1, 2] (by decide)), .call 1 (lineOf [3, 4] (by decide)),
   .enter 0 true, .turn 0 (writable 1), .turn 0 (writable 2), .enter 1 true, .turn 1 (writable 1),
   .turn 1 ⟨.timedOut, .blocked⟩, .call 2 (lineOf [5] (by decide)), .enter 2 true, .turn 2 (writable 2)]

end Scenario

open Scenario in
theorem sent_lines_framed_three :
    ∃ s, exec SendSys.step {} sends = some s ∧ completeLines s.wire = [[1, 2], [3, 5]] := by
  have hsome : (exec SendSys.step {} sends).isSome = true := by decide
  obtain ⟨s, hrun⟩ := Option.isSome_iff_exists.mp hsome
  refine ⟨s, hrun, ?_⟩
  rw [(sent_lines_framed hrun).1]
  have hends : (exec SendSys.step {} sends).map (fun s => receivedLines [] s.ended) =
      some [[1, 2], [3, 5]] := by decide
  rw [hrun] at hends
  exact Option.some.inj hends

end PrimoMiner
