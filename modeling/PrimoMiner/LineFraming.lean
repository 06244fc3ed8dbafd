import PrimoMiner.Library.Buffer
import PrimoMiner.Library.Region
import Mathlib.Data.List.Infix

/-!
# Lines from the socket

`stratum_transport.cpp`: the socket buffer of a session is a C string in `sockbuf_size` bytes.  A call of
`stratum_recv_line_timeout` appends what the socket delivers until there is a newline in it, takes the
line out and moves the rest to the front.  Loads and stores are checked as in `Library/Region`.
-/

namespace PrimoMiner

open Region

def rbufsize : Nat := 2048
def recvsize : Nat := rbufsize - 4
def stratumMaxLineBytes : Nat := 256 * 1024

def newlineByte : Byte := 10

/-- `sockbuf` as a C string. -/
def sockbufText (sockbuf : Region Byte) : Except Stop (List Byte) := access (sockbuf.terminated 0)

/-- `stratum_reserve_socket_buffer`; `none` is its `false`. -/
def stratumReserveSocketBuffer (sockbuf : Region Byte) (minSize : Nat) : Option (Region Byte) :=
  if stratumMaxLineBytes + 1 < minSize then none
  else if minSize < sockbuf.length then some sockbuf
  else some (sockbuf.realloc (minSize + (rbufsize - minSize % rbufsize)))

def stratumBufferAppend (sockbuf : Region Byte) (s : List Byte) : Except Stop (Region Byte) := do
  let old := (← sockbufText sockbuf).length
  let sockbuf ← orRefuse (stratumReserveSocketBuffer sockbuf (old + s.length + 1))
  let sockbuf ← access (sockbuf.store old s)
  access (sockbuf.store (old + s.length) [0])

def stratumTakeBufferLine (sockbuf : Region Byte) : Except Stop (Option (List Byte) × Region Byte) := do
  let text ← sockbufText sockbuf
  if newlineByte ∉ text then .ok (none, sockbuf)
  else
    let lineLen := text.idxOf newlineByte
    let line ← access (sockbuf.load 0 lineLen)
    let remaining := (← sockbufText (sockbuf.drop (lineLen + 1))).length
    let moved ← access (sockbuf.load (lineLen + 1) (remaining + 1))
    let sockbuf ← access (sockbuf.store 0 moved)
    .ok (some line, sockbuf)

/-! ## The receive loop -/

/-- What `recv` or `curl_easy_recv` gives. -/
inductive SocketRead where
  | bytes (s : List Byte)
  -- `EAGAIN` or `CURLE_AGAIN`
  | blocked
  -- the end of the stream, or an error
  | closed
  deriving DecidableEq, Repr

/-- What a turn of the loop meets: the seconds that remain, whether the socket becomes readable within
them, and what a read of it gives. -/
structure RecvTurn where
  remaining : Int
  readable : Bool
  read : SocketRead
  deriving DecidableEq, Repr

/-- What a turn comes to before the buffer is touched. -/
inductive TurnResult where
  | got (s : List Byte)
  | again
  | timedOut
  | failed
  deriving DecidableEq, Repr

/-- A turn: the TLS path reads first and waits only when the read would block, the plain path waits
first. -/
def recvTurn (useTls : Bool) (t : RecvTurn) : TurnResult :=
  if t.remaining < 1 then .timedOut
  else if useTls = true then
    match t.read with
    | .blocked => if t.readable = true then .again else .timedOut
    | .closed => .failed
    | .bytes s => .got s
  else if t.readable = false then .timedOut
  else
    match t.read with
    | .closed => .failed
    | .blocked => .again
    | .bytes s => .got s

/-- What a call returns. -/
inductive RecvReturn where
  | line (line : List Byte)
  | timedOut
  | failed
  deriving DecidableEq, Repr

/-- How far a call gets with the turns that are given: it waits for another, or it returns and leaves the
buffer and the later turns. -/
inductive RecvProgress where
  | waiting
  | returned (r : RecvReturn) (sockbuf : Region Byte) (turns : List RecvTurn)

/-- What stands behind the loop. -/
def recvTakeLine (sockbuf : Region Byte) (turns : List RecvTurn) : Except Stop RecvProgress := do
  match ← stratumTakeBufferLine sockbuf with
  | (some line, sockbuf) => .ok (.returned (.line line) sockbuf turns)
  | (none, sockbuf) => .ok (.returned .failed sockbuf turns)

/-- `stratum_recv_line_timeout`. -/
def stratumRecvLineTimeout (useTls : Bool) (sockbuf : Region Byte) :
    List RecvTurn → Except Stop RecvProgress
  | [] => do
    let text ← sockbufText sockbuf
    if newlineByte ∈ text then recvTakeLine sockbuf [] else .ok .waiting
  | t :: turns => do
    let text ← sockbufText sockbuf
    if newlineByte ∈ text then recvTakeLine sockbuf (t :: turns)
    else
      match recvTurn useTls t with
      | .timedOut => .ok (.returned .timedOut sockbuf turns)
      | .failed => .ok (.returned .failed sockbuf turns)
      | .again => stratumRecvLineTimeout useTls sockbuf turns
      | .got s =>
        if 0 ∈ s then .ok (.returned .failed sockbuf turns)
        else
          match stratumBufferAppend sockbuf s with
          | .error .refused => .ok (.returned .failed sockbuf turns)
          | .error .badAccess => .error .badAccess
          | .ok sockbuf => stratumRecvLineTimeout useTls sockbuf turns

/-- Successive calls, at most `calls` of them; the flag says that the last one still waits. -/
def recvCalls (useTls : Bool) : (calls : Nat) → Region Byte → List RecvTurn →
    Except Stop (List RecvReturn × Bool)
  | 0, _, _ => .ok ([], false)
  | calls + 1, sockbuf, turns => do
    match ← stratumRecvLineTimeout useTls sockbuf turns with
    | .waiting => .ok ([], true)
    | .returned r sockbuf turns =>
      let (rs, waits) ← recvCalls useTls calls sockbuf turns
      .ok (r :: rs, waits)

/-! ## The buffer as a string -/

/-- The buffer holds `text`. -/
def HoldsText (sockbuf : Region Byte) (text : List Byte) : Prop :=
  sockbuf.Filled (text ++ [0]) ∧ 0 ∉ text

namespace HoldsText

variable {sockbuf : Region Byte} {text : List Byte}

theorem sockbufText (h : HoldsText sockbuf text) : PrimoMiner.sockbufText sockbuf = .ok text := by
  rw [PrimoMiner.sockbufText, h.1.terminated h.2]
  rfl

theorem length_lt (h : HoldsText sockbuf text) : text.length + 1 ≤ sockbuf.length := by
  have hle := h.1.length_le
  rwa [List.length_append, List.length_singleton] at hle

/-- The buffer that `stratum_buffer_append` leaves has room for the text and its terminator. -/
theorem append {s : List Byte} (h : HoldsText sockbuf text) (hs : 0 ∉ s)
    (hlen : text.length + s.length ≤ stratumMaxLineBytes) :
    ∃ sockbuf', stratumBufferAppend sockbuf s = .ok sockbuf' ∧ HoldsText sockbuf' (text ++ s) := by
  obtain ⟨reserved, hreserve, hfilled, hroom⟩ : ∃ reserved,
      stratumReserveSocketBuffer sockbuf (text.length + s.length + 1) = some reserved ∧
      reserved.Filled text ∧ text.length + s.length + 1 ≤ reserved.length := by
    rw [stratumReserveSocketBuffer, if_neg (by omega)]
    by_cases hfits : text.length + s.length + 1 < sockbuf.length
    · exact ⟨sockbuf, if_pos hfits, h.1.left, by omega⟩
    · refine ⟨_, if_neg hfits, h.1.left.realloc ?_, ?_⟩
      · omega
      · rw [length_realloc]
        omega
  obtain ⟨stored, hstored, hfilled'⟩ := hfilled.store s (by omega)
  obtain ⟨ended, hended, hfilled''⟩ := hfilled'.store [0] (by
    rw [List.length_append, length_store hstored, List.length_singleton]
    omega)
  refine ⟨ended, ?_, hfilled'', ?_⟩
  · rw [List.length_append] at hended
    simp only [stratumBufferAppend, h.sockbufText, ok_bind, hreserve, orRefuse, access, hstored, hended]
  · rw [List.mem_append]
    exact not_or.mpr ⟨h.2, hs⟩

/-- After an append that succeeds, the text and its terminator fit. -/
theorem append_fits {s : List Byte} {sockbuf' : Region Byte} (h : HoldsText sockbuf text) (hs : 0 ∉ s)
    (happend : stratumBufferAppend sockbuf s = .ok sockbuf') :
    HoldsText sockbuf' (text ++ s) ∧ (text ++ s).length + 1 ≤ sockbuf'.length := by
  by_cases hlen : text.length + s.length ≤ stratumMaxLineBytes
  · obtain ⟨ended, hended, hholds⟩ := h.append hs hlen
    obtain rfl : ended = sockbuf' := Except.ok.inj (hended.symm.trans happend)
    exact ⟨hholds, hholds.length_lt⟩
  · have hreserve : stratumReserveSocketBuffer sockbuf (text.length + s.length + 1) = none :=
      if_pos (by omega)
    rw [stratumBufferAppend, h.sockbufText, ok_bind] at happend
    simp only [hreserve, orRefuse, error_bind] at happend
    exact absurd happend (by simp)

/-- Taking a line out leaves what stands behind its newline. -/
theorem takeLine {line rest : List Byte} (h : HoldsText sockbuf (line ++ newlineByte :: rest))
    (hline : newlineByte ∉ line) :
    ∃ sockbuf', stratumTakeBufferLine sockbuf = .ok (some line, sockbuf') ∧ HoldsText sockbuf' rest := by
  have hmem : newlineByte ∈ line ++ newlineByte :: rest := by simp
  have hidx : (line ++ newlineByte :: rest).idxOf newlineByte = line.length := by
    rw [List.idxOf_append_of_notMem hline, List.idxOf_cons_self, Nat.add_zero]
  have hrest : 0 ∉ rest := fun hz => h.2 (List.mem_append_right _ (List.mem_cons_of_mem _ hz))
  have htext : line ++ newlineByte :: rest ++ [0] = [] ++ line ++ (newlineByte :: rest ++ [0]) := by simp
  have hload : sockbuf.load 0 line.length = some line := (htext ▸ h.1).load
  have htail : HoldsText (sockbuf.drop (line.length + 1)) rest := by
    obtain ⟨cells, hcells⟩ := h.1
    refine ⟨⟨cells, ?_⟩, hrest⟩
    rw [hcells, show line ++ newlineByte :: rest ++ [0] = (line ++ [newlineByte]) ++ (rest ++ [0]) by simp,
      List.map_append, List.append_assoc]
    exact List.drop_left' (by simp)
  have hmoved : sockbuf.load (line.length + 1) (rest.length + 1) = some (rest ++ [0]) := by
    have hfilled : sockbuf.Filled ((line ++ [newlineByte]) ++ (rest ++ [0]) ++ []) := by
      have heq : line ++ newlineByte :: rest ++ [0] = (line ++ [newlineByte]) ++ (rest ++ [0]) ++ [] := by simp
      exact heq ▸ h.1
    have hloaded := hfilled.load
    rwa [List.length_append, List.length_append, List.length_singleton, List.length_singleton] at hloaded
  have hlen := h.length_lt
  rw [List.length_append, List.length_cons] at hlen
  obtain ⟨sockbuf', hstore, hfilled⟩ := (Filled.nil sockbuf).store (rest ++ [0]) (by
    rw [List.length_append, List.length_singleton, List.length_nil]
    omega)
  refine ⟨sockbuf', ?_, hfilled, hrest⟩
  rw [stratumTakeBufferLine, h.sockbufText, ok_bind, if_neg (by simp [hmem]), hidx]
  simp only [hload, access, ok_bind, htail.sockbufText, hmoved]
  rw [show sockbuf.store 0 (rest ++ [0]) = some sockbuf' from hstore]
  rfl

end HoldsText

/-! ## Lines of the stream -/

section

variable (useTls : Bool)

/-- The bytes that the turns read. -/
def received (turns : List RecvTurn) : List Byte :=
  turns.flatMap fun t => match recvTurn useTls t with
    | .got s => s
    | _ => []

/-- The connection stays up, and a read gives at most `RECVSIZE` bytes, none of them NUL. -/
def Delivers (turns : List RecvTurn) : Prop :=
  ∀ t ∈ turns, recvTurn useTls t ≠ .failed ∧
    ∀ s, recvTurn useTls t = .got s → s.length ≤ recvsize ∧ 0 ∉ s

/-- Every line of a stream, and what stands behind the last newline, leaves room for one more read. -/
def ShortLines (stream : List Byte) : Prop :=
  ∀ line ∈ stream.splitOn newlineByte, line.length ≤ stratumMaxLineBytes - recvsize

/-- The lines of a stream that are complete. -/
def completeLines (stream : List Byte) : List (List Byte) := (stream.splitOn newlineByte).dropLast

theorem splitOn_line {line : List Byte} (rest : List Byte) (hline : newlineByte ∉ line) :
    (line ++ newlineByte :: rest).splitOn newlineByte = line :: rest.splitOn newlineByte := by
  rw [List.splitOn_append_cons_self, List.splitOn_eq_singleton hline, List.singleton_append]

theorem completeLines_line {line : List Byte} (rest : List Byte) (hline : newlineByte ∉ line) :
    completeLines (line ++ newlineByte :: rest) = line :: completeLines rest := by
  rw [completeLines, splitOn_line rest hline, List.dropLast_cons_of_ne_nil (List.splitOn_ne_nil _ _)]
  rfl

theorem completeLines_fragment {text : List Byte} (h : newlineByte ∉ text) : completeLines text = [] := by
  rw [completeLines, List.splitOn_eq_singleton h, List.dropLast_singleton]

/-- A text without a newline begins the first line of the stream. -/
theorem ShortLines.length_le {text rest : List Byte} (h : ShortLines (text ++ rest))
    (htext : newlineByte ∉ text) : text.length ≤ stratumMaxLineBytes - recvsize := by
  by_cases hrest : newlineByte ∈ rest
  · obtain ⟨first, after, rfl, hfirst⟩ := List.eq_append_cons_of_mem hrest
    have hline : newlineByte ∉ text ++ first := by simp [htext, hfirst]
    have hle := h (text ++ first) (by
      rw [← List.append_assoc, splitOn_line after hline]
      exact List.mem_cons_self)
    rw [List.length_append] at hle
    omega
  · have hnone : newlineByte ∉ text ++ rest := by simp [htext, hrest]
    have hle := h (text ++ rest) (by rw [List.splitOn_eq_singleton hnone]; exact List.mem_singleton_self _)
    rw [List.length_append] at hle
    omega

theorem ShortLines.rest {line rest : List Byte} (h : ShortLines (line ++ newlineByte :: rest))
    (hline : newlineByte ∉ line) : ShortLines rest := by
  intro l hl
  apply h
  rw [splitOn_line rest hline]
  exact List.mem_cons_of_mem _ hl

theorem received_cons (t : RecvTurn) (turns : List RecvTurn) :
    received useTls (t :: turns) =
      (match recvTurn useTls t with | .got s => s | _ => []) ++ received useTls turns :=
  List.flatMap_cons

variable {useTls}

/-- What a call may come to with `stream` buffered or to come: it waits with no newline in sight, or times
out and keeps every byte, or returns the first line. -/
def CallSpec (useTls : Bool) (stream : List Byte) (turns : List RecvTurn) : Except Stop RecvProgress → Prop
  | .ok .waiting => newlineByte ∉ stream
  | .ok (.returned .timedOut sockbuf turns') =>
    ∃ text, HoldsText sockbuf text ∧ text ++ received useTls turns' = stream ∧ turns' <:+ turns ∧
      turns'.length < turns.length
  | .ok (.returned (.line line) sockbuf turns') =>
    ∃ text, HoldsText sockbuf text ∧ newlineByte ∉ line ∧
      line ++ newlineByte :: (text ++ received useTls turns') = stream ∧ turns' <:+ turns
  | _ => False

theorem CallSpec.cons {stream : List Byte} {turns : List RecvTurn} {result : Except Stop RecvProgress}
    (h : CallSpec useTls stream turns result) (t : RecvTurn) : CallSpec useTls stream (t :: turns) result := by
  match result, h with
  | .ok .waiting, h => exact h
  | .ok (.returned .timedOut sockbuf turns'), ⟨text, hholds, heq, hsuffix, hlt⟩ =>
    exact ⟨text, hholds, heq, hsuffix.trans (List.suffix_cons t turns), by rw [List.length_cons]; omega⟩
  | .ok (.returned (.line line) sockbuf turns'), ⟨text, hholds, hline, heq, hsuffix⟩ =>
    exact ⟨text, hholds, hline, heq, hsuffix.trans (List.suffix_cons t turns)⟩

/-- A buffer with a newline in it: the call returns the line before it at once. -/
theorem recvTakeLine_spec {sockbuf : Region Byte} {text : List Byte} (h : HoldsText sockbuf text)
    (hmem : newlineByte ∈ text) (turns : List RecvTurn) :
    CallSpec useTls (text ++ received useTls turns) turns (recvTakeLine sockbuf turns) := by
  obtain ⟨line, rest, rfl, hline⟩ := List.eq_append_cons_of_mem hmem
  obtain ⟨sockbuf', htake, hholds⟩ := h.takeLine hline
  have hresult : recvTakeLine sockbuf turns = .ok (.returned (.line line) sockbuf' turns) := by
    rw [recvTakeLine, htake]
    rfl
  rw [hresult]
  exact ⟨rest, hholds, hline, by simp, List.suffix_refl _⟩

theorem stratumRecvLineTimeout_spec (turns : List RecvTurn) {sockbuf : Region Byte} {text : List Byte}
    (h : HoldsText sockbuf text) (hturns : Delivers useTls turns)
    (hshort : ShortLines (text ++ received useTls turns)) :
    CallSpec useTls (text ++ received useTls turns) turns (stratumRecvLineTimeout useTls sockbuf turns) := by
  induction turns generalizing sockbuf text with
  | nil =>
    rw [stratumRecvLineTimeout, h.sockbufText, ok_bind]
    by_cases hmem : newlineByte ∈ text
    · rw [if_pos hmem]
      exact recvTakeLine_spec h hmem []
    · rw [if_neg hmem]
      show newlineByte ∉ text ++ []
      rwa [List.append_nil]
  | cons t turns ih =>
    rw [stratumRecvLineTimeout, h.sockbufText, ok_bind]
    by_cases hmem : newlineByte ∈ text
    · rw [if_pos hmem]
      exact recvTakeLine_spec h hmem (t :: turns)
    · rw [if_neg hmem]
      obtain ⟨hup, hread⟩ := hturns t List.mem_cons_self
      have hturns' : Delivers useTls turns := fun t' ht' => hturns t' (List.mem_cons_of_mem _ ht')
      rw [received_cons] at hshort ⊢
      cases hturn : recvTurn useTls t with
      | failed => exact absurd hturn hup
      | timedOut =>
        exact ⟨text, h, rfl, List.suffix_cons t turns, by rw [List.length_cons]; omega⟩
      | again =>
        rw [hturn] at hshort
        exact (ih h hturns' hshort).cons t
      | got s =>
        rw [hturn] at hshort
        obtain ⟨hlen, hnul⟩ := hread s hturn
        -- no newline is buffered, so that what is buffered begins a short line
        have hroom : text.length ≤ stratumMaxLineBytes - recvsize := hshort.length_le hmem
        obtain ⟨sockbuf', happend, hholds⟩ := h.append hnul (by
          have : recvsize ≤ stratumMaxLineBytes := by decide
          omega)
        rw [← List.append_assoc] at hshort ⊢
        simp only [if_neg hnul, happend]
        exact (ih hholds hturns' hshort).cons t

/-- The lines that the calls returned. -/
def returnedLines (rs : List RecvReturn) : List (List Byte) :=
  rs.filterMap fun r => match r with
    | .line line => some line
    | _ => none

/-- Successive calls from any buffer. -/
theorem recvCalls_spec (calls : Nat) (turns : List RecvTurn) {sockbuf : Region Byte} {text : List Byte}
    (h : HoldsText sockbuf text) (hturns : Delivers useTls turns)
    (hshort : ShortLines (text ++ received useTls turns)) :
    ∃ rs waits, recvCalls useTls calls sockbuf turns = .ok (rs, waits) ∧ .failed ∉ rs ∧
      returnedLines rs <+: completeLines (text ++ received useTls turns) ∧
      (waits = true → returnedLines rs = completeLines (text ++ received useTls turns)) ∧
      (turns.length + (text ++ received useTls turns).length < calls → waits = true) := by
  induction calls generalizing turns sockbuf text with
  | zero => exact ⟨[], false, rfl, by simp, List.nil_prefix, by simp, by simp⟩
  | succ calls ih =>
    rw [recvCalls]
    generalize hstream : text ++ received useTls turns = stream at *
    have hcall := stratumRecvLineTimeout_spec turns h hturns (hstream ▸ hshort)
    rw [hstream] at hcall
    match hresult : stratumRecvLineTimeout useTls sockbuf turns with
    | .ok .waiting =>
      rw [hresult] at hcall
      have hnone : completeLines stream = [] := completeLines_fragment hcall
      exact ⟨[], true, rfl, by simp, List.nil_prefix, fun _ => hnone.symm, fun _ => rfl⟩
    | .ok (.returned .timedOut sockbuf' turns') =>
      rw [hresult] at hcall
      obtain ⟨text', hholds, heq, hsuffix, hlt⟩ := hcall
      obtain ⟨rs, waits, hrun, hfailed, hlines, hall, henough⟩ := ih turns' hholds
        (fun t ht => hturns t (hsuffix.subset ht)) (heq.symm ▸ hshort)
      rw [heq] at hlines hall henough
      refine ⟨.timedOut :: rs, waits, ?_, by simp [hfailed], hlines, hall, fun _ => henough (by omega)⟩
      rw [ok_bind]
      simp only [hrun, ok_bind]
    | .ok (.returned (.line line) sockbuf' turns') =>
      rw [hresult] at hcall
      obtain ⟨text', hholds, hline, heq, hsuffix⟩ := hcall
      have hshort' : ShortLines (text' ++ received useTls turns') :=
        ShortLines.rest (heq.symm ▸ hshort) hline
      obtain ⟨rs, waits, hrun, hfailed, hlines, hall, henough⟩ := ih turns' hholds
        (fun t ht => hturns t (hsuffix.subset ht)) hshort'
      have hcomplete : completeLines stream = line :: completeLines (text' ++ received useTls turns') := by
        rw [← heq, completeLines_line _ hline]
      have hlen : stream.length = line.length + ((text' ++ received useTls turns').length + 1) := by
        rw [← heq, List.length_append, List.length_cons]
      have hle := hsuffix.length_le
      refine ⟨.line line :: rs, waits, ?_, by simp [hfailed], ?_, ?_, fun _ => henough (by omega)⟩
      · rw [ok_bind]
        simp only [hrun, ok_bind]
      · rw [hcomplete]
        exact (List.prefix_cons_inj line).mpr hlines
      · intro hwaits
        rw [hcomplete, ← hall hwaits]
        rfl
    | .ok (.returned .failed sockbuf' turns') =>
      rw [hresult] at hcall
      exact hcall.elim
    | .error stop =>
      rw [hresult] at hcall
      exact hcall.elim

/-- From an empty buffer, successive calls return the lines of what the socket delivers, in order and each
once, whatever the reads and the timeouts between them; they return all complete lines before one waits;
and every append leaves room for the terminator. -/
theorem stratum_lines_framed (turns : List RecvTurn) (sockbuf : Region Byte) (h : HoldsText sockbuf [])
    (hturns : Delivers useTls turns) (hshort : ShortLines (received useTls turns)) :
    (∀ calls, ∃ rs waits, recvCalls useTls calls sockbuf turns = .ok (rs, waits) ∧ .failed ∉ rs ∧
      returnedLines rs <+: completeLines (received useTls turns) ∧
      (waits = true → returnedLines rs = completeLines (received useTls turns)) ∧
      (turns.length + (received useTls turns).length < calls → waits = true)) ∧
    (∀ (sockbuf sockbuf' : Region Byte) (text s : List Byte), HoldsText sockbuf text → 0 ∉ s →
      stratumBufferAppend sockbuf s = .ok sockbuf' →
        HoldsText sockbuf' (text ++ s) ∧ (text ++ s).length + 1 ≤ sockbuf'.length) := by
  constructor
  · intro calls
    have hrun := recvCalls_spec calls turns h hturns
    rw [List.nil_append] at hrun
    exact hrun hshort
  · intro sockbuf sockbuf' text s hholds hs happend
    exact hholds.append_fits hs happend

/-- Two lines in three reads, with a timeout in the middle of the second. -/
theorem stratum_lines_framed_two :
    (∀ calls, ∃ rs waits, recvCalls false calls (Region.calloc 0 rbufsize)
        [⟨3, true, .bytes [97, 10, 98]⟩, ⟨0, true, .blocked⟩, ⟨3, true, .bytes [99]⟩, ⟨3, true, .bytes [10]⟩] =
          .ok (rs, waits) ∧ .failed ∉ rs ∧
      returnedLines rs <+: completeLines [97, 10, 98, 99, 10] ∧
      (waits = true → returnedLines rs = completeLines [97, 10, 98, 99, 10]) ∧
      (4 + 5 < calls → waits = true)) ∧
    completeLines [97, 10, 98, 99, 10] = [[97], [98, 99]] := by
  have hholds : HoldsText (Region.calloc (0 : Byte) rbufsize) [] :=
    ⟨⟨Region.calloc 0 (rbufsize - 1), rfl⟩, by simp⟩
  refine ⟨(@stratum_lines_framed false _ _ hholds ?_ ?_).1, by decide⟩
  · simp [Delivers, recvTurn, recvsize, rbufsize]
  · unfold ShortLines
    decide

end

end PrimoMiner
