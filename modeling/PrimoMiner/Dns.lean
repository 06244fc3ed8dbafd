import PrimoMiner.Bytes
import PrimoMiner.Library.Region
import Mathlib.Data.List.Infix

/-!
# The DNS fallback codec

`utils/dns_fallback.c`: the query that is built for a host name, and the parser that walks a reply and
appends its address records.  The buffer of the query is a region with checked stores, and every load
from a message is checked too: a step whose access would fall outside has no result.
-/

namespace PrimoMiner

open Region

def dnsMaxQuery : Nat := 300
def dnsQtypeA : BitVec 16 := 1
def dnsQtypeAAAA : BitVec 16 := 28
def dnsFallbackAddrstrlen : Nat := 46

/-- `a - b` on `size_t`. -/
def sizeSub (a b : Nat) : Nat := (a + 2 ^ 64 - b) % 2 ^ 64

/-! ## The query -/

def dnsDot : Byte := 46

/-- The body of the `if` of the loop: one label behind its length byte. -/
def dnsPutLabel (buf : Region Byte) (pos : Nat) (label : List Byte) :
    Except Stop (Region Byte × Nat) :=
  if label.length = 0 ∨ 63 < label.length then .error .refused
  else do
    let buf ← access (buf.store pos [BitVec.ofNat 8 label.length])
    let buf ← access (buf.store (pos + 1) label)
    .ok (buf, pos + 1 + label.length)

/-- The loop of `dns_encode_qname` with the bytes of `host` still to come; `label` is what lies between
`label_start` and `i`. -/
def dnsEncodeLabels (buf : Region Byte) (pos : Nat) (label : List Byte) :
    List Byte → Except Stop (Region Byte × Nat)
  | [] => dnsPutLabel buf pos label
  | c :: host =>
    if c == dnsDot then do
      let (buf, pos) ← dnsPutLabel buf pos label
      dnsEncodeLabels buf pos [] host
    else dnsEncodeLabels buf pos (label ++ [c]) host

/-- `dns_encode_qname(buf + off, buf_len, host)`, with the region and the length of the name. -/
def dnsEncodeQname (buf : Region Byte) (off bufLen : Nat) (host : List Byte) :
    Except Stop (Region Byte × Nat) :=
  if host.length = 0 ∨ 253 < host.length ∨ bufLen < host.length + 2 then .error .refused
  else do
    let (buf, pos) ← dnsEncodeLabels buf off [] host
    let buf ← access (buf.store pos [0])
    .ok (buf, pos + 1 - off)

/-- The two bytes of a 16-bit field. -/
def be16enc (x : BitVec 16) : List Byte := [x.extractLsb' 8 8, x.extractLsb' 0 8]

def dnsBuildQuery (buf : Region Byte) (host : List Byte) (queryId qtype : BitVec 16) :
    Except Stop (Region Byte × Nat) :=
  if buf.length < 12 then .error .refused
  else do
    let header := be16enc queryId ++ [0x01, 0, 0, 0x01, 0, 0, 0, 0, 0, 0]
    let buf ← access (buf.store 0 header)
    let (buf, qnameLen) ← dnsEncodeQname buf 12 (sizeSub (sizeSub buf.length 12) 4) host
    let buf ← access (buf.store (12 + qnameLen) (be16enc qtype ++ [0x00, 0x01]))
    .ok (buf, 12 + qnameLen + 4)

/-! ## The reply -/

/-- The bytes of a reply.  The exchange functions return their number as an `int`, so that an offset into
them is one too. -/
structure DnsMessage where
  bytes : List Byte
  length_lt : bytes.length < 2 ^ 31

namespace DnsMessage

def length (msg : DnsMessage) : Nat := msg.bytes.length

/-- `msg[i]`. -/
def byte (msg : DnsMessage) (i : Nat) : Option Byte := msg.bytes[i]?

/-- The big-endian 16-bit field at `i`. -/
def field (msg : DnsMessage) (i : Nat) : Option (BitVec 16) := do
  let high ← msg.byte i
  let low ← msg.byte (i + 1)
  some (high ++ low)

end DnsMessage

/-- The `n` bytes at `off`, where all of them lie in `l`. -/
def loadBytes (l : List Byte) (off n : Nat) : Option (List Byte) :=
  if off + n ≤ l.length then some ((l.drop off).take n) else none

/-- `dns_skip_name`: the offset behind the name at `pos`, or `none` inside for its `-1`. -/
def dnsSkipName (msg : DnsMessage) (pos : Nat) : Option (Option Nat) :=
  if pos < msg.length then
    match msg.byte pos with
    | none => none
    | some len =>
      if len = 0 then some (some (pos + 1))
      else if len &&& 0xC0 = 0xC0 then
        some (if pos + 2 ≤ msg.length then some (pos + 2) else none)
      else if 63 < len.toNat then some none
      else dnsSkipName msg (pos + 1 + len.toNat)
  else some none
termination_by msg.length - pos

/-- What `dns_parse_response` returns. -/
inductive DnsParsed where
  -- 1: at least one address was appended
  | addresses
  -- 0: a response without a matching record, or an error code
  | noRecord
  -- -1: malformed, or not an answer to this query
  | malformed
  -- -2: to be asked again over TCP
  | truncated
  deriving DecidableEq, Repr

inductive AddressFamily where
  | inet
  | inet6
  deriving DecidableEq, Repr

/-- `inet_ntop` of the C library: the text of an address, for a destination of `size` bytes.  It fails only
for a destination that is too small. -/
structure InetNtop where
  text : AddressFamily → List Byte → (size : Nat) → Option String
  inet_fits : ∀ (a : List Byte) (size : Nat), a.length = 4 → 16 ≤ size → ∃ s, text .inet a size = some s
  inet6_fits : ∀ (a : List Byte) (size : Nat), a.length = 16 → 46 ≤ size → ∃ s, text .inet6 a size = some s

/-- The caller's `ips`, `max_ips` rows of them, and `*count`. -/
structure Addresses (maxIps : Nat) where
  ips : Vector String maxIps
  count : Nat
  deriving DecidableEq, Repr

namespace Addresses

variable {maxIps : Nat}

/-- Write row `*count` and raise `*count`. -/
def append (a : Addresses maxIps) (h : a.count < maxIps) (s : String) : Addresses maxIps :=
  ⟨a.ips.set a.count s h, a.count + 1⟩

/-- The rows in use. -/
def listed (a : Addresses maxIps) : List String := a.ips.toList.take a.count

end Addresses

section

variable {maxIps : Nat} (ntop : InetNtop) (msg : DnsMessage) (qtype : BitVec 16)

/-- The record loop with `left` records still to come.  The result is `none` if an access fell outside the
message. -/
def dnsParseAnswers : (left pos : Nat) → (found : Bool) → Addresses maxIps →
    Option (DnsParsed × Addresses maxIps)
  | 0, _, found, a => some (if found then .addresses else .noRecord, a)
  | left + 1, pos, found, a =>
    if hroom : a.count < maxIps then do
      match ← dnsSkipName msg pos with
      | none => some (.malformed, a)
      | some pos =>
        if msg.length < pos + 10 then some (.malformed, a)
        else
          let rtype ← msg.field pos
          let rclass ← msg.field (pos + 2)
          let rdlen ← msg.field (pos + 8)
          let pos := pos + 10
          if msg.length < pos + rdlen.toNat then some (.malformed, a)
          else if rclass = 1 ∧ qtype = dnsQtypeA ∧ rtype = dnsQtypeA ∧ rdlen = 4 then
            let a4 ← loadBytes msg.bytes pos 4
            match ntop.text .inet a4 dnsFallbackAddrstrlen with
            | some s => dnsParseAnswers left (pos + rdlen.toNat) true (a.append hroom s)
            | none => dnsParseAnswers left (pos + rdlen.toNat) found a
          else if rclass = 1 ∧ qtype = dnsQtypeAAAA ∧ rtype = dnsQtypeAAAA ∧ rdlen = 16 then
            let a6 ← loadBytes msg.bytes pos 16
            match ntop.text .inet6 a6 dnsFallbackAddrstrlen with
            | some s => dnsParseAnswers left (pos + rdlen.toNat) true (a.append hroom s)
            | none => dnsParseAnswers left (pos + rdlen.toNat) found a
          else dnsParseAnswers left (pos + rdlen.toNat) found a
    else some (if found then .addresses else .noRecord, a)

/-- `dns_parse_response`. -/
def dnsParseResponse (query : List Byte) (a : Addresses maxIps) :
    Option (DnsParsed × Addresses maxIps) :=
  if msg.length < 12 then some (.malformed, a)
  else do
    let id0 ← query[0]?
    let id1 ← query[1]?
    if (← msg.byte 0) ≠ id0 ∨ (← msg.byte 1) ≠ id1 then some (.malformed, a)
    else
      let flags ← msg.byte 2
      if flags &&& 0x80 = 0 then some (.malformed, a)
      else if flags &&& 0x02 ≠ 0 then some (.truncated, a)
      else
        let qdcount ← msg.field 4
        let ancount ← msg.field 6
        if qdcount ≠ 1 then some (.malformed, a)
        else if msg.length < query.length then some (.malformed, a)
        else
          let echoed ← loadBytes msg.bytes 12 (sizeSub query.length 12)
          let question ← loadBytes query 12 (sizeSub query.length 12)
          if echoed ≠ question then some (.malformed, a)
          else
            let rcode ← msg.byte 3
            if rcode &&& 0x0F ≠ 0 then some (.noRecord, a)
            else
              -- the loop over the questions, of which there is one
              match ← dnsSkipName msg 12 with
              | none => some (.malformed, a)
              | some pos =>
                if msg.length < pos + 4 then some (.malformed, a)
                else dnsParseAnswers ntop msg qtype ancount.toNat (pos + 4) false a

end

/-! ## What the encoder writes -/

/-- A label that a name may hold. -/
def DnsLabel (label : List Byte) : Prop := 1 ≤ label.length ∧ label.length ≤ 63

instance : DecidablePred DnsLabel := fun _ => inferInstanceAs (Decidable (_ ∧ _))

def labelBytes (label : List Byte) : List Byte := BitVec.ofNat 8 label.length :: label

/-- The host names the encoder takes: nonempty labels of at most 63 bytes, 253 bytes in all. -/
def EncodableHost (host : List Byte) : Prop :=
  host.length ≤ 253 ∧ ∀ label ∈ host.splitOn dnsDot, DnsLabel label

instance : DecidablePred EncodableHost := fun _ => inferInstanceAs (Decidable (_ ∧ _))

theorem dnsPutLabel_filled {buf : Region Byte} {l label : List Byte} (hbuf : buf.Filled l)
    (hlabel : DnsLabel label) (hle : l.length + 1 + label.length ≤ buf.length) :
    ∃ buf', dnsPutLabel buf l.length label = .ok (buf', (l ++ labelBytes label).length) ∧
      buf'.Filled (l ++ labelBytes label) ∧ buf'.length = buf.length := by
  obtain ⟨buf₁, hstore₁, hfilled₁⟩ := hbuf.store [BitVec.ofNat 8 label.length] (by
    rw [List.length_singleton]
    omega)
  have hlen₁ := length_store hstore₁
  obtain ⟨buf₂, hstore₂, hfilled₂⟩ := hfilled₁.store label (by
    rw [List.length_append, List.length_singleton, hlen₁]
    omega)
  rw [List.length_append, List.length_singleton] at hstore₂
  refine ⟨buf₂, ?_, ?_, ?_⟩
  · rw [dnsPutLabel, if_neg (by have := hlabel.1; have := hlabel.2; omega), hstore₁]
    show access (buf₁.store (l.length + 1) label) >>= _ = _
    rw [hstore₂, List.length_append, labelBytes, List.length_cons]
    show Except.ok (buf₂, l.length + 1 + label.length) = _
    rw [Nat.add_assoc, Nat.add_comm 1]
  · rwa [List.append_assoc] at hfilled₂
  · rw [length_store hstore₂, hlen₁]

theorem dnsPutLabel_refused {buf : Region Byte} {pos : Nat} {label : List Byte} (h : ¬ DnsLabel label) :
    dnsPutLabel buf pos label = .error .refused := by
  rw [dnsPutLabel, if_pos]
  unfold DnsLabel at h
  omega

/-- The labels of the label begun and the bytes to come. -/
def labelsFrom (label : List Byte) : List Byte → List (List Byte)
  | [] => [label]
  | c :: host =>
    if (c == dnsDot) = true then label :: labelsFrom [] host else labelsFrom (label ++ [c]) host

theorem labelsFrom_eq_splitOn (host : List Byte) : labelsFrom [] host = host.splitOn dnsDot := by
  suffices h : ∀ label : List Byte,
      labelsFrom label host = host.splitOnPPrepend (· == dnsDot) label.reverse from h []
  induction host with
  | nil =>
    intro label
    rw [labelsFrom, List.splitOnPPrepend_nil, List.reverse_reverse]
  | cons c host ih =>
    intro label
    rw [labelsFrom, List.splitOnPPrepend_cons_eq_if, List.reverse_reverse, ih, ih]
    rw [List.reverse_append, List.reverse_singleton, List.singleton_append, List.reverse_nil,
      List.splitOnPPrepend_nil_right]

theorem labelsFrom_length (host label : List Byte) :
    ((labelsFrom label host).flatMap labelBytes).length = 1 + label.length + host.length := by
  induction host generalizing label with
  | nil =>
    rw [labelsFrom, List.flatMap_singleton, labelBytes, List.length_cons, List.length_nil]
    omega
  | cons c host ih =>
    rw [labelsFrom]
    split
    · rw [List.flatMap_cons, List.length_append, ih, labelBytes, List.length_cons, List.length_nil,
        List.length_cons]
      omega
    · rw [ih, List.length_append, List.length_singleton, List.length_cons]
      omega

theorem dnsEncodeLabels_filled (host : List Byte) {buf : Region Byte} {l label : List Byte}
    (hbuf : buf.Filled l) (hle : l.length + 1 + label.length + host.length ≤ buf.length) :
    ((∀ x ∈ labelsFrom label host, DnsLabel x) ∧
      ∃ buf' out, out = l ++ (labelsFrom label host).flatMap labelBytes ∧
        dnsEncodeLabels buf l.length label host = .ok (buf', out.length) ∧
        buf'.Filled out ∧ buf'.length = buf.length) ∨
    ((¬ ∀ x ∈ labelsFrom label host, DnsLabel x) ∧
      dnsEncodeLabels buf l.length label host = .error .refused) := by
  induction host generalizing buf l label with
  | nil =>
    rw [labelsFrom]
    by_cases hlabel : DnsLabel label
    · obtain ⟨buf', hput, hfilled, hlen⟩ := dnsPutLabel_filled hbuf hlabel (by
        rw [List.length_nil] at hle
        omega)
      exact .inl ⟨by simpa using hlabel, buf', l ++ labelBytes label, by simp, hput, hfilled, hlen⟩
    · exact .inr ⟨by simpa using hlabel, dnsPutLabel_refused hlabel⟩
  | cons c host ih =>
    rw [List.length_cons] at hle
    rw [labelsFrom, dnsEncodeLabels]
    by_cases hc : (c == dnsDot) = true
    · rw [if_pos hc, if_pos hc]
      by_cases hlabel : DnsLabel label
      · obtain ⟨buf', hput, hfilled, hlen⟩ := dnsPutLabel_filled hbuf hlabel (by omega)
        have hrest := @ih buf' (l ++ labelBytes label) [] hfilled (by
          rw [hlen, List.length_append, labelBytes, List.length_cons, List.length_nil]
          omega)
        rw [hput]
        show (_ ∧ ∃ buf'' out, _ ∧ dnsEncodeLabels buf' (l ++ labelBytes label).length [] host = _ ∧ _) ∨
          _ ∧ dnsEncodeLabels buf' (l ++ labelBytes label).length [] host = _
        obtain ⟨hok, buf'', out, hout, henc, hfilled', hlen'⟩ | ⟨hbad, henc⟩ := hrest
        · refine .inl ⟨List.forall_mem_cons.mpr ⟨hlabel, hok⟩, buf'', out, ?_, henc, hfilled', ?_⟩
          · rw [hout, List.flatMap_cons, List.append_assoc]
          · rw [hlen', hlen]
        · exact .inr ⟨fun hall => hbad (List.forall_mem_cons.mp hall).2, henc⟩
      · refine .inr ⟨fun hall => hlabel (List.forall_mem_cons.mp hall).1, ?_⟩
        rw [dnsPutLabel_refused hlabel]
        rfl
    · rw [if_neg hc, if_neg hc]
      apply ih hbuf
      rw [List.length_append, List.length_singleton]
      omega

/-- The name of `host` on the wire. -/
def qnameBytes (host : List Byte) : List Byte := (host.splitOn dnsDot).flatMap labelBytes ++ [0]

theorem qnameBytes_length (host : List Byte) : (qnameBytes host).length = host.length + 2 := by
  have h := labelsFrom_length host []
  rw [List.length_nil] at h
  rw [qnameBytes, ← labelsFrom_eq_splitOn, List.length_append, h, List.length_singleton]
  omega

def dnsQueryHeader (queryId : BitVec 16) : List Byte :=
  be16enc queryId ++ [0x01, 0, 0, 0x01, 0, 0, 0, 0, 0, 0]

/-- The query for `host`. -/
def dnsQuery (host : List Byte) (queryId qtype : BitVec 16) : List Byte :=
  dnsQueryHeader queryId ++ qnameBytes host ++ (be16enc qtype ++ [0x00, 0x01])

theorem dnsQuery_length (host : List Byte) (queryId qtype : BitVec 16) :
    (dnsQuery host queryId qtype).length = host.length + 18 := by
  rw [dnsQuery, List.length_append, List.length_append, qnameBytes_length]
  show 12 + (host.length + 2) + 4 = _
  omega

theorem not_encodable_nil : ¬ EncodableHost [] := by decide

/-- The encoder behind `l` of a region that has room for the longest name. -/
theorem dnsEncodeQname_filled {buf : Region Byte} {l : List Byte} (hbuf : buf.Filled l) (bufLen : Nat)
    (hroom : 255 ≤ bufLen) (hle : l.length + bufLen ≤ buf.length) (host : List Byte) :
    (EncodableHost host ∧ ∃ buf',
      dnsEncodeQname buf l.length bufLen host = .ok (buf', (qnameBytes host).length) ∧
      buf'.Filled (l ++ qnameBytes host) ∧ buf'.length = buf.length) ∨
    (¬ EncodableHost host ∧ dnsEncodeQname buf l.length bufLen host = .error .refused) := by
  by_cases hlen : host.length = 0 ∨ 253 < host.length
  · refine .inr ⟨?_, if_pos (by omega)⟩
    rintro ⟨hmax, hlabels⟩
    have hnil : host = [] := List.eq_nil_of_length_eq_zero (by omega)
    exact not_encodable_nil (hnil ▸ ⟨hmax, hlabels⟩)
  · rw [EncodableHost, qnameBytes, ← labelsFrom_eq_splitOn]
    obtain ⟨hok, buf₁, out, hout, henc, hfilled, hlen₁⟩ | ⟨hbad, henc⟩ :=
      @dnsEncodeLabels_filled host buf l [] hbuf (by rw [List.length_nil]; omega)
    · obtain ⟨buf₂, hstore, hfilled₂⟩ := hfilled.store [0] (by
        rw [hout, List.length_append, labelsFrom_length, hlen₁, List.length_nil, List.length_singleton]
        omega)
      refine .inl ⟨⟨by omega, hok⟩, buf₂, ?_, ?_, ?_⟩
      · rw [dnsEncodeQname, if_neg (by omega), henc]
        show access (buf₁.store out.length [0]) >>= _ = _
        rw [hstore]
        show Except.ok (buf₂, out.length + 1 - l.length) = _
        rw [hout, List.length_append, List.length_append, labelsFrom_length, List.length_nil,
          List.length_singleton]
        congr 2
        omega
      · rwa [hout, List.append_assoc] at hfilled₂
      · rw [length_store hstore, hlen₁]
    · refine .inr ⟨fun h => hbad h.2, ?_⟩
      rw [dnsEncodeQname, if_neg (by omega), henc]
      rfl

/-- A query in the caller's buffer: an encodable host is written whole, any other refused, and no store
leaves the buffer. -/
theorem dnsBuildQuery_spec (host : List Byte) (queryId qtype : BitVec 16) :
    (EncodableHost host ∧ ∃ buf,
      dnsBuildQuery (Region.malloc Byte dnsMaxQuery) host queryId qtype =
        .ok (buf, (dnsQuery host queryId qtype).length) ∧
      buf.Filled (dnsQuery host queryId qtype) ∧ buf.length = dnsMaxQuery) ∨
    (¬ EncodableHost host ∧
      dnsBuildQuery (Region.malloc Byte dnsMaxQuery) host queryId qtype = .error .refused) := by
  have hmalloc : (Region.malloc Byte dnsMaxQuery).length = dnsMaxQuery := List.length_replicate
  obtain ⟨buf₁, hstore₁, hfilled₁⟩ :=
    (Filled.nil (Region.malloc Byte dnsMaxQuery)).store (dnsQueryHeader queryId) (by
      rw [hmalloc]
      show 0 + 12 ≤ 300
      omega)
  have hlen₁ : buf₁.length = dnsMaxQuery := by rw [length_store hstore₁, hmalloc]
  rw [List.nil_append] at hfilled₁
  have hbuild : dnsBuildQuery (Region.malloc Byte dnsMaxQuery) host queryId qtype =
      dnsEncodeQname buf₁ 12 284 host >>= fun r =>
        access (r.1.store (12 + r.2) (be16enc qtype ++ [0x00, 0x01])) >>= fun buf =>
          .ok (buf, 12 + r.2 + 4) := by
    rw [dnsBuildQuery, if_neg (by rw [hmalloc]; decide)]
    show access ((Region.malloc Byte dnsMaxQuery).store 0 (dnsQueryHeader queryId)) >>= _ = _
    rw [show (Region.malloc Byte dnsMaxQuery).store 0 (dnsQueryHeader queryId) = some buf₁ from hstore₁]
    show dnsEncodeQname buf₁ 12 (sizeSub (sizeSub buf₁.length 12) 4) host >>= _ = _
    rw [hlen₁]
    rfl
  rw [hbuild]
  obtain ⟨hhost, buf₂, henc, hfilled₂, hlen₂⟩ | ⟨hhost, henc⟩ :=
    dnsEncodeQname_filled hfilled₁ 284 (by omega) (by
      rw [hlen₁]
      show 12 + 284 ≤ 300
      omega) host
  · have hfits : host.length ≤ 253 := hhost.1
    obtain ⟨buf₃, hstore₃, hfilled₃⟩ := hfilled₂.store (be16enc qtype ++ [0x00, 0x01]) (by
      rw [hlen₂, hlen₁, List.length_append, qnameBytes_length]
      show 12 + (host.length + 2) + 4 ≤ 300
      omega)
    refine .inl ⟨hhost, buf₃, ?_, hfilled₃, by rw [length_store hstore₃, hlen₂, hlen₁]⟩
    have henc' : dnsEncodeQname buf₁ 12 284 host = .ok (buf₂, (qnameBytes host).length) := henc
    rw [List.length_append] at hstore₃
    have haccess : access (buf₂.store (12 + (qnameBytes host).length) (be16enc qtype ++ [0x00, 0x01])) =
        .ok buf₃ := congrArg access hstore₃
    rw [henc', ok_bind, haccess, ok_bind, dnsQuery_length, qnameBytes_length]
    have hsum : 12 + (host.length + 2) + 4 = host.length + 18 := by omega
    rw [hsum]
  · refine .inr ⟨hhost, ?_⟩
    rw [show dnsEncodeQname buf₁ 12 284 host = _ from henc]
    rfl

end PrimoMiner
