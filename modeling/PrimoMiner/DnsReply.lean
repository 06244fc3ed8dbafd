import PrimoMiner.Dns

/-!
# What the parser makes of a reply

A message decodes to the records before the first malformed one.  The record loop appends the address
records among these, and what it returns depends on whether it met a malformed record before the rows
were full.  Replies in wire format decode to the records they were made from.
-/

namespace PrimoMiner

namespace DnsMessage

variable {msg : DnsMessage} {i : Nat}

theorem byte_of_lt (h : i < msg.length) : ∃ b, msg.byte i = some b :=
  ⟨_, List.getElem?_eq_getElem h⟩

theorem field_of_lt (h : i + 1 < msg.length) : ∃ w, msg.field i = some w := by
  obtain ⟨high, hhigh⟩ := byte_of_lt (show i < msg.length by omega)
  obtain ⟨low, hlow⟩ := byte_of_lt h
  exact ⟨high ++ low, by rw [field, hhigh, hlow]; rfl⟩

theorem field_of_le (h : msg.length ≤ i + 1) : msg.field i = none := by
  have hlow : msg.byte (i + 1) = none := List.getElem?_eq_none h
  rw [field, hlow]
  cases msg.byte i <;> rfl

/-- A part of the message and where it stands. -/
def HoldsAt (msg : DnsMessage) (off : Nat) (l : List Byte) : Prop := (msg.bytes.drop off).take l.length = l

theorem holdsAt_append {off : Nat} {l l' : List Byte} (h : msg.HoldsAt off (l ++ l')) :
    msg.HoldsAt off l ∧ msg.HoldsAt (off + l.length) l' := by
  unfold HoldsAt at *
  rw [List.length_append, List.take_add, List.drop_drop] at h
  exact List.append_inj' h (by
    have hlen := congrArg List.length h
    simp only [List.length_append, List.length_take, List.length_drop] at hlen ⊢
    omega)

theorem HoldsAt.length_le {off : Nat} {l : List Byte} (h : msg.HoldsAt off l) (hl : l ≠ []) :
    off + l.length ≤ msg.length := by
  have hlen := congrArg List.length h
  have hpos : 0 < l.length := List.length_pos_iff.mpr hl
  rw [List.length_take, List.length_drop] at hlen
  unfold length
  omega

theorem HoldsAt.byte {off : Nat} {b : Byte} {l : List Byte} (h : msg.HoldsAt off (b :: l)) :
    msg.byte off = some b := by
  have hget := congrArg (·[0]?) h
  show msg.bytes[off]? = some b
  simpa using hget

theorem HoldsAt.field {off : Nat} {w : BitVec 16} (h : msg.HoldsAt off (be16enc w)) :
    msg.field off = some w := by
  have hlow : msg.HoldsAt (off + 1) [w.extractLsb' 0 8] := (@holdsAt_append _ _ [w.extractLsb' 8 8] _ h).2
  rw [DnsMessage.field, h.byte, hlow.byte]
  show some (w.extractLsb' 8 8 ++ w.extractLsb' 0 8) = some w
  congr 1
  ext i hi
  simp only [BitVec.getElem_append, BitVec.getElem_extractLsb']
  split
  · rw [Nat.zero_add, BitVec.getLsbD_eq_getElem]
  · rw [show 8 + (i - 8) = i by omega, BitVec.getLsbD_eq_getElem]

theorem HoldsAt.loadBytes {off : Nat} {l : List Byte} (h : msg.HoldsAt off l) (hoff : off ≤ msg.length) :
    PrimoMiner.loadBytes msg.bytes off l.length = some l := by
  have hle : off + l.length ≤ msg.bytes.length := by
    cases l with
    | nil => exact hoff
    | cons b l => exact h.length_le (by simp)
  rw [PrimoMiner.loadBytes, if_pos hle, h]

end DnsMessage

/-! ## Names -/

/-- The skip reads inside the message. -/
theorem dnsSkipName_ne_none (msg : DnsMessage) (pos : Nat) : dnsSkipName msg pos ≠ none := by
  induction pos using dnsSkipName.induct msg with
  | case1 pos hpos hnone =>
    obtain ⟨b, hb⟩ := DnsMessage.byte_of_lt hpos
    rw [hb] at hnone
    exact absurd hnone (by simp)
  | case2 pos hpos hlen =>
    rw [dnsSkipName, if_pos hpos, hlen]
    simp
  | case3 pos hpos len hlen hzero hptr =>
    rw [dnsSkipName, if_pos hpos, hlen]
    simp only [if_neg hzero, if_pos hptr]
    exact Option.some_ne_none _
  | case4 pos hpos len hlen hzero hptr hbig =>
    rw [dnsSkipName, if_pos hpos, hlen]
    simp only [if_neg hzero, if_neg hptr, if_pos hbig]
    exact Option.some_ne_none _
  | case5 pos hpos len hlen hzero hptr hbig ih =>
    rw [dnsSkipName, if_pos hpos, hlen]
    simpa only [if_neg hzero, if_neg hptr, if_neg hbig] using ih
  | case6 pos hpos =>
    rw [dnsSkipName, if_neg hpos]
    simp

/-- How a name ends on the wire. -/
inductive DnsNameEnd where
  | root
  | pointer (offset : BitVec 14)
  deriving DecidableEq, Repr

def DnsNameEnd.bytes : DnsNameEnd → List Byte
  | root => [0]
  | pointer offset => [0b11#2 ++ offset.extractLsb' 8 6, offset.extractLsb' 0 8]

/-- A name on the wire, compressed or not. -/
structure DnsName where
  labels : List (List Byte)
  labels_ok : ∀ label ∈ labels, DnsLabel label
  ending : DnsNameEnd

def DnsName.bytes (name : DnsName) : List Byte := name.labels.flatMap labelBytes ++ name.ending.bytes

theorem label_length_byte {n : Nat} (hpos : 1 ≤ n) (hle : n ≤ 63) :
    BitVec.ofNat 8 n ≠ 0 ∧ BitVec.ofNat 8 n &&& 0xC0 ≠ 0xC0 ∧ (BitVec.ofNat 8 n).toNat = n := by
  have hall : ∀ n : Fin 64, 1 ≤ n.val →
      BitVec.ofNat 8 n.val ≠ 0 ∧ BitVec.ofNat 8 n.val &&& 0xC0 ≠ 0xC0 ∧
        (BitVec.ofNat 8 n.val).toNat = n.val := by decide
  exact hall ⟨n, by omega⟩ hpos

theorem pointer_first_byte (high : BitVec 6) :
    (0b11#2 ++ high : Byte) ≠ 0 ∧ (0b11#2 ++ high : Byte) &&& 0xC0 = 0xC0 := by
  revert high
  decide

/-- The skip over a name ends at the name's end. -/
theorem dnsSkipName_of_holdsAt {msg : DnsMessage} (name : DnsName) {off : Nat}
    (h : msg.HoldsAt off name.bytes) : dnsSkipName msg off = some (some (off + name.bytes.length)) := by
  obtain ⟨labels, hok, ending⟩ := name
  induction labels generalizing off with
  | nil =>
    change msg.HoldsAt off ending.bytes at h
    show _ = some (some (off + ending.bytes.length))
    cases ending with
    | root =>
      have hlt : off < msg.length := h.length_le (by simp [DnsNameEnd.bytes])
      rw [dnsSkipName, if_pos hlt, h.byte]
      rfl
    | pointer offset =>
      have hle : off + 2 ≤ msg.length := h.length_le (by simp [DnsNameEnd.bytes])
      obtain ⟨hzero, hptr⟩ := pointer_first_byte (offset.extractLsb' 8 6)
      rw [dnsSkipName, if_pos (by omega), h.byte]
      simp only [if_neg hzero, if_pos hptr, if_pos hle]
      rfl
  | cons label labels ih =>
    have hlabel : DnsLabel label := hok label List.mem_cons_self
    have hbytes : (DnsName.bytes ⟨label :: labels, hok, ending⟩) =
        labelBytes label ++ DnsName.bytes ⟨labels, (List.forall_mem_cons.mp hok).2, ending⟩ := by
      rw [DnsName.bytes, List.flatMap_cons, List.append_assoc]
      rfl
    rw [hbytes] at h ⊢
    obtain ⟨hhead, htail⟩ := DnsMessage.holdsAt_append h
    have hlt := hhead.length_le (by simp [labelBytes])
    rw [labelBytes, List.length_cons] at hlt
    obtain ⟨hzero, hptr, hlen⟩ := label_length_byte hlabel.1 hlabel.2
    rw [dnsSkipName, if_pos (by omega), hhead.byte]
    simp only [if_neg hzero, if_neg hptr, hlen]
    rw [if_neg (by have := hlabel.2; omega)]
    have hnext := ih (List.forall_mem_cons.mp hok).2 htail
    rw [labelBytes, List.length_cons] at hnext
    rw [show off + 1 + label.length = off + (label.length + 1) by omega, hnext, List.length_append,
      labelBytes, List.length_cons, Nat.add_assoc]

/-! ## Records -/

/-- A record as far as the parser looks at it. -/
structure DnsRecord where
  rtype : BitVec 16
  rclass : BitVec 16
  rdata : List Byte
  deriving DecidableEq, Repr

/-- An address record of class IN of the type that was asked for. -/
def DnsRecord.IsAddress (qtype : BitVec 16) (r : DnsRecord) : Prop :=
  r.rclass = 1 ∧ (qtype = dnsQtypeA ∧ r.rtype = dnsQtypeA ∧ r.rdata.length = 4 ∨
    qtype = dnsQtypeAAAA ∧ r.rtype = dnsQtypeAAAA ∧ r.rdata.length = 16)

instance (qtype : BitVec 16) : DecidablePred (DnsRecord.IsAddress qtype) :=
  fun _ => inferInstanceAs (Decidable (_ ∧ _))

/-- The text that is stored for an address record. -/
def InetNtop.recordText (ntop : InetNtop) (r : DnsRecord) : String :=
  (ntop.text (if r.rtype = dnsQtypeA then .inet else .inet6) r.rdata dnsFallbackAddrstrlen).getD ""

/-- The record at `pos` and the offset behind it; `none` for a malformed one. -/
def dnsRecordAt (msg : DnsMessage) (pos : Nat) : Option (DnsRecord × Nat) := do
  let pos ← (dnsSkipName msg pos).join
  let rtype ← msg.field pos
  let rclass ← msg.field (pos + 2)
  let rdlen ← msg.field (pos + 8)
  let rdata ← loadBytes msg.bytes (pos + 10) rdlen.toNat
  some (⟨rtype, rclass, rdata⟩, pos + 10 + rdlen.toNat)

/-- The records from `pos` on, at most `left` of them, before the first malformed one, and whether there
was one. -/
def dnsRecords (msg : DnsMessage) : (left pos : Nat) → List DnsRecord × Bool
  | 0, _ => ([], false)
  | left + 1, pos =>
    match dnsRecordAt msg pos with
    | none => ([], true)
    | some (r, next) => (r :: (dnsRecords msg left next).1, (dnsRecords msg left next).2)

namespace Addresses

variable {maxIps : Nat}

/-- Append texts while there are rows. -/
def appendAll (a : Addresses maxIps) : List String → Addresses maxIps
  | [] => a
  | s :: texts => if h : a.count < maxIps then (a.append h s).appendAll texts else a

theorem appendAll_full {a : Addresses maxIps} (h : ¬ a.count < maxIps) (texts : List String) :
    a.appendAll texts = a := by
  cases texts with
  | nil => rfl
  | cons s texts => rw [appendAll, dif_neg h]

theorem count_appendAll (texts : List String) (a : Addresses maxIps) :
    (a.appendAll texts).count = a.count + min texts.length (maxIps - a.count) := by
  induction texts generalizing a with
  | nil => simp [appendAll]
  | cons s texts ih =>
    rw [appendAll]
    split
    · rw [ih, List.length_cons]
      show a.count + 1 + min texts.length (maxIps - (a.count + 1)) = _
      omega
    · omega

theorem listed_append (a : Addresses maxIps) (h : a.count < maxIps) (s : String) :
    (a.append h s).listed = a.listed ++ [s] := by
  rw [listed, append, Vector.toList_set, List.take_add_one, List.take_set_of_le (Nat.le_refl _), listed]
  congr 1
  simp [h]

/-- What stands in the rows in use afterwards. -/
theorem listed_appendAll (texts : List String) (a : Addresses maxIps) :
    (a.appendAll texts).listed = a.listed ++ texts.take (maxIps - a.count) := by
  induction texts generalizing a with
  | nil => simp [appendAll]
  | cons s texts ih =>
    rw [appendAll]
    split
    case isTrue h =>
      rw [ih, listed_append, List.append_assoc]
      congr 1
      show [s] ++ texts.take (maxIps - (a.count + 1)) = _
      rw [show maxIps - a.count = maxIps - (a.count + 1) + 1 by omega, List.take_succ_cons,
        List.singleton_append]
    case isFalse h =>
      rw [show maxIps - a.count = 0 by omega, List.take_zero, List.append_nil]

end Addresses

section

variable {maxIps : Nat} (ntop : InetNtop) (msg : DnsMessage) (qtype : BitVec 16)

theorem ntop_recordText {r : DnsRecord} (h : r.IsAddress qtype) :
    (qtype = dnsQtypeA ∧ ntop.text .inet r.rdata dnsFallbackAddrstrlen = some (ntop.recordText r)) ∨
    (qtype = dnsQtypeAAAA ∧ ntop.text .inet6 r.rdata dnsFallbackAddrstrlen = some (ntop.recordText r)) := by
  obtain ⟨-, ⟨hq, htype, hlen⟩ | ⟨hq, htype, hlen⟩⟩ := h
  · obtain ⟨s, hs⟩ := ntop.inet_fits r.rdata dnsFallbackAddrstrlen hlen (by decide)
    exact .inl ⟨hq, by rw [InetNtop.recordText, if_pos htype, hs, Option.getD_some]⟩
  · obtain ⟨s, hs⟩ := ntop.inet6_fits r.rdata dnsFallbackAddrstrlen hlen (by decide)
    exact .inr ⟨hq, by rw [InetNtop.recordText, if_neg (by rw [htype]; decide), hs, Option.getD_some]⟩

theorem dnsRecordAt_of_skip {pos p : Nat} (hskip : dnsSkipName msg pos = some (some p)) :
    dnsRecordAt msg pos = (msg.field p).bind fun rtype => (msg.field (p + 2)).bind fun rclass =>
      (msg.field (p + 8)).bind fun rdlen => (loadBytes msg.bytes (p + 10) rdlen.toNat).bind fun rdata =>
        some (⟨rtype, rclass, rdata⟩, p + 10 + rdlen.toNat) := by
  rw [dnsRecordAt, hskip]
  rfl

theorem dnsRecordAt_of_short {pos p : Nat} (hskip : dnsSkipName msg pos = some (some p))
    (hshort : msg.length < p + 10) : dnsRecordAt msg pos = none := by
  rw [dnsRecordAt_of_skip msg hskip, DnsMessage.field_of_le (show msg.length ≤ p + 8 + 1 by omega)]
  cases msg.field p with
  | none => rfl
  | some rtype => cases msg.field (p + 2) <;> rfl

theorem dnsRecordAt_of_fields {pos p : Nat} (hskip : dnsSkipName msg pos = some (some p))
    {rtype rclass rdlen : BitVec 16} (htype : msg.field p = some rtype)
    (hclass : msg.field (p + 2) = some rclass) (hrdlen : msg.field (p + 8) = some rdlen) :
    dnsRecordAt msg pos =
      if msg.length < p + 10 + rdlen.toNat then none
      else some (⟨rtype, rclass, (msg.bytes.drop (p + 10)).take rdlen.toNat⟩, p + 10 + rdlen.toNat) := by
  rw [dnsRecordAt_of_skip msg hskip, htype, hclass, hrdlen]
  show (loadBytes msg.bytes (p + 10) rdlen.toNat).bind _ = _
  rw [loadBytes]
  by_cases hshort : msg.length < p + 10 + rdlen.toNat
  · rw [if_pos hshort, if_neg (show ¬ _ ≤ msg.bytes.length from Nat.not_le.mpr hshort)]
    rfl
  · rw [if_neg hshort, if_pos (show _ ≤ msg.bytes.length from Nat.not_lt.mp hshort)]
    rfl

/-- The two branches that append, as one test of the record. -/
theorem dnsParseRecord {p : Nat} {rtype rclass rdlen : BitVec 16} {rdata : List Byte}
    (hload : loadBytes msg.bytes p rdlen.toNat = some rdata) (hlen : rdata.length = rdlen.toNat)
    (next : String → Option (DnsParsed × Addresses maxIps)) (skip : Option (DnsParsed × Addresses maxIps)) :
    (if rclass = 1 ∧ qtype = dnsQtypeA ∧ rtype = dnsQtypeA ∧ rdlen = 4 then
        (loadBytes msg.bytes p 4).bind fun a4 =>
          match ntop.text .inet a4 dnsFallbackAddrstrlen with
          | some s => next s
          | none => skip
      else if rclass = 1 ∧ qtype = dnsQtypeAAAA ∧ rtype = dnsQtypeAAAA ∧ rdlen = 16 then
        (loadBytes msg.bytes p 16).bind fun a6 =>
          match ntop.text .inet6 a6 dnsFallbackAddrstrlen with
          | some s => next s
          | none => skip
      else skip) =
    if (DnsRecord.mk rtype rclass rdata).IsAddress qtype then
      next (ntop.recordText ⟨rtype, rclass, rdata⟩) else skip := by
  have hne : dnsQtypeA ≠ dnsQtypeAAAA := by decide
  by_cases hA : rclass = 1 ∧ qtype = dnsQtypeA ∧ rtype = dnsQtypeA ∧ rdlen = 4
  · obtain ⟨hclass, hq, htype, hrdlen⟩ := hA
    have hfour : rdlen.toNat = 4 := by rw [hrdlen]; rfl
    have haddr : (DnsRecord.mk rtype rclass rdata).IsAddress qtype :=
      ⟨hclass, .inl ⟨hq, htype, by rw [hlen, hfour]⟩⟩
    rw [if_pos ⟨hclass, hq, htype, hrdlen⟩, if_pos haddr, ← hfour, hload]
    obtain ⟨-, htext⟩ | ⟨hq', -⟩ := ntop_recordText ntop qtype haddr
    · show (match ntop.text .inet rdata dnsFallbackAddrstrlen with | some s => next s | none => skip) = _
      rw [show ntop.text .inet rdata dnsFallbackAddrstrlen = _ from htext]
    · exact absurd (hq.symm.trans hq') hne
  · rw [if_neg hA]
    by_cases hAAAA : rclass = 1 ∧ qtype = dnsQtypeAAAA ∧ rtype = dnsQtypeAAAA ∧ rdlen = 16
    · obtain ⟨hclass, hq, htype, hrdlen⟩ := hAAAA
      have hsixteen : rdlen.toNat = 16 := by rw [hrdlen]; rfl
      have haddr : (DnsRecord.mk rtype rclass rdata).IsAddress qtype :=
        ⟨hclass, .inr ⟨hq, htype, by rw [hlen, hsixteen]⟩⟩
      rw [if_pos ⟨hclass, hq, htype, hrdlen⟩, if_pos haddr, ← hsixteen, hload]
      obtain ⟨hq', -⟩ | ⟨-, htext⟩ := ntop_recordText ntop qtype haddr
      · exact absurd (hq'.symm.trans hq) hne
      · show (match ntop.text .inet6 rdata dnsFallbackAddrstrlen with | some s => next s | none => skip) = _
        rw [show ntop.text .inet6 rdata dnsFallbackAddrstrlen = _ from htext]
    · rw [if_neg hAAAA, if_neg]
      rintro ⟨hclass, ⟨hq, htype, hfour⟩ | ⟨hq, htype, hsixteen⟩⟩
      · exact hA ⟨hclass, hq, htype, BitVec.eq_of_toNat_eq (by rw [← hlen]; exact hfour)⟩
      · exact hAAAA ⟨hclass, hq, htype, BitVec.eq_of_toNat_eq (by rw [← hlen]; exact hsixteen)⟩

/-- One turn of the record loop, by the record that stands there. -/
theorem dnsParseAnswers_succ (left pos : Nat) (found : Bool) {a : Addresses maxIps}
    (hroom : a.count < maxIps) :
    dnsParseAnswers ntop msg qtype (left + 1) pos found a =
      match dnsRecordAt msg pos with
      | none => some (.malformed, a)
      | some (r, next) =>
        if r.IsAddress qtype then
          dnsParseAnswers ntop msg qtype left next true (a.append hroom (ntop.recordText r))
        else dnsParseAnswers ntop msg qtype left next found a := by
  rw [dnsParseAnswers, dif_pos hroom]
  cases hskip : dnsSkipName msg pos with
  | none => exact absurd hskip (dnsSkipName_ne_none msg pos)
  | some skipped =>
    cases skipped with
    | none =>
      rw [dnsRecordAt, hskip]
      rfl
    | some p =>
      show (if msg.length < p + 10 then _ else _) = _
      by_cases hshort : msg.length < p + 10
      · rw [if_pos hshort, dnsRecordAt_of_short msg hskip hshort]
      · obtain ⟨rtype, htype⟩ := DnsMessage.field_of_lt (show p + 1 < msg.length by omega)
        obtain ⟨rclass, hclass⟩ := DnsMessage.field_of_lt (show p + 2 + 1 < msg.length by omega)
        obtain ⟨rdlen, hrdlen⟩ := DnsMessage.field_of_lt (show p + 8 + 1 < msg.length by omega)
        rw [if_neg hshort, dnsRecordAt_of_fields msg hskip htype hclass hrdlen, htype, hclass, hrdlen]
        show (if msg.length < p + 10 + rdlen.toNat then _ else _) = _
        by_cases hcut : msg.length < p + 10 + rdlen.toNat
        · rw [if_pos hcut, if_pos hcut]
        · rw [if_neg hcut, if_neg hcut]
          have hload : loadBytes msg.bytes (p + 10) rdlen.toNat =
              some ((msg.bytes.drop (p + 10)).take rdlen.toNat) := if_pos (Nat.not_lt.mp hcut)
          have hlen : ((msg.bytes.drop (p + 10)).take rdlen.toNat).length = rdlen.toNat := by
            have := Nat.not_lt.mp hcut
            rw [DnsMessage.length] at this
            rw [List.length_take, List.length_drop]
            omega
          exact dnsParseRecord ntop msg qtype hload hlen
            (fun s => dnsParseAnswers ntop msg qtype left (p + 10 + rdlen.toNat) true (a.append hroom s))
            (dnsParseAnswers ntop msg qtype left (p + 10 + rdlen.toNat) found a)

/-- The texts of the address records before the first malformed record. -/
def dnsTexts (left pos : Nat) : List String :=
  ((dnsRecords msg left pos).1.filter fun r => r.IsAddress qtype).map ntop.recordText

/-- What the record loop returns: a malformed record counts if it is met before the rows are full. -/
def dnsOutcome (found cut : Bool) (texts room : Nat) : DnsParsed :=
  if cut = true ∧ texts < room then .malformed
  else if found = true ∨ 0 < min texts room then .addresses else .noRecord

/-- The record loop appends the address records before the first malformed one. -/
theorem dnsParseAnswers_eq (left pos : Nat) (found : Bool) (a : Addresses maxIps) :
    dnsParseAnswers ntop msg qtype left pos found a =
      some (dnsOutcome found (dnsRecords msg left pos).2 (dnsTexts ntop msg qtype left pos).length
        (maxIps - a.count), a.appendAll (dnsTexts ntop msg qtype left pos)) := by
  induction left generalizing pos found a with
  | zero =>
    rw [dnsParseAnswers]
    simp [dnsOutcome, dnsTexts, dnsRecords, Addresses.appendAll]
  | succ left ih =>
    by_cases hroom : a.count < maxIps
    · rw [dnsParseAnswers_succ ntop msg qtype left pos found hroom, dnsTexts, dnsRecords]
      cases dnsRecordAt msg pos with
      | none =>
        have hpos : 0 < maxIps - a.count := by omega
        simp [dnsOutcome, Addresses.appendAll, hpos]
      | some decoded =>
        obtain ⟨r, next⟩ := decoded
        show (if r.IsAddress qtype then _ else _) = some (dnsOutcome found (dnsRecords msg left next).2
          (((r :: (dnsRecords msg left next).1).filter fun r => r.IsAddress qtype).map
            ntop.recordText).length (maxIps - a.count),
          a.appendAll (((r :: (dnsRecords msg left next).1).filter fun r => r.IsAddress qtype).map
            ntop.recordText))
        by_cases haddr : r.IsAddress qtype
        · rw [if_pos haddr, List.filter_cons_of_pos (by simpa using haddr), List.map_cons,
            Addresses.appendAll, dif_pos hroom, ih, List.length_cons]
          congr 2
          show dnsOutcome _ _ _ (maxIps - (a.count + 1)) = _
          rw [show maxIps - a.count = maxIps - (a.count + 1) + 1 by omega]
          unfold dnsOutcome
          congr 1
          · simp [dnsTexts]
          · rw [if_pos (.inl rfl), if_pos (.inr (by omega))]
        · rw [if_neg haddr, List.filter_cons_of_neg (by simpa using haddr), ih]
          rfl
    · rw [dnsParseAnswers, dif_neg hroom, Addresses.appendAll_full hroom]
      rw [show maxIps - a.count = 0 by omega]
      simp [dnsOutcome]

end

/-! ## Replies -/

/-- The message answers the query without an error: it echoes the transaction id and the question, QR is
set, TC and RCODE are not.  Its `ancount` answers stand at `pos`. -/
structure IsReply (msg : DnsMessage) (query : List Byte) (ancount pos : Nat) : Prop where
  header : 12 ≤ msg.length
  id : msg.byte 0 = query[0]? ∧ msg.byte 1 = query[1]?
  flags : ∃ flags, msg.byte 2 = some flags ∧ flags &&& 0x80 ≠ 0 ∧ flags &&& 0x02 = 0
  rcode : ∃ rcode, msg.byte 3 = some rcode ∧ rcode &&& 0x0F = 0
  qdcount : msg.field 4 = some 1
  ancount : ∃ n, msg.field 6 = some n ∧ n.toNat = ancount
  fits : query.length ≤ msg.length
  question : msg.HoldsAt 12 (query.drop 12)
  answers : ∃ p, dnsSkipName msg 12 = some (some p) ∧ p + 4 = pos ∧ pos ≤ msg.length

theorem IsReply.unique {msg : DnsMessage} {query : List Byte} {ancount ancount' pos pos' : Nat}
    (h : IsReply msg query ancount pos) (h' : IsReply msg query ancount' pos') :
    ancount = ancount' ∧ pos = pos' := by
  obtain ⟨n, hn, rfl⟩ := h.ancount
  obtain ⟨n', hn', rfl⟩ := h'.ancount
  obtain ⟨p, hp, rfl, -⟩ := h.answers
  obtain ⟨p', hp', rfl, -⟩ := h'.answers
  rw [hn, Option.some.injEq] at hn'
  rw [hp, Option.some.injEq, Option.some.injEq] at hp'
  rw [hn', hp']
  exact ⟨rfl, rfl⟩

theorem sizeSub_eq {a b : Nat} (h : b ≤ a) (ha : a < 2 ^ 64) : sizeSub a b = a - b := by
  unfold sizeSub
  omega

section

variable {maxIps : Nat} (ntop : InetNtop) (msg : DnsMessage) (qtype : BitVec 16)

/-- A message is either a reply whose records are walked, or leaves the addresses alone. -/
theorem dnsParseResponse_cases {query : List Byte} (hquery : 12 ≤ query.length) (a : Addresses maxIps) :
    (∃ ancount pos, IsReply msg query ancount pos ∧
      dnsParseResponse ntop msg qtype query a = dnsParseAnswers ntop msg qtype ancount pos false a) ∨
    ((∀ ancount pos, ¬ IsReply msg query ancount pos) ∧
      ∃ r, r ≠ .addresses ∧ dnsParseResponse ntop msg qtype query a = some (r, a)) := by
  have hid0 : query[0]? = some query[0] := List.getElem?_eq_getElem (by omega)
  have hid1 : query[1]? = some query[1] := List.getElem?_eq_getElem (by omega)
  rw [dnsParseResponse]
  by_cases hlen : msg.length < 12
  · exact .inr ⟨fun _ _ h => absurd h.header (by omega), .malformed, by decide, if_pos hlen⟩
  rw [if_neg hlen, hid0, hid1]
  obtain ⟨b0, hb0⟩ := DnsMessage.byte_of_lt (show 0 < msg.length by omega)
  obtain ⟨b1, hb1⟩ := DnsMessage.byte_of_lt (show 1 < msg.length by omega)
  obtain ⟨flags, hflags⟩ := DnsMessage.byte_of_lt (show 2 < msg.length by omega)
  obtain ⟨rcode, hrcode⟩ := DnsMessage.byte_of_lt (show 3 < msg.length by omega)
  obtain ⟨qdcount, hqdcount⟩ := DnsMessage.field_of_lt (show 4 + 1 < msg.length by omega)
  obtain ⟨ancount, hancount⟩ := DnsMessage.field_of_lt (show 6 + 1 < msg.length by omega)
  simp only [hb0, hb1, hflags, hqdcount, hancount, hrcode, Option.bind_eq_bind, Option.bind_some]
  by_cases hid : b0 ≠ query[0] ∨ b1 ≠ query[1]
  · refine .inr ⟨fun _ _ h => ?_, .malformed, by decide, if_pos hid⟩
    obtain ⟨h0, h1⟩ := h.id
    rw [hb0, hid0, Option.some.injEq] at h0
    rw [hb1, hid1, Option.some.injEq] at h1
    exact hid.elim (fun h => h h0) (fun h => h h1)
  rw [if_neg hid]
  by_cases hqr : flags &&& 0x80 = 0
  · refine .inr ⟨fun _ _ h => ?_, .malformed, by decide, if_pos hqr⟩
    obtain ⟨_, hf, hset, -⟩ := h.flags
    rw [hflags, Option.some.injEq] at hf
    exact hset (hf ▸ hqr)
  rw [if_neg hqr]
  by_cases htc : flags &&& 0x02 ≠ 0
  · refine .inr ⟨fun _ _ h => ?_, .truncated, by decide, if_pos htc⟩
    obtain ⟨_, hf, -, hclear⟩ := h.flags
    rw [hflags, Option.some.injEq] at hf
    exact htc (hf ▸ hclear)
  rw [if_neg htc]
  by_cases hqd : qdcount ≠ 1
  · refine .inr ⟨fun _ _ h => ?_, .malformed, by decide, if_pos hqd⟩
    have hone := h.qdcount
    rw [hqdcount, Option.some.injEq] at hone
    exact hqd hone
  rw [if_neg hqd]
  by_cases hfits : msg.length < query.length
  · exact .inr ⟨fun _ _ h => absurd h.fits (by omega), .malformed, by decide, if_pos hfits⟩
  rw [if_neg hfits]
  have hsize : sizeSub query.length 12 = query.length - 12 := by
    have := msg.length_lt
    rw [DnsMessage.length] at hfits
    exact sizeSub_eq hquery (by omega)
  have hechoed : loadBytes msg.bytes 12 (query.length - 12) =
      some ((msg.bytes.drop 12).take (query.length - 12)) :=
    if_pos (show 12 + (query.length - 12) ≤ msg.bytes.length by rw [DnsMessage.length] at hfits; omega)
  have hquestion : loadBytes query 12 (query.length - 12) = some (query.drop 12) := by
    rw [loadBytes, if_pos (by omega), List.take_of_length_le (by simp)]
  have hholds : msg.HoldsAt 12 (query.drop 12) ↔
      (msg.bytes.drop 12).take (query.length - 12) = query.drop 12 := by
    rw [DnsMessage.HoldsAt, List.length_drop]
  simp only [hsize, hechoed, hquestion, Option.bind_some]
  by_cases hecho : (msg.bytes.drop 12).take (query.length - 12) ≠ query.drop 12
  · exact .inr ⟨fun _ _ h => hecho (hholds.mp h.question), .malformed, by decide, if_pos hecho⟩
  rw [if_neg hecho]
  by_cases herr : rcode &&& 0x0F ≠ 0
  · refine .inr ⟨fun _ _ h => ?_, .noRecord, by decide, if_pos herr⟩
    obtain ⟨_, hr, hclear⟩ := h.rcode
    rw [hrcode, Option.some.injEq] at hr
    exact herr (hr ▸ hclear)
  rw [if_neg herr]
  cases hskip : dnsSkipName msg 12 with
  | none => exact absurd hskip (dnsSkipName_ne_none msg 12)
  | some skipped =>
    cases skipped with
    | none =>
      refine .inr ⟨fun _ _ h => ?_, .malformed, by decide, rfl⟩
      obtain ⟨_, hp, -⟩ := h.answers
      rw [hskip] at hp
      exact absurd hp (by simp)
    | some p =>
      simp only [Option.bind_some]
      by_cases hshort : msg.length < p + 4
      · refine .inr ⟨fun _ _ h => ?_, .malformed, by decide, if_pos hshort⟩
        obtain ⟨_, hp, hpos, hle⟩ := h.answers
        rw [hskip, Option.some.injEq, Option.some.injEq] at hp
        omega
      · refine .inl ⟨ancount.toNat, p + 4, ?_, if_neg hshort⟩
        simp only [ne_eq, not_or, not_not] at hid hqd htc hecho herr
        exact ⟨by omega, ⟨by rw [hb0, hid0, hid.1], by rw [hb1, hid1, hid.2]⟩, ⟨flags, hflags, hqr, htc⟩,
          ⟨rcode, hrcode, herr⟩, by rw [hqdcount, hqd], ⟨ancount, hancount, rfl⟩, by omega,
          hholds.mpr hecho, ⟨p, hskip, rfl, by omega⟩⟩

end

/-! ## Answers in wire format -/

/-- A resource record: an address of class IN has the length of its type. -/
structure ResourceRecord where
  name : DnsName
  rtype : BitVec 16
  rclass : BitVec 16
  ttl : BitVec 32
  rdata : List Byte
  rdata_lt : rdata.length < 2 ^ 16
  a_length : rclass = 1 → rtype = dnsQtypeA → rdata.length = 4
  aaaa_length : rclass = 1 → rtype = dnsQtypeAAAA → rdata.length = 16

namespace ResourceRecord

def bytes (r : ResourceRecord) : List Byte :=
  r.name.bytes ++ (be16enc r.rtype ++ (be16enc r.rclass ++ (be32enc r.ttl ++
    (be16enc (BitVec.ofNat 16 r.rdata.length) ++ r.rdata))))

/-- The record as the parser sees it. -/
def record (r : ResourceRecord) : DnsRecord := ⟨r.rtype, r.rclass, r.rdata⟩

theorem length_bytes (r : ResourceRecord) : r.bytes.length = r.name.bytes.length + 10 + r.rdata.length := by
  simp only [bytes, List.length_append, be16enc, be32enc_length, List.length_cons, List.length_nil]
  omega

end ResourceRecord

theorem dnsRecordAt_of_holdsAt {msg : DnsMessage} {off : Nat} (r : ResourceRecord)
    (h : msg.HoldsAt off r.bytes) : dnsRecordAt msg off = some (r.record, off + r.bytes.length) := by
  obtain ⟨hname, h⟩ := DnsMessage.holdsAt_append h
  obtain ⟨htype, h⟩ := DnsMessage.holdsAt_append h
  obtain ⟨hclass, h⟩ := DnsMessage.holdsAt_append h
  obtain ⟨-, h⟩ := DnsMessage.holdsAt_append h
  obtain ⟨hrdlen, hrdata⟩ := DnsMessage.holdsAt_append h
  have hle := hrdlen.length_le (by simp [be16enc])
  have hrdlen' : (BitVec.ofNat 16 r.rdata.length).toNat = r.rdata.length := by
    rw [BitVec.toNat_ofNat, Nat.mod_eq_of_lt r.rdata_lt]
  have hload := hrdata.loadBytes hle
  rw [dnsRecordAt_of_skip msg (dnsSkipName_of_holdsAt r.name hname), htype.field]
  simp only [be32enc_length, show ∀ x, (be16enc x).length = 2 from fun _ => rfl, Nat.add_assoc,
    Nat.reduceAdd] at hclass hrdlen hload
  simp only [Option.bind_some, Nat.add_assoc, hclass.field, hrdlen.field, hrdlen', hload, r.length_bytes]
  rfl

/-- Records one behind the other decode to themselves. -/
theorem dnsRecords_of_holdsAt {msg : DnsMessage} {off : Nat} (records : List ResourceRecord)
    (h : msg.HoldsAt off (records.flatMap ResourceRecord.bytes)) :
    dnsRecords msg records.length off = (records.map ResourceRecord.record, false) := by
  induction records generalizing off with
  | nil => rfl
  | cons r records ih =>
    rw [List.flatMap_cons] at h
    obtain ⟨hr, hrest⟩ := DnsMessage.holdsAt_append h
    rw [List.length_cons, dnsRecords, dnsRecordAt_of_holdsAt r hr]
    simp only [ih hrest]
    rfl

/-- An answer without an error: QR set, TC and RCODE clear, any counts and bytes of the further
sections. -/
structure DnsAnswer where
  flags : Byte
  qr : flags &&& 0x80 ≠ 0
  tc : flags &&& 0x02 = 0
  rcode : Byte
  noError : rcode &&& 0x0F = 0
  answers : List ResourceRecord
  answers_lt : answers.length < 2 ^ 16
  nscount : BitVec 16
  arcount : BitVec 16
  further : List Byte

namespace DnsAnswer

/-- The answer to a query on the wire. -/
def bytes (answer : DnsAnswer) (query : List Byte) : List Byte :=
  query.take 2 ++ ([answer.flags] ++ ([answer.rcode] ++ (be16enc 1 ++
    (be16enc (BitVec.ofNat 16 answer.answers.length) ++ ((be16enc answer.nscount ++ be16enc answer.arcount) ++
      (query.drop 12 ++ (answer.answers.flatMap ResourceRecord.bytes ++ answer.further)))))))

end DnsAnswer

theorem isReply_of_bytes {msg : DnsMessage} {host : List Byte} (hhost : EncodableHost host)
    {queryId qtype : BitVec 16} {answer : DnsAnswer}
    (hmsg : msg.bytes = answer.bytes (dnsQuery host queryId qtype)) :
    IsReply msg (dnsQuery host queryId qtype) answer.answers.length (host.length + 18) ∧
      dnsRecords msg answer.answers.length (host.length + 18) =
        (answer.answers.map ResourceRecord.record, false) := by
  have htake : (dnsQuery host queryId qtype).take 2 = be16enc queryId := rfl
  have hdrop : (dnsQuery host queryId qtype).drop 12 =
      qnameBytes host ++ (be16enc qtype ++ [0x00, 0x01]) := rfl
  have hquery := dnsQuery_length host queryId qtype
  have hall : msg.HoldsAt 0 (answer.bytes (dnsQuery host queryId qtype)) := by
    rw [DnsMessage.HoldsAt, hmsg, List.drop_zero, List.take_length]
  obtain ⟨hid, h⟩ := DnsMessage.holdsAt_append hall
  obtain ⟨hflags, h⟩ := DnsMessage.holdsAt_append h
  obtain ⟨hrcode, h⟩ := DnsMessage.holdsAt_append h
  obtain ⟨hqdcount, h⟩ := DnsMessage.holdsAt_append h
  obtain ⟨hancount, h⟩ := DnsMessage.holdsAt_append h
  obtain ⟨-, h⟩ := DnsMessage.holdsAt_append h
  obtain ⟨hquestion, h⟩ := DnsMessage.holdsAt_append h
  obtain ⟨hrecords, -⟩ := DnsMessage.holdsAt_append h
  simp only [htake, show ∀ x, (be16enc x).length = 2 from fun _ => rfl, List.length_singleton,
    Nat.zero_add, Nat.reduceAdd] at hid hflags hrcode hqdcount
  simp only [htake, show ∀ x, (be16enc x).length = 2 from fun _ => rfl, List.length_append,
    List.length_singleton, List.length_drop, hquery, Nat.zero_add, Nat.reduceAdd] at hancount hquestion hrecords
  rw [show 12 + (host.length + 18 - 12) = host.length + 18 by omega] at hrecords
  have hfits : host.length + 18 ≤ msg.length := by
    have hle := hquestion.length_le (by rw [hdrop]; simp [qnameBytes])
    rw [List.length_drop, hquery] at hle
    omega
  refine ⟨?_, dnsRecords_of_holdsAt _ hrecords⟩
  have hid1 : msg.HoldsAt 1 [queryId.extractLsb' 0 8] :=
    (@DnsMessage.holdsAt_append msg 0 [queryId.extractLsb' 8 8] _ hid).2
  have hname : msg.HoldsAt 12 (qnameBytes host) := by
    rw [hdrop] at hquestion
    exact (DnsMessage.holdsAt_append hquestion).1
  have hskip := dnsSkipName_of_holdsAt ⟨host.splitOn dnsDot, hhost.2, .root⟩ hname
  have hnameLen : (DnsName.bytes ⟨host.splitOn dnsDot, hhost.2, .root⟩).length = host.length + 2 :=
    qnameBytes_length host
  rw [hnameLen] at hskip
  exact {
    header := by omega
    id := ⟨hid.byte, hid1.byte⟩
    flags := ⟨answer.flags, hflags.byte, answer.qr, answer.tc⟩
    rcode := ⟨answer.rcode, hrcode.byte, answer.noError⟩
    qdcount := hqdcount.field
    ancount := ⟨_, hancount.field, by rw [BitVec.toNat_ofNat, Nat.mod_eq_of_lt answer.answers_lt]⟩
    fits := by omega
    question := hquestion
    answers := ⟨_, hskip, by omega, hfits⟩ }

/-- The two types of address that are asked for. -/
inductive AddressType where
  | a
  | aaaa
  deriving DecidableEq, Repr

def AddressType.qtype : AddressType → BitVec 16
  | a => dnsQtypeA
  | aaaa => dnsQtypeAAAA

/-- A class-IN record of the queried type. -/
def ResourceRecord.Queried (q : AddressType) (r : ResourceRecord) : Prop := r.rclass = 1 ∧ r.rtype = q.qtype

instance (q : AddressType) : DecidablePred (ResourceRecord.Queried q) :=
  fun _ => inferInstanceAs (Decidable (_ ∧ _))

theorem ResourceRecord.isAddress_iff (q : AddressType) (r : ResourceRecord) :
    r.record.IsAddress q.qtype ↔ r.Queried q := by
  cases q with
  | a =>
    constructor
    · rintro ⟨hclass, ⟨-, htype, -⟩ | ⟨hq, -⟩⟩
      · exact ⟨hclass, htype⟩
      · exact absurd hq (by decide)
    · rintro ⟨hclass, htype⟩
      exact ⟨hclass, .inl ⟨rfl, htype, r.a_length hclass htype⟩⟩
  | aaaa =>
    constructor
    · rintro ⟨hclass, ⟨hq, -⟩ | ⟨-, htype, -⟩⟩
      · exact absurd hq (by decide)
      · exact ⟨hclass, htype⟩
    · rintro ⟨hclass, htype⟩
      exact ⟨hclass, .inr ⟨rfl, htype, r.aaaa_length hclass htype⟩⟩

section

variable {maxIps : Nat} (ntop : InetNtop)

/-- The answers of a well-formed reply, of the type that was asked for, end up in the rows. -/
theorem dnsParseResponse_of_bytes {msg : DnsMessage} {host : List Byte} (hhost : EncodableHost host)
    {queryId : BitVec 16} {q : AddressType} {answer : DnsAnswer}
    (hmsg : msg.bytes = answer.bytes (dnsQuery host queryId q.qtype)) (a : Addresses maxIps) :
    ∃ r a', dnsParseResponse ntop msg q.qtype (dnsQuery host queryId q.qtype) a = some (r, a') ∧
      a'.listed = a.listed ++ ((answer.answers.filter fun r => r.Queried q).map fun r =>
        ntop.recordText r.record).take (maxIps - a.count) := by
  obtain ⟨hreply, hrecords⟩ := isReply_of_bytes hhost hmsg
  have htexts : dnsTexts ntop msg q.qtype answer.answers.length (host.length + 18) =
      (answer.answers.filter fun r => r.Queried q).map fun r => ntop.recordText r.record := by
    rw [dnsTexts, hrecords, List.filter_map, List.map_map]
    congr 1
    apply List.filter_congr
    intro r _
    simp only [Function.comp, ResourceRecord.isAddress_iff]
  obtain ⟨ancount, pos, hreply', heq⟩ | ⟨hnone, -⟩ :=
    dnsParseResponse_cases ntop msg q.qtype (show 12 ≤ (dnsQuery host queryId q.qtype).length by
      rw [dnsQuery_length]
      omega) a
  · obtain ⟨rfl, rfl⟩ := hreply'.unique hreply
    rw [heq, dnsParseAnswers_eq, htexts]
    exact ⟨_, _, rfl, Addresses.listed_appendAll _ a⟩
  · exact absurd hreply (hnone _ _)

/-- The parser never reads outside the message, and stops at `max_ips`. -/
theorem dnsParseResponse_total (msg : DnsMessage) (qtype : BitVec 16) {query : List Byte}
    (hquery : 12 ≤ query.length) (a : Addresses maxIps) :
    ∃ r a', dnsParseResponse ntop msg qtype query a = some (r, a') ∧ a'.count ≤ max a.count maxIps := by
  obtain ⟨ancount, pos, -, heq⟩ | ⟨-, r, -, heq⟩ := dnsParseResponse_cases ntop msg qtype hquery a
  · rw [heq, dnsParseAnswers_eq]
    refine ⟨_, _, rfl, ?_⟩
    rw [Addresses.count_appendAll]
    omega
  · exact ⟨r, a, heq, Nat.le_max_left _ _⟩

end

/-- The codec: an encodable host is written into the query buffer without leaving it, as a name that the
skip walks to its end; every message is parsed with reads inside it and within `max_ips`; and a
well-formed answer gives its class-IN records of the queried type, in order. -/
theorem dns_codec (ntop : InetNtop) :
    (∀ (host : List Byte) (queryId qtype : BitVec 16),
      (EncodableHost host ∧ ∃ buf,
        dnsBuildQuery (Region.malloc Byte dnsMaxQuery) host queryId qtype =
          .ok (buf, (dnsQuery host queryId qtype).length) ∧
        buf.Filled (dnsQuery host queryId qtype) ∧ buf.length = dnsMaxQuery ∧
        ∀ (msg : DnsMessage) (off : Nat), msg.HoldsAt off (qnameBytes host) →
          dnsSkipName msg off = some (some (off + (qnameBytes host).length))) ∨
      (¬ EncodableHost host ∧
        dnsBuildQuery (Region.malloc Byte dnsMaxQuery) host queryId qtype = .error .refused)) ∧
    (∀ (msg : DnsMessage) (query : List Byte) (qtype : BitVec 16) (maxIps : Nat) (a : Addresses maxIps),
      12 ≤ query.length →
        ∃ r a', dnsParseResponse ntop msg qtype query a = some (r, a') ∧ a'.count ≤ max a.count maxIps) ∧
    (∀ (host : List Byte) (queryId : BitVec 16) (q : AddressType) (answer : DnsAnswer) (msg : DnsMessage)
        (maxIps : Nat) (a : Addresses maxIps),
      EncodableHost host → msg.bytes = answer.bytes (dnsQuery host queryId q.qtype) →
        ∃ r a', dnsParseResponse ntop msg q.qtype (dnsQuery host queryId q.qtype) a = some (r, a') ∧
          a'.listed = a.listed ++ ((answer.answers.filter fun r => r.Queried q).map fun r =>
            ntop.recordText r.record).take (maxIps - a.count)) := by
  refine ⟨?_, ?_, ?_⟩
  · intro host queryId qtype
    obtain ⟨hhost, buf, hbuild, hfilled, hlen⟩ | hrefused := dnsBuildQuery_spec host queryId qtype
    · refine .inl ⟨hhost, buf, hbuild, hfilled, hlen, ?_⟩
      intro msg off hholds
      exact dnsSkipName_of_holdsAt ⟨host.splitOn dnsDot, hhost.2, .root⟩ hholds
    · exact .inr hrefused
  · intro msg query qtype maxIps a hquery
    exact dnsParseResponse_total ntop msg qtype hquery a
  · intro host queryId q answer msg maxIps a hhost hmsg
    exact dnsParseResponse_of_bytes ntop hhost hmsg a

/-- `inet_ntop` with every group of an IPv6 address written out. -/
def plainNtop : InetNtop where
  text family address _ :=
    match family with
    | .inet => some (".".intercalate (address.map fun b => toString b.toNat))
    | .inet6 => some (":".intercalate ((List.range 8).map fun i => bin2hex ((address.drop (2 * i)).take 2)))
  inet_fits _ _ _ _ := ⟨_, rfl⟩
  inet6_fits _ _ _ _ := ⟨_, rfl⟩

/-- An alias and an address for `ab.c`, both under a compressed name. -/
def aliasedAnswer : DnsAnswer where
  flags := 0x81
  qr := by decide
  tc := by decide
  rcode := 0x80
  noError := by decide
  answers :=
    [⟨⟨[], by decide, .pointer 12⟩, 5, 1, 60, [1, 100, 0], by decide, by decide, by decide⟩,
      ⟨⟨[[100]], by decide, .pointer 15⟩, 1, 1, 60, [10, 0, 0, 1], by decide, by decide, by decide⟩]
  answers_lt := by decide
  nscount := 0
  arcount := 0
  further := []

theorem dns_codec_aliased :
    EncodableHost [97, 98, 46, 99] ∧
    ∃ r a', dnsParseResponse plainNtop
        ⟨aliasedAnswer.bytes (dnsQuery [97, 98, 46, 99] 7 dnsQtypeA), by decide⟩ dnsQtypeA
        (dnsQuery [97, 98, 46, 99] 7 dnsQtypeA) (⟨Vector.replicate 8 "", 0⟩ : Addresses 8) = some (r, a') ∧
      a'.listed = [plainNtop.recordText ⟨1, 1, [10, 0, 0, 1]⟩] := by
  have hhost : EncodableHost [97, 98, 46, 99] := by decide
  obtain ⟨r, a', hparse, hlisted⟩ := (dns_codec plainNtop).2.2 [97, 98, 46, 99] 7 .a aliasedAnswer
    ⟨aliasedAnswer.bytes (dnsQuery [97, 98, 46, 99] 7 dnsQtypeA), by decide⟩ 8
    ⟨Vector.replicate 8 "", 0⟩ hhost rfl
  exact ⟨hhost, r, a', hparse, by rw [hlisted]; rfl⟩

end PrimoMiner
