import PrimoMiner.DnsReply

/-!
# Which replies the addresses come from

`dns_query_servers` asks one server after the other until one of them yields an address.  The record loop
appends while it walks, so an address that stands before a malformed record is in the rows already when
that record is met, and is kept without a word when the rows are full before it.  Every other reply is used
whole or not at all.
-/

namespace PrimoMiner

/-- What one server has to say: whether budget is left when its turn comes, and what arrives over UDP and
over TCP. -/
structure DnsExchange where
  budget : Bool
  udp : Option DnsMessage
  tcp : Option DnsMessage

def DnsExchange.Reply (e : DnsExchange) (msg : DnsMessage) : Prop := e.udp = some msg ∨ e.tcp = some msg

section

variable {maxIps : Nat} (ntop : InetNtop) (qtype : BitVec 16) (query : List Byte)

/-- `parsed`, with `-1` for an exchange that failed. -/
def dnsParseExchange (reply : Option DnsMessage) (a : Addresses maxIps) :
    Option (DnsParsed × Addresses maxIps) :=
  match reply with
  | none => some (.malformed, a)
  | some msg => dnsParseResponse ntop msg qtype query a

/-- The loop over the servers. -/
def dnsAskServers : List DnsExchange → Addresses maxIps → Option (Addresses maxIps)
  | [], a => some a
  | e :: exchanges, a =>
    if a.count < maxIps then
      if e.budget = false then some a
      else do
        let (parsed, a) ← dnsParseExchange ntop qtype query e.udp a
        let (parsed, a) ←
          if parsed = .truncated then dnsParseExchange ntop qtype query e.tcp a else some (parsed, a)
        if parsed = .addresses then some a else dnsAskServers exchanges a
    else some a

end

/-- `dns_query_servers`, with the transaction id as it was read. -/
def dnsQueryServers {maxIps : Nat} (ntop : InetNtop) (exchanges : List DnsExchange) (host : List Byte)
    (randomId qtype : BitVec 16) (a : Addresses maxIps) : Option (Addresses maxIps) :=
  let queryId := if randomId = 0 then 0x5150 else randomId
  match dnsBuildQuery (Region.malloc Byte dnsMaxQuery) host queryId qtype with
  | .error .refused => some a
  | .error .badAccess => none
  | .ok (buf, queryLen) => do
    let query ← buf.load 0 queryLen
    dnsAskServers ntop qtype query exchanges a

/-- The query that goes out. -/
def dnsSentQuery (host : List Byte) (randomId qtype : BitVec 16) : List Byte :=
  dnsQuery host (if randomId = 0 then 0x5150 else randomId) qtype

/-- A reply that answers the query has a malformed record, at least one address record of the queried type
stands before it, and a row is free. -/
def AddressBeforeMalformed (msg : DnsMessage) (query : List Byte) (qtype : BitVec 16) (room : Nat) : Prop :=
  ∃ ancount pos, IsReply msg query ancount pos ∧ (dnsRecords msg ancount pos).2 = true ∧
    0 < ((dnsRecords msg ancount pos).1.filter fun r => r.IsAddress qtype).length ∧ 0 < room

/-- `1` exactly if an address was appended, nothing touched otherwise, and nothing touched by a reply with
a malformed record, whether or not the walk comes to it. -/
def UsedWhole {maxIps : Nat} (msg : DnsMessage) (query : List Byte) (r : DnsParsed)
    (a a' : Addresses maxIps) : Prop :=
  (r = .addresses ↔ a.count < a'.count) ∧ (r ≠ .addresses → a' = a) ∧
    ∀ ancount pos, IsReply msg query ancount pos → (dnsRecords msg ancount pos).2 = true → a' = a

/-- The addresses of `a'` beyond `a` are those of one reply, which has no malformed record. -/
def FromReply {maxIps : Nat} (ntop : InetNtop) (msg : DnsMessage) (query : List Byte) (qtype : BitVec 16)
    (a a' : Addresses maxIps) : Prop :=
  ∃ ancount pos, IsReply msg query ancount pos ∧ (dnsRecords msg ancount pos).2 = false ∧
    a' = a.appendAll (dnsTexts ntop msg qtype ancount pos)

section

variable {maxIps : Nat} (ntop : InetNtop)

theorem dnsOutcome_eq_addresses (cut : Bool) (texts room : Nat) :
    dnsOutcome false cut texts room = .addresses ↔ 0 < min texts room ∧ ¬ (cut = true ∧ texts < room) := by
  unfold dnsOutcome
  split
  · simp_all
  · split <;> simp_all

/-- What the record loop leaves behind, by what it saw. -/
theorem usedWhole_iff {msg : DnsMessage} {query : List Byte} {ancount pos : Nat}
    (hreply : IsReply msg query ancount pos) (texts : List String) (a : Addresses maxIps) :
    UsedWhole msg query (dnsOutcome false (dnsRecords msg ancount pos).2 texts.length (maxIps - a.count)) a
        (a.appendAll texts) ↔
      ¬ ((dnsRecords msg ancount pos).2 = true ∧ 0 < texts.length ∧ 0 < maxIps - a.count) := by
  unfold UsedWhole
  rw [ne_eq, dnsOutcome_eq_addresses, Addresses.count_appendAll]
  constructor
  · rintro ⟨-, -, hcut⟩ ⟨hbad, hpos, hroom⟩
    have hsame := congrArg Addresses.count (hcut ancount pos hreply hbad)
    rw [Addresses.count_appendAll] at hsame
    omega
  · intro hcond
    -- no text or no row: nothing is appended
    have hkeep : ¬ 0 < min texts.length (maxIps - a.count) → a.appendAll texts = a := by
      intro hmin
      by_cases hroom : a.count < maxIps
      · rw [List.eq_nil_of_length_eq_zero (show texts.length = 0 by omega)]
        rfl
      · exact Addresses.appendAll_full hroom texts
    refine ⟨⟨fun h => by omega, fun h => ⟨by omega, fun hbad => ?_⟩⟩, fun hnot => hkeep fun hpos => ?_, ?_⟩
    · exact hcond ⟨hbad.1, by omega, by omega⟩
    · exact hnot ⟨hpos, fun hbad => hcond ⟨hbad.1, by omega, by omega⟩⟩
    · intro ancount' pos' hreply' hbad
      obtain ⟨rfl, rfl⟩ := hreply.unique hreply'
      exact hkeep fun hpos => hcond ⟨hbad, by omega, by omega⟩

/-- A message is used whole unless it has a malformed record and an address before it. -/
theorem dnsParseResponse_usedWhole_iff (msg : DnsMessage) (qtype : BitVec 16) {query : List Byte}
    (hquery : 12 ≤ query.length) (a : Addresses maxIps) :
    ∃ r a', dnsParseResponse ntop msg qtype query a = some (r, a') ∧
      (UsedWhole msg query r a a' ↔ ¬ AddressBeforeMalformed msg query qtype (maxIps - a.count)) ∧
      (r = .addresses → ¬ AddressBeforeMalformed msg query qtype (maxIps - a.count) →
        FromReply ntop msg query qtype a a') := by
  obtain ⟨ancount, pos, hreply, heq⟩ | ⟨hnone, r, hr, heq⟩ :=
    dnsParseResponse_cases ntop msg qtype hquery a
  · have htexts : (dnsTexts ntop msg qtype ancount pos).length =
        ((dnsRecords msg ancount pos).1.filter fun r => r.IsAddress qtype).length := List.length_map ..
    have hcond : AddressBeforeMalformed msg query qtype (maxIps - a.count) ↔
        (dnsRecords msg ancount pos).2 = true ∧ 0 < (dnsTexts ntop msg qtype ancount pos).length ∧
          0 < maxIps - a.count := by
      rw [htexts]
      constructor
      · rintro ⟨ancount', pos', hreply', h⟩
        obtain ⟨rfl, rfl⟩ := hreply.unique hreply'
        exact h
      · intro h
        exact ⟨ancount, pos, hreply, h⟩
    rw [heq, dnsParseAnswers_eq, hcond]
    refine ⟨_, _, rfl, usedWhole_iff hreply (dnsTexts ntop msg qtype ancount pos) a, ?_⟩
    intro haddr hnot
    obtain ⟨hpos, -⟩ := (dnsOutcome_eq_addresses ..).mp haddr
    refine ⟨ancount, pos, hreply, ?_, rfl⟩
    rw [← Bool.not_eq_true]
    exact fun hbad => hnot ⟨hbad, by omega, by omega⟩
  · refine ⟨r, a, heq, ?_, fun h => absurd h hr⟩
    constructor
    · rintro - ⟨ancount, pos, hreply, -⟩
      exact hnone ancount pos hreply
    · intro _
      exact ⟨⟨fun h => absurd h hr, fun h => absurd h (Nat.lt_irrefl _)⟩, fun _ => rfl, fun _ _ _ _ => rfl⟩

/-- The loop over the servers, when no reply leaves an address behind without being used. -/
theorem dnsAskServers_spec (qtype : BitVec 16) {query : List Byte} (hquery : 12 ≤ query.length)
    (exchanges : List DnsExchange) (a : Addresses maxIps)
    (hwhole : ∀ e ∈ exchanges, ∀ msg, e.Reply msg →
      ¬ AddressBeforeMalformed msg query qtype (maxIps - a.count)) :
    ∃ a', dnsAskServers ntop qtype query exchanges a = some a' ∧
      (a' = a ∨ ∃ e ∈ exchanges, ∃ msg, e.Reply msg ∧ FromReply ntop msg query qtype a a') := by
  -- one exchange: the addresses are untouched, or those of its reply
  have hone : ∀ e ∈ exchanges, ∀ reply, (reply = e.udp ∨ reply = e.tcp) →
      ∃ r a', dnsParseExchange ntop qtype query reply a = some (r, a') ∧ (r ≠ .addresses → a' = a) ∧
        (r = .addresses → ∃ msg, e.Reply msg ∧ FromReply ntop msg query qtype a a') := by
    intro e he reply hreply
    cases reply with
    | none => exact ⟨.malformed, a, rfl, fun _ => rfl, fun h => absurd h (by decide)⟩
    | some msg =>
      have hmsg : e.Reply msg := hreply.imp Eq.symm Eq.symm
      obtain ⟨r, a', hparse, hiff, hfrom⟩ := dnsParseResponse_usedWhole_iff ntop msg qtype hquery a
      have hused := hiff.mpr (hwhole e he msg hmsg)
      exact ⟨r, a', hparse, hused.2.1, fun h => ⟨msg, hmsg, hfrom h (hwhole e he msg hmsg)⟩⟩
  induction exchanges with
  | nil => exact ⟨a, rfl, .inl rfl⟩
  | cons e exchanges ih =>
    rw [dnsAskServers]
    by_cases hroom : a.count < maxIps
    · rw [if_pos hroom]
      by_cases hbudget : e.budget = false
      · exact ⟨a, if_pos hbudget, .inl rfl⟩
      · rw [if_neg hbudget]
        have hrest := ih (fun e' he' => hwhole e' (List.mem_cons_of_mem _ he'))
          (fun e' he' => hone e' (List.mem_cons_of_mem _ he'))
        obtain ⟨r, a₁, hparse, hkeep, hfrom⟩ := hone e List.mem_cons_self e.udp (.inl rfl)
        have hdone : ∀ (r : DnsParsed) (a₁ : Addresses maxIps), (r ≠ .addresses → a₁ = a) →
            (r = .addresses → ∃ msg, e.Reply msg ∧ FromReply ntop msg query qtype a a₁) →
            ∃ a', (if r = .addresses then some a₁ else dnsAskServers ntop qtype query exchanges a₁) =
                some a' ∧
              (a' = a ∨ ∃ e' ∈ e :: exchanges, ∃ msg, e'.Reply msg ∧
                FromReply ntop msg query qtype a a') := by
          intro r a₁ hkeep hfrom
          by_cases hr : r = .addresses
          · obtain ⟨msg, hmsg, hreply⟩ := hfrom hr
            exact ⟨a₁, if_pos hr, .inr ⟨e, List.mem_cons_self, msg, hmsg, hreply⟩⟩
          · obtain ⟨a', hask, hfin⟩ := hrest
            rw [if_neg hr, hkeep hr]
            refine ⟨a', hask, hfin.imp id ?_⟩
            rintro ⟨e', he', hmsg⟩
            exact ⟨e', List.mem_cons_of_mem _ he', hmsg⟩
        rw [hparse]
        simp only [Option.bind_eq_bind, Option.bind_some]
        by_cases htrunc : r = .truncated
        · obtain ⟨r₂, a₂, hparse₂, hkeep₂, hfrom₂⟩ := hone e List.mem_cons_self e.tcp (.inr rfl)
          rw [if_pos htrunc, hkeep (by rw [htrunc]; decide), hparse₂]
          exact hdone r₂ a₂ hkeep₂ hfrom₂
        · rw [if_neg htrunc]
          exact hdone r a₁ hkeep hfrom
    · exact ⟨a, if_neg hroom, .inl rfl⟩

/-- The whole walk over the servers. -/
theorem dnsQueryServers_spec (exchanges : List DnsExchange) (host : List Byte) (randomId qtype : BitVec 16)
    (a : Addresses maxIps)
    (hwhole : ∀ e ∈ exchanges, ∀ msg, e.Reply msg →
      ¬ AddressBeforeMalformed msg (dnsSentQuery host randomId qtype) qtype (maxIps - a.count)) :
    ∃ a', dnsQueryServers ntop exchanges host randomId qtype a = some a' ∧
      (a' = a ∨ ∃ e ∈ exchanges, ∃ msg, e.Reply msg ∧
        FromReply ntop msg (dnsSentQuery host randomId qtype) qtype a a') := by
  unfold dnsQueryServers
  obtain ⟨-, buf, hbuild, hfilled, -⟩ | ⟨-, hbuild⟩ :=
    dnsBuildQuery_spec host (if randomId = 0 then 0x5150 else randomId) qtype
  · have hload : buf.load 0 (dnsSentQuery host randomId qtype).length =
        some (dnsSentQuery host randomId qtype) := by
      have hfilled' : buf.Filled ([] ++ dnsSentQuery host randomId qtype ++ []) := by
        rw [List.nil_append, List.append_nil]
        exact hfilled
      exact hfilled'.load
    simp only [hbuild]
    rw [show buf.load 0 (dnsQuery host (if randomId = 0 then 0x5150 else randomId) qtype).length = _ from hload]
    exact dnsAskServers_spec ntop qtype (show 12 ≤ (dnsSentQuery host randomId qtype).length by
      rw [dnsSentQuery, dnsQuery_length]
      omega) exchanges a hwhole
  · simp only [hbuild]
    exact ⟨a, rfl, .inl rfl⟩

end

/-- A reply is used whole or not at all unless a malformed record stands behind an address and a row is
free; where no reply is of that kind, the servers yield the addresses of a single well-formed one. -/
theorem dns_reply_used_whole_iff (ntop : InetNtop) (maxIps : Nat) (a : Addresses maxIps) (qtype : BitVec 16) :
    (∀ (msg : DnsMessage) (query : List Byte), 12 ≤ query.length →
      ∃ r a', dnsParseResponse ntop msg qtype query a = some (r, a') ∧
        (UsedWhole msg query r a a' ↔ ¬ AddressBeforeMalformed msg query qtype (maxIps - a.count))) ∧
    (∀ (exchanges : List DnsExchange) (host : List Byte) (randomId : BitVec 16),
      (∀ e ∈ exchanges, ∀ msg, e.Reply msg →
        ¬ AddressBeforeMalformed msg (dnsSentQuery host randomId qtype) qtype (maxIps - a.count)) →
      ∃ a', dnsQueryServers ntop exchanges host randomId qtype a = some a' ∧
        (a' = a ∨ ∃ e ∈ exchanges, ∃ msg, e.Reply msg ∧
          FromReply ntop msg (dnsSentQuery host randomId qtype) qtype a a')) := by
  constructor
  · intro msg query hquery
    obtain ⟨r, a', hparse, hiff, -⟩ := dnsParseResponse_usedWhole_iff ntop msg qtype hquery a
    exact ⟨r, a', hparse, hiff⟩
  · intro exchanges host randomId hwhole
    exact dnsQueryServers_spec ntop exchanges host randomId qtype a hwhole

/-- A reply for `ab` with two answers announced: an address, and a record that is cut off. -/
def cutReply : DnsMessage where
  bytes := [0, 7, 0x81, 0x80, 0, 1, 0, 2, 0, 0, 0, 0] ++ [2, 97, 98, 0, 0, 1, 0, 1] ++
    [0xC0, 12, 0, 1, 0, 1, 0, 0, 0, 60, 0, 4, 10, 0, 0, 1] ++ [0xC0, 12, 0, 1]
  length_lt := by decide

/-- A reply for `ab` with another address. -/
def wholeReply : DnsMessage where
  bytes := [0, 7, 0x81, 0x80, 0, 1, 0, 1, 0, 0, 0, 0] ++ [2, 97, 98, 0, 0, 1, 0, 1] ++
    [0xC0, 12, 0, 1, 0, 1, 0, 0, 0, 60, 0, 4, 10, 0, 0, 2]
  length_lt := by decide

/-- The address of the malformed reply stays, and the next server's joins it. -/
theorem cut_reply_leaves_address :
    ((dnsParseResponse plainNtop cutReply dnsQtypeA (dnsQuery [97, 98] 7 dnsQtypeA)
        (⟨Vector.replicate 8 "", 0⟩ : Addresses 8)).map fun r => (r.1, r.2.count)) = some (.malformed, 1) ∧
      ((dnsQueryServers plainNtop [⟨true, some cutReply, none⟩, ⟨true, some wholeReply, none⟩] [97, 98] 7
        dnsQtypeA (⟨Vector.replicate 8 "", 0⟩ : Addresses 8)).map fun a => a.count) = some 2 := by
  decide +kernel

/-- A single whole reply. -/
theorem whole_reply_used :
    ∃ a', dnsQueryServers plainNtop [⟨true, some wholeReply, none⟩] [97, 98] 7 dnsQtypeA
        (⟨Vector.replicate 8 "", 0⟩ : Addresses 8) = some a' ∧
      (a' = ⟨Vector.replicate 8 "", 0⟩ ∨ ∃ e ∈ [DnsExchange.mk true (some wholeReply) none], ∃ msg, e.Reply msg ∧
        FromReply plainNtop msg (dnsSentQuery [97, 98] 7 dnsQtypeA) dnsQtypeA
          ⟨Vector.replicate 8 "", 0⟩ a') := by
  refine (dns_reply_used_whole_iff plainNtop 8 ⟨Vector.replicate 8 "", 0⟩ dnsQtypeA).2 _ _ _ ?_
  rintro e he msg hmsg ⟨ancount, pos, hreply, hcut, -⟩
  have hmsg' : msg = wholeReply := by
    rw [List.mem_singleton] at he
    rw [he] at hmsg
    obtain h | h := hmsg
    · exact (Option.some.inj h).symm
    · exact absurd h (by simp)
  rw [hmsg'] at hreply hcut
  obtain ⟨n, hn, rfl⟩ := hreply.ancount
  obtain ⟨p, hp, rfl, -⟩ := hreply.answers
  have hfield : wholeReply.field 6 = some 1 := by decide
  have hskip : dnsSkipName wholeReply 12 = some (some 16) := by decide +kernel
  rw [hfield, Option.some.injEq] at hn
  rw [hskip, Option.some.injEq, Option.some.injEq] at hp
  rw [← hn, ← hp] at hcut
  exact absurd hcut (by decide +kernel)

end PrimoMiner
