import PrimoMiner.SubmitSteps
import Mathlib.Data.List.Nodup

/-!
# Share accounting

A submission has one ticket, which is reserved at most once, stands in at most one entry of its
pool's table and is counted at most once: a reply takes the entry out.  The counters are 32-bit
words, so what they hold is the number of matched replies modulo `2 ^ 32`.
-/

namespace PrimoMiner

open Runs SlotTable

/-- The entries in use of the table of pool `p`. -/
def SubmitSys.entries (s : SubmitSys) (p : Nat) : List PendingSubmit :=
  live PendingSubmit.used (s.ctxs p).pending

theorem clear_used (e : PendingSubmit) : e.clear.used = false := rfl

def reservedTicket : SubmitEvent → Option (Nat × Nat)
  | .reserved pool ticket => some (pool, ticket)
  | _ => none

def countedTicket : SubmitEvent → Option (Nat × Nat)
  | .counted pool ticket _ _ => some (pool, ticket)
  | _ => none

/-- The submissions that were reserved, and those that were counted, by pool and ticket. -/
def reservedTickets (log : List SubmitEvent) : List (Nat × Nat) := log.filterMap reservedTicket

def countedTickets (log : List SubmitEvent) : List (Nat × Nat) := log.filterMap countedTicket

/-- A submission has a number and is not reserved yet. -/
def SubmitPc.ticket : SubmitPc → Option (Nat × Nat)
  | .numbered share _ ticket => some (share.pool, ticket)
  | _ => none

structure TicketInv (s : SubmitSys) : Prop where
  nodup : ∀ p, ((s.entries p).map PendingSubmit.ticket).Nodup
  -- an entry in use stands for a submission that has been reserved and not been answered
  entry : ∀ p, ∀ e ∈ s.entries p,
    (p, e.ticket) ∈ reservedTickets s.log ∧ (p, e.ticket) ∉ countedTickets s.log
  issued : ∀ p ticket, (p, ticket) ∈ reservedTickets s.log → ticket < (s.ctxs p).tickets
  waiting : ∀ t p ticket, (s.pc t).ticket = some (p, ticket) →
    ticket < (s.ctxs p).tickets ∧ (p, ticket) ∉ reservedTickets s.log
  distinct : ∀ t u x, (s.pc t).ticket = some x → (s.pc u).ticket = some x → t = u
  counted : ∀ x ∈ countedTickets s.log, x ∈ reservedTickets s.log
  once : (countedTickets s.log).Nodup
  reservedOnce : (reservedTickets s.log).Nodup

section tickets
variable {cfg : SubmitConfig} {s s' : SubmitSys}

/-- Entries may go away and threads may forget their tickets. -/
theorem TicketInv.frame (h : TicketInv s) (hentries : ∀ p, (s'.entries p).Sublist (s.entries p))
    (htickets : ∀ p, (s'.ctxs p).tickets = (s.ctxs p).tickets)
    (hpc : ∀ t x, (s'.pc t).ticket = some x → (s.pc t).ticket = some x)
    (hreserved : reservedTickets s'.log = reservedTickets s.log)
    (hcounted : countedTickets s'.log = countedTickets s.log) : TicketInv s' where
  nodup p := (h.nodup p).sublist ((hentries p).map _)
  entry p e he := by
    rw [hreserved, hcounted]
    exact h.entry p e ((hentries p).subset he)
  issued p ticket hmem := by
    rw [hreserved] at hmem
    rw [htickets]
    exact h.issued p ticket hmem
  waiting t p ticket ht := by
    rw [hreserved, htickets]
    exact h.waiting t p ticket (hpc t _ ht)
  distinct t u x ht hu := h.distinct t u x (hpc t x ht) (hpc u x hu)
  counted := by
    rw [hreserved, hcounted]
    exact h.counted
  once := by
    rw [hcounted]
    exact h.once
  reservedOnce := by
    rw [hreserved]
    exact h.reservedOnce

theorem entries_setCtx (s : SubmitSys) (p q : Nat) (c : SubmitCtx) :
    (s.setCtx p c).entries q =
      if q = p then live PendingSubmit.used c.pending else s.entries q := by
  unfold SubmitSys.entries
  rw [SubmitSys.setCtx_ctxs]
  split <;> rfl

theorem tickets_setCtx {p : Nat} {c : SubmitCtx} (hc : c.tickets = (s.ctxs p).tickets) (q : Nat) :
    ((s.setCtx p c).ctxs q).tickets = (s.ctxs q).tickets := by
  rw [SubmitSys.setCtx_ctxs]
  split
  · rename_i hq
    rw [hc, hq]
  · rfl

/-- The table of one context loses entries. -/
theorem entries_setCtx_sublist {p : Nat} {c : SubmitCtx}
    (hc : (live PendingSubmit.used c.pending).Sublist (s.entries p)) (q : Nat) :
    ((s.setCtx p c).entries q).Sublist (s.entries q) := by
  rw [entries_setCtx]
  split
  · rename_i hq
    rw [hq]
    exact hc
  · exact List.Sublist.refl _

theorem entries_setCtx_same {p : Nat} {c : SubmitCtx} (hc : c.pending = (s.ctxs p).pending)
    (q : Nat) : ((s.setCtx p c).entries q).Sublist (s.entries q) := by
  refine entries_setCtx_sublist ?_ q
  rw [hc]
  exact List.Sublist.refl _

theorem live_release (pending : List PendingSubmit) (id : BitVec 32) :
    (live PendingSubmit.used (submitIdRelease pending id)).Sublist
      (live PendingSubmit.used pending) := by
  unfold submitIdRelease
  rw [live_freeFirst clear_used]
  exact List.eraseP_sublist

theorem live_reaped (cfg : SubmitConfig) (s : SubmitSys) (p : Nat) (now : Int) :
    (live PendingSubmit.used (s.reaped cfg p now)).Sublist (s.entries p) := by
  unfold SubmitSys.reaped submitIdReapStaleLocked
  rw [live_freeAll clear_used]
  exact List.filter_sublist

theorem live_empty :
    live PendingSubmit.used (List.replicate maxPendingSubmits ({} : PendingSubmit)) = [] := by
  unfold live
  rw [List.filter_eq_nil_iff]
  intro e he
  rw [List.eq_of_mem_replicate he]
  decide

theorem ticket_setPc {thread : Nat} {pc : SubmitPc} (hpc : pc.ticket = none) (t : Nat)
    (x : Nat × Nat) (ht : ((s.setPc thread pc).pc t).ticket = some x) :
    (s.pc t).ticket = some x := by
  rw [SubmitSys.setPc_pc] at ht
  split at ht
  · exact absurd (hpc.symm.trans ht) (by simp)
  · exact ht

/-- A reply takes the entry it answers out of the table. -/
theorem TicketInv.count (h : TicketInv s) {id : BitVec 32} {entry : PendingSubmit}
    {stats : ShareStats} {threadId : Nat} {accepted : Bool}
    (hentry : lookup PendingSubmit.used (·.id == id) s.ctx.pending = some entry) :
    TicketInv { s.setCtx s.pool { s.ctx with pending := submitIdRelease s.ctx.pending id } with
      stats := stats
      log := .counted s.pool entry.ticket threadId accepted :: s.log } := by
  have hperm : (s.entries s.pool).Perm
      (entry :: live PendingSubmit.used (submitIdRelease s.ctx.pending id)) :=
    live_lookup clear_used hentry
  have hmem : entry ∈ s.entries s.pool := hperm.mem_iff.mpr List.mem_cons_self
  obtain ⟨hreserved, hfresh⟩ := h.entry s.pool entry hmem
  -- the ticket of the entry occurs nowhere else in the table
  have hgone : entry.ticket ∉
      (live PendingSubmit.used (submitIdRelease s.ctx.pending id)).map PendingSubmit.ticket := by
    have hnodup := (hperm.map PendingSubmit.ticket).nodup_iff.mp (h.nodup s.pool)
    rw [List.map_cons, List.nodup_cons] at hnodup
    exact hnodup.1
  have hsub := entries_setCtx_sublist (s := s) (c :=
    { s.ctx with pending := submitIdRelease s.ctx.pending id }) (live_release s.ctx.pending id)
  have htickets := tickets_setCtx (s := s) (p := s.pool) (c :=
    { s.ctx with pending := submitIdRelease s.ctx.pending id }) rfl
  refine ⟨?_, ?_, ?_, ?_, h.distinct, ?_, ?_, h.reservedOnce⟩
  · intro p
    exact (h.nodup p).sublist ((hsub p).map _)
  · intro p e he
    have hold := h.entry p e ((hsub p).subset he)
    refine ⟨hold.1, ?_⟩
    intro hcounted
    rcases List.mem_cons.mp hcounted with heq | hcounted
    · rw [Prod.mk.injEq] at heq
      obtain ⟨rfl, hticket⟩ := heq
      have hlast : e ∈ live PendingSubmit.used (submitIdRelease s.ctx.pending id) := by
        simpa [SubmitSys.entries] using he
      exact hgone (hticket ▸ List.mem_map_of_mem hlast)
    · exact hold.2 hcounted
  · intro p ticket hp
    exact (h.issued p ticket hp).trans_eq (htickets p).symm
  · intro t p ticket ht
    obtain ⟨hlt, hnew⟩ := h.waiting t p ticket ht
    exact ⟨hlt.trans_eq (htickets p).symm, hnew⟩
  · intro x hx
    rcases List.mem_cons.mp hx with rfl | hx
    · exact hreserved
    · exact h.counted x hx
  · exact List.nodup_cons.mpr ⟨hfresh, h.once⟩

/-- A new number is a new ticket. -/
theorem TicketInv.number (h : TicketInv s) {thread p : Nat} {c : SubmitCtx} {pc : SubmitPc}
    (hctxs : s'.ctxs = Function.update s.ctxs p c) (hpcs : s'.pc = Function.update s.pc thread pc)
    (hlog : s'.log = s.log) (hpending : c.pending = (s.ctxs p).pending)
    (htickets : c.tickets = (s.ctxs p).tickets + 1)
    (hticket : pc.ticket = some (p, (s.ctxs p).tickets)) : TicketInv s' := by
  have hat : ∀ q, s'.ctxs q = if q = p then c else s.ctxs q := by
    intro q
    rw [hctxs, Function.update_apply]
  have hentries : ∀ q, s'.entries q = s.entries q := by
    intro q
    unfold SubmitSys.entries
    rw [hat]
    split
    · rename_i hq
      rw [hpending, hq]
    · rfl
  have hle : ∀ q, (s.ctxs q).tickets ≤ (s'.ctxs q).tickets := by
    intro q
    rw [hat]
    split
    · rename_i hq
      rw [htickets, hq]
      omega
    · exact Nat.le_refl _
  have hself : (s'.ctxs p).tickets = (s.ctxs p).tickets + 1 := by
    rw [hat, if_pos rfl, htickets]
  -- an older ticket is smaller than the new one
  have hold : ∀ u, (s.pc u).ticket ≠ some (p, (s.ctxs p).tickets) := by
    intro u hu
    have := (h.waiting u _ _ hu).1
    omega
  have hpc : ∀ t x, (s'.pc t).ticket = some x →
      t = thread ∧ x = (p, (s.ctxs p).tickets) ∨ (s.pc t).ticket = some x := by
    intro t x ht
    rw [hpcs, Function.update_apply] at ht
    split at ht
    · rename_i heq
      rw [hticket, Option.some.injEq] at ht
      exact Or.inl ⟨heq, ht.symm⟩
    · exact Or.inr ht
  refine ⟨?_, ?_, ?_, ?_, ?_, ?_, ?_, ?_⟩
  · intro q
    rw [hentries]
    exact h.nodup q
  · intro q e he
    rw [hentries] at he
    rw [hlog]
    exact h.entry q e he
  · intro q ticket hmem
    rw [hlog] at hmem
    exact (h.issued q ticket hmem).trans_le (hle q)
  · intro t q ticket ht
    rw [hlog]
    rcases hpc t _ ht with ⟨-, hnew⟩ | hbefore
    · rw [Prod.mk.injEq] at hnew
      obtain ⟨rfl, rfl⟩ := hnew
      refine ⟨by omega, ?_⟩
      intro hmem
      have := h.issued _ _ hmem
      omega
    · obtain ⟨hlt, hfresh⟩ := h.waiting t q ticket hbefore
      exact ⟨hlt.trans_le (hle q), hfresh⟩
  · intro t u x ht hu
    rcases hpc t x ht with ⟨ht, hx⟩ | ht <;> rcases hpc u x hu with ⟨hu, hx'⟩ | hu
    · rw [ht, hu]
    · exact absurd (hx ▸ hu) (hold u)
    · exact absurd (hx' ▸ ht) (hold t)
    · exact h.distinct t u x ht hu
  · rw [hlog]
    exact h.counted
  · rw [hlog]
    exact h.once
  · rw [hlog]
    exact h.reservedOnce

/-- The reservation puts the thread's ticket into the table. -/
theorem TicketInv.reserve (h : TicketInv s) {thread : Nat} {share : Share} {id : BitVec 32}
    {ticket : Nat} {now : Int} {pending : List PendingSubmit}
    (hpc : s.pc thread = .numbered share id ticket)
    (hput : put PendingSubmit.used (SubmitSys.newEntry id thread ticket now)
      (s.reaped cfg share.pool now) = some pending) :
    TicketInv ({ s.setCtx share.pool (s.reapedCtx cfg share.pool now pending) with
      log := .reserved share.pool ticket :: s.log }.setPc thread (.reserved share id ticket)) := by
  obtain ⟨hissued, hnew⟩ := h.waiting thread share.pool ticket (by rw [hpc]; rfl)
  have hperm : (live PendingSubmit.used pending).Perm
      (SubmitSys.newEntry id thread ticket now ::
        live PendingSubmit.used (s.reaped cfg share.pool now)) := live_put rfl hput
  have hreaped := live_reaped cfg s share.pool now
  have hfresh : ∀ e ∈ s.entries share.pool, e.ticket ≠ ticket := by
    intro e he heq
    exact hnew (heq ▸ (h.entry share.pool e he).1)
  have htickets := tickets_setCtx (s := s) (p := share.pool)
    (c := s.reapedCtx cfg share.pool now pending) rfl
  have hothers : ∀ t, t ≠ thread → ∀ x, (s.pc t).ticket = some x → x ≠ (share.pool, ticket) := by
    intro t ht x hx heq
    exact ht (h.distinct t thread x hx (by rw [hpc, heq]; rfl))
  have hpcs : ∀ t x, (({ s.setCtx share.pool (s.reapedCtx cfg share.pool now pending) with
      log := .reserved share.pool ticket :: s.log }.setPc thread
      (.reserved share id ticket) : SubmitSys).pc t).ticket = some x →
      t ≠ thread ∧ (s.pc t).ticket = some x := by
    intro t x ht
    rw [SubmitSys.setPc_pc] at ht
    split at ht
    · exact absurd ht (by simp [SubmitPc.ticket])
    · rename_i hne
      exact ⟨hne, ht⟩
  refine ⟨?_, ?_, ?_, ?_, ?_, ?_, h.once, List.nodup_cons.mpr ⟨hnew, h.reservedOnce⟩⟩
  · intro p
    show (((s.setCtx share.pool (s.reapedCtx cfg share.pool now pending)).entries p).map
      PendingSubmit.ticket).Nodup
    rw [entries_setCtx]
    split
    · refine (hperm.map PendingSubmit.ticket).nodup_iff.mpr ?_
      rw [List.map_cons, List.nodup_cons]
      refine ⟨?_, (h.nodup share.pool).sublist (hreaped.map _)⟩
      intro hmem
      obtain ⟨e, he, heq⟩ := List.mem_map.mp hmem
      exact hfresh e (hreaped.subset he) heq
    · exact h.nodup p
  · intro p e he
    have hmem : e ∈ (s.setCtx share.pool
        (s.reapedCtx cfg share.pool now pending)).entries p := he
    rw [entries_setCtx] at hmem
    have hold : e ∈ s.entries p → (p, e.ticket) ∈ reservedTickets
        (.reserved share.pool ticket :: s.log) ∧ (p, e.ticket) ∉ countedTickets s.log :=
      fun hold => ⟨List.mem_cons_of_mem _ (h.entry p e hold).1, (h.entry p e hold).2⟩
    split at hmem
    · rename_i hp
      rcases List.mem_cons.mp (hperm.mem_iff.mp hmem) with rfl | hin
      · rw [hp]
        refine ⟨List.mem_cons_self, ?_⟩
        intro hcounted
        exact hnew (h.counted _ hcounted)
      · exact hold (hp ▸ hreaped.subset hin)
    · exact hold hmem
  · intro p τ hmem
    refine Nat.lt_of_lt_of_eq ?_ (htickets p).symm
    rcases List.mem_cons.mp hmem with heq | hmem
    · rw [Prod.mk.injEq] at heq
      rw [heq.1, heq.2]
      exact hissued
    · exact h.issued p τ hmem
  · intro t p τ ht
    obtain ⟨hne, hbefore⟩ := hpcs t _ ht
    obtain ⟨hlt, hnot⟩ := h.waiting t p τ hbefore
    refine ⟨hlt.trans_eq (htickets p).symm, ?_⟩
    intro hmem
    rcases List.mem_cons.mp hmem with heq | hmem
    · exact hothers t hne _ hbefore heq
    · exact hnot hmem
  · intro t u x ht hu
    exact h.distinct t u x (hpcs t x ht).2 (hpcs u x hu).2
  · intro x hx
    exact List.mem_cons_of_mem _ (h.counted x hx)

theorem TicketInv.step (h : TicketInv s) {a : SubmitAct} (ht : SubmitSys.Trans cfg s a s') :
    TicketInv s' := by
  have hsame : ∀ p, (s.entries p).Sublist (s.entries p) := fun p => List.Sublist.refl _
  cases ht with
  | openSocket _ =>
    exact h.frame (fun p => entries_setCtx_same (by rfl) p)
      (fun p => tickets_setCtx (by rfl) p) (fun _ _ hp => hp) rfl rfl
  | connected _ => exact h.frame hsame (fun _ => rfl) (fun _ _ hp => hp) rfl rfl
  | connectFails _ =>
    exact h.frame (fun p => entries_setCtx_same (by rfl) p)
      (fun p => tickets_setCtx (by rfl) p) (fun _ _ hp => hp) rfl rfl
  | switchPool _ next => exact h.frame hsame (fun _ => rfl) (fun _ _ hp => hp) rfl rfl
  | authorize _ ok =>
    exact h.frame (fun p => entries_setCtx_same (by rfl) p)
      (fun p => tickets_setCtx (by rfl) p) (fun _ _ hp => hp) rfl rfl
  | publish _ newWork clean copied =>
    exact h.frame hsame (fun _ => rfl) (fun _ _ hp => hp) rfl rfl
  | updateHeight _ jobId height => exact h.frame hsame (fun _ => rfl) (fun _ _ hp => hp) rfl rfl
  | rekey _ => exact h.frame hsame (fun _ => rfl) (fun _ _ hp => hp) rfl rfl
  | ignored _ val => exact h
  | counted _ _ _ hentry => exact h.count hentry
  | closeTransport _ =>
    exact h.frame (fun p => entries_setCtx_same (by rfl) p)
      (fun p => tickets_setCtx (by rfl) p) (fun _ _ hp => hp) rfl rfl
  | resetWork _ => exact h.frame hsame (fun _ => rfl) (fun _ _ hp => hp) rfl rfl
  | resetPending _ =>
    refine h.frame (fun p => entries_setCtx_sublist ?_ p) (fun p => tickets_setCtx (by rfl) p)
      (fun _ _ hp => hp) rfl rfl
    rw [live_empty]
    exact List.nil_sublist _
  | clearAuthenticated _ =>
    exact h.frame (fun p => entries_setCtx_same (by rfl) p)
      (fun p => tickets_setCtx (by rfl) p) (fun _ _ hp => hp) rfl rfl
  | copyWork _ _ copied =>
    unfold SubmitSys.copyWork
    split
    · exact h.frame hsame (fun _ => rfl) (fun _ _ hp => hp) rfl rfl
    · exact h
  | dropped _ => exact h
  | checked _ _ _ => exact h.frame hsame (fun _ => rfl) (ticket_setPc rfl) rfl rfl
  | unauthenticated _ => exact h.frame hsame (fun _ => rfl) (ticket_setPc rfl) rfl rfl
  | authorized _ => exact h.frame hsame (fun _ => rfl) (ticket_setPc rfl) rfl rfl
  | encodeFails _ => exact h.frame hsame (fun _ => rfl) (ticket_setPc rfl) rfl rfl
  | numbered _ => exact h.number rfl rfl rfl (by rfl) (by rfl) rfl
  | reserved hpc hput => exact h.reserve hpc hput
  | queueFull now _ =>
    exact h.frame (fun p => entries_setCtx_sublist (live_reaped cfg s _ now) p)
      (fun p => tickets_setCtx (by rfl) p) (ticket_setPc rfl) rfl rfl
  | sent _ _ => exact h.frame hsame (fun _ => rfl) (ticket_setPc rfl) rfl rfl
  | sendFailed _ => exact h.frame hsame (fun _ => rfl) (ticket_setPc rfl) rfl rfl
  | released _ =>
    exact h.frame (fun p => entries_setCtx_sublist (live_release _ _) p)
      (fun p => tickets_setCtx (by rfl) p) (ticket_setPc rfl) rfl rfl

theorem ticketInv_start (pool : Nat) : TicketInv (.start pool) := by
  have hnone : ∀ p, (SubmitSys.start pool).entries p = [] := fun _ => live_empty
  refine ⟨?_, ?_, ?_, ?_, ?_, ?_, List.nodup_nil, List.nodup_nil⟩
  · intro p
    rw [hnone]
    exact List.nodup_nil
  · intro p e he
    rw [hnone] at he
    exact absurd he List.not_mem_nil
  · intro p ticket hmem
    exact absurd hmem List.not_mem_nil
  · intro t p ticket ht
    exact absurd ht (by simp [SubmitSys.start, SubmitPc.ticket])
  · intro t u x ht
    exact absurd ht (by simp [SubmitSys.start, SubmitPc.ticket])
  · intro x hx
    exact absurd hx List.not_mem_nil

end tickets

/-! ## The counters -/

/-- A matched reply on one of the pools that `on` accepts. -/
def matched (on : Nat → Bool) (accepted : Bool) : SubmitEvent → Bool
  | .counted pool _ _ result => on pool && result == accepted
  | _ => false

/-- The number of matched replies on the pools that `on` accepts. -/
def matchedReplies (on : Nat → Bool) (accepted : Bool) (log : List SubmitEvent) : Nat :=
  log.countP (matched on accepted)

def SubmitConfig.userPool (cfg : SubmitConfig) (p : Nat) : Bool := !devfeeIsDevPool cfg.g p

structure StatsInv (cfg : SubmitConfig) (s : SubmitSys) : Prop where
  acceptedTotal : s.stats.shareAcceptedTotal =
    BitVec.ofNat 32 (matchedReplies cfg.userPool true s.log)
  rejectedTotal : s.stats.shareRejectedTotal =
    BitVec.ofNat 32 (matchedReplies cfg.userPool false s.log)
  poolAccepted : ∀ p < cfg.g.numPools,
    s.stats.poolAccepted p = BitVec.ofNat 32 (matchedReplies (· == p) true s.log)
  poolRejected : ∀ p < cfg.g.numPools,
    s.stats.poolRejected p = BitVec.ofNat 32 (matchedReplies (· == p) false s.log)

section counters
variable {cfg : SubmitConfig} {s s' : SubmitSys}

theorem matchedReplies_counted (on : Nat → Bool) (accepted result : Bool)
    (pool ticket threadId : Nat) (log : List SubmitEvent) :
    matchedReplies on accepted (.counted pool ticket threadId result :: log) =
      matchedReplies on accepted log + if on pool && result == accepted then 1 else 0 :=
  List.countP_cons

/-- A counter that moves with its event. -/
theorem ofNat_count {counter counter' : BitVec 32} {n : Nat} {b : Bool}
    (h : counter = BitVec.ofNat 32 n) (hcounter : counter' = if b then counter + 1 else counter) :
    counter' = BitVec.ofNat 32 (n + if b then 1 else 0) := by
  rw [hcounter, h]
  cases b with
  | true => exact (BitVec.ofNat_add n 1).symm
  | false => rfl

section countResponse
variable (g : Globals) (n : Nat) (stats : ShareStats) (pooln threadId : Nat) (result : Bool)

theorem countResponse_acceptedTotal :
    (countResponse g n stats pooln threadId result).shareAcceptedTotal =
      if !devfeeIsDevPool g pooln && result == true then stats.shareAcceptedTotal + 1
      else stats.shareAcceptedTotal := by
  simp only [countResponse, stratumUpdateShareStats, minerRecordThreadShareResult]
  cases devfeeIsDevPool g pooln <;> cases result <;>
    by_cases hp : pooln < g.numPools <;> by_cases ht : threadId < n <;> simp [hp, ht]

theorem countResponse_rejectedTotal :
    (countResponse g n stats pooln threadId result).shareRejectedTotal =
      if !devfeeIsDevPool g pooln && result == false then stats.shareRejectedTotal + 1
      else stats.shareRejectedTotal := by
  simp only [countResponse, stratumUpdateShareStats, minerRecordThreadShareResult]
  cases devfeeIsDevPool g pooln <;> cases result <;>
    by_cases hp : pooln < g.numPools <;> by_cases ht : threadId < n <;> simp [hp, ht]

theorem countResponse_poolAccepted {p : Nat} (hp : p < g.numPools) :
    (countResponse g n stats pooln threadId result).poolAccepted p =
      if pooln == p && result == true then stats.poolAccepted p + 1 else stats.poolAccepted p := by
  simp only [countResponse, stratumUpdateShareStats, minerRecordThreadShareResult]
  by_cases heq : pooln = p
  · subst heq
    cases devfeeIsDevPool g pooln <;> cases result <;>
      by_cases ht : threadId < n <;> simp [hp, ht, bumpAt]
  · cases devfeeIsDevPool g pooln <;> cases result <;>
      by_cases hq : pooln < g.numPools <;> by_cases ht : threadId < n <;>
      simp [hq, ht, bumpAt, heq, Function.update_of_ne (Ne.symm heq)]

theorem countResponse_poolRejected {p : Nat} (hp : p < g.numPools) :
    (countResponse g n stats pooln threadId result).poolRejected p =
      if pooln == p && result == false then stats.poolRejected p + 1 else stats.poolRejected p := by
  simp only [countResponse, stratumUpdateShareStats, minerRecordThreadShareResult]
  by_cases heq : pooln = p
  · subst heq
    cases devfeeIsDevPool g pooln <;> cases result <;>
      by_cases ht : threadId < n <;> simp [hp, ht, bumpAt]
  · cases devfeeIsDevPool g pooln <;> cases result <;>
      by_cases hq : pooln < g.numPools <;> by_cases ht : threadId < n <;>
      simp [hq, ht, bumpAt, heq, Function.update_of_ne (Ne.symm heq)]

/-- A reply on the dev slot moves the slot's own counters only. -/
theorem countResponse_dev (hdev : devfeeIsDevPool g pooln = true) :
    (countResponse g n stats pooln threadId result).shareAcceptedTotal = stats.shareAcceptedTotal ∧
    (countResponse g n stats pooln threadId result).shareRejectedTotal = stats.shareRejectedTotal ∧
    (countResponse g n stats pooln threadId result).threadAccepted = stats.threadAccepted ∧
    (countResponse g n stats pooln threadId result).threadRejected = stats.threadRejected := by
  simp only [countResponse, stratumUpdateShareStats, hdev, if_true]
  cases result <;> by_cases hp : pooln < g.numPools <;> simp [hp]

end countResponse

theorem StatsInv.frame (h : StatsInv cfg s) (hstats : s'.stats = s.stats)
    (hlog : ∀ on accepted, matchedReplies on accepted s'.log = matchedReplies on accepted s.log) :
    StatsInv cfg s' := by
  refine ⟨?_, ?_, ?_, ?_⟩ <;> simp only [hstats, hlog]
  · exact h.acceptedTotal
  · exact h.rejectedTotal
  · exact h.poolAccepted
  · exact h.poolRejected

theorem StatsInv.step (h : StatsInv cfg s) {a : SubmitAct} (ht : SubmitSys.Trans cfg s a s') :
    StatsInv cfg s' := by
  cases ht with
  | @counted val id entry _ _ _ _ =>
    refine ⟨?_, ?_, ?_, ?_⟩
    · exact (matchedReplies_counted _ _ _ _ _ _ _).symm ▸
        ofNat_count h.acceptedTotal (countResponse_acceptedTotal _ _ _ _ _ _)
    · exact (matchedReplies_counted _ _ _ _ _ _ _).symm ▸
        ofNat_count h.rejectedTotal (countResponse_rejectedTotal _ _ _ _ _ _)
    · intro p hp
      exact (matchedReplies_counted _ _ _ _ _ _ _).symm ▸
        ofNat_count (h.poolAccepted p hp) (countResponse_poolAccepted _ _ _ _ _ _ hp)
    · intro p hp
      exact (matchedReplies_counted _ _ _ _ _ _ _).symm ▸
        ofNat_count (h.poolRejected p hp) (countResponse_poolRejected _ _ _ _ _ _ hp)
  | copyWork _ _ copied =>
    unfold SubmitSys.copyWork
    split
    · exact h.frame rfl fun _ _ => rfl
    · exact h
  -- no other step counts
  | _ => exact h.frame rfl fun _ _ => rfl

theorem statsInv_start (cfg : SubmitConfig) (pool : Nat) : StatsInv cfg (.start pool) :=
  ⟨rfl, rfl, fun _ _ => rfl, fun _ _ => rfl⟩

end counters

/-! ## Runs -/

section runs
variable {cfg : SubmitConfig} {pool : Nat} {labels : List SubmitAct} {s s' : SubmitSys}

theorem run_ticketInv (hrun : exec (SubmitSys.step cfg) (.start pool) labels = some s) :
    TicketInv s := by
  refine exec_invariant (I := TicketInv) ?_ (ticketInv_start pool) hrun
  intro s a s' h hstep
  exact h.step (SubmitSys.step_trans hstep)

theorem run_statsInv (hrun : exec (SubmitSys.step cfg) (.start pool) labels = some s) :
    StatsInv cfg s := by
  refine exec_invariant (I := StatsInv cfg) ?_ (statsInv_start cfg pool) hrun
  intro s a s' h hstep
  exact h.step (SubmitSys.step_trans hstep)

/-- A line that answers no pending submission: not a response, an id of the handshake, or an id
that no entry in use carries. -/
def SubmitSys.Unmatched (s : SubmitSys) (val : Json) : Prop :=
  ∀ id, stratumParseResponseView val = some id →
    id < 10 ∨ ∀ e ∈ s.entries s.pool, e.id ≠ BitVec.ofNat 32 id

/-- What a reply does: one that matches answers a submission that was reserved and not yet counted,
once and with the one result that the line carries. -/
structure ReplyCounted (cfg : SubmitConfig) (s : SubmitSys) (val : Json) (s' : SubmitSys) :
    Prop where
  unmatched : s.Unmatched val → s' = s
  matched : ¬ s.Unmatched val → ∃ ticket threadId,
    (s.pool, ticket) ∈ reservedTickets s.log ∧ (s.pool, ticket) ∉ countedTickets s.log ∧
      s'.log = .counted s.pool ticket threadId (submitResultOk val) :: s.log
  dev : devfeeIsDevPool cfg.g s.pool = true →
    s'.stats.shareAcceptedTotal = s.stats.shareAcceptedTotal ∧
    s'.stats.shareRejectedTotal = s.stats.shareRejectedTotal ∧
    s'.stats.threadAccepted = s.stats.threadAccepted ∧
    s'.stats.threadRejected = s.stats.threadRejected

theorem lookup_mem_entries {id : Nat} {entry : PendingSubmit}
    (hentry : lookup PendingSubmit.used (·.id == BitVec.ofNat 32 id) s.ctx.pending = some entry) :
    entry ∈ s.entries s.pool ∧ entry.id = BitVec.ofNat 32 id := by
  have hmem := List.mem_of_find?_eq_some hentry
  have hused := List.find?_some hentry
  rw [Bool.and_eq_true, beq_iff_eq] at hused
  exact ⟨List.mem_filter.mpr ⟨hmem, hused.1⟩, hused.2⟩

theorem lookup_none_of_unmatched {id : Nat}
    (hnone : lookup PendingSubmit.used (·.id == BitVec.ofNat 32 id) s.ctx.pending = none) :
    ∀ e ∈ s.entries s.pool, e.id ≠ BitVec.ofNat 32 id := by
  intro e he heq
  obtain ⟨hmem, hused⟩ := List.mem_filter.mp he
  have := List.find?_eq_none.mp hnone e hmem
  exact this (by simp [hused, heq])

theorem response_counted (h : TicketInv s) (val : Json) :
    ReplyCounted cfg s val (s.response cfg val) := by
  unfold SubmitSys.response
  cases hid : stratumParseResponseView val with
  | none =>
    have hun : s.Unmatched val := by simp [SubmitSys.Unmatched, hid]
    exact ⟨fun _ => rfl, fun hm => absurd hun hm, fun _ => ⟨rfl, rfl, rfl, rfl⟩⟩
  | some id =>
    dsimp only
    split
    · rename_i hten
      have hun : s.Unmatched val := by simp [SubmitSys.Unmatched, hid, hten]
      exact ⟨fun _ => rfl, fun hm => absurd hun hm, fun _ => ⟨rfl, rfl, rfl, rfl⟩⟩
    · rename_i hten
      unfold submitIdTakeMetadata
      cases hentry : lookup PendingSubmit.used (·.id == BitVec.ofNat 32 id) s.ctx.pending with
      | none =>
        have hun : s.Unmatched val := by
          intro id' hid'
          rw [hid, Option.some.injEq] at hid'
          exact Or.inr (hid' ▸ lookup_none_of_unmatched hentry)
        exact ⟨fun _ => rfl, fun hm => absurd hun hm, fun _ => ⟨rfl, rfl, rfl, rfl⟩⟩
      | some entry =>
        obtain ⟨hmem, heq⟩ := lookup_mem_entries hentry
        refine ⟨?_, ?_, countResponse_dev _ _ _ _ _ _⟩
        · intro hun
          rcases hun id hid with hlow | hnone
          · exact absurd hlow hten
          · exact absurd heq (hnone entry hmem)
        · intro _
          obtain ⟨hreserved, hfresh⟩ := h.entry s.pool entry hmem
          exact ⟨entry.ticket, entry.threadId, hreserved, hfresh, rfl⟩

/-- Nothing but a reply moves a counter. -/
theorem step_stats {a : SubmitAct} (ht : SubmitSys.Trans cfg s a s')
    (ha : ∀ val, a ≠ .response val) :
    s'.stats = s.stats := by
  cases ht with
  | counted _ _ _ _ => exact absurd rfl (ha _)
  | copyWork _ _ copied =>
    unfold SubmitSys.copyWork
    split <;> rfl
  | _ => rfl

end runs

/-- In every run each reserved submission is counted at most once and with one result, the totals
and the pools' counters are the numbers of matched replies as far as 32 bits hold them, a line that
answers nothing changes nothing, and a reply on the dev slot moves neither totals nor thread
counters. -/
theorem share_accounting {cfg : SubmitConfig} {pool : Nat} {labels : List SubmitAct} {s : SubmitSys}
    (hrun : exec (SubmitSys.step cfg) (.start pool) labels = some s) :
    (reservedTickets s.log).Nodup ∧ (countedTickets s.log).Nodup ∧
    (∀ x ∈ countedTickets s.log, x ∈ reservedTickets s.log) ∧
    StatsInv cfg s ∧
    (∀ val s', s.step cfg (.response val) = some s' → ReplyCounted cfg s val s') ∧
    ∀ a s', (∀ val, a ≠ .response val) → s.step cfg a = some s' → s'.stats = s.stats := by
  have htickets := run_ticketInv hrun
  refine ⟨htickets.reservedOnce, htickets.once, htickets.counted, run_statsInv hrun, ?_, ?_⟩
  · intro val s' hstep
    obtain ⟨-, rfl⟩ := SubmitSys.of_phase hstep
    exact response_counted htickets val
  · intro a s' ha hstep
    exact step_stats (SubmitSys.step_trans hstep) ha

/-! ### Replies to one thread -/

namespace Scenario

def acceptedReply (id : BitVec 32) : Json :=
  .object [("id", .integer id.toNat), ("result", .bool true)]

/-- The id that the next submission on pool 0 gets. -/
def nextReplyId (s : SubmitSys) : BitVec 32 := (stratumSubmitIdNext (s.ctxs 0).nextSubmitId).1

/-- A share that is sent and accepted. -/
def acceptedShare (id : BitVec 32) : List SubmitAct :=
  ([.checkGeneration 0] : List SubmitAct) ++ sendShare ++ ([.response (acceptedReply id)] : List SubmitAct)

end Scenario

open Scenario

/-- A reply is counted, a second one with the same id is not. -/
theorem share_accounting_duplicate :
    ∃ s, exec (SubmitSys.step oneThread) (.start 0)
        (openedWithWork ++ acceptedShare 10 ++ [.response (acceptedReply 10)]) = some s ∧
      s.stats.shareAcceptedTotal = 1 ∧ matchedReplies oneThread.userPool true s.log = 1 ∧
      (countedTickets s.log).Nodup ∧ StatsInv oneThread s := by
  have heval : (exec (SubmitSys.step oneThread) (.start 0)
      (openedWithWork ++ acceptedShare 10 ++ [.response (acceptedReply 10)])).map
      (fun s => (s.stats.shareAcceptedTotal, s.log)) =
      some (1, [.counted 0 0 0 true, .sent 0 10 0 0 0, .reserved 0 0]) := by decide
  rw [Option.map_eq_some_iff] at heval
  obtain ⟨s, hrun, hs⟩ := heval
  rw [Prod.mk.injEq] at hs
  have hall := share_accounting hrun
  refine ⟨s, hrun, hs.1, ?_, hall.2.1, hall.2.2.2.1⟩
  rw [hs.2]
  decide

section wrap
variable {s : SubmitSys} {share : Share} {pending : List PendingSubmit}

/-- Thread 0 can submit its share on pool 0, whose table is `pending`. -/
structure CanSubmit (s : SubmitSys) (share : Share) (pending : List PendingSubmit) : Prop where
  phase : s.phase = .opened
  pool : s.pool = 0
  idle : s.pc 0 = .idle
  held : s.held 0 = some share
  sharePool : share.pool = 0
  current : s.generation = share.work.restartGeneration
  authenticated : (s.ctxs 0).authenticated = true
  session : ∃ session, (s.ctxs 0).session = some session
  table : (s.ctxs 0).pending = pending

theorem parse_acceptedReply (id : BitVec 32) :
    stratumParseResponseView (acceptedReply id) = some id.toNat := by
  have hle : id.toNat ≤ uint32Max := by
    have := id.isLt
    unfold uint32Max
    omega
  simp [stratumParseResponseView, acceptedReply, Json.objectGet, Json.stringValue,
    stratumParseRpcId, hle]

theorem ten_le_nextReplyId (s : SubmitSys) : 10 ≤ (nextReplyId s).toNat := by
  unfold nextReplyId stratumSubmitIdNext
  dsimp only
  split
  · decide
  · rename_i hge
    rw [BitVec.lt_def] at hge
    exact Nat.not_lt.mp hge

theorem reap_free (now timeout : Int) (hfree : ∀ x ∈ pending, x.used = false) :
    submitIdReapStaleLocked pending now timeout = pending := by
  unfold submitIdReapStaleLocked freeAll
  refine (List.map_congr_left ?_).trans (List.map_id pending)
  intro x hx
  simp [PendingSubmit.stale, hfree x hx]

theorem stale_free (now timeout : Int) (hfree : ∀ x ∈ pending, x.used = false) :
    pending.filter (PendingSubmit.stale now timeout) = [] := by
  rw [List.filter_eq_nil_iff]
  intro x hx
  simp [PendingSubmit.stale, hfree x hx]

/-- The share is sent and its entry takes the first slot. -/
theorem CanSubmit.sent {e : PendingSubmit} (h : CanSubmit s share (e :: pending))
    (hfree : ∀ x ∈ e :: pending, x.used = false) :
    ∃ mid ticket, exec (SubmitSys.step oneThread) s ([.checkGeneration 0] ++ sendShare) = some mid ∧
      CanSubmit mid share (SubmitSys.newEntry (nextReplyId s) 0 ticket 100 :: pending) ∧
      matchedReplies oneThread.userPool true mid.log =
        matchedReplies oneThread.userPool true s.log := by
  obtain ⟨session, hsession⟩ := h.session
  have hused : e.used = false := hfree e List.mem_cons_self
  have hreap : ∀ now timeout, submitIdReapStaleLocked (e :: pending) now timeout = e :: pending :=
    fun now timeout => reap_free now timeout hfree
  have hstale : ∀ now timeout, (e :: pending).filter (PendingSubmit.stale now timeout) = [] :=
    fun now timeout => stale_free now timeout hfree
  have hnext : (stratumSubmitIdNext (s.ctxs 0).nextSubmitId).1 = nextReplyId s := rfl
  have hrun : exec (SubmitSys.step oneThread) s ([.checkGeneration 0] ++ sendShare) = some
      ({ s.setCtx 0
          { s.ctxs 0 with
            nextSubmitId := (stratumSubmitIdNext (s.ctxs 0).nextSubmitId).2
            pending := SubmitSys.newEntry (nextReplyId s) 0 (s.ctxs 0).tickets 100 :: pending
            tickets := (s.ctxs 0).tickets + 1
            issued := (nextReplyId s, (s.ctxs 0).tickets) :: (s.ctxs 0).issued } with
        log := .sent 0 (nextReplyId s) (s.ctxs 0).tickets session share.session ::
          .reserved 0 (s.ctxs 0).tickets :: s.log }.setPc 0 .idle) := by
    simp [sendShare, SubmitSys.step, SubmitSys.checkGeneration, SubmitSys.checkAuthenticated,
      SubmitSys.nextId, SubmitSys.reserve, SubmitSys.send, h.idle, h.held, h.sharePool, h.current,
      h.authenticated, hsession, h.table, minerWorkRestartRequested, SubmitSys.setPc,
      SubmitSys.setCtx, submitIdReserve, hreap, hstale, put, hused, hnext, SubmitSys.newEntry]
  refine ⟨_, (s.ctxs 0).tickets, hrun, ?_, rfl⟩
  refine ⟨h.phase, h.pool, SubmitSys.setPc_pc_self _ _ _, h.held, h.sharePool, h.current, ?_,
    ⟨session, ?_⟩, ?_⟩
  · simp [SubmitSys.setPc, SubmitSys.setCtx, h.authenticated]
  · simp [SubmitSys.setPc, SubmitSys.setCtx, hsession]
  · simp [SubmitSys.setPc, SubmitSys.setCtx]

/-- The reply finds the entry in the first slot and frees it. -/
theorem CanSubmit.reply {id : BitVec 32} {ticket : Nat}
    (h : CanSubmit s share (SubmitSys.newEntry id 0 ticket 100 :: pending)) (hten : 10 ≤ id.toNat) :
    ∃ s', s.step oneThread (.response (acceptedReply id)) = some s' ∧
      CanSubmit s' share ((SubmitSys.newEntry id 0 ticket 100).clear :: pending) ∧
      matchedReplies oneThread.userPool true s'.log =
        matchedReplies oneThread.userPool true s.log + 1 := by
  obtain ⟨session, hsession⟩ := h.session
  have hok : submitResultOk (acceptedReply id) = true := rfl
  have hreply : s.step oneThread (.response (acceptedReply id)) = some
      { s.setCtx 0
          { s.ctxs 0 with pending := (SubmitSys.newEntry id 0 ticket 100).clear :: pending } with
        stats := countResponse oneThread.g oneThread.optNThreads s.stats 0 0 true
        log := .counted 0 ticket 0 true :: s.log } := by
    rw [SubmitSys.step, if_pos h.phase, SubmitSys.response, parse_acceptedReply]
    simp [Nat.not_lt.mpr hten, submitIdTakeMetadata, submitIdRelease, lookup, freeFirst, h.pool,
      h.table, hok, SubmitSys.ctx, SubmitSys.newEntry, SubmitSys.setCtx]
  refine ⟨_, hreply, ?_, ?_⟩
  · refine ⟨h.phase, h.pool, h.idle, h.held, h.sharePool, h.current, ?_, ⟨session, ?_⟩, ?_⟩
    · simp [SubmitSys.setCtx, h.authenticated]
    · simp [SubmitSys.setCtx, hsession]
    · simp [SubmitSys.setCtx]
  · exact matchedReplies_counted _ _ _ _ _ _ _

/-- A thread can have any number of shares accepted in a row. -/
theorem CanSubmit.acceptedTimes {e : PendingSubmit} (h : CanSubmit s share (e :: pending))
    (hfree : ∀ x ∈ e :: pending, x.used = false) (n : Nat) :
    ∃ labels s', exec (SubmitSys.step oneThread) s labels = some s' ∧
      matchedReplies oneThread.userPool true s'.log =
        matchedReplies oneThread.userPool true s.log + n := by
  induction n generalizing s e with
  | zero => exact ⟨[], s, rfl, rfl⟩
  | succ n ih =>
    obtain ⟨mid, ticket, hsend, hmid, hsame⟩ := h.sent hfree
    obtain ⟨s₁, hreply, hready, hone⟩ := hmid.reply (ten_le_nextReplyId s)
    have hfree₁ : ∀ x ∈ (SubmitSys.newEntry (nextReplyId s) 0 ticket 100).clear :: pending,
        x.used = false :=
      List.forall_mem_cons.mpr ⟨rfl, fun x hx => hfree x (List.mem_cons_of_mem _ hx)⟩
    obtain ⟨labels, s', hrun, hcount⟩ := ih hready hfree₁
    refine ⟨acceptedShare (nextReplyId s) ++ labels, s', ?_, ?_⟩
    · rw [acceptedShare, exec_append, exec_append, hsend]
      simp [hreply, hrun]
    · rw [hcount, hone, hsame]
      omega

end wrap

/-- After `2 ^ 32` accepted shares the total is 0 again. -/
theorem share_totals_wrap :
    ∃ labels s, exec (SubmitSys.step oneThread) (.start 0) labels = some s ∧
      matchedReplies oneThread.userPool true s.log = 2 ^ 32 ∧ s.stats.shareAcceptedTotal = 0 := by
  have hopened : (exec (SubmitSys.step oneThread) (.start 0) openedWithWork).isSome = true := by
    decide
  obtain ⟨s₀, hrun₀⟩ := Option.isSome_iff_exists.mp hopened
  have hready : ∃ share, CanSubmit s₀ share
      ({} :: List.replicate 255 ({} : PendingSubmit)) ∧
      matchedReplies oneThread.userPool true s₀.log = 0 := by
    have hs₀ := Option.some.inj hrun₀
    subst hs₀
    exact ⟨_, ⟨rfl, rfl, rfl, rfl, rfl, rfl, rfl, ⟨0, rfl⟩, List.replicate_succ⟩, rfl⟩
  obtain ⟨share, hready, hzero⟩ := hready
  have hfree : ∀ x ∈ ({} :: List.replicate 255 {} : List PendingSubmit), x.used = false := by
    intro x hx
    rw [← List.replicate_succ] at hx
    rw [List.eq_of_mem_replicate hx]
  obtain ⟨labels, s, hrun, hcount⟩ := hready.acceptedTimes hfree (2 ^ 32)
  have hall : exec (SubmitSys.step oneThread) (.start 0) (openedWithWork ++ labels) = some s := by
    rw [exec_append, hrun₀]
    exact hrun
  rw [hzero, Nat.zero_add] at hcount
  refine ⟨openedWithWork ++ labels, s, hall, hcount, ?_⟩
  rw [(run_statsInv hall).acceptedTotal, hcount]
  decide

end PrimoMiner
