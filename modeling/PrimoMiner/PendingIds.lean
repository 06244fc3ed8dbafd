import PrimoMiner.ShareAccounting

/-!
# The ids of pending submits

A submission takes its id under one lock and is entered in the table under another.  The counter
that hands the ids out only grows until the session is reset, so ids repeat in two ways: the counter
goes round, or it is rewound while a thread has an id that is not in the table yet, a line that is not
on the wire yet or, after a failed send, an id that it is about to release.  Without either, an id stands
for one submission, in the table and on the wire, and the entry of a line that is on the wire goes away
only with its reply or as a stale one.
-/

namespace PrimoMiner

open Runs SlotTable

/-- The id and the ticket of a submission between `stratum_submit_id_next` and the end of the send, or of
the release that follows a failed one, with its pool. -/
def SubmitPc.inFlight : SubmitPc → Option (Nat × BitVec 32 × Nat)
  | .numbered share id ticket => some (share.pool, id, ticket)
  | .reserved share id ticket => some (share.pool, id, ticket)
  | .sendFailed share id ticket => some (share.pool, id, ticket)
  | _ => none

/-- The same for a submission whose entry is in the table and whose line is to be sent next. -/
def SubmitPc.atSend : SubmitPc → Option (Nat × BitVec 32 × Nat)
  | .reserved share id ticket => some (share.pool, id, ticket)
  | _ => none

theorem SubmitPc.inFlight_of_atSend {pc : SubmitPc} {x : Nat × BitVec 32 × Nat}
    (h : pc.atSend = some x) : pc.inFlight = some x := by
  cases pc with
  | reserved share id ticket => exact h
  | _ => exact absurd h (by simp [atSend])

/-- The ids and tickets of the lines sent on pool `p` since its table was last reset: the lines that
a reply of the session can answer. -/
def linesSent (p : Nat) : List SubmitEvent → List (BitVec 32 × Nat)
  | [] => []
  | .sent pool id ticket _ _ :: log =>
    if pool = p then (id, ticket) :: linesSent p log else linesSent p log
  | .tableReset pool :: log => if pool = p then [] else linesSent p log
  | .reserved _ _ :: log => linesSent p log
  | .counted _ _ _ _ :: log => linesSent p log

/-- No table is reset under a thread that has an id of it and has not sent its line or released the id,
and the counter does not go round. -/
def IdGuard (cfg : SubmitConfig) (s : SubmitSys) : SubmitAct → Prop
  | .resetPending => ∀ t < cfg.optNThreads, (s.pc t).inFlight.map Prod.fst ≠ some s.pool
  | .nextId t => ∀ share ∈ (s.pc t).passed, 10 ≤ (s.ctxs share.pool).nextSubmitId
  | _ => True

instance (cfg : SubmitConfig) (s : SubmitSys) : ∀ a, Decidable (IdGuard cfg s a)
  | .resetPending =>
    inferInstanceAs
      (Decidable (∀ t < cfg.optNThreads, (s.pc t).inFlight.map Prod.fst ≠ some s.pool))
  | .nextId t =>
    inferInstanceAs
      (Decidable (∀ share ∈ (s.pc t).passed, 10 ≤ (s.ctxs share.pool).nextSubmitId))
  | .openSocket | .connect _ | .switchPool _ | .authorize _ | .publish _ _ _ | .updateHeight _ _ | .rekey
  | .response _ | .closeTransport | .resetWork | .clearAuthenticated | .copyWork _ _
  | .checkGeneration _ | .checkAuthenticated _ | .encodeFails _ | .reserve _ _ | .send _ _
  | .release _ => isTrue trivial

/-! ## The invariant -/

structure IdInv (s : SubmitSys) : Prop where
  -- after the last id the counter is 0, which is below 10
  below : ∀ p, 10 ≤ (s.ctxs p).nextSubmitId →
    ∀ x ∈ (s.ctxs p).issued, x.1 < (s.ctxs p).nextSubmitId
  nodup : ∀ p, ((s.ctxs p).issued.map Prod.fst).Nodup
  entry : ∀ p, ∀ e ∈ s.entries p, (e.id, e.ticket) ∈ (s.ctxs p).issued
  inFlight : ∀ t p x, (s.pc t).inFlight = some (p, x) → x ∈ (s.ctxs p).issued
  line : ∀ p, ∀ x ∈ linesSent p s.log, x ∈ (s.ctxs p).issued

section ids
variable {cfg : SubmitConfig} {s s' : SubmitSys}

/-- An id that was handed out stands for one ticket. -/
theorem IdInv.ticket_eq (h : IdInv s) {p : Nat} {x y : BitVec 32 × Nat}
    (hx : x ∈ (s.ctxs p).issued) (hy : y ∈ (s.ctxs p).issued) (hid : x.1 = y.1) : x = y :=
  List.inj_on_of_nodup_map (h.nodup p) hx hy hid

/-- The same ids were handed out. -/
structure SameIds (s s' : SubmitSys) : Prop where
  counter : ∀ p, (s'.ctxs p).nextSubmitId = (s.ctxs p).nextSubmitId
  issued : ∀ p, (s'.ctxs p).issued = (s.ctxs p).issued

theorem SameIds.setCtx_issued {p : Nat} {c : SubmitCtx} (hctxs : s'.ctxs = Function.update s.ctxs p c)
    (hissued : c.issued = (s.ctxs p).issued) (q : Nat) : (s'.ctxs q).issued = (s.ctxs q).issued := by
  rw [hctxs, Function.update_apply]
  split
  · rename_i hq
    rw [hissued, hq]
  · rfl

theorem SameIds.setCtx {p : Nat} {c : SubmitCtx} (hctxs : s'.ctxs = Function.update s.ctxs p c)
    (hcounter : c.nextSubmitId = (s.ctxs p).nextSubmitId)
    (hissued : c.issued = (s.ctxs p).issued) : SameIds s s' := by
  refine ⟨?_, SameIds.setCtx_issued hctxs hissued⟩
  intro q
  rw [hctxs, Function.update_apply]
  split
  · rename_i hq
    rw [hcounter, hq]
  · rfl

/-- What is in the table, with the threads and on the wire is among the ids handed out before. -/
theorem IdInv.keep (h : IdInv s) (hsame : SameIds s s')
    (hentry : ∀ p, ∀ e ∈ s'.entries p, (e.id, e.ticket) ∈ (s.ctxs p).issued)
    (hflight : ∀ t p x, (s'.pc t).inFlight = some (p, x) → x ∈ (s.ctxs p).issued)
    (hline : ∀ p, ∀ x ∈ linesSent p s'.log, x ∈ (s.ctxs p).issued) : IdInv s' := by
  refine ⟨?_, ?_, ?_, ?_, ?_⟩
  · intro p
    rw [hsame.counter, hsame.issued]
    exact h.below p
  · intro p
    rw [hsame.issued]
    exact h.nodup p
  · intro p e he
    rw [hsame.issued]
    exact hentry p e he
  · intro t p x ht
    rw [hsame.issued]
    exact hflight t p x ht
  · intro p x hx
    rw [hsame.issued]
    exact hline p x hx

theorem inFlight_setPc {thread : Nat} {pc : SubmitPc}
    (hpc : ∀ x, pc.inFlight = some x → (s.pc thread).inFlight = some x) (t : Nat)
    (x : Nat × BitVec 32 × Nat) (ht : ((s.setPc thread pc).pc t).inFlight = some x) :
    (s.pc t).inFlight = some x := by
  rw [SubmitSys.setPc_pc] at ht
  split at ht
  · rename_i heq
    rw [heq]
    exact hpc x ht
  · exact ht

/-- A thread that is between two submissions has no id. -/
theorem inFlight_none {pc : SubmitPc} (hpc : pc.inFlight = none) {thread : Nat}
    (x : Nat × BitVec 32 × Nat) (hx : pc.inFlight = some x) : (s.pc thread).inFlight = some x :=
  absurd (hpc.symm.trans hx) (by simp)

/-- One context loses entries and keeps its ids, and a thread may leave the send. -/
theorem IdInv.context (h : IdInv s) {p : Nat} {c : SubmitCtx}
    (hctxs : s'.ctxs = Function.update s.ctxs p c)
    (hcounter : c.nextSubmitId = (s.ctxs p).nextSubmitId) (hissued : c.issued = (s.ctxs p).issued)
    (hentries : (live PendingSubmit.used c.pending).Sublist (s.entries p))
    (hpc : ∀ t x, (s'.pc t).inFlight = some x → (s.pc t).inFlight = some x)
    (hlines : ∀ q, linesSent q s'.log = linesSent q s.log) : IdInv s' := by
  refine h.keep (.setCtx hctxs hcounter hissued) ?_ ?_ ?_
  · intro q e he
    have hin : e ∈ (s.setCtx p c).entries q := by
      unfold SubmitSys.entries at he ⊢
      rw [hctxs] at he
      exact he
    exact h.entry q e ((entries_setCtx_sublist hentries q).subset hin)
  · intro t q x ht
    exact h.inFlight t q x (hpc t _ ht)
  · intro q x hx
    rw [hlines] at hx
    exact h.line q x hx

/-- A thread takes up no other id. -/
theorem IdInv.setPc (h : IdInv s) (thread : Nat) {pc : SubmitPc}
    (hpc : ∀ x, pc.inFlight = some x → (s.pc thread).inFlight = some x) :
    IdInv (s.setPc thread pc) :=
  h.keep ⟨fun _ => rfl, fun _ => rfl⟩ h.entry (fun t _ _ ht => h.inFlight t _ _
    (inFlight_setPc hpc t _ ht)) h.line

/-! ## Steps -/

theorem stratumSubmitIdNext_of_ge {n : BitVec 32} (hten : 10 ≤ n) :
    stratumSubmitIdNext n = (n, n + 1) := by
  have hlt : ¬ n < 10 := by bv_omega
  simp only [stratumSubmitIdNext, if_neg hlt]

/-- Before it goes round the counter is above every id it has handed out. -/
theorem IdInv.number (h : IdInv s) {thread p ticket : Nat} {c : SubmitCtx} {pc : SubmitPc}
    {id : BitVec 32} (hctxs : s'.ctxs = Function.update s.ctxs p c)
    (hpcs : s'.pc = Function.update s.pc thread pc) (hlog : s'.log = s.log)
    (hpending : c.pending = (s.ctxs p).pending) (hten : 10 ≤ (s.ctxs p).nextSubmitId)
    (hnext : stratumSubmitIdNext (s.ctxs p).nextSubmitId = (id, c.nextSubmitId))
    (hissued : c.issued = (id, ticket) :: (s.ctxs p).issued)
    (hflight : pc.inFlight = some (p, id, ticket)) : IdInv s' := by
  rw [stratumSubmitIdNext_of_ge hten, Prod.mk.injEq] at hnext
  obtain ⟨hid, hcounter⟩ := hnext
  have hat : ∀ q, s'.ctxs q = if q = p then c else s.ctxs q := by
    intro q
    rw [hctxs, Function.update_apply]
  have hmono : ∀ q, ∀ x ∈ (s.ctxs q).issued, x ∈ (s'.ctxs q).issued := by
    intro q x hx
    rw [hat]
    split
    · rename_i hq
      rw [hissued, ← hq]
      exact List.mem_cons_of_mem _ hx
    · exact hx
  have hbelow := h.below p hten
  refine ⟨?_, ?_, ?_, ?_, ?_⟩
  · intro q
    rw [hat]
    split
    · rw [hissued, ← hcounter, ← hid]
      intro hround
      have hlast : (s.ctxs p).nextSubmitId < (s.ctxs p).nextSubmitId + 1 := by bv_omega
      refine List.forall_mem_cons.mpr ⟨hlast, ?_⟩
      intro x hx
      exact BitVec.lt_trans (hbelow x hx) hlast
    · exact h.below q
  · intro q
    rw [hat]
    split
    · rw [hissued, List.map_cons, List.nodup_cons, ← hid]
      refine ⟨?_, h.nodup p⟩
      intro hmem
      obtain ⟨x, hx, heq⟩ := List.mem_map.mp hmem
      have hlt := hbelow x hx
      rw [heq] at hlt
      exact absurd hlt (BitVec.lt_irrefl _)
    · exact h.nodup q
  · intro q e he
    apply hmono
    apply h.entry
    unfold SubmitSys.entries at he ⊢
    rw [hat] at he
    split at he
    · rename_i hq
      rw [hq, ← hpending]
      exact he
    · exact he
  · intro t q x ht
    rw [hpcs, Function.update_apply] at ht
    split at ht
    · -- the id that was just handed out
      rw [hflight, Option.some.injEq, Prod.mk.injEq] at ht
      rw [hat, if_pos ht.1.symm, hissued, ← ht.2]
      exact List.mem_cons_self
    · exact hmono q x (h.inFlight t q x ht)
  · intro q x hx
    rw [hlog] at hx
    exact hmono q x (h.line q x hx)

/-- The entry that is stored has the id and the ticket of its thread. -/
theorem IdInv.reserve (h : IdInv s) {thread : Nat} {share : Share} {id : BitVec 32}
    {ticket : Nat} {now : Int} {pending : List PendingSubmit}
    (hpc : s.pc thread = .numbered share id ticket)
    (hput : put PendingSubmit.used (SubmitSys.newEntry id thread ticket now)
      (s.reaped cfg share.pool now) = some pending) :
    IdInv ({ s.setCtx share.pool (s.reapedCtx cfg share.pool now pending) with
      log := .reserved share.pool ticket :: s.log }.setPc thread (.reserved share id ticket)) := by
  have hissued : (id, ticket) ∈ (s.ctxs share.pool).issued :=
    h.inFlight thread share.pool (id, ticket) (by rw [hpc]; rfl)
  have hperm : (live PendingSubmit.used pending).Perm
      (SubmitSys.newEntry id thread ticket now ::
        live PendingSubmit.used (s.reaped cfg share.pool now)) := live_put rfl hput
  refine h.keep (.setCtx rfl (by rfl) (by rfl)) ?_ ?_ h.line
  · intro p e he
    have hin : e ∈ (s.setCtx share.pool (s.reapedCtx cfg share.pool now pending)).entries p := he
    rw [entries_setCtx] at hin
    split at hin
    · rename_i hp
      rw [hp]
      rcases List.mem_cons.mp (hperm.mem_iff.mp hin) with rfl | hold
      · exact hissued
      · exact h.entry share.pool e ((live_reaped cfg s share.pool now).subset hold)
    · exact h.entry p e hin
  · intro t p x ht
    rw [SubmitSys.setPc_pc] at ht
    split at ht
    · rename_i heq
      exact h.inFlight t p x (by rw [heq, hpc]; exact ht)
    · exact h.inFlight t p x ht

theorem IdInv.send (h : IdInv s) {thread : Nat} {share : Share} {id : BitVec 32}
    {ticket session : Nat} (hpc : s.pc thread = .reserved share id ticket) :
    IdInv ({ s with log := .sent share.pool id ticket session share.session :: s.log }.setPc thread
      .idle) := by
  refine h.keep ⟨fun _ => rfl, fun _ => rfl⟩ h.entry ?_ ?_
  · intro t p x ht
    exact h.inFlight t p x (inFlight_setPc (s := s) (inFlight_none rfl) t _ ht)
  · intro p x hx
    change x ∈ linesSent p (.sent share.pool id ticket session share.session :: s.log) at hx
    rw [linesSent] at hx
    split at hx
    · rename_i hp
      rcases List.mem_cons.mp hx with rfl | hx
      · exact h.inFlight thread p (id, ticket) (by rw [hpc, ← hp]; rfl)
      · exact h.line p x hx
    · exact h.line p x hx

/-- The counter is rewound when nobody has an id of the table. -/
theorem IdInv.resetPending (h : IdInv s) (hidle : s.ThreadsIdle cfg)
    (hguard : ∀ t < cfg.optNThreads, (s.pc t).inFlight.map Prod.fst ≠ some s.pool) :
    IdInv s.resetPending := by
  have hother : ∀ p, p ≠ s.pool → s.resetPending.ctxs p = s.ctxs p := by
    intro p hp
    simp [SubmitSys.resetPending, SubmitSys.setCtx, Function.update_of_ne hp]
  have hself : (s.resetPending.ctxs s.pool).issued = [] := by simp [SubmitSys.resetPending]
  have hempty : s.resetPending.entries s.pool = [] := by
    unfold SubmitSys.entries
    simp only [SubmitSys.resetPending, SubmitSys.setCtx_ctxs_self]
    exact live_empty
  refine ⟨?_, ?_, ?_, ?_, ?_⟩
  · intro p
    by_cases hp : p = s.pool
    · rw [hp, hself]
      simp
    · rw [hother p hp]
      exact h.below p
  · intro p
    by_cases hp : p = s.pool
    · rw [hp, hself]
      exact List.nodup_nil
    · rw [hother p hp]
      exact h.nodup p
  · intro p e he
    by_cases hp : p = s.pool
    · rw [hp, hempty] at he
      exact absurd he List.not_mem_nil
    · unfold SubmitSys.entries at he
      rw [hother p hp] at he ⊢
      exact h.entry p e he
  · intro t p x ht
    have hbefore : (s.pc t).inFlight = some (p, x) := ht
    have hlt : t < cfg.optNThreads := by
      refine hidle.lt (Or.inr ?_)
      intro hpc
      rw [hpc] at hbefore
      exact absurd hbefore (by simp [SubmitPc.inFlight])
    have hp : p ≠ s.pool := by
      intro heq
      exact hguard t hlt (by rw [hbefore, heq]; rfl)
    rw [hother p hp]
    exact h.inFlight t p x hbefore
  · intro p x hx
    change x ∈ linesSent p (.tableReset s.pool :: s.log) at hx
    rw [linesSent] at hx
    split at hx
    · exact absurd hx List.not_mem_nil
    · rename_i hp
      rw [hother p (Ne.symm hp)]
      exact h.line p x hx

theorem IdInv.step (h : IdInv s) (hidle : s.ThreadsIdle cfg) {a : SubmitAct}
    (hguard : IdGuard cfg s a) (ht : SubmitSys.Trans cfg s a s') : IdInv s' := by
  have hsame : ∀ p, (s.entries p).Sublist (s.entries p) := fun p => List.Sublist.refl _
  have hpcs : ∀ t x, (s.pc t).inFlight = some x → (s.pc t).inFlight = some x := fun _ _ ht => ht
  cases ht with
  | openSocket _ => exact h.context rfl (by rfl) (by rfl) (hsame _) hpcs fun _ => rfl
  | connectFails _ => exact h.context rfl (by rfl) (by rfl) (hsame _) hpcs fun _ => rfl
  | authorize _ ok => exact h.context rfl (by rfl) (by rfl) (hsame _) hpcs fun _ => rfl
  | ignored _ val => exact h
  | counted _ _ _ hentry =>
    exact h.context rfl (by rfl) (by rfl) (live_release _ _) hpcs fun _ => rfl
  | closeTransport _ => exact h.context rfl (by rfl) (by rfl) (hsame _) hpcs fun _ => rfl
  | resetPending _ => exact h.resetPending hidle hguard
  | clearAuthenticated _ => exact h.context rfl (by rfl) (by rfl) (hsame _) hpcs fun _ => rfl
  | copyWork _ _ copied =>
    unfold SubmitSys.copyWork
    split
    · exact h.keep ⟨fun _ => rfl, fun _ => rfl⟩ h.entry h.inFlight h.line
    · exact h
  | dropped _ => exact h
  | checked _ _ _ => exact h.setPc _ (inFlight_none rfl)
  | unauthenticated _ => exact h.setPc _ (inFlight_none rfl)
  | authorized _ => exact h.setPc _ (inFlight_none rfl)
  | encodeFails _ => exact h.setPc _ (inFlight_none rfl)
  | numbered hpc =>
    have hten := hguard _ (by rw [hpc]; rfl)
    exact h.number rfl rfl rfl (by rfl) hten (by rfl) (by rfl) (by rfl)
  | reserved hpc hput => exact h.reserve hpc hput
  | queueFull now hpc =>
    exact h.context rfl (by rfl) (by rfl) (live_reaped cfg s _ now)
      (inFlight_setPc (inFlight_none rfl)) fun _ => rfl
  | sent hpc _ => exact h.send hpc
  | sendFailed hpc =>
    refine h.setPc _ fun x hx => ?_
    rw [hpc]
    exact hx
  | released _ =>
    exact h.context rfl (by rfl) (by rfl) (live_release _ _) (inFlight_setPc (inFlight_none rfl))
      fun _ => rfl
  -- the works and the generation
  | _ => exact h.keep ⟨fun _ => rfl, fun _ => rfl⟩ h.entry h.inFlight h.line

theorem idInv_start (pool : Nat) : IdInv (.start pool) := by
  have hnone : ∀ p, (SubmitSys.start pool).entries p = [] := fun _ => live_empty
  refine ⟨?_, fun _ => List.nodup_nil, ?_, ?_, ?_⟩
  · intro p _ x hx
    exact absurd hx List.not_mem_nil
  · intro p e he
    rw [hnone] at he
    exact absurd he List.not_mem_nil
  · intro t p x ht
    exact absurd ht (by simp [SubmitSys.start, SubmitPc.inFlight])
  · intro p x hx
    exact absurd hx List.not_mem_nil

/-- Distinct tickets have distinct ids. -/
theorem IdInv.nodup_ids (h : IdInv s) (htickets : TicketInv s) (p : Nat) :
    ((s.entries p).map PendingSubmit.id).Nodup := by
  have hnodup := htickets.nodup p
  rw [List.Nodup, List.pairwise_map] at hnodup ⊢
  refine hnodup.imp_of_mem ?_
  intro e e' he he' hne heq
  have hsame := h.ticket_eq (h.entry p e he) (h.entry p e' he') heq
  exact hne (congrArg Prod.snd hsame)

end ids

/-! ## The lines on the wire -/

/-- The entry of a submission is in the table, was freed as stale or was taken out by a reply. -/
def Findable (s : SubmitSys) (p : Nat) (x : BitVec 32 × Nat) : Prop :=
  (∃ e ∈ s.entries p, (e.id, e.ticket) = x) ∨ x.2 ∈ (s.ctxs p).reapedTickets ∨
    (p, x.2) ∈ countedTickets s.log

structure LineInv (s : SubmitSys) : Prop where
  ten : ∀ p, ∀ x ∈ (s.ctxs p).issued, 10 ≤ x.1
  apart : ∀ t u x, (s.pc t).inFlight = some x → (s.pc u).inFlight = some x → t = u
  unsent : ∀ t p x, (s.pc t).inFlight = some (p, x) → x ∉ linesSent p s.log
  line : ∀ p, ∀ x ∈ linesSent p s.log, Findable s p x
  atSend : ∀ t p x, (s.pc t).atSend = some (p, x) → Findable s p x

section lines
variable {cfg : SubmitConfig} {s s' : SubmitSys}

/-- The entry is there if the table has only grown. -/
theorem Findable.mono {p : Nat} {x : BitVec 32 × Nat} (h : Findable s p x)
    (hentries : ∀ e ∈ s.entries p, e ∈ s'.entries p)
    (hreaped : ∀ ticket ∈ (s.ctxs p).reapedTickets, ticket ∈ (s'.ctxs p).reapedTickets)
    (hcounted : ∀ y ∈ countedTickets s.log, y ∈ countedTickets s'.log) : Findable s' p x := by
  rcases h with ⟨e, he, hx⟩ | hgone | hgone
  · exact Or.inl ⟨e, hentries e he, hx⟩
  · exact Or.inr (Or.inl (hreaped _ hgone))
  · exact Or.inr (Or.inr (hcounted _ hgone))

/-- The update of a context that leaves its table alone. -/
theorem Findable.setCtx {p q : Nat} {c : SubmitCtx} {x : BitVec 32 × Nat} (h : Findable s q x)
    (hctxs : s'.ctxs = Function.update s.ctxs p c) (hpending : c.pending = (s.ctxs p).pending)
    (hreaped : c.reapedTickets = (s.ctxs p).reapedTickets) (hlog : s'.log = s.log) :
    Findable s' q x := by
  have hat : (s'.ctxs q).pending = (s.ctxs q).pending ∧
      (s'.ctxs q).reapedTickets = (s.ctxs q).reapedTickets := by
    rw [hctxs, Function.update_apply]
    split
    · rename_i hq
      rw [hpending, hreaped, hq]
      exact ⟨rfl, rfl⟩
    · exact ⟨rfl, rfl⟩
  refine h.mono ?_ ?_ ?_
  · intro e he
    unfold SubmitSys.entries at he ⊢
    rw [hat.1]
    exact he
  · rw [hat.2]
    exact fun _ hticket => hticket
  · rw [hlog]
    exact fun _ hy => hy

/-- The reservation loses only stale entries. -/
theorem Findable.reap {p q : Nat} {now : Int} {pending : List PendingSubmit} {x : BitVec 32 × Nat}
    (h : Findable s q x)
    (hpending : ∀ e ∈ live PendingSubmit.used (s.reaped cfg p now),
      e ∈ live PendingSubmit.used pending)
    (hctxs : s'.ctxs = Function.update s.ctxs p (s.reapedCtx cfg p now pending))
    (hcounted : countedTickets s'.log = countedTickets s.log) : Findable s' q x := by
  by_cases hq : q = p
  · subst hq
    have hat : s'.ctxs q = s.reapedCtx cfg q now pending := by
      rw [hctxs, Function.update_self]
    rcases h with ⟨e, he, hx⟩ | hgone | hgone
    · by_cases hstale : e.stale now (submitIdTimeoutSeconds (cfg.poolTimeout q)) = true
      · refine Or.inr (Or.inl ?_)
        rw [hat, ← hx]
        refine List.mem_append_left _ (List.mem_map.mpr ⟨e, ?_, rfl⟩)
        exact List.mem_filter.mpr ⟨(List.mem_filter.mp he).1, hstale⟩
      · refine Or.inl ⟨e, ?_, hx⟩
        unfold SubmitSys.entries
        rw [hat]
        apply hpending
        unfold SubmitSys.reaped submitIdReapStaleLocked
        rw [live_freeAll clear_used]
        exact List.mem_filter.mpr ⟨he, by simp [hstale]⟩
    · refine Or.inr (Or.inl ?_)
      rw [hat]
      exact List.mem_append_right _ hgone
    · exact Or.inr (Or.inr (hcounted ▸ hgone))
  · have hat : s'.ctxs q = s.ctxs q := by
      rw [hctxs, Function.update_of_ne hq]
    refine h.mono ?_ ?_ ?_
    · intro e he
      unfold SubmitSys.entries at he ⊢
      rw [hat]
      exact he
    · rw [hat]
      exact fun _ hticket => hticket
    · rw [hcounted]
      exact fun _ hy => hy

/-- One entry with the id is freed: every other submission keeps its own. -/
theorem Findable.release {q : Nat} {c : SubmitCtx} {x : BitVec 32 × Nat} (h : Findable s q x) (p : Nat)
    (id : BitVec 32) (hctxs : s'.ctxs = Function.update s.ctxs p c)
    (hpending : c.pending = submitIdRelease (s.ctxs p).pending id)
    (hreaped : c.reapedTickets = (s.ctxs p).reapedTickets)
    (hcounted : ∀ y ∈ countedTickets s.log, y ∈ countedTickets s'.log)
    (hother : q = p → x.1 = id → (p, x.2) ∈ countedTickets s'.log) : Findable s' q x := by
  by_cases hq : q = p
  · subst hq
    have hat : s'.ctxs q = c := by rw [hctxs, Function.update_self]
    rcases h with ⟨e, he, hx⟩ | hgone | hgone
    · by_cases hid : e.id = id
      · exact Or.inr (Or.inr (hother rfl (by rw [← hx]; exact hid)))
      · refine Or.inl ⟨e, ?_, hx⟩
        unfold SubmitSys.entries
        rw [hat, hpending, submitIdRelease, live_freeFirst clear_used]
        exact (List.mem_eraseP_of_neg (by simpa using hid)).mpr he
    · refine Or.inr (Or.inl ?_)
      rw [hat, hreaped]
      exact hgone
    · exact Or.inr (Or.inr (hcounted _ hgone))
  · have hat : s'.ctxs q = s.ctxs q := by
      rw [hctxs, Function.update_of_ne hq]
    refine h.mono ?_ ?_ hcounted
    · intro e he
      unfold SubmitSys.entries at he ⊢
      rw [hat]
      exact he
    · rw [hat]
      exact fun _ hticket => hticket

/-- No id is handed out and no line is sent. -/
theorem LineInv.keep (h : LineInv s) (hissued : ∀ p, (s'.ctxs p).issued = (s.ctxs p).issued)
    (hflight : ∀ t x, (s'.pc t).inFlight = some x → (s.pc t).inFlight = some x)
    (hatSend : ∀ t x, (s'.pc t).atSend = some x → (s.pc t).atSend = some x)
    (hlines : ∀ p, linesSent p s'.log = linesSent p s.log)
    (hkept : ∀ p x, (x ∈ linesSent p s.log ∨ ∃ t, (s'.pc t).atSend = some (p, x)) →
      Findable s p x → Findable s' p x) : LineInv s' := by
  refine ⟨?_, ?_, ?_, ?_, ?_⟩
  · intro p
    rw [hissued]
    exact h.ten p
  · intro t u x ht hu
    exact h.apart t u x (hflight t x ht) (hflight u x hu)
  · intro t p x ht
    rw [hlines]
    exact h.unsent t p x (hflight t _ ht)
  · intro p x hx
    rw [hlines] at hx
    exact hkept p x (Or.inl hx) (h.line p x hx)
  · intro t p x ht
    exact hkept p x (Or.inr ⟨t, ht⟩) (h.atSend t p x (hatSend t _ ht))

theorem atSend_setPc {thread : Nat} {pc : SubmitPc} (hpc : pc.atSend = none) (t : Nat)
    (x : Nat × BitVec 32 × Nat) (ht : ((s.setPc thread pc).pc t).atSend = some x) :
    (s.pc t).atSend = some x := by
  rw [SubmitSys.setPc_pc] at ht
  split at ht
  · exact absurd (hpc.symm.trans ht) (by simp)
  · exact ht

/-- A step of one thread that comes neither to an id nor to the send. -/
theorem LineInv.setPc (h : LineInv s) (thread : Nat) {pc : SubmitPc}
    (hpc : ∀ x, pc.inFlight = some x → (s.pc thread).inFlight = some x) (hat : pc.atSend = none) :
    LineInv (s.setPc thread pc) :=
  h.keep (fun _ => rfl) (inFlight_setPc hpc) (atSend_setPc hat) (fun _ => rfl) fun _ _ _ hx => hx

/-- A step of the service thread that leaves the table of its context alone. -/
theorem LineInv.context (h : LineInv s) {p : Nat} {c : SubmitCtx}
    (hctxs : s'.ctxs = Function.update s.ctxs p c) (hpending : c.pending = (s.ctxs p).pending)
    (hreaped : c.reapedTickets = (s.ctxs p).reapedTickets)
    (hissued : c.issued = (s.ctxs p).issued) (hpc : s'.pc = s.pc) (hlog : s'.log = s.log) :
    LineInv s' := by
  refine h.keep (SameIds.setCtx_issued hctxs hissued) ?_ ?_ ?_ ?_
  · rw [hpc]
    exact fun _ _ ht => ht
  · rw [hpc]
    exact fun _ _ ht => ht
  · rw [hlog]
    exact fun _ => rfl
  · intro q x _ hx
    exact hx.setCtx hctxs hpending hreaped hlog

/-- A new id is nobody else's and on no line. -/
theorem LineInv.number (h : LineInv s) (hids : IdInv s) {thread p ticket : Nat} {c : SubmitCtx}
    {pc : SubmitPc} {id : BitVec 32} (hctxs : s'.ctxs = Function.update s.ctxs p c)
    (hpcs : s'.pc = Function.update s.pc thread pc) (hlog : s'.log = s.log)
    (hpending : c.pending = (s.ctxs p).pending)
    (hreaped : c.reapedTickets = (s.ctxs p).reapedTickets) (hten : 10 ≤ (s.ctxs p).nextSubmitId)
    (hid : id = (s.ctxs p).nextSubmitId) (hissued : c.issued = (id, ticket) :: (s.ctxs p).issued)
    (hflight : pc.inFlight = some (p, id, ticket)) (hat : pc.atSend = none) : LineInv s' := by
  have hnew : (id, ticket) ∉ (s.ctxs p).issued := by
    intro hmem
    have hlt := hids.below p hten _ hmem
    rw [hid] at hlt
    exact absurd hlt (BitVec.lt_irrefl _)
  have hcases : ∀ t x, (s'.pc t).inFlight = some x →
      (t = thread ∧ x = (p, id, ticket)) ∨ (t ≠ thread ∧ (s.pc t).inFlight = some x) := by
    intro t x ht
    rw [hpcs, Function.update_apply] at ht
    split at ht
    · rename_i heq
      rw [hflight, Option.some.injEq] at ht
      exact Or.inl ⟨heq, ht.symm⟩
    · rename_i hne
      exact Or.inr ⟨hne, ht⟩
  have hfresh : ∀ t, (s.pc t).inFlight ≠ some (p, id, ticket) := fun t ht =>
    hnew (hids.inFlight t p _ ht)
  refine ⟨?_, ?_, ?_, ?_, ?_⟩
  · intro q x hx
    rw [hctxs, Function.update_apply] at hx
    split at hx
    · rw [hissued, List.mem_cons] at hx
      rcases hx with rfl | hx
      · rw [hid]
        exact hten
      · exact h.ten p x hx
    · exact h.ten q x hx
  · intro t u x ht hu
    rcases hcases t x ht with ⟨rfl, rfl⟩ | ⟨-, ht⟩
    · rcases hcases u _ hu with ⟨rfl, -⟩ | ⟨-, hu⟩
      · rfl
      · exact absurd hu (hfresh u)
    · rcases hcases u x hu with ⟨-, rfl⟩ | ⟨-, hu⟩
      · exact absurd ht (hfresh t)
      · exact h.apart t u x ht hu
  · intro t q x ht
    rw [hlog]
    rcases hcases t _ ht with ⟨-, heq⟩ | ⟨-, ht⟩
    · rw [Prod.mk.injEq] at heq
      rw [heq.1, heq.2]
      exact fun hline => hnew (hids.line p _ hline)
    · exact h.unsent t q x ht
  · intro q x hx
    rw [hlog] at hx
    exact (h.line q x hx).setCtx hctxs hpending hreaped hlog
  · intro t q x ht
    rw [hpcs, Function.update_apply] at ht
    split at ht
    · exact absurd (hat.symm.trans ht) (by simp)
    · exact (h.atSend t q x ht).setCtx hctxs hpending hreaped hlog

/-- The submission whose entry was just stored can be found. -/
theorem LineInv.reserve (h : LineInv s) {thread : Nat} {share : Share} {id : BitVec 32}
    {ticket : Nat} {now : Int} {pending : List PendingSubmit}
    (hpc : s.pc thread = .numbered share id ticket)
    (hput : put PendingSubmit.used (SubmitSys.newEntry id thread ticket now)
      (s.reaped cfg share.pool now) = some pending) :
    LineInv ({ s.setCtx share.pool (s.reapedCtx cfg share.pool now pending) with
      log := .reserved share.pool ticket :: s.log }.setPc thread (.reserved share id ticket)) := by
  have hperm : (live PendingSubmit.used pending).Perm
      (SubmitSys.newEntry id thread ticket now ::
        live PendingSubmit.used (s.reaped cfg share.pool now)) := live_put rfl hput
  have hkeep : ∀ q x, Findable s q x →
      Findable ({ s.setCtx share.pool (s.reapedCtx cfg share.pool now pending) with
        log := .reserved share.pool ticket :: s.log }.setPc thread (.reserved share id ticket)) q x := by
    intro q x hx
    refine hx.reap (fun e he => ?_) rfl rfl
    exact hperm.mem_iff.mpr (List.mem_cons_of_mem _ he)
  have hflight : ∀ t x, (({ s.setCtx share.pool (s.reapedCtx cfg share.pool now pending) with
      log := .reserved share.pool ticket :: s.log }.setPc thread
        (.reserved share id ticket) : SubmitSys).pc t).inFlight = some x →
      (s.pc t).inFlight = some x := by
    refine inFlight_setPc (s := s) ?_
    intro x hx
    rw [hpc]
    exact hx
  refine ⟨?_, ?_, ?_, ?_, ?_⟩
  · intro p x hx
    have hsame : ((s.setCtx share.pool (s.reapedCtx cfg share.pool now pending)).ctxs p).issued =
        (s.ctxs p).issued :=
      SameIds.setCtx_issued (c := s.reapedCtx cfg share.pool now pending) rfl rfl p
    exact h.ten p x (hsame ▸ hx)
  · intro t u x ht hu
    exact h.apart t u x (hflight t x ht) (hflight u x hu)
  · intro t p x ht
    exact h.unsent t p x (hflight t _ ht)
  · intro p x hx
    exact hkeep p x (h.line p x hx)
  · intro t p x ht
    rw [SubmitSys.setPc_pc] at ht
    split at ht
    · rw [SubmitPc.atSend, Option.some.injEq, Prod.mk.injEq] at ht
      refine Or.inl ⟨SubmitSys.newEntry id thread ticket now, ?_, ht.2⟩
      rw [← ht.1]
      unfold SubmitSys.entries
      show _ ∈ live PendingSubmit.used ((s.setCtx share.pool
        (s.reapedCtx cfg share.pool now pending)).ctxs share.pool).pending
      rw [SubmitSys.setCtx_ctxs_self]
      exact hperm.mem_iff.mpr List.mem_cons_self
    · exact hkeep p x (h.atSend t p x ht)

/-- The line goes out while its entry can be found. -/
theorem LineInv.send (h : LineInv s) {thread : Nat} {share : Share} {id : BitVec 32}
    {ticket session : Nat} (hpc : s.pc thread = .reserved share id ticket) :
    LineInv ({ s with log := .sent share.pool id ticket session share.session :: s.log }.setPc thread
      .idle) := by
  have hown : (s.pc thread).inFlight = some (share.pool, id, ticket) := by rw [hpc]; rfl
  have hcases : ∀ t x, (({ s with
      log := .sent share.pool id ticket session share.session :: s.log }.setPc thread
        .idle : SubmitSys).pc t).inFlight = some x → t ≠ thread ∧ (s.pc t).inFlight = some x := by
    intro t x ht
    rw [SubmitSys.setPc_pc] at ht
    split at ht
    · exact absurd ht (by simp [SubmitPc.inFlight])
    · rename_i hne
      exact ⟨hne, ht⟩
  have hlines : ∀ p x, x ∈ linesSent p (.sent share.pool id ticket session share.session :: s.log) →
      (share.pool = p ∧ x = (id, ticket)) ∨ x ∈ linesSent p s.log := by
    intro p x hx
    rw [linesSent] at hx
    split at hx
    · rename_i hp
      exact (List.mem_cons.mp hx).imp (fun heq => ⟨hp, heq⟩) fun hx => hx
    · exact Or.inr hx
  refine ⟨h.ten, ?_, ?_, ?_, ?_⟩
  · intro t u x ht hu
    exact h.apart t u x (hcases t x ht).2 (hcases u x hu).2
  · intro t p x ht hx
    obtain ⟨hne, hbefore⟩ := hcases t _ ht
    rcases hlines p x hx with ⟨rfl, rfl⟩ | hx
    · exact hne (h.apart t thread _ hbefore hown)
    · exact h.unsent t p x hbefore hx
  · intro p x hx
    rcases hlines p x hx with ⟨rfl, rfl⟩ | hx
    · exact h.atSend thread share.pool (id, ticket) (by rw [hpc]; rfl)
    · exact h.line p x hx
  · intro t p x ht
    exact h.atSend t p x (atSend_setPc (s := s) (by rfl) t _ ht)

/-- A reply takes out the entry of the submission that it is counted for. -/
theorem LineInv.count (h : LineInv s) (hids : IdInv s) {id : Nat} {entry : PendingSubmit}
    {stats : ShareStats} {accepted : Bool}
    (hentry : lookup PendingSubmit.used (·.id == BitVec.ofNat 32 id) s.ctx.pending = some entry) :
    LineInv
      { s.setCtx s.pool
          { s.ctx with pending := submitIdRelease s.ctx.pending (BitVec.ofNat 32 id) } with
        stats := stats
        log := .counted s.pool entry.ticket entry.threadId accepted :: s.log } := by
  obtain ⟨hmem, heq⟩ := lookup_mem_entries hentry
  refine h.keep (SameIds.setCtx_issued rfl rfl) (fun _ _ ht => ht) (fun _ _ ht => ht)
    (fun _ => rfl) ?_
  intro p x hon hx
  refine hx.release s.pool (BitVec.ofNat 32 id) rfl rfl rfl
    (fun y hy => List.mem_cons_of_mem _ hy) ?_
  rintro rfl hid
  -- the entry with the id is the one of the submission
  have hissued : x ∈ (s.ctxs s.pool).issued := by
    rcases hon with hline | ⟨t, ht⟩
    · exact hids.line s.pool x hline
    · exact hids.inFlight t s.pool x (SubmitPc.inFlight_of_atSend ht)
  have hsame := hids.ticket_eq hissued (hids.entry s.pool entry hmem) (hid.trans heq.symm)
  rw [hsame]
  exact List.mem_cons_self

/-- After a failed send only the thread's own entry can have its id. -/
theorem LineInv.released (h : LineInv s) (hids : IdInv s) {thread : Nat} {share : Share}
    {id : BitVec 32} {ticket : Nat} (hpc : s.pc thread = .sendFailed share id ticket) :
    LineInv ((s.setCtx share.pool
      { s.ctxs share.pool with
        pending := submitIdRelease (s.ctxs share.pool).pending id }).setPc thread .idle) := by
  have hown : (s.pc thread).inFlight = some (share.pool, id, ticket) := by rw [hpc]; rfl
  refine h.keep (SameIds.setCtx_issued rfl rfl) (inFlight_setPc (inFlight_none rfl))
    (atSend_setPc rfl) (fun _ => rfl) ?_
  intro p x hon hx
  refine hx.release share.pool id rfl rfl rfl (fun y hy => hy) ?_
  rintro rfl hid
  exfalso
  have hsame : ∀ y ∈ (s.ctxs share.pool).issued, y.1 = id → y = (id, ticket) := fun y hy heq =>
    hids.ticket_eq hy (hids.inFlight thread share.pool _ hown) heq
  rcases hon with hline | ⟨t, ht⟩
  · rw [hsame x (hids.line share.pool x hline) hid] at hline
    exact h.unsent thread share.pool _ hown hline
  · have hbefore := SubmitPc.inFlight_of_atSend (atSend_setPc (s := s) (by rfl) t _ ht)
    rw [hsame x (hids.inFlight t share.pool x hbefore) hid] at hbefore
    have heq := h.apart t thread _ hbefore hown
    rw [heq, SubmitSys.setPc_pc_self] at ht
    exact absurd ht (by simp [SubmitPc.atSend])

/-- The lines of a session that is gone are not asked for any more. -/
theorem LineInv.resetPending (h : LineInv s) (hidle : s.ThreadsIdle cfg)
    (hguard : ∀ t < cfg.optNThreads, (s.pc t).inFlight.map Prod.fst ≠ some s.pool) :
    LineInv s.resetPending := by
  have hother : ∀ p, p ≠ s.pool → s.resetPending.ctxs p = s.ctxs p := by
    intro p hp
    simp [SubmitSys.resetPending, SubmitSys.setCtx, Function.update_of_ne hp]
  have hfind : ∀ p x, p ≠ s.pool → Findable s p x → Findable s.resetPending p x := by
    intro p x hp hx
    refine hx.mono ?_ ?_ fun _ hy => hy
    · unfold SubmitSys.entries
      rw [hother p hp]
      exact fun _ he => he
    · rw [hother p hp]
      exact fun _ hticket => hticket
  have hlines : ∀ p x, x ∈ linesSent p (.tableReset s.pool :: s.log) →
      p ≠ s.pool ∧ x ∈ linesSent p s.log := by
    intro p x hx
    rw [linesSent] at hx
    split at hx
    · exact absurd hx List.not_mem_nil
    · rename_i hp
      exact ⟨Ne.symm hp, hx⟩
  refine ⟨?_, h.apart, ?_, ?_, ?_⟩
  · intro p x hx
    by_cases hp : p = s.pool
    · rw [hp] at hx
      simp [SubmitSys.resetPending] at hx
    · rw [hother p hp] at hx
      exact h.ten p x hx
  · intro t p x ht hx
    exact h.unsent t p x ht (hlines p x hx).2
  · intro p x hx
    obtain ⟨hp, hx⟩ := hlines p x hx
    exact hfind p x hp (h.line p x hx)
  · intro t p x ht
    have hbefore : (s.pc t).atSend = some (p, x) := ht
    have hflight := SubmitPc.inFlight_of_atSend hbefore
    have hlt : t < cfg.optNThreads := by
      refine hidle.lt (Or.inr ?_)
      intro hpc
      rw [hpc] at hflight
      exact absurd hflight (by simp [SubmitPc.inFlight])
    refine hfind p x ?_ (h.atSend t p x hbefore)
    intro heq
    exact hguard t hlt (by rw [hflight, heq]; rfl)

theorem LineInv.step (h : LineInv s) (hids : IdInv s) (hidle : s.ThreadsIdle cfg) {a : SubmitAct}
    (hguard : IdGuard cfg s a) (ht : SubmitSys.Trans cfg s a s') : LineInv s' := by
  cases ht with
  | openSocket _ => exact h.context rfl (by rfl) (by rfl) (by rfl) rfl rfl
  | connectFails _ => exact h.context rfl (by rfl) (by rfl) (by rfl) rfl rfl
  | authorize _ ok => exact h.context rfl (by rfl) (by rfl) (by rfl) rfl rfl
  | ignored _ val => exact h
  | counted _ _ _ hentry => exact h.count hids hentry
  | closeTransport _ => exact h.context rfl (by rfl) (by rfl) (by rfl) rfl rfl
  | resetPending _ => exact h.resetPending hidle hguard
  | clearAuthenticated _ => exact h.context rfl (by rfl) (by rfl) (by rfl) rfl rfl
  | copyWork _ _ copied =>
    unfold SubmitSys.copyWork
    split
    · exact ⟨h.ten, h.apart, h.unsent, h.line, h.atSend⟩
    · exact h
  | dropped _ => exact h
  | checked _ _ _ => exact h.setPc _ (inFlight_none rfl) rfl
  | unauthenticated _ => exact h.setPc _ (inFlight_none rfl) rfl
  | authorized _ => exact h.setPc _ (inFlight_none rfl) rfl
  | encodeFails _ => exact h.setPc _ (inFlight_none rfl) rfl
  | numbered hpc =>
    have hten := hguard _ (by rw [hpc]; rfl)
    have hid := congrArg Prod.fst (stratumSubmitIdNext_of_ge hten)
    exact h.number hids rfl rfl rfl (by rfl) (by rfl) hten hid (by rfl) (by rfl) rfl
  | reserved hpc hput => exact h.reserve hpc hput
  | queueFull now hpc =>
    refine h.keep (SameIds.setCtx_issued rfl rfl) (inFlight_setPc (inFlight_none rfl))
      (atSend_setPc rfl) (fun _ => rfl) ?_
    intro p x _ hx
    exact hx.reap (fun _ he => he) rfl rfl
  | sent hpc _ => exact h.send hpc
  | sendFailed hpc =>
    refine h.setPc _ (fun x hx => ?_) rfl
    rw [hpc]
    exact hx
  | released hpc => exact h.released hids hpc
  -- the works and the generation
  | _ => exact ⟨h.ten, h.apart, h.unsent, h.line, h.atSend⟩

theorem lineInv_start (pool : Nat) : LineInv (.start pool) := by
  refine ⟨fun _ _ hx => absurd hx List.not_mem_nil, ?_, ?_, fun _ _ hx => absurd hx List.not_mem_nil, ?_⟩
  · intro t u x ht
    exact absurd ht (by simp [SubmitSys.start, SubmitPc.inFlight])
  · intro t p x ht
    exact absurd ht (by simp [SubmitSys.start, SubmitPc.inFlight])
  · intro t p x ht
    exact absurd ht (by simp [SubmitSys.start, SubmitPc.atSend])

end lines

/-- The ids of a table are distinct.  A reply is counted for the submission whose line it answers, and it
is counted unless the line has been answered already or its entry has been freed as stale. -/
structure Correlated (cfg : SubmitConfig) (s : SubmitSys) : Prop where
  unique : ∀ p, ((s.entries p).map PendingSubmit.id).Nodup
  reply : ∀ val s' ticket threadId accepted, s.step cfg (.response val) = some s' →
    s'.log = .counted s.pool ticket threadId accepted :: s.log →
    ∀ line ∈ linesSent s.pool s.log, stratumParseResponseView val = some line.1.toNat →
      ticket = line.2
  matched : ∀ val s', s.step cfg (.response val) = some s' →
    ∀ line ∈ linesSent s.pool s.log, stratumParseResponseView val = some line.1.toNat →
      line.2 ∉ s.ctx.reapedTickets → (s.pool, line.2) ∉ countedTickets s.log →
        ∃ threadId, s'.log = .counted s.pool line.2 threadId (submitResultOk val) :: s.log

theorem IdInv.reply {cfg : SubmitConfig} {s s' : SubmitSys} (h : IdInv s) {val : Json}
    {ticket threadId : Nat} {accepted : Bool} (ht : SubmitSys.Trans cfg s (.response val) s')
    (hlog : s'.log = .counted s.pool ticket threadId accepted :: s.log)
    {line : BitVec 32 × Nat} (hline : line ∈ linesSent s.pool s.log)
    (hparse : stratumParseResponseView val = some line.1.toNat) : ticket = line.2 := by
  cases ht with
  | ignored _ _ => exact absurd hlog (List.ne_cons_self)
  | counted _ hid _ hentry =>
    rw [hparse, Option.some.injEq] at hid
    subst hid
    obtain ⟨hmem, heq⟩ := lookup_mem_entries hentry
    rw [BitVec.ofNat_toNat, BitVec.setWidth_eq] at heq
    have hsame := h.ticket_eq (h.entry s.pool _ hmem) (h.line s.pool line hline) heq
    simp only [List.cons.injEq, SubmitEvent.counted.injEq, and_true, true_and] at hlog
    rw [← hlog.1]
    exact congrArg Prod.snd hsame

theorem LineInv.matched {cfg : SubmitConfig} {s s' : SubmitSys} (h : LineInv s) (hids : IdInv s)
    {val : Json} (hstep : s.step cfg (.response val) = some s') {line : BitVec 32 × Nat}
    (hline : line ∈ linesSent s.pool s.log)
    (hparse : stratumParseResponseView val = some line.1.toNat)
    (hreaped : line.2 ∉ s.ctx.reapedTickets) (hcounted : (s.pool, line.2) ∉ countedTickets s.log) :
    ∃ threadId, s'.log = .counted s.pool line.2 threadId (submitResultOk val) :: s.log := by
  have hissued := hids.line s.pool line hline
  have hten : ¬ line.1.toNat < 10 := by
    have := BitVec.le_def.mp (h.ten s.pool line hissued)
    simpa using this
  obtain ⟨-, rfl⟩ := SubmitSys.of_phase hstep
  -- the entry of the line is in the table, and no other one has its id
  obtain ⟨e, he, hx⟩ | hgone | hgone := h.line s.pool line hline
  · have hid : BitVec.ofNat 32 line.1.toNat = line.1 := by rw [BitVec.ofNat_toNat, BitVec.setWidth_eq]
    unfold SubmitSys.response
    rw [hparse]
    simp only [if_neg hten, submitIdTakeMetadata, hid]
    cases hentry : lookup PendingSubmit.used (·.id == line.1) s.ctx.pending with
    | none =>
      have hne := List.find?_eq_none.mp hentry e (List.mem_filter.mp he).1
      rw [← hx] at hne
      exact absurd (List.mem_filter.mp he).2 (by simpa using hne)
    | some entry =>
      rw [← hid] at hentry
      obtain ⟨hmem, heq⟩ := lookup_mem_entries hentry
      have hsame := hids.ticket_eq (hids.entry s.pool _ hmem) hissued (heq.trans hid)
      exact ⟨entry.threadId, by rw [← hsame]⟩
  · exact absurd hgone hreaped
  · exact absurd hgone hcounted

/-- In every run that resets no table under a thread with an id of it, and in which the counter does
not go round, the ids in use are distinct, every counted reply answers the submission it is counted
for, and the reply to a line that still waits for one is counted. -/
theorem pending_ids_unique {cfg : SubmitConfig} {pool : Nat} {labels : List SubmitAct}
    {s : SubmitSys} (hguard : AllSteps (SubmitSys.step cfg) (IdGuard cfg) (.start pool) labels)
    (hrun : exec (SubmitSys.step cfg) (.start pool) labels = some s) : Correlated cfg s := by
  have hinit : IdInv (.start pool) ∧ LineInv (.start pool) ∧
      (SubmitSys.start pool).ThreadsIdle cfg :=
    ⟨idInv_start pool, lineInv_start pool, SubmitSys.threadsIdle_start cfg pool⟩
  have hall : IdInv s ∧ LineInv s ∧ s.ThreadsIdle cfg := by
    refine exec_invariant_of_allSteps (I := fun s => IdInv s ∧ LineInv s ∧ s.ThreadsIdle cfg) ?_
      hinit hguard hrun
    rintro s a s' ⟨hids, hlines, hidle⟩ hguard hstep
    have ht := SubmitSys.step_trans hstep
    exact ⟨hids.step hidle hguard ht, hlines.step hids hidle hguard ht, hidle.step ht⟩
  obtain ⟨hids, hlines, -⟩ := hall
  refine ⟨hids.nodup_ids (run_ticketInv hrun), ?_, ?_⟩
  · intro val s' ticket threadId accepted hstep hlog line hline hparse
    exact hids.reply (SubmitSys.step_trans hstep) hlog hline hparse
  · intro val s' hstep line hline hparse hreaped hcounted
    exact hlines.matched hids hstep hline hparse hreaped hcounted

/-! ### Two threads on one pool -/

namespace Scenario

def twoThreads : SubmitConfig := { oneThread with optNThreads := 2 }

/-- A submission up to its id. -/
def takeId (thread : Nat) : List SubmitAct :=
  [.checkGeneration thread, .checkAuthenticated thread, .nextId thread]

/-- Thread 1 overtakes thread 0 between the id and the table. -/
def overtaken : List SubmitAct :=
  openedFor 0 ++ ([.copyWork 1 true] : List SubmitAct) ++ takeId 0 ++ takeId 1 ++
    ([.reserve 1 100, .reserve 0 100, .send 0 true, .send 1 true] : List SubmitAct)

/-- The session is reset while thread 0 has its id; thread 1 gets the same one in the next
session. -/
def rewound : List SubmitAct :=
  openedFor 0 ++ takeId 0 ++ disconnected ++ openedFor 1 ++ takeId 1 ++
    ([.reserve 1 100, .reserve 0 100] : List SubmitAct)

end Scenario

open Scenario

theorem pending_ids_unique_overtaken :
    ∃ s, exec (SubmitSys.step twoThreads) (.start 0) overtaken = some s ∧
      (s.entries 0).map PendingSubmit.id = [11, 10] ∧ linesSent 0 s.log = [(11, 1), (10, 0)] ∧
      Correlated twoThreads s := by
  have heval : (exec (SubmitSys.step twoThreads) (.start 0) overtaken).map
      (fun s => ((s.entries 0).map PendingSubmit.id, linesSent 0 s.log)) =
      some ([11, 10], [(11, 1), (10, 0)]) := by decide
  have hguard : AllSteps (SubmitSys.step twoThreads) (IdGuard twoThreads) (.start 0) overtaken := by
    decide
  rw [Option.map_eq_some_iff] at heval
  obtain ⟨s, hrun, hs⟩ := heval
  rw [Prod.mk.injEq] at hs
  exact ⟨s, hrun, hs.1, hs.2, pending_ids_unique hguard hrun⟩

/-- Two entries in use carry the id 10. -/
theorem pending_ids_collide :
    ∃ s, exec (SubmitSys.step twoThreads) (.start 0) rewound = some s ∧
      (s.entries 0).map PendingSubmit.id = [10, 10] ∧ ¬ Correlated twoThreads s := by
  have heval : (exec (SubmitSys.step twoThreads) (.start 0) rewound).map
      (fun s => (s.entries 0).map PendingSubmit.id) = some [10, 10] := by decide
  rw [Option.map_eq_some_iff] at heval
  obtain ⟨s, hrun, hids⟩ := heval
  refine ⟨s, hrun, hids, ?_⟩
  intro h
  have hnodup := h.unique 0
  rw [hids] at hnodup
  exact absurd hnodup (by decide)

end PrimoMiner
