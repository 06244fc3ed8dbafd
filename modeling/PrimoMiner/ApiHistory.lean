import PrimoMiner.Config
import PrimoMiner.Library.RingBuffer
import Mathlib.Algebra.Order.BigOperators.Group.List
import Mathlib.Algebra.Order.Ring.Nat

/-!
# The hashrate history of the API

`api_collect_history_sample` writes one sample for each mining thread into a ring of fifty, and `histo`
answers with the samples in the ring as one text.  The text of a double is left to the C library.
-/

namespace PrimoMiner

open RingBuffer

/-- `API_HISTORY_SIZE` -/
def apiHistorySize : Nat := 50

/-- `API_BUFFER_SIZE` -/
def apiBufferSize : Nat := 16384

structure ApiHistoryEntry where
  threadId : Nat
  height : UInt32
  khs : Float
  diff : Float
  hashCount : UInt64
  id : UInt32
  timestamp : Int

/-- The globals of the history; `previousHashTotals` is `g_api_previous_hash_totals`. -/
structure ApiHistory where
  ring : Ring ApiHistoryEntry apiHistorySize
  nextId : UInt32
  previousHashTotals : Nat → UInt64
  lastHistorySample : Int

/-- What `miner_get_api_snapshot` tells of a thread. -/
structure ThreadApiStats where
  hashrate : Float
  hashesDoneTotal : UInt64

/-- What `stratum_get_api_pool_snapshot` tells of the work. -/
structure PoolApiSnapshot where
  workReady : Bool
  height : UInt32
  targetdiff : Float

/-- One call of `api_collect_history_sample`: the time and the two snapshots. -/
structure Collection where
  now : Int
  threads : List ThreadApiStats
  pool : PoolApiSnapshot

namespace ApiHistory

def apiResetHistory : ApiHistory where
  ring := .empty (.replicate apiHistorySize ⟨0, 0, 0.0, 0.0, 0, 0, 0⟩) (by decide)
  nextId := 1
  previousHashTotals := fun _ => 0
  lastHistorySample := 0

def apiPushHistorySample (h : ApiHistory) (entry : ApiHistoryEntry) : ApiHistory :=
  { h with ring := h.ring.push entry }

/-- The sample of thread `i`. -/
def entry (h : ApiHistory) (c : Collection) (i : Nat) (t : ThreadApiStats) : ApiHistoryEntry where
  threadId := i
  height := if c.pool.workReady then c.pool.height else 0
  khs := t.hashrate / 1000.0
  diff := if c.pool.workReady then c.pool.targetdiff else 0.0
  hashCount :=
    if h.previousHashTotals i ≤ t.hashesDoneTotal then t.hashesDoneTotal - h.previousHashTotals i
    else t.hashesDoneTotal
  id := h.nextId
  timestamp := c.now

/-- The body of the loop of `api_collect_history_sample`. -/
def collectThread (c : Collection) (h : ApiHistory) (thread : ThreadApiStats × Nat) : ApiHistory :=
  let (t, i) := thread
  apiPushHistorySample
    { h with
      nextId := h.nextId + 1
      previousHashTotals := Function.update h.previousHashTotals i t.hashesDoneTotal }
    (h.entry c i t)

def interval (optStatsavg : Int) : Int :=
  let interval := if 0 < optStatsavg then optStatsavg else 30
  if interval < 1 then 1 else interval

theorem interval_pos (optStatsavg : Int) : 0 < interval optStatsavg := by
  simp only [interval]
  split <;> omega

/-- The last sample is too young. -/
def tooEarly (optStatsavg : Int) (h : ApiHistory) (now : Int) : Bool :=
  h.lastHistorySample != 0 && decide (now - h.lastHistorySample < interval optStatsavg)

/-- The threads the loop visits, with their numbers. -/
def sampled (c : Collection) : List (ThreadApiStats × Nat) := (c.threads.take maxThreads.toNat).zipIdx

def apiCollectHistorySample (optStatsavg : Int) (h : ApiHistory) (c : Collection) : ApiHistory :=
  if h.tooEarly optStatsavg c.now then h
  else { (sampled c).foldl (collectThread c) h with lastHistorySample := c.now }

/-! ## The samples of a run -/

/-- The samples the loop writes, in order. -/
def newEntries (c : Collection) : ApiHistory → List (ThreadApiStats × Nat) → List ApiHistoryEntry
  | _, [] => []
  | h, (t, i) :: threads => h.entry c i t :: newEntries c (collectThread c h (t, i)) threads

/-- The samples one call writes. -/
def collected (optStatsavg : Int) (h : ApiHistory) (c : Collection) : List ApiHistoryEntry :=
  if h.tooEarly optStatsavg c.now then [] else newEntries c h (sampled c)

def run (optStatsavg : Int) (h : ApiHistory) (cs : List Collection) : ApiHistory :=
  cs.foldl (apiCollectHistorySample optStatsavg) h

/-- All the samples that the calls write. -/
def written (optStatsavg : Int) : ApiHistory → List Collection → List ApiHistoryEntry
  | _, [] => []
  | h, c :: cs => collected optStatsavg h c ++ written optStatsavg (apiCollectHistorySample optStatsavg h c) cs

variable {optStatsavg : Int} {h : ApiHistory} {c : Collection} {w : List ApiHistoryEntry}

/-- What holds of the state, of the samples written so far and of the calls that are still to come, and is
kept by each call, holds after all of them. -/
theorem calls_invariant {P : ApiHistory → List ApiHistoryEntry → List Collection → Prop}
    (hcall : ∀ {h w c cs}, P h w (c :: cs) →
      P (apiCollectHistorySample optStatsavg h c) (w ++ collected optStatsavg h c) cs)
    {cs : List Collection} (hstart : P h [] cs) :
    P (run optStatsavg h cs) (written optStatsavg h cs) [] := by
  have hcalls : ∀ {h w}, P h w cs → P (run optStatsavg h cs) (w ++ written optStatsavg h cs) [] := by
    clear hstart
    induction cs with
    | nil =>
      intro h w hw
      simpa [run, written] using hw
    | cons c cs ih =>
      intro h w hw
      simpa [run, written] using ih (hcall hw)
  simpa using hcalls hstart

/-- The same for what each single sample keeps. -/
theorem samples_invariant {P : ApiHistory → List ApiHistoryEntry → Prop}
    (hthread : ∀ {c h w} t i, P h w → P (collectThread c h (t, i)) (w ++ [h.entry c i t]))
    (htime : ∀ {h w} now, P h w → P { h with lastHistorySample := now } w) (hstart : P h [])
    (cs : List Collection) : P (run optStatsavg h cs) (written optStatsavg h cs) := by
  have hloop : ∀ {c h w} threads, P h w →
      P (threads.foldl (collectThread c) h) (w ++ newEntries c h threads) := by
    intro c h w threads hw
    induction threads generalizing h w with
    | nil => simpa [newEntries] using hw
    | cons thread threads ih => simpa [newEntries] using ih (hthread thread.1 thread.2 hw)
  refine calls_invariant (P := fun h w _ => P h w) ?_ hstart
  intro h w c _ hw
  unfold apiCollectHistorySample collected
  split
  · simpa using hw
  · exact htime c.now (hloop (sampled c) hw)

theorem holds_reset : Holds apiResetHistory.ring [] := holds_empty _ _

theorem run_holds (cs : List Collection) :
    Holds (run optStatsavg apiResetHistory cs).ring (written optStatsavg apiResetHistory cs) := by
  refine samples_invariant (P := fun h w => Holds h.ring w) ?_ ?_ holds_reset cs
  · intro c h w t i hw
    exact hw.push (h.entry c i t)
  · intro h w now hw
    exact hw

/-- The samples are numbered from one, and the next number is known. -/
structure Numbered (h : ApiHistory) (w : List ApiHistoryEntry) : Prop where
  ids : w.map (·.id) = (List.range w.length).map fun k => UInt32.ofNat (k + 1)
  next : h.nextId = UInt32.ofNat (w.length + 1)

theorem run_numbered (cs : List Collection) :
    Numbered (run optStatsavg apiResetHistory cs) (written optStatsavg apiResetHistory cs) := by
  refine samples_invariant (P := Numbered) ?_ (fun _ hw => ⟨hw.ids, hw.next⟩) ⟨rfl, rfl⟩ cs
  intro c h w t i hw
  refine ⟨?_, ?_⟩
  · rw [List.map_append, hw.ids, List.length_append, List.length_singleton, List.range_succ,
      List.map_append]
    exact congrArg _ (congrArg (fun k => [k]) hw.next)
  · show h.nextId + 1 = _
    rw [hw.next, List.length_append, List.length_singleton, UInt32.ofNat_add (w.length + 1) 1]
    rfl

theorem newEntries_map (threads : List (ThreadApiStats × Nat)) :
    (newEntries c h threads).map (fun e => (e.threadId, e.timestamp)) =
      threads.map fun thread => (thread.2, c.now) := by
  induction threads generalizing h with
  | nil => rfl
  | cons thread threads ih =>
    rw [newEntries, List.map_cons, List.map_cons, ih]
    rfl

/-- Two samples of one call are of different threads, and two calls that write are `interval` apart. -/
def Spaced (optStatsavg : Int) (a b : ApiHistoryEntry) : Prop :=
  (a.timestamp = b.timestamp ∧ a.threadId < b.threadId) ∨
    a.timestamp + interval optStatsavg ≤ b.timestamp

theorem sampled_pairwise (c : Collection) : (sampled c).Pairwise fun a b => a.2 < b.2 := by
  have hnumbers : (sampled c).map Prod.snd = List.range' 0 (c.threads.take maxThreads.toNat).length :=
    List.zipIdx_map_snd _ _
  rw [← List.pairwise_map, hnumbers]
  exact List.pairwise_lt_range'

theorem newEntries_spaced (c : Collection) (h : ApiHistory) :
    (newEntries c h (sampled c)).Pairwise (Spaced optStatsavg) := by
  have hpairs : ((newEntries c h (sampled c)).map fun e => (e.threadId, e.timestamp)).Pairwise
      fun a b => a.1 < b.1 ∧ a.2 = b.2 := by
    rw [newEntries_map, List.pairwise_map]
    exact (sampled_pairwise c).imp fun hlt => ⟨hlt, rfl⟩
  rw [List.pairwise_map] at hpairs
  exact hpairs.imp fun ⟨hthread, htime⟩ => Or.inl ⟨htime, hthread⟩

theorem newEntries_timestamp {e : ApiHistoryEntry} {threads : List (ThreadApiStats × Nat)}
    (he : e ∈ newEntries c h threads) : e.timestamp = c.now := by
  have hmem : (e.threadId, e.timestamp) ∈ threads.map fun thread => (thread.2, c.now) := by
    rw [← newEntries_map (h := h)]
    exact List.mem_map_of_mem he
  obtain ⟨_, _, heq⟩ := List.mem_map.mp hmem
  exact (congrArg Prod.snd heq).symm

/-- The samples so far are spaced and not younger than the last call that wrote; the clock is positive. -/
structure SpacedInv (optStatsavg : Int) (h : ApiHistory) (w : List ApiHistoryEntry)
    (cs : List Collection) : Prop where
  spaced : w.Pairwise (Spaced optStatsavg)
  times : ∀ e ∈ w, 0 < e.timestamp ∧ e.timestamp ≤ h.lastHistorySample
  clock : ∀ c ∈ cs, 0 < c.now

theorem SpacedInv.call {cs : List Collection} (hw : SpacedInv optStatsavg h w (c :: cs)) :
    SpacedInv optStatsavg (apiCollectHistorySample optStatsavg h c) (w ++ collected optStatsavg h c)
      cs := by
  have hnow : 0 < c.now := hw.clock c (by simp)
  have hclock : ∀ c' ∈ cs, 0 < c'.now := fun c' hc' => hw.clock c' (by simp [hc'])
  unfold apiCollectHistorySample collected
  split
  next => simpa using ⟨hw.spaced, hw.times, hclock⟩
  next hlate =>
    -- an earlier sample means that there is an earlier call, which this one keeps its distance to
    have hold : ∀ e ∈ w, e.timestamp + interval optStatsavg ≤ c.now := by
      intro e he
      obtain ⟨hpos, hle⟩ := hw.times e he
      simp only [tooEarly, Bool.and_eq_true, bne_iff_ne, decide_eq_true_eq] at hlate
      have : h.lastHistorySample ≠ 0 := by omega
      have := fun hlt => hlate ⟨this, hlt⟩
      omega
    have hinterval := interval_pos optStatsavg
    refine ⟨List.pairwise_append.mpr ⟨hw.spaced, newEntries_spaced c h, ?_⟩, ?_, hclock⟩
    · intro a ha b hb
      right
      rw [newEntries_timestamp hb]
      exact hold a ha
    · intro e he
      show 0 < e.timestamp ∧ e.timestamp ≤ c.now
      rcases List.mem_append.mp he with he | he
      · have hfar := hold e he
        exact ⟨(hw.times e he).1, by omega⟩
      · rw [newEntries_timestamp he]
        exact ⟨hnow, Int.le_refl _⟩

/-! ### Counts -/

/-- The hashes that the samples give to thread `j`. -/
def hashSum (j : Nat) (w : List ApiHistoryEntry) : Nat :=
  ((w.filter fun e => e.threadId = j).map fun e => e.hashCount.toNat).sum

theorem hashSum_append (j : Nat) (w w' : List ApiHistoryEntry) :
    hashSum j (w ++ w') = hashSum j w + hashSum j w' := by
  simp [hashSum]

theorem hashSum_cons (j : Nat) (e : ApiHistoryEntry) (w : List ApiHistoryEntry) :
    hashSum j (e :: w) = (if e.threadId = j then e.hashCount.toNat else 0) + hashSum j w := by
  unfold hashSum
  split
  next heq => simp [heq]
  next hne => simp [hne]

/-- The total that the samples of a thread add up to, where the totals do not fall. -/
theorem newEntries_hashSum (j : Nat) {threads : List (ThreadApiStats × Nat)}
    (hdistinct : threads.Pairwise fun a b => a.2 < b.2)
    (hgrow : ∀ thread ∈ threads, h.previousHashTotals thread.2 ≤ thread.1.hashesDoneTotal) :
    (h.previousHashTotals j).toNat + hashSum j (newEntries c h threads) =
      ((threads.foldl (collectThread c) h).previousHashTotals j).toNat := by
  induction threads generalizing h with
  | nil => simp [newEntries, hashSum]
  | cons thread threads ih =>
    obtain ⟨t, i⟩ := thread
    rw [List.pairwise_cons] at hdistinct
    obtain ⟨hlater, hdistinct⟩ := hdistinct
    have hle : h.previousHashTotals i ≤ t.hashesDoneTotal := hgrow (t, i) (by simp)
    have hprevious : (collectThread c h (t, i)).previousHashTotals =
        Function.update h.previousHashTotals i t.hashesDoneTotal := rfl
    have hrest : ∀ thread ∈ threads,
        (collectThread c h (t, i)).previousHashTotals thread.2 ≤ thread.1.hashesDoneTotal := by
      intro thread hthread
      rw [hprevious, Function.update_of_ne (by have := hlater thread hthread; omega)]
      exact hgrow thread (by simp [hthread])
    have hih := ih (h := collectThread c h (t, i)) hdistinct hrest
    rw [newEntries, hashSum_cons, List.foldl_cons, ← hih, hprevious, ← Nat.add_assoc]
    congr 1
    show (h.previousHashTotals j).toNat + (if i = j then (h.entry c i t).hashCount.toNat else 0) = _
    split
    next heq =>
      subst heq
      rw [Function.update_self]
      show _ + (if h.previousHashTotals i ≤ t.hashesDoneTotal then
        t.hashesDoneTotal - h.previousHashTotals i else t.hashesDoneTotal).toNat = _
      rw [if_pos hle, UInt64.toNat_sub_of_le _ _ hle]
      have hnat := UInt64.le_iff_toNat_le.mp hle
      omega
    next hne => rw [Function.update_of_ne (Ne.symm hne), Nat.add_zero]

/-- The total that is noted for a thread of the loop, and for any other. -/
theorem foldl_previousHashTotals {threads : List (ThreadApiStats × Nat)}
    (hdistinct : threads.Pairwise fun a b => a.2 < b.2) (j : Nat) :
    (∀ t, (t, j) ∈ threads → (threads.foldl (collectThread c) h).previousHashTotals j = t.hashesDoneTotal) ∧
    ((∀ thread ∈ threads, thread.2 ≠ j) →
      (threads.foldl (collectThread c) h).previousHashTotals j = h.previousHashTotals j) := by
  induction threads generalizing h with
  | nil => simp
  | cons thread threads ih =>
    rw [List.pairwise_cons] at hdistinct
    obtain ⟨hlater, hdistinct⟩ := hdistinct
    obtain ⟨hmem, hnot⟩ := ih (h := collectThread c h thread) hdistinct
    have hprevious : (collectThread c h thread).previousHashTotals =
        Function.update h.previousHashTotals thread.2 thread.1.hashesDoneTotal := rfl
    refine ⟨?_, ?_⟩
    · intro t ht
      rcases List.mem_cons.mp ht with heq | ht
      · subst heq
        rw [List.foldl_cons, hnot fun thread hthread => by have := hlater thread hthread; omega,
          hprevious, Function.update_self]
      · exact hmem t ht
    · intro hne
      rw [List.foldl_cons, hnot fun thread hthread => hne thread (by simp [hthread]), hprevious,
        Function.update_of_ne (hne thread (by simp)).symm]

theorem mem_sampled {t : ThreadApiStats} {j : Nat} :
    (t, j) ∈ sampled c ↔ (c.threads.take maxThreads.toNat)[j]? = some t :=
  List.mem_zipIdx_iff_getElem?

/-- The totals of the threads do not fall from one call to a later one. -/
def Growing (cs : List Collection) : Prop :=
  cs.Pairwise fun a b => ∀ (j : Nat) (t u : ThreadApiStats), a.threads[j]? = some t →
    b.threads[j]? = some u → t.hashesDoneTotal ≤ u.hashesDoneTotal

/-- The samples so far add up to the totals noted, which the calls to come do not fall below. -/
structure CountInv (h : ApiHistory) (w : List ApiHistoryEntry) (cs : List Collection) : Prop where
  sums : ∀ j, hashSum j w = (h.previousHashTotals j).toNat
  ahead : ∀ c ∈ cs, ∀ (j : Nat) (t : ThreadApiStats), c.threads[j]? = some t →
    h.previousHashTotals j ≤ t.hashesDoneTotal
  growing : Growing cs

theorem mem_threads_of_sampled {t : ThreadApiStats} {j : Nat} (ht : (t, j) ∈ sampled c) :
    c.threads[j]? = some t := by
  rw [mem_sampled, List.getElem?_take] at ht
  split at ht
  · exact ht
  · cases ht

theorem CountInv.call {cs : List Collection} (hw : CountInv h w (c :: cs)) :
    CountInv (apiCollectHistorySample optStatsavg h c) (w ++ collected optStatsavg h c) cs := by
  obtain ⟨hlater, hgrowing⟩ := List.pairwise_cons.mp hw.growing
  have hahead : ∀ c' ∈ cs, ∀ (j : Nat) (t : ThreadApiStats), c'.threads[j]? = some t →
      h.previousHashTotals j ≤ t.hashesDoneTotal :=
    fun c' hc' => hw.ahead c' (by simp [hc'])
  unfold apiCollectHistorySample collected
  split
  next => exact ⟨by simpa using hw.sums, hahead, hgrowing⟩
  next =>
    have hpairs := sampled_pairwise c
    refine ⟨?_, ?_, hgrowing⟩
    · intro j
      rw [hashSum_append, hw.sums j]
      exact newEntries_hashSum j hpairs fun thread hthread =>
        hw.ahead c (by simp) _ _ (mem_threads_of_sampled hthread)
    · intro c' hc' j u hu
      show ((sampled c).foldl (collectThread c) h).previousHashTotals j ≤ u.hashesDoneTotal
      obtain ⟨hmem, hnot⟩ := foldl_previousHashTotals (c := c) (h := h) hpairs j
      by_cases hthread : ∃ t, (t, j) ∈ sampled c
      · obtain ⟨t, ht⟩ := hthread
        rw [hmem t ht]
        exact hlater c' hc' j t u (mem_threads_of_sampled ht) hu
      · rw [hnot fun thread hin heq => hthread ⟨thread.1, heq ▸ hin⟩]
        exact hahead c' hc' j u hu

/-- Over all the calls since the history was reset, with any clock that is positive: the samples are
numbered one after the other, those of one call are of different threads, and two calls that write are at
least an interval apart.  Whenever a call writes, the counts of a thread add up to its total. -/
theorem history_samples {optStatsavg : Int} {cs : List Collection} (hclock : ∀ c ∈ cs, 0 < c.now)
    (hgrow : Growing cs) :
    (written optStatsavg apiResetHistory cs).map (·.id) =
      (List.range (written optStatsavg apiResetHistory cs).length).map (fun k => UInt32.ofNat (k + 1)) ∧
    (written optStatsavg apiResetHistory cs).Pairwise (Spaced optStatsavg) ∧
    ∀ before c, cs = before ++ [c] →
      (run optStatsavg apiResetHistory before).tooEarly optStatsavg c.now = false →
      ∀ j t, (c.threads.take maxThreads.toNat)[j]? = some t →
        hashSum j (written optStatsavg apiResetHistory cs) = t.hashesDoneTotal.toNat := by
  refine ⟨(run_numbered cs).ids, ?_, ?_⟩
  · have hstart : SpacedInv optStatsavg apiResetHistory [] cs :=
      ⟨List.Pairwise.nil, fun _ he => absurd he List.not_mem_nil, hclock⟩
    exact (calls_invariant (fun hw => hw.call) hstart).spaced
  · intro before c hcs hlate j t ht
    have hstart : CountInv apiResetHistory [] cs :=
      ⟨fun _ => rfl, fun _ _ _ _ _ => UInt64.zero_le, hgrow⟩
    have hcount : CountInv (run optStatsavg apiResetHistory cs) (written optStatsavg apiResetHistory cs) [] :=
      calls_invariant (fun hw => hw.call) hstart
    rw [hcount.sums j, hcs, run, List.foldl_append, List.foldl_cons, List.foldl_nil, apiCollectHistorySample]
    rw [run] at hlate
    rw [hlate]
    exact congrArg _ ((foldl_previousHashTotals (sampled_pairwise c) j).1 t (mem_sampled.mpr ht))

end ApiHistory

namespace Scenario

def noWork : PoolApiSnapshot := ⟨false, 0, 0.0⟩

/-- Two threads that have done `a` and `b` hashes. -/
def sampleBoth (now : Int) (a b : UInt64) : Collection := ⟨now, [⟨0.0, a⟩, ⟨0.0, b⟩], noWork⟩

/-- The second of three calls comes too early. -/
def threeCalls : List Collection := [sampleBoth 100 5 7, sampleBoth 110 6 8, sampleBoth 140 9 20]

theorem threeCalls_growing : ApiHistory.Growing threeCalls := by
  have hpair : ∀ (a b : ThreadApiStats) {a' b' : ThreadApiStats},
      a.hashesDoneTotal ≤ a'.hashesDoneTotal → b.hashesDoneTotal ≤ b'.hashesDoneTotal →
      ∀ (j : Nat) (t u : ThreadApiStats), [a, b][j]? = some t → [a', b'][j]? = some u →
        t.hashesDoneTotal ≤ u.hashesDoneTotal := by
    intro a b a' b' ha hb j t u ht hu
    match j with
    | 0 => exact Option.some.inj ht ▸ Option.some.inj hu ▸ ha
    | 1 => exact Option.some.inj ht ▸ Option.some.inj hu ▸ hb
    | j + 2 => cases ht
  simp only [ApiHistory.Growing, threeCalls, List.pairwise_cons, List.mem_cons, List.not_mem_nil, or_false,
    forall_eq_or_imp, forall_eq, List.Pairwise.nil, and_true]
  refine ⟨⟨hpair _ _ ?_ ?_, hpair _ _ ?_ ?_⟩, ⟨hpair _ _ ?_ ?_, fun _ h => h.elim⟩⟩ <;> decide

end Scenario

namespace ApiHistory

open Scenario in
theorem history_samples_three :
    (written 30 apiResetHistory threeCalls).map (·.id) = [1, 2, 3, 4] ∧
    hashSum 1 (written 30 apiResetHistory threeCalls) = 20 := by
  obtain ⟨hids, -, hsums⟩ := @history_samples 30 threeCalls (by decide) threeCalls_growing
  exact ⟨hids, hsums [sampleBoth 100 5 7, sampleBoth 110 6 8] (sampleBoth 140 9 20) rfl (by decide) 1
    ⟨0.0, 20⟩ rfl⟩

end ApiHistory

/-! ## The answer to `histo` -/

/-- How the C library prints a double with `%.2f` and with `%g`. -/
structure DoubleText where
  fixed2 : Float → String
  general : Float → String

/-- A response under construction: the text in the buffer and `pos`. -/
structure Response where
  text : List Char := []
  pos : Nat := 0

/-- `api_appendf`, with the text that `vsnprintf` prints. -/
def apiAppendf (outSize : Nat) (out : Response) (printed : String) : Response × Bool :=
  if outSize ≤ out.pos then (out, false)
  else
    let text := out.text.take out.pos ++ printed.toList.take (outSize - out.pos - 1)
    if outSize - out.pos ≤ printed.toList.length then (⟨text, outSize⟩, false)
    else (⟨text, out.pos + printed.toList.length⟩, true)

/-- `atoi`: the low half of `strtol`. -/
def atoi (s : String) : Int := ((strtol s.toList).1).bmod (2 ^ 32)

namespace ApiHistoryEntry

def row (text : DoubleText) (e : ApiHistoryEntry) : String :=
  "GPU=" ++ toString e.threadId ++ ";H=" ++ toString e.height.toNat ++ ";KHS=" ++ text.fixed2 e.khs ++
    ";DIFF=" ++ text.general e.diff ++ ";COUNT=" ++ toString e.hashCount.toNat ++ ";FOUND=" ++ toString 0 ++
    ";ID=" ++ toString e.id.toNat ++ ";TS=" ++ toString (e.timestamp % 2 ^ 32).toNat ++ "|"

/-- The sample passes the filter. -/
def shown (filterThread : Int) (e : ApiHistoryEntry) : Bool :=
  !(decide (0 ≤ filterThread) && decide ((e.threadId : Int) ≠ filterThread))

end ApiHistoryEntry

/-- The loop of `build_history_response`. -/
def historyLoop (text : DoubleText) (outSize : Nat) (filterThread : Int) :
    List ApiHistoryEntry → Response → Response
  | [], out => out
  | e :: entries, out =>
    if e.shown filterThread then
      match apiAppendf outSize out (e.row text) with
      | (out, true) => historyLoop text outSize filterThread entries out
      | (out, false) => out
    else historyLoop text outSize filterThread entries out

def filterThread (params : String) : Int := if params = "" then -1 else atoi params

def buildHistoryResponse (text : DoubleText) (outSize : Nat) (params : String) (h : ApiHistory) : String :=
  let out := historyLoop text outSize (filterThread params) h.ring.toList {}
  if out.pos = 0 then snprintf outSize "|" else String.ofList out.text

/-- The rows of `g_api_commands`. -/
inductive ApiCommand where
  | summary | threads | pool | histo | hwinfo | meminfo | scanlog | help
  deriving DecidableEq, Repr

def apiResponseCapacity (optNThreads : Int) (command : ApiCommand) : Nat :=
  let capacity := match command with
    | .threads =>
      let threadCount := if 0 < optNThreads then optNThreads.toNat else maxThreads.toNat
      1024 + threadCount * 512
    | .histo => 1024 + apiHistorySize * 160
    | .help => 1024 + 8 * 32
    | _ => apiBufferSize
  if apiBufferSize < capacity then capacity else apiBufferSize

section response

variable {outSize : Nat} {out : Response} {text : DoubleText}

/-- What stands in the buffer after rows of this text were printed one after the other. -/
structure Printed (outSize : Nat) (all : List Char) (out : Response) : Prop where
  text : out.text = all.take (outSize - 1)
  pos : out.pos = if all.length < outSize then all.length else outSize

theorem Printed.appendf {all : List Char} (h : Printed outSize all out) (printed : String)
    (hfits : all.length < outSize) :
    Printed outSize (all ++ printed.toList) (apiAppendf outSize out printed).1 ∧
    ((apiAppendf outSize out printed).2 = true ↔ (all ++ printed.toList).length < outSize) := by
  have hpos : out.pos = all.length := by rw [h.pos, if_pos hfits]
  have htext : out.text = all := by rw [h.text, List.take_of_length_le (by omega)]
  unfold apiAppendf
  rw [hpos, if_neg (by omega)]
  have hwritten : out.text.take all.length ++ printed.toList.take (outSize - all.length - 1) =
      (all ++ printed.toList).take (outSize - 1) := by
    have hall : all.take (outSize - 1) = all := List.take_of_length_le (by omega)
    rw [htext, List.take_length, List.take_append, hall, Nat.sub_right_comm]
  dsimp only
  split
  next hlong =>
    refine ⟨⟨hwritten, ?_⟩, ?_⟩
    · rw [List.length_append, if_neg (by omega)]
    · simp only [Bool.false_eq_true, List.length_append, false_iff]
      omega
  next hshort =>
    refine ⟨⟨hwritten, ?_⟩, ?_⟩
    · rw [List.length_append, if_pos (by omega)]
    · simp only [List.length_append, true_iff]
      omega

/-- A full buffer stays as it is. -/
theorem Printed.full {all : List Char} (h : Printed outSize all out) (hfull : outSize ≤ all.length)
    (more : List Char) : Printed outSize (all ++ more) out := by
  refine ⟨?_, ?_⟩
  · rw [h.text, List.take_append_of_le_length (by omega)]
  · rw [h.pos, List.length_append, if_neg (by omega), if_neg (by omega)]

/-- The rows of the samples that pass the filter. -/
def historyText (text : DoubleText) (filterThread : Int) (entries : List ApiHistoryEntry) : List Char :=
  (entries.filter (·.shown filterThread)).flatMap fun e => (e.row text).toList

theorem historyLoop_printed {filterThread : Int} {all : List Char} (h : Printed outSize all out)
    (hfits : all.length < outSize) (entries : List ApiHistoryEntry) :
    Printed outSize (all ++ historyText text filterThread entries)
      (historyLoop text outSize filterThread entries out) := by
  induction entries generalizing all out with
  | nil => simpa [historyText, historyLoop] using h
  | cons e entries ih =>
    unfold historyLoop
    split
    next hshown =>
      have hcons : historyText text filterThread (e :: entries) =
          (e.row text).toList ++ historyText text filterThread entries := by
        simp [historyText, hshown]
      obtain ⟨hprinted, hok⟩ := h.appendf (e.row text) hfits
      rw [hcons, ← List.append_assoc]
      split
      next out' heq =>
        rw [heq] at hprinted hok
        exact ih hprinted (hok.mp rfl)
      next out' heq =>
        rw [heq] at hprinted hok
        simp only [Bool.false_eq_true, false_iff, Nat.not_lt] at hok
        exact hprinted.full hok _
    next hhidden =>
      have hcons : historyText text filterThread (e :: entries) = historyText text filterThread entries := by
        simp [historyText, hhidden]
      rw [hcons]
      exact ih h hfits

theorem buildHistoryResponse_eq (hsize : 0 < outSize) (params : String) (h : ApiHistory) :
    buildHistoryResponse text outSize params h =
      if historyText text (filterThread params) h.ring.toList = [] then snprintf outSize "|"
      else String.ofList ((historyText text (filterThread params) h.ring.toList).take (outSize - 1)) := by
  have hstart : Printed outSize [] {} := ⟨by simp, by simp [hsize]⟩
  have hout : Printed outSize ([] ++ historyText text (filterThread params) h.ring.toList)
      (historyLoop text outSize (filterThread params) h.ring.toList {}) :=
    historyLoop_printed hstart hsize h.ring.toList
  rw [List.nil_append] at hout
  have hzero : (historyLoop text outSize (filterThread params) h.ring.toList {}).pos = 0 ↔
      historyText text (filterThread params) h.ring.toList = [] := by
    rw [hout.pos, ← List.length_eq_zero_iff]
    split <;> omega
  unfold buildHistoryResponse
  dsimp only
  rw [hout.text]
  exact if_congr hzero rfl rfl

theorem length_toString_le {n k : Nat} (hk : 0 < k) (hn : n < 10 ^ k) :
    (toString n).toList.length ≤ k := by
  rw [String.length_toList]
  exact (Nat.length_repr_le_iff hk).mpr hn

namespace ApiHistoryEntry

theorem row_ne_nil (text : DoubleText) (e : ApiHistoryEntry) : (e.row text).toList ≠ [] := by
  unfold row
  rw [String.toList_append]
  exact List.append_ne_nil_of_right_ne_nil _ (by decide)

theorem length_row_le {e : ApiHistoryEntry} (hthread : e.threadId < 32)
    (hkhs : (text.fixed2 e.khs).toList.length ≤ 220) (hdiff : (text.general e.diff).toList.length ≤ 13) :
    (e.row text).toList.length ≤ 327 := by
  have hthread' : (toString e.threadId).toList.length ≤ 2 := length_toString_le (by decide) (by omega)
  have hheight : (toString e.height.toNat).toList.length ≤ 10 :=
    length_toString_le (by decide) (by have := e.height.toNat_lt; omega)
  have hcount : (toString e.hashCount.toNat).toList.length ≤ 20 :=
    length_toString_le (by decide) (by have := e.hashCount.toNat_lt; omega)
  have hid : (toString e.id.toNat).toList.length ≤ 10 :=
    length_toString_le (by decide) (by have := e.id.toNat_lt; omega)
  have htime : (toString (e.timestamp % 2 ^ 32).toNat).toList.length ≤ 10 :=
    length_toString_le (by decide) (by omega)
  have hzero : (toString 0).toList.length ≤ 1 := by decide
  have htexts : "GPU=".toList.length + ";H=".toList.length + ";KHS=".toList.length + ";DIFF=".toList.length +
      ";COUNT=".toList.length + ";FOUND=".toList.length + ";ID=".toList.length + ";TS=".toList.length +
      "|".toList.length = 41 := by decide
  unfold row
  simp only [String.toList_append, List.length_append]
  omega

end ApiHistoryEntry

theorem length_historyText_le {k : Nat} {filterThread : Int} {entries : List ApiHistoryEntry}
    (hrows : ∀ e ∈ entries, (e.row text).toList.length ≤ k) :
    (historyText text filterThread entries).length ≤ entries.length * k := by
  unfold historyText
  rw [List.length_flatMap]
  have hshown : ((entries.filter (·.shown filterThread)).map fun e => (e.row text).toList.length).sum ≤
      ((entries.filter (·.shown filterThread)).map fun e => (e.row text).toList.length).length * k := by
    refine List.sum_le_card_nsmul _ _ ?_
    intro n hn
    obtain ⟨e, he, rfl⟩ := List.mem_map.mp hn
    exact hrows e (List.mem_of_mem_filter he)
  rw [List.length_map] at hshown
  exact hshown.trans (Nat.mul_le_mul_right k (List.length_filter_le _ entries))

end response

namespace ApiHistory

variable {optStatsavg : Int} {h : ApiHistory} {c : Collection} {e : ApiHistoryEntry}

/-- A sample is of a thread of the snapshot and tells its rate. -/
def SampleOf (c : Collection) (e : ApiHistoryEntry) : Prop :=
  ∃ t, (t, e.threadId) ∈ sampled c ∧ e.khs = t.hashrate / 1000.0

theorem mem_newEntries {threads : List (ThreadApiStats × Nat)} (he : e ∈ newEntries c h threads) :
    ∃ t, (t, e.threadId) ∈ threads ∧ e.khs = t.hashrate / 1000.0 := by
  induction threads generalizing h with
  | nil => cases he
  | cons thread threads ih =>
    rcases List.mem_cons.mp he with rfl | he
    · exact ⟨thread.1, List.mem_cons_self, rfl⟩
    · obtain ⟨t, ht, hkhs⟩ := ih he
      exact ⟨t, List.mem_cons_of_mem _ ht, hkhs⟩

theorem mem_written {cs : List Collection} (he : e ∈ written optStatsavg h cs) :
    ∃ c ∈ cs, SampleOf c e := by
  induction cs generalizing h with
  | nil => cases he
  | cons c cs ih =>
    rcases List.mem_append.mp he with he | he
    · unfold collected at he
      split at he
      · cases he
      · exact ⟨c, by simp, mem_newEntries he⟩
    · obtain ⟨c', hc', hsample⟩ := ih he
      exact ⟨c', by simp [hc'], hsample⟩

theorem SampleOf.bounds (hsample : SampleOf c e) :
    e.threadId < 32 ∧ ∃ t ∈ c.threads, e.khs = t.hashrate / 1000.0 := by
  obtain ⟨t, ht, hkhs⟩ := hsample
  refine ⟨?_, t, List.mem_of_getElem? (mem_threads_of_sampled ht), hkhs⟩
  rw [mem_sampled, List.getElem?_take] at ht
  split at ht
  next hlt => exact hlt
  next => cases ht

end ApiHistory

open ApiHistory in
/-- After any calls that collect samples, `histo` answers with one row for each of the last fifty samples
that passes the filter, the oldest first, and with a bar alone when there is none.  The buffer that is
allocated for the command holds them all. -/
theorem histo_response_recent {text : DoubleText} {optStatsavg optNThreads : Int} {cs : List Collection}
    (params : String)
    (hkhs : ∀ c ∈ cs, ∀ t ∈ c.threads, (text.fixed2 (t.hashrate / 1000.0)).toList.length ≤ 220)
    (hdiff : ∀ x, (text.general x).toList.length ≤ 13) :
    buildHistoryResponse text (apiResponseCapacity optNThreads .histo) params
        (run optStatsavg apiResetHistory cs) =
      let recent := ((written optStatsavg apiResetHistory cs).rtake apiHistorySize).filter
        (·.shown (filterThread params))
      if recent = [] then "|" else String.join (recent.map (·.row text)) := by
  have hring : (run optStatsavg apiResetHistory cs).ring.toList =
      (written optStatsavg apiResetHistory cs).rtake apiHistorySize := run_holds cs
  have hrows : ∀ e ∈ (written optStatsavg apiResetHistory cs).rtake apiHistorySize,
      (e.row text).toList.length ≤ 327 := by
    intro e he
    obtain ⟨c, hc, hsample⟩ := mem_written (List.mem_of_mem_drop he)
    obtain ⟨hthread, t, ht, hrate⟩ := hsample.bounds
    exact ApiHistoryEntry.length_row_le hthread (hrate ▸ hkhs c hc t ht) (hdiff _)
  have hcapacity : apiResponseCapacity optNThreads .histo = 16384 := rfl
  have hlength : (historyText text (filterThread params)
      ((written optStatsavg apiResetHistory cs).rtake apiHistorySize)).length ≤ 50 * 327 := by
    refine (length_historyText_le hrows).trans (Nat.mul_le_mul_right 327 ?_)
    rw [List.rtake, List.length_drop]
    show _ ≤ apiHistorySize
    omega
  rw [hcapacity, buildHistoryResponse_eq (by decide), hring, List.take_of_length_le (by omega),
    snprintf_eq_self (by decide)]
  refine if_congr ?_ rfl ?_
  · rw [historyText, List.flatMap_eq_nil_iff]
    constructor
    · intro hrows
      apply List.eq_nil_iff_forall_not_mem.mpr
      intro e he
      exact e.row_ne_nil text (hrows e he)
    · intro hnil e he
      rw [hnil] at he
      cases he
  · rw [← String.ofList_toList (s := String.join _), String.toList_join, List.flatMap_map]
    rfl

namespace Scenario

/-- The texts of zero. -/
def zeroText : DoubleText := ⟨fun _ => "0.00", fun _ => "0"⟩

end Scenario

open ApiHistory Scenario in
/-- Two threads were sampled twice, and the samples of the second one are asked for. -/
theorem histo_response_recent_second :
    buildHistoryResponse zeroText (apiResponseCapacity 2 .histo) "1" (run 30 apiResetHistory threeCalls) =
      "GPU=1;H=0;KHS=0.00;DIFF=0;COUNT=7;FOUND=0;ID=2;TS=100|" ++
      "GPU=1;H=0;KHS=0.00;DIFF=0;COUNT=13;FOUND=0;ID=4;TS=140|" := by
  have hkhs : "0.00".toList.length ≤ 220 := by decide
  have hdiff : "0".toList.length ≤ 13 := by decide
  refine (histo_response_recent "1" (fun _ _ _ _ => hkhs) (fun _ => hdiff)).trans ?_
  decide

end PrimoMiner
