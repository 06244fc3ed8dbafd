import PrimoMiner.VerusScan

/-!
# Hashes that leave no trace

The hashes of a scan share their buffers and keys: the loop over pairs, the loop over single nonces, the
check of a candidate and the self-test.  `HashBuffers` holds what they share, and a `HashCall` is one of
them.  Every call leaves the first 32 bytes of each buffer and both keys as they were, which is all that a
call reads.
-/

namespace PrimoMiner

/-- What the hashes of a scan share. -/
structure HashBuffers where
  half : Buffer 64
  curA : Buffer 64
  curB : Buffer 64
  key : ClKey
  key2 : ClKey

inductive HashCall where
  /-- A pass of `run_x1_loop`. -/
  | single (build : ClhashBuild) (nspace : Buffer 15)
  /-- A pass of the loop over pairs. -/
  | pair (mode : VerusMode) (nspaceA nspaceB : Buffer 15)
  /-- The full hash of `try_record_share`, on a copy of `blockhash_half`. -/
  | full (nspace : Buffer 15)
  /-- A reference hash of the self-test, on a copy of `blockhash_half`. -/
  | reference (nspace : Buffer 15)

inductive HashResult where
  | word (hash : BitVec 32)
  | words (hashA hashB : BitVec 32)
  | full (hash : Buffer 32)

namespace HashCall

/-- The spaces that count as scanned. -/
def scanned : HashCall → List (Buffer 15)
  | single _ nspace => [nspace]
  | pair _ nspaceA nspaceB => [nspaceA, nspaceB]
  | full _ => []
  | reference _ => []

/-- The value of a call and the buffers after it. -/
def run (b : HashBuffers) : HashCall → HashResult × HashBuffers
  | single build nspace =>
    let (hash, half, key) := computeVerusHash build b.half nspace b.key
    (.word hash, { b with half, key })
  | pair mode nspaceA nspaceB =>
    let curA := prepareHashBuf b.curA nspaceA
    let curB := prepareHashBuf b.curB nspaceB
    let (clhashA, clhashB) := mode.clhashX2 b.key b.key2 (load512 curA) (load512 curB) clHashKeyMask
    let (hashA, curA, key) := finalizeVerusHash curA clhashA
    let (hashB, curB, key2) := finalizeVerusHash curB clhashB
    (.words hashA hashB, { b with curA, curB, key, key2 })
  | full nspace =>
    let (hash, _, key) := computeVerusHashFull clhashNoasm b.half nspace b.key
    (.full hash, { b with key })
  | reference nspace =>
    let (hash, _, key) := computeVerusHash clhashNoasm b.half nspace b.key
    (.word hash, { b with key })

end HashCall

/-- The buffers after a sequence of hashes. -/
def HashBuffers.after (b : HashBuffers) (calls : List HashCall) : HashBuffers :=
  calls.foldl (fun b call => (call.run b).2) b

/-! ## The journal -/

/-- A step writes one entry. -/
theorem length_journal_iterate (mulhrs : Vec128 → Vec128 → Vec128) (build : ClhashBuild)
    (keyMask : BitVec 64) (buf : Fin 4 → Vec128) (n : Nat) (c : Chain) :
    ((verusClhashIter mulhrs build keyMask buf)^[n] c).journal.length = c.journal.length + n := by
  induction n generalizing c with
  | zero => simp only [Function.iterate_zero, id_eq, Nat.add_zero]
  | succ n ih =>
    rw [Function.iterate_succ_apply, ih]
    simp only [verusClhashIter, List.length_append, List.length_singleton]
    omega

/-- The journal of a finished chain has an entry for each step and gives back the key. -/
def Restores (key : ClKey) (clhash : BitVec 64 × Chain) : Prop :=
  clhash.2.journal.length = 32 ∧ restoreClKeySlots clhash.2.journal clhash.2.key = key

theorem restores_clhash (build : ClhashBuild) (key : ClKey) (buf : Fin 4 → Vec128) :
    Restores key (verusclhashPort22Native build key buf clHashKeyMask) := by
  constructor
  · have hlength := length_journal_iterate vqrdmulhqS16 build clHashKeyMask buf 32
      (.start key clHashKeyMask)
    rw [Chain.start, List.length_nil, Nat.zero_add] at hlength
    exact hlength
  · exact restoreClKeySlots_clhash build key buf

/-! ## What a call leaves -/

/-- The buffers agree on what a call reads. -/
structure HashBuffers.Alike (b b' : HashBuffers) : Prop where
  half : seed b.half = seed b'.half
  curA : seed b.curA = seed b'.curA
  curB : seed b.curB = seed b'.curB
  key : b.key = b'.key
  key2 : b.key2 = b'.key2

theorem seed_finalizeVerusHash (curBuf : Buffer 64) (nspace : Buffer 15) (clhash : BitVec 64 × Chain) :
    seed (finalizeVerusHash (prepareHashBuf curBuf nspace) clhash).2.1 = seed curBuf := by
  rw [finalizeVerusHash, seed_foldIntermediate, prepareHashBuf_eq, seed_hashInput]

section key
variable (build : ClhashBuild) (curBuf : Buffer 64) (nspace : Buffer 15) (key : ClKey)

theorem finalizeVerusHash_key :
    (finalizeVerusHash curBuf (verusclhashPort22Native build key (load512 curBuf) clHashKeyMask)).2.2
      = key := by
  rw [finalizeVerusHash, restoreClKeySlots_clhash]

theorem computeVerusHash_key : (computeVerusHash build curBuf nspace key).2.2 = key := by
  rw [computeVerusHash, finalizeVerusHash_key]

theorem computeVerusHashFull_key : (computeVerusHashFull build curBuf nspace key).2.2 = key := by
  rw [computeVerusHashFull, restoreClKeySlots_clhash]

theorem seed_computeVerusHash : seed (computeVerusHash build curBuf nspace key).2.1 = seed curBuf := by
  rw [computeVerusHash, seed_finalizeVerusHash]

end key

namespace HashCall

theorem alike_run (b : HashBuffers) (call : HashCall) : (call.run b).2.Alike b := by
  cases call with
  | single build nspace =>
    have hseed := seed_computeVerusHash build b.half nspace b.key
    have hkey := computeVerusHash_key build b.half nspace b.key
    rw [run]
    generalize computeVerusHash build b.half nspace b.key = r at hseed hkey
    exact ⟨hseed, rfl, rfl, hkey, rfl⟩
  | pair mode nspaceA nspaceB =>
    have hA := fun clhash => seed_finalizeVerusHash b.curA nspaceA clhash
    have hB := fun clhash => seed_finalizeVerusHash b.curB nspaceB clhash
    have hkeyA := finalizeVerusHash_key mode.build (prepareHashBuf b.curA nspaceA) b.key
    have hkeyB := finalizeVerusHash_key mode.build (prepareHashBuf b.curB nspaceB) b.key2
    rw [run]
    simp only [VerusScan.clhashX2_eq]
    generalize verusclhashPort22Native mode.build b.key
      (load512 (prepareHashBuf b.curA nspaceA)) clHashKeyMask = clhashA at hkeyA
    generalize verusclhashPort22Native mode.build b.key2
      (load512 (prepareHashBuf b.curB nspaceB)) clHashKeyMask = clhashB at hkeyB
    exact ⟨rfl, hA clhashA, hB clhashB, hkeyA, hkeyB⟩
  | full nspace =>
    have hkey := computeVerusHashFull_key clhashNoasm b.half nspace b.key
    rw [run]
    generalize computeVerusHashFull clhashNoasm b.half nspace b.key = r at hkey
    exact ⟨rfl, rfl, rfl, hkey, rfl⟩
  | reference nspace =>
    have hkey := computeVerusHash_key clhashNoasm b.half nspace b.key
    rw [run]
    generalize computeVerusHash clhashNoasm b.half nspace b.key = r at hkey
    exact ⟨rfl, rfl, rfl, hkey, rfl⟩

/-- A call reads of its buffer the first half only. -/
theorem result_congr {b b' : HashBuffers} (h : b.Alike b') (call : HashCall) :
    (call.run b).1 = (call.run b').1 := by
  cases call with
  | single build nspace => simp only [run, computeVerusHash, prepareHashBuf_eq, h.half, h.key]
  | pair mode nspaceA nspaceB => simp only [run, prepareHashBuf_eq, h.curA, h.curB, h.key, h.key2]
  | full nspace => simp only [run, computeVerusHashFull, prepareHashBuf_eq, h.half, h.key]
  | reference nspace => simp only [run, computeVerusHash, prepareHashBuf_eq, h.half, h.key]

end HashCall

namespace HashBuffers

theorem Alike.trans {b b' b'' : HashBuffers} (h : b.Alike b') (h' : b'.Alike b'') : b.Alike b'' where
  half := h.half.trans h'.half
  curA := h.curA.trans h'.curA
  curB := h.curB.trans h'.curB
  key := h.key.trans h'.key
  key2 := h.key2.trans h'.key2

theorem alike_after (b : HashBuffers) (calls : List HashCall) : (b.after calls).Alike b := by
  induction calls generalizing b with
  | nil => exact ⟨rfl, rfl, rfl, rfl, rfl⟩
  | cons call calls ih => exact (ih (call.run b).2).trans (call.alike_run b)

theorem after_append (b : HashBuffers) (calls calls' : List HashCall) :
    b.after (calls ++ calls') = (b.after calls).after calls' :=
  List.foldl_append

end HashBuffers

/-! ## The hashes of a scan -/

namespace VerusScan

def buffers (s : VerusScan) : HashBuffers where
  half := s.blockhashHalf
  curA := s.curA
  curB := s.curB
  key := s.keyBuffer
  key2 := s.keyBuffer2

/-- From `s` to `s'` the scan has made these hashes. -/
structure Calls (s s' : VerusScan) (calls : List HashCall) : Prop where
  buffers : s'.buffers = s.buffers.after calls
  hashed : s'.hashed = s.hashed ++ calls.flatMap HashCall.scanned

section calls
variable {s s' s'' : VerusScan} (env : VerusScanEnv)

theorem Calls.append {calls calls' : List HashCall} (h : Calls s s' calls) (h' : Calls s' s'' calls') :
    Calls s s'' (calls ++ calls') where
  buffers := by rw [h'.buffers, h.buffers, HashBuffers.after_append]
  hashed := by rw [h'.hashed, h.hashed, List.flatMap_append, List.append_assoc]

/-- A step that hashes nothing. -/
theorem Calls.none (hbuffers : s'.buffers = s.buffers) (hhashed : s'.hashed = s.hashed) :
    Calls s s' [] where
  buffers := hbuffers
  hashed := by rw [hhashed, List.flatMap_nil, List.append_nil]

/-- One hash, of which `s'` keeps what the call gives. -/
theorem Calls.one (call : HashCall) (hbuffers : s'.buffers = (call.run s.buffers).2)
    (hhashed : s'.hashed = s.hashed ++ call.scanned) : Calls s s' [call] where
  buffers := by rw [hbuffers, HashBuffers.after, List.foldl_cons, List.foldl_nil]
  hashed := by rw [hhashed, List.flatMap_singleton]

theorem calls_tryRecordShare (s : VerusScan) (chash : BitVec 32) (nspace : Buffer 15) :
    ∃ calls, Calls s (s.tryRecordShare env chash nspace).2 calls := by
  rw [tryRecordShare]
  split
  · exact ⟨[], .none (by rfl) (by rfl)⟩
  · refine ⟨[.full nspace], ?_⟩
    have hfull : ∀ w recorded, Calls s
        { s with
          keyBuffer := (computeVerusHashFull clhashNoasm s.blockhashHalf nspace s.keyBuffer).2.2
          work := w
          recorded := recorded } [.full nspace] := by
      intro w recorded
      apply Calls.one
      · simp only [buffers, HashCall.run]
      · rw [HashCall.scanned, List.append_nil]
    generalize computeVerusHashFull clhashNoasm s.blockhashHalf nspace s.keyBuffer = result at hfull
    dsimp only
    split_ifs
    · exact hfull s.work s.recorded
    · exact hfull s.work s.recorded
    · exact hfull _ _
    · exact hfull s.work s.recorded

theorem calls_hashPair (s : VerusScan) :
    Calls s (s.hashPair env).2.2
      [.pair env.mode (setCounter s.nonceSpace s.nonceBuf) (setCounter s.nonceSpaceB (s.nonceBuf + 1))] := by
  apply Calls.one
  · simp only [buffers, HashCall.run, hashPair]
  · simp only [HashCall.scanned, hashPair]

/-- A reference hash, whatever it finds. -/
theorem calls_reference (s : VerusScan) (nspace : Buffer 15) (aborted : Bool) :
    Calls s
      { s with
        keyBuffer := (computeVerusHash clhashNoasm s.blockhashHalf nspace s.keyBuffer).2.2
        aborted := aborted } [.reference nspace] := by
  apply Calls.one
  · simp only [buffers, HashCall.run]
  · rw [HashCall.scanned, List.append_nil]

theorem calls_selftest (s : VerusScan) (hashA hashB : BitVec 32) :
    ∃ calls, Calls s (s.selftest env hashA hashB) calls := by
  have hA := calls_reference s s.nonceSpace
  rw [selftest]
  generalize computeVerusHash clhashNoasm s.blockhashHalf s.nonceSpace s.keyBuffer = a at hA
  split
  · dsimp only
    split
    · exact ⟨_, hA true⟩
    · have hB := calls_reference { s with keyBuffer := a.2.2 } s.nonceSpaceB
      dsimp only at hB
      generalize computeVerusHash clhashNoasm s.blockhashHalf s.nonceSpaceB a.2.2 = b at hB
      exact ⟨_, (hA s.aborted).append (hB (b.1 != hashB))⟩
  · exact ⟨[], .none (by rfl) (by rfl)⟩

theorem calls_tryPair (s : VerusScan) (hashA hashB : BitVec 32) :
    ∃ calls, Calls s (s.tryPair env hashA hashB).2 calls := by
  rw [tryPair]
  obtain ⟨triedA, hA⟩ := calls_tryRecordShare env s hashA s.nonceSpace
  generalize s.tryRecordShare env hashA s.nonceSpace = a at hA
  obtain ⟨triedB, hB⟩ := calls_tryRecordShare env a.2 hashB a.2.nonceSpaceB
  exact ⟨_, (hA.append hB).append (Calls.none (by rfl) (by rfl))⟩

theorem calls_pairStep (s : VerusScan) : ∃ calls, Calls s (s.pairStep env).2 calls := by
  rw [pairStep]
  have hpair := calls_hashPair env s
  generalize s.hashPair env = p at hpair
  obtain ⟨tested, htested⟩ := calls_selftest env p.2.2 p.1 p.2.1
  dsimp only
  split
  · exact ⟨_, hpair.append htested⟩
  · obtain ⟨tried, htried⟩ := calls_tryPair env (p.2.2.selftest env p.1 p.2.1) p.1 p.2.1
    exact ⟨_, (hpair.append htested).append htried⟩

theorem calls_singleStep (s : VerusScan) : ∃ calls, Calls s (s.singleStep env).2 calls := by
  set nspace := setCounter s.nonceSpace s.nonceBuf
  have hone : ∀ t : VerusScan, t.buffers = ((HashCall.single env.mode.build nspace).run s.buffers).2 →
      t.hashed = s.hashed ++ [nspace] → Calls s t [.single env.mode.build nspace] :=
    fun t => Calls.one (.single env.mode.build nspace)
  rw [singleStep]
  dsimp only
  obtain ⟨tried, htried⟩ := calls_tryRecordShare env _ _ _
  exact ⟨_, (hone _ (by simp only [buffers, HashCall.run]; rfl) (by rfl)).append htried⟩

/-- All that the loops do to the buffers are hashes, and those that count as scanned are in `hashed`. -/
theorem calls_loops (s : VerusScan) (maxHashes : Nat) : ∃ calls, Calls s (s.loops env maxHashes) calls := by
  have hsteps : Steps env (fun _ t => ∃ calls, Calls s t calls) (fun t => ∃ calls, Calls s t calls) := by
    constructor
    case check =>
      rintro n t ⟨calls, hcalls⟩
      exact ⟨_, hcalls.append (Calls.none rfl rfl)⟩
    case pair =>
      rintro n t ⟨calls, hcalls⟩
      obtain ⟨more, hmore⟩ := calls_pairStep env t
      rw [ite_self]
      exact ⟨_, hcalls.append hmore⟩
    case single =>
      rintro n t ⟨calls, hcalls⟩
      obtain ⟨more, hmore⟩ := calls_singleStep env t
      rw [ite_self]
      exact ⟨_, hcalls.append hmore⟩
    case stop => exact fun n t h => h
  exact loops_rule hsteps ⟨[], .none rfl rfl⟩

end calls

end VerusScan

/-- The journal of every variant gives back the key.  So the value of a hash does not depend on the
hashes before it, and a scan does nothing else to the buffers than hash. -/
theorem clhash_key_restored :
    (∀ (build : ClhashBuild) (key : ClKey) (buf : Fin 4 → Vec128),
      Restores key (verusclhashPort22Native build key buf clHashKeyMask)) ∧
    (∀ (build : ClhashBuild) (keyA keyB : ClKey) (bufA bufB : Fin 4 → Vec128),
      Restores keyA (verusclhashPort22X2Native build keyA keyB bufA bufB clHashKeyMask).1 ∧
      Restores keyB (verusclhashPort22X2Native build keyA keyB bufA bufB clHashKeyMask).2 ∧
      Restores keyA (verusclhashPort22X2fNative build keyA keyB bufA bufB clHashKeyMask).1 ∧
      Restores keyB (verusclhashPort22X2fNative build keyA keyB bufA bufB clHashKeyMask).2) ∧
    (∀ (b : HashBuffers) (before : List HashCall) (call : HashCall),
      (call.run (b.after before)).1 = (call.run b).1) ∧
    ∀ (env : VerusScanEnv) (s : VerusScan) (maxHashes : Nat),
      ∃ calls, VerusScan.Calls s (s.loops env maxHashes) calls := by
  refine ⟨restores_clhash, ?_, ?_, ?_⟩
  · intro build keyA keyB bufA bufB
    rw [verusclhashPort22X2fNative_eq, verusclhashPort22X2Native_eq]
    exact ⟨restores_clhash build keyA bufA, restores_clhash build keyB bufB,
      restores_clhash build keyA bufA, restores_clhash build keyB bufB⟩
  · intro b before call
    exact call.result_congr (b.alike_after before)
  · intro env s maxHashes
    exact VerusScan.calls_loops env s maxHashes

end PrimoMiner
