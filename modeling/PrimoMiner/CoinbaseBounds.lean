import PrimoMiner.Notify
import PrimoMiner.Library.Region

/-!
# The extranonce fields and the memory they size

The extranonce of a context at the level of its memory: the buffer that `xnonce1` points to and the two
sizes that the messages set, which the next notify trusts when it assembles a coinbase in
`coinb1 + 32 + coinb2` bytes.  Every access is checked; a store or a load outside its block stops the
handler.
-/

namespace PrimoMiner

open Region

/-- The loop of `hex2bin`, which stores each byte before it looks at the next two digits. -/
def hex2binInto (out : Region Byte) (off : Nat) : List Char → Nat → Except Stop (Region Byte)
  | [], 0 => .ok out
  | [], _ + 1 => .error .refused
  | _ :: _, 0 => .error .refused
  | [_], _ + 1 => .error .refused
  | high :: low :: hexstr, len + 1 => do
    let highNibble ← orRefuse (decodeHexNibble high)
    let lowNibble ← orRefuse (decodeHexNibble low)
    let out ← access (out.store off [BitVec.ofNat 8 (16 * highNibble + lowNibble)])
    hex2binInto out (off + 1) hexstr len

/-- A decode at the end of what was filled, into a block with room for it, stays in the block and
stores what `hex2bin` gives. -/
theorem hex2binInto_filled {out : Region Byte} {l : List Byte} (hout : out.Filled l)
    (hexstr : List Char) (len : Nat) (hle : l.length + len ≤ out.length) :
    (hex2bin hexstr len = none ∧ hex2binInto out l.length hexstr len = .error .refused) ∨
    ∃ bytes out', hex2bin hexstr len = some bytes ∧
      hex2binInto out l.length hexstr len = .ok out' ∧
      out'.Filled (l ++ bytes) ∧ out'.length = out.length := by
  induction hexstr, len using hex2bin.induct generalizing out l with
  | case1 => exact .inr ⟨[], out, rfl, rfl, by rwa [List.append_nil], rfl⟩
  | case2 => exact .inl ⟨rfl, rfl⟩
  | case3 => exact .inl ⟨rfl, rfl⟩
  | case4 => exact .inl ⟨rfl, rfl⟩
  | case5 high low hexstr len ih =>
    cases hhigh : decodeHexNibble high with
    | none => exact .inl ⟨by simp [hex2bin, hhigh], by rw [hex2binInto, hhigh]; rfl⟩
    | some highNibble =>
      cases hlow : decodeHexNibble low with
      | none => exact .inl ⟨by simp [hex2bin, hhigh, hlow], by rw [hex2binInto, hhigh, hlow]; rfl⟩
      | some lowNibble =>
        obtain ⟨out', hstore, hfilled⟩ := hout.store [BitVec.ofNat 8 (16 * highNibble + lowNibble)] (by
          rw [List.length_singleton]
          omega)
        have hlen := length_store hstore
        have hinto : hex2binInto out l.length (high :: low :: hexstr) (len + 1) =
            hex2binInto out' (l.length + 1) hexstr len := by
          rw [hex2binInto, hhigh, hlow]
          show access (out.store l.length _) >>= _ = _
          rw [hstore]
          rfl
        have hrec := ih hfilled (by
          rw [List.length_append, List.length_singleton, hlen]
          omega)
        rw [List.length_append, List.length_singleton] at hrec
        rw [hinto, hex2bin, hhigh, hlow]
        obtain ⟨hnone, hstop⟩ | ⟨bytes, out'', hsome, hok, hfilled', hlen'⟩ := hrec
        · exact .inl ⟨by simp [hnone], hstop⟩
        · refine .inr ⟨BitVec.ofNat 8 (16 * highNibble + lowNibble) :: bytes, out'', by simp [hsome], hok,
            ?_, hlen'.trans hlen⟩
          rwa [List.append_assoc, List.singleton_append] at hfilled'

/-! ## Messages that set the extranonce -/

/-- The extranonce fields of `struct stratum_ctx`; `xnonce1` is `none` for a null pointer. -/
structure XnonceFields where
  xnonce1 : Option (Region Byte) := none
  xnonce1Size : Nat := 0
  xnonce2Size : Nat := 0
  deriving DecidableEq, Repr

inductive XnonceMsg where
  | subscribeReply (reply : Json)
  | setExtranonce (params : Option Json)

/-- The sizes that the dialect allows. -/
def xnonceSizesAllowed (isVerus : Bool) (xn1Size xn2Size : Nat) : Bool :=
  if isVerus then 1 ≤ xn2Size && xn1Size + xn2Size == 32
  else 2 ≤ xn2Size && xn2Size ≤ 16 && xn1Size ≤ 12

/-- The checks of `stratum_parse_extranonce`: the text and the size that it passes on.  A line of the
pool has at most 256 KiB, so no length leaves the range of an `int`. -/
def extranonceParams (isVerus : Bool) (params : Option Json) (pndx : Nat) : Option (String × Nat) := do
  let xnonce1 ← Json.stringValue (Json.arrayGet params pndx)
  let xn2Val := Json.arrayGet params (pndx + 1)
  let xn1Size := strlen xnonce1 / 2
  guard (strlen xnonce1 % 2 = 0)
  guard (xn1Size ≤ 32)
  let parsed := parseXn2Size xn2Val
  guard (¬ ((xn2Val.isSome && !Json.isNull xn2Val) ∧ parsed = none))
  let xn2Size := parsed.getD 0
  guard (¬ (xn2Size = 0 ∧ isVerus = false))
  let xn2Size := if xn2Size = 0 then 32 - xn1Size else xn2Size
  guard (xnonceSizesAllowed isVerus xn1Size xn2Size)
  return (xnonce1, xn2Size)

namespace XnonceFields

/-- `stratum_set_extranonce`, which keeps the buffer of an empty extranonce allocated. -/
def setExtranonce (f : XnonceFields) (xnonce1 : String) (xn2Size : Nat) :
    XnonceFields × Except Stop Unit :=
  let xnonce1Size := strlen xnonce1 / 2
  let buf := calloc (0 : Byte) (if xnonce1Size = 0 then 1 else xnonce1Size)
  match hex2binInto buf 0 xnonce1.toList xnonce1Size with
  | .error stop => (f, .error stop)
  | .ok buf => ({ xnonce1 := some buf, xnonce1Size := xnonce1Size, xnonce2Size := xn2Size }, .ok ())

def parseExtranonce (isVerus : Bool) (f : XnonceFields) (params : Option Json) (pndx : Nat) :
    XnonceFields × Except Stop Unit :=
  match extranonceParams isVerus params pndx with
  | none => (f, .error .refused)
  | some (xnonce1, xn2Size) => f.setExtranonce xnonce1 xn2Size

def receive (isVerus : Bool) (f : XnonceFields) : XnonceMsg → XnonceFields × Except Stop Unit
  | .subscribeReply reply => f.parseExtranonce isVerus (reply.objectGet "result") 1
  | .setExtranonce params => f.parseExtranonce isVerus params 0

/-- `xnonce1` points to `xnonce1_size` bytes, which are `bytes`. -/
def Holds (f : XnonceFields) (bytes : List Byte) : Prop :=
  bytes.length = f.xnonce1Size ∧
    match f.xnonce1 with
    | none => bytes = []
    | some buf => buf.Filled bytes

/-- The extranonce that a context is said to have is the one in memory. -/
structure Represents (f : XnonceFields) (ctx : SessionCtx) : Prop where
  holds : f.Holds ctx.xnonce1
  xnonce2Size : ctx.xnonce2Size = f.xnonce2Size

/-- What an accepted message leaves behind. -/
structure Accepted (isVerus : Bool) (f : XnonceFields) : Prop where
  allocated : f.xnonce1.isSome
  holds : ∃ bytes, f.Holds bytes
  verus : isVerus = true → f.xnonce1Size + f.xnonce2Size = 32
  standard : isVerus = false → f.xnonce1Size ≤ 12 ∧ 2 ≤ f.xnonce2Size ∧ f.xnonce2Size ≤ 16

/-- What every notify relies on. -/
structure Sized (f : XnonceFields) : Prop where
  holds : ∃ bytes, f.Holds bytes
  total : f.xnonce1Size + f.xnonce2Size ≤ 32

end XnonceFields

/-- The sizes that the checks let through. -/
theorem extranonceParams_sizes {isVerus : Bool} {params : Option Json} {pndx xn2Size : Nat}
    {xnonce1 : String} (h : extranonceParams isVerus params pndx = some (xnonce1, xn2Size)) :
    (isVerus = true → strlen xnonce1 / 2 + xn2Size = 32) ∧
    (isVerus = false → strlen xnonce1 / 2 ≤ 12 ∧ 2 ≤ xn2Size ∧ xn2Size ≤ 16) := by
  simp only [extranonceParams, Option.bind_eq_bind, Option.bind_eq_some_iff, Option.pure_def,
    Option.some.injEq, Prod.mk.injEq, Option.guard_eq_some'] at h
  obtain ⟨text, -, -, -, -, -, -, -, -, -, -, hsizes, rfl, rfl⟩ := h
  cases isVerus <;> simp_all [xnonceSizesAllowed]

namespace XnonceFields

variable {f : XnonceFields}

/-- The setter refuses what does not decode and otherwise stores the bytes of the text. -/
theorem setExtranonce_spec (f : XnonceFields) (xnonce1 : String) (xn2Size : Nat) :
    (hex2bin xnonce1.toList (strlen xnonce1 / 2) = none ∧
      f.setExtranonce xnonce1 xn2Size = (f, .error .refused)) ∨
    ∃ bytes f', hex2bin xnonce1.toList (strlen xnonce1 / 2) = some bytes ∧
      f.setExtranonce xnonce1 xn2Size = (f', .ok ()) ∧ f'.xnonce1.isSome ∧ f'.Holds bytes ∧
      f'.xnonce1Size = strlen xnonce1 / 2 ∧ f'.xnonce2Size = xn2Size := by
  unfold setExtranonce
  dsimp only
  generalize strlen xnonce1 / 2 = size
  have hroom : ([] : List Byte).length + size ≤
      (calloc (0 : Byte) (if size = 0 then 1 else size)).length := by
    rw [calloc, List.length_replicate, List.length_nil]
    split <;> omega
  obtain ⟨hnone, hstop⟩ | ⟨bytes, buf, hsome, hok, hfilled, -⟩ :=
    hex2binInto_filled (Filled.nil _) xnonce1.toList size hroom
  · rw [List.length_nil] at hstop
    rw [hstop]
    exact .inl ⟨hnone, rfl⟩
  · rw [List.length_nil] at hok
    rw [hok]
    exact .inr ⟨bytes, _, hsome, rfl, rfl, ⟨hex2bin_length hsome, hfilled⟩, rfl, rfl⟩

theorem parseExtranonce_spec (isVerus : Bool) (f : XnonceFields) (params : Option Json) (pndx : Nat) :
    f.parseExtranonce isVerus params pndx = (f, .error .refused) ∨
    ∃ f', f.parseExtranonce isVerus params pndx = (f', .ok ()) ∧ f'.Accepted isVerus := by
  unfold parseExtranonce
  cases hparams : extranonceParams isVerus params pndx with
  | none => exact .inl rfl
  | some accepted =>
    obtain ⟨xnonce1, xn2Size⟩ := accepted
    have hsizes := extranonceParams_sizes hparams
    obtain ⟨-, hstop⟩ | ⟨bytes, f', -, hok, halloc, hholds, hxn1, hxn2⟩ :=
      f.setExtranonce_spec xnonce1 xn2Size
    · exact .inl hstop
    · rw [← hxn1, ← hxn2] at hsizes
      exact .inr ⟨f', hok, halloc, ⟨bytes, hholds⟩, hsizes.1, hsizes.2⟩

/-- A message is refused and changes nothing, or leaves sizes that its dialect allows. -/
theorem receive_spec (isVerus : Bool) (f : XnonceFields) (msg : XnonceMsg) :
    f.receive isVerus msg = (f, .error .refused) ∨
    ∃ f', f.receive isVerus msg = (f', .ok ()) ∧ f'.Accepted isVerus := by
  cases msg with
  | subscribeReply reply => exact parseExtranonce_spec isVerus f _ 1
  | setExtranonce params => exact parseExtranonce_spec isVerus f params 0

theorem Accepted.sized {isVerus : Bool} (h : f.Accepted isVerus) : f.Sized := by
  refine ⟨h.holds, ?_⟩
  cases isVerus with
  | true =>
    have := h.verus rfl
    omega
  | false =>
    have := h.standard rfl
    omega

theorem Sized.receive (h : f.Sized) (isVerus : Bool) (msg : XnonceMsg) :
    (f.receive isVerus msg).1.Sized := by
  obtain hstop | ⟨f', hok, haccepted⟩ := f.receive_spec isVerus msg
  · rwa [hstop]
  · rw [hok]
    exact haccepted.sized

/-- A context after messages, each of them under the dialect of its time. -/
def receiveAll (msgs : List (Bool × XnonceMsg)) : XnonceFields :=
  msgs.foldl (fun f msg => (f.receive msg.1 msg.2).1) {}

/-- The invariant holds after every sequence of messages. -/
theorem receiveAll_sized (msgs : List (Bool × XnonceMsg)) : (receiveAll msgs).Sized := by
  have hrun : ∀ f : XnonceFields, f.Sized →
      (msgs.foldl (fun f msg => (f.receive msg.1 msg.2).1) f).Sized := by
    induction msgs with
    | nil => exact fun f h => h
    | cons msg msgs ih => exact fun f h => ih _ (h.receive msg.1 msg.2)
  exact hrun {} ⟨⟨[], rfl, rfl⟩, by decide⟩

/-! ## The memory of a notify -/

/-- What `memcpy(_, sctx->xnonce1, sctx->xnonce1_size)` reads; a copy of no bytes reads nothing. -/
def loadXnonce1 (f : XnonceFields) : Option (List Byte) :=
  match f.xnonce1 with
  | none => if f.xnonce1Size = 0 then some [] else none
  | some buf => buf.load 0 f.xnonce1Size

/-- `coinbase_prealloc` -/
def coinbasePrealloc (coinb1 coinb2 : String) : Nat := strlen coinb1 / 2 + 32 + strlen coinb2 / 2

/-- The coinbase as `apply_standard_job_locked` writes it into the block that was allocated for it. -/
def writeStandardCoinbase (f : XnonceFields) (coinb1 coinb2 : String) : Except Stop (Region Byte) := do
  let coinb1Size := strlen coinb1 / 2
  let newCoinbase := malloc Byte (coinbasePrealloc coinb1 coinb2)
  let newCoinbase ← hex2binInto newCoinbase 0 coinb1.toList coinb1Size
  let xnonce1 ← access f.loadXnonce1
  let newCoinbase ← access (newCoinbase.store coinb1Size xnonce1)
  let newXnonce2 := coinb1Size + f.xnonce1Size
  let newCoinbase ← access (newCoinbase.store newXnonce2 (List.replicate f.xnonce2Size 0))
  hex2binInto newCoinbase (newXnonce2 + f.xnonce2Size) coinb2.toList (strlen coinb2 / 2)

/-- `apply_standard_job_locked` and what `build_standard_work` takes from the coinbase: the block of
the coinbase and the `xnonce2` field of the work. -/
def notifyStandard (f : XnonceFields) (msg : StandardNotifyView) :
    Except Stop (Region Byte × Region Byte) := do
  let coinb1Size := strlen msg.coinb1 / 2
  let coinbaseSize := coinb1Size + f.xnonce1Size + f.xnonce2Size + strlen msg.coinb2 / 2
  let coinbase ← f.writeStandardCoinbase msg.coinb1 msg.coinb2
  let _ ← orRefuse (stratumDecodeHexField 32 msg.prevhash)
  let _ ← orRefuse (stratumDecodeHexField 4 msg.version)
  let _ ← orRefuse (stratumDecodeHexField 4 msg.nbits)
  let _ ← orRefuse (stratumDecodeHexField 4 msg.stime)
  -- the height and the Merkle root are read from the whole coinbase
  let _ ← access (coinbase.load 0 coinbaseSize)
  let xnonce2 ← access (coinbase.load (coinb1Size + f.xnonce1Size) f.xnonce2Size)
  let field ← access ((calloc (0 : Byte) 32).store 0 xnonce2)
  return (coinbase, field)

/-- The coinbase as `apply_verus_job_locked` writes it; the last `xnonce2_size` bytes stay unwritten. -/
def writeVerusCoinbase (f : XnonceFields) (coinb1 coinb2 : String) : Except Stop (Region Byte) := do
  let coinb1Size := strlen coinb1 / 2
  let coinb2Size := strlen coinb2 / 2
  let newCoinbase := malloc Byte (coinbasePrealloc coinb1 coinb2)
  let newCoinbase ← hex2binInto newCoinbase 0 coinb1.toList coinb1Size
  let newCoinbase ← hex2binInto newCoinbase coinb1Size coinb2.toList coinb2Size
  let xnonce1 ← access f.loadXnonce1
  access (newCoinbase.store (coinb1Size + coinb2Size) xnonce1)

/-- `apply_verus_job_locked` and what `build_verus_work` takes from the coinbase and the extranonce:
the block of the coinbase and the nonce field of the header. -/
def notifyVerus (f : XnonceFields) (msg : VerusNotifyView) : Except Stop (Region Byte × Region Byte) := do
  -- `verus_validate_nonce_layout`
  let _ ← orRefuse (guard (f.xnonce1Size ≤ verusNonceFieldBytes ∧
    f.xnonce1Size + f.xnonce2Size = verusNonceFieldBytes ∧ f.xnonce1Size ≤ 12))
  let _ ← orRefuse (stratumDecodeHexField 4 msg.version)
  let _ ← orRefuse (stratumDecodeHexField 32 msg.prevhash)
  let _ ← orRefuse (stratumDecodeHexField 4 msg.nbits)
  let _ ← orRefuse (stratumDecodeHexField 4 msg.stime)
  let coinbase ← f.writeVerusCoinbase msg.coinb1 msg.coinb2
  -- the header takes the first 64 bytes of the coinbase
  let _ ← access (coinbase.load 0 64)
  let xnonce1 ← access f.loadXnonce1
  let field ← access ((calloc (0 : Byte) verusNonceFieldBytes).store 0 xnonce1)
  return (coinbase, field)

/-- `stratum_notify_standard`; what its other checks refuse never reaches the memory. -/
def stratumNotifyStandard (f : XnonceFields) (params : Option Json) :
    Except Stop (Region Byte × Region Byte) := do
  let msg ← orRefuse (parseStandardNotify params)
  f.notifyStandard msg

/-- `verus_stratum_notify` -/
def verusStratumNotify (f : XnonceFields) (params : Option Json) :
    Except Stop (Region Byte × Region Byte) := do
  let msg ← orRefuse (parseVerusNotify params)
  f.notifyVerus msg

theorem Holds.loadXnonce1 {bytes : List Byte} (h : f.Holds bytes) : f.loadXnonce1 = some bytes := by
  obtain ⟨hlen, hheld⟩ := h
  unfold XnonceFields.loadXnonce1
  cases hptr : f.xnonce1 with
  | none =>
    rw [hptr] at hheld
    rw [if_pos (by rw [← hlen, hheld]; rfl), hheld]
  | some buf =>
    rw [hptr] at hheld
    have hload := Filled.load (show buf.Filled ([] ++ bytes ++ []) by simpa using hheld)
    rwa [hlen] at hload

/-- The coinbase stays inside its block. -/
theorem Holds.writeStandardCoinbase {xnonce1 : List Byte} (h : f.Holds xnonce1)
    (htotal : f.xnonce1Size + f.xnonce2Size ≤ 32) (coinb1 coinb2 : String) :
    ((hex2bin coinb1.toList (strlen coinb1 / 2) = none ∨
        hex2bin coinb2.toList (strlen coinb2 / 2) = none) ∧
      f.writeStandardCoinbase coinb1 coinb2 = .error .refused) ∨
    ∃ bytes1 bytes2 block, hex2bin coinb1.toList (strlen coinb1 / 2) = some bytes1 ∧
      hex2bin coinb2.toList (strlen coinb2 / 2) = some bytes2 ∧
      f.writeStandardCoinbase coinb1 coinb2 = .ok block ∧
      block.length = coinbasePrealloc coinb1 coinb2 ∧
      block.Filled (bytes1 ++ xnonce1 ++ List.replicate f.xnonce2Size 0 ++ bytes2) := by
  have hxn1 : xnonce1.length = f.xnonce1Size := h.1
  have hsize : (malloc Byte (coinbasePrealloc coinb1 coinb2)).length =
    strlen coinb1 / 2 + 32 + strlen coinb2 / 2 := List.length_replicate
  obtain ⟨hnone, hstop⟩ | ⟨bytes1, block1, hbytes1, hblock1, hfill1, hsize1⟩ :=
    hex2binInto_filled (Filled.nil _) coinb1.toList (strlen coinb1 / 2) (by
      rw [hsize, List.length_nil]
      omega)
  · rw [List.length_nil] at hstop
    exact .inl ⟨.inl hnone, by rw [XnonceFields.writeStandardCoinbase, hstop]; rfl⟩
  have hlen1 := hex2bin_length hbytes1
  rw [List.nil_append] at hfill1
  obtain ⟨block2, hblock2, hfill2⟩ := hfill1.store xnonce1 (by rw [hsize1, hsize]; omega)
  have hsize2 := length_store hblock2
  obtain ⟨block3, hblock3, hfill3⟩ := hfill2.store (List.replicate f.xnonce2Size 0) (by
    rw [hsize2, hsize1, hsize, List.length_append, List.length_replicate]
    omega)
  have hsize3 := length_store hblock3
  have hend : (bytes1 ++ xnonce1 ++ List.replicate f.xnonce2Size 0).length =
      strlen coinb1 / 2 + f.xnonce1Size + f.xnonce2Size := by
    rw [List.length_append, List.length_append, List.length_replicate, hlen1, hxn1]
  rw [List.length_append, hlen1, hxn1] at hblock3
  rw [hlen1] at hblock2
  have hwrites : f.writeStandardCoinbase coinb1 coinb2 =
      hex2binInto block3 (strlen coinb1 / 2 + f.xnonce1Size + f.xnonce2Size) coinb2.toList
        (strlen coinb2 / 2) := by
    rw [List.length_nil] at hblock1
    rw [XnonceFields.writeStandardCoinbase, h.loadXnonce1, hblock1]
    simp only [access, ok_bind, hblock2, hblock3]
  rw [hwrites, ← hend]
  obtain ⟨hnone, hstop⟩ | ⟨bytes2, block4, hbytes2, hblock4, hfill4, hsize4⟩ :=
    hex2binInto_filled hfill3 coinb2.toList (strlen coinb2 / 2) (by
      rw [hend, hsize3, hsize2, hsize1, hsize]
      omega)
  · exact .inl ⟨.inr hnone, hstop⟩
  · refine .inr ⟨bytes1, bytes2, block4, hbytes1, hbytes2, hblock4, ?_, hfill4⟩
    rw [hsize4, hsize3, hsize2, hsize1, hsize, coinbasePrealloc]

/-- The handler stays inside its blocks, refuses what `applyStandardJobLocked` refuses, and fills the
coinbase and the field of the work with what that puts into the job. -/
theorem Represents.notifyStandard {ctx : SessionCtx} (h : f.Represents ctx)
    (htotal : f.xnonce1Size + f.xnonce2Size ≤ 32) (msg : StandardNotifyView)
    (merkle : List (Buffer 32)) :
    (applyStandardJobLocked ctx msg merkle = none ∧ f.notifyStandard msg = .error .refused) ∨
    ∃ ctx' coinbase field, applyStandardJobLocked ctx msg merkle = some ctx' ∧
      f.notifyStandard msg = .ok (coinbase, field) ∧
      coinbase.length = coinbasePrealloc msg.coinb1 msg.coinb2 ∧ coinbase.Filled ctx'.job.coinbase ∧
      field.length = 32 ∧ field.Filled ctx'.job.xnonce2 := by
  have hxn1 : ctx.xnonce1.length = f.xnonce1Size := h.holds.1
  unfold XnonceFields.notifyStandard applyStandardJobLocked
  dsimp only
  rw [h.xnonce2Size]
  obtain ⟨hnone, hstop⟩ | ⟨bytes1, bytes2, block, hbytes1, hbytes2, hblock, hsize, hfill⟩ :=
    h.holds.writeStandardCoinbase htotal msg.coinb1 msg.coinb2
  · rw [hstop]
    obtain hnone | hnone := hnone
    · exact .inl ⟨by rw [hnone]; rfl, rfl⟩
    · exact .inl ⟨by simp [hnone], rfl⟩
  have hlen1 := hex2bin_length hbytes1
  have hlen2 := hex2bin_length hbytes2
  rw [hbytes1, hbytes2, hblock]
  cases stratumDecodeHexField 32 msg.prevhash with
  | none => exact .inl ⟨rfl, rfl⟩
  | some prevhash =>
  cases stratumDecodeHexField 4 msg.version with
  | none => exact .inl ⟨rfl, rfl⟩
  | some version =>
  cases stratumDecodeHexField 4 msg.nbits with
  | none => exact .inl ⟨rfl, rfl⟩
  | some nbits =>
  cases stratumDecodeHexField 4 msg.stime with
  | none => exact .inl ⟨rfl, rfl⟩
  | some ntime =>
  -- every field decodes: the loads are of bytes that were written
  have hwhole : block.load 0 (strlen msg.coinb1 / 2 + f.xnonce1Size + f.xnonce2Size + strlen msg.coinb2 / 2) =
      some (bytes1 ++ ctx.xnonce1 ++ List.replicate f.xnonce2Size 0 ++ bytes2) := by
    have hload := Filled.load (show block.Filled
      ([] ++ (bytes1 ++ ctx.xnonce1 ++ List.replicate f.xnonce2Size 0 ++ bytes2) ++ []) by simpa using hfill)
    simpa only [List.length_append, List.length_replicate, hlen1, hlen2, hxn1, List.length_nil] using hload
  have hpart : block.load (strlen msg.coinb1 / 2 + f.xnonce1Size) f.xnonce2Size =
      some (List.replicate f.xnonce2Size 0) := by
    have hload := Filled.load hfill
    simpa only [List.length_append, List.length_replicate, hlen1, hxn1] using hload
  obtain ⟨field, hfield, hfilled⟩ := (Filled.nil (calloc (0 : Byte) 32)).store
    (List.replicate f.xnonce2Size 0) (by
      rw [calloc, List.length_replicate, List.length_replicate, List.length_nil]
      omega)
  rw [List.length_nil] at hfield
  refine .inr ⟨_, block, field, rfl, ?_, hsize, hfill, ?_, hfilled⟩
  · simp only [orRefuse, access, ok_bind, hwhole, hpart, hfield]
    rfl
  · rw [length_store hfield, calloc, List.length_replicate]

/-- The coinbase stays inside its block. -/
theorem Holds.writeVerusCoinbase {xnonce1 : List Byte} (h : f.Holds xnonce1)
    (htotal : f.xnonce1Size ≤ 32) (coinb1 coinb2 : String) :
    ((hex2bin coinb1.toList (strlen coinb1 / 2) = none ∨
        hex2bin coinb2.toList (strlen coinb2 / 2) = none) ∧
      f.writeVerusCoinbase coinb1 coinb2 = .error .refused) ∨
    ∃ bytes1 bytes2 block, hex2bin coinb1.toList (strlen coinb1 / 2) = some bytes1 ∧
      hex2bin coinb2.toList (strlen coinb2 / 2) = some bytes2 ∧
      f.writeVerusCoinbase coinb1 coinb2 = .ok block ∧
      block.length = coinbasePrealloc coinb1 coinb2 ∧ block.Filled (bytes1 ++ bytes2 ++ xnonce1) := by
  have hxn1 : xnonce1.length = f.xnonce1Size := h.1
  have hsize : (malloc Byte (coinbasePrealloc coinb1 coinb2)).length =
    strlen coinb1 / 2 + 32 + strlen coinb2 / 2 := List.length_replicate
  unfold XnonceFields.writeVerusCoinbase
  dsimp only
  rw [h.loadXnonce1]
  obtain ⟨hnone, hstop⟩ | ⟨bytes1, block1, hbytes1, hblock1, hfill1, hsize1⟩ :=
    hex2binInto_filled (Filled.nil _) coinb1.toList (strlen coinb1 / 2) (by
      rw [hsize, List.length_nil]
      omega)
  · rw [List.length_nil] at hstop
    exact .inl ⟨.inl hnone, by rw [hstop]; rfl⟩
  have hlen1 := hex2bin_length hbytes1
  rw [List.nil_append] at hfill1
  rw [List.length_nil] at hblock1
  rw [hblock1, ok_bind]
  obtain ⟨hnone, hstop⟩ | ⟨bytes2, block2, hbytes2, hblock2, hfill2, hsize2⟩ :=
    hex2binInto_filled hfill1 coinb2.toList (strlen coinb2 / 2) (by
      rw [hsize1, hsize]
      omega)
  · rw [hlen1] at hstop
    exact .inl ⟨.inr hnone, by rw [hstop]; rfl⟩
  have hlen2 := hex2bin_length hbytes2
  rw [hlen1] at hblock2
  obtain ⟨block3, hblock3, hfill3⟩ := hfill2.store xnonce1 (by
    rw [hsize2, hsize1, hsize, List.length_append]
    omega)
  rw [List.length_append, hlen1, hlen2] at hblock3
  refine .inr ⟨bytes1, bytes2, block3, hbytes1, hbytes2, ?_, ?_, hfill3⟩
  · simp only [hblock2, access, ok_bind, hblock3]
  · rw [length_store hblock3, hsize2, hsize1, hsize, coinbasePrealloc]

/-- The handler stays inside its blocks, refuses what `applyVerusJobLocked` refuses, and fills the
coinbase with what that puts into the job and the nonce field with the extranonce. -/
theorem Represents.notifyVerus {ctx : SessionCtx} (h : f.Represents ctx) {params : Option Json}
    {msg : VerusNotifyView} (hmsg : parseVerusNotify params = some msg) (solution : Buffer 1344) :
    (applyVerusJobLocked ctx msg solution = none ∧ f.notifyVerus msg = .error .refused) ∨
    ∃ ctx' coinbase field, applyVerusJobLocked ctx msg solution = some ctx' ∧
      f.notifyVerus msg = .ok (coinbase, field) ∧
      coinbase.length = coinbasePrealloc msg.coinb1 msg.coinb2 ∧ coinbase.Filled ctx'.job.coinbase ∧
      field.length = verusNonceFieldBytes ∧ field.Filled ctx'.xnonce1 := by
  have hxn1 : ctx.xnonce1.length = f.xnonce1Size := h.holds.1
  have hlengths : strlen msg.coinb1 = 64 ∧ strlen msg.coinb2 = 64 := by
    simp only [parseVerusNotify, Option.bind_eq_bind, Option.bind_eq_some_iff, Option.pure_def,
      Option.some.injEq, Option.guard_eq_some'] at hmsg
    obtain ⟨_, -, _, -, _, -, _, -, _, -, _, -, _, -, -, -, -, hlengths, rfl⟩ := hmsg
    exact ⟨hlengths.2.2.1, hlengths.2.2.2.1⟩
  unfold XnonceFields.notifyVerus applyVerusJobLocked
  have hlayout : verusValidateNonceLayout ctx = true ↔ f.xnonce1Size ≤ verusNonceFieldBytes ∧
      f.xnonce1Size + f.xnonce2Size = verusNonceFieldBytes ∧ f.xnonce1Size ≤ 12 := by
    simp [verusValidateNonceLayout, hxn1, h.xnonce2Size, and_assoc]
  by_cases hfits : verusValidateNonceLayout ctx = true
  case neg =>
    simp only [guard, if_neg hfits, if_neg (mt hlayout.2 hfits)]
    exact .inl ⟨rfl, rfl⟩
  simp only [guard, if_pos hfits, if_pos (hlayout.1 hfits)]
  have hsizes := hlayout.1 hfits
  have htotal : f.xnonce1Size ≤ 32 := hsizes.1
  cases stratumDecodeHexField 4 msg.version with
  | none => exact .inl ⟨rfl, rfl⟩
  | some version =>
  cases stratumDecodeHexField 32 msg.prevhash with
  | none => exact .inl ⟨rfl, rfl⟩
  | some prevhash =>
  cases stratumDecodeHexField 4 msg.nbits with
  | none => exact .inl ⟨rfl, rfl⟩
  | some nbits =>
  cases stratumDecodeHexField 4 msg.stime with
  | none => exact .inl ⟨rfl, rfl⟩
  | some ntime =>
  obtain ⟨hnone, hstop⟩ | ⟨bytes1, bytes2, block, hbytes1, hbytes2, hblock, hsize, hfill⟩ :=
    h.holds.writeVerusCoinbase htotal msg.coinb1 msg.coinb2
  · rw [hstop]
    obtain hnone | hnone := hnone
    · exact .inl ⟨by rw [hnone]; rfl, rfl⟩
    · exact .inl ⟨by simp [hnone], rfl⟩
  have hlen : (bytes1 ++ bytes2).length = 64 := by
    rw [List.length_append, hex2bin_length hbytes1, hex2bin_length hbytes2, hlengths.1, hlengths.2]
  have hhead : block.load 0 64 = some (bytes1 ++ bytes2) := by
    have hload := Filled.load (show block.Filled ([] ++ (bytes1 ++ bytes2) ++ ctx.xnonce1) by
      simpa using hfill)
    rwa [hlen, List.length_nil] at hload
  obtain ⟨field, hfield, hfilled⟩ := (Filled.nil (calloc (0 : Byte) verusNonceFieldBytes)).store
    ctx.xnonce1 (by
      rw [calloc, List.length_replicate, List.length_nil, hxn1, verusNonceFieldBytes]
      omega)
  rw [List.length_nil] at hfield
  rw [hbytes1, hbytes2, hblock, h.holds.loadXnonce1]
  refine .inr ⟨_, block, field, rfl, ?_, hsize, hfill, ?_, hfilled⟩
  · simp only [orRefuse, access, ok_bind, hhead, hfield, pure]
    rfl
  · rw [length_store hfield, calloc, List.length_replicate]

end XnonceFields

open XnonceFields

/-- After every sequence of subscribe replies and `mining.set_extranonce` messages, the next message is
refused and changes nothing or leaves sizes that its dialect allows, and no notify of either dialect
leaves the block of its coinbase, the extranonce field of the work or the nonce field of the header. -/
theorem extranonce_sizes_and_coinbase_bounds (msgs : List (Bool × XnonceMsg)) :
    (∀ isVerus msg, (receiveAll msgs).receive isVerus msg = (receiveAll msgs, .error .refused) ∨
      ∃ f', (receiveAll msgs).receive isVerus msg = (f', .ok ()) ∧ f'.Accepted isVerus) ∧
    (∀ params, (receiveAll msgs).stratumNotifyStandard params ≠ .error .badAccess) ∧
    (∀ params, (receiveAll msgs).verusStratumNotify params ≠ .error .badAccess) := by
  obtain ⟨⟨bytes, hholds⟩, htotal⟩ := receiveAll_sized msgs
  -- a context with the extranonce that is in memory
  have hrep : (receiveAll msgs).Represents
      { pooln := 0, isVerusProtocol := false, xnonce1 := bytes, xnonce2Size := (receiveAll msgs).xnonce2Size } :=
    ⟨hholds, rfl⟩
  refine ⟨fun isVerus msg => receive_spec isVerus _ msg, ?_, ?_⟩
  · intro params
    unfold XnonceFields.stratumNotifyStandard
    cases parseStandardNotify params with
    | none => simp [orRefuse, error_bind]
    | some msg =>
      obtain ⟨-, hstop⟩ | ⟨_, _, _, -, hok, -⟩ := hrep.notifyStandard htotal msg []
      · simp [orRefuse, ok_bind, hstop]
      · simp [orRefuse, ok_bind, hok]
  · intro params
    unfold XnonceFields.verusStratumNotify
    cases hmsg : parseVerusNotify params with
    | none => simp [orRefuse, error_bind]
    | some msg =>
      obtain ⟨-, hstop⟩ | ⟨_, _, _, -, hok, -⟩ := hrep.notifyVerus hmsg .zero
      · simp [orRefuse, ok_bind, hstop]
      · simp [orRefuse, ok_bind, hok]

end PrimoMiner
