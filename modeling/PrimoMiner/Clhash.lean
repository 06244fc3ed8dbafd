import Mathlib.Logic.Function.Basic
import PrimoMiner.Neon

/-!
# CLHash

The CLHash core of VerusHash: 32 steps, each of which takes two slots of the key from the
accumulator, folds one of eight computations into the accumulator and stores two vectors back into
the slots.  The two slots can be the same one, so loads and stores are kept in the order of the
source.  The input vectors and the journal are separate arrays.
-/

namespace PrimoMiner

/-- The key buffer, by the index of the vector. -/
abbrev ClKey := Nat → Vec128

/-- The switches of `clhash_native.h` that choose between the assembly helpers and plain C.  The two forms
that `CLHASH_ASM_XOR_LOW32` chooses from take the same steps. -/
structure ClhashBuild where
  asmAesMix2 : Bool
  asmCase18Clmul : Bool
  asmCase18Fixedcount : Bool
  asmCase18MaskPtrs : Bool
  deriving DecidableEq, Repr

/-- The build of `clhash_native.c` as it stands. -/
def clhashAsm : ClhashBuild := ⟨true, true, true, true⟩

/-- The build of `clhash_native_noasm.c`. -/
def clhashNoasm : ClhashBuild := ⟨false, false, false, false⟩

/-! ## Helpers -/

/-- High half of `a` times low half of `b`, whatever the selector says. -/
def clmulNative (a b : Vec128) : Vec128 := vmullP64 (vgetqLaneU64 a 1) (vgetqLaneU64 b 0)

def precompReduction64Native (a : Vec128) : BitVec 64 :=
  let c := vcombineU64 0x1B 0
  let q2 := clmulNative a c
  let shuffleTable := ofLanes 16 fun i =>
    BitVec.ofNat 8
      ([0, 27, 54, 45, 108, 119, 90, 65, 216, 195, 238, 245, 180, 175, 130, 153].getD i 0)
  let q2Shifted := q2 >>> 64
  let idxMasked := q2Shifted &&& ofLanes 16 fun _ => (0x8F : BitVec 8)
  let q3 := vqtbl1qS8 shuffleTable idxMasked
  let q4 := q2 ^^^ a
  let final := q3 ^^^ q4
  vgetqLaneU64 final 0

def aesEncryptRoundNative (state roundKey : Vec128) : Vec128 :=
  vaesmcqU8 (vaeseqU8 state 0) ^^^ roundKey

/-- Round keys stand at `rc`, four for each block. -/
def aesRounds4Native (temp : Vec128 × Vec128) (rc : ClKey) (roundBlock : Nat) : Vec128 × Vec128 :=
  let rk := fun i => rc (4 * roundBlock + i)
  let temp1 := aesEncryptRoundNative temp.1 (rk 0)
  let temp2 := aesEncryptRoundNative temp.2 (rk 1)
  (aesEncryptRoundNative temp1 (rk 2), aesEncryptRoundNative temp2 (rk 3))

def mix2EmuSimpleNative (temp : Vec128 × Vec128) : Vec128 × Vec128 :=
  (vzip1qU32 temp.1 temp.2, vzip2qU32 temp.1 temp.2)

def aesRounds4Mix2XorNativeAsm (build : ClhashBuild) (temp1 temp2 : Vec128) (rk : ClKey) : Vec128 :=
  if build.asmAesMix2 then
    let s0 := vaesmcqU8 (vaeseqU8 temp1 0)
    let s1 := vaesmcqU8 (vaeseqU8 temp2 0)
    -- the key of the first round goes into the second `aese`
    let s0 := vaesmcqU8 (vaeseqU8 s0 (rk 0))
    let s1 := vaesmcqU8 (vaeseqU8 s1 (rk 1))
    let s0 := s0 ^^^ rk 2
    let s1 := s1 ^^^ rk 3
    let t := vzip2qU32 s0 s1
    vzip1qU32 s0 s1 ^^^ t
  else
    let temp := mix2EmuSimpleNative (aesRounds4Native (temp1, temp2) rk 0)
    temp.1 ^^^ temp.2

/-- The assembly and the C form read lane 0 and write it back. -/
def xorLow32LaneNativeAsm (acc : Vec128) (x : BitVec 32) : Vec128 :=
  ofLanes 4 fun i => if i = 0 then lane 32 acc 0 ^^^ x else lane 32 acc i

/-- `(int32_t)(dividend % divisor)` with the low half of the selector as the divisor. -/
def moduloResult (dividend selector : BitVec 64) : BitVec 32 :=
  BitVec.ofInt 32 (dividend.toInt.tmod (selector.setWidth 32).toInt)

section core

-- the rounding multiply of 16-bit lanes
variable (mulhrs : Vec128 → Vec128 → Vec128) (build : ClhashBuild)

/-- The accumulator and the key of the round. -/
def case18ClmulMulhrsXorNativeAsm (acc onekey temp : Vec128) : Vec128 × Vec128 :=
  if build.asmCase18Clmul then
    let k := onekey ^^^ temp
    -- `dup` and `pmull2`: the high halves of `k` and of its low half doubled
    let t := vcombineU64 (vgetqLaneU64 k 0) (vgetqLaneU64 k 0)
    let k := vmullP64 (vgetqLaneU64 k 1) (vgetqLaneU64 t 1)
    let t := mulhrs acc k
    (acc ^^^ t, k)
  else
    let add1 := onekey ^^^ temp
    let onekey := clmulNative add1 add1
    (mulhrs acc onekey ^^^ acc, onekey)

/-- One round of case 0x18: a remainder, or a carry-less square. -/
def case18Round (selector : BitVec 64) (divides : Bool) (selDiv selCl acc onekey : Vec128) :
    Vec128 × Vec128 :=
  if divides then
    let onekey := onekey ^^^ selDiv
    (xorLow32LaneNativeAsm acc (moduloResult (vgetqLaneU64 onekey 0) selector), onekey)
  else case18ClmulMulhrsXorNativeAsm mulhrs build acc onekey selCl

/-- Bit `28 + rounds` of the selector. -/
def roundBit (selector : BitVec 64) (rounds : Int) : Bool :=
  selector &&& (0x10000000 <<< rounds.toNat) != 0

/-- The loop with a running mask and swapped pointers. -/
def case18LoopMaskPtrs (selector : BitVec 64) (key : ClKey) :
    Nat → Nat → Int → BitVec 64 → Vec128 → Vec128 → Vec128 → Vec128 → Vec128 × Vec128
  | 0, _, _, _, _, _, acc, onekey => (acc, onekey)
  | count + 1, rc, rounds, mask, selDiv, selCl, acc, onekey =>
    if 0 ≤ rounds then
      let (acc, onekey) :=
        case18Round mulhrs build selector (selector &&& mask != 0) selDiv selCl acc (key rc)
      case18LoopMaskPtrs selector key count (rc + 1) (rounds - 1) (mask >>> 1) selCl selDiv acc
        onekey
    else case18LoopMaskPtrs selector key count rc rounds mask selDiv selCl acc onekey

/-- The loop of eight rounds that tests the round number in each. -/
def case18LoopFixedcount (selector : BitVec 64) (pbuf pbsf : Vec128) (key : ClKey) :
    Nat → Nat → Int → Vec128 → Vec128 → Vec128 × Vec128
  | 0, _, _, acc, onekey => (acc, onekey)
  | count + 1, rc, rounds, acc, onekey =>
    if 0 ≤ rounds then
      let selDiv := if rounds % 2 = 1 then pbuf else pbsf
      let selCl := if rounds % 2 = 1 then pbsf else pbuf
      let (acc, onekey) :=
        case18Round mulhrs build selector (roundBit selector rounds) selDiv selCl acc (key rc)
      case18LoopFixedcount selector pbuf pbsf key count (rc + 1) (rounds - 1) acc onekey
    else case18LoopFixedcount selector pbuf pbsf key count rc rounds acc onekey

/-- The loop that runs while `rounds` is not negative; the first argument is `rounds + 1`. -/
def case18LoopPlain (selector : BitVec 64) (pbuf pbsf : Vec128) (key : ClKey) :
    Nat → Nat → Vec128 → Vec128 → Vec128 × Vec128
  | 0, _, acc, onekey => (acc, onekey)
  | rounds + 1, rc, acc, _ =>
    let selDiv := if rounds % 2 = 1 then pbuf else pbsf
    let selCl := if rounds % 2 = 1 then pbsf else pbuf
    let (acc, onekey) :=
      case18Round mulhrs build selector (roundBit selector rounds) selDiv selCl acc (key rc)
    case18LoopPlain selector pbuf pbsf key rounds (rc + 1) acc onekey

/-- The accumulator and the last key. -/
def case18InnerLoopNativeAsm (acc : Vec128) (key : ClKey) (rc : Nat) (rounds : Int)
    (selector : BitVec 64) (pbuf pbsf : Vec128) : Vec128 × Vec128 :=
  if build.asmCase18Fixedcount then
    if build.asmCase18MaskPtrs then
      let selDiv := if rounds % 2 = 1 then pbuf else pbsf
      let selCl := if rounds % 2 = 1 then pbsf else pbuf
      case18LoopMaskPtrs mulhrs build selector key 8 rc rounds (0x10000000 <<< rounds.toNat) selDiv
        selCl acc 0
    else case18LoopFixedcount mulhrs build selector pbuf pbsf key 8 rc rounds acc 0
  else case18LoopPlain mulhrs build selector pbuf pbsf key (rounds + 1).toNat rc acc 0

/-- The loop of case 0x14: a carry-less square or four AES rounds, whose keys follow the pointer
that has already moved on. -/
def case14Loop (selector : BitVec 64) (pbuf pbsf : Vec128) (key : ClKey) :
    Nat → Nat → Int → Nat → Vec128 → Vec128
  | 0, _, _, _, acc => acc
  | count + 1, rc, rounds, aesround, acc =>
    if 0 ≤ rounds then
      let onekey := key rc
      let rc := rc + 1
      let selCl := if rounds % 2 = 1 then pbuf else pbsf
      let selAes := if rounds % 2 = 1 then pbsf else pbuf
      if roundBit selector rounds then
        let add1 := onekey ^^^ selCl
        let acc := clmulNative add1 add1 ^^^ acc
        case14Loop selector pbuf pbsf key count rc (rounds - 1) aesround acc
      else
        let rk := fun i => key (rc + 4 * aesround + i)
        let mixxor := aesRounds4Mix2XorNativeAsm build onekey selAes rk
        case14Loop selector pbuf pbsf key count rc (rounds - 1) (aesround + 1) (acc ^^^ mixxor)
    else case14Loop selector pbuf pbsf key count rc rounds aesround acc

/-! ## One step -/

/-- What a case body reads: the accumulator, the key with the two slots, and the input vectors. -/
structure StepIn where
  acc : Vec128
  selector : BitVec 64
  key : ClKey
  prand : Nat
  prandex : Nat
  pbuf : Vec128
  pbsf : Vec128

def clhashCase00 (s : StepIn) : Vec128 × ClKey :=
  let key := s.key
  let temp1 := key s.prandex
  let temp2 := s.pbsf
  let add1 := temp1 ^^^ temp2
  let acc := clmulNative add1 add1 ^^^ s.acc
  let tempa1 := mulhrs acc temp1
  let tempa2 := tempa1 ^^^ temp1
  let temp12 := key s.prand
  let key := Function.update key s.prand tempa2
  let temp22 := s.pbuf
  let add12 := temp12 ^^^ temp22
  let acc := clmulNative add12 add12 ^^^ acc
  let tempb1 := mulhrs acc temp12
  let key := Function.update key s.prandex (tempb1 ^^^ temp12)
  (acc, key)

def clhashCase04 (s : StepIn) : Vec128 × ClKey :=
  let key := s.key
  let temp1 := key s.prand
  let temp2 := s.pbuf
  let add1 := temp1 ^^^ temp2
  let acc := clmulNative add1 add1 ^^^ s.acc
  let acc := clmulNative temp2 temp2 ^^^ acc
  let tempa1 := mulhrs acc temp1
  let tempa2 := tempa1 ^^^ temp1
  let temp12 := key s.prandex
  let key := Function.update key s.prandex tempa2
  let temp22 := s.pbsf
  let add12 := temp12 ^^^ temp22
  let acc := add12 ^^^ acc
  let tempb1 := mulhrs acc temp12
  let tempb2 := tempb1 ^^^ temp12
  let key := Function.update key s.prand tempb2
  (acc, key)

def clhashCase08 (s : StepIn) : Vec128 × ClKey :=
  let key := s.key
  let temp1 := key s.prandex
  let temp2 := s.pbuf
  let add1 := temp1 ^^^ temp2
  let acc := add1 ^^^ s.acc
  let tempa1 := mulhrs acc temp1
  let tempa2 := tempa1 ^^^ temp1
  let temp12 := key s.prand
  let key := Function.update key s.prand tempa2
  let temp22 := s.pbsf
  let add12 := temp12 ^^^ temp22
  let acc := clmulNative add12 add12 ^^^ acc
  let acc := clmulNative temp22 temp22 ^^^ acc
  let tempb1 := mulhrs acc temp12
  let tempb2 := tempb1 ^^^ temp12
  let key := Function.update key s.prandex tempb2
  (acc, key)

def clhashCase0c (s : StepIn) : Vec128 × ClKey :=
  let key := s.key
  let temp1 := key s.prand
  let temp2 := s.pbsf
  let add1 := temp1 ^^^ temp2
  let acc := add1 ^^^ s.acc
  let dividend := vgetqLaneU64 acc 0
  let acc := xorLow32LaneNativeAsm acc (moduloResult dividend s.selector)
  let tempa1 := mulhrs acc temp1
  let tempa2 := tempa1 ^^^ temp1
  if dividend &&& 1 != 0 then
    let temp12 := key s.prandex
    let key := Function.update key s.prandex tempa2
    let temp22 := s.pbuf
    let add12 := temp12 ^^^ temp22
    let acc := clmulNative add12 add12 ^^^ acc
    let acc := clmulNative temp22 temp22 ^^^ acc
    let tempb1 := mulhrs acc temp12
    let tempb2 := tempb1 ^^^ temp12
    let key := Function.update key s.prand tempb2
    (acc, key)
  else
    let key := Function.update key s.prand (key s.prandex)
    let key := Function.update key s.prandex tempa2
    let tempb4 := s.pbuf
    let acc := tempb4 ^^^ acc
    (acc, key)

def clhashCase10 (s : StepIn) : Vec128 × ClKey :=
  let key := s.key
  let rc := fun i => key (s.prand + i)
  let temp := (s.pbsf, s.pbuf)
  let temp := mix2EmuSimpleNative (aesRounds4Native temp rc 0)
  let temp := mix2EmuSimpleNative (aesRounds4Native temp rc 1)
  let temp := mix2EmuSimpleNative (aesRounds4Native temp rc 2)
  let acc := s.acc ^^^ temp.1
  let acc := acc ^^^ temp.2
  let tempa1 := key s.prand
  let tempa2 := mulhrs acc tempa1
  let key := Function.update key s.prand (key s.prandex)
  let key := Function.update key s.prandex (tempa1 ^^^ tempa2)
  (acc, key)

def clhashCase14 (s : StepIn) : Vec128 × ClKey :=
  let key := s.key
  let rounds : Int := (s.selector >>> 61).toNat
  let acc := case14Loop build s.selector s.pbuf s.pbsf key 8 s.prand rounds 0 s.acc
  let tempa1 := key s.prand
  let tempa2 := mulhrs acc tempa1
  let key := Function.update key s.prand (key s.prandex)
  let key := Function.update key s.prandex (tempa1 ^^^ tempa2)
  (acc, key)

def clhashCase18 (s : StepIn) : Vec128 × ClKey :=
  let key := s.key
  let rounds : Int := (s.selector >>> 61).toNat
  let (acc, onekey) :=
    case18InnerLoopNativeAsm mulhrs build s.acc key s.prand rounds s.selector s.pbuf s.pbsf
  let tempa3 := key s.prandex
  let tempa4 := tempa3 ^^^ acc
  let key := Function.update key s.prandex onekey
  let key := Function.update key s.prand tempa4
  (acc, key)

def clhashCaseDefault (s : StepIn) : Vec128 × ClKey :=
  let key := s.key
  let temp1 := s.pbuf
  let temp2 := key s.prandex
  let add1 := temp1 ^^^ temp2
  let acc := clmulNative add1 add1 ^^^ s.acc
  let tempa1 := mulhrs acc temp2
  let tempa2 := tempa1 ^^^ temp2
  let tempa3 := key s.prand
  let key := Function.update key s.prand tempa2
  let acc := tempa3 ^^^ acc
  let temp4 := s.pbsf
  let acc := temp4 ^^^ acc
  let tempb1 := mulhrs acc tempa3
  let tempb2 := tempb1 ^^^ tempa3
  let key := Function.update key s.prandex tempb2
  (acc, key)

def verusClhashCase (switchVal : BitVec 64) (s : StepIn) : Vec128 × ClKey :=
  if switchVal = 0 then clhashCase00 mulhrs s
  else if switchVal = 4 then clhashCase04 mulhrs s
  else if switchVal = 8 then clhashCase08 mulhrs s
  else if switchVal = 0xc then clhashCase0c mulhrs s
  else if switchVal = 0x10 then clhashCase10 mulhrs s
  else if switchVal = 0x14 then clhashCase14 mulhrs build s
  else if switchVal = 0x18 then clhashCase18 mulhrs build s
  else clhashCaseDefault mulhrs s

/-- `verus_iter_ctx_t`; the pointers are indices into the key and into the copied input. -/
structure IterCtx where
  selector : BitVec 64
  prand : Nat
  prandex : Nat
  pbuf : Int
  pbsf : Int
  deriving DecidableEq, Repr

/-- What the prologue writes into the journal for the restoration of the key. -/
structure JournalEntry where
  fixrand : BitVec 16
  fixrandex : BitVec 16
  gPrand : Vec128
  gPrandex : Vec128
  deriving DecidableEq, Repr

def verusClhashPrologue (acc : Vec128) (randomsource : ClKey) (keyMask : BitVec 64) :
    IterCtx × JournalEntry :=
  let selector := vgetqLaneU64 acc 0
  let selectorFudge : Int := if selector &&& 1 != 0 then 1 else -1
  let fixrandVal : BitVec 16 := ((selector >>> 5) &&& keyMask).setWidth 16
  let fixrandexVal : BitVec 16 := ((selector >>> 32) &&& keyMask).setWidth 16
  let prand := fixrandVal.toNat
  let prandex := fixrandexVal.toNat
  let pbuf : Int := (selector &&& 3).toNat
  ({ selector := selector
     prand := prand
     prandex := prandex
     pbuf := pbuf
     pbsf := pbuf - selectorFudge },
   { fixrand := fixrandVal
     fixrandex := fixrandexVal
     gPrand := randomsource prand
     gPrandex := randomsource prandex })

/-- The 64 bytes of the input as four vectors, the first two mixed with the last two. -/
def pbufCopy (buf : Fin 4 → Vec128) (i : Int) : Vec128 :=
  if i = 0 then buf 0 ^^^ buf 2
  else if i = 1 then buf 1 ^^^ buf 3
  else if i = 2 then buf 2
  else if i = 3 then buf 3
  else 0

/-- One chain of the hash: the accumulator, the key and the journal written so far. -/
structure Chain where
  acc : Vec128
  key : ClKey
  journal : List JournalEntry

def IterCtx.input (ctx : IterCtx) (c : Chain) (buf : Fin 4 → Vec128) : StepIn where
  acc := c.acc
  selector := ctx.selector
  key := c.key
  prand := ctx.prand
  prandex := ctx.prandex
  pbuf := pbufCopy buf ctx.pbuf
  pbsf := pbufCopy buf ctx.pbsf

def verusClhashIter (keyMask : BitVec 64) (buf : Fin 4 → Vec128) (c : Chain) : Chain :=
  let (ctx, entry) := verusClhashPrologue c.acc c.key keyMask
  let (acc, key) := verusClhashCase mulhrs build (ctx.selector &&& 0x1c) (ctx.input c buf)
  { acc := acc, key := key, journal := c.journal ++ [entry] }

/-! ## Entry points -/

def Chain.start (randomsource : ClKey) (keyMask : BitVec 64) : Chain where
  acc := randomsource (keyMask + 2).toNat
  key := randomsource
  journal := []

/-- The chain after 32 steps. -/
def verusclmulwithoutreduction64alignedrepeatPort22Native (keyMask : BitVec 64)
    (randomsource : ClKey) (buf : Fin 4 → Vec128) : Chain :=
  (verusClhashIter mulhrs build keyMask buf)^[32] (.start randomsource keyMask)

/-- The value that the accumulator of a finished chain is reduced to. -/
def Chain.value (c : Chain) : BitVec 64 :=
  precompReduction64Native (c.acc ^^^ vcombineU64 0x10000 0)

end core

def verusclhashPort22Native (build : ClhashBuild) (random : ClKey) (buf : Fin 4 → Vec128)
    (keyMask : BitVec 64) : BitVec 64 × Chain :=
  let c := verusclmulwithoutreduction64alignedrepeatPort22Native vqrdmulhqS16 build keyMask random
    buf
  (c.value, c)

/-- One round of the two-nonce loop: a step of each chain. -/
def x2Iter (build : ClhashBuild) (keyMask : BitVec 64) (buf1 buf2 : Fin 4 → Vec128)
    (c : Chain × Chain) : Chain × Chain :=
  (verusClhashIter vqrdmulhqS16 build keyMask buf1 c.1,
   verusClhashIter vqrdmulhqS16 build keyMask buf2 c.2)

def verusclhashPort22X2Native (build : ClhashBuild) (random1 random2 : ClKey)
    (buf1 buf2 : Fin 4 → Vec128) (keyMask : BitVec 64) :
    (BitVec 64 × Chain) × (BitVec 64 × Chain) :=
  let c := (x2Iter build keyMask buf1 buf2)^[32]
    (Chain.start random1 keyMask, Chain.start random2 keyMask)
  ((c.1.value, c.1), (c.2.value, c.2))

/-- The index of the fused dispatch: the case of chain 1 in bits 5 to 3, of chain 2 in bits 2 to
0. -/
def fusedIndex (selector1 selector2 : BitVec 64) : BitVec 32 :=
  (((selector1 &&& 0x1c) <<< 1) ||| ((selector2 &&& 0x1c) >>> 2)).setWidth 32

/-- Both prologues run before the one switch on 64 pairs of cases. -/
def x2fIter (build : ClhashBuild) (keyMask : BitVec 64) (buf1 buf2 : Fin 4 → Vec128)
    (c : Chain × Chain) : Chain × Chain :=
  let (ctx1, entry1) := verusClhashPrologue c.1.acc c.1.key keyMask
  let (ctx2, entry2) := verusClhashPrologue c.2.acc c.2.key keyMask
  let fused := (fusedIndex ctx1.selector ctx2.selector).toNat
  let (r1, r2) :=
    if fused < 64 then
      (verusClhashCase vqrdmulhqS16 build (BitVec.ofNat 64 (fused / 8) <<< 2) (ctx1.input c.1 buf1),
       verusClhashCase vqrdmulhqS16 build (BitVec.ofNat 64 (fused % 8) <<< 2) (ctx2.input c.2 buf2))
    else ((c.1.acc, c.1.key), (c.2.acc, c.2.key))
  ({ acc := r1.1, key := r1.2, journal := c.1.journal ++ [entry1] },
   { acc := r2.1, key := r2.2, journal := c.2.journal ++ [entry2] })

def verusclhashPort22X2fNative (build : ClhashBuild) (random1 random2 : ClKey)
    (buf1 buf2 : Fin 4 → Vec128) (keyMask : BitVec 64) :
    (BitVec 64 × Chain) × (BitVec 64 × Chain) :=
  let c := (x2fIter build keyMask buf1 buf2)^[32]
    (Chain.start random1 keyMask, Chain.start random2 keyMask)
  ((c.1.value, c.1), (c.2.value, c.2))

/-- `kClHashKeyMask` -/
def clHashKeyMask : BitVec 64 := 511

/-- The 40 round keys that the keyed Haraka finaliser reads. -/
def finaliserRoundKeys (key : ClKey) (intermediate : BitVec 64) : List Vec128 :=
  (List.range 40).map fun i => key ((intermediate &&& clHashKeyMask).toNat + i)

end PrimoMiner
