import Mathlib.Tactic.FinCases
import PrimoMiner.VerusHash

/-!
# The accesses of CLHash

CLHash and the keyed finaliser once more, with every access checked: a load or a store of the key
outside its 552 vectors, an input pointer outside the four copied vectors, and a remainder that C leaves
undefined stop the run with a fault.  With the mask 511 no run stops, and the checked run returns what
the unchecked one returns.
-/

namespace PrimoMiner

inductive Fault
  | key (i : Nat)
  | input (i : Int)
  | remainder (dividend divisor : Int)
  deriving DecidableEq, Repr

abbrev Checked := Except Fault

/-! ## Accesses -/

def loadKey (key : ClKey) (i : Nat) : Checked Vec128 :=
  if i < verusKeyVectors then .ok (key i) else .error (.key i)

def storeKey (key : ClKey) (i : Nat) (v : Vec128) : Checked ClKey :=
  if i < verusKeyVectors then .ok (Function.update key i v) else .error (.key i)

/-- A pointer into `pbuf_copy`. -/
def inputPtr (i : Int) : Checked Int :=
  if 0 ≤ i ∧ i < 4 then .ok i else .error (.input i)

def loadInput (buf : Fin 4 → Vec128) (i : Int) : Checked Vec128 :=
  if 0 ≤ i ∧ i < 4 then .ok (pbufCopy buf i) else .error (.input i)

/-- `(int32_t)(dividend % divisor)`; the divisor is widened to 64 bits. -/
def remainder (dividend : BitVec 64) (divisor : BitVec 32) : Checked (BitVec 32) :=
  if divisor.toInt = 0 ∨ dividend.toInt = -2 ^ 63 ∧ divisor.toInt = -1 then
    .error (.remainder dividend.toInt divisor.toInt)
  else .ok (BitVec.ofInt 32 (dividend.toInt.tmod divisor.toInt))

/-- An AES round with the key at `i`. -/
def aesRoundAt (key : ClKey) (state : Vec128) (i : Nat) : Checked Vec128 := do
  let roundKey ← loadKey key i
  return aesEncryptRoundNative state roundKey

/-! ## Helpers -/

section core

variable (mulhrs : Vec128 → Vec128 → Vec128) (build : ClhashBuild)

def aesRounds4Checked (temp : Vec128 × Vec128) (key : ClKey) (rc roundBlock : Nat) :
    Checked (Vec128 × Vec128) := do
  let rk := rc + 4 * roundBlock
  let temp1 ← aesRoundAt key temp.1 rk
  let temp2 ← aesRoundAt key temp.2 (rk + 1)
  let temp1 ← aesRoundAt key temp1 (rk + 2)
  let temp2 ← aesRoundAt key temp2 (rk + 3)
  return (temp1, temp2)

/-- Both builds load four keys. -/
def aesRounds4Mix2XorChecked (temp1 temp2 : Vec128) (key : ClKey) (rk : Nat) : Checked Vec128 :=
  if build.asmAesMix2 then do
    let k0 ← loadKey key rk
    let k1 ← loadKey key (rk + 1)
    let s0 := vaesmcqU8 (vaeseqU8 temp1 0)
    let s1 := vaesmcqU8 (vaeseqU8 temp2 0)
    let s0 := vaesmcqU8 (vaeseqU8 s0 k0)
    let k2 ← loadKey key (rk + 2)
    let k3 ← loadKey key (rk + 3)
    let s1 := vaesmcqU8 (vaeseqU8 s1 k1)
    let s0 := s0 ^^^ k2
    let s1 := s1 ^^^ k3
    let t := vzip2qU32 s0 s1
    return vzip1qU32 s0 s1 ^^^ t
  else do
    let temp ← aesRounds4Checked (temp1, temp2) key rk 0
    let temp := mix2EmuSimpleNative temp
    return temp.1 ^^^ temp.2

variable (buf : Fin 4 → Vec128)

def case18RoundChecked (selector : BitVec 64) (divides : Bool) (selDiv selCl : Int)
    (acc onekey : Vec128) : Checked (Vec128 × Vec128) :=
  if divides then do
    let temp2 ← loadInput buf selDiv
    let onekey := onekey ^^^ temp2
    let moduloResult ← remainder (vgetqLaneU64 onekey 0) (selector.setWidth 32)
    return (xorLow32LaneNativeAsm acc moduloResult, onekey)
  else do
    let temp ← loadInput buf selCl
    return case18ClmulMulhrsXorNativeAsm mulhrs build acc onekey temp

def case18LoopMaskPtrsChecked (selector : BitVec 64) (key : ClKey) :
    Nat → Nat → Int → BitVec 64 → Int → Int → Vec128 → Vec128 → Checked (Vec128 × Vec128)
  | 0, _, _, _, _, _, acc, onekey => .ok (acc, onekey)
  | count + 1, rc, rounds, mask, selDiv, selCl, acc, onekey =>
    if 0 ≤ rounds then do
      let onekey ← loadKey key rc
      let r ← case18RoundChecked mulhrs build buf selector (selector &&& mask != 0) selDiv selCl acc
        onekey
      case18LoopMaskPtrsChecked selector key count (rc + 1) (rounds - 1) (mask >>> 1) selCl selDiv r.1
        r.2
    else case18LoopMaskPtrsChecked selector key count rc rounds mask selDiv selCl acc onekey

def case18LoopFixedcountChecked (selector : BitVec 64) (pbuf pbsf : Int) (key : ClKey) :
    Nat → Nat → Int → Vec128 → Vec128 → Checked (Vec128 × Vec128)
  | 0, _, _, acc, onekey => .ok (acc, onekey)
  | count + 1, rc, rounds, acc, onekey =>
    if 0 ≤ rounds then do
      let onekey ← loadKey key rc
      let selDiv := if rounds % 2 = 1 then pbuf else pbsf
      let selCl := if rounds % 2 = 1 then pbsf else pbuf
      let r ← case18RoundChecked mulhrs build buf selector (roundBit selector rounds) selDiv selCl acc
        onekey
      case18LoopFixedcountChecked selector pbuf pbsf key count (rc + 1) (rounds - 1) r.1 r.2
    else case18LoopFixedcountChecked selector pbuf pbsf key count rc rounds acc onekey

def case18LoopPlainChecked (selector : BitVec 64) (pbuf pbsf : Int) (key : ClKey) :
    Nat → Nat → Vec128 → Vec128 → Checked (Vec128 × Vec128)
  | 0, _, acc, onekey => .ok (acc, onekey)
  | rounds + 1, rc, acc, _ => do
    let onekey ← loadKey key rc
    let selDiv := if rounds % 2 = 1 then pbuf else pbsf
    let selCl := if rounds % 2 = 1 then pbsf else pbuf
    let r ← case18RoundChecked mulhrs build buf selector (roundBit selector rounds) selDiv selCl acc
      onekey
    case18LoopPlainChecked selector pbuf pbsf key rounds (rc + 1) r.1 r.2

def case18InnerLoopChecked (acc : Vec128) (key : ClKey) (rc : Nat) (rounds : Int)
    (selector : BitVec 64) (pbuf pbsf : Int) : Checked (Vec128 × Vec128) :=
  if build.asmCase18Fixedcount then
    if build.asmCase18MaskPtrs then
      let selDiv := if rounds % 2 = 1 then pbuf else pbsf
      let selCl := if rounds % 2 = 1 then pbsf else pbuf
      case18LoopMaskPtrsChecked mulhrs build buf selector key 8 rc rounds (0x10000000 <<< rounds.toNat)
        selDiv selCl acc 0
    else case18LoopFixedcountChecked mulhrs build buf selector pbuf pbsf key 8 rc rounds acc 0
  else case18LoopPlainChecked mulhrs build buf selector pbuf pbsf key (rounds + 1).toNat rc acc 0

def case14LoopChecked (selector : BitVec 64) (pbuf pbsf : Int) (key : ClKey) :
    Nat → Nat → Int → Nat → Vec128 → Checked Vec128
  | 0, _, _, _, acc => .ok acc
  | count + 1, rc, rounds, aesround, acc =>
    if 0 ≤ rounds then do
      let onekey ← loadKey key rc
      let rc := rc + 1
      let selCl := if rounds % 2 = 1 then pbuf else pbsf
      let selAes := if rounds % 2 = 1 then pbsf else pbuf
      if roundBit selector rounds then do
        let temp2 ← loadInput buf selCl
        let add1 := onekey ^^^ temp2
        let acc := clmulNative add1 add1 ^^^ acc
        case14LoopChecked selector pbuf pbsf key count rc (rounds - 1) aesround acc
      else do
        let temp2 ← loadInput buf selAes
        let mixxor ← aesRounds4Mix2XorChecked build onekey temp2 key (rc + 4 * aesround)
        case14LoopChecked selector pbuf pbsf key count rc (rounds - 1) (aesround + 1) (acc ^^^ mixxor)
    else case14LoopChecked selector pbuf pbsf key count rc rounds aesround acc

/-! ## One step -/

def clhashCase00Checked (ctx : IterCtx) (acc : Vec128) (key : ClKey) : Checked (Vec128 × ClKey) := do
  let temp1 ← loadKey key ctx.prandex
  let temp2 ← loadInput buf ctx.pbsf
  let add1 := temp1 ^^^ temp2
  let acc := clmulNative add1 add1 ^^^ acc
  let tempa1 := mulhrs acc temp1
  let tempa2 := tempa1 ^^^ temp1
  let temp12 ← loadKey key ctx.prand
  let key ← storeKey key ctx.prand tempa2
  let temp22 ← loadInput buf ctx.pbuf
  let add12 := temp12 ^^^ temp22
  let acc := clmulNative add12 add12 ^^^ acc
  let tempb1 := mulhrs acc temp12
  let key ← storeKey key ctx.prandex (tempb1 ^^^ temp12)
  return (acc, key)

def clhashCase04Checked (ctx : IterCtx) (acc : Vec128) (key : ClKey) : Checked (Vec128 × ClKey) := do
  let temp1 ← loadKey key ctx.prand
  let temp2 ← loadInput buf ctx.pbuf
  let add1 := temp1 ^^^ temp2
  let acc := clmulNative add1 add1 ^^^ acc
  let acc := clmulNative temp2 temp2 ^^^ acc
  let tempa1 := mulhrs acc temp1
  let tempa2 := tempa1 ^^^ temp1
  let temp12 ← loadKey key ctx.prandex
  let key ← storeKey key ctx.prandex tempa2
  let temp22 ← loadInput buf ctx.pbsf
  let add12 := temp12 ^^^ temp22
  let acc := add12 ^^^ acc
  let tempb1 := mulhrs acc temp12
  let tempb2 := tempb1 ^^^ temp12
  let key ← storeKey key ctx.prand tempb2
  return (acc, key)

def clhashCase08Checked (ctx : IterCtx) (acc : Vec128) (key : ClKey) : Checked (Vec128 × ClKey) := do
  let temp1 ← loadKey key ctx.prandex
  let temp2 ← loadInput buf ctx.pbuf
  let add1 := temp1 ^^^ temp2
  let acc := add1 ^^^ acc
  let tempa1 := mulhrs acc temp1
  let tempa2 := tempa1 ^^^ temp1
  let temp12 ← loadKey key ctx.prand
  let key ← storeKey key ctx.prand tempa2
  let temp22 ← loadInput buf ctx.pbsf
  let add12 := temp12 ^^^ temp22
  let acc := clmulNative add12 add12 ^^^ acc
  let acc := clmulNative temp22 temp22 ^^^ acc
  let tempb1 := mulhrs acc temp12
  let tempb2 := tempb1 ^^^ temp12
  let key ← storeKey key ctx.prandex tempb2
  return (acc, key)

def clhashCase0cChecked (ctx : IterCtx) (acc : Vec128) (key : ClKey) : Checked (Vec128 × ClKey) := do
  let temp1 ← loadKey key ctx.prand
  let temp2 ← loadInput buf ctx.pbsf
  let add1 := temp1 ^^^ temp2
  let acc := add1 ^^^ acc
  let dividend := vgetqLaneU64 acc 0
  let moduloResult ← remainder dividend (ctx.selector.setWidth 32)
  let acc := xorLow32LaneNativeAsm acc moduloResult
  let tempa1 := mulhrs acc temp1
  let tempa2 := tempa1 ^^^ temp1
  if dividend &&& 1 != 0 then do
    let temp12 ← loadKey key ctx.prandex
    let key ← storeKey key ctx.prandex tempa2
    let temp22 ← loadInput buf ctx.pbuf
    let add12 := temp12 ^^^ temp22
    let acc := clmulNative add12 add12 ^^^ acc
    let acc := clmulNative temp22 temp22 ^^^ acc
    let tempb1 := mulhrs acc temp12
    let tempb2 := tempb1 ^^^ temp12
    let key ← storeKey key ctx.prand tempb2
    return (acc, key)
  else do
    let temp12 ← loadKey key ctx.prandex
    let key ← storeKey key ctx.prand temp12
    let key ← storeKey key ctx.prandex tempa2
    let tempb4 ← loadInput buf ctx.pbuf
    return (tempb4 ^^^ acc, key)

/-- The end of cases 0x10 and 0x14: the key at `prand` gives way to the one at `prandex`. -/
def swapSlotsChecked (ctx : IterCtx) (acc : Vec128) (key : ClKey) : Checked (Vec128 × ClKey) := do
  let tempa1 ← loadKey key ctx.prand
  let tempa2 := mulhrs acc tempa1
  let temp ← loadKey key ctx.prandex
  let key ← storeKey key ctx.prand temp
  let key ← storeKey key ctx.prandex (tempa1 ^^^ tempa2)
  return (acc, key)

def clhashCase10Checked (ctx : IterCtx) (acc : Vec128) (key : ClKey) : Checked (Vec128 × ClKey) := do
  let temp1 ← loadInput buf ctx.pbsf
  let temp2 ← loadInput buf ctx.pbuf
  let temp ← aesRounds4Checked (temp1, temp2) key ctx.prand 0
  let temp ← aesRounds4Checked (mix2EmuSimpleNative temp) key ctx.prand 1
  let temp ← aesRounds4Checked (mix2EmuSimpleNative temp) key ctx.prand 2
  let temp := mix2EmuSimpleNative temp
  swapSlotsChecked mulhrs ctx (acc ^^^ temp.1 ^^^ temp.2) key

def clhashCase14Checked (ctx : IterCtx) (acc : Vec128) (key : ClKey) : Checked (Vec128 × ClKey) := do
  let rounds : Int := (ctx.selector >>> 61).toNat
  let acc ← case14LoopChecked build buf ctx.selector ctx.pbuf ctx.pbsf key 8 ctx.prand rounds 0 acc
  swapSlotsChecked mulhrs ctx acc key

def clhashCase18Checked (ctx : IterCtx) (acc : Vec128) (key : ClKey) : Checked (Vec128 × ClKey) := do
  let rounds : Int := (ctx.selector >>> 61).toNat
  let r ← case18InnerLoopChecked mulhrs build buf acc key ctx.prand rounds ctx.selector ctx.pbuf ctx.pbsf
  let tempa3 ← loadKey key ctx.prandex
  let tempa4 := tempa3 ^^^ r.1
  let key ← storeKey key ctx.prandex r.2
  let key ← storeKey key ctx.prand tempa4
  return (r.1, key)

def clhashCaseDefaultChecked (ctx : IterCtx) (acc : Vec128) (key : ClKey) :
    Checked (Vec128 × ClKey) := do
  let temp1 ← loadInput buf ctx.pbuf
  let temp2 ← loadKey key ctx.prandex
  let add1 := temp1 ^^^ temp2
  let acc := clmulNative add1 add1 ^^^ acc
  let tempa1 := mulhrs acc temp2
  let tempa2 := tempa1 ^^^ temp2
  let tempa3 ← loadKey key ctx.prand
  let key ← storeKey key ctx.prand tempa2
  let acc := tempa3 ^^^ acc
  let temp4 ← loadInput buf ctx.pbsf
  let acc := temp4 ^^^ acc
  let tempb1 := mulhrs acc tempa3
  let tempb2 := tempb1 ^^^ tempa3
  let key ← storeKey key ctx.prandex tempb2
  return (acc, key)

def verusClhashCaseChecked (switchVal : BitVec 64) (ctx : IterCtx) (acc : Vec128) (key : ClKey) :
    Checked (Vec128 × ClKey) :=
  if switchVal = 0 then clhashCase00Checked mulhrs buf ctx acc key
  else if switchVal = 4 then clhashCase04Checked mulhrs buf ctx acc key
  else if switchVal = 8 then clhashCase08Checked mulhrs buf ctx acc key
  else if switchVal = 0xc then clhashCase0cChecked mulhrs buf ctx acc key
  else if switchVal = 0x10 then clhashCase10Checked mulhrs buf ctx acc key
  else if switchVal = 0x14 then clhashCase14Checked mulhrs build buf ctx acc key
  else if switchVal = 0x18 then clhashCase18Checked mulhrs build buf ctx acc key
  else clhashCaseDefaultChecked mulhrs buf ctx acc key

end core

def verusClhashPrologueChecked (acc : Vec128) (randomsource : ClKey) (keyMask : BitVec 64) :
    Checked (IterCtx × JournalEntry) := do
  let selector := vgetqLaneU64 acc 0
  let selectorFudge : Int := if selector &&& 1 != 0 then 1 else -1
  let fixrandVal : BitVec 16 := ((selector >>> 5) &&& keyMask).setWidth 16
  let fixrandexVal : BitVec 16 := ((selector >>> 32) &&& keyMask).setWidth 16
  let gPrand ← loadKey randomsource fixrandVal.toNat
  let gPrandex ← loadKey randomsource fixrandexVal.toNat
  let pbuf ← inputPtr (selector &&& 3).toNat
  let pbsf ← inputPtr (pbuf - selectorFudge)
  return ({ selector := selector
            prand := fixrandVal.toNat
            prandex := fixrandexVal.toNat
            pbuf := pbuf
            pbsf := pbsf },
          { fixrand := fixrandVal
            fixrandex := fixrandexVal
            gPrand := gPrand
            gPrandex := gPrandex })

/-! ## Entry points -/

section entry

variable (build : ClhashBuild) (keyMask : BitVec 64)

def verusClhashIterChecked (buf : Fin 4 → Vec128) (c : Chain) : Checked Chain := do
  let (ctx, entry) ← verusClhashPrologueChecked c.acc c.key keyMask
  let (acc, key) ←
    verusClhashCaseChecked vqrdmulhqS16 build buf (ctx.selector &&& 0x1c) ctx c.acc c.key
  return { acc := acc, key := key, journal := c.journal ++ [entry] }

def Chain.startChecked (randomsource : ClKey) : Checked Chain := do
  let acc ← loadKey randomsource (keyMask + 2).toNat
  return { acc := acc, key := randomsource, journal := [] }

/-- A loop of `n` passes. -/
def runPasses {α : Type} (pass : α → Checked α) : Nat → α → Checked α
  | 0, c => .ok c
  | n + 1, c => do
    let c ← pass c
    runPasses pass n c

def verusclhashPort22Checked (random : ClKey) (buf : Fin 4 → Vec128) :
    Checked (BitVec 64 × Chain) := do
  let c ← Chain.startChecked keyMask random
  let c ← runPasses (verusClhashIterChecked build keyMask buf) 32 c
  return (c.value, c)

def x2IterChecked (buf1 buf2 : Fin 4 → Vec128) (c : Chain × Chain) : Checked (Chain × Chain) := do
  let c1 ← verusClhashIterChecked build keyMask buf1 c.1
  let c2 ← verusClhashIterChecked build keyMask buf2 c.2
  return (c1, c2)

/-- The switch on 64 pairs of cases. -/
def fusedCasesChecked (buf1 buf2 : Fin 4 → Vec128) (fused : Nat) (ctx1 ctx2 : IterCtx)
    (c : Chain × Chain) : Checked ((Vec128 × ClKey) × (Vec128 × ClKey)) :=
  if fused < 64 then do
    let r1 ← verusClhashCaseChecked vqrdmulhqS16 build buf1 (BitVec.ofNat 64 (fused / 8) <<< 2) ctx1
      c.1.acc c.1.key
    let r2 ← verusClhashCaseChecked vqrdmulhqS16 build buf2 (BitVec.ofNat 64 (fused % 8) <<< 2) ctx2
      c.2.acc c.2.key
    return (r1, r2)
  else return ((c.1.acc, c.1.key), (c.2.acc, c.2.key))

def x2fIterChecked (buf1 buf2 : Fin 4 → Vec128) (c : Chain × Chain) : Checked (Chain × Chain) := do
  let p1 ← verusClhashPrologueChecked c.1.acc c.1.key keyMask
  let p2 ← verusClhashPrologueChecked c.2.acc c.2.key keyMask
  let fused := (fusedIndex p1.1.selector p2.1.selector).toNat
  let r ← fusedCasesChecked build buf1 buf2 fused p1.1 p2.1 c
  return ({ acc := r.1.1, key := r.1.2, journal := c.1.journal ++ [p1.2] },
          { acc := r.2.1, key := r.2.2, journal := c.2.journal ++ [p2.2] })

/-- Both two-chain entry points, by the pass of their loop. -/
def verusclhashPort22X2Checked
    (pass : (Fin 4 → Vec128) → (Fin 4 → Vec128) → Chain × Chain → Checked (Chain × Chain))
    (random1 random2 : ClKey) (buf1 buf2 : Fin 4 → Vec128) :
    Checked ((BitVec 64 × Chain) × (BitVec 64 × Chain)) := do
  let c1 ← Chain.startChecked keyMask random1
  let c2 ← Chain.startChecked keyMask random2
  let c ← runPasses (pass buf1 buf2) 32 (c1, c2)
  return ((c.1.value, c.1), (c.2.value, c.2))

end entry

/-! ## The finaliser -/

/-- `AES4_NATIVE` with the keys from `rci` on. -/
def aes4TwiceChecked (s : State512) (key : ClKey) (rci : Nat) : Checked State512 := do
  let s0 ← aesRoundAt key (s 0) rci
  let s1 ← aesRoundAt key (s 1) (rci + 1)
  let s2 ← aesRoundAt key (s 2) (rci + 2)
  let s3 ← aesRoundAt key (s 3) (rci + 3)
  let s0 ← aesRoundAt key s0 (rci + 4)
  let s1 ← aesRoundAt key s1 (rci + 5)
  let s2 ← aesRoundAt key s2 (rci + 6)
  let s3 ← aesRoundAt key s3 (rci + 7)
  return ![s0, s1, s2, s3]

def haraka512KeyedChecked (input : Buffer 64) (key : ClKey) (rc : Nat) : Checked (BitVec 32) := do
  let s ← aes4TwiceChecked (load512 input) key rc
  let s ← aes4TwiceChecked (mix4Native s) key (rc + 8)
  let s ← aes4TwiceChecked (mix4Native s) key (rc + 16)
  let s ← aes4TwiceChecked (mix4Native s) key (rc + 24)
  let s := Mix4Form.zip.mix4Last s s
  let s2 ← aesRoundAt key (s 2) (rc + 32 + 2)
  let s2 ← aesRoundAt key s2 (rc + 32 + 6)
  return lane 32 s2 2 ^^^ word input 13

/-- The five full rounds of the form that writes all 32 bytes. -/
def haraka512KeyedFullChecked (input : Buffer 64) (key : ClKey) (rc : Nat) : Checked (Buffer 32) := do
  let s ← aes4TwiceChecked (load512 input) key rc
  let s ← aes4TwiceChecked (mix4Native s) key (rc + 8)
  let s ← aes4TwiceChecked (mix4Native s) key (rc + 16)
  let s ← aes4TwiceChecked (mix4Native s) key (rc + 24)
  let s ← aes4TwiceChecked (mix4Native s) key (rc + 32)
  return haraka512Output input (store512 (mix4Native s))

/-- The slots of the journal, from its last entry on. -/
def restoreClKeySlotsChecked : List JournalEntry → ClKey → Checked ClKey
  | [], key => .ok key
  | entry :: journal, key => do
    let key ← restoreClKeySlotsChecked journal key
    let key ← storeKey key entry.fixrand.toNat entry.gPrand
    storeKey key entry.fixrandex.toNat entry.gPrandex

def finalizeVerusHashChecked (curBuf : Buffer 64) (clhash : BitVec 64 × Chain) :
    Checked (BitVec 32 × Buffer 64 × ClKey) := do
  let curBuf := foldIntermediate curBuf clhash.1
  let hash ← haraka512KeyedChecked curBuf clhash.2.key (clhash.1 &&& clHashKeyMask).toNat
  let key ← restoreClKeySlotsChecked clhash.2.journal clhash.2.key
  return (hash, curBuf, key)

def computeVerusHashChecked (build : ClhashBuild) (curBuf : Buffer 64) (nonceBytes : Buffer 15)
    (key : ClKey) : Checked (BitVec 32 × Buffer 64 × ClKey) := do
  let curBuf := prepareHashBuf curBuf nonceBytes
  let clhash ← verusclhashPort22Checked build clHashKeyMask key (load512 curBuf)
  finalizeVerusHashChecked curBuf clhash

/-! ## Accesses in bounds -/

theorem checked_bind {α β : Type} (x : α) (f : α → Checked β) : ((Except.ok x : Checked α) >>= f) = f x :=
  rfl

theorem loadKey_ok (key : ClKey) {i : Nat} (hi : i < verusKeyVectors) : loadKey key i = .ok (key i) :=
  if_pos hi

theorem storeKey_ok (key : ClKey) (v : Vec128) {i : Nat} (hi : i < verusKeyVectors) :
    storeKey key i v = .ok (Function.update key i v) :=
  if_pos hi

theorem aesRoundAt_ok (key : ClKey) (state : Vec128) {i : Nat} (hi : i < verusKeyVectors) :
    aesRoundAt key state i = .ok (aesEncryptRoundNative state (key i)) := by
  rw [aesRoundAt, loadKey_ok key hi]
  rfl

theorem aesRounds4Checked_eq (temp : Vec128 × Vec128) (key : ClKey) {rc roundBlock : Nat}
    (h : rc + 4 * roundBlock + 4 ≤ verusKeyVectors) :
    aesRounds4Checked temp key rc roundBlock =
      .ok (aesRounds4Native temp (fun i => key (rc + i)) roundBlock) := by
  simp (disch := omega) only [aesRounds4Checked, aesRoundAt_ok, checked_bind, aesRounds4Native]
  simp only [Nat.add_zero, Nat.add_assoc]
  rfl

section core

variable (mulhrs : Vec128 → Vec128 → Vec128) (build : ClhashBuild)

theorem aesRounds4Mix2XorChecked_eq (temp1 temp2 : Vec128) (key : ClKey) {rk : Nat}
    (h : rk + 4 ≤ verusKeyVectors) :
    aesRounds4Mix2XorChecked build temp1 temp2 key rk =
      .ok (aesRounds4Mix2XorNativeAsm build temp1 temp2 fun i => key (rk + i)) := by
  unfold aesRounds4Mix2XorChecked aesRounds4Mix2XorNativeAsm
  split
  · simp (disch := omega) only [loadKey_ok, checked_bind, Nat.add_zero]
    rfl
  · rw [aesRounds4Checked_eq _ _ (by omega)]
    rfl

/-- A pointer to one of the four copied vectors. -/
def InInput (i : Int) : Prop := 0 ≤ i ∧ i < 4

variable (buf : Fin 4 → Vec128)

theorem loadInput_ok {i : Int} (hi : InInput i) : loadInput buf i = .ok (pbufCopy buf i) :=
  if_pos hi

theorem inInput_ite {p : Prop} [Decidable p] {i j : Int} (hi : InInput i) (hj : InInput j) :
    InInput (if p then i else j) := by
  split
  · exact hi
  · exact hj

/-- A divisor with which no remainder is undefined. -/
def SafeDivisor (divisor : BitVec 32) : Prop := divisor.toInt ≠ 0 ∧ divisor.toInt ≠ -1

theorem remainder_ok {selector : BitVec 64} (h : SafeDivisor (selector.setWidth 32))
    (dividend : BitVec 64) :
    remainder dividend (selector.setWidth 32) = .ok (moduloResult dividend selector) := by
  apply if_neg
  rintro (hzero | ⟨-, hneg⟩)
  · exact h.1 hzero
  · exact h.2 hneg

/-! ## The loops -/

section loops

variable {selector : BitVec 64} {pbuf pbsf : Int}

theorem case18RoundChecked_eq (hdiv : SafeDivisor (selector.setWidth 32)) (divides : Bool)
    {selDiv selCl : Int} (hselDiv : InInput selDiv) (hselCl : InInput selCl) (acc onekey : Vec128) :
    case18RoundChecked mulhrs build buf selector divides selDiv selCl acc onekey =
      .ok (case18Round mulhrs build selector divides (pbufCopy buf selDiv) (pbufCopy buf selCl) acc
        onekey) := by
  unfold case18RoundChecked case18Round
  split
  · simp only [loadInput_ok buf hselDiv, checked_bind, remainder_ok hdiv]
    rfl
  · simp only [loadInput_ok buf hselCl, checked_bind]
    rfl

-- Each round that runs reads one key, so `count` keys from `rc` on are enough.
theorem case18LoopMaskPtrsChecked_eq (hdiv : SafeDivisor (selector.setWidth 32)) (key : ClKey)
    (count : Nat) :
    ∀ {rc : Nat} (rounds : Int) (mask : BitVec 64) {selDiv selCl : Int} (acc onekey : Vec128),
      rc + count ≤ verusKeyVectors → InInput selDiv → InInput selCl →
      case18LoopMaskPtrsChecked mulhrs build buf selector key count rc rounds mask selDiv selCl acc
          onekey =
        .ok (case18LoopMaskPtrs mulhrs build selector key count rc rounds mask (pbufCopy buf selDiv)
          (pbufCopy buf selCl) acc onekey) := by
  induction count with
  | zero => intros; rfl
  | succ count ih =>
    intro rc rounds mask selDiv selCl acc onekey hrc hselDiv hselCl
    rw [case18LoopMaskPtrsChecked, case18LoopMaskPtrs]
    split
    · rw [loadKey_ok key (by omega), checked_bind, case18RoundChecked_eq mulhrs build buf hdiv _ hselDiv hselCl,
        checked_bind]
      exact ih _ _ _ _ (by omega) hselCl hselDiv
    · exact ih _ _ _ _ (by omega) hselDiv hselCl

theorem pbufCopy_ite {p : Prop} [Decidable p] (i j : Int) :
    pbufCopy buf (if p then i else j) = if p then pbufCopy buf i else pbufCopy buf j := by
  split <;> rfl

theorem case18LoopFixedcountChecked_eq (hdiv : SafeDivisor (selector.setWidth 32)) (hpbuf : InInput pbuf)
    (hpbsf : InInput pbsf) (key : ClKey) (count : Nat) :
    ∀ {rc : Nat} (rounds : Int) (acc onekey : Vec128), rc + count ≤ verusKeyVectors →
      case18LoopFixedcountChecked mulhrs build buf selector pbuf pbsf key count rc rounds acc onekey =
        .ok (case18LoopFixedcount mulhrs build selector (pbufCopy buf pbuf) (pbufCopy buf pbsf) key count
          rc rounds acc onekey) := by
  induction count with
  | zero => intros; rfl
  | succ count ih =>
    intro rc rounds acc onekey hrc
    rw [case18LoopFixedcountChecked, case18LoopFixedcount]
    split
    · simp only [loadKey_ok key (show rc < verusKeyVectors by omega), checked_bind,
        case18RoundChecked_eq mulhrs build buf hdiv _ (inInput_ite hpbuf hpbsf) (inInput_ite hpbsf hpbuf),
        pbufCopy_ite]
      exact ih _ _ _ (by omega)
    · exact ih _ _ _ (by omega)

theorem case18LoopPlainChecked_eq (hdiv : SafeDivisor (selector.setWidth 32)) (hpbuf : InInput pbuf)
    (hpbsf : InInput pbsf) (key : ClKey) (rounds : Nat) :
    ∀ {rc : Nat} (acc onekey : Vec128), rc + rounds ≤ verusKeyVectors →
      case18LoopPlainChecked mulhrs build buf selector pbuf pbsf key rounds rc acc onekey =
        .ok (case18LoopPlain mulhrs build selector (pbufCopy buf pbuf) (pbufCopy buf pbsf) key rounds rc
          acc onekey) := by
  induction rounds with
  | zero => intros; rfl
  | succ rounds ih =>
    intro rc acc onekey hrc
    rw [case18LoopPlainChecked, case18LoopPlain]
    simp only [loadKey_ok key (show rc < verusKeyVectors by omega), checked_bind,
      case18RoundChecked_eq mulhrs build buf hdiv _ (inInput_ite hpbuf hpbsf) (inInput_ite hpbsf hpbuf),
      pbufCopy_ite]
    exact ih _ _ (by omega)

theorem case18InnerLoopChecked_eq (hdiv : SafeDivisor (selector.setWidth 32)) (hpbuf : InInput pbuf)
    (hpbsf : InInput pbsf) (acc : Vec128) (key : ClKey) {rc : Nat} {rounds : Int}
    (hrounds : rounds < 8) (hrc : rc + 8 ≤ verusKeyVectors) :
    case18InnerLoopChecked mulhrs build buf acc key rc rounds selector pbuf pbsf =
      .ok (case18InnerLoopNativeAsm mulhrs build acc key rc rounds selector (pbufCopy buf pbuf)
        (pbufCopy buf pbsf)) := by
  unfold case18InnerLoopChecked case18InnerLoopNativeAsm
  split
  · split
    · simp only [case18LoopMaskPtrsChecked_eq mulhrs build buf hdiv key 8 rounds _ acc 0 hrc
        (inInput_ite hpbuf hpbsf) (inInput_ite hpbsf hpbuf), pbufCopy_ite]
    · exact case18LoopFixedcountChecked_eq mulhrs build buf hdiv hpbuf hpbsf key 8 rounds acc 0 hrc
  · exact case18LoopPlainChecked_eq mulhrs build buf hdiv hpbuf hpbsf key _ acc 0 (by omega)

-- A round reads the key at `rc` and, on the AES path, the four at `rc + 1 + 4 * aesround`: five more
-- keys for each round that is left.
theorem case14LoopChecked_eq (hpbuf : InInput pbuf) (hpbsf : InInput pbsf) (key : ClKey) (count : Nat) :
    ∀ {rc aesround : Nat} (rounds : Int) (acc : Vec128),
      rc + 4 * aesround + 5 * count ≤ verusKeyVectors →
      case14LoopChecked build buf selector pbuf pbsf key count rc rounds aesround acc =
        .ok (case14Loop build selector (pbufCopy buf pbuf) (pbufCopy buf pbsf) key count rc rounds aesround
          acc) := by
  induction count with
  | zero => intros; rfl
  | succ count ih =>
    intro rc aesround rounds acc hrc
    rw [case14LoopChecked, case14Loop]
    split
    · simp only [loadKey_ok key (show rc < verusKeyVectors by omega), checked_bind,
        loadInput_ok buf (inInput_ite hpbuf hpbsf), loadInput_ok buf (inInput_ite hpbsf hpbuf),
        aesRounds4Mix2XorChecked_eq build _ _ key
          (show rc + 1 + 4 * aesround + 4 ≤ verusKeyVectors by omega), pbufCopy_ite]
      split
      · exact ih _ _ (by omega)
      · exact ih _ _ (by omega)
    · exact ih _ _ (by omega)

end loops

/-! ## The cases -/

/-- What the prologue guarantees with the mask 511. -/
structure InBounds (ctx : IterCtx) : Prop where
  prand : ctx.prand ≤ 511
  prandex : ctx.prandex ≤ 511
  pbuf : InInput ctx.pbuf
  pbsf : InInput ctx.pbsf

section cases

variable {ctx : IterCtx} (h : InBounds ctx) (c : Chain)

include h

theorem InBounds.prand_lt : ctx.prand < verusKeyVectors := lt_of_le_of_lt h.prand (by decide)

theorem InBounds.prandex_lt : ctx.prandex < verusKeyVectors := lt_of_le_of_lt h.prandex (by decide)

theorem clhashCase00Checked_eq :
    clhashCase00Checked mulhrs buf ctx c.acc c.key = .ok (clhashCase00 mulhrs (ctx.input c buf)) := by
  simp only [clhashCase00Checked, loadKey_ok _ h.prand_lt, loadKey_ok _ h.prandex_lt,
    storeKey_ok _ _ h.prand_lt, storeKey_ok _ _ h.prandex_lt, loadInput_ok buf h.pbuf,
    loadInput_ok buf h.pbsf, checked_bind]
  rfl

theorem clhashCase04Checked_eq :
    clhashCase04Checked mulhrs buf ctx c.acc c.key = .ok (clhashCase04 mulhrs (ctx.input c buf)) := by
  simp only [clhashCase04Checked, loadKey_ok _ h.prand_lt, loadKey_ok _ h.prandex_lt,
    storeKey_ok _ _ h.prand_lt, storeKey_ok _ _ h.prandex_lt, loadInput_ok buf h.pbuf,
    loadInput_ok buf h.pbsf, checked_bind]
  rfl

theorem clhashCase08Checked_eq :
    clhashCase08Checked mulhrs buf ctx c.acc c.key = .ok (clhashCase08 mulhrs (ctx.input c buf)) := by
  simp only [clhashCase08Checked, loadKey_ok _ h.prand_lt, loadKey_ok _ h.prandex_lt,
    storeKey_ok _ _ h.prand_lt, storeKey_ok _ _ h.prandex_lt, loadInput_ok buf h.pbuf,
    loadInput_ok buf h.pbsf, checked_bind]
  rfl

theorem clhashCase0cChecked_eq (hdiv : SafeDivisor (ctx.selector.setWidth 32)) :
    clhashCase0cChecked mulhrs buf ctx c.acc c.key = .ok (clhashCase0c mulhrs (ctx.input c buf)) := by
  simp only [clhashCase0cChecked, loadKey_ok _ h.prand_lt, loadKey_ok _ h.prandex_lt,
    storeKey_ok _ _ h.prand_lt, storeKey_ok _ _ h.prandex_lt, loadInput_ok buf h.pbuf,
    loadInput_ok buf h.pbsf, remainder_ok hdiv, checked_bind]
  unfold clhashCase0c
  dsimp only [IterCtx.input]
  split <;> rfl

theorem swapSlotsChecked_eq (acc : Vec128) (key : ClKey) :
    swapSlotsChecked mulhrs ctx acc key =
      .ok (acc, Function.update (Function.update key ctx.prand (key ctx.prandex)) ctx.prandex
        (key ctx.prand ^^^ mulhrs acc (key ctx.prand))) := by
  simp only [swapSlotsChecked, loadKey_ok _ h.prand_lt, loadKey_ok _ h.prandex_lt,
    storeKey_ok _ _ h.prand_lt, storeKey_ok _ _ h.prandex_lt, checked_bind]
  rfl

theorem clhashCase10Checked_eq :
    clhashCase10Checked mulhrs buf ctx c.acc c.key = .ok (clhashCase10 mulhrs (ctx.input c buf)) := by
  have hblock : ∀ block < 3, ctx.prand + 4 * block + 4 ≤ verusKeyVectors := by
    intro block hlt
    have hprand := h.prand
    unfold verusKeyVectors
    omega
  rw [clhashCase10Checked, loadInput_ok buf h.pbsf, checked_bind, loadInput_ok buf h.pbuf, checked_bind,
    aesRounds4Checked_eq _ _ (hblock 0 (by decide)), checked_bind,
    aesRounds4Checked_eq _ _ (hblock 1 (by decide)), checked_bind,
    aesRounds4Checked_eq _ _ (hblock 2 (by decide)), checked_bind, swapSlotsChecked_eq mulhrs h]
  rfl

theorem clhashCase14Checked_eq :
    clhashCase14Checked mulhrs build buf ctx c.acc c.key =
      .ok (clhashCase14 mulhrs build (ctx.input c buf)) := by
  have hwalk : ctx.prand + 4 * 0 + 5 * 8 ≤ verusKeyVectors := by
    have hprand := h.prand
    unfold verusKeyVectors
    omega
  rw [clhashCase14Checked, case14LoopChecked_eq build buf h.pbuf h.pbsf c.key 8 _ c.acc hwalk, checked_bind,
    swapSlotsChecked_eq mulhrs h]
  rfl

theorem clhashCase18Checked_eq (hdiv : SafeDivisor (ctx.selector.setWidth 32)) :
    clhashCase18Checked mulhrs build buf ctx c.acc c.key =
      .ok (clhashCase18 mulhrs build (ctx.input c buf)) := by
  have hwalk : ctx.prand + 8 ≤ verusKeyVectors := by
    have hprand := h.prand
    unfold verusKeyVectors
    omega
  have hrounds : ((ctx.selector >>> 61).toNat : Int) < 8 := by
    have hlt := ctx.selector.isLt
    rw [BitVec.toNat_ushiftRight, Nat.shiftRight_eq_div_pow]
    omega
  simp only [clhashCase18Checked,
    case18InnerLoopChecked_eq mulhrs build buf hdiv h.pbuf h.pbsf c.acc c.key hrounds hwalk,
    loadKey_ok _ h.prandex_lt, storeKey_ok _ _ h.prand_lt, storeKey_ok _ _ h.prandex_lt, checked_bind]
  rfl

theorem clhashCaseDefaultChecked_eq :
    clhashCaseDefaultChecked mulhrs buf ctx c.acc c.key =
      .ok (clhashCaseDefault mulhrs (ctx.input c buf)) := by
  simp only [clhashCaseDefaultChecked, loadKey_ok _ h.prand_lt, loadKey_ok _ h.prandex_lt,
    storeKey_ok _ _ h.prand_lt, storeKey_ok _ _ h.prandex_lt, loadInput_ok buf h.pbuf,
    loadInput_ok buf h.pbsf, checked_bind]
  rfl

end cases

/-- A selector that goes to case 0xc or 0x18 has one of bits 2 to 4 set and another one clear, so its low
half is neither 0 nor -1. -/
theorem safeDivisor_of_case {selector : BitVec 64} (hpos : selector &&& 0x1c ≠ 0)
    (hneg : selector &&& 0x1c ≠ 0x1c) : SafeDivisor (selector.setWidth 32) := by
  have hlow : selector &&& 0x1c = (selector.setWidth 32 &&& 0x1c).setWidth 64 := by
    apply BitVec.eq_of_getLsbD_eq
    intro i hi
    rw [show (0x1c : BitVec 64) = (0x1c : BitVec 32).setWidth 64 by decide]
    simp only [BitVec.getLsbD_setWidth, BitVec.getLsbD_and]
    by_cases hlt : i < 32
    · simp only [hlt, hi, decide_true, Bool.true_and]
    · simp only [BitVec.getLsbD_of_ge (0x1c : BitVec 32) i (by omega), Bool.and_false]
  constructor
  · intro hzero
    have : selector.setWidth 32 = 0 := BitVec.eq_of_toInt_eq hzero
    rw [hlow, this] at hpos
    exact hpos (by decide)
  · intro hone
    have : selector.setWidth 32 = -1 := BitVec.eq_of_toInt_eq (hone.trans (by decide))
    rw [hlow, this] at hneg
    exact hneg (by decide)

theorem verusClhashCaseChecked_eq {ctx : IterCtx} (h : InBounds ctx) (c : Chain) :
    verusClhashCaseChecked mulhrs build buf (ctx.selector &&& 0x1c) ctx c.acc c.key =
      .ok (verusClhashCase mulhrs build (ctx.selector &&& 0x1c) (ctx.input c buf)) := by
  unfold verusClhashCaseChecked verusClhashCase
  split
  · exact clhashCase00Checked_eq mulhrs buf h c
  split
  · exact clhashCase04Checked_eq mulhrs buf h c
  split
  · exact clhashCase08Checked_eq mulhrs buf h c
  split
  · rename_i hcase
    exact clhashCase0cChecked_eq mulhrs buf h c
      (safeDivisor_of_case (by rw [hcase]; decide) (by rw [hcase]; decide))
  split
  · exact clhashCase10Checked_eq mulhrs buf h c
  split
  · exact clhashCase14Checked_eq mulhrs build buf h c
  split
  · rename_i hcase
    exact clhashCase18Checked_eq mulhrs build buf h c
      (safeDivisor_of_case (by rw [hcase]; decide) (by rw [hcase]; decide))
  · exact clhashCaseDefaultChecked_eq mulhrs buf h c

end core

/-! ## The prologue -/

theorem and_keyMask_le (x : BitVec 64) : (x &&& clHashKeyMask).toNat ≤ 511 := by
  rw [BitVec.toNat_and]
  exact Nat.and_le_right

theorem masked_le (x : BitVec 64) : ((x &&& clHashKeyMask).setWidth 16).toNat ≤ 511 := by
  rw [BitVec.toNat_setWidth]
  exact (Nat.mod_le _ _).trans (and_keyMask_le x)

theorem pbufIdx_lt (selector : BitVec 64) : (selector &&& 3).toNat < 4 := by
  rw [BitVec.toNat_and]
  exact Nat.and_lt_two_pow _ (by decide : 3 < 2 ^ 2)

/-- `pbsf` is the other vector of the pair of `pbuf`. -/
theorem inInput_pbsf (selector : BitVec 64) :
    InInput ((selector &&& 3).toNat - if selector &&& 1 != 0 then (1 : Int) else -1) := by
  have hparity : selector &&& 1 = selector &&& 3 &&& 1 := by
    rw [BitVec.and_assoc]
    rfl
  have hall : ∀ k < 4, InInput ((BitVec.ofNat 64 k).toNat - if BitVec.ofNat 64 k &&& 1 != 0 then
      (1 : Int) else -1) := by
    unfold InInput
    decide
  have hidx := hall _ (pbufIdx_lt selector)
  rw [BitVec.ofNat_toNat, BitVec.setWidth_eq] at hidx
  rw [hparity]
  exact hidx

theorem inBounds_prologue (acc : Vec128) (key : ClKey) :
    InBounds (verusClhashPrologue acc key clHashKeyMask).1 where
  prand := masked_le _
  prandex := masked_le _
  pbuf := by
    have hlt := pbufIdx_lt (vgetqLaneU64 acc 0)
    exact ⟨Int.natCast_nonneg _, Int.ofNat_lt.mpr hlt⟩
  pbsf := inInput_pbsf _

theorem inputPtr_ok {i : Int} (hi : InInput i) : inputPtr i = .ok i := if_pos hi

theorem verusClhashPrologueChecked_eq (acc : Vec128) (key : ClKey) :
    verusClhashPrologueChecked acc key clHashKeyMask =
      .ok (verusClhashPrologue acc key clHashKeyMask) := by
  have h := inBounds_prologue acc key
  have hprand := loadKey_ok key h.prand_lt
  have hprandex := loadKey_ok key h.prandex_lt
  have hpbuf := inputPtr_ok h.pbuf
  have hpbsf := inputPtr_ok h.pbsf
  simp only [verusClhashPrologue] at hprand hprandex hpbuf hpbsf
  simp only [verusClhashPrologueChecked, hprand, hprandex, hpbuf, hpbsf, checked_bind]
  rfl

/-! ## Whole runs -/

section runs

variable (build : ClhashBuild)

theorem verusClhashIterChecked_eq (buf : Fin 4 → Vec128) (c : Chain) :
    verusClhashIterChecked build clHashKeyMask buf c =
      .ok (verusClhashIter vqrdmulhqS16 build clHashKeyMask buf c) := by
  rw [verusClhashIterChecked, verusClhashPrologueChecked_eq, checked_bind]
  have hcase := verusClhashCaseChecked_eq vqrdmulhqS16 build buf (inBounds_prologue c.acc c.key) c
  simp only [hcase, checked_bind]
  rfl

theorem runPasses_eq {α : Type} {pass : α → Checked α} {f : α → α} (h : ∀ c, pass c = .ok (f c))
    (n : Nat) (c : α) : runPasses pass n c = .ok (f^[n] c) := by
  induction n generalizing c with
  | zero => rfl
  | succ n ih =>
    rw [runPasses, h, checked_bind, ih]
    rfl

theorem startChecked_eq (random : ClKey) :
    Chain.startChecked clHashKeyMask random = .ok (Chain.start random clHashKeyMask) := by
  rw [Chain.startChecked, loadKey_ok random (by decide)]
  rfl

theorem verusclhashPort22Checked_eq (random : ClKey) (buf : Fin 4 → Vec128) :
    verusclhashPort22Checked build clHashKeyMask random buf =
      .ok (verusclhashPort22Native build random buf clHashKeyMask) := by
  rw [verusclhashPort22Checked, startChecked_eq, checked_bind,
    runPasses_eq (verusClhashIterChecked_eq build buf), checked_bind]
  rfl

theorem x2IterChecked_eq (buf1 buf2 : Fin 4 → Vec128) (c : Chain × Chain) :
    x2IterChecked build clHashKeyMask buf1 buf2 c = .ok (x2Iter build clHashKeyMask buf1 buf2 c) := by
  simp only [x2IterChecked, verusClhashIterChecked_eq, checked_bind]
  rfl

theorem x2fIterChecked_eq (buf1 buf2 : Fin 4 → Vec128) (c : Chain × Chain) :
    x2fIterChecked build clHashKeyMask buf1 buf2 c = .ok (x2fIter build clHashKeyMask buf1 buf2 c) := by
  have hcase1 :=
    verusClhashCaseChecked_eq vqrdmulhqS16 build buf1 (inBounds_prologue c.1.acc c.1.key) c.1
  have hcase2 :=
    verusClhashCaseChecked_eq vqrdmulhqS16 build buf2 (inBounds_prologue c.2.acc c.2.key) c.2
  obtain ⟨u, hu, h1⟩ := selector_case (verusClhashPrologue c.1.acc c.1.key clHashKeyMask).1.selector
  obtain ⟨v, hv, h2⟩ := selector_case (verusClhashPrologue c.2.acc c.2.key clHashKeyMask).1.selector
  have hfused := fusedIndex_toNat hu hv h1 h2
  have hshift : ∀ u < 8, BitVec.ofNat 64 u <<< 2 = BitVec.ofNat 64 (4 * u) := by decide
  have hdiv : (8 * u + v) / 8 = u := by omega
  have hmod : (8 * u + v) % 8 = v := by omega
  rw [h1] at hcase1
  rw [h2] at hcase2
  rw [x2fIterChecked, verusClhashPrologueChecked_eq, checked_bind, verusClhashPrologueChecked_eq, checked_bind,
    x2fIter_eq]
  simp only [hfused]
  unfold fusedCasesChecked
  rw [if_pos (by omega), hdiv, hmod, hshift u hu, hshift v hv, hcase1, checked_bind, hcase2, checked_bind]
  unfold x2Iter verusClhashIter
  simp only [h1, h2]
  rfl

theorem verusclhashPort22X2Checked_eq
    {pass : (Fin 4 → Vec128) → (Fin 4 → Vec128) → Chain × Chain → Checked (Chain × Chain)}
    {f : (Fin 4 → Vec128) → (Fin 4 → Vec128) → Chain × Chain → Chain × Chain}
    (h : ∀ buf1 buf2 c, pass buf1 buf2 c = .ok (f buf1 buf2 c)) (random1 random2 : ClKey)
    (buf1 buf2 : Fin 4 → Vec128) :
    verusclhashPort22X2Checked clHashKeyMask pass random1 random2 buf1 buf2 =
      .ok (let c := (f buf1 buf2)^[32] (Chain.start random1 clHashKeyMask,
             Chain.start random2 clHashKeyMask)
           ((c.1.value, c.1), (c.2.value, c.2))) := by
  rw [verusclhashPort22X2Checked, startChecked_eq, checked_bind, startChecked_eq, checked_bind,
    runPasses_eq (h buf1 buf2), checked_bind]
  rfl

end runs

/-! ## The finaliser in bounds -/

theorem aes4TwiceChecked_eq (s : State512) (key : ClKey) {rci : Nat} (h : rci + 8 ≤ verusKeyVectors) :
    aes4TwiceChecked s key rci = .ok (aes4With aesEncryptRoundNative s key rci) := by
  simp (disch := omega) only [aes4TwiceChecked, aesRoundAt_ok, checked_bind]
  apply congrArg Except.ok
  funext i
  fin_cases i <;> rfl

theorem aes4With_shift (s : State512) (key : ClKey) (rc rci : Nat) :
    aes4With aesEncryptRoundNative s (fun i => key (rc + i)) rci =
      aes4With aesEncryptRoundNative s key (rc + rci) := by
  funext i
  simp only [aes4With, Nat.add_assoc]

theorem haraka512KeyedChecked_eq (input : Buffer 64) (key : ClKey) {rc : Nat} (hrc : rc ≤ 511) :
    haraka512KeyedChecked input key rc = .ok (haraka512KeyedNative input fun i => key (rc + i)) := by
  have hwalk : rc + 40 ≤ verusKeyVectors := by
    unfold verusKeyVectors
    omega
  simp (disch := omega) only [haraka512KeyedChecked, aes4TwiceChecked_eq, aesRoundAt_ok, checked_bind]
  simp only [haraka512KeyedNative, haraka512KeyedWordWith, wordOf_last, mix4_eq, mix4Last_two, aes4With_shift]
  rfl

theorem haraka512KeyedFullChecked_eq (input : Buffer 64) (key : ClKey) {rc : Nat} (hrc : rc ≤ 511) :
    haraka512KeyedFullChecked input key rc =
      .ok (haraka512KeyedFullNative input fun i => key (rc + i)) := by
  have hwalk : rc + 40 ≤ verusKeyVectors := by
    unfold verusKeyVectors
    omega
  simp (disch := omega) only [haraka512KeyedFullChecked, aes4TwiceChecked_eq, checked_bind]
  simp only [haraka512KeyedFullNative, haraka512KeyedFullWith, haraka512PermWith, List.range_succ,
    List.range_zero, List.nil_append, List.cons_append, List.foldl_cons, List.foldl_nil, round512With,
    aes4With_shift]
  rfl

/-- The slots of a journal lie in the masked part of the key. -/
def Journaled (journal : List JournalEntry) : Prop :=
  ∀ entry ∈ journal, entry.fixrand.toNat ≤ 511 ∧ entry.fixrandex.toNat ≤ 511

theorem restoreClKeySlotsChecked_eq {journal : List JournalEntry} (h : Journaled journal)
    (key : ClKey) :
    restoreClKeySlotsChecked journal key = .ok (restoreClKeySlots journal key) := by
  induction journal with
  | nil => rfl
  | cons entry journal ih =>
    have hslots := h entry (by simp)
    have hrand : entry.fixrand.toNat < verusKeyVectors := lt_of_le_of_lt hslots.1 (by decide)
    have hrandex : entry.fixrandex.toNat < verusKeyVectors := lt_of_le_of_lt hslots.2 (by decide)
    rw [restoreClKeySlotsChecked, ih fun e he => h e (by simp [he]), checked_bind, storeKey_ok _ _ hrand,
      checked_bind, storeKey_ok _ _ hrandex]
    rfl

theorem journaled_iter (build : ClhashBuild) (buf : Fin 4 → Vec128) {c : Chain}
    (h : Journaled c.journal) :
    Journaled (verusClhashIter vqrdmulhqS16 build clHashKeyMask buf c).journal := by
  intro entry he
  rcases List.mem_append.mp he with hmem | hmem
  · exact h entry hmem
  · rw [List.mem_singleton.mp hmem]
    exact ⟨masked_le _, masked_le _⟩

theorem journaled_clhash (build : ClhashBuild) (random : ClKey) (buf : Fin 4 → Vec128) :
    Journaled (verusclhashPort22Native build random buf clHashKeyMask).2.journal :=
  Function.Iterate.rec (fun c : Chain => Journaled c.journal) (by intro e he; simp [Chain.start] at he)
    (fun c hc => journaled_iter build buf hc) 32

theorem computeVerusHashChecked_eq (build : ClhashBuild) (curBuf : Buffer 64) (nonceBytes : Buffer 15)
    (key : ClKey) :
    computeVerusHashChecked build curBuf nonceBytes key =
      .ok (computeVerusHash build curBuf nonceBytes key) := by
  rw [computeVerusHashChecked, verusclhashPort22Checked_eq, checked_bind, finalizeVerusHashChecked,
    haraka512KeyedChecked_eq _ _ (and_keyMask_le _), checked_bind,
    restoreClKeySlotsChecked_eq (journaled_clhash build key _), checked_bind]
  rfl

/-- With the mask 511 no access of CLHash or of the finaliser leaves its array and no remainder is
undefined: for every accumulator, key, input and build a step, a whole run of each entry point, both
finalisers at every intermediate and a whole hash return what they return without the checks. -/
theorem clhash_accesses_safe (build : ClhashBuild) :
    (∀ (buf : Fin 4 → Vec128) (c : Chain),
      verusClhashIterChecked build clHashKeyMask buf c =
        .ok (verusClhashIter vqrdmulhqS16 build clHashKeyMask buf c)) ∧
      (∀ (random : ClKey) (buf : Fin 4 → Vec128),
        verusclhashPort22Checked build clHashKeyMask random buf =
          .ok (verusclhashPort22Native build random buf clHashKeyMask)) ∧
      (∀ (random1 random2 : ClKey) (buf1 buf2 : Fin 4 → Vec128),
        verusclhashPort22X2Checked clHashKeyMask (x2IterChecked build clHashKeyMask) random1 random2 buf1
            buf2 =
          .ok (verusclhashPort22X2Native build random1 random2 buf1 buf2 clHashKeyMask) ∧
        verusclhashPort22X2Checked clHashKeyMask (x2fIterChecked build clHashKeyMask) random1 random2 buf1
            buf2 =
          .ok (verusclhashPort22X2fNative build random1 random2 buf1 buf2 clHashKeyMask)) ∧
      (∀ (input : Buffer 64) (key : ClKey) (intermediate : BitVec 64),
        haraka512KeyedChecked input key (intermediate &&& clHashKeyMask).toNat =
          .ok (haraka512KeyedNative input fun i => key ((intermediate &&& clHashKeyMask).toNat + i)) ∧
        haraka512KeyedFullChecked input key (intermediate &&& clHashKeyMask).toNat =
          .ok (haraka512KeyedFullNative input fun i =>
            key ((intermediate &&& clHashKeyMask).toNat + i))) ∧
      ∀ (curBuf : Buffer 64) (nonceBytes : Buffer 15) (key : ClKey),
        computeVerusHashChecked build curBuf nonceBytes key =
          .ok (computeVerusHash build curBuf nonceBytes key) := by
  refine ⟨verusClhashIterChecked_eq build, verusclhashPort22Checked_eq build, ?_, ?_,
    computeVerusHashChecked_eq build⟩
  · intro random1 random2 buf1 buf2
    constructor
    · exact verusclhashPort22X2Checked_eq (x2IterChecked_eq build) random1 random2 buf1 buf2
    · exact verusclhashPort22X2Checked_eq (x2fIterChecked_eq build) random1 random2 buf1 buf2
  · intro input key intermediate
    constructor
    · exact haraka512KeyedChecked_eq input key (and_keyMask_le intermediate)
    · exact haraka512KeyedFullChecked_eq input key (and_keyMask_le intermediate)

end PrimoMiner
