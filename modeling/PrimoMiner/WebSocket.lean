import PrimoMiner.Library.Base64
import PrimoMiner.Library.Sha1
import PrimoMiner.Library.WebSocketFrame
import PrimoMiner.Sha256Stream

/-!
# The WebSocket upgrade of `api.cpp`

SHA-1 with its padding made byte by byte, base64, the accept value of the handshake and the header of the
answer's frame.  A `size_t` is a number below `2 ^ 64`.
-/

namespace PrimoMiner

open Sha1 (Word State)

/-! ## `api_sha1` -/

/-- The length with padding, in `size_t`. -/
def sha1Padded (len : Nat) : Nat := ((len + 8) % 2 ^ 64 / 64 + 1) * 64 % 2 ^ 64

/-- The byte at a position of the padded message. -/
def sha1Byte (data : List Byte) (pos : Nat) : Byte :=
  let bitLen := BitVec.ofNat 64 data.length * 8
  let padded := sha1Padded data.length
  if pos < data.length then data.getD pos 0
  else if pos = data.length then 0x80
  else if padded - 8 ≤ pos then (bitLen >>> (8 * (padded - 1 - pos))).setWidth 8
  else 0

/-- The next word of `w`. -/
def sha1Extend (w : List Word) : List Word :=
  let i := w.length
  let v := w.getD (i - 3) 0 ^^^ w.getD (i - 8) 0 ^^^ w.getD (i - 14) 0 ^^^ w.getD (i - 16) 0
  w ++ [v <<< 1 ||| v >>> 31]

def sha1Words (block : Nat → Byte) : List Word := sha1Extend^[64] (blockWords block)

def sha1Round (w : List Word) (s : State) (i : Nat) : State :=
  let (f, k) : Word × Word :=
    if i < 20 then ((s.b &&& s.c) ||| (~~~s.b &&& s.d), 0x5a827999)
    else if i < 40 then (s.b ^^^ s.c ^^^ s.d, 0x6ed9eba1)
    else if i < 60 then ((s.b &&& s.c) ||| (s.b &&& s.d) ||| (s.c &&& s.d), 0x8f1bbcdc)
    else (s.b ^^^ s.c ^^^ s.d, 0xca62c1d6)
  let tmp := (s.a <<< 5 ||| s.a >>> 27) + f + s.e + k + w.getD i 0
  ⟨tmp, s.a, s.b <<< 30 ||| s.b >>> 2, s.c, s.d⟩

def sha1Block (h : State) (block : Nat → Byte) : State :=
  h.add ((List.range 80).foldl (sha1Round (sha1Words block)) h)

def apiSha1 (data : List Byte) : List Byte :=
  let h := (List.range (sha1Padded data.length / 64)).foldl
    (fun h n => sha1Block h fun i => sha1Byte data (64 * n + i))
    ⟨0x67452301, 0xefcdab89, 0x98badcfe, 0x10325476, 0xc3d2e1f0⟩
  h.words.flatMap be32enc

/-! ## `api_base64_encode` -/

def base64Table : List Char := "ABCDEFGHIJKLMNOPQRSTUVWXYZabcdefghijklmnopqrstuvwxyz0123456789+/".toList

/-- `tbl[v & 63]` -/
def base64Char (v : BitVec 32) : Char := base64Table.getD (v &&& 63).toNat 'A'

def apiBase64Encode : List Byte → List Char
  | [] => []
  | [a] =>
    let v := a.setWidth 32 <<< 16
    [base64Char (v >>> 18), base64Char (v >>> 12), '=', '=']
  | [a, b] =>
    let v := a.setWidth 32 <<< 16 ||| b.setWidth 32 <<< 8
    [base64Char (v >>> 18), base64Char (v >>> 12), base64Char (v >>> 6), '=']
  | a :: b :: c :: rest =>
    let v := a.setWidth 32 <<< 16 ||| b.setWidth 32 <<< 8 ||| c.setWidth 32
    base64Char (v >>> 18) :: base64Char (v >>> 12) :: base64Char (v >>> 6) :: base64Char v ::
      apiBase64Encode rest

/-! ## `api_send_websocket_response` -/

def websocketGuid : String := "258EAFA5-E914-47DA-95CA-C5AB0DC85B11"

/-- The bytes of a C string. -/
def textBytes (s : String) : List Byte := s.toList.map fun c => BitVec.ofNat 8 c.toNat

def acceptKey (clientKey : String) : String :=
  String.ofList (apiBase64Encode (apiSha1 (textBytes (snprintf 128 (clientKey ++ websocketGuid)))))

def handshake (clientKey : String) : String :=
  snprintf 256 ("HTTP/1.1 101 Switching Protocol\r\n" ++ "Upgrade: WebSocket\r\n" ++
    "Connection: Upgrade\r\n" ++ "Sec-WebSocket-Accept: " ++ acceptKey clientKey ++ "\r\n" ++
    "Sec-WebSocket-Protocol: text\r\n" ++ "\r\n")

def frameHeader (payloadLen : Nat) : List Byte :=
  if payloadLen ≤ 125 then [0x81, BitVec.ofNat 8 payloadLen]
  else if payloadLen ≤ 65535 then
    [0x81, 126, BitVec.ofNat 8 (payloadLen >>> 8), BitVec.ofNat 8 (payloadLen &&& 0xff)]
  else
    [0x81, 127, BitVec.ofNat 8 (payloadLen >>> 56), BitVec.ofNat 8 (payloadLen >>> 48),
      BitVec.ofNat 8 (payloadLen >>> 40), BitVec.ofNat 8 (payloadLen >>> 32),
      BitVec.ofNat 8 (payloadLen >>> 24), BitVec.ofNat 8 (payloadLen >>> 16),
      BitVec.ofNat 8 (payloadLen >>> 8), BitVec.ofNat 8 (payloadLen &&& 0xff)]

/-- What is sent, in this order; a send that fails is the last one. -/
def apiSendWebsocketResponse (response clientKey : String) : List (List Byte) :=
  [textBytes (handshake clientKey), frameHeader (textBytes response).length, textBytes response]

/-! ## SHA-1 of a message -/

def compressBytes (s : State) (block : Nat → Byte) : State :=
  Sha1.compress s fun t => be32dec fun k => block (4 * t + k)

/-- SHA-1 of a message, by FIPS 180-4; the padding is that of SHA-256. -/
def sha1 (message : List Byte) : List Byte :=
  (absorbBlocks compressBytes Sha1.init (padMessage message)).words.flatMap be32enc

theorem length_sha1Extend_iterate (w : List Word) (n : Nat) : (sha1Extend^[n] w).length = w.length + n := by
  induction n with
  | zero => rfl
  | succ n ih =>
    rw [Function.iterate_succ_apply', sha1Extend, List.length_append, ih]
    rfl

/-- After `n` steps the words are the first of the schedule. -/
theorem getD_sha1Extend (block : Nat → Byte) (n : Nat) {t : Nat} (ht : t < n + 16) :
    (sha1Extend^[n] (blockWords block)).getD t 0 =
      Sha1.schedule (fun t => be32dec fun k => block (4 * t + k)) t := by
  induction n generalizing t with
  | zero =>
    rw [Sha1.schedule_lt _ (by omega), Function.iterate_zero, id, blockWords,
      List.getD_eq_getElem _ _ (by rw [List.length_map, List.length_range]; omega), List.getElem_map,
      List.getElem_range]
  | succ n ih =>
    have hlen : (sha1Extend^[n] (blockWords block)).length = n + 16 := by
      rw [length_sha1Extend_iterate, blockWords, List.length_map, List.length_range, Nat.add_comm]
    rw [Function.iterate_succ_apply', sha1Extend, hlen]
    by_cases hlast : t < n + 16
    · rw [List.getD_append _ _ _ _ (by omega), ih hlast]
    · obtain rfl : t = n + 16 := by omega
      rw [List.getD_append_right _ _ _ _ (by omega), hlen, Nat.sub_self, List.getD_cons_zero, Sha1.schedule_add,
        Sha1.rotl, ih (by omega), ih (by omega), ih (by omega), ih (by omega)]
      rfl

theorem sha1Round_eq (w : List Word) (s : State) (i : Nat) :
    sha1Round w s i = Sha1.round i (w.getD i 0) s := by
  unfold sha1Round Sha1.round Sha1.f Sha1.k
  by_cases h20 : i < 20
  · simp only [if_pos h20, Sha1.ch_eq_or]
    rfl
  · by_cases h40 : i < 40
    · simp only [if_neg h20, if_pos h40]
      rfl
    · by_cases h60 : i < 60
      · simp only [if_neg h20, if_neg h40, if_pos h60, Sha1.maj_eq_or]
        rfl
      · simp only [if_neg h20, if_neg h40, if_neg h60]
        rfl

theorem sha1Block_eq (h : State) (block : Nat → Byte) : sha1Block h block = compressBytes h block := by
  have hrounds : (List.range 80).foldl (sha1Round (sha1Words block)) h =
      Sha1.rounds (Sha1.schedule fun t => be32dec fun k => block (4 * t + k)) 80 h := by
    apply List.foldl_ext
    intro s t ht
    rw [sha1Round_eq, sha1Words, getD_sha1Extend block 64 (List.mem_range.mp ht)]
  rw [sha1Block, compressBytes, Sha1.compress, hrounds]

theorem compressBytes_readsBlock : ReadsBlock compressBytes := by
  intro s p q h
  have hwords : ∀ t, t < 16 → be32dec (fun k => p (4 * t + k)) = be32dec fun k => q (4 * t + k) := by
    intro t ht
    rw [be32dec, be32dec, h _ (by omega), h _ (by omega), h _ (by omega), h _ (by omega)]
  have hrounds := Sha1.rounds_congr (fun t (_ : t < 80) => Sha1.schedule_congr hwords t)
  rw [compressBytes, compressBytes, Sha1.compress, Sha1.compress, hrounds]

section
variable {data : List Byte} (hlen : data.length < 2 ^ 61)

theorem length_padMessage (data : List Byte) :
    (padMessage data).length = ((data.length + 8) / 64 + 1) * 64 := by
  rw [padMessage]
  simp only [List.length_append, List.length_replicate, be32enc_length, List.length_singleton]
  omega

include hlen

/-- Nothing wraps. -/
theorem sha1Padded_eq : sha1Padded data.length = (padMessage data).length := by
  rw [sha1Padded, length_padMessage]
  omega

/-- The byte made at a position is the byte of the padded message. -/
theorem sha1Byte_eq {pos : Nat} (hpos : pos < (padMessage data).length) :
    sha1Byte data pos = (padMessage data).getD pos 0 := by
  have hbits : BitVec.ofNat 64 data.length * 8 = BitVec.ofNat 64 (8 * data.length) := by
    rw [Nat.mul_comm, BitVec.ofNat_mul]
    rfl
  have hpadded := length_padMessage data
  unfold sha1Byte
  dsimp only
  rw [sha1Padded_eq hlen, hbits]
  generalize (padMessage data).length = padded at *
  by_cases hdata : pos < data.length
  · rw [if_pos hdata, padMessage, List.append_assoc, List.append_assoc, List.getD_append _ _ _ _ hdata]
  · rw [if_neg hdata, padMessage, List.append_assoc, List.append_assoc,
      List.getD_append_right _ _ _ _ (by omega)]
    by_cases hone : pos = data.length
    · rw [if_pos hone, hone, Nat.sub_self]
      rfl
    · rw [if_neg hone, List.getD_append_right _ _ _ _ (by rw [List.length_singleton]; omega),
        List.length_singleton]
      by_cases hlast : padded - 8 ≤ pos
      · rw [if_pos hlast, List.getD_append_right _ _ _ _ (by rw [List.length_replicate]; omega),
          List.length_replicate, ← Sha256Ctx.lengthBytes_eq,
          List.getD_eq_getElem _ _ (by rw [List.length_map, List.length_range]; omega), List.getElem_map,
          List.getElem_range]
        congr 2
        omega
      · rw [if_neg hlast, List.getD_append _ _ _ _ (by rw [List.length_replicate]; omega)]
        simp

theorem apiSha1_eq : apiSha1 data = sha1 data := by
  have hblocks : (List.range ((padMessage data).length / 64)).foldl
      (fun h n => sha1Block h fun i => sha1Byte data (64 * n + i)) Sha1.init =
        absorbBlocks compressBytes Sha1.init (padMessage data) := by
    rw [absorbBlocks]
    apply List.foldl_ext
    intro s n hn
    have hblock := List.mem_range.mp hn
    rw [sha1Block_eq]
    apply compressBytes_readsBlock
    intro k hk
    exact sha1Byte_eq hlen (by omega)
  rw [apiSha1, sha1, ← hblocks, sha1Padded_eq hlen, Sha1.init]

end

theorem length_apiSha1 (data : List Byte) : (apiSha1 data).length = 20 := rfl

/-! ## Base64 -/

theorem base64Char_eq (v : BitVec 32) (k : Nat) :
    base64Char (v >>> k) = Base64.digit (v.toNat / 2 ^ k) := by
  have hmask : ((v >>> k) &&& 63).toNat = v.toNat / 2 ^ k % 64 := by
    rw [BitVec.toNat_and, BitVec.toNat_ushiftRight, Nat.shiftRight_eq_div_pow]
    exact Nat.and_two_pow_sub_one_eq_mod _ 6
  rw [base64Char, hmask]
  rfl

/-- The three bytes do not overlap. -/
theorem toNat_group (a b c : Byte) :
    (a.setWidth 32 <<< 16 ||| b.setWidth 32 <<< 8 ||| c.setWidth 32).toNat = Base64.group a b c := by
  have ha := a.isLt
  have hb := b.isLt
  have hc := c.isLt
  have hfirst : a.toNat <<< 16 ||| b.toNat <<< 8 = (a.toNat * 2 ^ 8 + b.toNat) <<< 8 := by
    rw [← Nat.shiftLeft_add_eq_or_of_lt (by rw [Nat.shiftLeft_eq]; omega), Nat.shiftLeft_eq, Nat.shiftLeft_eq,
      Nat.shiftLeft_eq]
    omega
  have hor : a.toNat <<< 16 ||| b.toNat <<< 8 ||| c.toNat = Base64.group a b c := by
    rw [hfirst, ← Nat.shiftLeft_add_eq_or_of_lt hc, Nat.shiftLeft_eq, Base64.group]
    omega
  rw [← hor]
  simp only [BitVec.toNat_or, BitVec.toNat_shiftLeft, BitVec.toNat_setWidth]
  rw [Nat.mod_eq_of_lt (by omega : a.toNat < 2 ^ 32), Nat.mod_eq_of_lt (by omega : b.toNat < 2 ^ 32),
    Nat.mod_eq_of_lt (by omega : c.toNat < 2 ^ 32), Nat.mod_eq_of_lt (by rw [Nat.shiftLeft_eq]; omega),
    Nat.mod_eq_of_lt (by rw [Nat.shiftLeft_eq]; omega)]

theorem apiBase64Encode_eq (l : List Byte) : apiBase64Encode l = Base64.encode l := by
  fun_induction apiBase64Encode l with
  | case1 => rfl
  | case2 a v =>
    have hv : v.toNat = Base64.group a 0 0 := by
      rw [← toNat_group]
      simp [v]
    rw [base64Char_eq, base64Char_eq, hv]
    rfl
  | case3 a b v =>
    have hv : v.toNat = Base64.group a b 0 := by
      rw [← toNat_group]
      simp [v]
    rw [base64Char_eq, base64Char_eq, base64Char_eq, hv]
    rfl
  | case4 a b c rest v ih =>
    have hlast := base64Char_eq v 0
    rw [BitVec.ushiftRight_zero, Nat.pow_zero, Nat.div_one] at hlast
    rw [base64Char_eq, base64Char_eq, base64Char_eq, hlast, ih, toNat_group a b c]
    rfl

/-! ## The handshake -/

/-- A key that is not too long is hashed with the whole GUID. -/
theorem acceptKey_eq {clientKey : String} (h : clientKey.toList.length ≤ 91) :
    (acceptKey clientKey).toList =
      Base64.encode (sha1 (textBytes clientKey ++ textBytes websocketGuid)) := by
  have hguid : websocketGuid.toList.length = 36 := by decide
  have hlen : (clientKey ++ websocketGuid).toList.length < 128 := by
    rw [String.toList_append, List.length_append]
    omega
  have hbytes : textBytes (clientKey ++ websocketGuid) = textBytes clientKey ++ textBytes websocketGuid := by
    rw [textBytes, String.toList_append, List.map_append]
    rfl
  have hshort : (textBytes (clientKey ++ websocketGuid)).length < 2 ^ 61 := by
    rw [textBytes, List.length_map]
    omega
  rw [acceptKey, snprintf_eq_self hlen, apiSha1_eq hshort, hbytes, String.toList_ofList, apiBase64Encode_eq]

-- the handshake of the protocol's own example
example : acceptKey "dGhlIHNhbXBsZSBub25jZQ==" = "s3pPLMBiTxaQ9kYGzzhZRbK+xOo=" := by decide +kernel

/-- The handshake is never cut. -/
theorem handshake_eq (clientKey : String) :
    handshake clientKey = "HTTP/1.1 101 Switching Protocol\r\n" ++ "Upgrade: WebSocket\r\n" ++
      "Connection: Upgrade\r\n" ++ "Sec-WebSocket-Accept: " ++ acceptKey clientKey ++ "\r\n" ++
      "Sec-WebSocket-Protocol: text\r\n" ++ "\r\n" := by
  have hkey : (acceptKey clientKey).toList.length = 28 := by
    rw [acceptKey, String.toList_ofList, apiBase64Encode_eq, Base64.length_encode, length_apiSha1]
  apply snprintf_eq_self
  simp only [String.toList_append, List.length_append, hkey]
  decide

/-! ## The frame -/

theorem length_frameHeader (n : Nat) : (frameHeader n).length = WebSocketFrame.shortest n := by
  unfold frameHeader WebSocketFrame.shortest
  split_ifs <;> rfl

/-- The bytes of a length give it back. -/
theorem number_two (n : Nat) (h : n ≤ 65535) :
    WebSocketFrame.number [BitVec.ofNat 8 (n >>> 8), BitVec.ofNat 8 (n &&& 0xff)] = n := by
  rw [show n &&& 0xff = n % 256 from Nat.and_two_pow_sub_one_eq_mod n 8]
  simp only [WebSocketFrame.number, List.foldl_cons, List.foldl_nil, BitVec.toNat_ofNat, Nat.shiftRight_eq_div_pow]
  omega

theorem number_eight (n : Nat) (h : n < 2 ^ 64) :
    WebSocketFrame.number [BitVec.ofNat 8 (n >>> 56), BitVec.ofNat 8 (n >>> 48), BitVec.ofNat 8 (n >>> 40),
      BitVec.ofNat 8 (n >>> 32), BitVec.ofNat 8 (n >>> 24), BitVec.ofNat 8 (n >>> 16), BitVec.ofNat 8 (n >>> 8),
      BitVec.ofNat 8 (n &&& 0xff)] = n := by
  rw [show n &&& 0xff = n % 256 from Nat.and_two_pow_sub_one_eq_mod n 8]
  simp only [WebSocketFrame.number, List.foldl_cons, List.foldl_nil, BitVec.toNat_ofNat, Nat.shiftRight_eq_div_pow]
  omega

theorem decode_frameHeader {n : Nat} (hn : n < 2 ^ 64) (payload : List Byte) :
    WebSocketFrame.decode (frameHeader n ++ payload) = some (WebSocketFrame.textHeader n, payload) := by
  unfold frameHeader
  by_cases h7 : n ≤ 125
  · have hlow : (BitVec.ofNat 8 n).toNat = n := by
      rw [BitVec.toNat_ofNat]
      omega
    have hext : WebSocketFrame.extended ((BitVec.ofNat 8 n).toNat % 128) = 0 := by
      rw [hlow, WebSocketFrame.extended, if_neg (by omega), if_neg (by omega)]
    have hmsb : (BitVec.ofNat 8 n).msb = false := by
      rw [BitVec.msb_eq_false_iff_two_mul_lt, hlow]
      omega
    have hdecode := WebSocketFrame.decode_unmasked 0x81 [] hmsb hext.symm payload
    rw [if_pos hext, hlow, Nat.mod_eq_of_lt (by omega)] at hdecode
    rw [if_pos h7]
    exact hdecode
  · rw [if_neg h7]
    by_cases h16 : n ≤ 65535
    · rw [if_pos h16]
      have hdecode := WebSocketFrame.decode_unmasked 0x81
        [BitVec.ofNat 8 (n >>> 8), BitVec.ofNat 8 (n &&& 0xff)]
        (show BitVec.msb (126 : Byte) = false by decide) rfl payload
      rw [if_neg (by decide), number_two n h16] at hdecode
      exact hdecode
    · rw [if_neg h16]
      have hdecode := WebSocketFrame.decode_unmasked 0x81
        [BitVec.ofNat 8 (n >>> 56), BitVec.ofNat 8 (n >>> 48), BitVec.ofNat 8 (n >>> 40),
          BitVec.ofNat 8 (n >>> 32), BitVec.ofNat 8 (n >>> 24), BitVec.ofNat 8 (n >>> 16),
          BitVec.ofNat 8 (n >>> 8), BitVec.ofNat 8 (n &&& 0xff)]
        (show BitVec.msb (127 : Byte) = false by decide) rfl payload
      rw [if_neg (by decide), number_eight n hn] at hdecode
      exact hdecode

/-- Behind the handshake stands one frame with the answer. -/
theorem apiSendWebsocketResponse_frame (response clientKey : String) (h : (textBytes response).length < 2 ^ 64) :
    WebSocketFrame.decode ((apiSendWebsocketResponse response clientKey).drop 1).flatten =
      some (WebSocketFrame.textHeader (textBytes response).length, textBytes response) := by
  rw [apiSendWebsocketResponse, List.drop_succ_cons, List.drop_zero, List.flatten_cons, List.flatten_singleton]
  exact decode_frameHeader h _

/-- The most significant bit of a long length is 0, as the protocol demands. -/
theorem frameHeader_msb {n : Nat} (hn : n < 2 ^ 63) (hlong : 65535 < n) :
    ((frameHeader n).getD 2 0).msb = false := by
  rw [frameHeader, if_neg (by omega), if_neg (by omega)]
  show (BitVec.ofNat 8 (n >>> 56)).msb = false
  rw [BitVec.msb_eq_false_iff_two_mul_lt, BitVec.toNat_ofNat, Nat.shiftRight_eq_div_pow]
  omega

/-- The digest, the encoding, the accept value and the frame header of the upgrade. -/
theorem websocket_upgrade :
    (∀ data : List Byte, data.length < 2 ^ 61 → apiSha1 data = sha1 data) ∧
    (∀ data : List Byte, Base64.decode (apiBase64Encode data) = some data) ∧
    (∀ clientKey : String, clientKey.toList.length ≤ 91 →
      (acceptKey clientKey).toList =
        Base64.encode (sha1 (textBytes clientKey ++ textBytes websocketGuid))) ∧
    ∀ n, n < 2 ^ 64 →
      (∀ payload, WebSocketFrame.decode (frameHeader n ++ payload) =
        some (WebSocketFrame.textHeader n, payload)) ∧
      (∀ bytes, WebSocketFrame.decode bytes = some (WebSocketFrame.textHeader n, []) →
        (frameHeader n).length ≤ bytes.length) ∧
      (n < 2 ^ 63 → 65535 < n → ((frameHeader n).getD 2 0).msb = false) := by
  refine ⟨fun data => apiSha1_eq, ?_, fun clientKey => acceptKey_eq, ?_⟩
  · intro data
    rw [apiBase64Encode_eq, Base64.decode_encode]
  · intro n hn
    refine ⟨decode_frameHeader hn, ?_, frameHeader_msb⟩
    intro bytes hbytes
    rw [length_frameHeader]
    exact WebSocketFrame.shortest_le hbytes

end PrimoMiner
