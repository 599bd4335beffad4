import Mathlib.Data.List.Basic

/-! `hashlib.sha256`: the hash object as the bytes fed to it, and SHA-256 of them as the digest. -/

namespace EvidenceCartographer.Python

abbrev Bytes := List UInt8

namespace Sha256

/-- The round constants. -/
def roundConstants : List UInt32 :=
  [0x428a2f98, 0x71374491, 0xb5c0fbcf, 0xe9b5dba5, 0x3956c25b, 0x59f111f1, 0x923f82a4, 0xab1c5ed5,
   0xd807aa98, 0x12835b01, 0x243185be, 0x550c7dc3, 0x72be5d74, 0x80deb1fe, 0x9bdc06a7, 0xc19bf174,
   0xe49b69c1, 0xefbe4786, 0x0fc19dc6, 0x240ca1cc, 0x2de92c6f, 0x4a7484aa, 0x5cb0a9dc, 0x76f988da,
   0x983e5152, 0xa831c66d, 0xb00327c8, 0xbf597fc7, 0xc6e00bf3, 0xd5a79147, 0x06ca6351, 0x14292967,
   0x27b70a85, 0x2e1b2138, 0x4d2c6dfc, 0x53380d13, 0x650a7354, 0x766a0abb, 0x81c2c92e, 0x92722c85,
   0xa2bfe8a1, 0xa81a664b, 0xc24b8b70, 0xc76c51a3, 0xd192e819, 0xd6990624, 0xf40e3585, 0x106aa070,
   0x19a4c116, 0x1e376c08, 0x2748774c, 0x34b0bcb5, 0x391c0cb3, 0x4ed8aa4a, 0x5b9cca4f, 0x682e6ff3,
   0x748f82ee, 0x78a5636f, 0x84c87814, 0x8cc70208, 0x90befffa, 0xa4506ceb, 0xbef9a3f7, 0xc67178f2]

/-- The eight chaining words. -/
structure Chain where
  (a b c d e f g h : UInt32)

def initial : Chain :=
  ⟨0x6a09e667, 0xbb67ae85, 0x3c6ef372, 0xa54ff53a, 0x510e527f, 0x9b05688c, 0x1f83d9ab, 0x5be0cd19⟩

def rotr (x n : UInt32) : UInt32 := (x >>> n) ||| (x <<< (32 - n))

/-- The message with its `1` bit, its zeros and its bit length. -/
def pad (message : Bytes) : Bytes :=
  message ++ [0x80] ++ List.replicate ((119 - message.length % 64) % 64) 0 ++
    ([56, 48, 40, 32, 24, 16, 8, 0].map fun shift : Nat =>
      UInt8.ofNat ((message.length * 8) >>> shift))

/-- The big-endian words of a byte string. -/
def toWords : Bytes → List UInt32
  | b₀ :: b₁ :: b₂ :: b₃ :: rest =>
    (b₀.toUInt32 <<< 24 ||| b₁.toUInt32 <<< 16 ||| b₂.toUInt32 <<< 8 ||| b₃.toUInt32) ::
      toWords rest
  | _ => []

/-- The next word of the message schedule, from the sixteen before it, newest first. -/
def nextWord (recent : List UInt32) : UInt32 :=
  let w (n : Nat) := recent.getD n 0
  let small0 := rotr (w 14) 7 ^^^ rotr (w 14) 18 ^^^ (w 14 >>> 3)
  let small1 := rotr (w 1) 17 ^^^ rotr (w 1) 19 ^^^ (w 1 >>> 10)
  w 15 + small0 + w 6 + small1

/-- The sixty-four words of the schedule of one block. -/
def schedule (block : List UInt32) : List UInt32 :=
  ((List.range 48).foldl (fun recent _ => nextWord recent :: recent) block.reverse).reverse

def round (s : Chain) (kw : UInt32 × UInt32) : Chain :=
  let big1 := rotr s.e 6 ^^^ rotr s.e 11 ^^^ rotr s.e 25
  let choice := (s.e &&& s.f) ^^^ (~~~s.e &&& s.g)
  let t1 := s.h + big1 + choice + kw.1 + kw.2
  let big0 := rotr s.a 2 ^^^ rotr s.a 13 ^^^ rotr s.a 22
  let majority := (s.a &&& s.b) ^^^ (s.a &&& s.c) ^^^ (s.b &&& s.c)
  ⟨t1 + (big0 + majority), s.a, s.b, s.c, s.d + t1, s.e, s.f, s.g⟩

def compress (s : Chain) (block : List UInt32) : Chain :=
  let t := (roundConstants.zip (schedule block)).foldl round s
  ⟨s.a + t.a, s.b + t.b, s.c + t.c, s.d + t.d, s.e + t.e, s.f + t.f, s.g + t.g, s.h + t.h⟩

def digest (message : Bytes) : Chain :=
  let words := toWords (pad message)
  (List.range (words.length / 16)).foldl
    (fun s i => compress s ((words.drop (16 * i)).take 16)) initial

/-- The eight hexadecimal digits of a word. -/
def hexWord (w : UInt32) : List Char :=
  ([28, 24, 20, 16, 12, 8, 4, 0] : List UInt32).map fun shift => Nat.digitChar ((w >>> shift).toNat % 16)

def Chain.hex (s : Chain) : String :=
  .ofList (hexWord s.a ++ hexWord s.b ++ hexWord s.c ++ hexWord s.d ++
    hexWord s.e ++ hexWord s.f ++ hexWord s.g ++ hexWord s.h)

end Sha256

/-- What `^[0-9a-f]{64}$` accepts. -/
structure Sha256Hex where
  text : String
  length_eq : text.toList.length = 64
  hex : ∀ c ∈ text.toList, c ∈ "0123456789abcdef".toList

theorem Sha256Hex.ext' {x y : Sha256Hex} (h : x.text = y.text) : x = y := by
  cases x; cases y; cases h; rfl

instance : DecidableEq Sha256Hex := fun x y =>
  decidable_of_iff (x.text = y.text) ⟨Sha256Hex.ext', congrArg _⟩

theorem Sha256.hexWord_hex (w : UInt32) :
    ∀ c ∈ Sha256.hexWord w, c ∈ "0123456789abcdef".toList := by
  have digit : ∀ n < 16, Nat.digitChar n ∈ "0123456789abcdef".toList := by decide
  intro c hc
  obtain ⟨_, -, rfl⟩ := List.mem_map.mp hc
  exact digit _ (Nat.mod_lt _ (by decide))

/-- `hashlib.sha256(data).hexdigest()`. -/
def sha256 (data : Bytes) : Sha256Hex where
  text := (Sha256.digest data).hex
  length_eq := by simp [Sha256.Chain.hex, Sha256.hexWord]
  hex := by
    intro c hc
    simp only [Sha256.Chain.hex, String.toList_ofList, List.mem_append] at hc
    rcases hc with ((((((h | h) | h) | h) | h) | h) | h) | h <;> exact Sha256.hexWord_hex _ c h

example : (sha256 []).text =
    "e3b0c44298fc1c149afbf4c8996fb92427ae41e4649b934ca495991b7852b855" := by decide +kernel

/-- A hash object: the bytes its `update` calls have fed it. -/
structure Digest where
  fed : Bytes
  deriving DecidableEq

namespace Digest

/-- `hashlib.sha256()`. -/
def new : Digest := ⟨[]⟩

def update (d : Digest) (data : Bytes) : Digest := ⟨d.fed ++ data⟩

def hexdigest (d : Digest) : Sha256Hex := sha256 d.fed

@[simp] theorem update_fed (d : Digest) (data : Bytes) : (d.update data).fed = d.fed ++ data := rfl

end Digest

end EvidenceCartographer.Python
