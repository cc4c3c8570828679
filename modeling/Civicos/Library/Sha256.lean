import Mathlib.Algebra.Order.Ring.Nat

/-!
# SHA-256

The hash function on lists of bytes, and the hexadecimal digest of a text in UTF-8.
-/
namespace Civicos.Library.Sha256

abbrev Word := BitVec 32

/-- The first 32 bits of the fractional parts of the cube roots of the first 64 primes. -/
def constants : List Word :=
  [0x428a2f98, 0x71374491, 0xb5c0fbcf, 0xe9b5dba5, 0x3956c25b, 0x59f111f1, 0x923f82a4, 0xab1c5ed5,
   0xd807aa98, 0x12835b01, 0x243185be, 0x550c7dc3, 0x72be5d74, 0x80deb1fe, 0x9bdc06a7, 0xc19bf174,
   0xe49b69c1, 0xefbe4786, 0x0fc19dc6, 0x240ca1cc, 0x2de92c6f, 0x4a7484aa, 0x5cb0a9dc, 0x76f988da,
   0x983e5152, 0xa831c66d, 0xb00327c8, 0xbf597fc7, 0xc6e00bf3, 0xd5a79147, 0x06ca6351, 0x14292967,
   0x27b70a85, 0x2e1b2138, 0x4d2c6dfc, 0x53380d13, 0x650a7354, 0x766a0abb, 0x81c2c92e, 0x92722c85,
   0xa2bfe8a1, 0xa81a664b, 0xc24b8b70, 0xc76c51a3, 0xd192e819, 0xd6990624, 0xf40e3585, 0x106aa070,
   0x19a4c116, 0x1e376c08, 0x2748774c, 0x34b0bcb5, 0x391c0cb3, 0x4ed8aa4a, 0x5b9cca4f, 0x682e6ff3,
   0x748f82ee, 0x78a5636f, 0x84c87814, 0x8cc70208, 0x90befffa, 0xa4506ceb, 0xbef9a3f7, 0xc67178f2]

/-- The working variables of a block, and the hash value between blocks. -/
structure Hash where
  a : Word
  b : Word
  c : Word
  d : Word
  e : Word
  f : Word
  g : Word
  h : Word

/-- The first 32 bits of the fractional parts of the square roots of the first eight primes. -/
def initial : Hash :=
  ⟨0x6a09e667, 0xbb67ae85, 0x3c6ef372, 0xa54ff53a, 0x510e527f, 0x9b05688c, 0x1f83d9ab, 0x5be0cd19⟩

def Hash.words (x : Hash) : List Word := [x.a, x.b, x.c, x.d, x.e, x.f, x.g, x.h]

def Hash.add (x y : Hash) : Hash :=
  ⟨x.a + y.a, x.b + y.b, x.c + y.c, x.d + y.d, x.e + y.e, x.f + y.f, x.g + y.g, x.h + y.h⟩

def choose (x y z : Word) : Word := (x &&& y) ^^^ (~~~x &&& z)

def majority (x y z : Word) : Word := (x &&& y) ^^^ (x &&& z) ^^^ (y &&& z)

/-- `n` bytes, the most significant first. -/
def bytes (n x : ℕ) : List ℕ :=
  (List.range n).map fun i => x / 256 ^ (n - 1 - i) % 256

def word (bs : List ℕ) : Word := BitVec.ofNat 32 (bs.foldl (fun x b => x * 256 + b) 0)

/-- The message, a one bit, zeros, and the length in bits, up to a multiple of 64 bytes. -/
def pad (message : List ℕ) : List ℕ :=
  message ++ [128] ++ List.replicate ((119 - message.length % 64) % 64) 0 ++
    bytes 8 (8 * message.length)

/-- `n` more words of the schedule; the words come with the latest first. -/
def extend : ℕ → List Word → List Word
  | 0, ws => ws
  | n + 1, ws =>
    let w i := ws.getD (i - 1) 0
    let s₀ := (w 15).rotateRight 7 ^^^ (w 15).rotateRight 18 ^^^ w 15 >>> 3
    let s₁ := (w 2).rotateRight 17 ^^^ (w 2).rotateRight 19 ^^^ w 2 >>> 10
    extend n ((w 16 + s₀ + w 7 + s₁) :: ws)

def round (x : Hash) (constant w : Word) : Hash :=
  let s₁ := x.e.rotateRight 6 ^^^ x.e.rotateRight 11 ^^^ x.e.rotateRight 25
  let t₁ := x.h + s₁ + choose x.e x.f x.g + constant + w
  let s₀ := x.a.rotateRight 2 ^^^ x.a.rotateRight 13 ^^^ x.a.rotateRight 22
  ⟨t₁ + (s₀ + majority x.a x.b x.c), x.a, x.b, x.c, x.d + t₁, x.e, x.f, x.g⟩

/-- One block of sixteen words. -/
def compress (x : Hash) (block : List Word) : Hash :=
  ((constants.zip (extend 48 block.reverse).reverse).foldl (fun y r => round y r.1 r.2) x).add x

/-- The words of `n` bytes. -/
def words : ℕ → List ℕ → List Word
  | 0, _ => []
  | n + 1, bs => word (bs.take 4) :: words n (bs.drop 4)

def blocks : ℕ → List ℕ → Hash → Hash
  | 0, _, x => x
  | n + 1, bs, x => blocks n (bs.drop 64) (compress x (words 16 bs))

def hash (message : List ℕ) : List ℕ :=
  let padded := pad message
  (blocks (padded.length / 64) padded initial).words.flatMap fun w => bytes 4 w.toNat

def hexDigit (n : ℕ) : Char := "0123456789abcdef".toList.getD n '0'

end Civicos.Library.Sha256

namespace Civicos.Library

open Sha256

/-- `hashlib.sha256(text.encode()).hexdigest()` -/
def sha256 (text : String) : String :=
  let message := text.toList.flatMap String.utf8EncodeChar
  String.ofList ((Sha256.hash (message.map UInt8.toNat)).flatMap fun b =>
    [hexDigit (b / 16), hexDigit (b % 16)])

theorem sha256_ne_empty (text : String) : sha256 text ≠ "" := by
  have hbyte : ∃ i, i < 4 := ⟨0, by decide⟩
  simpa [sha256, Sha256.hash, Hash.words, bytes] using hbyte

example : sha256 "abc" = "ba7816bf8f01cfea414140de5dae2223b00361a396177a9cb410ff61f20015ad" := by
  decide +kernel

end Civicos.Library
