import Mathlib.Algebra.Group.Nat.Defs
import Mathlib.Data.List.Basic

/-!
# SHA-256

The digest that the service stores instead of a token or a request, over the bytes of
the UTF-8 encoding of a text. Words are naturals below `2 ^ 32`.
-/

namespace DotBackend.Data

namespace Sha256

/-- A sum of words. -/
def add (a b : Nat) : Nat :=
  (a + b) % 2 ^ 32

/-- Rotation of a word to the right. -/
def rotate (n word : Nat) : Nat :=
  (word >>> n) ||| ((word <<< (32 - n)) % 2 ^ 32)

/-- The fractional parts of the cube roots of the first primes. -/
def constants : List Nat :=
  [0x428a2f98, 0x71374491, 0xb5c0fbcf, 0xe9b5dba5, 0x3956c25b, 0x59f111f1, 0x923f82a4, 0xab1c5ed5,
    0xd807aa98, 0x12835b01, 0x243185be, 0x550c7dc3, 0x72be5d74, 0x80deb1fe, 0x9bdc06a7, 0xc19bf174,
    0xe49b69c1, 0xefbe4786, 0x0fc19dc6, 0x240ca1cc, 0x2de92c6f, 0x4a7484aa, 0x5cb0a9dc, 0x76f988da,
    0x983e5152, 0xa831c66d, 0xb00327c8, 0xbf597fc7, 0xc6e00bf3, 0xd5a79147, 0x06ca6351, 0x14292967,
    0x27b70a85, 0x2e1b2138, 0x4d2c6dfc, 0x53380d13, 0x650a7354, 0x766a0abb, 0x81c2c92e, 0x92722c85,
    0xa2bfe8a1, 0xa81a664b, 0xc24b8b70, 0xc76c51a3, 0xd192e819, 0xd6990624, 0xf40e3585, 0x106aa070,
    0x19a4c116, 0x1e376c08, 0x2748774c, 0x34b0bcb5, 0x391c0cb3, 0x4ed8aa4a, 0x5b9cca4f, 0x682e6ff3,
    0x748f82ee, 0x78a5636f, 0x84c87814, 0x8cc70208, 0x90befffa, 0xa4506ceb, 0xbef9a3f7, 0xc67178f2]

/-- The working variables of a block. -/
structure Vars where
  a : Nat
  b : Nat
  c : Nat
  d : Nat
  e : Nat
  f : Nat
  g : Nat
  h : Nat

/-- The fractional parts of the square roots of the first primes. -/
def initial : Vars :=
  ⟨0x6a09e667, 0xbb67ae85, 0x3c6ef372, 0xa54ff53a, 0x510e527f, 0x9b05688c, 0x1f83d9ab, 0x5be0cd19⟩

/-- The word that follows sixteen words of the message schedule. -/
def scheduled (window : List Nat) : Nat :=
  let s0 := window.getD 1 0
  let s1 := window.getD 14 0
  add (add (window.getD 0 0) (rotate 7 s0 ^^^ rotate 18 s0 ^^^ (s0 >>> 3)))
    (add (window.getD 9 0) (rotate 17 s1 ^^^ rotate 19 s1 ^^^ (s1 >>> 10)))

/-- One round of the compression function. -/
def round (vars : Vars) (constant word : Nat) : Vars :=
  let s1 := rotate 6 vars.e ^^^ rotate 11 vars.e ^^^ rotate 25 vars.e
  let choice := (vars.e &&& vars.f) ^^^ ((2 ^ 32 - 1 - vars.e) &&& vars.g)
  let first := add (add vars.h s1) (add (add choice constant) word)
  let s0 := rotate 2 vars.a ^^^ rotate 13 vars.a ^^^ rotate 22 vars.a
  let majority := (vars.a &&& vars.b) ^^^ (vars.a &&& vars.c) ^^^ (vars.b &&& vars.c)
  ⟨add first (add s0 majority), vars.a, vars.b, vars.c, add vars.d first, vars.e, vars.f, vars.g⟩

/-- The rounds of a block; `window` holds the next sixteen words of its schedule. -/
def rounds : List Nat → List Nat → Vars → Vars
  | [], _, vars => vars
  | constant :: constants, window, vars =>
      rounds constants (window.drop 1 ++ [scheduled window])
        (round vars constant (window.getD 0 0))

def compress (vars : Vars) (block : List Nat) : Vars :=
  let last := rounds constants block vars
  ⟨add vars.a last.a, add vars.b last.b, add vars.c last.c, add vars.d last.d,
    add vars.e last.e, add vars.f last.f, add vars.g last.g, add vars.h last.h⟩

/-- The UTF-8 encoding of a character. -/
def encodeChar (c : Char) : List Nat :=
  let n := c.toNat
  if n < 0x80 then [n]
  else if n < 0x800 then [0xc0 + n / 64, 0x80 + n % 64]
  else if n < 0x10000 then [0xe0 + n / 4096, 0x80 + n / 64 % 64, 0x80 + n % 64]
  else [0xf0 + n / 262144, 0x80 + n / 4096 % 64, 0x80 + n / 64 % 64, 0x80 + n % 64]

/-- The big-endian bytes of a number. -/
def bigEndian : Nat → Nat → List Nat
  | 0, _ => []
  | count + 1, n => bigEndian count (n / 256) ++ [n % 256]

/-- The message with a one, zeros up to a multiple of 64 bytes, and its length in bits. -/
def padded (bytes : List Nat) : List Nat :=
  bytes ++ 0x80 :: List.replicate ((119 - bytes.length % 64) % 64) 0 ++
    bigEndian 8 (8 * bytes.length)

/-- The words of a message. -/
def wordsOf : List Nat → List Nat
  | a :: b :: c :: d :: rest => (((a * 256 + b) * 256 + c) * 256 + d) :: wordsOf rest
  | _ => []

/-- The blocks of a message, of which there are at most so many. -/
def blocks : Nat → List Nat → List (List Nat)
  | 0, _ => []
  | count + 1, words =>
      if words.isEmpty then [] else words.take 16 :: blocks count (words.drop 16)

/-- The hexadecimal digits of a word. -/
def wordText : Nat → Nat → List Char
  | 0, _ => []
  | count + 1, n => wordText count (n / 16) ++ [Nat.digitChar (n % 16)]

end Sha256

open Sha256 in
/-- `hashlib.sha256(text.encode()).hexdigest()`. -/
def sha256 (text : List Char) : String :=
  let words := wordsOf (padded (text.flatMap encodeChar))
  let vars := (blocks (words.length / 16) words).foldl compress initial
  String.ofList ([vars.a, vars.b, vars.c, vars.d, vars.e, vars.f, vars.g, vars.h].flatMap
    (wordText 8))

/-- A digest has 64 digits. -/
theorem length_sha256 (text : List Char) : (sha256 text).toList.length = 64 := by
  have wordLength : ∀ count n, (Sha256.wordText count n).length = count := by
    intro count
    induction count with
    | zero => exact fun _ => rfl
    | succ count ih =>
        intro n
        rw [Sha256.wordText, List.length_append, ih, List.length_singleton]
  rw [sha256]
  simp only [String.toList_ofList, List.flatMap_cons, List.flatMap_nil, List.length_append,
    wordLength, List.length_nil]

example : sha256 "abc".toList =
    "ba7816bf8f01cfea414140de5dae2223b00361a396177a9cb410ff61f20015ad" := by
  decide

end DotBackend.Data
