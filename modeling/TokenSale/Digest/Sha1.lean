import TokenSale.Digest.Blocks

/-!
# TokenSale.Digest.Sha1

The digest SHA-1 (FIPS 180-4) of a list of bytes, twenty bytes long.  It
names things; nothing here relies on it against forgery.
-/

namespace TokenSale.Digest.Sha1

/-- The five working words. -/
structure State where
  a : UInt32
  b : UInt32
  c : UInt32
  d : UInt32
  e : UInt32

namespace State

/-- The starting words of the standard. -/
def initial : State := ⟨0x67452301, 0xefcdab89, 0x98badcfe, 0x10325476, 0xc3d2e1f0⟩

/-- Word by word, modulo 2³². -/
def add (s t : State) : State := ⟨s.a + t.a, s.b + t.b, s.c + t.c, s.d + t.d, s.e + t.e⟩

/-- The digest that the words spell. -/
def bytes (s : State) : List UInt8 := [s.a, s.b, s.c, s.d, s.e].flatMap bytesOfWord

end State

/-- The next word of the schedule. -/
def extend (w : Array UInt32) : Array UInt32 :=
  let i := w.size
  w.push (rotateLeft (w.getD (i - 3) 0 ^^^ w.getD (i - 8) 0 ^^^ w.getD (i - 14) 0 ^^^
    w.getD (i - 16) 0) 1)

/-- The eighty words that a block of sixteen is stretched to. -/
def schedule (block : Array UInt32) : Array UInt32 :=
  (List.range 64).foldl (fun w _ => extend w) block

/-- The function and the constant of round `i`. -/
def mix (i : Nat) (b c d : UInt32) : UInt32 × UInt32 :=
  if i < 20 then ((b &&& c) ||| (~~~b &&& d), 0x5a827999)
  else if i < 40 then (b ^^^ c ^^^ d, 0x6ed9eba1)
  else if i < 60 then ((b &&& c) ||| (b &&& d) ||| (c &&& d), 0x8f1bbcdc)
  else (b ^^^ c ^^^ d, 0xca62c1d6)

/-- Round `i` with its schedule word. -/
def round (s : State) (i : Nat) (w : UInt32) : State :=
  let (f, k) := mix i s.b s.c s.d
  ⟨rotateLeft s.a 5 + f + s.e + k + w, s.a, rotateLeft s.b 30, s.c, s.d⟩

/-- All rounds on one block, added to the state before it. -/
def compress (s : State) (block : Array UInt32) : State :=
  s.add (((List.range 80).zip (schedule block).toList).foldl (fun s p => round s p.1 p.2) s)

/-- The digest of a message. -/
def hash (msg : List UInt8) : List UInt8 :=
  ((blocksOf msg).foldl compress .initial).bytes

/-- A digest has twenty bytes. -/
@[simp] theorem length_hash (msg : List UInt8) : (hash msg).length = 20 := by
  simp [hash, State.bytes, bytesOfWord]

end TokenSale.Digest.Sha1
