/-!
# TokenSale.Digest.Blocks

How a message is laid out before it is digested: a one bit, zeros, and the
bit length in eight bytes make it a whole number of blocks of sixteen
big-endian words.
-/

namespace TokenSale.Digest

/-- The `width` lowest bytes of `n`, the highest first. -/
def bigEndian (width n : Nat) : List UInt8 :=
  (List.range width).reverse.map fun i => UInt8.ofNat (n / Nat.pow 256 i)

/-- There are `width` of them. -/
@[simp] theorem length_bigEndian (width n : Nat) : (bigEndian width n).length = width := by
  simp [bigEndian]

/-- A message filled up to a multiple of 64 bytes. -/
def fill (msg : List UInt8) : List UInt8 :=
  msg ++ [0x80] ++ List.replicate ((119 - msg.length % 64) % 64) 0 ++
    bigEndian 8 (8 * msg.length)

/-- Big-endian words; a rest of fewer than four bytes is dropped. -/
def words : List UInt8 → List UInt32
  | a :: b :: c :: d :: rest =>
    ((a.toUInt32 <<< 24) ||| (b.toUInt32 <<< 16) ||| (c.toUInt32 <<< 8) ||| d.toUInt32) ::
      words rest
  | _ => []

/-- The bytes of a word, the highest first. -/
def bytesOfWord (w : UInt32) : List UInt8 := bigEndian 4 w.toNat

/-- Groups of sixteen words; a rest of fewer is dropped. -/
def blocks (ws : List UInt32) : List (Array UInt32) :=
  if _h : ws.length < 16 then []
  else (ws.take 16).toArray :: blocks (ws.drop 16)
termination_by ws.length
decreasing_by simp only [List.length_drop]; omega

/-- The blocks of a message. -/
def blocksOf (msg : List UInt8) : List (Array UInt32) := blocks (words (fill msg))

/-- A word turned left by `n` bits, `n` between 1 and 31. -/
def rotateLeft (w : UInt32) (n : UInt32) : UInt32 := (w <<< n) ||| (w >>> (32 - n))

/-- A word turned right by `n` bits, `n` between 1 and 31. -/
def rotateRight (w : UInt32) (n : UInt32) : UInt32 := (w >>> n) ||| (w <<< (32 - n))

end TokenSale.Digest
