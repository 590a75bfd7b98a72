/-!
# Content hashes

The 64-bit XXH3 hash with seed zero, which identifies the content of a source
file. The algorithm has one formula for each range of lengths: up to three, eight
and sixteen bytes, up to 128 and 240 bytes, and longer inputs, which are folded
in stripes of 64 bytes.
-/

namespace CallAtlas.ContentHash

/-- The constants that keys are taken from. -/
def secret : ByteArray := ⟨#[
  0xb8, 0xfe, 0x6c, 0x39, 0x23, 0xa4, 0x4b, 0xbe, 0x7c, 0x01, 0x81, 0x2c, 0xf7, 0x21, 0xad, 0x1c,
  0xde, 0xd4, 0x6d, 0xe9, 0x83, 0x90, 0x97, 0xdb, 0x72, 0x40, 0xa4, 0xa4, 0xb7, 0xb3, 0x67, 0x1f,
  0xcb, 0x79, 0xe6, 0x4e, 0xcc, 0xc0, 0xe5, 0x78, 0x82, 0x5a, 0xd0, 0x7d, 0xcc, 0xff, 0x72, 0x21,
  0xb8, 0x08, 0x46, 0x74, 0xf7, 0x43, 0x24, 0x8e, 0xe0, 0x35, 0x90, 0xe6, 0x81, 0x3a, 0x26, 0x4c,
  0x3c, 0x28, 0x52, 0xbb, 0x91, 0xc3, 0x00, 0xcb, 0x88, 0xd0, 0x65, 0x8b, 0x1b, 0x53, 0x2e, 0xa3,
  0x71, 0x64, 0x48, 0x97, 0xa2, 0x0d, 0xf9, 0x4e, 0x38, 0x19, 0xef, 0x46, 0xa9, 0xde, 0xac, 0xd8,
  0xa8, 0xfa, 0x76, 0x3f, 0xe3, 0x9c, 0x34, 0x3f, 0xf9, 0xdc, 0xbb, 0xc7, 0xc7, 0x0b, 0x4f, 0x1d,
  0x8a, 0x51, 0xe0, 0x4b, 0xcd, 0xb4, 0x59, 0x31, 0xc8, 0x9f, 0x7e, 0xc9, 0xd9, 0x78, 0x73, 0x64,
  0xea, 0xc5, 0xac, 0x83, 0x34, 0xd3, 0xeb, 0xc3, 0xc5, 0x81, 0xa0, 0xff, 0xfa, 0x13, 0x63, 0xeb,
  0x17, 0x0d, 0xdd, 0x51, 0xb7, 0xf0, 0xda, 0x49, 0xd3, 0x16, 0x55, 0x26, 0x29, 0xd4, 0x68, 0x9e,
  0x2b, 0x16, 0xbe, 0x58, 0x7d, 0x47, 0xa1, 0xfc, 0x8f, 0xf8, 0xb8, 0xd1, 0x7a, 0xd0, 0x31, 0xce,
  0x45, 0xcb, 0x3a, 0x8f, 0x95, 0x16, 0x04, 0x28, 0xaf, 0xd7, 0xfb, 0xca, 0xbb, 0x4b, 0x40, 0x7e]⟩

/-- The first three 32-bit primes and the five 64-bit primes of the algorithm. -/
def prime32A : UInt64 := 0x9E3779B1
@[inherit_doc prime32A]
def prime32B : UInt64 := 0x85EBCA77
@[inherit_doc prime32A]
def prime32C : UInt64 := 0xC2B2AE3D
@[inherit_doc prime32A]
def prime64A : UInt64 := 0x9E3779B185EBCA87
@[inherit_doc prime32A]
def prime64B : UInt64 := 0xC2B2AE3D27D4EB4F
@[inherit_doc prime32A]
def prime64C : UInt64 := 0x165667B19E3779F9
@[inherit_doc prime32A]
def prime64D : UInt64 := 0x85EBCA77C2B2AE63
@[inherit_doc prime32A]
def prime64E : UInt64 := 0x27D4EB2F165667C5

/-- The byte at a position; past the end it is zero. -/
def byteAt (b : ByteArray) (i : Nat) : UInt64 :=
  if h : i < b.size then b[i].toUInt64 else 0

/-- Four bytes from position `i` on, the first one lowest. -/
def word32 (b : ByteArray) (i : Nat) : UInt64 :=
  byteAt b i ||| (byteAt b (i + 1) <<< 8) ||| (byteAt b (i + 2) <<< 16) |||
    (byteAt b (i + 3) <<< 24)

/-- Eight bytes from position `i` on, the first one lowest. -/
def word64 (b : ByteArray) (i : Nat) : UInt64 :=
  word32 b i ||| (word32 b (i + 4) <<< 32)

/-- Rotates left. -/
def rotateLeft (x : UInt64) (k : UInt64) : UInt64 := (x <<< k) ||| (x >>> (64 - k))

/-- Reverses the order of the bytes. -/
def swapBytes (x : UInt64) : UInt64 :=
  (List.range 8).foldl (fun acc i =>
    (acc <<< 8) ||| ((x >>> (8 * i).toUInt64) &&& 0xFF)) 0

/-- The two halves of the product, combined. -/
def foldedProduct (x y : UInt64) : UInt64 :=
  let p := x.toNat * y.toNat
  (p % Nat.pow 2 64).toUInt64 ^^^ (p / Nat.pow 2 64).toUInt64

/-- Spreads the bits of a hash, for longer inputs. -/
def avalanche (h : UInt64) : UInt64 :=
  let h := h ^^^ (h >>> 37)
  let h := h * 0x165667919E3779F9
  h ^^^ (h >>> 32)

/-- Spreads the bits of a hash, for the shortest inputs. -/
def avalancheShort (h : UInt64) : UInt64 :=
  let h := h ^^^ (h >>> 33)
  let h := h * prime64B
  let h := h ^^^ (h >>> 29)
  let h := h * prime64C
  h ^^^ (h >>> 32)

/-- One to three bytes. -/
def hashUpTo3 (b : ByteArray) : UInt64 :=
  let n := b.size
  let combined := (byteAt b 0 <<< 16) ||| (byteAt b (n / 2) <<< 24) ||| byteAt b (n - 1) |||
    (n.toUInt64 <<< 8)
  let flip := word32 secret 0 ^^^ word32 secret 4
  avalancheShort (combined ^^^ flip)

/-- Four to eight bytes. -/
def hashUpTo8 (b : ByteArray) : UInt64 :=
  let n := b.size
  let first := word32 b 0
  let last := word32 b (n - 4)
  let flip := word64 secret 8 ^^^ word64 secret 16
  let h := (last + (first <<< 32)) ^^^ flip
  let h := h ^^^ rotateLeft h 49 ^^^ rotateLeft h 24
  let h := h * 0x9FB21C651E98DF25
  let h := h ^^^ ((h >>> 35) + n.toUInt64)
  let h := h * 0x9FB21C651E98DF25
  h ^^^ (h >>> 28)

/-- Nine to sixteen bytes. -/
def hashUpTo16 (b : ByteArray) : UInt64 :=
  let n := b.size
  let flipLow := word64 secret 24 ^^^ word64 secret 32
  let flipHigh := word64 secret 40 ^^^ word64 secret 48
  let low := word64 b 0 ^^^ flipLow
  let high := word64 b (n - 8) ^^^ flipHigh
  avalanche (n.toUInt64 + swapBytes low + high + foldedProduct low high)

/-- Sixteen bytes from position `i` on, mixed with the key at `k`. -/
def mix16 (b : ByteArray) (i k : Nat) : UInt64 :=
  foldedProduct (word64 b i ^^^ word64 secret k) (word64 b (i + 8) ^^^ word64 secret (k + 8))

/-- Seventeen to 128 bytes. -/
def hashUpTo128 (b : ByteArray) : UInt64 :=
  let n := b.size
  let start := n.toUInt64 * prime64A
  let pairs := (n - 1) / 32 + 1
  avalanche ((List.range pairs).foldl (fun acc i =>
    acc + mix16 b (16 * i) (32 * i) + mix16 b (n - 16 * (i + 1)) (32 * i + 16)) start)

/-- From 129 to 240 bytes. -/
def hashUpTo240 (b : ByteArray) : UInt64 :=
  let n := b.size
  let start := (List.range 8).foldl (fun acc i => acc + mix16 b (16 * i) (16 * i))
    (n.toUInt64 * prime64A)
  let middle := (List.range (n / 16 - 8)).foldl (fun acc i =>
    acc + mix16 b (16 * (i + 8)) (16 * i + 3)) (avalanche start)
  avalanche (middle + mix16 b (n - 16) 119)

/-- The accumulators a long input starts with. -/
def startLanes : Array UInt64 :=
  #[prime32C, prime64A, prime64B, prime64C, prime64D, prime32B, prime64E, prime32A]

/-- A lane's value; there are eight lanes. -/
def lane (lanes : Array UInt64) (i : Nat) : UInt64 := (lanes[i]?).getD 0

/-- Folds the 64 bytes from position `i` on into the lanes, with the key at
`k`. -/
def foldStripe (b : ByteArray) (i k : Nat) (lanes : Array UInt64) : Array UInt64 :=
  (Array.range 8).map fun (j : Nat) =>
    let keyed : UInt64 := word64 b (i + 8 * j) ^^^ word64 secret (k + 8 * j)
    let neighbour : UInt64 := word64 b (i + 8 * (if j % 2 == 0 then j + 1 else j - 1))
    lane lanes j + neighbour + (keyed &&& (0xFFFFFFFF : UInt64)) * (keyed >>> (32 : UInt64))

/-- Scrambles the lanes between two blocks. -/
def scramble (lanes : Array UInt64) : Array UInt64 :=
  (Array.range 8).map fun (j : Nat) =>
    let acc : UInt64 := lane lanes j
    ((acc ^^^ (acc >>> 47)) ^^^ word64 secret (192 - 64 + 8 * j)) * prime32A

/-- Merges the lanes with the keys from `k` on. -/
def mergeLanes (lanes : Array UInt64) (k : Nat) (start : UInt64) : UInt64 :=
  avalanche ((List.range 4).foldl (fun acc i =>
    acc + foldedProduct (lane lanes (2 * i) ^^^ word64 secret (k + 16 * i))
      (lane lanes (2 * i + 1) ^^^ word64 secret (k + 16 * i + 8))) start)

/-- More than 240 bytes: blocks of sixteen stripes, the keys moving by eight
bytes from one stripe to the next. -/
def hashLong (b : ByteArray) : UInt64 :=
  let n := b.size
  let stripesPerBlock := (192 - 64) / 8
  let blockSize := 64 * stripesPerBlock
  let blocks := (n - 1) / blockSize
  let foldStripes (start count : Nat) (lanes : Array UInt64) : Array UInt64 :=
    (List.range count).foldl (fun acc s => foldStripe b (start + 64 * s) (8 * s) acc) lanes
  let lanes := (List.range blocks).foldl (fun acc k =>
    scramble (foldStripes (k * blockSize) stripesPerBlock acc)) startLanes
  let stripes := (n - 1 - blockSize * blocks) / 64
  let lanes := foldStripes (blocks * blockSize) stripes lanes
  let lanes := foldStripe b (n - 64) (192 - 64 - 7) lanes
  mergeLanes lanes 11 (n.toUInt64 * prime64A)

/-- The hash of some bytes. -/
def hash (b : ByteArray) : UInt64 :=
  if b.size == 0 then avalancheShort (word64 secret 56 ^^^ word64 secret 64)
  else if b.size ≤ 3 then hashUpTo3 b
  else if b.size ≤ 8 then hashUpTo8 b
  else if b.size ≤ 16 then hashUpTo16 b
  else if b.size ≤ 128 then hashUpTo128 b
  else if b.size ≤ 240 then hashUpTo240 b
  else hashLong b

/-- A hash as sixteen hexadecimal digits. -/
def hex (h : UInt64) : String :=
  let digits := Nat.toDigits 16 h.toNat
  String.ofList (List.replicate (16 - digits.length) '0' ++ digits)

/-- The hash of a text, which is that of its UTF-8 bytes. -/
def ofText (s : String) : UInt64 := hash s.toUTF8

end CallAtlas.ContentHash
