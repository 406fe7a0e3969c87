/-!
# BLAKE3

The 256-bit BLAKE3 digest of a byte sequence. The bytes are cut into chunks of 1024, the chunks are
the leaves of a binary tree whose left subtrees are complete and as large as possible, and every
node is a block waiting to be compressed (`Node`): as an inner node it yields a chaining value, as
the root the digest.
-/

namespace RoutePlan.Blake3

/-- A chaining value. -/
abbrev Chain := Vector UInt32 8

/-- A message block, and the state of the compression function. -/
abbrev Block := Vector UInt32 16

def initial : Chain :=
  #v[0x6A09E667, 0xBB67AE85, 0x3C6EF372, 0xA54FF53A, 0x510E527F, 0x9B05688C, 0x1F83D9AB, 0x5BE0CD19]

def chunkStart : UInt32 := 1
def chunkEnd : UInt32 := 2
def parent : UInt32 := 4
def root : UInt32 := 8

def rotateRight (x : UInt32) (n : UInt32) : UInt32 := (x >>> n) ||| (x <<< (32 - n))

/-- The quarter round: mixes two message words into a column or a diagonal of the state. -/
def mix (s : Block) (a b c d : Fin 16) (x y : UInt32) : Block :=
  let va := s[a] + s[b] + x
  let vd := rotateRight (s[d] ^^^ va) 16
  let vc := s[c] + vd
  let vb := rotateRight (s[b] ^^^ vc) 12
  let va := va + vb + y
  let vd := rotateRight (vd ^^^ va) 8
  let vc := vc + vd
  let vb := rotateRight (vb ^^^ vc) 7
  (((s.set a va).set b vb).set c vc).set d vd

/-- One round: the four columns, then the four diagonals. -/
def round (s m : Block) : Block :=
  let s := mix s 0 4 8 12 m[0] m[1]
  let s := mix s 1 5 9 13 m[2] m[3]
  let s := mix s 2 6 10 14 m[4] m[5]
  let s := mix s 3 7 11 15 m[6] m[7]
  let s := mix s 0 5 10 15 m[8] m[9]
  let s := mix s 1 6 11 12 m[10] m[11]
  let s := mix s 2 7 8 13 m[12] m[13]
  mix s 3 4 9 14 m[14] m[15]

/-- The order in which the next round takes the message words. -/
def permute (m : Block) : Block :=
  #v[m[2], m[6], m[3], m[10], m[7], m[0], m[4], m[13], m[1], m[11], m[12], m[5], m[9], m[14],
    m[15], m[8]]

/-- `n` rounds, the message words permuted after each. -/
def rounds : Nat → Block → Block → Block
  | 0, s, _ => s
  | n + 1, s, m => rounds n (round s m) (permute m)

/-- A block waiting to be compressed. -/
structure Node where
  chain : Chain
  block : Block
  counter : UInt64
  length : UInt32
  flags : UInt32

/-- The compression function with additional flags. -/
def Node.compress (n : Node) (flags : UInt32) : Chain :=
  let h := n.chain
  let s : Block :=
    #v[h[0], h[1], h[2], h[3], h[4], h[5], h[6], h[7], initial[0], initial[1], initial[2],
      initial[3], n.counter.toUInt32, (n.counter >>> 32).toUInt32, n.length, n.flags ||| flags]
  let s := rounds 7 s n.block
  #v[s[0] ^^^ s[8], s[1] ^^^ s[9], s[2] ^^^ s[10], s[3] ^^^ s[11], s[4] ^^^ s[12], s[5] ^^^ s[13],
    s[6] ^^^ s[14], s[7] ^^^ s[15]]

/-- The little-endian words of a byte sequence, the last one filled up with zeros. -/
def littleEndian : List UInt8 → List UInt32
  | a :: b :: c :: d :: rest =>
    (a.toUInt32 ||| (b.toUInt32 <<< 8) ||| (c.toUInt32 <<< 16) ||| (d.toUInt32 <<< 24)) ::
      littleEndian rest
  | [a, b, c] => [a.toUInt32 ||| (b.toUInt32 <<< 8) ||| (c.toUInt32 <<< 16)]
  | [a, b] => [a.toUInt32 ||| (b.toUInt32 <<< 8)]
  | [a] => [a.toUInt32]
  | [] => []

/-- A block of at most 64 bytes, filled up with zeros. -/
def blockOf (bytes : List UInt8) : Block :=
  let words := (littleEndian bytes).toArray
  Vector.ofFn fun i => words.getD i 0

/-- The last node of a chunk, whose first node gets `flags`. -/
def chunkNode (chain : Chain) (counter : UInt64) (flags : UInt32) (bytes : List UInt8) : Node :=
  if bytes.length ≤ 64 then
    ⟨chain, blockOf bytes, counter, bytes.length.toUInt32, flags ||| chunkEnd⟩
  else
    let node : Node := ⟨chain, blockOf (bytes.take 64), counter, 64, flags⟩
    chunkNode (node.compress 0) counter 0 (bytes.drop 64)
termination_by bytes.length
decreasing_by simp only [List.length_drop]; omega

def chunkLength : Nat := 1024

/-- How many chunks the left subtree over `length` bytes has: the largest power of two that leaves
at least one byte to the right. -/
def leftChunks (length : Nat) : Nat := Nat.pow 2 ((length - 1) / chunkLength).log2

/-- The left subtree has a chunk. -/
theorem leftChunks_pos (length : Nat) : 0 < leftChunks length := Nat.two_pow_pos _

/-- The left subtree is smaller than the whole. -/
theorem leftChunks_mul_lt {length : Nat} (h : chunkLength < length) :
    leftChunks length * chunkLength < length := by
  have hpos : (length - 1) / chunkLength ≠ 0 := by
    have := (Nat.div_pos_iff (a := length - 1) (b := chunkLength)).2
      ⟨by decide, by omega⟩
    omega
  have hle : leftChunks length ≤ (length - 1) / chunkLength := Nat.log2_self_le hpos
  have hmul := Nat.mul_le_mul_right chunkLength hle
  have hdiv := Nat.div_mul_le_self (length - 1) chunkLength
  have : 0 < chunkLength := by decide
  omega

/-- The root node of the tree over the bytes, whose first chunk has number `counter`. -/
def treeNode (counter : Nat) (bytes : List UInt8) : Node :=
  if _ : bytes.length ≤ chunkLength then
    chunkNode initial counter.toUInt64 chunkStart bytes
  else
    let n := leftChunks bytes.length
    let left := (treeNode counter (bytes.take (n * chunkLength))).compress 0
    let right := (treeNode (counter + n) (bytes.drop (n * chunkLength))).compress 0
    ⟨initial, left ++ right, 0, 64, parent⟩
termination_by bytes.length
decreasing_by
  all_goals
    have : leftChunks bytes.length * chunkLength < bytes.length := leftChunks_mul_lt (by omega)
    have := Nat.mul_pos (leftChunks_pos bytes.length) (show 0 < chunkLength by decide)
    simp only [List.length_take, List.length_drop]
    omega

def hexDigits (n : Nat) : List Char := [Nat.digitChar (n / 16 % 16), Nat.digitChar (n % 16)]

/-- The eight hexadecimal digits of a word, its lowest byte first. -/
def wordHex (w : UInt32) : List Char :=
  let n := w.toNat
  hexDigits n ++ hexDigits (n >>> 8) ++ hexDigits (n >>> 16) ++ hexDigits (n >>> 24)

/-- The digest of a byte sequence, as 64 lower-case hexadecimal digits. -/
def digest (bytes : List UInt8) : String :=
  String.ofList (((treeNode 0 bytes).compress root).toList.flatMap wordHex)

end RoutePlan.Blake3

namespace RoutePlan

/-- The BLAKE3 digest of the UTF-8 bytes of a text. -/
def hashText (s : String) : String := Blake3.digest s.toUTF8.toList

end RoutePlan
