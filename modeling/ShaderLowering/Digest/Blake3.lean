import ShaderLowering.Bytes

/-!
The BLAKE3 hash with 256 bits. The input is cut into chunks of 1024 bytes and each chunk into
blocks of 64; the chunks are the leaves of a binary tree whose left subtrees are complete. A node
is a compression that is still to be done, because the root is compressed differently from all
other nodes.
-/

namespace ShaderLowering.Blake3

abbrev Words8 := Vector UInt32 8
abbrev Words16 := Vector UInt32 16

/-- The chaining value that every chunk starts from. -/
def initial : Words8 :=
  #v[0x6a09e667, 0xbb67ae85, 0x3c6ef372, 0xa54ff53a, 0x510e527f, 0x9b05688c, 0x1f83d9ab,
    0x5be0cd19]

/-- What a compression is used for, as bits. -/
def chunkStart : UInt32 := 1
def chunkEnd : UInt32 := 2
def parentNode : UInt32 := 4
def rootNode : UInt32 := 8

def rotateRight (w : UInt32) (n : UInt32) : UInt32 :=
  w >>> n ||| w <<< (32 - n)

/-- Mixes two message words into four words of the state. -/
def mixFour (s : Words16) (a b c d : Fin 16) (x y : UInt32) : Words16 :=
  let s := s.set a (s[a] + s[b] + x)
  let s := s.set d (rotateRight (s[d] ^^^ s[a]) 16)
  let s := s.set c (s[c] + s[d])
  let s := s.set b (rotateRight (s[b] ^^^ s[c]) 12)
  let s := s.set a (s[a] + s[b] + y)
  let s := s.set d (rotateRight (s[d] ^^^ s[a]) 8)
  let s := s.set c (s[c] + s[d])
  s.set b (rotateRight (s[b] ^^^ s[c]) 7)

/-- One round: the four columns of the state, then its four diagonals. -/
def round (s : Words16) (m : Words16) : Words16 :=
  let s := mixFour s 0 4 8 12 m[0] m[1]
  let s := mixFour s 1 5 9 13 m[2] m[3]
  let s := mixFour s 2 6 10 14 m[4] m[5]
  let s := mixFour s 3 7 11 15 m[6] m[7]
  let s := mixFour s 0 5 10 15 m[8] m[9]
  let s := mixFour s 1 6 11 12 m[10] m[11]
  let s := mixFour s 2 7 8 13 m[12] m[13]
  mixFour s 3 4 9 14 m[14] m[15]

/-- The order of the message words in the next round. -/
def permute (m : Words16) : Words16 :=
  #v[m[2], m[6], m[3], m[10], m[7], m[0], m[4], m[13], m[1], m[11], m[12], m[5], m[9], m[14],
    m[15], m[8]]

/-- Rounds with the message permuted between them. -/
def rounds : Nat → Words16 → Words16 → Words16
  | 0, s, _ => s
  | n + 1, s, m => rounds n (round s m) (permute m)

/-- A compression that is still to be done. -/
structure Node where
  input : Words8
  block : Words16
  /-- The number of the chunk; zero for parents. -/
  counter : UInt64
  /-- How many bytes of the block count. -/
  length : UInt32
  flags : UInt32

namespace Node

/-- The compression with further flags: the words that chain to another node, which are also the
first half of the output. -/
def compress (n : Node) (flags : UInt32) : Words8 :=
  let start : Words16 := n.input ++
    #v[initial[0], initial[1], initial[2], initial[3], n.counter.toUInt32,
      (n.counter >>> 32).toUInt32, n.length, n.flags ||| flags]
  let s := rounds 7 start n.block
  #v[s[0] ^^^ s[8], s[1] ^^^ s[9], s[2] ^^^ s[10], s[3] ^^^ s[11], s[4] ^^^ s[12],
    s[5] ^^^ s[13], s[6] ^^^ s[14], s[7] ^^^ s[15]]

end Node

/-- Sixty-four bytes as words, filled up with zeros. -/
def block (bytes : Bytes) : Words16 :=
  let words := (bytes ++ List.replicate (64 - bytes.length) 0).toWords
  Vector.ofFn fun i => words.getD i 0

/-- The last block of a chunk, after the compression of those before it. -/
def chunk (counter : UInt64) (input : Words8) (flags : UInt32) (bytes : Bytes) : Node :=
  if bytes.length ≤ 64 then
    ⟨input, block bytes, counter, .ofNat bytes.length, flags ||| chunkEnd⟩
  else
    let first : Node := ⟨input, block (bytes.take 64), counter, 64, flags⟩
    chunk counter (first.compress 0) 0 (bytes.drop 64)
termination_by bytes.length
decreasing_by simp only [List.length_drop]; omega

/-- How many bytes the left subtree takes of more than one chunk: the largest power of two of
chunks that leaves something for the right. -/
def leftLength (n : Nat) : Nat :=
  1024 * Nat.pow 2 ((n - 1) / 1024).log2

theorem leftLength_pos (n : Nat) : 0 < leftLength n :=
  Nat.mul_pos (by decide) (Nat.two_pow_pos _)

theorem leftLength_lt {n : Nat} (h : 1024 < n) : leftLength n < n := by
  have hm : (n - 1) / 1024 ≠ 0 := by omega
  have hp := Nat.log2_self_le hm
  rw [leftLength, Nat.pow_eq]
  omega

/-- The node of a subtree over `bytes`, whose first chunk has number `counter`. -/
def tree (counter : Nat) (bytes : Bytes) : Node :=
  if h : bytes.length ≤ 1024 then chunk (.ofNat counter) initial chunkStart bytes
  else
    let left := leftLength bytes.length
    have : left < bytes.length := leftLength_lt (by omega)
    have : 0 < left := leftLength_pos _
    let l := (tree counter (bytes.take left)).compress 0
    let r := (tree (counter + left / 1024) (bytes.drop left)).compress 0
    ⟨initial, l ++ r, 0, 64, parentNode⟩
termination_by bytes.length
decreasing_by all_goals simp only [List.length_take, List.length_drop]; omega

/-- The hash: thirty-two bytes. -/
def hash (bytes : Bytes) : Bytes :=
  Bytes.ofWords ((tree 0 bytes).compress rootNode).toList

end ShaderLowering.Blake3
