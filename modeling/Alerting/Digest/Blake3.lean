/-!
# The BLAKE3 digest

`Blake3.digest` is the 32-byte BLAKE3 digest of a sequence of bytes. The input is cut into chunks of 1024 bytes,
each chunk is compressed block by block into a chaining value, and the chaining values are joined pairwise in a
binary tree whose left subtrees are complete. The last compression of all is marked as the root.
-/

namespace Alerting.Blake3

/-- Eight words that one compression hands to the next. -/
abbrev ChainingValue := Vector UInt32 8

/-- A block of 64 bytes as words, the lowest byte first. -/
abbrev Block := Vector UInt32 16

/-- The chaining value before the first block. -/
def initial : ChainingValue :=
  #v[0x6A09E667, 0xBB67AE85, 0x3C6EF372, 0xA54FF53A, 0x510E527F, 0x9B05688C, 0x1F83D9AB, 0x5BE0CD19]

/-! ## Compression -/

/-- The word turned right by `n` bits. -/
def rotateRight (x n : UInt32) : UInt32 := x >>> n ||| x <<< (32 - n)

/-- Mixes two message words into four words of the state. -/
def mix (s : Block) (a b c d : Fin 16) (x y : UInt32) : Block :=
  let s := s.set a (s[a] + s[b] + x)
  let s := s.set d (rotateRight (s[d] ^^^ s[a]) 16)
  let s := s.set c (s[c] + s[d])
  let s := s.set b (rotateRight (s[b] ^^^ s[c]) 12)
  let s := s.set a (s[a] + s[b] + y)
  let s := s.set d (rotateRight (s[d] ^^^ s[a]) 8)
  let s := s.set c (s[c] + s[d])
  s.set b (rotateRight (s[b] ^^^ s[c]) 7)

/-- One round: the columns of the state, then its diagonals. -/
def round (s m : Block) : Block :=
  let s := mix s 0 4 8 12 m[0] m[1]
  let s := mix s 1 5 9 13 m[2] m[3]
  let s := mix s 2 6 10 14 m[4] m[5]
  let s := mix s 3 7 11 15 m[6] m[7]
  let s := mix s 0 5 10 15 m[8] m[9]
  let s := mix s 1 6 11 12 m[10] m[11]
  let s := mix s 2 7 8 13 m[12] m[13]
  mix s 3 4 9 14 m[14] m[15]

/-- The order of the message words in the next round. -/
def permute (m : Block) : Block :=
  #v[m[2], m[6], m[3], m[10], m[7], m[0], m[4], m[13], m[1], m[11], m[12], m[5], m[9], m[14], m[15], m[8]]

/-- Some rounds, with the message words permuted in between. -/
def rounds : Nat → Block → Block → Block
  | 0, s, _ => s
  | n + 1, s, m => rounds n (round s m) (permute m)

/-- What a compression is told about its block. -/
structure Role where
  counter : UInt64
  length : UInt32
  flags : UInt32

/-- The compression of one block. -/
def compress (cv : ChainingValue) (m : Block) (role : Role) : ChainingValue :=
  let s : Block :=
    #v[cv[0], cv[1], cv[2], cv[3], cv[4], cv[5], cv[6], cv[7], initial[0], initial[1], initial[2], initial[3],
      role.counter.toUInt32, (role.counter >>> 32).toUInt32, role.length, role.flags]
  let s := rounds 7 s m
  #v[s[0] ^^^ s[8], s[1] ^^^ s[9], s[2] ^^^ s[10], s[3] ^^^ s[11], s[4] ^^^ s[12], s[5] ^^^ s[13], s[6] ^^^ s[14],
    s[7] ^^^ s[15]]

def chunkStart : UInt32 := 1

def chunkEnd : UInt32 := 2

/-- The flag of a block that joins two subtrees. -/
def parent : UInt32 := 4

def root : UInt32 := 8

/-! ## Chunks -/

/-- Cuts a list into pieces of `n + 1` elements and a last piece of at most that many. -/
def pieces {α : Type} (n : Nat) (xs : List α) : List (List α) :=
  if xs.length ≤ n + 1 then [xs] else xs.take (n + 1) :: pieces n (xs.drop (n + 1))
termination_by xs.length
decreasing_by simp only [List.length_drop]; omega

/-- The word of four bytes, the lowest first; missing bytes are zero. -/
def word (bytes : List UInt8) : UInt32 := bytes.foldr (fun b w => w <<< 8 ||| b.toUInt32) 0

/-- The block of up to 64 bytes. -/
def block (bytes : List UInt8) : Block := Vector.ofFn fun i => word ((bytes.drop (4 * i.val)).take 4)

/-- Compresses the blocks of a chunk one after the other; `last` is added to the flags of the last one. -/
def chainBlocks (counter : UInt64) (last : UInt32) : UInt32 → ChainingValue → List (List UInt8) → ChainingValue
  | _, cv, [] => cv
  | first, cv, [b] => compress cv (block b) ⟨counter, UInt32.ofNat b.length, first ||| chunkEnd ||| last⟩
  | first, cv, b :: bs =>
    chainBlocks counter last 0 (compress cv (block b) ⟨counter, UInt32.ofNat b.length, first⟩) bs

/-- The chaining value of a chunk. -/
def chunk (counter : UInt64) (last : UInt32) (bytes : List UInt8) : ChainingValue :=
  chainBlocks counter last chunkStart initial (pieces 63 bytes)

/-! ## The tree -/

/-- The greatest power of two below `n`, for `n` of at least two. -/
def leftSize (n : Nat) : Nat := Nat.pow 2 (Nat.log2 (n - 1))

/-- The left part of a tree is not empty and not all of it. -/
theorem leftSize_lt {n : Nat} (h : 2 ≤ n) : 0 < leftSize n ∧ leftSize n < n := by
  refine ⟨Nat.two_pow_pos _, ?_⟩
  have : Nat.pow 2 (Nat.log2 (n - 1)) ≤ n - 1 := Nat.log2_self_le (by omega)
  unfold leftSize
  omega

/-- The chaining value of the tree over some chunks, the first of which has the given number. -/
def tree (counter : Nat) (last : UInt32) (chunks : List (List UInt8)) : ChainingValue :=
  if _h : 2 ≤ chunks.length then
    let k := leftSize chunks.length
    let l := tree counter 0 (chunks.take k)
    let r := tree (counter + k) 0 (chunks.drop k)
    let m : Block :=
      #v[l[0], l[1], l[2], l[3], l[4], l[5], l[6], l[7], r[0], r[1], r[2], r[3], r[4], r[5], r[6], r[7]]
    compress initial m ⟨0, 64, parent ||| last⟩
  else chunk (UInt64.ofNat counter) last (chunks.headD [])
termination_by chunks.length
decreasing_by
  · have := leftSize_lt _h
    simp only [List.length_take]; omega
  · have := leftSize_lt _h
    simp only [List.length_drop]; omega

/-- The four bytes of a word, the lowest first. -/
def wordBytes (w : UInt32) : List UInt8 :=
  [w.toUInt8, (w >>> 8).toUInt8, (w >>> 16).toUInt8, (w >>> 24).toUInt8]

/-- The 32 bytes of the digest. -/
def digest (bytes : List UInt8) : List UInt8 := (tree 0 root (pieces 1023 bytes)).toList.flatMap wordBytes

end Alerting.Blake3
