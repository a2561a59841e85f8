namespace Commonplace
namespace Checksum

/-!
# Checksums

The checksum of a file is its BLAKE3 digest.  The bytes are cut into chunks and the chunks into
blocks; the chunks are the leaves of a binary tree, and the digest is taken at its root.
-/

/-- Eight words that stand for what was hashed so far. -/
abbrev Chain :=
  Vector UInt32 8

abbrev Block :=
  Vector UInt32 16

/-- The words that every chain starts with. -/
def initial : Chain :=
  #v[0x6A09E667, 0xBB67AE85, 0x3C6EF372, 0xA54FF53A, 0x510E527F, 0x9B05688C, 0x1F83D9AB,
    0x5BE0CD19]

/-- The mark of the first block of a chunk. -/
def chunkStart : UInt32 :=
  1

/-- The mark of the last block of a chunk. -/
def chunkEnd : UInt32 :=
  2

/-- The mark of an inner node of the tree. -/
def innerNode : UInt32 :=
  4

/-- The mark of the root of the tree. -/
def root : UInt32 :=
  8

/-- Turns the bits of a word to the right. -/
def rotate (word count : UInt32) : UInt32 :=
  (word >>> count) ||| (word <<< (32 - count))

/-- Mixes two words of a block into four words of the state. -/
def mix (state : Block) (a b c d : Fin 16) (first second : UInt32) : Block :=
  let state := state.set a (state[a] + state[b] + first)
  let state := state.set d (rotate (state[d] ^^^ state[a]) 16)
  let state := state.set c (state[c] + state[d])
  let state := state.set b (rotate (state[b] ^^^ state[c]) 12)
  let state := state.set a (state[a] + state[b] + second)
  let state := state.set d (rotate (state[d] ^^^ state[a]) 8)
  let state := state.set c (state[c] + state[d])
  state.set b (rotate (state[b] ^^^ state[c]) 7)

/-- One round: the columns of the state, then its diagonals. -/
def round (state words : Block) : Block :=
  let state := mix state 0 4 8 12 words[0] words[1]
  let state := mix state 1 5 9 13 words[2] words[3]
  let state := mix state 2 6 10 14 words[4] words[5]
  let state := mix state 3 7 11 15 words[6] words[7]
  let state := mix state 0 5 10 15 words[8] words[9]
  let state := mix state 1 6 11 12 words[10] words[11]
  let state := mix state 2 7 8 13 words[12] words[13]
  mix state 3 4 9 14 words[14] words[15]

/-- The order in which the words of a block are used in the next round. -/
def permute (words : Block) : Block :=
  #v[words[2], words[6], words[3], words[10], words[7], words[0], words[4], words[13], words[1],
    words[11], words[12], words[5], words[9], words[14], words[15], words[8]]

def rounds : Nat -> Block -> Block -> Block
  | 0, state, _ => state
  | count + 1, state, words => rounds count (round state words) (permute words)

/-- A node whose chain is not computed yet, so that it can still become the root. -/
structure Pending where
  chain : Chain
  words : Block
  counter : UInt64
  length : UInt32
  marks : UInt32

/-- The chain of a node. -/
def Pending.compress (node : Pending) : Chain :=
  let chain := node.chain
  let state : Block := #v[chain[0], chain[1], chain[2], chain[3], chain[4], chain[5], chain[6],
    chain[7], initial[0], initial[1], initial[2], initial[3], node.counter.toUInt32,
    (node.counter >>> 32).toUInt32, node.length, node.marks]
  let state := rounds 7 state node.words
  #v[state[0] ^^^ state[8], state[1] ^^^ state[9], state[2] ^^^ state[10],
    state[3] ^^^ state[11], state[4] ^^^ state[12], state[5] ^^^ state[13],
    state[6] ^^^ state[14], state[7] ^^^ state[15]]

/-- The word of four bytes, the lowest first. -/
def wordOf (bytes : List UInt8) (position : Nat) : UInt32 :=
  let byte := fun (index : Nat) => (bytes.getD (4 * position + index) 0).toUInt32
  byte 0 ||| (byte 1 <<< 8) ||| (byte 2 <<< 16) ||| (byte 3 <<< 24)

/-- The words of a block, filled up with zeros. -/
def wordsOf (bytes : List UInt8) : Block :=
  Vector.ofFn fun position => wordOf bytes position.val

/-- Cuts bytes into pieces of one size.  Without bytes there is one empty piece. -/
def pieces (size : Nat) : Nat -> List UInt8 -> List (List UInt8)
  | 0, bytes => [bytes]
  | budget + 1, bytes =>
      if bytes.length ≤ size then [bytes]
      else bytes.take size :: pieces size budget (bytes.drop size)

/-- The node of a chunk, from its blocks. -/
def chunkFrom (counter : UInt64) (chain : Chain) (marks : UInt32) :
    List (List UInt8) -> Pending
  | [] => ⟨chain, wordsOf [], counter, 0, marks ||| chunkEnd⟩
  | [last] => ⟨chain, wordsOf last, counter, UInt32.ofNat last.length, marks ||| chunkEnd⟩
  | block :: rest =>
      let node : Pending := ⟨chain, wordsOf block, counter, UInt32.ofNat block.length, marks⟩
      chunkFrom counter node.compress 0 rest

def chunk (counter : Nat) (bytes : List UInt8) : Pending :=
  chunkFrom (UInt64.ofNat counter) initial chunkStart (pieces 64 16 bytes)

/-- The node above two chains. -/
def parent (left right : Chain) : Pending :=
  ⟨initial, left ++ right, 0, 64, innerNode⟩

/-- Joins neighbours; a node without a neighbour is kept. -/
def joinPairs : List Pending -> List Pending
  | left :: right :: rest => parent left.compress right.compress :: joinPairs rest
  | nodes => nodes

/-- Joins neighbours until one node is left. -/
def joinAll : Nat -> List Pending -> Option Pending
  | _, [node] => some node
  | 0, _ => none
  | budget + 1, nodes => joinAll budget (joinPairs nodes)

/-- The hexadecimal digits of a word, its lowest byte first. -/
def wordText (word : UInt32) : List Char :=
  (List.range 4).flatMap fun position =>
    let byte := (word >>> UInt32.ofNat (8 * position)).toNat % 256
    [Nat.digitChar (byte / 16), Nat.digitChar (byte % 16)]

def ofBytes (bytes : List UInt8) : String :=
  let chunks := pieces 1024 (bytes.length / 1024 + 1) bytes
  let nodes := chunks.zipIdx.map fun entry => chunk entry.2 entry.1
  match joinAll nodes.length nodes with
  | some node =>
      let digest := ({ node with counter := 0, marks := node.marks ||| root } : Pending).compress
      String.ofList (digest.toList.flatMap wordText)
  | none => ""

end Checksum
end Commonplace
