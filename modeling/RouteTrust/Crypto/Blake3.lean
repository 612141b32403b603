import RouteTrust.Crypto.Bytes
import RouteTrust.Octets

/-!
The BLAKE3 hash with 32 bytes of output. A message is cut into chunks of 1024
bytes, each chunk is chained block by block, and the chaining values are joined
in pairs, level by level, until the root node is left.
-/
namespace RouteTrust.Crypto.Blake3

/-- A chaining value: eight words. -/
abbrev Chain := Vector UInt32 8

/-- The sixteen words of a block, or of the inner state. -/
abbrev Words := Vector UInt32 16

def initialChain : Chain :=
  #v[0x6a09e667, 0xbb67ae85, 0x3c6ef372, 0xa54ff53a, 0x510e527f, 0x9b05688c, 0x1f83d9ab, 0x5be0cd19]

/-- Where each message word of the next round comes from. -/
def wordOrder : Vector (Fin 16) 16 := #v[2, 6, 3, 10, 7, 0, 4, 13, 1, 11, 12, 5, 9, 14, 15, 8]

/-- Flags of a node of the hash tree. -/
def chunkStart : UInt32 := 1
/-- Marks the last block of a chunk. -/
def chunkEnd : UInt32 := 2
/-- Marks a node that joins two others. -/
def parentNode : UInt32 := 4
/-- Marks the node whose output is the digest. -/
def rootNode : UInt32 := 8

def rotateRight (word : UInt32) (count : UInt32) : UInt32 := (word >>> count) ||| (word <<< (32 - count))

/-- Mixes two message words into four words of the state. -/
def mix (state : Words) (a b c d : Fin 16) (x y : UInt32) : Words :=
  let va := state[a] + state[b] + x
  let vd := rotateRight (state[d] ^^^ va) 16
  let vc := state[c] + vd
  let vb := rotateRight (state[b] ^^^ vc) 12
  let va := va + vb + y
  let vd := rotateRight (vd ^^^ va) 8
  let vc := vc + vd
  let vb := rotateRight (vb ^^^ vc) 7
  (((state.set a va).set b vb).set c vc).set d vd

/-- One round: the columns, then the diagonals. -/
def round (state message : Words) : Words :=
  let state := mix state 0 4 8 12 message[0] message[1]
  let state := mix state 1 5 9 13 message[2] message[3]
  let state := mix state 2 6 10 14 message[4] message[5]
  let state := mix state 3 7 11 15 message[6] message[7]
  let state := mix state 0 5 10 15 message[8] message[9]
  let state := mix state 1 6 11 12 message[10] message[11]
  let state := mix state 2 7 8 13 message[12] message[13]
  mix state 3 4 9 14 message[14] message[15]

/-- The message words in the order of the next round. -/
def reorder (message : Words) : Words := wordOrder.map fun source => message[source]

/-- A number of rounds, the message words reordered between them. -/
def rounds : Nat → Words → Words → Words
  | 0, state, _ => state
  | count + 1, state, message => rounds count (round state message) (reorder message)

/-- A node of the hash tree before its output is drawn. -/
structure Node where
  chain : Chain
  message : Words
  counter : UInt64
  length : UInt32
  flags : UInt32

/-- The first eight output words of a node. -/
def Node.output (node : Node) (extraFlags : UInt32) : Chain :=
  let start : Words := node.chain ++
    #v[initialChain[0], initialChain[1], initialChain[2], initialChain[3],
       node.counter.toUInt32, (node.counter >>> 32).toUInt32, node.length, node.flags ||| extraFlags]
  let v := rounds 7 start node.message
  Vector.ofFn fun i : Fin 8 => v.get ⟨i.val, by omega⟩ ^^^ v.get ⟨i.val + 8, by omega⟩

/-- The words of a block of at most 64 bytes, with zero bytes after it. -/
def blockWords (block : List UInt8) : Words :=
  Vector.ofFn fun i : Fin 16 => UInt32.ofNat (littleEndian ((block.drop (4 * i.val)).take 4))

/-- The last node of a chunk, after the blocks before it are chained. -/
def chunkNode (index : UInt64) : Chain → UInt32 → List (List UInt8) → Node
  | chain, flags, [] => ⟨chain, blockWords [], index, 0, flags ||| chunkEnd⟩
  | chain, flags, [block] => ⟨chain, blockWords block, index, block.length.toUInt32, flags ||| chunkEnd⟩
  | chain, flags, block :: rest =>
    chunkNode index (Node.output ⟨chain, blockWords block, index, block.length.toUInt32, flags⟩ 0) 0 rest

/-- The node of the chunk at an index. -/
def ofChunk (index : Nat) (chunk : List UInt8) : Node :=
  chunkNode index.toUInt64 initialChain chunkStart (blocks 64 chunk)

/-- The node that joins two chaining values. -/
def join (left right : Chain) : Node := ⟨initialChain, left ++ right, 0, 64, parentNode⟩

/-- Joins neighbours; a last one without a neighbour stays. -/
def joinPairs : List Chain → List Chain
  | left :: right :: rest => (join left right).output 0 :: joinPairs rest
  | rest => rest

private theorem length_joinPairs_le (chains : List Chain) : (joinPairs chains).length ≤ chains.length := by
  fun_induction joinPairs chains with
  | case1 left right rest ih => simp only [List.length_cons]; omega
  | case2 => exact Nat.le_refl _

/-- The root node over the chaining values of two chunks or more. -/
def joinAll (first second : Chain) (rest : List Chain) : Node :=
  match _shorter : joinPairs rest with
  | [] => join first second
  | third :: others => joinAll ((join first second).output 0) third others
termination_by rest.length
decreasing_by
  have bound := length_joinPairs_le rest
  rw [_shorter, List.length_cons] at bound
  exact bound

def treeRoot (message : List UInt8) : Node :=
  match blocks 1024 message with
  | first :: second :: rest =>
    joinAll ((ofChunk 0 first).output 0) ((ofChunk 1 second).output 0)
      (rest.mapIdx fun index chunk => (ofChunk (index + 2) chunk).output 0)
  | chunks => ofChunk 0 chunks.flatten

/-- The bytes of output words, least significant byte of each word first. -/
def digestOf (words : Chain) : Digest :=
  Octets.ofFn fun i => (words.get ⟨i.val / 4, by omega⟩ >>> (8 * (i.val % 4)).toUInt32).toUInt8

def hash (message : List UInt8) : Digest := digestOf ((treeRoot message).output rootNode)

end RouteTrust.Crypto.Blake3
