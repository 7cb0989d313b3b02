/-!
# BLAKE3

The 256-bit BLAKE3 digest of a sequence of bytes.  The input is cut into chunks of 1024 bytes and
each chunk into blocks of 64 bytes; the chunks are the leaves of a binary tree whose left subtrees
are complete, and the digest is the output of the root.
-/

namespace Rollout.Digest

abbrev Chain := Vector UInt32 8

/-- Sixteen words: a message block or the state of the compression. -/
abbrev Block := Vector UInt32 16

def initial : Chain :=
  #v[0x6a09e667, 0xbb67ae85, 0x3c6ef372, 0xa54ff53a, 0x510e527f, 0x9b05688c, 0x1f83d9ab, 0x5be0cd19]

def chunkStart : UInt32 := 1
def chunkEnd : UInt32 := 2
def parentNode : UInt32 := 4
def rootNode : UInt32 := 8

def rotateRight (x n : UInt32) : UInt32 := (x >>> n) ||| (x <<< (32 - n))

def mix (s : Block) (a b c d : Fin 16) (x y : UInt32) : Block :=
  let s := s.set a (s[a] + s[b] + x)
  let s := s.set d (rotateRight (s[d] ^^^ s[a]) 16)
  let s := s.set c (s[c] + s[d])
  let s := s.set b (rotateRight (s[b] ^^^ s[c]) 12)
  let s := s.set a (s[a] + s[b] + y)
  let s := s.set d (rotateRight (s[d] ^^^ s[a]) 8)
  let s := s.set c (s[c] + s[d])
  s.set b (rotateRight (s[b] ^^^ s[c]) 7)

def round (s m : Block) : Block :=
  let s := mix s 0 4 8 12 m[0] m[1]
  let s := mix s 1 5 9 13 m[2] m[3]
  let s := mix s 2 6 10 14 m[4] m[5]
  let s := mix s 3 7 11 15 m[6] m[7]
  let s := mix s 0 5 10 15 m[8] m[9]
  let s := mix s 1 6 11 12 m[10] m[11]
  let s := mix s 2 7 8 13 m[12] m[13]
  mix s 3 4 9 14 m[14] m[15]

def wordOrder : Vector (Fin 16) 16 := #v[2, 6, 3, 10, 7, 0, 4, 13, 1, 11, 12, 5, 9, 14, 15, 8]

def permute (m : Block) : Block := wordOrder.map fun i => m[i]

/-- A number of rounds, with the message rearranged between them. -/
def rounds : Nat → Block → Block → Block
  | 0, s, _ => s
  | n + 1, s, m => rounds n (round s m) (permute m)

structure Node where
  chain : Chain
  words : Block
  counter : UInt64
  used : UInt32
  flags : UInt32

/-- The compression of a node, with further flags; the first half of the final state. -/
def Node.compress (node : Node) (flags : UInt32) : Chain :=
  let start : Block := #v[node.chain[0], node.chain[1], node.chain[2], node.chain[3],
    node.chain[4], node.chain[5], node.chain[6], node.chain[7],
    initial[0], initial[1], initial[2], initial[3],
    node.counter.toUInt32, (node.counter >>> 32).toUInt32, node.used, node.flags ||| flags]
  let final := rounds 7 start node.words
  #v[final[0] ^^^ final[8], final[1] ^^^ final[9], final[2] ^^^ final[10], final[3] ^^^ final[11],
    final[4] ^^^ final[12], final[5] ^^^ final[13], final[6] ^^^ final[14], final[7] ^^^ final[15]]

/-- The little-endian word made of the four bytes at a position; missing bytes are zero. -/
def wordAt (bytes : List UInt8) (index : Nat) : UInt32 :=
  let byte (i : Nat) : UInt32 := (bytes.getD (4 * index + i) 0).toUInt32
  byte 0 ||| (byte 1 <<< 8) ||| (byte 2 <<< 16) ||| (byte 3 <<< 24)

def blockWords (bytes : List UInt8) : Block := Vector.ofFn fun i => wordAt bytes i.val

/-- Cuts a list into pieces of a size; the last piece may be shorter.  The first argument bounds the
number of pieces. -/
def pieces {α : Type} (size : Nat) : Nat → List α → List (List α)
  | 0, _ => []
  | n + 1, list => if list.isEmpty then [] else list.take size :: pieces size n (list.drop size)

/-- Runs through the blocks of a chunk up to the last one, which is left uncompressed. -/
def chunkFrom (counter : UInt64) (flags : UInt32) (chain : Chain) : List (List UInt8) → Node
  | [] => ⟨chain, blockWords [], counter, 0, flags ||| chunkEnd⟩
  | [last] => ⟨chain, blockWords last, counter, last.length.toUInt32, flags ||| chunkEnd⟩
  | block :: rest =>
    let node : Node := ⟨chain, blockWords block, counter, 64, flags⟩
    chunkFrom counter 0 (node.compress 0) rest

def chunkNode (counter : Nat) (chunk : List UInt8) : Node :=
  chunkFrom counter.toUInt64 chunkStart initial (pieces 64 16 chunk)

def Node.parent (left right : Node) : Node :=
  let l := left.compress 0
  let r := right.compress 0
  ⟨initial, #v[l[0], l[1], l[2], l[3], l[4], l[5], l[6], l[7],
    r[0], r[1], r[2], r[3], r[4], r[5], r[6], r[7]], 0, 64, parentNode⟩

/-- The node above all the given ones: the left subtree holds the largest power of two of them that
leaves at least one for the right.  The first argument bounds the height. -/
def treeNode (top : Node) : Nat → List Node → Node
  | _, [] => top
  | _, [node] => node
  | 0, _ => top
  | height + 1, nodes =>
    let left := Nat.pow 2 (Nat.log2 (nodes.length - 1))
    (treeNode top height (nodes.take left)).parent (treeNode top height (nodes.drop left))

def wordBytes (w : UInt32) : List UInt8 :=
  [w.toUInt8, (w >>> 8).toUInt8, (w >>> 16).toUInt8, (w >>> 24).toUInt8]

def blake3 (input : List UInt8) : List UInt8 :=
  let chunks := pieces 1024 input.length input
  let nodes := chunks.mapIdx chunkNode
  let top := chunkNode 0 (chunks.headD [])
  ((treeNode top nodes.length nodes).compress rootNode).toList.flatMap wordBytes

def hexByte (b : UInt8) : List Char :=
  [Nat.digitChar (b.toNat / 16), Nat.digitChar (b.toNat % 16)]

def hex (bytes : List UInt8) : String := String.ofList (bytes.flatMap hexByte)

end Rollout.Digest
