import SceneLang.Number.Binary64

/-!
# Digests

The digest of a text stands for its contents: texts of different digests differ.
-/

namespace SceneLang.Blake3

/-! ## BLAKE3

The hash function BLAKE3 with a result of 32 bytes.  A text of bytes is cut into chunks of
1024 bytes, a chunk into blocks of 64 bytes.  Blocks are compressed one after another, chunks
are joined in a binary tree whose left part is a complete tree.
-/

def startWords : List UInt32 :=
  [0x6A09E667, 0xBB67AE85, 0x3C6EF372, 0xA54FF53A, 0x510E527F, 0x9B05688C, 0x1F83D9AB, 0x5BE0CD19]

/-- Where each word of a block goes after a round. -/
def wordOrder : List Nat :=
  [2, 6, 3, 10, 7, 0, 4, 13, 1, 11, 12, 5, 9, 14, 15, 8]

/-! ## Compression -/

def rotateRight (x : UInt32) (count : UInt32) : UInt32 :=
  (x >>> count) ||| (x <<< (32 - count))

/-- The sixteen words of the state as four rows. -/
structure Rows where
  a : List UInt32
  b : List UInt32
  c : List UInt32
  d : List UInt32

/-- One half of a mixing step: add the words of the message, then stir. -/
def halfMix (first second : UInt32) (rows : Rows) (message : List UInt32) : Rows :=
  let a := List.zipWith (· + ·) (List.zipWith (· + ·) rows.a rows.b) message
  let d := List.zipWith (fun d a => rotateRight (d ^^^ a) first) rows.d a
  let c := List.zipWith (· + ·) rows.c d
  let b := List.zipWith (fun b c => rotateRight (b ^^^ c) second) rows.b c
  ⟨a, b, c, d⟩

/-- Every other item, starting with the first one. -/
def alternate {α : Type} : List α → List α
  | [] => []
  | [item] => [item]
  | item :: _ :: rest => item :: alternate rest

/-- Mix each column of the state with two words of the message. -/
def mix (rows : Rows) (message : List UInt32) : Rows :=
  let rows := halfMix 16 12 rows (alternate message)
  halfMix 8 7 rows (alternate message.tail)

def Rows.slant (rows : Rows) : Rows :=
  ⟨rows.a, rows.b.rotateLeft 1, rows.c.rotateLeft 2, rows.d.rotateLeft 3⟩

def Rows.straighten (rows : Rows) : Rows :=
  ⟨rows.a, rows.b.rotateLeft 3, rows.c.rotateLeft 2, rows.d.rotateLeft 1⟩

def round (rows : Rows) (message : List UInt32) : Rows :=
  let rows := mix rows (message.take 8)
  (mix rows.slant (message.drop 8)).straighten

/-- Rounds whose message words are put in a new order in between. -/
def rounds : Nat → Rows → List UInt32 → Rows
  | 0, rows, _ => rows
  | count + 1, rows, message =>
      rounds count (round rows message) (wordOrder.map (message.getD · 0))

/-- Compress a block of sixteen words into a chaining value. -/
def compress (chaining message : List UInt32) (counter size flags : Nat) : List UInt32 :=
  let rows := rounds 7
    { a := chaining.take 4
      b := chaining.drop 4
      c := startWords.take 4
      d := [UInt32.ofNat counter, UInt32.ofNat (counter / twoTo 32), UInt32.ofNat size,
        UInt32.ofNat flags] }
    message
  List.zipWith (· ^^^ ·) rows.a rows.c ++ List.zipWith (· ^^^ ·) rows.b rows.d

/-! ## Blocks and chunks -/

def chunkStartFlag : Nat := 1

def chunkEndFlag : Nat := 2

def parentFlag : Nat := 4

def rootFlag : Nat := 8

/-- The words of a block, least byte first; what is missing counts as zero. -/
def words (count : Nat) (block : List UInt8) : List UInt32 :=
  (List.range count).map fun index =>
    (block.getD (4 * index) 0).toUInt32 ||| ((block.getD (4 * index + 1) 0).toUInt32 <<< 8) |||
      ((block.getD (4 * index + 2) 0).toUInt32 <<< 16) |||
      ((block.getD (4 * index + 3) 0).toUInt32 <<< 24)

def chunkValue (counter flags : Nat) (chaining : List UInt32) (start : Nat)
    (bytes : List UInt8) : List UInt32 :=
  if bytes.length ≤ 64 then
    compress chaining (words 16 bytes) counter bytes.length (flags + start + chunkEndFlag)
  else
    chunkValue counter flags (compress chaining (words 16 (bytes.take 64)) counter 64 start) 0
      (bytes.drop 64)
termination_by bytes.length
decreasing_by
  simp only [List.length_drop]
  omega

/-! ## Trees -/

/-- The size of the left part of a text of more than one chunk: the largest power of two
below its size. -/
def leftSize (size : Nat) : Nat :=
  twoTo (size - 1).log2

theorem leftSize_lt {size : Nat} (h : 1024 < size) : leftSize size < size := by
  have hpos : size - 1 ≠ 0 := by omega
  have hle : leftSize size ≤ size - 1 := Nat.log2_self_le hpos
  omega

theorem leftSize_pos (size : Nat) : 0 < leftSize size :=
  twoTo_pos _

/-- The chaining value of a text that starts with chunk number `counter`; `flags` is the
flag of the root or zero. -/
def treeValue (flags counter : Nat) (bytes : List UInt8) : List UInt32 :=
  if 1024 < bytes.length then
    let left := leftSize bytes.length
    compress startWords
      (treeValue 0 counter (bytes.take left) ++
        treeValue 0 (counter + left / 1024) (bytes.drop left))
      0 64 (flags + parentFlag)
  else chunkValue counter flags startWords chunkStartFlag bytes
termination_by bytes.length
decreasing_by
  all_goals
    have hlt : leftSize bytes.length < bytes.length := leftSize_lt (by assumption)
    have hpos := leftSize_pos bytes.length
    simp only [List.length_take, List.length_drop]
    omega

def wordBytes (word : UInt32) : List UInt8 :=
  [word.toUInt8, (word >>> 8).toUInt8, (word >>> 16).toUInt8, (word >>> 24).toUInt8]

def hash (bytes : List UInt8) : List UInt8 :=
  (treeValue rootFlag 0 bytes).flatMap wordBytes

end SceneLang.Blake3

namespace SceneLang

/-- A hash of 32 bytes. -/
structure Digest where
  bytes : List UInt8
deriving DecidableEq, Repr

namespace Digest

/-- The digest of the UTF-8 form of a text. -/
def ofText (text : List Char) : Digest :=
  ⟨Blake3.hash (text.flatMap String.utf8EncodeChar)⟩

def hexByte (byte : UInt8) : List Char :=
  [Nat.digitChar (byte.toNat / 16), Nat.digitChar (byte.toNat % 16)]

def hex (digest : Digest) : String :=
  String.ofList (digest.bytes.flatMap hexByte)

def shortHex (digest : Digest) : String :=
  String.ofList ((digest.bytes.take 8).flatMap hexByte)

end Digest

end SceneLang
