/-!
# The secure hash of a key

SHA-1 over bytes: the message is padded to blocks of 64 bytes, and every block stirs a state of
five words through eighty rounds.
-/

namespace ModuleInspector.StrongName

/-- The five words that a block stirs. -/
structure HashState where
  a : UInt32
  b : UInt32
  c : UInt32
  d : UInt32
  e : UInt32

/-- The state before the first block. -/
def HashState.initial : HashState :=
  ⟨0x67452301, 0xefcdab89, 0x98badcfe, 0x10325476, 0xc3d2e1f0⟩

/-- A word turned left by some bits. -/
def turnLeft (word : UInt32) (bits : UInt32) : UInt32 :=
  (word <<< bits) ||| (word >>> (32 - bits))

/-- The bytes of a number, most significant first. -/
def bigEndian : Nat → Nat → List UInt8
  | 0, _ => []
  | count + 1, value => bigEndian count (value / 256) ++ [UInt8.ofNat value]

/-- The number that bytes write, most significant first. -/
def ofBigEndian (data : List UInt8) : Nat :=
  data.foldl (fun value byte => value * 256 + byte.toNat) 0

/-- The message with a one bit, zeros and its length in bits, in whole blocks. -/
def padded (message : List UInt8) : List UInt8 :=
  let zeros := (119 - message.length % 64) % 64
  message ++ [0x80] ++ List.replicate zeros 0 ++ bigEndian 8 (8 * message.length)

/-- A list in blocks of `size` items; `count` bounds the number of blocks. -/
def blocksOf {α : Type} (size : Nat) : Nat → List α → List (List α)
  | 0, _ => []
  | count + 1, items => items.take size :: blocksOf size count (items.drop size)

/-- The eighty words of a block: sixteen from its bytes, and every later one from earlier ones. -/
def schedule (block : List UInt8) : Array UInt32 :=
  let words := (blocksOf 4 16 block).map fun word => UInt32.ofNat (ofBigEndian word)
  (List.range 64).foldl
    (fun words i =>
      words.push (turnLeft (words.getD (i + 13) 0 ^^^ words.getD (i + 8) 0 ^^^
        words.getD (i + 2) 0 ^^^ words.getD i 0) 1))
    words.toArray

/-- One of the eighty rounds. -/
def HashState.round (state : HashState) (index : Nat) (word : UInt32) : HashState :=
  let mixed :=
    if index < 20 then (state.b &&& state.c) ||| ((state.b ^^^ 0xffffffff) &&& state.d)
    else if index < 40 then state.b ^^^ state.c ^^^ state.d
    else if index < 60 then
      (state.b &&& state.c) ||| (state.b &&& state.d) ||| (state.c &&& state.d)
    else state.b ^^^ state.c ^^^ state.d
  let key : UInt32 :=
    if index < 20 then 0x5a827999
    else if index < 40 then 0x6ed9eba1
    else if index < 60 then 0x8f1bbcdc
    else 0xca62c1d6
  ⟨turnLeft state.a 5 + mixed + state.e + key + word, state.a, turnLeft state.b 30, state.c,
    state.d⟩

/-- The state after a block. -/
def HashState.absorb (state : HashState) (block : List UInt8) : HashState :=
  let words := schedule block
  let last := (List.range 80).foldl
    (fun state index => state.round index (words.getD index 0)) state
  ⟨state.a + last.a, state.b + last.b, state.c + last.c, state.d + last.d, state.e + last.e⟩

/-- The twenty bytes of the hash. -/
def digest (message : List UInt8) : List UInt8 :=
  let text := padded message
  let last := (blocksOf 64 (text.length / 64) text).foldl HashState.absorb .initial
  [last.a, last.b, last.c, last.d, last.e].flatMap fun word => bigEndian 4 word.toNat

example : digest "abc".toUTF8.toList =
    [0xa9, 0x99, 0x3e, 0x36, 0x47, 0x06, 0x81, 0x6a, 0xba, 0x3e, 0x25, 0x71, 0x78, 0x50, 0xc2,
      0x6c, 0x9c, 0xd0, 0xd8, 0x9d] := by
  decide +kernel

end ModuleInspector.StrongName
