import CallTrace.Bytes.Basic

/-!
# The Keccak-256 digest

The sponge over 25 lanes of 64 bits that absorbs 136 bytes at a time.  The input
is padded by a first bit and a last bit, without a domain separator in between.
-/

namespace CallTrace.Keccak

/-- The lanes of the sponge.  The lane in column `x` of row `y` has the number
`x + 5 * y`. -/
abbrev State := Vector UInt64 25

/-- The lane in a column and a row, both taken modulo five. -/
def lane (state : State) (column row : Nat) : UInt64 :=
  state.get ⟨column % 5 + 5 * (row % 5), by omega⟩

/-- The state whose lanes are given by column and row. -/
def State.ofLanes (lanes : Nat → Nat → UInt64) : State :=
  Vector.ofFn fun number => lanes (number.val % 5) (number.val / 5)

/-- Rotation towards the more significant bits. -/
def rotate (word : UInt64) (distance : Nat) : UInt64 :=
  if distance % 64 = 0 then
    word
  else
    word <<< UInt64.ofNat (distance % 64) ||| word >>> UInt64.ofNat (64 - distance % 64)

/-- How far each lane is rotated. -/
def rotations : Vector Nat 25 :=
  #v[0, 1, 62, 28, 27,
    36, 44, 6, 55, 20,
    3, 10, 43, 25, 39,
    41, 45, 15, 21, 8,
    18, 2, 61, 56, 14]

/-- The constants of the 24 rounds. -/
def roundConstants : List UInt64 :=
  [0x0000000000000001, 0x0000000000008082, 0x800000000000808a, 0x8000000080008000,
    0x000000000000808b, 0x0000000080000001, 0x8000000080008081, 0x8000000000008009,
    0x000000000000008a, 0x0000000000000088, 0x0000000080008009, 0x000000008000000a,
    0x000000008000808b, 0x800000000000008b, 0x8000000000008089, 0x8000000000008003,
    0x8000000000008002, 0x8000000000000080, 0x000000000000800a, 0x800000008000000a,
    0x8000000080008081, 0x8000000000008080, 0x0000000080000001, 0x8000000080008008]

/-- The parity of a column. -/
def columnParity (state : State) (column : Nat) : UInt64 :=
  lane state column 0 ^^^ lane state column 1 ^^^ lane state column 2 ^^^
    lane state column 3 ^^^ lane state column 4

/-- Adds to each lane the parities of the two neighbouring columns. -/
def mixColumns (state : State) : State :=
  let parities : Vector UInt64 5 := Vector.ofFn fun column => columnParity state column.val
  let parity (column : Nat) : UInt64 := parities.get ⟨column % 5, by omega⟩
  .ofLanes fun column row =>
    lane state column row ^^^ parity (column + 4) ^^^ rotate (parity (column + 1)) 1

/-- Rotates each lane and moves it to its new place. -/
def moveLanes (state : State) : State :=
  .ofLanes fun column row =>
    let source := column + 3 * row
    rotate (lane state source column)
      (rotations.get ⟨source % 5 + 5 * (column % 5), by omega⟩)

/-- Combines each lane with the next two in its row. -/
def mixRows (state : State) : State :=
  .ofLanes fun column row =>
    lane state column row ^^^ (~~~ lane state (column + 1) row &&& lane state (column + 2) row)

/-- One round of the permutation. -/
def round (state : State) (constant : UInt64) : State :=
  let mixed := mixRows (moveLanes (mixColumns state))
  mixed.set 0 (mixed[0] ^^^ constant)

/-- All rounds of the permutation. -/
def permute (state : State) : State :=
  roundConstants.foldl round state

/-- How many bytes are absorbed at a time. -/
def rate : Nat := 136

/-- The padding of an input of the given length, up to a multiple of the rate. -/
def padding (length : Nat) : Bytes :=
  let gap := rate - length % rate
  if gap = 1 then [0x81] else 0x01 :: List.replicate (gap - 2) 0x00 ++ [0x80]

/-- The number spelled by bytes, least significant byte first. -/
def littleEndian (bytes : Bytes) : UInt64 :=
  bytes.foldr (fun byte rest => rest <<< 8 ||| byte.toUInt64) 0

/-- Adds a block to the first lanes of the state. -/
def addBlock (state : State) (block : Bytes) : State :=
  Vector.ofFn fun number =>
    state[number] ^^^ littleEndian ((block.drop (8 * number.val)).take 8)

/-- Absorbs a number of blocks. -/
def absorb : Nat → Bytes → State → State
  | 0, _, state => state
  | count + 1, input, state =>
      absorb count (input.drop rate) (permute (addBlock state (input.take rate)))

/-- The first 32 bytes of the state. -/
def squeeze (state : State) : Hash where
  bytes := List.ofFn fun position : Fin 32 =>
    (state[position.val / 8] >>> UInt64.ofNat (8 * (position.val % 8))).toUInt8
  length_eq := List.length_ofFn

/-- The Keccak-256 digest of a byte string. -/
def digest (input : Bytes) : Hash :=
  let padded := input ++ padding input.length
  squeeze (absorb (padded.length / rate) padded (Vector.replicate 25 0))

end CallTrace.Keccak
