import CallTrace.Bytes.Basic

/-!
# Operands of an opcode

An opcode finds its operands on the stack and in the memory of the frame that
runs it.  Reading never fails: a stack position that does not exist holds zero,
and a range of memory that does not exist is empty.
-/

namespace CallTrace

/-- The part of a memory that begins at `offset` and has `size` bytes, or no bytes
if there is no such part.  An end beyond the 64-bit range lies outside every
memory. -/
def Bytes.range (memory : Bytes) (offset size : UInt64) : Bytes :=
  let stop := offset.toNat + size.toNat
  if size = 0 then
    []
  else if UInt64.size ≤ stop then
    []
  else if memory.length < stop then
    []
  else
    (memory.drop offset.toNat).take size.toNat

/-- The 64-bit number nearest to a word. -/
def Word.clamp (word : Word) : UInt64 :=
  if word.toNat < UInt64.size then UInt64.ofNat word.toNat else UInt64.ofNat (UInt64.size - 1)

/-- The running contract with its stack, bottom first, and its memory. -/
structure Scope where
  contract : Address
  stack : List Word
  memory : Bytes
deriving DecidableEq

namespace Scope

/-- The word at a position counted from the top of the stack, which is zero. -/
def peek? (scope : Scope) (position : Nat) : Option Word :=
  scope.stack.reverse[position]?

/-- The word at a position counted from the top, zero beyond the bottom. -/
def peek (scope : Scope) (position : Nat) : Word :=
  (scope.peek? position).getD 0

/-- The range of memory whose offset and size are at the given stack positions. -/
def memoryOperand (scope : Scope) (offsetPosition sizePosition : Nat) : Bytes :=
  scope.memory.range (Word.clamp (scope.peek offsetPosition))
    (Word.clamp (scope.peek sizePosition))

end Scope

end CallTrace
