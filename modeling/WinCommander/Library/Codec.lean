import Mathlib.Data.List.Basic

/-!
# File formats

A format writes a value, unless it cannot, and reads back what it wrote.
-/

structure Codec (α : Type*) where
  toVec : α → Option (List UInt8)
  fromSlice : List UInt8 → Option α
  fromSlice_toVec : ∀ {a bytes}, toVec a = some bytes → fromSlice bytes = some a

namespace Codec

variable {α : Type*} [DecidableEq α]

/-- The format of one value and the file that it is written to. -/
def ofOne (a : α) (aBytes : List UInt8) : Codec α where
  toVec x := if x = a then some aBytes else none
  fromSlice bytes := if bytes = aBytes then some a else none
  fromSlice_toVec := by
    intro x bytes h
    split at h
    · next hx => rw [← Option.some.inj h, if_pos rfl, hx]
    · exact absurd h (by simp)

/-- A format to which one more value and its file are added. -/
def extend (c : Codec α) (a : α) (aBytes : List UInt8) (hfresh : c.fromSlice aBytes = none) :
    Codec α where
  toVec x := if x = a then some aBytes else c.toVec x
  fromSlice bytes := if bytes = aBytes then some a else c.fromSlice bytes
  fromSlice_toVec := by
    intro x bytes h
    split at h
    · next hx => rw [← Option.some.inj h, if_pos rfl, hx]
    · have hread := c.fromSlice_toVec h
      have hne : bytes ≠ aBytes := by
        intro heq
        rw [heq, hfresh] at hread
        exact absurd hread (by simp)
      rw [if_neg hne]
      exact hread

@[simp] theorem toVec_ofOne (a : α) (aBytes : List UInt8) :
    (ofOne a aBytes).toVec a = some aBytes := if_pos rfl

theorem fromSlice_ofOne_of_ne {a : α} {aBytes bytes : List UInt8} (h : bytes ≠ aBytes) :
    (ofOne a aBytes).fromSlice bytes = none := if_neg h

@[simp] theorem toVec_extend (c : Codec α) (a : α) (aBytes : List UInt8)
    (hfresh : c.fromSlice aBytes = none) : (c.extend a aBytes hfresh).toVec a = some aBytes :=
  if_pos rfl

theorem toVec_extend_of_ne {c : Codec α} {a b : α} {aBytes : List UInt8}
    {hfresh : c.fromSlice aBytes = none} (h : b ≠ a) :
    (c.extend a aBytes hfresh).toVec b = c.toVec b := if_neg h

end Codec
