/-!
# Stencil — UTF-8 with damage

Bytes are read as UTF-8 whatever they are. Where they make up no character, the longest run of bytes
that could still have begun one gives a single replacement character, and reading goes on with the
byte after it.

* `Utf8.decode` — the characters of bytes, damage replaced.
-/

namespace Stencil.Text.Utf8

/-- The character that stands for damage. -/
def replacement : Char := '\ufffd'

/-- What the first byte of a character settles: the bits it carries, and the range of each byte that
has to follow. -/
structure Lead where
  bits  : Nat
  tails : List (Nat × Nat)

/-- The range of a byte that may follow unless the first byte narrows it. -/
def tail : Nat × Nat := (0x80, 0xbf)

/-- What a byte settles as the first one of a character. Overlong forms, surrogates and numbers past
the last character are ruled out by the range of the second byte. -/
def lead? (b : Nat) : Option Lead :=
  if b < 0x80 then some ⟨b, []⟩
  else if b < 0xc2 then none
  else if b < 0xe0 then some ⟨b - 0xc0, [tail]⟩
  else if b = 0xe0 then some ⟨0x0, [(0xa0, 0xbf), tail]⟩
  else if b = 0xed then some ⟨0xd, [(0x80, 0x9f), tail]⟩
  else if b < 0xf0 then some ⟨b - 0xe0, [tail, tail]⟩
  else if b = 0xf0 then some ⟨0x0, [(0x90, 0xbf), tail, tail]⟩
  else if b < 0xf4 then some ⟨b - 0xf0, [tail, tail, tail]⟩
  else if b = 0xf4 then some ⟨0x4, [(0x80, 0x8f), tail, tail]⟩
  else none

/-- The character that starts with `bits` and goes on in the given ranges, and the bytes after
it. -/
def complete (bits : Nat) : List (Nat × Nat) → List UInt8 → Char × List UInt8
  | [], bytes => (Char.ofNat bits, bytes)
  | _ :: _, [] => (replacement, [])
  | (low, high) :: tails, b :: bytes =>
    if low ≤ b.toNat ∧ b.toNat ≤ high then complete (64 * bits + b.toNat % 64) tails bytes
    else (replacement, b :: bytes)

/-- Completing a character leaves no more bytes than there were. -/
theorem length_complete_le (bits : Nat) (tails : List (Nat × Nat)) (bytes : List UInt8) :
    (complete bits tails bytes).2.length ≤ bytes.length := by
  fun_induction complete bits tails bytes with
  | case1 => exact Nat.le_refl _
  | case2 => exact Nat.le_refl _
  | case3 _ _ _ _ _ _ _ ih => exact Nat.le_succ_of_le ih
  | case4 => exact Nat.le_refl _

/-- The characters of bytes. -/
def decode : List UInt8 → List Char
  | [] => []
  | b :: bytes =>
    match lead? b.toNat with
    | none => replacement :: decode bytes
    | some lead =>
      have := length_complete_le lead.bits lead.tails bytes
      (complete lead.bits lead.tails bytes).1 :: decode (complete lead.bits lead.tails bytes).2
termination_by bytes => bytes.length
decreasing_by all_goals simp_all; try omega

end Stencil.Text.Utf8
