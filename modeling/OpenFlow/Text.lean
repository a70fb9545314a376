import OpenFlow.Bytes

/-!
# Text in fields of a fixed width

A description string occupies a field of a fixed number of bytes.  Writing cuts
the UTF-8 form of the text to the width, possibly inside a character, and fills
what is left with zero bytes.  Reading takes the bytes before the first zero
byte and decodes them as UTF-8.  Bytes that are not well formed do not stop the
reading: every maximal subpart of an ill-formed sequence, that is, every longest
run of bytes that begins a well-formed character without completing one, reads
as a single replacement character.

Main definitions:

* `Text.encode`: the UTF-8 bytes of a text.
* `Text.decode`: the characters of a string of bytes, replacing what is ill
  formed.
* `Text.write`, `Text.read`: a text in a field of a given width.
-/

namespace OpenFlow
namespace Text

/-- The UTF-8 bytes of a text. -/
def encode (s : String) : Bytes :=
  s.toList.flatMap String.utf8EncodeChar

/-- The character that stands for bytes that spell none. -/
def replacement : Char := '\uFFFD'

/-- A continuation byte: the second and later bytes of a character. -/
def isContinuation (b : UInt8) : Bool := 0x80 ≤ b && b ≤ 0xBF

/-- Whether `b` may follow the lead byte `lead` of a character of two or more
bytes.  The narrower ranges exclude overlong forms, surrogates and code points
past the last one. -/
def mayFollow (lead b : UInt8) : Bool :=
  if lead = 0xE0 then 0xA0 ≤ b && b ≤ 0xBF
  else if lead = 0xED then 0x80 ≤ b && b ≤ 0x9F
  else if lead = 0xF0 then 0x90 ≤ b && b ≤ 0xBF
  else if lead = 0xF4 then 0x80 ≤ b && b ≤ 0x8F
  else isContinuation b

/-- The number of bytes of a character, by its lead byte.  A byte that leads no
character has width zero. -/
def width (lead : UInt8) : Nat :=
  if lead < 0x80 then 1
  else if 0xC2 ≤ lead && lead ≤ 0xDF then 2
  else if 0xE0 ≤ lead && lead ≤ 0xEF then 3
  else if 0xF0 ≤ lead && lead ≤ 0xF4 then 4
  else 0

/-- The six payload bits of a continuation byte. -/
def payload (b : UInt8) : Nat := b.toNat % 64

/-- The characters a string of bytes spells. -/
def decode : Bytes → List Char
  | [] => []
  | b₀ :: rest =>
    match width b₀ with
    | 0 => replacement :: decode rest
    | 1 => Char.ofNat b₀.toNat :: decode rest
    | w =>
      match rest with
      | [] => [replacement]
      | b₁ :: rest₁ =>
        if mayFollow b₀ b₁ then
          if w = 2 then
            Char.ofNat ((b₀.toNat % 32) * 64 + payload b₁) :: decode rest₁
          else
            match rest₁ with
            | [] => [replacement]
            | b₂ :: rest₂ =>
              if isContinuation b₂ then
                if w = 3 then
                  Char.ofNat (((b₀.toNat % 16) * 64 + payload b₁) * 64 + payload b₂)
                    :: decode rest₂
                else
                  match rest₂ with
                  | [] => [replacement]
                  | b₃ :: rest₃ =>
                    if isContinuation b₃ then
                      Char.ofNat ((((b₀.toNat % 8) * 64 + payload b₁) * 64 + payload b₂) * 64
                        + payload b₃) :: decode rest₃
                    else replacement :: decode (b₃ :: rest₃)
              else replacement :: decode (b₂ :: rest₂)
        else replacement :: decode (b₁ :: rest₁)

/-- A text in a field of `n` bytes: cut to the width, then filled with zeros. -/
def write (n : Nat) (s : String) : Bytes :=
  let raw := (encode s).take n
  raw ++ Bytes.zeros (n - raw.length)

/-- The text a field holds: what stands before its first zero byte. -/
def read (field : Bytes) : String :=
  String.ofList (decode (field.takeWhile (· ≠ 0)))

@[simp] theorem length_write (n : Nat) (s : String) : (write n s).length = n := by
  simp only [write, List.length_append, Bytes.length_zeros, List.length_take]
  omega

end Text
end OpenFlow
