/-!
# Bytes, words and alignment

Everything on the wire is a list of bytes.  Words are written most significant
byte first, and the one codec below serves every width: `Bytes.bigEndian w n`
writes the low `w` bytes of `n`, and `Bytes.value` reads a list of bytes as a
base-256 numeral.

Main statements:

* `Bytes.value_bigEndian`: reading back what was written gives the number
  reduced to what the width holds.
* `Bytes.bigEndian_value`: writing what was read gives the same bytes back.
* `le_align8`, `align8_lt`, `align8_mod`: `align8 n` is the least multiple of
  eight that is not below `n`.
-/

namespace OpenFlow

/-- A string of bytes, in wire order. -/
abbrev Bytes := List UInt8

namespace Bytes

/-- The low `w` bytes of `n`, most significant first. -/
def bigEndian : Nat → Nat → Bytes
  | 0, _ => []
  | w + 1, n => bigEndian w (n / 256) ++ [UInt8.ofNat n]

/-- The number a string of bytes spells in base 256. -/
def value (bs : Bytes) : Nat :=
  bs.foldl (fun acc b => acc * 256 + b.toNat) 0

/-- How many numbers `w` bytes can spell. -/
def capacity : Nat → Nat
  | 0 => 1
  | w + 1 => 256 * capacity w

/-- A run of `n` zero bytes. -/
def zeros (n : Nat) : Bytes := List.replicate n 0

@[simp] theorem length_bigEndian (w n : Nat) : (bigEndian w n).length = w := by
  induction w generalizing n with
  | zero => rfl
  | succ w ih => simp [bigEndian, ih]

@[simp] theorem length_zeros (n : Nat) : (zeros n).length = n := by
  simp [zeros]

@[simp] theorem value_nil : value [] = 0 := rfl

@[simp] theorem value_concat (bs : Bytes) (b : UInt8) :
    value (bs ++ [b]) = value bs * 256 + b.toNat := by
  simp [value]

theorem capacity_pos (w : Nat) : 0 < capacity w := by
  induction w with
  | zero => exact Nat.one_pos
  | succ w ih => simpa [capacity] using ih

/-- Reading what was written gives the number reduced to what the width holds. -/
theorem value_bigEndian (w n : Nat) : value (bigEndian w n) = n % capacity w := by
  induction w generalizing n with
  | zero => simp [bigEndian, capacity, Nat.mod_one]
  | succ w ih =>
    rw [bigEndian, value_concat, ih, capacity, Nat.mod_mul]
    simp
    omega

/-- Writing what was read, at its own width, gives the bytes back. -/
theorem bigEndian_value (bs : Bytes) : bigEndian bs.length (value bs) = bs := by
  rw [← List.reverse_reverse bs]
  induction bs.reverse with
  | nil => rfl
  | cons b rest ih =>
    have hb : b.toNat < 256 := b.toNat_lt
    have hdiv : (value rest.reverse * 256 + b.toNat) / 256 = value rest.reverse := by
      omega
    have hlast : UInt8.ofNat (value rest.reverse * 256 + b.toNat) = b := by
      apply UInt8.toNat_inj.mp
      simp
    simp only [List.reverse_cons, List.length_append, List.length_cons,
      List.length_nil, Nat.zero_add, value_concat, bigEndian, hdiv, hlast, ih]

/-- A string of bytes spells a number that its length can hold. -/
theorem value_lt (bs : Bytes) : value bs < capacity bs.length := by
  have h := value_bigEndian bs.length (value bs)
  rw [bigEndian_value] at h
  rw [h]
  exact Nat.mod_lt _ (capacity_pos _)

/-! ## Words -/

/-- The two bytes of a 16-bit word. -/
def ofUInt16 (n : UInt16) : Bytes := bigEndian 2 n.toNat

/-- The four bytes of a 32-bit word. -/
def ofUInt32 (n : UInt32) : Bytes := bigEndian 4 n.toNat

/-- The eight bytes of a 64-bit word. -/
def ofUInt64 (n : UInt64) : Bytes := bigEndian 8 n.toNat

@[simp] theorem length_ofUInt16 (n : UInt16) : (ofUInt16 n).length = 2 := by
  simp [ofUInt16]

@[simp] theorem length_ofUInt32 (n : UInt32) : (ofUInt32 n).length = 4 := by
  simp [ofUInt32]

@[simp] theorem length_ofUInt64 (n : UInt64) : (ofUInt64 n).length = 8 := by
  simp [ofUInt64]

@[simp] theorem value_ofUInt16 (n : UInt16) : value (ofUInt16 n) = n.toNat := by
  rw [ofUInt16, value_bigEndian]
  exact Nat.mod_eq_of_lt n.toNat_lt

@[simp] theorem value_ofUInt32 (n : UInt32) : value (ofUInt32 n) = n.toNat := by
  rw [ofUInt32, value_bigEndian]
  exact Nat.mod_eq_of_lt n.toNat_lt

@[simp] theorem value_ofUInt64 (n : UInt64) : value (ofUInt64 n) = n.toNat := by
  rw [ofUInt64, value_bigEndian]
  exact Nat.mod_eq_of_lt n.toNat_lt

/-- The 16-bit word at the front of a string of bytes, if it is there. -/
def peekUInt16? : Bytes → Option UInt16
  | b₀ :: b₁ :: _ => some (UInt16.ofNat (value [b₀, b₁]))
  | _ => none

/-- The type and declared length an element header at the front of a string of
bytes carries, if four bytes are there. -/
def peekHeader? : Bytes → Option (UInt16 × UInt16)
  | b₀ :: b₁ :: b₂ :: b₃ :: _ =>
      some (UInt16.ofNat (value [b₀, b₁]), UInt16.ofNat (value [b₂, b₃]))
  | _ => none

end Bytes

/-! ## Single bits -/

/-- The word `x` with bit `i` set or cleared. -/
def setBit (i x : UInt64) (on : Bool) : UInt64 :=
  if on then x ||| (1 <<< i) else x &&& ~~~(1 <<< i)

/-- Whether bit `i` of the word `x` is set. -/
def testBit (i x : UInt64) : Bool :=
  (x >>> i) &&& 1 == 1

/-! ## Alignment to eight bytes -/

/-- The least multiple of eight that is at least `n`. -/
def align8 (n : Nat) : Nat := (n + 7) / 8 * 8

/-- How many bytes take `n` up to a multiple of eight. -/
def padding8 (n : Nat) : Nat := align8 n - n

theorem le_align8 (n : Nat) : n ≤ align8 n := by
  unfold align8; omega

theorem align8_lt (n : Nat) : align8 n < n + 8 := by
  unfold align8; omega

theorem align8_mod (n : Nat) : align8 n % 8 = 0 := by
  unfold align8; omega

@[simp] theorem add_padding8 (n : Nat) : n + padding8 n = align8 n := by
  have := le_align8 n
  unfold padding8; omega

/-! ## Totals -/

/-- The sum of a measure over a list. -/
def total {α : Type} (f : α → Nat) : List α → Nat
  | [] => 0
  | a :: rest => f a + total f rest

@[simp] theorem total_nil {α : Type} (f : α → Nat) : total f [] = 0 := rfl

@[simp] theorem total_cons {α : Type} (f : α → Nat) (a : α) (rest : List α) :
    total f (a :: rest) = f a + total f rest := rfl

@[simp] theorem total_append {α : Type} (f : α → Nat) (as bs : List α) :
    total f (as ++ bs) = total f as + total f bs := by
  induction as with
  | nil => simp
  | cons a as ih => simp [ih, Nat.add_assoc]

/-- The sum of a measure that is the same for all members. -/
theorem total_eq_mul_length {α : Type} {f : α → Nat} {n : Nat} {as : List α}
    (h : ∀ a ∈ as, f a = n) : total f as = n * as.length := by
  induction as with
  | nil => rfl
  | cons a as ih =>
    rw [total_cons, h a (List.mem_cons_self ..), ih fun b hb => h b (List.mem_cons_of_mem a hb),
      List.length_cons, Nat.mul_succ, Nat.add_comm]

/-- The sum of a measure that is bounded on all members. -/
theorem total_le_mul_length {α : Type} {f : α → Nat} {n : Nat} {as : List α}
    (h : ∀ a ∈ as, f a ≤ n) : total f as ≤ n * as.length := by
  induction as with
  | nil => exact Nat.le_refl 0
  | cons a as ih =>
    have ha := h a (List.mem_cons_self ..)
    have has := ih fun b hb => h b (List.mem_cons_of_mem a hb)
    rw [total_cons, List.length_cons, Nat.mul_succ]
    omega

/-- No member measures more than all of them. -/
theorem le_total_of_mem {α : Type} {f : α → Nat} {a : α} {as : List α} (h : a ∈ as) :
    f a ≤ total f as := by
  induction h with
  | head as => exact Nat.le_add_right _ _
  | tail b _ ih => exact Nat.le_trans ih (Nat.le_add_left _ _)

end OpenFlow
