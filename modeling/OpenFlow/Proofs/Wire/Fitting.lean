import OpenFlow.Bytes

/-!
# How many values fit in front of a cut

Values that follow each other without gaps are cut behind some number of bytes.  The values that
stay whole are those at the front, as many as fit, and this number is found by going along the
list with what is left.  That it is the largest number of values at the front which fit together is
a statement about sums, and does not mention the way it is found.

Main definition:

* `fitting`: how many values at the front of a list fit.

Main statement:

* `le_fitting_iff`: values at the front are among them if their sizes add up to what there is.
-/

namespace OpenFlow

variable {α : Type} {size : α → Nat} {n : Nat} {a : α} {as : List α}

/-- How many values at the front of a list fit in `n` bytes. -/
def fitting (size : α → Nat) (n : Nat) : List α → Nat
  | [] => 0
  | a :: as => if size a ≤ n then fitting size (n - size a) as + 1 else 0

theorem take_fitting_cons_of_le (h : size a ≤ n) :
    (a :: as).take (fitting size n (a :: as)) = a :: as.take (fitting size (n - size a) as) := by
  rw [fitting, if_pos h, List.take_succ_cons]

theorem take_fitting_cons_of_lt (h : n < size a) :
    (a :: as).take (fitting size n (a :: as)) = [] := by
  rw [fitting, if_neg (Nat.not_le_of_lt h), List.take_zero]

theorem fitting_le_length (size : α → Nat) (n : Nat) (as : List α) :
    fitting size n as ≤ as.length := by
  induction as generalizing n with
  | nil => exact Nat.le_refl 0
  | cons a as ih =>
    rw [fitting, List.length_cons]
    split
    · exact Nat.succ_le_succ (ih _)
    · exact Nat.zero_le _

/-- **The largest number of values that fit**: so many values at the front of a list fit exactly if
their sizes add up to at most what there is. -/
theorem le_fitting_iff {j : Nat} (hj : j ≤ as.length) :
    j ≤ fitting size n as ↔ total size (as.take j) ≤ n := by
  induction as generalizing n j with
  | nil =>
    obtain rfl : j = 0 := Nat.le_zero.mp hj
    exact ⟨fun _ => Nat.zero_le n, fun _ => Nat.zero_le _⟩
  | cons a as ih =>
    cases j with
    | zero => exact ⟨fun _ => Nat.zero_le n, fun _ => Nat.zero_le _⟩
    | succ j =>
      have hrest := ih (n := n - size a) (Nat.le_of_succ_le_succ hj)
      rw [fitting, List.take_succ_cons, total_cons]
      split <;> omega

end OpenFlow
