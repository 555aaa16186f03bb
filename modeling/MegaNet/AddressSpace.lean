import Mathlib.Data.UInt

/-! A memory of 32-bit addresses: what a run of addresses holds, the memory with
a run laid over it, runs that share no address, and a copy one item after
another. Addresses wrap. -/
namespace MegaNet.AddressSpace

variable {α : Type} {m : UInt32 → α} {a b : UInt32} {n k i j n' k' : Nat} {items : List α}

/-- What the `n` addresses from `a` on hold. -/
def run (m : UInt32 → α) (a : UInt32) (n : Nat) : List α :=
  (List.range n).map fun i => m (a + UInt32.ofNat i)

/-- The memory with `items` from `a` on. -/
def put (m : UInt32 → α) (a : UInt32) (items : List α) : UInt32 → α := fun b =>
  (items[(b - a).toNat]?).getD (m b)

/-- No address is in both runs. -/
def Apart (a : UInt32) (n : Nat) (b : UInt32) (k : Nat) : Prop :=
  ∀ i < n, ∀ j < k, a + UInt32.ofNat i ≠ b + UInt32.ofNat j

@[simp] theorem run_length : (run m a n).length = n := by simp [run]

theorem run_getElem? (below : i < n) : (run m a n)[i]? = some (m (a + UInt32.ofNat i)) := by
  simp [run, below]

theorem run_take (few : k ≤ n) : (run m a n).take k = run m a k := by
  rw [run, ← List.map_take, List.take_range, Nat.min_eq_left few, run]

theorem run_drop (few : k ≤ n) : (run m a n).drop k = run m (a + UInt32.ofNat k) (n - k) := by
  apply List.ext_getElem?
  intro i
  rw [List.getElem?_drop]
  by_cases below : i < n - k
  · rw [run_getElem? below, run_getElem? (show k + i < n by omega), UInt32.ofNat_add, UInt32.add_assoc]
  · rw [List.getElem?_eq_none (by rw [run_length]; omega),
      List.getElem?_eq_none (by rw [run_length]; omega)]

/-- How far on an address is. -/
theorem offset_toNat (small : i < 2 ^ 32) : (a + UInt32.ofNat i - a).toNat = i := by
  rw [UInt32.toNat_sub, UInt32.toNat_add, UInt32.toNat_ofNat']
  have := a.toNat_lt
  omega

/-- Parts of runs that share no address share none. -/
theorem Apart.part {a' b' : UInt32} (apart : Apart a n b k) (here : a' = a + UInt32.ofNat i)
    (there : b' = b + UInt32.ofNat j) (within : i + n' ≤ n) (within' : j + k' ≤ k) :
      Apart a' n' b' k' := by
  subst here there
  intro p below q below'
  have parted := apart (i + p) (by omega) (j + q) (by omega)
  rwa [UInt32.ofNat_add, UInt32.ofNat_add, ← UInt32.add_assoc, ← UInt32.add_assoc] at parted

theorem Apart.shorter (apart : Apart a n b k) (less : n' ≤ n) : Apart a n' b k :=
  fun i below => apart i (Nat.lt_of_lt_of_le below less)

theorem Apart.symm (apart : Apart a n b k) : Apart b k a n :=
  fun j below i below' same => apart i below' j below same.symm

/-- A run that ends before another begins is apart from it. -/
theorem apart_of_le (before : a.toNat + n ≤ b.toNat) (fits : b.toNat + k ≤ 2 ^ 32) : Apart a n b k := by
  intro i below j below' same
  have place := congrArg UInt32.toNat same
  rw [UInt32.toNat_add, UInt32.toNat_add, UInt32.toNat_ofNat', UInt32.toNat_ofNat'] at place
  omega

theorem put_outside (away : ∀ i < items.length, b ≠ a + UInt32.ofNat i) : put m a items b = m b := by
  have past : items.length ≤ (b - a).toNat := by
    by_contra within
    apply away _ (Nat.lt_of_not_le within)
    rw [UInt32.ofNat_toNat]
    grind
  rw [put, List.getElem?_eq_none past]
  rfl

/-- A run apart from what is laid over it is as it was. -/
theorem run_put_apart (apart : Apart a n b items.length) : run (put m b items) a n = run m a n := by
  apply List.map_congr_left
  intro i member
  apply put_outside
  exact apart i (List.mem_range.mp member)

theorem run_put (fits : items.length ≤ 2 ^ 32) : run (put m a items) a items.length = items := by
  apply List.ext_getElem?
  intro i
  by_cases below : i < items.length
  · rw [run_getElem? below, put, offset_toNat (Nat.lt_of_lt_of_le below fits),
      List.getElem?_eq_getElem below]
    rfl
  · rw [List.getElem?_eq_none (by rw [run_length]; omega), List.getElem?_eq_none (by omega)]

/-- One after another is both at once. -/
theorem put_append {more : List α} (fits : items.length + more.length ≤ 2 ^ 32) :
    put (put m a items) (a + UInt32.ofNat items.length) more = put m a (items ++ more) := by
  funext b
  have bound := (b - a).toNat_lt
  have further : (b - (a + UInt32.ofNat items.length)).toNat =
      ((b - a).toNat + 2 ^ 32 - items.length) % 2 ^ 32 := by
    have apart : b - (a + UInt32.ofNat items.length) = b - a - UInt32.ofNat items.length := by grind
    rw [apart, UInt32.toNat_sub, UInt32.toNat_ofNat']
    omega
  unfold put
  rw [further]
  by_cases first : (b - a).toNat < items.length
  · rw [List.getElem?_append_left first, List.getElem?_eq_none (by omega),
      List.getElem?_eq_getElem first]
    rfl
  · have past : ((b - a).toNat + 2 ^ 32 - items.length) % 2 ^ 32 = (b - a).toNat - items.length := by
      omega
    rw [List.getElem?_append_right (by omega), past, List.getElem?_eq_none
      (show items.length ≤ (b - a).toNat by omega)]
    rfl

/-! ## Copies -/

/-- A copy of `n` items, the first one first. -/
def copy (m : UInt32 → α) (src dst : UInt32) : Nat → UInt32 → α
  | 0 => m
  | n + 1 => fun b =>
    if b = dst + UInt32.ofNat n then copy m src dst n (src + UInt32.ofNat n) else copy m src dst n b

/-- Between runs that share no address it lays the one over the other. -/
theorem copy_put {src dst : UInt32} (apart : Apart src n dst n) (fits : n ≤ 2 ^ 32) :
    copy m src dst n = put m dst (run m src n) := by
  induction n with
  | zero => rfl
  | succ n ih =>
    have before := ih (fun i below j below' => apart i (by omega) j (by omega)) (by omega)
    funext b
    simp only [copy, before]
    split
    · rename_i here
      have index : (b - dst).toNat = n := by
        rw [here]
        exact offset_toNat fits
      rw [put_outside, put, index, run_getElem? (Nat.lt_succ_self n)]
      · rfl
      · intro j below
        rw [run_length] at below
        exact apart n (Nat.lt_succ_self n) j (by omega)
    · rename_i elsewhere
      have other : (b - dst).toNat ≠ n := by
        intro index
        apply elsewhere
        rw [← index, UInt32.ofNat_toNat]
        grind
      unfold put
      by_cases below : (b - dst).toNat < n
      · rw [run_getElem? below, run_getElem? (Nat.lt_succ_of_lt below)]
      · rw [List.getElem?_eq_none (by rw [run_length]; omega),
          List.getElem?_eq_none (by rw [run_length]; omega)]

end MegaNet.AddressSpace
