import Mathlib.Data.List.Basic

/-! Fields filled in from a list of entries, a later entry over an earlier: a
field holds what the last entry for it gave, or what it held before. -/
namespace MegaNet.LastWrites

variable {ε β σ : Type}

/-- What the last of the entries that have a value gives. -/
def lastOf (value : ε → Option β) (entries : List ε) : Option β := (entries.filterMap value).getLast?

theorem lastOf_cons (value : ε → Option β) (e : ε) (entries : List ε) :
    lastOf value (e :: entries) = (lastOf value entries).or (value e) := by
  unfold lastOf
  rw [List.filterMap_cons]
  cases value e with
  | none => simp
  | some v =>
    dsimp only
    rw [List.getLast?_cons]
    cases (entries.filterMap value).getLast? <;> rfl

/-- A step that writes a field just where its entry has a value for it leaves
there the last one. -/
theorem foldl_field (field : σ → β) {step : σ → ε → σ} {value : ε → Option β}
    (writes : ∀ s e, field (step s e) = (value e).getD (field s)) (entries : List ε) (s : σ) :
    field (entries.foldl step s) = (lastOf value entries).getD (field s) := by
  induction entries generalizing s with
  | nil => rfl
  | cons e entries ih =>
    rw [List.foldl_cons, ih, writes, lastOf_cons]
    cases lastOf value entries <;> rfl

/-- So it keeps what it held exactly when the last value is that. -/
theorem getD_eq_iff (last : Option β) (before : β) : last.getD before = before ↔
    ∀ v, last = some v → v = before := by
  cases last with
  | none => simp
  | some v => simp

end MegaNet.LastWrites
