import Mathlib.Data.List.Nodup

/-! A bounded map that forgets first what came in first: a known key gets its
new value in place, a new one goes in front, and what is too much falls off the
end. What it holds is told by the history alone. -/
namespace MegaNet.FifoMap

variable {α β : Type} [DecidableEq α] {most : Nat} {m : List (α × β)} {a key : α} {b b' : β}

/-- The map, the latest key first, after learning a value. -/
def learn (most : Nat) (m : List (α × β)) (a : α) (b : β) : List (α × β) :=
  if a ∈ m.map Prod.fst then m.map fun e => if e.1 = a then (a, b) else e else ((a, b) :: m).take most

/-- The map after a history, the latest event first. -/
def after (most : Nat) : List (α × β) → List (α × β)
  | [] => []
  | (a, b) :: before => learn most (after most before) a b

/-- The keys that were new when they were learned, the latest first. -/
def inserted (most : Nat) : List (α × β) → List α
  | [] => []
  | (a, _) :: before =>
    if a ∈ (after most before).map Prod.fst then inserted most before else a :: inserted most before

/-! ## One event -/

theorem learn_known (known : a ∈ m.map Prod.fst) (b : β) :
    learn most m a b = m.map fun e => if e.1 = a then (a, b) else e := if_pos known

theorem learn_new (new : a ∉ m.map Prod.fst) (b : β) : learn most m a b = ((a, b) :: m).take most :=
  if_neg new

theorem inserted_known {history : List (α × β)} (known : a ∈ (after most history).map Prod.fst) :
    inserted most ((a, b) :: history) = inserted most history := if_pos known

theorem inserted_new {history : List (α × β)} (new : a ∉ (after most history).map Prod.fst) :
    inserted most ((a, b) :: history) = a :: inserted most history := if_neg new

/-- A value written over leaves the keys as they are. -/
theorem keys_refresh (m : List (α × β)) (a : α) (b : β) :
    (m.map fun e => if e.1 = a then (a, b) else e).map Prod.fst = m.map Prod.fst := by
  rw [List.map_map]
  apply List.map_congr_left
  intro e _
  by_cases same : e.1 = a <;> simp [same]

/-! ## What it holds -/

theorem lookup_other (apart : key ≠ a) (b : β) (m : List (α × β)) :
    ((a, b) :: m).lookup key = m.lookup key := by
  rw [List.lookup_cons, beq_false_of_ne apart]

/-- Of each key there is one value at most. -/
theorem lookup_iff (once : (m.map Prod.fst).Nodup) : m.lookup a = some b ↔ (a, b) ∈ m := by
  induction m with
  | nil => simp
  | cons e m ih =>
    obtain ⟨first, others⟩ := List.nodup_cons.mp once
    by_cases here : a = e.1
    · subst here
      rw [List.lookup_cons_self]
      constructor
      · intro same
        obtain rfl := Option.some.inj same
        exact List.mem_cons_self
      · intro member
        obtain same | later := List.mem_cons.mp member
        · rw [← same]
        · exact absurd (List.mem_map_of_mem later) first
    · have skipped : (e :: m).lookup a = m.lookup a := lookup_other here e.2 m
      rw [skipped, ih others, List.mem_cons]
      constructor
      · exact Or.inr
      · rintro (same | later)
        · exact absurd (congrArg Prod.fst same) here
        · exact later

theorem lookup_none_iff : m.lookup a = none ↔ a ∉ m.map Prod.fst := by
  induction m with
  | nil => simp
  | cons e m ih =>
    by_cases here : a = e.1
    · subst here
      simp
    · have skipped : (e :: m).lookup a = m.lookup a := lookup_other here e.2 m
      rw [skipped, ih]
      simp [here]

/-! ## What a history leaves -/

/-- What a run keeps: the keys are those inserted last, each once, with the value
learned last. -/
structure Kept (most : Nat) (history : List (α × β)) : Prop where
  keys : (after most history).map Prod.fst = (inserted most history).take most
  once : ((after most history).map Prod.fst).Nodup
  latest : ∀ e ∈ after most history, history.lookup e.1 = some e.2

theorem after_kept (most : Nat) (history : List (α × β)) : Kept most history := by
  induction history with
  | nil => exact ⟨by simp [after, inserted], by simp [after], by simp [after]⟩
  | cons event before ih =>
    obtain ⟨a, b⟩ := event
    obtain ⟨keys, once, latest⟩ := ih
    have next : after most ((a, b) :: before) = learn most (after most before) a b := rfl
    by_cases known : a ∈ (after most before).map Prod.fst
    · rw [learn_known known] at next
      refine ⟨by rw [next, keys_refresh, keys, inserted_known known],
        by rw [next, keys_refresh]; exact once,
        fun e member => ?_⟩
      rw [next] at member
      obtain ⟨old, there, rfl⟩ := List.mem_map.mp member
      by_cases same : old.1 = a
      · rw [if_pos same, List.lookup_cons_self]
      · rw [if_neg same, lookup_other same]
        exact latest old there
    · rw [learn_new known] at next
      have front : (((a, b) :: after most before).take most).map Prod.fst =
          (a :: inserted most before).take most := by
        rw [List.map_take, List.map_cons, keys]
        cases most with
        | zero => rfl
        | succ most =>
          rw [List.take_succ_cons, List.take_succ_cons, List.take_take,
            Nat.min_eq_left (Nat.le_succ most)]
      refine ⟨by rw [next, front, inserted_new known], ?_, fun e member => ?_⟩
      · rw [next, List.map_take]
        exact (List.nodup_cons.mpr ⟨known, once⟩).sublist (List.take_sublist _ _)
      · rw [next] at member
        obtain rfl | there := List.mem_cons.mp (List.mem_of_mem_take member)
        · exact List.lookup_cons_self
        · have apart : e.1 ≠ a := fun same => known (same ▸ List.mem_map_of_mem there)
          rw [lookup_other apart]
          exact latest e there

/-- A key among the last inserted has the value learned for it last. -/
theorem lookup_recent {history : List (α × β)} (recent : a ∈ (inserted most history).take most) :
    ∃ b, history.lookup a = some b ∧ (after most history).lookup a = some b := by
  obtain ⟨keys, once, latest⟩ := after_kept most history
  rw [← keys] at recent
  obtain ⟨e, member, rfl⟩ := List.mem_map.mp recent
  exact ⟨e.2, latest e member, (lookup_iff once).mpr member⟩

/-- And any other has none. -/
theorem lookup_gone {history : List (α × β)} (gone : a ∉ (inserted most history).take most) :
    (after most history).lookup a = none := by
  rw [lookup_none_iff, (after_kept most history).keys]
  exact gone

/-! ## How long a key stays -/

/-- No key is inserted while it is among the last inserted. -/
theorem inserted_apart (history : List (α × β)) {front back : List α}
    (split : inserted most history = front ++ a :: back) :
    a ∉ back.take most := by
  induction history generalizing front with
  | nil => simp [inserted] at split
  | cons event before ih =>
    by_cases known : event.1 ∈ (after most before).map Prod.fst
    · rw [show event = (event.1, event.2) from rfl, inserted_known known] at split
      exact ih split
    · rw [show event = (event.1, event.2) from rfl, inserted_new known] at split
      obtain _ | ⟨first, front⟩ := front
      · obtain ⟨rfl, rfl⟩ := List.cons.inj split
        rw [← (after_kept most before).keys]
        exact known
      · exact ih (List.cons.inj split).2

/-- What is inserted later goes in front. -/
theorem inserted_append (most : Nat) (more history : List (α × β)) :
    ∃ further, inserted most (more ++ history) = further ++ inserted most history := by
  induction more with
  | nil => exact ⟨[], rfl⟩
  | cons event more ih =>
    obtain ⟨further, same⟩ := ih
    by_cases known : event.1 ∈ (after most (more ++ history)).map Prod.fst
    · exact ⟨further, (inserted_known known).trans same⟩
    · refine ⟨event.1 :: further, (inserted_new known).trans ?_⟩
      rw [same]
      rfl

/-- A key just inserted stays until `most` others have been, and no longer. -/
theorem stays_until {history : List (α × β)} (new : a ∉ (after most history).map Prod.fst)
    (more : List (α × β)) :
    ((inserted most (more ++ (a, b) :: history)).length < (inserted most history).length + 1 + most →
      a ∈ (inserted most (more ++ (a, b) :: history)).take most) ∧
    ((inserted most (more ++ (a, b) :: history)).length = (inserted most history).length + 1 + most →
      a ∉ (inserted most (more ++ (a, b) :: history)).take most) := by
  obtain ⟨further, same⟩ := inserted_append most more ((a, b) :: history)
  have here : inserted most ((a, b) :: history) = a :: inserted most history := if_neg new
  rw [here] at same
  rw [same, List.length_append, List.length_cons]
  constructor
  · intro few
    have inside : further.length < most := by omega
    rw [List.take_append]
    refine List.mem_append_right _ ?_
    obtain ⟨left, room⟩ : ∃ n, most - further.length = n + 1 := ⟨most - further.length - 1, by omega⟩
    rw [room, List.take_succ_cons]
    exact List.mem_cons_self
  · intro enough
    have exactly : further.length = most := by omega
    rw [List.take_left' exactly]
    intro again
    -- The later of two insertions would be within `most` of the earlier.
    obtain ⟨front, back, parts⟩ := List.append_of_mem again
    have twice : inserted most (more ++ (a, b) :: history) = front ++ a ::
        (back ++ a :: inserted most history) := by
      rw [same, parts, List.append_assoc, List.cons_append]
    apply inserted_apart _ twice
    have shorter : back.length < most := by
      rw [← exactly, parts]
      simp only [List.length_append, List.length_cons]
      omega
    rw [List.take_append]
    refine List.mem_append_right _ ?_
    obtain ⟨left, room⟩ : ∃ n, most - back.length = n + 1 := ⟨most - back.length - 1, by omega⟩
    rw [room, List.take_succ_cons]
    exact List.mem_cons_self

/-- A refreshed key changes no other. -/
theorem lookup_refresh (known : a ∈ m.map Prod.fst) (once : (m.map Prod.fst).Nodup) (other : key ≠ a) :
    (learn most m a b).lookup key = m.lookup key := by
  rw [learn_known known]
  have once' : ((m.map fun e => if e.1 = a then (a, b) else e).map Prod.fst).Nodup := by
    rw [keys_refresh]
    exact once
  ext value
  rw [lookup_iff once', lookup_iff once, List.mem_map]
  constructor
  · rintro ⟨e, member, same⟩
    by_cases here : e.1 = a
    · rw [if_pos here] at same
      exact absurd (congrArg Prod.fst same).symm other
    · rw [if_neg here] at same
      exact same ▸ member
  · intro member
    exact ⟨(key, value), member, if_neg other⟩

end MegaNet.FifoMap
