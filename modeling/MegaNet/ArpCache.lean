import MegaNet.Core.Packet
import MegaNet.FifoMap

/-! The ARP cache as a bounded map that forgets first what came in first: slots
filled in turn and then written over in turn, against the history of what was
learned. -/
namespace MegaNet.ArpCache
open MegaNet.Core FifoMap

variable {c : MnArpCache} {m : List (Ip4 × Mac)} {ip : Ip4} {mac : Mac}

/-! ## What the slots hold -/

def entry (e : Ip4 × Mac) : MnArpEntry := ⟨e.1, e.2, true⟩

/-- The cache holds these addresses, the latest first. While a slot is free they
lie in the order they came; then the slots from `next` on are the older ones. -/
inductive Holds : MnArpCache → List (Ip4 × Mac) → Prop where
  | filling (taken : List (Ip4 × Mac)) (free : List MnArpEntry)
      (size : taken.length + free.length = MN_ARP_CACHE)
      (unused : ∀ e ∈ free, e.valid = false) (room : free ≠ []) : Holds
        ⟨taken.map entry ++ free, 0⟩ taken.reverse
  | full (newer older : List (Ip4 × Mac)) (size : newer.length + older.length = MN_ARP_CACHE)
      (more : older ≠ []) :
      Holds ⟨(newer ++ older).map entry, UInt8.ofNat newer.length⟩ (older ++ newer).reverse

/-- An entry for this address. -/
def isFor (ip : Ip4) (e : MnArpEntry) : Bool := e.valid && e.ip == ip

private theorem entry_isFor {e : Ip4 × Mac} : isFor ip (entry e) = true ↔ e.1 = ip := by
  simp [isFor, entry]

theorem Holds.mem (holds : Holds c m) {e : Ip4 × Mac} : entry e ∈ c.e ↔ e ∈ m := by
  have only : ∀ {taken : List (Ip4 × Mac)}, entry e ∈ taken.map entry ↔ e ∈ taken := by
    intro taken
    apply List.mem_map_of_injective
    intro a b same
    exact Prod.ext (congrArg MnArpEntry.ip same) (congrArg MnArpEntry.mac same)
  cases holds with
  | filling taken free size unused =>
    rw [List.mem_append, only, List.mem_reverse]
    constructor
    · rintro (member | member)
      · exact member
      · cases unused _ member
    · exact Or.inl
  | full newer older =>
    rw [only, List.mem_reverse, List.mem_append, List.mem_append]
    exact or_comm

/-- Whatever slot is in use holds such an entry. -/
theorem valid_entry {e : MnArpEntry} (valid : e.valid = true) : e = entry (e.ip, e.mac) := by
  obtain ⟨ip, mac, _⟩ := e
  cases valid
  rfl

/-- With each address held once, no two slots in use are for the same. -/
theorem Holds.apart (holds : Holds c m) (once : (m.map Prod.fst).Nodup) :
    c.e.Pairwise fun a b => a.valid = true → b.valid = true → a.ip ≠ b.ip := by
  have slots : ∀ {taken : List (Ip4 × Mac)}, (taken.map Prod.fst).Nodup →
      (taken.map entry).Pairwise fun a b => a.valid = true → b.valid = true → a.ip ≠ b.ip := by
    intro taken distinct
    rw [List.Nodup, List.pairwise_map] at distinct
    rw [List.pairwise_map]
    exact distinct.imp fun other _ _ => other
  cases holds with
  | filling taken free size unused =>
    rw [List.map_reverse, List.nodup_reverse] at once
    rw [List.pairwise_append]
    refine ⟨slots once, List.pairwise_of_forall_mem_list fun a member b _ used => ?_,
      fun a _ b member _ used => ?_⟩
    · rw [unused a member] at used
      cases used
    · rw [unused b member] at used
      cases used
  | full newer older =>
    rw [List.map_reverse, List.nodup_reverse, List.map_append] at once
    apply slots
    rw [List.map_append]
    exact List.nodup_append_comm.mp once

private theorem holds_init (whole : c.e.length = MN_ARP_CACHE) : Holds (mnArpCacheInit c) [] := by
  refine Holds.filling [] (c.e.map fun e => { e with valid := false }) ?_ ?_ ?_
  · rw [List.length_nil, List.length_map, whole, Nat.zero_add]
  · intro e member
    obtain ⟨_, _, rfl⟩ := List.mem_map.mp member
    rfl
  · intro none_
    rw [List.map_eq_nil_iff] at none_
    rw [none_] at whole
    cases whole

/-! ## Looking up -/

/-- The cache answers as the map does. -/
theorem Holds.lookup (holds : Holds c m) (once : (m.map Prod.fst).Nodup) (ip : Ip4) :
    mnArpCacheLookup c ip = m.lookup ip := by
  ext mac
  rw [lookup_iff once, ← holds.mem]
  unfold mnArpCacheLookup
  rw [Option.map_eq_some_iff]
  constructor
  · rintro ⟨e, found, rfl⟩
    have here := List.find?_some found
    have member := List.mem_of_find?_eq_some found
    simp only [Bool.and_eq_true, beq_iff_eq] at here
    rw [valid_entry here.1, here.2] at member
    exact member
  · intro member
    cases found : c.e.find? fun e => e.valid && e.ip == ip with
    | none =>
      have other := List.find?_eq_none.mp found _ member
      exact absurd (entry_isFor.mpr rfl) other
    | some e =>
      refine ⟨e, rfl, ?_⟩
      have here := List.find?_some found
      have there := List.mem_of_find?_eq_some found
      simp only [Bool.and_eq_true, beq_iff_eq] at here
      rw [valid_entry here.1, here.2, holds.mem, ← lookup_iff once] at there
      rw [holds.mem, ← lookup_iff once, there] at member
      exact Option.some.inj member

/-! ## Learning -/

private theorem map_unchanged {α : Type} {f : α → α} {l : List α}
    (same : ∀ a ∈ l, f a = a) : l.map f = l :=
  (List.map_congr_left same).trans (List.map_id l)

/-- Where one element at most is of a kind, changing the first is changing all. -/
theorem modify_first {α : Type} {p : α → Bool} (f : α → α) {l : List α} {i : Nat}
    (once : l.Pairwise fun a b => p a = true → p b = false) (found : l.findIdx? p = some i) :
    l.modify i f = l.map fun a => if p a then f a else a := by
  induction l generalizing i with
  | nil => cases found
  | cons a l ih =>
    obtain ⟨others, later⟩ := List.pairwise_cons.mp once
    rw [List.findIdx?_cons] at found
    by_cases here : p a = true
    · rw [if_pos here] at found
      obtain rfl := Option.some.inj found
      have same : l.map (fun a => if p a then f a else a) = l := by
        apply map_unchanged
        intro b member
        rw [others b member here]
        rfl
      rw [List.modify_zero_cons, List.map_cons, if_pos here, same]
    · rw [if_neg here] at found
      obtain ⟨k, there, rfl⟩ := Option.map_eq_some_iff.mp found
      rw [List.modify_succ_cons, List.map_cons, if_neg here, ih later there]

/-- A slot refreshed. -/
theorem Holds.refresh (holds : Holds c m) (ip : Ip4) (mac : Mac) :
    Holds { c with e := c.e.map fun e => if isFor ip e then { e with mac } else e }
      (m.map fun e => if e.1 = ip then (ip, mac) else e) := by
  have slots : ∀ taken : List (Ip4 × Mac), (taken.map entry).map
    (fun e => if isFor ip e then { e with mac } else e) =
      (taken.map fun e => if e.1 = ip then (ip, mac) else e).map entry := by
    intro taken
    rw [List.map_map, List.map_map]
    apply List.map_congr_left
    rintro ⟨key, old⟩ _
    by_cases same : key = ip <;> simp [isFor, entry, same]
  cases holds with
  | filling taken free size unused room =>
    have idle : free.map (fun e => if isFor ip e then { e with mac } else e) = free := by
      apply map_unchanged
      intro e member
      have other : isFor ip e = false := by simp [isFor, unused e member]
      rw [other]
      rfl
    dsimp only
    rw [List.map_reverse, List.map_append, slots, idle]
    exact .filling _ free (by rw [List.length_map]; exact size) unused room
  | full newer older size more =>
    have refreshed := Holds.full (newer.map fun e => if e.1 = ip then (ip, mac) else e)
      (older.map fun e => if e.1 = ip then (ip, mac) else e)
      (by rw [List.length_map, List.length_map]; exact size) (by simpa using more)
    rw [List.length_map, ← List.map_append, ← List.map_append, ← slots] at refreshed
    rw [List.map_reverse]
    exact refreshed

private theorem next_turn : ∀ n < 4, (UInt8.ofNat n + 1) % 4 = UInt8.ofNat ((n + 1) % 4) := by decide

/-- A new address goes where the map puts it, in place of the oldest if there is
no room. -/
theorem Holds.insert (holds : Holds c m) (ip : Ip4) (mac : Mac) :
    Holds { e := c.e.set (arpSlot c).1 ⟨ip, mac, true⟩, next := (arpSlot c).2 }
      (((ip, mac) :: m).take MN_ARP_CACHE) := by
  have used : ∀ taken : List (Ip4 × Mac), (taken.map entry).findIdx? (fun e => !e.valid) = none := by
    intro taken
    rw [List.findIdx?_eq_none_iff]
    intro e member
    obtain ⟨_, _, rfl⟩ := List.mem_map.mp member
    rfl
  cases holds with
  | filling taken free size unused room =>
    obtain ⟨spare, free, rfl⟩ := List.exists_cons_of_ne_nil room
    rw [List.length_cons] at size
    have slot : arpSlot ⟨taken.map entry ++ spare :: free, 0⟩ = (taken.length, 0) := by
      have found : (taken.map entry ++ spare :: free).findIdx? (fun e => !e.valid) =
          some taken.length := by
        rw [List.findIdx?_append, used, List.findIdx?_cons, unused spare List.mem_cons_self]
        simp
      unfold arpSlot
      rw [found]
    have written : (taken.map entry ++ spare :: free).set taken.length ⟨ip, mac, true⟩ =
        (taken ++ [(ip, mac)]).map entry ++ free := by
      rw [List.set_append_right _ _ (by simp)]
      simp [entry]
    have front : ((ip, mac) :: taken.reverse).take MN_ARP_CACHE = (taken ++ [(ip, mac)]).reverse := by
      rw [List.take_of_length_le (by simp only [List.length_cons, List.length_reverse]; omega),
        List.reverse_append]
      rfl
    rw [slot, written, front]
    by_cases last : free = []
    · subst last
      have done := Holds.full [] (taken ++ [(ip, mac)]) (by simpa using size) (by simp)
      rw [List.nil_append, List.append_nil] at done
      rw [List.append_nil]
      exact done
    · exact .filling _ free (by rw [List.length_append, List.length_singleton]; omega)
        (fun e member => unused e (List.mem_cons_of_mem _ member)) last
  | full newer older size more =>
    obtain ⟨oldest, older, rfl⟩ := List.exists_cons_of_ne_nil more
    rw [List.length_cons] at size
    have few : newer.length < 4 := by
      unfold MN_ARP_CACHE at size
      omega
    have slot : arpSlot ⟨(newer ++ oldest :: older).map entry, UInt8.ofNat newer.length⟩ =
        (newer.length, UInt8.ofNat ((newer.length + 1) % 4)) := by
      unfold arpSlot
      rw [used]
      dsimp only
      rw [next_turn _ few, UInt8.toNat_ofNat', Nat.mod_eq_of_lt (by omega)]
    have written : ((newer ++ oldest :: older).map entry).set newer.length ⟨ip, mac, true⟩ =
        (newer ++ (ip, mac) :: older).map entry := by
      rw [List.map_append, List.set_append_right _ _ (by simp)]
      simp [entry]
    have front : ((ip, mac) :: (oldest :: older ++ newer).reverse).take MN_ARP_CACHE =
        (older ++ newer ++ [(ip, mac)]).reverse := by
      have parts : (ip, mac) :: (oldest :: older ++ newer).reverse =
          (older ++ newer ++ [(ip, mac)]).reverse ++ [oldest] := by
        simp
      rw [parts, List.take_left']
      simp only [List.length_reverse, List.length_append, List.length_singleton]
      omega
    rw [slot, written, front]
    by_cases last : older = []
    · -- The turn is over: from now on the first slot is the oldest.
      subst last
      have done := Holds.full [] (newer ++ [(ip, mac)]) (by simpa using size) (by simp)
      have turned : (newer.length + 1) % 4 = 0 := by
        unfold MN_ARP_CACHE at size
        rw [List.length_nil] at size
        omega
      rw [turned]
      rw [List.nil_append, List.append_nil] at done
      exact done
    · have done := Holds.full (newer ++ [(ip, mac)]) older
        (by rw [List.length_append, List.length_singleton]; omega) last
      have short : (newer.length + 1) % 4 = (newer ++ [(ip, mac)]).length := by
        have := List.length_pos_iff.mpr last
        unfold MN_ARP_CACHE at size
        rw [List.length_append, List.length_singleton]
        omega
      rw [short]
      rw [← List.append_assoc, List.append_assoc newer] at done
      exact done

/-- `mn_arp_cache_learn` does what the map does. -/
theorem Holds.learn (holds : Holds c m) (once : (m.map Prod.fst).Nodup) (ip : Ip4) (mac : Mac) :
    Holds (mnArpCacheLearn c ip mac) (FifoMap.learn MN_ARP_CACHE m ip mac) := by
  have known_iff : ip ∈ m.map Prod.fst ↔ ∃ e ∈ c.e, isFor ip e = true := by
    rw [List.mem_map]
    constructor
    · rintro ⟨e, member, rfl⟩
      exact ⟨entry e, holds.mem.mpr member, entry_isFor.mpr rfl⟩
    · rintro ⟨e, member, here⟩
      simp only [isFor, Bool.and_eq_true, beq_iff_eq] at here
      rw [valid_entry here.1, holds.mem] at member
      exact ⟨_, member, here.2⟩
  unfold mnArpCacheLearn
  cases found : c.e.findIdx? fun e => e.valid && e.ip == ip with
  | none =>
    have new : ip ∉ m.map Prod.fst := by
      rw [known_iff]
      rintro ⟨e, member, here⟩
      have other := List.findIdx?_eq_none_iff.mp found e member
      exact absurd here (Bool.not_eq_true _ ▸ other)
    rw [learn_new new]
    exact holds.insert ip mac
  | some i =>
    have known : ip ∈ m.map Prod.fst := by
      rw [known_iff]
      by_contra none_
      have all : ∀ e ∈ c.e, isFor ip e = false := fun e member =>
        Bool.eq_false_iff.mpr fun here => none_ ⟨e, member, here⟩
      have missing := List.findIdx?_eq_none_iff.mpr all
      rw [show (c.e.findIdx? (isFor ip)) = some i from found] at missing
      cases missing
    have alone : c.e.Pairwise fun a b => isFor ip a = true → isFor ip b = false := by
      refine (holds.apart once).imp fun {a b} other here => Bool.eq_false_iff.mpr fun there => ?_
      simp only [isFor, Bool.and_eq_true, beq_iff_eq] at here there
      exact other here.1 there.1 (here.2.trans there.2.symm)
    have changed := modify_first (fun e => { e with mac }) alone found
    dsimp only
    rw [learn_known known, changed]
    exact holds.refresh ip mac

/-! ## Histories -/

/-- The cache after a history of what was learned, the latest first. -/
def learned (c : MnArpCache) : List (Ip4 × Mac) → MnArpCache
  | [] => mnArpCacheInit c
  | (ip, mac) :: before => mnArpCacheLearn (learned c before) ip mac

/-- The addresses that the cache did not know when they were learned, the latest
first. -/
def new (c : MnArpCache) : List (Ip4 × Mac) → List Ip4
  | [] => []
  | (ip, _) :: before =>
    if mnArpCacheLookup (learned c before) ip = none then ip :: new c before else new c before

private theorem learned_holds (whole : c.e.length = MN_ARP_CACHE) (history : List (Ip4 × Mac)) :
    Holds (learned c history) (after MN_ARP_CACHE history) := by
  induction history with
  | nil => exact holds_init whole
  | cons event before ih => exact ih.learn (after_kept _ before).once event.1 event.2

private theorem learned_lookup (whole : c.e.length = MN_ARP_CACHE)
    (history : List (Ip4 × Mac)) (ip : Ip4) :
    mnArpCacheLookup (learned c history) ip = (after MN_ARP_CACHE history).lookup ip :=
  (learned_holds whole history).lookup (after_kept _ history).once ip

private theorem new_inserted (whole : c.e.length = MN_ARP_CACHE) (history : List (Ip4 × Mac)) :
    new c history = inserted MN_ARP_CACHE history := by
  induction history with
  | nil => rfl
  | cons event before ih =>
    have unknown : mnArpCacheLookup (learned c before) event.1 = none ↔
        event.1 ∉ (after MN_ARP_CACHE before).map Prod.fst := by
      rw [learned_lookup whole, lookup_none_iff]
    unfold new
    by_cases known : event.1 ∈ (after MN_ARP_CACHE before).map Prod.fst
    · rw [if_neg fun none_ => unknown.mp none_ known, ih]
      exact (inserted_known known).symm
    · rw [if_pos (unknown.mpr known), ih]
      exact (inserted_new known).symm

/-- From its initialisation on the cache has one slot at most for an address. It
answers for the last `MN_ARP_CACHE` new addresses, with what was learned for them
last, and for no other; so a new address stays until that many others have been
new, and learning a known one again leaves the others alone. -/
theorem arp_cache_fifo (c : MnArpCache) (whole : c.e.length = MN_ARP_CACHE)
    (history : List (Ip4 × Mac)) :
    ((learned c history).e.Pairwise fun a b => a.valid = true → b.valid = true → a.ip ≠ b.ip) ∧
      (∀ ip ∈ (new c history).take MN_ARP_CACHE,
        ∃ mac, history.lookup ip = some mac ∧ mnArpCacheLookup (learned c history) ip = some mac) ∧
      (∀ ip ∉ (new c history).take MN_ARP_CACHE, mnArpCacheLookup (learned c history) ip = none) ∧
      (∀ ip mac more, mnArpCacheLookup (learned c history) ip = none →
        let later := more ++ (ip, mac) :: history
        ((new c later).length < (new c history).length + 1 + MN_ARP_CACHE →
          mnArpCacheLookup (learned c later) ip ≠ none) ∧
        ((new c later).length = (new c history).length + 1 + MN_ARP_CACHE →
          mnArpCacheLookup (learned c later) ip = none)) ∧
      ∀ ip mac other, mnArpCacheLookup (learned c history) ip ≠ none → other ≠ ip →
        mnArpCacheLookup (learned c ((ip, mac) :: history)) other = mnArpCacheLookup
          (learned c history) other := by
  have once := (after_kept MN_ARP_CACHE history).once
  refine ⟨(learned_holds whole history).apart once, fun ip recent => ?_, fun ip gone => ?_,
    fun ip mac more unknown => ?_, fun ip mac other known apart => ?_⟩
  · rw [new_inserted whole] at recent
    rw [learned_lookup whole]
    exact lookup_recent recent
  · rw [new_inserted whole] at gone
    rw [learned_lookup whole]
    exact lookup_gone gone
  · rw [learned_lookup whole, lookup_none_iff] at unknown
    obtain ⟨stays, goes⟩ := stays_until (b := mac) unknown more
    dsimp only
    rw [new_inserted whole, new_inserted whole, learned_lookup whole]
    refine ⟨fun few none_ => ?_, fun enough => lookup_gone (goes enough)⟩
    obtain ⟨_, _, found⟩ := lookup_recent (stays few)
    rw [none_] at found
    cases found
  · rw [ne_eq, learned_lookup whole, lookup_none_iff, not_not] at known
    rw [learned_lookup whole, learned_lookup whole]
    exact lookup_refresh known once apart

/-- Four slots before they are initialised. -/
def blankCache : MnArpCache := ⟨List.replicate 4 ⟨⟨0, 0, 0, 0⟩, ⟨0, 0, 0, 0, 0, 0⟩, false⟩, 7⟩

/-- Five neighbours, the latest first, the second having been heard twice. -/
def neighbours : List (Ip4 × Mac) :=
  [(⟨10, 0, 0, 5⟩, ⟨2, 0, 0, 0, 0, 5⟩), (⟨10, 0, 0, 2⟩, ⟨2, 0, 0, 0, 1, 2⟩),
    (⟨10, 0, 0, 4⟩, ⟨2, 0, 0, 0, 0, 4⟩),
    (⟨10, 0, 0, 3⟩, ⟨2, 0, 0, 0, 0, 3⟩), (⟨10, 0, 0, 2⟩, ⟨2, 0, 0, 0, 0, 2⟩),
      (⟨10, 0, 0, 1⟩, ⟨2, 0, 0, 0, 0, 1⟩)]

/-- The first of them is forgotten, the second under its later MAC. -/
theorem arp_cache_fifo_five :
    mnArpCacheLookup (learned blankCache neighbours) ⟨10, 0, 0, 1⟩ = none ∧
      ∃ mac, neighbours.lookup ⟨10, 0, 0, 2⟩ = some mac ∧
        mnArpCacheLookup (learned blankCache neighbours) ⟨10, 0, 0, 2⟩ = some mac := by
  obtain ⟨_, recent, gone, _⟩ := arp_cache_fifo blankCache rfl neighbours
  exact ⟨gone _ (by decide +kernel), recent _ (by decide +kernel)⟩

end MegaNet.ArpCache
