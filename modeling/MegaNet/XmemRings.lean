import MegaNet.CircularBuffer
import MegaNet.Words
import MegaNet.Core.Xmem

/-! The ring copies of `mn_tcp.c` are the circular buffer's window and deposit,
for a ring that lies inside one 64 KB segment of the pool. -/
namespace MegaNet.XmemRings
open MegaNet.Core Words CircularBuffer

variable {x : XMem} {ext : PhysMem} {seg base size pos len : UInt16}

/-- The length of the first of a ring copy's two parts. -/
private theorem first_toNat (len : UInt16) (inside : pos.toNat < size.toNat) :
    (if size - pos > len then len else size - pos).toNat = min (size.toNat - pos.toNat) len.toNat := by
  rw [toNat_clamp, toNat_less (Nat.le_of_lt inside)]

private theorem rest_toNat {first : UInt16} (more : first < len) :
    (len - first).toNat = len.toNat - first.toNat :=
  toNat_less (Nat.le_of_lt (UInt16.lt_iff_toNat_lt.mp more))

private theorem xaddr_pos (seg : UInt16) (fits : base.toNat + size.toNat ≤ 65536)
    (inside : pos.toNat < size.toNat) :
    xaddr seg (base + pos) = xaddr seg base + pos.toNat := by
  simp only [xaddr, UInt16.toNat_add]
  omega

/-- A copy that does not pass the ring's end reads a window. -/
private theorem read_straight (x : XMem) (off : Nat) (start : UInt16)
    (at_ : xaddr seg start = xaddr seg base + off)
    (short : off + len.toNat ≤ size.toNat) :
    mnXmemRead x seg start len = window x (xaddr seg base) size.toNat off len.toNat := by
  apply List.map_congr_left
  intro i member
  have : i < len.toNat := List.mem_range.mp member
  rw [at_, cell, Nat.mod_eq_of_lt (by omega), Nat.add_assoc]

theorem ringRead_window (fits : base.toNat + size.toNat ≤ 65536) (inside : pos.toNat < size.toNat)
    (short : len.toNat ≤ size.toNat) :
    ringRead x seg base size pos len =
      window x (xaddr seg base) size.toNat pos.toNat len.toNat := by
  have split := first_toNat len inside
  unfold ringRead
  dsimp only
  generalize (if size - pos > len then len else size - pos) = first at split
  rw [read_straight x pos.toNat (base + pos) (xaddr_pos seg fits inside)
      (show pos.toNat + first.toNat ≤ size.toNat by omega)]
  by_cases more : first < len
  · have back := rest_toNat more
    rw [if_pos more, read_straight x 0 base (Nat.add_zero (xaddr seg base)).symm
      (show 0 + (len - first).toNat ≤ size.toNat by omega), back]
    rw [UInt16.lt_iff_toNat_lt] at more
    -- The first copy ends exactly where the ring does, so the second starts at 0.
    have around : window x (xaddr seg base) size.toNat 0 (len.toNat - first.toNat) =
        window x (xaddr seg base) size.toNat (pos.toNat + first.toNat) (len.toNat - first.toNat) := by
      rw [show pos.toNat + first.toNat = size.toNat by omega, ← @window_mod _ _ _ _ size.toNat,
        Nat.mod_self]
    rw [around, ← window_append]
    congr 1
    omega
  · have whole : first.toNat = len.toNat := by
      rw [UInt16.lt_iff_toNat_lt] at more
      omega
    rw [if_neg more, whole, List.append_nil]

/-- A copy of at most two parts, `item i` being the byte it writes `i`th: the
second part starts over at the ring's base. -/
private theorem two_parts (x : XMem) (item : Nat → UInt8) {start size pos front back : Nat}
    (inside : pos < size) (around : back = 0 ∨ pos + front = size)
    (straight : pos + front ≤ size) (short : front + back ≤ size) :
    (fun address =>
      if start ≤ address ∧ address < start + back then item (front + (address - start))
      else if start + pos ≤ address ∧ address < start + pos + front then item (address - (start + pos))
      else x address) =
      deposit x start size pos ((List.range (front + back)).map item) := by
  apply deposit_unique
  · intro address outside
    rw [if_neg (by omega), if_neg (by omega)]
  · intro i below
    have place : cell start size pos i = start + if pos + i < size then pos + i else pos + i - size := by
      unfold cell
      split
      · rw [Nat.mod_eq_of_lt ‹_›]
      · rw [Nat.mod_eq_sub_mod (by omega), Nat.mod_eq_of_lt (by omega)]
    rw [List.getElem?_map, place]
    by_cases written : i < front + back
    · rw [List.getElem?_range written]
      by_cases first : i < front
      · rw [if_pos (show pos + i < size by omega), if_neg (by omega), if_pos (by omega)]
        simp only [Option.map_some, Option.getD_some]
        congr 1
        omega
      · rw [if_neg (show ¬ pos + i < size by omega), if_pos (by omega)]
        simp only [Option.map_some, Option.getD_some]
        congr 1
        omega
    · rw [List.getElem?_eq_none (by simpa using written)]
      split
      · rw [if_neg (by omega), if_neg (by omega)]
        rfl
      · rw [if_neg (by omega), if_neg (by omega)]
        rfl

private theorem parts (len : UInt16) (inside : pos.toNat < size.toNat) :
    ∃ first : UInt16, (if size - pos > len then len else size - pos) = first ∧
      first.toNat ≤ len.toNat ∧ pos.toNat + first.toNat ≤ size.toNat ∧
      (first < len → (len - first).toNat = len.toNat - first.toNat ∧
        pos.toNat + first.toNat = size.toNat) ∧
      (¬ first < len → first = len) := by
  have split := first_toNat len inside
  refine ⟨_, rfl, by omega, by omega, ?_, ?_⟩
  · intro more
    refine ⟨rest_toNat more, ?_⟩
    rw [UInt16.lt_iff_toNat_lt] at more
    omega
  · intro done
    rw [UInt16.lt_iff_toNat_lt] at done
    rw [← UInt16.toNat_inj]
    omega

theorem ringWrite_deposit {src : List UInt8} (fits : base.toNat + size.toNat ≤ 65536)
    (inside : pos.toNat < size.toNat) (short : len.toNat ≤ size.toNat)
    (held : len.toNat ≤ src.length) :
    ringWrite x seg base size pos src len =
      deposit x (xaddr seg base) size.toNat pos.toNat (src.take len.toNat) := by
  have start := xaddr_pos seg fits inside
  obtain ⟨first, at_, most, straight, wraps, whole⟩ := parts len inside
  have items : src.take len.toNat = (List.range len.toNat).map fun i => src.getD i 0 := by
    apply List.ext_getElem
    · simp [held]
    · intro i left right
      have : i < src.length := by
        simp only [List.length_take] at left
        omega
      simp [this]
  unfold ringWrite
  dsimp only
  rw [at_, items]
  by_cases more : first < len
  · obtain ⟨back, turns⟩ := wraps more
    rw [if_pos more, show len.toNat = first.toNat + (len - first).toNat by omega,
      ← two_parts x _ inside (Or.inr turns) straight (by omega)]
    funext address
    simp only [mnXmemWrite, start]
    simp
  · rw [if_neg more, whole more]
    rw [← Nat.add_zero len.toNat, ← two_parts x _ inside (Or.inl rfl) (whole more ▸ straight) (by omega)]
    funext address
    rw [if_neg (by omega)]
    simp only [mnXmemWrite, start]

/-- The length of the first of a ring copy's two parts, `first`. -/
def front (size pos len : UInt16) : UInt16 := if size - pos > len then len else size - pos

/-- No 16-bit sum or difference of a ring copy wraps, and each of its two parts
lies in the ring, the ring in its segment. -/
structure Straight (base size pos len : UInt16) : Prop where
  room : (size - pos).toNat = size.toNat - pos.toNat
  start : (base + pos).toNat = base.toNat + pos.toNat
  rest : (len - front size pos len).toNat = len.toNat - (front size pos len).toNat
  frontInside : pos.toNat < size.toNat ∧ pos.toNat + (front size pos len).toNat ≤ size.toNat
  restInside : len.toNat ≤ size.toNat
  segment : base.toNat + size.toNat ≤ 65536

/-- A copy that begins in its ring and is no longer than it runs straight. -/
theorem straight_of (fits : base.toNat + size.toNat ≤ 65536) (inside : pos.toNat < size.toNat)
    (short : len.toNat ≤ size.toNat) : Straight base size pos len := by
  obtain ⟨first, at_, most, inner, _⟩ := parts len inside
  have at_ : front size pos len = first := at_
  refine ⟨toNat_less (Nat.le_of_lt inside), toNat_more (by omega), ?_, ?_, short, fits⟩
  · rw [at_, toNat_less most]
  · rw [at_]
    exact ⟨inside, inner⟩

/-- What a straight copy writes lies in its ring. -/
theorem Straight.outside (straight : Straight base size pos len) {src : List UInt8}
    (held : len.toNat ≤ src.length)
    {address : Nat} (away : address < xaddr seg base ∨ xaddr seg base + size.toNat ≤ address) :
    ringWrite x seg base size pos src len address = x address := by
  rw [ringWrite_deposit straight.segment straight.frontInside.1 straight.restInside held]
  exact deposit_outside away

private theorem read_get {src : UInt32} {i : Nat} (below : i < len.toNat) :
    (ext.read src len)[i]? = some (ext (src + UInt32.ofNat i)) := by
  simp [PhysMem.read, below]

private theorem copyIn_write {src : UInt32} (items : List UInt8) (off n : UInt16)
    (same : ∀ i < n.toNat, items[i]? = some (ext (src + UInt32.ofNat i))) :
    mnXmemCopyIn x seg off ext src n = mnXmemWrite x seg off items n := by
  funext address
  simp only [mnXmemCopyIn, mnXmemWrite]
  split
  · rw [List.getD_eq_getElem?_getD, same _ (by omega)]
    rfl
  · rfl

/-- Copying from the client's memory is writing what it holds there. -/
theorem ringWriteX_ringWrite {src : UInt32} (inside : pos.toNat < size.toNat) :
    ringWriteX x seg base size pos ext src len =
      ringWrite x seg base size pos (ext.read src len) len := by
  obtain ⟨first, at_, most, _, wraps, _⟩ := parts len inside
  unfold ringWriteX ringWrite
  dsimp only
  rw [at_]
  rw [copyIn_write (ext.read src len) (base + pos) first
    (fun i below => read_get (by omega))]
  split
  · rename_i more
    have back := (wraps more).1
    refine copyIn_write _ base (len - first) fun i below => ?_
    rw [List.getElem?_drop, read_get (by omega), UInt32.ofNat_add, UInt32.add_assoc]
    simp
  · rfl

private theorem offset_from (dst : UInt32) {i : Nat} (first : UInt16) (small : i < 65536) :
    (dst + UInt32.ofNat i - (dst + first.toUInt32)).toNat = (i + 2 ^ 32 - first.toNat) % 2 ^ 32 := by
  simp only [UInt32.toNat_sub, UInt32.toNat_add, UInt32.toNat_ofNat', UInt16.toNat_toUInt32]
  have := dst.toNat_lt
  have := first.toNat_lt
  omega

private theorem offset_start (dst : UInt32) {i : Nat} (small : i < 65536) :
    (dst + UInt32.ofNat i - dst).toNat = i := by
  simp only [UInt32.toNat_sub, UInt32.toNat_add, UInt32.toNat_ofNat']
  have := dst.toNat_lt
  omega

/-- The client finds at `dst` what the ring held. -/
theorem ringReadX_ringRead {dst : UInt32} (inside : pos.toNat < size.toNat) :
    (ringReadX ext dst x seg base size pos len).read dst len = ringRead x seg base size pos len := by
  obtain ⟨first, at_, most, _, wraps, whole⟩ := parts len inside
  have bound := len.toNat_lt
  unfold ringReadX ringRead
  dsimp only
  rw [at_]
  by_cases more : first < len
  · obtain ⟨back, _⟩ := wraps more
    rw [if_pos more, if_pos more, PhysMem.read, show len.toNat = first.toNat +
      (len - first).toNat by omega,
      List.range_add, List.map_append, List.map_map]
    congr 1
    · apply List.map_congr_left
      intro i member
      have : i < first.toNat := List.mem_range.mp member
      simp only [mnXmemCopyOut, offset_from dst (i := i) first (by omega),
        offset_start dst (i := i) (by omega)]
      rw [if_neg (by omega), if_pos (by omega)]
    · apply List.map_congr_left
      intro i member
      have : i < (len - first).toNat := List.mem_range.mp member
      simp only [Function.comp, mnXmemCopyOut, offset_from dst (i := first.toNat + i) first (by omega)]
      rw [if_pos (by omega)]
      congr 2
      omega
  · rw [if_neg more, if_neg more, whole more, List.append_nil]
    apply List.map_congr_left
    intro i member
    have : i < len.toNat := List.mem_range.mp member
    simp only [mnXmemCopyOut, offset_start dst (i := i) (by omega)]
    rw [if_pos this]

end MegaNet.XmemRings
