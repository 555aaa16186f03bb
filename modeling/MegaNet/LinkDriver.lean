import MegaNet.Core.Eth45e100
import MegaNet.Checksums
import MegaNet.Transition

/-! The link driver: its waits end, and on what; frames that come in are handed up
once each and in order; and what one driver transmits, another takes in. -/
namespace MegaNet.LinkDriver
open MegaNet.Core Eth45e100 WhileLoop Transition

variable {h : Readings} {w w' : Wait} {s : Spins} {frame : Nat → UInt8} {first : UInt8} {k : Nat}

/-! ## The counters of a wait -/

/-- The turns that the spin counters have counted. -/
def spun (s : Spins) : Nat := 65536 * s.wraps.toNat + s.spins.toNat

/-- A turn is counted, up to the last. -/
theorem spins_next (few : s.wraps.toNat < 200) :
    s.next = none ∧ spun s + 1 = mostTurns ∨
      ∃ s', s.next = some s' ∧ spun s' = spun s + 1 ∧ s'.wraps.toNat < 200 ∧ spun s' < mostTurns := by
  have bound := s.spins.toNat_lt
  have spins : (s.spins + 1).toNat = (s.spins.toNat + 1) % 65536 := UInt16.toNat_add s.spins 1
  have wraps : (s.wraps + 1).toNat = s.wraps.toNat + 1 := by
    rw [UInt8.toNat_add]
    exact Nat.mod_eq_of_lt (show s.wraps.toNat + 1 < 256 by omega)
  have most : mostTurns = 200 * 65536 := rfl
  have full : s.wraps + 1 ≥ 200 ↔ 200 ≤ s.wraps.toNat + 1 := by
    rw [ge_iff_le, UInt8.le_iff_toNat_le, wraps]
    rfl
  unfold Spins.next spun
  split
  · rename_i over_
    rw [← UInt16.toNat_inj, spins] at over_
    change (s.spins.toNat + 1) % 65536 = 0 at over_
    split
    · rename_i last
      rw [full] at last
      exact Or.inl ⟨rfl, by omega⟩
    · rename_i more
      rw [full] at more
      have zero : (0 : UInt16).toNat = 0 := rfl
      refine Or.inr ⟨⟨0, s.wraps + 1⟩, rfl, ?_, ?_, ?_⟩ <;>
      · dsimp only
        rw [wraps]
        omega
  · rename_i under
    rw [← UInt16.toNat_inj, spins] at under
    change ¬ (s.spins.toNat + 1) % 65536 = 0 at under
    refine Or.inr ⟨⟨s.spins + 1, s.wraps⟩, rfl, ?_, few, ?_⟩ <;>
    · dsimp only
      rw [spins]
      omega

/-- What the frame counter read at the turn before. -/
def before (first : UInt8) (frame : Nat → UInt8) : Nat → UInt8
  | 0 => first
  | k + 1 => frame k

/-- How often it has changed in the first `k` turns. -/
def changes (first : UInt8) (frame : Nat → UInt8) : Nat → Nat
  | 0 => 0
  | k + 1 => changes first frame k + if frame k ≠ before first frame k then 1 else 0

/-- The variables of a wait after its turns, with fewer than `most` changes seen
of a counter that has the bits for them. -/
structure Waited (first : UInt8) (frame : Nat → UInt8) (w : Wait) : Prop where
  last : w.last = before first frame w.turn
  seen : w.seen.toNat = changes first frame w.turn
  made : spun w.spins = w.turn
  few : w.spins.wraps.toNat < 200

private theorem waited_begin (first : UInt8) (frame : Nat → UInt8) : Waited first frame
    { last := first } :=
  ⟨rfl, rfl, rfl, (by decide : (0 : Nat) < 200)⟩

/-- A look counts a change, if the count fits. -/
theorem look_seen (waited : Waited first frame w) (room : w.seen.toNat < 255) :
    (w.look (frame w.turn)).last = frame w.turn ∧
      (w.look (frame w.turn)).seen.toNat = changes first frame (w.turn + 1) ∧
      (w.look (frame w.turn)).spins = w.spins ∧ (w.look (frame w.turn)).turn = w.turn := by
  have more : (w.seen + 1).toNat = w.seen.toNat + 1 := by
    rw [UInt8.toNat_add]
    exact Nat.mod_eq_of_lt (show w.seen.toNat + 1 < 256 by omega)
  unfold Wait.look changes
  rw [← waited.last, ← waited.seen]
  split
  · exact ⟨rfl, more, rfl, rfl⟩
  · rename_i same
    exact ⟨(not_not.mp same).symm, rfl, rfl, rfl⟩

/-- A turn that is not the last of the backstop's. -/
theorem Waited.next (waited : Waited first frame w) (room : w.seen.toNat < 255) {spins : Spins}
    (counted : spun spins = spun w.spins + 1) (few : spins.wraps.toNat < 200) :
    Waited first frame { w.look (frame w.turn) with spins, turn := w.turn + 1 } := by
  obtain ⟨last, seen, _, _⟩ := look_seen waited room
  exact ⟨last, seen, counted.trans (congrArg (· + 1) waited.made), few⟩

/-! ## Waiting for the transmitter -/

/-- The transmitter is idle as turn `k` looks. -/
def Idle (h : Readings) (k : Nat) : Prop := h.ctrl1 k &&& CTRL1_TXIDLE ≠ 0

/-- Turn `k` has nothing to end the wait on but the backstop. -/
def Busy (h : Readings) (k : Nat) : Prop := ¬ Idle h k ∧ changes h.first h.frame (k + 1) < 50

/-- What the wait ends on in turn `k`. -/
inductive EndsAt (h : Readings) (k : Nat) : TxEnd → Prop where
  | idle (idle : Idle h k) : EndsAt h k .idle
  | frames (busy : ¬ Idle h k) (enough : changes h.first h.frame (k + 1) = 50) : EndsAt h k .frames
  | stalled (busy : Busy h k) (last : k + 1 = mostTurns) : EndsAt h k .stalled

/-- The wait, with nothing to end it on so far. -/
structure Waiting (h : Readings) (w : Wait) : Prop where
  waited : Waited h.first h.frame w
  under : w.seen.toNat < 50
  busy : ∀ j < w.turn, Busy h j
  below : w.turn < mostTurns

/-- One turn of it. -/
theorem txTurn_cases (waiting : Waiting h w) :
    (∃ out, txTurn h w = .done out ∧ EndsAt h w.turn out) ∨
      ∃ w', txTurn h w = .next w' ∧ Waiting h w' ∧ w'.turn = w.turn + 1 := by
  obtain ⟨waited, under, busy, below⟩ := waiting
  obtain ⟨_, seen, spins, turn⟩ := look_seen waited (by omega)
  have same : changes h.first h.frame w.turn = w.seen.toNat := waited.seen.symm
  by_cases idle : h.ctrl1 w.turn &&& CTRL1_TXIDLE ≠ 0
  · exact Or.inl ⟨.idle, by rw [txTurn, if_pos idle], .idle idle⟩
  have step : changes h.first h.frame (w.turn + 1) =
      w.seen.toNat + if h.frame w.turn ≠ w.last then 1 else 0 := by
    rw [changes, same, ← waited.last]
  have enough : (w.look (h.frame w.turn)).seen ≥ 50 ↔ 50 ≤ changes h.first h.frame (w.turn + 1) := by
    rw [ge_iff_le, UInt8.le_iff_toNat_le, seen]
    rfl
  by_cases ends : h.frame w.turn ≠ w.last ∧ (w.look (h.frame w.turn)).seen ≥ 50
  · have many := enough.mp ends.2
    rw [if_pos ends.1] at step
    refine Or.inl ⟨.frames, ?_, .frames idle (by omega)⟩
    rw [txTurn, if_neg idle]
    exact if_pos ends
  have less : changes h.first h.frame (w.turn + 1) < 50 := by
    by_contra many
    split at step
    · rename_i changed
      exact ends ⟨changed, enough.mpr (by omega)⟩
    · omega
  have goes : txTurn h w = (w.look (h.frame w.turn)).spin .stalled := by
    rw [txTurn, if_neg idle]
    exact if_neg ends
  rw [goes, Wait.spin, spins, turn]
  obtain ⟨none_, last⟩ | ⟨s', some_, counted, few, before_⟩ := spins_next waited.few
  · rw [none_]
    exact Or.inl ⟨.stalled, rfl, .stalled ⟨idle, less⟩ (waited.made ▸ last)⟩
  · rw [some_]
    refine Or.inr ⟨_, rfl, ⟨waited.next (by omega) counted few, ?_, fun j earlier => ?_, ?_⟩, rfl⟩
    · exact seen.trans_lt less
    · obtain earlier | rfl := Nat.lt_succ_iff_lt_or_eq.mp earlier
      · exact busy j earlier
      · exact ⟨idle, less⟩
    · rw [← waited.made, ← counted]
      exact before_

private theorem txTurn_next (w w' : Wait) (waiting : Waiting h w) (goes : txTurn h w = .next w') :
    Waiting h w' ∧ mostTurns - 1 - w'.turn < mostTurns - 1 - w.turn := by
  obtain ⟨out, leaves, _⟩ | ⟨_, goes', waiting', turn⟩ := txTurn_cases waiting
  · cases goes.symm.trans leaves
  · cases goes.symm.trans goes'
    have below := waiting'.below
    exact ⟨waiting', by omega⟩

/-- The wait of `eth_tx` ends within so many turns, on the first that finds the
transmitter idle, or the fiftieth frame, or the backstop at its end. -/
theorem tx_wait_ends (h : Readings) :
    ∃ k < mostTurns, (∀ j < k, Busy h j) ∧
      ∃ out, txWait h mostTurns { last := h.first } = some out ∧ EndsAt h k out := by
  have start : Waiting h { last := h.first } :=
    ⟨waited_begin h.first h.frame, (by decide : (0 : Nat) < 50),
      fun _ none_ => absurd none_ (Nat.not_lt_zero _),
      (by decide : 0 < mostTurns)⟩
  obtain ⟨turns, out, runs, few⟩ := Runs.of_variant txTurn_next start
  have result : txWait h mostTurns { last := h.first } = some out :=
    runs.loop (few.trans_lt (show mostTurns - 1 - 0 < mostTurns by decide))
  obtain ⟨_, last, waiting, leaves⟩ :=
    runs.invariant (fun a a' inv goes => (txTurn_next a a' inv goes).1) start
  obtain ⟨out', leaves', ends⟩ | ⟨_, goes, _⟩ := txTurn_cases waiting
  · cases leaves.symm.trans leaves'
    exact ⟨last.turn, waiting.below, waiting.busy, out, result, ends⟩
  · cases leaves.symm.trans goes

/-! ## Waiting for frames -/

/-- The wait, with fewer frames seen than it is for. -/
structure Pausing (frames first : UInt8) (frame : Nat → UInt8) (w : Wait) : Prop where
  waited : Waited first frame w
  under : ∀ j < w.turn, changes first frame j < frames.toNat
  below : w.turn < mostTurns

private theorem framesTurn_cases {frames : UInt8} (pausing : Pausing frames first frame w) :
    (framesTurn frames frame w = .done true ∧ frames.toNat ≤ changes first frame w.turn) ∨
      (framesTurn frames frame w = .done false ∧ changes first frame w.turn < frames.toNat ∧
        w.turn + 1 = mostTurns) ∨
      ∃ w', framesTurn frames frame w = .next w' ∧ Pausing frames first frame w' ∧
        w'.turn = w.turn + 1 := by
  obtain ⟨waited, under, below⟩ := pausing
  have most := frames.toNat_lt
  rw [← waited.seen]
  by_cases more : w.seen < frames
  · have more' := UInt8.lt_iff_toNat_lt.mp more
    obtain ⟨_, _, spins, turn⟩ := look_seen waited (by omega)
    have goes : framesTurn frames frame w = (w.look (frame w.turn)).spin false := if_pos more
    rw [goes, Wait.spin, spins, turn]
    obtain ⟨none_, last⟩ | ⟨s', some_, counted, few, before_⟩ := spins_next waited.few
    · rw [none_]
      exact Or.inr (Or.inl ⟨rfl, more', waited.made ▸ last⟩)
    · rw [some_]
      refine Or.inr (Or.inr ⟨_, rfl, ⟨waited.next (by omega) counted few, fun j earlier => ?_, ?_⟩, rfl⟩)
      · obtain earlier | rfl := Nat.lt_succ_iff_lt_or_eq.mp earlier
        · exact under j earlier
        · rw [← waited.seen]
          exact more'
      · rw [← waited.made, ← counted]
        exact before_
  · refine Or.inl ⟨by rw [framesTurn, if_neg more], ?_⟩
    rw [UInt8.lt_iff_toNat_lt] at more
    omega

private theorem framesTurn_next {frames : UInt8} (w w' : Wait) (pausing : Pausing frames first frame w)
    (goes : framesTurn frames frame w = .next w') :
    Pausing frames first frame w' ∧ mostTurns - 1 - w'.turn < mostTurns - 1 - w.turn := by
  obtain ⟨leaves, _⟩ | ⟨leaves, _⟩ | ⟨_, goes', pausing', turn⟩ := framesTurn_cases pausing
  · cases goes.symm.trans leaves
  · cases goes.symm.trans leaves
  · cases goes.symm.trans goes'
    have below := pausing'.below
    exact ⟨pausing', by omega⟩

/-- `mn_m65_wait_frames` ends on the turn that has seen so many frames, and before
that only where the counter has not moved on in all the turns of the backstop. -/
theorem frames_wait_ends (frames first : UInt8) (frame : Nat → UInt8) :
    ∃ k < mostTurns, (∀ j < k, changes first frame j < frames.toNat) ∧
      (waitFrames frames frame mostTurns { last := first } = some true ∧
        frames.toNat ≤ changes first frame k ∨
        waitFrames frames frame mostTurns { last := first } = some false ∧
          changes first frame k < frames.toNat ∧
          k + 1 = mostTurns) := by
  have start : Pausing frames first frame { last := first } :=
    ⟨waited_begin first frame, fun _ none_ => absurd none_ (Nat.not_lt_zero _),
      (by decide : 0 < mostTurns)⟩
  obtain ⟨turns, out, runs, few⟩ := Runs.of_variant framesTurn_next start
  have result : waitFrames frames frame mostTurns { last := first } = some out :=
    runs.loop (few.trans_lt (show mostTurns - 1 - 0 < mostTurns by decide))
  obtain ⟨_, last, pausing, leaves⟩ :=
    runs.invariant (fun a a' inv goes => (framesTurn_next a a' inv goes).1) start
  rw [result]
  refine ⟨last.turn, pausing.below, pausing.under, ?_⟩
  obtain ⟨leaves', enough⟩ | ⟨leaves', short⟩ | ⟨_, goes, _⟩ := framesTurn_cases pausing
  · cases leaves.symm.trans leaves'
    exact Or.inl ⟨rfl, enough⟩
  · cases leaves.symm.trans leaves'
    exact Or.inr ⟨rfl, short⟩
  · cases leaves.symm.trans goes

/-! ## The receive ring -/

abbrev Buffer := Nat → UInt8

section
variable {σ : Type} {hw : Controller σ} {came : σ → List Buffer} {front : σ → Nat}
  {written : σ → UInt8} {now later : σ}
  {room : UInt16 → Prop} {cap : UInt16} {buffer : Buffer}

/-- Nothing has been rotated since, though frames may have come in. -/
structure Stays (hw : Controller σ) (came : σ → List Buffer) (front : σ → Nat)
    (now later : σ) : Prop where
  came : came now <+: came later
  front : front later = front now
  window : hw.window later = hw.window now

/-- What the hardware notes say of the ring (REQUIREMENTS.md 5.1, 5.5 and 5.20):
`came` is every frame that has come into it, `front` how many of them have been in
the window, and `written` the last write to `CTRL2`. Frames may come in at any time. -/
structure Rotating (hw : Controller σ) (came : σ → List Buffer) (front : σ → Nat)
    (written : σ → UInt8) : Prop where
  within : ∀ now, front now ≤ (came now).length
  flag : ∀ now, hw.peekCtrl2 now &&& CTRL2_RXWAITING = 0 ↔ front now = (came now).length
  holds : ∀ now v, written (hw.pokeCtrl2 now v) = v
  stays : ∀ now v, written now &&& 0x02 ≠ 0 ∨ v &&& 0x02 = 0 →
    Stays hw came front now (hw.pokeCtrl2 now v)
  rotates : ∀ now v buffer, written now &&& 0x02 = 0 → v &&& 0x02 ≠ 0 →
    (came now)[front now]? = some buffer →
    came now <+: came (hw.pokeCtrl2 now v) ∧ front (hw.pokeCtrl2 now v) = front now + 1 ∧
      hw.window (hw.pokeCtrl2 now v) = buffer

/-- The controller, how many frames had been in the window after `init`, and what
the driver has handed up since. -/
structure Session (σ : Type) where
  now : σ
  first : Nat
  up : List RxResult

/-- Time passes, or the driver is polled with some room. -/
inductive Session.Step (hw : Controller σ) (came : σ → List Buffer) (front : σ → Nat)
    (written : σ → UInt8)
    (room : UInt16 → Prop) (session : Session σ) : Session σ → Prop
  | passes {later : σ} (stays : Stays hw came front session.now later)
      (same : written later = written session.now) :
      Step hw came front written room session { session with now := later }
  | polls (cap : UInt16) (some_ : room cap) :
      Step hw came front written room session
        { session with now := (ethRx hw session.now cap).2, up := session.up ++
          (ethRx hw session.now cap).1.toList }

def Session.Begun (hw : Controller σ) (front : σ → Nat) (session : Session σ) : Prop :=
  ∃ now, session = ⟨initCtrl2 hw now, front (initCtrl2 hw now), []⟩

def Session.Run (hw : Controller σ) (came : σ → List Buffer) (front : σ → Nat) (written : σ → UInt8)
    (room : UInt16 → Prop) : Session σ → Prop :=
  Reachable (Session.Begun hw front) (Session.Step hw came front written room)

/-- The length that a buffer gives, with the frame check sequence. -/
def fullLength (buffer : Buffer) : Nat := (buffer 0).toNat + 256 * (buffer 1 &&& 0x0f).toNat

/-- The frame in a buffer, if it is a sound one. -/
def frameIn (buffer : Buffer) : Option (List UInt8) :=
  if fullLength buffer ≤ 4 ∨ buffer 1 &&& META1_CRCERR ≠ 0 then none
  else some ((List.range (fullLength buffer - 4)).map fun j => buffer (2 + j))

/-- As much of a frame as there is room for. -/
def cutTo (cap : UInt16) (frame : List UInt8) : RxResult :=
  ⟨frame.take cap.toNat, UInt16.ofNat (min frame.length cap.toNat)⟩

/-- With any room at all, that is what is taken out of the window. -/
theorem taken_frame (some_ : cap ≠ 0) : taken buffer cap = (frameIn buffer).map (cutTo cap) := by
  have low := (buffer 0).toNat_lt
  have nibble : (buffer 1 &&& 0x0f).toNat < 16 := by
    rw [UInt8.toNat_and]
    exact Nat.lt_of_le_of_lt Nat.and_le_right (by decide)
  have wide : 0 < cap.toNat := Nat.pos_of_ne_zero fun none_ => some_ (Words.eq_zero_of_toNat none_)
  have full : ((buffer 0).toUInt16 ||| (buffer 1 &&& 0x0f).toUInt16 <<< 8).toNat =
      fullLength buffer := by
    rw [UInt16.or_comm, UInt16.toNat_or, Checksums.high_toNat, UInt8.toNat_toUInt16,
      ← Nat.two_pow_add_eq_or_of_lt low]
    unfold fullLength
    omega
  have bound : fullLength buffer < 4096 := by
    unfold fullLength
    omega
  have four : FCS_LEN.toNat = 4 := rfl
  unfold taken frameIn
  dsimp only
  generalize (buffer 0).toUInt16 ||| (buffer 1 &&& 0x0f).toUInt16 <<< 8 = n at full
  have short : n ≤ FCS_LEN ↔ fullLength buffer ≤ 4 := by
    rw [UInt16.le_iff_toNat_le, full, four]
  by_cases unsound : fullLength buffer ≤ 4 ∨ buffer 1 &&& META1_CRCERR ≠ 0
  · rw [if_pos (unsound.imp_left short.mpr), if_pos unsound]
    rfl
  rw [if_neg fun bad => unsound (bad.imp_left short.mp), if_neg unsound]
  rw [not_or] at unsound
  have rest : (n - FCS_LEN).toNat = fullLength buffer - 4 := by
    rw [Words.toNat_less (by omega), full, four]
  have count := Words.toNat_clamp (n - FCS_LEN) cap
  rw [rest] at count
  generalize (if n - FCS_LEN > cap then cap else n - FCS_LEN) = m at count
  have least : m.toNat ≠ 0 := by omega
  have more : m ≠ 0 := fun none_ => least (by rw [none_]; rfl)
  rw [Option.map_some, cutTo, dmaCopy, if_neg more, count, List.length_map, List.length_range, ← count,
    UInt16.ofNat_toNat, count, ← List.map_take, List.take_range, Nat.min_comm]

/-- A poll leaves the controller where it is, or brings the next frame to the
window and takes it from there. -/
theorem ethRx_cases (ring : Rotating hw came front written) (now : σ) (cap : UInt16) :
    (front now = (came now).length ∧ ethRx hw now cap = (none, now)) ∨
      ∃ buffer later, (came now)[front now]? = some buffer ∧
        ethRx hw now cap = (taken buffer cap, later) ∧
        came now <+: came later ∧ front later = front now + 1 ∧ written later = 0x03 := by
  unfold ethRx
  by_cases none_ : hw.peekCtrl2 now &&& CTRL2_RXWAITING = 0
  · exact Or.inl ⟨(ring.flag now).mp none_, if_pos none_⟩
  have waits : front now < (came now).length :=
    Nat.lt_of_le_of_ne (ring.within now) fun same => none_ ((ring.flag now).mpr same)
  rw [if_neg none_]
  dsimp only
  obtain ⟨grown, same, _⟩ := ring.stays now 0x01 (Or.inr (by decide))
  have ⟨more, extended⟩ := grown
  have next : (came (hw.pokeCtrl2 now 0x01))[front (hw.pokeCtrl2 now 0x01)]? = some
      (came now)[front now] := by
    rw [same, ← extended, List.getElem?_append_left waits, List.getElem?_eq_getElem waits]
  have low : written (hw.pokeCtrl2 now 0x01) &&& 0x02 = 0 := by
    rw [ring.holds]
    decide
  obtain ⟨grown', turned, window⟩ := ring.rotates _ 0x03 _ low (by decide) next
  refine Or.inr ⟨_, _, List.getElem?_eq_getElem waits, ?_, grown.trans grown', ?_, ring.holds _ _⟩
  · rw [window]
  · rw [turned, same]

/-- What the polls have served: every frame once, in the order they came in. -/
structure Served (came : σ → List Buffer) (front : σ → Nat) (written : σ → UInt8) (room : UInt16 → Prop)
    (session : Session σ) (served : List (Buffer × UInt16)) : Prop where
  order : (came session.now).take (front session.now) = (came session.now).take session.first ++
    served.map Prod.fst
  up : session.up = served.filterMap fun one => (frameIn one.1).map (cutTo one.2)
  room : ∀ one ∈ served, room one.2
  first : session.first ≤ front session.now
  rest : written session.now = 0x00 ∨ written session.now = 0x03

/-- What has come in stays what it is. -/
theorem take_later {n : Nat} (within : n ≤ (came now).length) (grown : came now <+: came later) :
    (came later).take n = (came now).take n := by
  obtain ⟨more, same⟩ := grown
  rw [← same, List.take_append_of_le_length within]

/-- Over any controller whose ring rotates so, and in every order of arrivals and
polls, the driver hands up the frames that have come in once each and in their
order, the unsound ones left out and each cut to the room there was; and `CTRL2`
stays clear but for the rotate bits. -/
theorem frames_served_in_order (ring : Rotating hw came front written) (wide : ∀ cap, room cap → cap ≠ 0)
    {session : Session σ} (run : Session.Run hw came front written room session) :
    ∃ served, Served came front written room session served := by
  refine Reachable.invariant (motive := fun session => ∃ served,
    Served came front written room session served) ?_ ?_ run
  · rintro _ ⟨now, rfl⟩
    refine ⟨[], (List.append_nil _).symm, rfl, nofun, Nat.le_refl _, Or.inl ?_⟩
    exact ring.holds _ _
  · rintro session _ _ ⟨served, order, up, some_, first, rest⟩ step
    have inside := ring.within session.now
    cases step with
    | passes stays same =>
      refine ⟨served, ?_, up, some_, ?_, ?_⟩
      · dsimp only
        rw [stays.front, take_later inside stays.came, take_later (first.trans inside) stays.came, order]
      · exact first.trans_eq stays.front.symm
      · exact same.symm ▸ rest
    | polls cap fits =>
      obtain ⟨_, nothing⟩ | ⟨buffer, later, waits, takes, grown, turned,
        wrote⟩ := ethRx_cases ring session.now cap
      · rw [nothing]
        exact ⟨served, order, (List.append_nil _).trans up, some_, first, rest⟩
      · rw [takes]
        have here := (List.getElem?_eq_some_iff.mp waits).1
        refine ⟨served ++ [(buffer, cap)], ?_, ?_, fun one member => ?_, ?_, Or.inr wrote⟩
        · dsimp only
          rw [turned, take_later (Nat.succ_le_of_lt here) grown, take_later (first.trans inside) grown,
            List.take_add_one, waits, order, List.map_append, List.append_assoc]
          rfl
        · dsimp only
          rw [up, List.filterMap_append, List.filterMap_cons, taken_frame (wide cap fits)]
          cases (frameIn buffer).map (cutTo cap) <;> rfl
        · obtain old | new := List.mem_append.mp member
          · exact some_ one old
          · cases List.mem_singleton.mp new
            exact fits
        · exact first.trans (turned ▸ Nat.le_succ _)

/-! ## From one driver to another -/

/-- The buffer of a received frame: its length with the frame check sequence and
the flags in front, none for an error. -/
structure Landed (frame : List UInt8) (buffer : Buffer) : Prop where
  length : fullLength buffer = frame.length + 4
  sound : buffer 1 &&& META1_CRCERR = 0
  bytes : (List.range frame.length).map (fun j => buffer (2 + j)) = frame

/-- What the driver transmits: the frame, with zeros up to the least length. -/
theorem ethTx_some {buf frame : List UInt8} (sent : ethTx h buf = some frame) :
    frame = buf ++ List.replicate (MIN_FRAME - buf.length) 0 ∧ 60 ≤ frame.length ∧
      frame.length ≤ 1518 := by
  unfold ethTx at sent
  split at sent
  · cases sent
  · rename_i fits
    dsimp only at sent
    split at sent
    · have small : MN_MAX_FRAME.toNat = 1518 := rfl
      have least : MIN_FRAME = 60 := rfl
      cases sent
      rw [List.length_append, List.length_replicate]
      exact ⟨rfl, by omega, by omega⟩
    · cases sent

private theorem frameIn_landed {frame : List UInt8} (landed : Landed frame buffer)
    (some_ : 0 < frame.length) :
    frameIn buffer = some frame := by
  have long : ¬ (fullLength buffer ≤ 4 ∨ buffer 1 &&& META1_CRCERR ≠ 0) := by
    rw [landed.length, landed.sound, not_or]
    exact ⟨Nat.not_le_of_lt (by omega), not_not.mpr rfl⟩
  rw [frameIn, if_neg long, landed.length, Nat.add_sub_cancel, landed.bytes]

private theorem served_frames {first : List (List UInt8)} {served : List (Buffer × UInt16)}
    (landed : List.Forall₂ Landed first (served.map Prod.fst))
    (sent : ∀ frame ∈ first, ∃ h buf, ethTx h buf = some frame)
    (wide : ∀ one ∈ served, 1518 ≤ one.2.toNat) :
    first = (served.filterMap fun one => (frameIn one.1).map (cutTo one.2)).map RxResult.buf := by
  induction served generalizing first with
  | nil =>
    cases landed
    rfl
  | cons one rest ih =>
    cases landed with
    | @cons frame _ later _ here there =>
      obtain ⟨h, buf, transmitted⟩ := sent frame List.mem_cons_self
      obtain ⟨_, least, most⟩ := ethTx_some transmitted
      rw [List.filterMap_cons, frameIn_landed here (by omega)]
      dsimp only [Option.map_some, cutTo]
      rw [List.map_cons, List.take_of_length_le (most.trans (wide one List.mem_cons_self))]
      congr 1
      exact ih there (fun f member => sent f (List.mem_cons_of_mem _ member))
        fun after member => wide after (List.mem_cons_of_mem _ member)

/-- What drivers at one end transmit, if it comes in at the other, the driver there
hands up, padded, in that order and each once: all of it but what still waits. -/
theorem link_in_order (ring : Rotating hw came front written) {session : Session σ}
    (run : Session.Run hw came front written (1518 ≤ ·.toNat) session) {frames : List (List UInt8)}
    (sent : ∀ frame ∈ frames, ∃ h buf, ethTx h buf = some frame)
    (landed : List.Forall₂ Landed frames ((came session.now).drop session.first)) :
    ∃ waiting, frames = session.up.map RxResult.buf ++ waiting ∧
      waiting.length = (came session.now).length - front session.now := by
  obtain ⟨served, order, up, wide, first, _⟩ := frames_served_in_order ring
    (fun cap fits none_ => by rw [none_] at fits; exact absurd fits (by decide)) run
  have inside := ring.within session.now
  have split_ : (came session.now).drop session.first =
      served.map Prod.fst ++ (came session.now).drop (front session.now) := by
    have whole := congrArg (List.drop session.first)
      (List.take_append_drop (front session.now) (came session.now))
    rw [order, List.append_assoc, List.drop_append_of_le_length (by rw [List.length_take]; omega),
      List.drop_of_length_le (by rw [List.length_take]; omega), List.nil_append] at whole
    exact whole.symm
  rw [split_] at landed
  have front_ := List.forall₂_take (served.map Prod.fst).length landed
  have back := List.forall₂_drop (served.map Prod.fst).length landed
  rw [List.take_left] at front_
  rw [List.drop_left] at back
  refine ⟨frames.drop (served.map Prod.fst).length, ?_, ?_⟩
  · rw [up, ← served_frames front_ (fun frame member => sent frame (List.mem_of_mem_take member)) wide,
      List.take_append_drop]
  · rw [back.length_eq, List.length_drop]

end

/-! ## Three frames over one link -/

/-- A ring of frames that came in, some of which have been in the window. -/
structure Queue where
  came : List Buffer
  front : Nat
  window : Buffer
  written : UInt8
  within : front ≤ came.length

/-- It rotates as bit 1 goes from 0 to 1. `CTRL2` reads as on the machine. -/
def queueing : Controller Queue where
  peekCtrl2 q := if q.front < q.came.length then 0x36 else 0x16
  window q := q.window
  pokeCtrl2 q v :=
    if waits : (q.written &&& 0x02 = 0 ∧ v &&& 0x02 ≠ 0) ∧ q.front < q.came.length then
      ⟨q.came, q.front + 1, q.came[q.front], v, waits.2⟩
    else { q with written := v }

private theorem queueing_rotates : Rotating queueing Queue.came Queue.front Queue.written where
  within := Queue.within
  flag q := by
    unfold queueing
    dsimp only
    split
    · rename_i waits
      exact ⟨fun none_ => absurd none_ (by decide), fun same => absurd same (Nat.ne_of_lt waits)⟩
    · rename_i empty
      exact ⟨fun _ => Nat.le_antisymm q.within (Nat.le_of_not_lt empty), fun _ => by decide⟩
  holds q v := by
    unfold queueing
    dsimp only
    split <;> rfl
  stays q v calm := by
    have low : ¬ ((q.written &&& 0x02 = 0 ∧ v &&& 0x02 ≠ 0) ∧ q.front < q.came.length) := by
      rintro ⟨⟨clear, set⟩, _⟩
      exact calm.elim (fun was => was clear) set
    have same : queueing.pokeCtrl2 q v = { q with written := v } := dif_neg low
    rw [same]
    exact ⟨List.prefix_rfl, rfl, rfl⟩
  rotates q v buffer clear set waits := by
    obtain ⟨inside, here⟩ := List.getElem?_eq_some_iff.mp waits
    have turns : queueing.pokeCtrl2 q v = ⟨q.came, q.front + 1, q.came[q.front], v, inside⟩ :=
      dif_pos ⟨⟨clear, set⟩, inside⟩
    rw [turns]
    exact ⟨List.prefix_rfl, rfl, here⟩

/-- The buffer that holds these bytes. -/
def bufferOf (bytes : List UInt8) : Buffer := fun j => bytes.getD j 0

/-- Nothing has come in yet. -/
def quiet : Queue := ⟨[], 0, bufferOf [], 0x00, Nat.le_refl 0⟩

/-- These have. -/
def filled (came : List Buffer) : Queue := ⟨came, 0, bufferOf [], 0x00, Nat.zero_le _⟩

/-- After `init`, three frames come in, and the driver is polled twice. -/
def polledTwice (came : List Buffer) (cap : UInt16) : Session Queue :=
  let first := ethRx queueing (filled came) cap
  let second := ethRx queueing first.2 cap
  ⟨second.2, 0, first.1.toList ++ second.1.toList⟩

theorem polledTwice_run {room : UInt16 → Prop} (came : List Buffer) {cap : UInt16} (fits : room cap) :
    Session.Run queueing Queue.came Queue.front Queue.written room (polledTwice came cap) := by
  have begun : initCtrl2 queueing quiet = quiet := rfl
  have start : Session.Run queueing Queue.came Queue.front Queue.written room ⟨quiet, 0, []⟩ :=
    .start ⟨quiet, by rw [begun]; rfl⟩
  have came_ : Stays queueing Queue.came Queue.front quiet (filled came) := ⟨List.nil_prefix, rfl, rfl⟩
  exact ((start.next (.passes came_ rfl)).next (.polls cap fits)).next (.polls cap fits)

/-- The first is unsound, the second is cut to two bytes, the third waits. -/
def mixed : List Buffer := [bufferOf [64, 0x80, 9], bufferOf [8, 0, 5, 6, 7, 8], bufferOf [6, 0, 1, 2]]

theorem frames_served_in_order_mixed :
    (polledTwice mixed 2).up.map RxResult.buf = [[5, 6]] ∧
      ∃ served, Served Queue.came Queue.front Queue.written (· = 2) (polledTwice mixed 2) served :=
  ⟨by decide, frames_served_in_order queueing_rotates
    (by rintro _ rfl; decide) (polledTwice_run mixed rfl)⟩

/-- Idle at the third look, the counter at 7 all along. -/
def idleSoon : Readings := ⟨7, fun k => if k < 2 then 0x11 else 0x91, fun _ => 7⟩

/-- What is sent, and padded to 60 bytes. -/
def sentBytes (k : Nat) : List UInt8 := [1, 2, UInt8.ofNat k]

def padded (k : Nat) : List UInt8 := sentBytes k ++ List.replicate 57 0

/-- It comes in behind its length of 64, its check sequence behind it. -/
def landedBuffer (k : Nat) : Buffer := bufferOf ([64, 0x20] ++ padded k ++ [0xd2, 0x37, 0x0d, 0x10])

/-- Two of the three have been handed up. -/
theorem link_in_order_three :
    ∃ waiting, [padded 0, padded 1, padded 2] =
        (polledTwice [landedBuffer 0, landedBuffer 1, landedBuffer 2] 1518).up.map RxResult.buf ++
          waiting ∧
      waiting.length = 1 := by
  refine link_in_order queueing_rotates (polledTwice_run _ (by decide)) (fun frame member => ?_) ?_
  · have transmitted (k : Nat) (below : k < 3) : ethTx idleSoon (sentBytes k) = some (padded k) := by
      rcases (show k = 0 ∨ k = 1 ∨ k = 2 by omega) with rfl | rfl | rfl <;> decide +kernel
    rcases List.mem_cons.mp member with rfl | member
    · exact ⟨_, _, transmitted 0 (by decide)⟩
    rcases List.mem_cons.mp member with rfl | member
    · exact ⟨_, _, transmitted 1 (by decide)⟩
    · rw [List.mem_singleton.mp member]
      exact ⟨_, _, transmitted 2 (by decide)⟩
  · have landed (k : Nat) (below : k < 3) : Landed (padded k) (landedBuffer k) := by
      rcases (show k = 0 ∨ k = 1 ∨ k = 2 by omega) with rfl | rfl | rfl <;> exact
        ⟨by decide, by decide, by decide⟩
    exact .cons (landed 0 (by decide)) (.cons (landed 1 (by decide)) (.cons (landed 2 (by decide)) .nil))

end MegaNet.LinkDriver
