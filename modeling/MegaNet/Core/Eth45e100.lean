import MegaNet.Core.Packet
import MegaNet.WhileLoop

/-! The driver of the 45E100 (`mn_eth45e100.c`) and the waits it makes
(`mn_m65.h`). What the registers read while it waits, and the controller that it
receives from, are parameters. -/
namespace MegaNet.Core.Eth45e100
open WhileLoop

def CTRL1_TXIDLE : UInt8 := 0x80
def CTRL2_RXWAITING : UInt8 := 0x20
def META1_CRCERR : UInt8 := 0x80
def MIN_FRAME : Nat := 60
def FCS_LEN : UInt16 := 4

/-! ## Waiting -/

/-- The counters of the spin backstop. -/
structure Spins where
  spins : UInt16 := 0
  wraps : UInt8 := 0

/-- `++spins == 0 && ++wraps >= 200`, on which a wait gives up. -/
def Spins.next (s : Spins) : Option Spins :=
  if s.spins + 1 = 0 then (if s.wraps + 1 ≥ 200 then none else some ⟨0, s.wraps + 1⟩)
  else some ⟨s.spins + 1, s.wraps⟩

/-- The variables of a wait, and how many turns it has made. -/
structure Wait where
  last : UInt8
  seen : UInt8 := 0
  spins : Spins := {}
  turn : Nat := 0

/-- The frame counter seen to change, or not. -/
def Wait.look (w : Wait) (cur : UInt8) : Wait :=
  if cur ≠ w.last then { w with last := cur, seen := w.seen + 1 } else w

/-- The end of a turn, on which a wait gives up at last. -/
def Wait.spin {α : Type} (w : Wait) (stalled : α) : Turn Wait α :=
  match w.spins.next with
  | none => .done stalled
  | some spins => .next { w with spins, turn := w.turn + 1 }

/-- A turn of `mn_m65_wait_frames`, whose counter reads `frame` at each turn.
`true` where it has seen so many frames. -/
def framesTurn (frames : UInt8) (frame : Nat → UInt8) (w : Wait) : Turn Wait Bool :=
  if w.seen < frames then (w.look (frame w.turn)).spin false else .done true

inductive TxEnd where
  | idle
  | frames
  | stalled
  deriving DecidableEq

/-- What the registers read while `eth_tx` waits: the frame counter before, and
`CTRL1` and the counter at each turn. -/
structure Readings where
  first : UInt8
  ctrl1 : Nat → UInt8
  frame : Nat → UInt8

/-- `mn_m65_wait_frames`, with so many turns to go. -/
def waitFrames (frames : UInt8) (frame : Nat → UInt8) : Nat → Wait → Option Bool :=
  loop (framesTurn frames frame)

/-- A turn of the wait of `eth_tx` for the transmitter. -/
def txTurn (h : Readings) (w : Wait) : Turn Wait TxEnd :=
  if h.ctrl1 w.turn &&& CTRL1_TXIDLE ≠ 0 then .done .idle
  else
    let changed := h.frame w.turn ≠ w.last
    let w := w.look (h.frame w.turn)
    if changed ∧ w.seen ≥ 50 then .done .frames
    else w.spin .stalled

/-- The wait, with so many turns to go. -/
def txWait (h : Readings) : Nat → Wait → Option TxEnd := loop (txTurn h)

/-- The turns after which the spin backstop ends a wait. -/
def mostTurns : Nat := 200 * 65536

/-- `eth_tx`: the frame the controller is told to transmit. -/
def ethTx (h : Readings) (buf : List UInt8) : Option (List UInt8) :=
  if buf.length > MN_MAX_FRAME.toNat then none
  else
    let frame := buf ++ List.replicate (MIN_FRAME - buf.length) 0
    if txWait h mostTurns { last := h.first } = some .idle then some frame else none

/-! ## Receiving -/

/-- The receive side of the controller, in whatever state: `CTRL2` as it reads and
as it is written, and the bytes of the window at `ETH_BUFFER`. -/
structure Controller (σ : Type) where
  peekCtrl2 : σ → UInt8
  pokeCtrl2 : σ → UInt8 → σ
  window : σ → Nat → UInt8

/-- The bytes that a DMA job with this count copies out of a window, a count of 0
standing for 65536. -/
def dmaCopy (window : Nat → UInt8) (start : Nat) (count : UInt16) : List UInt8 :=
  (List.range (if count = 0 then 65536 else count.toNat)).map fun j => window (start + j)

/-- What `eth_rx` leaves behind: the bytes copied into `buf`, and `*len`. -/
structure RxResult where
  buf : List UInt8
  len : UInt16

/-- `eth_rx` from the visible buffer on. -/
def taken (window : Nat → UInt8) (cap : UInt16) : Option RxResult :=
  let n := (window 0).toUInt16 ||| (window 1 &&& 0x0f).toUInt16 <<< 8
  if n ≤ FCS_LEN ∨ window 1 &&& META1_CRCERR ≠ 0 then none
  else
    let n := n - FCS_LEN
    let n := if n > cap then cap else n
    some ⟨dmaCopy window 2 n, n⟩

section
variable {σ : Type} (hw : Controller σ)

/-- `eth_rx`. -/
def ethRx (s : σ) (cap : UInt16) : Option RxResult × σ :=
  if hw.peekCtrl2 s &&& CTRL2_RXWAITING = 0 then (none, s)
  else
    let s := hw.pokeCtrl2 (hw.pokeCtrl2 s 0x01) 0x03
    (taken (hw.window s) cap, s)

/-- The writes of `mn_eth45e100_init` to `CTRL2`: the pulse, and the zero once the
PHY is back. -/
def initCtrl2 (s : σ) : σ := hw.pokeCtrl2 (hw.pokeCtrl2 (hw.pokeCtrl2 s 0x03) 0x00) 0x00

end

end MegaNet.Core.Eth45e100
