import Mathlib.Data.List.GetD
import MegaNet.Mailbox
import MegaNet.Transmissions

/-! Each UDP socket is a mailbox for one datagram, from its opening to its
closing: what is received from it are the datagrams for its port that came
while it was empty, in order and as they came, whatever else the stack does. -/
namespace MegaNet.UdpMailboxes
open MegaNet.Core Words TcpSetRuns UdpOutcomes UdpSockets Transmissions

variable {st st' : Stack} {i : Fin 4} {p : UInt16}

/-! ## Datagrams -/

/-- A datagram as the application is to get it. -/
structure Arrived where
  payload : List UInt8
  srcIp : Ip4
  srcPort : UInt16

/-- The datagram in a packet. -/
def arrived (ip : List UInt8) : Arrived where
  payload := ((mnIpv4Payload ip).drop 8).take (mnIpv4PayloadLen ip - 8).toNat
  srcIp := mnIpv4Src ip
  srcPort := mnUdpSport (mnIpv4Payload ip)

/-- The packet of a frame that brings a datagram for a port: it passes the
checks of Ethernet, IPv4 and UDP, and fits a mailbox. -/
def arrival (net : MnNetFull) (p : UInt16) (f : RxFrame) : Option (List UInt8) :=
  (delivered net f).filter fun ip =>
    validUdp ip && mnUdpDport (mnIpv4Payload ip) == p && !(mnIpv4PayloadLen ip - 8 > MN_UDP_SOCK_BUF)

theorem arrival_some {net : MnNetFull} {f : RxFrame} {ip : List UInt8} :
    arrival net p f = some ip ↔ delivered net f = some ip ∧ validUdp ip = true ∧
      mnUdpDport (mnIpv4Payload ip) = p ∧ ¬ mnIpv4PayloadLen ip - 8 > MN_UDP_SOCK_BUF := by
  simp [arrival, Option.filter_eq_some_iff, and_assoc]

/-- What an act brings for a port. -/
def brought (net : MnNetFull) (p : UInt16) : Act → Option Arrived
  | .poll (some f) => (arrival net p f).map arrived
  | _ => none

/-- What a mailbox sees of an act. -/
def event (net : MnNetFull) (i : Fin 4) (p : UInt16) : Act → Mailbox.Event Arrived
  | .receives s _ => if s.toNat = i then .asked else .idle
  | act => (brought net p act).elim .idle .arrives

/-- The datagram in the mailbox of a socket. -/
def inMailbox (st : Stack) (i : Fin 4) : Arrived where
  payload := mnXmemRead st.x (st.net.sock i).xseg (st.net.sock i).xoff (st.net.sock i).len
  srcIp := (st.net.sock i).srcIp
  srcPort := (st.net.sock i).srcPort

/-- The mailbox a socket stands for. -/
def held (st : Stack) (i : Fin 4) : Option Arrived :=
  if (st.net.sock i).pending then some (inMailbox st i) else none

/-! ## A socket in use -/

/-- A socket that is open on a port, in a stack in order. -/
structure Session (st : Stack) (i : Fin 4) (p : UInt16) : Prop where
  order : Orderly st
  port : (st.net.sock i).port = p
  used : p ≠ 0
  fits : (st.net.sock i).pending = true → (st.net.sock i).len.toNat ≤ 576

/-- A step leaves socket `i` and its mailbox as they are. -/
structure Leaves (i : Fin 4) (st st' : Stack) : Prop where
  sock : st'.net.sock i = st.net.sock i
  pool : ∀ a, mailbox st.net i ≤ a → a < mailbox st.net i + 576 → st'.x a = st.x a

private theorem leaves_of_net {after : MnNetFull} (same : after.sock i = st.net.sock i) : Leaves i st
    { st with net := after } :=
  ⟨same, fun _ _ _ => rfl⟩

theorem Session.leaves (session : Session st i p) (leaves : Leaves i st st') (order : Orderly st') :
    Session st' i p ∧ held st' i = held st i := by
  refine ⟨⟨order, by rw [leaves.sock]; exact session.port, session.used,
    by rw [leaves.sock]; exact session.fits⟩, ?_⟩
  unfold held inMailbox
  rw [leaves.sock]
  split
  · rename_i full
    have fits := session.fits full
    have same : mnXmemRead st'.x (st.net.sock i).xseg (st.net.sock i).xoff (st.net.sock i).len =
        mnXmemRead st.x (st.net.sock i).xseg (st.net.sock i).xoff (st.net.sock i).len := by
      refine List.map_congr_left fun k inside => leaves.pool _ (Nat.le_add_right _ _) ?_
      have short := List.mem_range.mp inside
      exact Nat.add_lt_add_left (short.trans_le fits) _
    rw [same]
  · rfl

/-! ## Frames -/

/-- What a frame does to a socket that is open on a port: a datagram for it is
put into the mailbox if that is empty, and dropped if not; any other frame
leaves it alone. -/
inductive Post (st : Stack) (i : Fin 4) (p : UInt16) (f : RxFrame) : Stack → Prop where
  | admitted (ip : List UInt8) (arrives : arrival st.net p f = some ip)
      (empty : (st.net.sock i).pending = false)
      (after : MnNetFull) (sock : after.sock = (st.net.setSock i (mailed (st.net.sock i) ip)).sock) :
      Post st i p f { st with
        net := after
        x := mnXmemWrite st.x (st.net.sock i).xseg (st.net.sock i).xoff ((mnIpv4Payload ip).drop 8)
          (mnIpv4PayloadLen ip - 8) }
  | full (ip : List UInt8) (arrives : arrival st.net p f = some ip)
      (waits : (st.net.sock i).pending = true)
      (after : MnNetFull) (sock : after.sock = st.net.sock) : Post st i p f { st with net := after }
  | elsewhere (st' : Stack) (nothing : arrival st.net p f = none)
      (leaves : Leaves i st st') : Post st i p f st'

/-- Mailboxes lie apart. -/
theorem mailboxes_apart (order : Orderly st) {j k : Fin 4} (differ : j ≠ k) {a : Nat}
    (low : mailbox st.net j ≤ a)
    (high : a < mailbox st.net j + 576) {len : Nat} (fits : len ≤ 576) :
    ¬ (mailbox st.net k ≤ a ∧ a < mailbox st.net k + len) := by
  obtain ⟨base, spaced⟩ := order.spaced
  have here := spaced j
  have there := spaced k
  have apart : (j : Nat) ≠ k := fun same => differ (Fin.ext same)
  omega

/-- A datagram put into another mailbox. -/
theorem mailed_leaves (order : Orderly st) {j k : Fin 4} (differ : j ≠ k) {ip : List UInt8}
    (fits : ¬ mnIpv4PayloadLen ip - 8 > MN_UDP_SOCK_BUF) {after : MnNetFull}
    (sock : after.sock = (st.net.setSock k (mailed (st.net.sock k) ip)).sock) :
    Leaves j st { st with
      net := after
      x := mnXmemWrite st.x (st.net.sock k).xseg (st.net.sock k).xoff ((mnIpv4Payload ip).drop 8)
        (mnIpv4PayloadLen ip - 8) } := by
  refine ⟨?_, fun a low high => if_neg (mailboxes_apart order differ low high (fits_toNat.mp fits))⟩
  dsimp only
  rw [sock, setSock_other _ _ differ]

private theorem poll_post (session : Session st i p) (f : RxFrame) : Post st i p f
    (mnNetPoll st (some f)) := by
  have order := session.order
  have intake := poll_intake st f
  have elsewhere : delivered st.net f = none → arrival st.net p f = none := fun none_ => by
    rw [arrival, none_]
    rfl
  generalize mnNetPoll st (some f) = after at intake
  cases intake with
  | other after nothing _ sock =>
    exact .elsewhere _ (elsewhere nothing) (leaves_of_net (congrFun sock i))
  | tcp ip nothing =>
    refine .elsewhere _ (elsewhere nothing) ?_
    obtain ⟨_, sock, ⟨_, pool⟩ | ⟨set, event, attached, _, pool⟩⟩ :=
      tcpInput_spec { st with net := counted st.net } ip
    · exact ⟨congrFun sock i, fun a _ _ => congrFun pool a⟩
    · refine ⟨congrFun sock i, fun a low high => ?_⟩
      rw [pool]
      exact order.tcpAway attached _ event low high
  | udp ip reaches =>
    by_cases arrives : arrival st.net p f = some ip
    · obtain ⟨_, valid, port, fits⟩ := arrival_some.mp arrives
      have delivery := deliverUdp_delivery (counted st.net) st.x ip
      generalize deliverUdp (counted st.net) st.x ip = out at delivery
      cases delivery with
      | invalid bad =>
        rw [valid] at bad
        cases bad
      | dropped why =>
        obtain ⟨j, found⟩ : ∃ j, socketOn st.net.sock (mnUdpDport (mnIpv4Payload ip)) = some j := by
          cases found : socketOn st.net.sock (mnUdpDport (mnIpv4Payload ip)) with
          | some j => exact ⟨j, rfl⟩
          | none => exact absurd (session.port.trans port.symm) (socketOn_none.mp found i)
        have here : j = i :=
          order.apart j i ((socketOn_some found).trans (port.trans session.port.symm)) (by
          rw [socketOn_some found, port]
          exact session.used)
        obtain full | long := why j found
        · exact .full ip arrives (here ▸ full) _ rfl
        · exact absurd long fits
      | mailed j _ found empty =>
        have here : j = i :=
          order.apart j i ((socketOn_some found).trans (port.trans session.port.symm)) (by
          rw [show (st.net.sock j).port = _ from socketOn_some found, port]
          exact session.used)
        subst here
        exact .admitted ip arrives empty _ rfl
    · have nothing : arrival st.net p f = none := by
        cases other : arrival st.net p f with
        | none => rfl
        | some ip' =>
          obtain rfl := Option.some.inj (reaches.symm.trans (arrival_some.mp other).1)
          exact absurd other arrives
      refine .elsewhere _ nothing ?_
      have delivery := deliverUdp_delivery (counted st.net) st.x ip
      generalize deliverUdp (counted st.net) st.x ip = out at delivery
      cases delivery with
      | invalid | dropped => exact leaves_of_net rfl
      | mailed j valid found _ fits =>
        have other : i ≠ j := by
          rintro rfl
          exact arrives
            (arrival_some.mpr ⟨reaches, valid, (socketOn_some found).symm.trans session.port, fits⟩)
        exact mailed_leaves order other fits rfl

/-- What was put into a mailbox is what is read from it. -/
theorem read_written (x : XMem) (seg off : UInt16) {src : List UInt8} {len : UInt16}
    (held : len.toNat ≤ src.length) :
    mnXmemRead (mnXmemWrite x seg off src len) seg off len = src.take len.toNat := by
  refine List.ext_getElem (by simp [mnXmemRead, held]) fun k inside _ => ?_
  rw [mnXmemRead_length] at inside
  have here : xaddr seg off ≤ xaddr seg off + k ∧ xaddr seg off + k < xaddr seg off + len.toNat := by
    omega
  simp only [mnXmemRead, mnXmemWrite, List.getElem_map, List.getElem_range, if_pos here,
    Nat.add_sub_cancel_left,
    List.getElem_take]
  exact List.getD_eq_getElem _ _ (by omega)

/-- A packet that `delivered` lets through has its datagram whole. -/
theorem delivered_whole {net : MnNetFull} {f : RxFrame} {ip : List UInt8}
    (reaches : delivered net f = some ip)
    (valid : validUdp ip = true) : (mnIpv4PayloadLen ip - 8).toNat ≤
    ((mnIpv4Payload ip).drop 8).length := by
  unfold delivered at reaches
  dsimp only at reaches
  split_ifs at reaches with stray other refused udp
  obtain rfl := Option.some.inj reaches
  simp only [Bool.or_eq_true, Bool.not_eq_true', not_or, Bool.not_eq_false, decide_eq_true_eq]
    at stray refused
  have whole := payload_whole refused.1.2 stray.1
  simp only [validUdp, mnUdpValid, Bool.and_eq_true, Bool.not_eq_true', decide_eq_false_iff_not,
    UInt16.lt_iff_toNat_lt,
    not_lt, show UInt16.toNat 8 = 8 from rfl] at valid
  have long := valid.1.1
  rw [List.length_take] at whole
  rw [List.length_drop]
  exact (toNat_back 8 long).le.trans (by omega)

/-! ## Steps of a session -/

/-- The act closes socket `i`. -/
def Closes (i : Fin 4) : Act → Prop
  | .closes s => s.toNat = i
  | _ => False

theorem session_poll (session : Session st i p) (f : RxFrame) :
    Session (mnNetPoll st (some f)) i p ∧
      held (mnNetPoll st (some f)) i = Mailbox.next (held st i) (event st.net i p (.poll (some f))) := by
  have order := poll_orderly session.order f
  have post := poll_post session f
  generalize mnNetPoll st (some f) = st' at order post
  cases post with
  | admitted ip arrives empty after sock =>
    obtain ⟨reaches, valid, _, fits⟩ := arrival_some.mp arrives
    have here : after.sock i = mailed (st.net.sock i) ip := by rw [sock, setSock_self]
    refine ⟨⟨order, by rw [here]; exact session.port, session.used,
      fun _ => by rw [here]; exact fits_toNat.mp fits⟩, ?_⟩
    have content := read_written st.x (st.net.sock i).xseg (st.net.sock i).xoff
      (delivered_whole reaches valid)
    simp only [event, brought, arrives, held, empty, here, mailed, inMailbox, arrived,
      content, Option.map_some,
      Option.elim_some, Mailbox.next, if_true]
    rfl
  | full ip arrives waits after sock =>
    obtain ⟨session', same⟩ := session.leaves (leaves_of_net (congrFun sock i)) order
    refine ⟨session', same.trans ?_⟩
    simp [event, brought, arrives, held, waits, Mailbox.next]
  | elsewhere _ nothing leaves =>
    obtain ⟨session', same⟩ := session.leaves leaves order
    refine ⟨session', same.trans ?_⟩
    simp [event, brought, nothing, Mailbox.next]

/-- Acts of other sockets, and of the rest of the stack. -/
theorem act_leaves (session : Session st i p) {act : Act} (keeps : ¬ Closes i act)
    (quiet : ∀ s cap, act = .receives s cap → s.toNat ≠ i) (still : ∀ f, act ≠ .poll (some f)) :
    Leaves i st (exec st act) := by
  cases act with
  | poll frame =>
    cases frame with
    | none => exact leaves_of_net rfl
    | some f => exact absurd rfl (still f)
  | opens port =>
    have opening := udpOpen_opening st.net port
    simp only [exec]
    generalize mnNetUdpOpen st.net port = out at opening
    cases opening with
    | opens j free =>
      have other : i ≠ j := by
        rintro rfl
        exact session.used (session.port.symm.trans free)
      exact leaves_of_net (setSock_other _ _ other)
    | refused => exact leaves_of_net rfl
  | closes s =>
    simp only [exec]
    obtain ⟨_, same⟩ | ⟨j, here, same⟩ := udpClose_cases st.net s <;> rw [same]
    · exact leaves_of_net rfl
    · have other : i ≠ j := fun same => keeps (same ▸ here)
      exact leaves_of_net (setSock_other _ _ other)
  | receives s cap =>
    have reception := udpRecv_reception st.net st.x s cap
    simp only [exec]
    generalize mnNetUdpRecv st.net st.x s cap = out at reception
    cases reception with
    | nothing => exact leaves_of_net rfl
    | datagram j here =>
      have other : i ≠ j := fun same => quiet s cap rfl (same ▸ here)
      exact leaves_of_net (setSock_other _ _ other)
  | sends dst sport dport payload =>
    exact leaves_of_net (congrFun (sendUdp_spec st.net dst sport dport payload).1.sock i)
  | configures => exact leaves_of_net rfl
  | tcp event =>
    simp only [exec, tcpAct]
    cases attached : st.tcp with
    | none => exact leaves_of_net rfl
    | some set => exact ⟨rfl, fun a low high => session.order.tcpAway attached _ event low high⟩

/-- What a call on socket `i` gives an application, with the room it had. -/
def receipt (st : Stack) (i : Fin 4) : Act → Option (UInt16 × Received)
  | .receives s cap => if s.toNat = i then (mnNetUdpRecv st.net st.x s cap).1.map (cap, ·) else none
  | _ => none

/-- The application got the datagram, cut to its room. -/
def Returns (d : Arrived) (got : UInt16 × Received) : Prop :=
  got.2 = ⟨d.payload.take got.1.toNat, d.srcIp, d.srcPort⟩

theorem read_cut (x : XMem) (seg off len cap : UInt16) :
    mnXmemRead x seg off (if len > cap then cap else len) =
      (mnXmemRead x seg off len).take cap.toNat := by
  simp only [mnXmemRead, ← List.map_take, List.take_range, Words.toNat_clamp, Nat.min_comm]

/-- The socket's own mailbox asked for its datagram. -/
theorem session_receives (session : Session st i p) {s : UInt8} (own : s.toNat = i) (cap : UInt16) :
    Session (exec st (.receives s cap)) i p ∧ held (exec st (.receives s cap)) i = none ∧
      List.Forall₂ Returns (held st i).toList (receipt st i (.receives s cap)).toList := by
  have order := exec_orderly session.order (.receives s cap)
  have reception := udpRecv_reception st.net st.x s cap
  simp only [exec, receipt, if_pos own] at order ⊢
  generalize mnNetUdpRecv st.net st.x s cap = out at order reception
  cases reception with
  | nothing empty =>
    have empty := empty i own
    exact ⟨⟨order, session.port, session.used, session.fits⟩, by simp [held, empty],
      by simp [held, empty]⟩
  | datagram j here waits =>
    obtain rfl : j = i := Fin.ext (here.symm.trans own)
    have after := setSock_self st.net j { st.net.sock j with pending := false }
    refine ⟨⟨order, by simp only [after]; exact session.port, session.used, by simp⟩, by simp [held], ?_⟩
    simp only [held, waits, if_true, Option.toList_some, Option.map_some]
    refine .cons ?_ .nil
    simp only [Returns, inMailbox, read_cut]

/-- One act: the session goes on, its mailbox does what the act is to it, and
what the application gets is what that hands out. -/
theorem session_step (session : Session st i p) (act : Act) (keeps : ¬ Closes i act) :
    Session (exec st act) i p ∧ held (exec st act) i = Mailbox.next (held st i) (event st.net i p act) ∧
      List.Forall₂ Returns (Mailbox.handedOut (held st i) (event st.net i p act)).toList
        (receipt st i act).toList := by
  have other : (∀ s cap, act = .receives s cap → s.toNat ≠ i) → (∀ f, act ≠ .poll (some f)) →
      event st.net i p act = .idle → receipt st i act = none →
      Session (exec st act) i p ∧ held (exec st act) i = Mailbox.next (held st i)
        (event st.net i p act) ∧
        List.Forall₂ Returns (Mailbox.handedOut (held st i) (event st.net i p act)).toList
          (receipt st i act).toList := by
    intro quiet still idle nothing
    obtain ⟨session', same⟩ :=
      session.leaves (act_leaves session keeps quiet still) (exec_orderly session.order act)
    rw [idle, nothing]
    exact ⟨session', same, .nil⟩
  cases act with
  | poll frame =>
    cases frame with
    | none => exact other (by simp) (by simp) rfl rfl
    | some f =>
      obtain ⟨session', same⟩ := session_poll session f
      refine ⟨session', same, ?_⟩
      have quiet : Mailbox.handedOut (held st i) (event st.net i p (.poll (some f))) = none := by
        cases arrives : brought st.net p (.poll (some f)) <;> simp [event, arrives, Mailbox.handedOut]
      rw [quiet]
      exact .nil
  | receives s cap =>
    by_cases own : s.toNat = i
    · rw [show event st.net i p (.receives s cap) = .asked from if_pos own]
      exact session_receives session own cap
    · exact other (by rintro _ _ ⟨⟩; exact own) (by simp) (if_neg own) (if_neg own)
  | opens | closes | sends | configures | tcp => exact other (by simp) (by simp) rfl rfl

/-! ## Whole sessions -/

/-- The stack after a sequence of acts. -/
def execAll : Stack → List Act → Stack := List.foldl exec

/-- What the applications got on socket `i`. -/
def receipts (i : Fin 4) : Stack → List Act → List (UInt16 × Received)
  | _, [] => []
  | st, act :: rest => (receipt st i act).toList ++ receipts i (exec st act) rest

/-- The datagrams for port `p` that came while the mailbox of socket `i` was empty. -/
def admissions (i : Fin 4) (p : UInt16) : Stack → List Act → List Arrived
  | _, [] => []
  | st, act :: rest =>
    (if (st.net.sock i).pending then [] else (brought st.net p act).toList) ++
      admissions i p (exec st act) rest

/-- What the mailbox of socket `i` goes through. -/
def history (i : Fin 4) (p : UInt16) : Stack → List Act → List (Mailbox.Event Arrived)
  | _, [] => []
  | st, act :: rest => event st.net i p act :: history i p (exec st act) rest

private theorem admitted_brought (st : Stack) (i : Fin 4) (p : UInt16) (act : Act) :
    (Mailbox.admitted (held st i) (event st.net i p act)).toList =
      if (st.net.sock i).pending then [] else (brought st.net p act).toList := by
  have nothing : brought st.net p act = none → event st.net i p act = .idle ∨
    event st.net i p act = .asked →
      (Mailbox.admitted (held st i) (event st.net i p act)).toList =
        if (st.net.sock i).pending then [] else (brought st.net p act).toList := by
    rintro none_ (same | same) <;> simp [none_, same, Mailbox.admitted]
  cases act with
  | poll frame =>
    have seen : event st.net i p (.poll frame) = (brought st.net p (.poll frame)).elim .idle .arrives :=
      rfl
    rw [seen]
    cases brought st.net p (.poll frame) <;> by_cases full : (st.net.sock i).pending = true <;>
      simp [Mailbox.admitted, held, full]
  | receives s cap =>
    by_cases own : s.toNat = i
    · exact nothing rfl (Or.inr (if_pos own))
    · exact nothing rfl (Or.inl (if_neg own))
  | opens | closes | sends | configures | tcp => exact nothing rfl (Or.inl rfl)

/-- Over a session the mailbox does what its history is, and the application
gets what it hands out. -/
theorem session_run (session : Session st i p) {acts : List Act} (keeps : ∀ act ∈ acts, ¬ Closes i act) :
    Session (execAll st acts) i p ∧
      held (execAll st acts) i = Mailbox.waiting (held st i) (history i p st acts) ∧
      admissions i p st acts = Mailbox.allAdmitted (held st i) (history i p st acts) ∧
      List.Forall₂ Returns (Mailbox.allHandedOut (held st i) (history i p st acts))
        (receipts i st acts) := by
  induction acts generalizing st with
  | nil => exact ⟨session, rfl, rfl, .nil⟩
  | cons act rest ih =>
    obtain ⟨session', same, got⟩ := session_step session act (keeps act List.mem_cons_self)
    obtain ⟨last, waits, admits, gets⟩ :=
      ih session' fun act member => keeps act (List.mem_cons_of_mem _ member)
    rw [same] at waits admits gets
    refine ⟨last, waits, ?_, List.rel_append got gets⟩
    rw [admissions, admits, ← admitted_brought]
    rfl

/-- A socket that has been given out is empty. -/
theorem open_session (life : Life st) (given_ : (mnNetUdpOpen st.net p).1 = UInt8.ofNat i) :
    Session (exec st (.opens p)) i p ∧ held (exec st (.opens p)) i = none := by
  have order := exec_orderly life.orderly (.opens p)
  have opening := udpOpen_opening st.net p
  simp only [exec] at order ⊢
  generalize mnNetUdpOpen st.net p = out at given_ order opening
  cases opening with
  | opens j free alone =>
    obtain rfl : j = i := index_inj.mp given_
    have after := setSock_self st.net j { st.net.sock j with port := p, pending := false }
    have used : p ≠ 0 := fun zero => alone j (free.trans zero.symm)
    exact ⟨⟨order, by rw [after], used, by simp⟩, by simp [held]⟩
  | refused => exact absurd given_.symm (given i).1

/-- In every run of the stack, between the opening of a socket on a port and its
closing, what is received from it are the datagrams for the port that came
while it was empty, in order and as they came, the last of them maybe still
waiting; and what comes for the port leaves the other sockets alone. -/
theorem mailboxes_exact (life : Life st) (given_ : (mnNetUdpOpen st.net p).1 = UInt8.ofNat i)
    {acts : List Act}
    (keeps : ∀ act ∈ acts, ¬ Closes i act) :
    let first := exec st (.opens p)
    let last := execAll first acts
    (∃ taken waiting, admissions i p first acts = taken ++ waiting ∧
      List.Forall₂ Returns taken (receipts i first acts) ∧
      waiting.length = if (last.net.sock i).pending then 1 else 0) ∧
    ∀ f ip, arrival last.net p f = some ip → ∀ j, j ≠ i → Leaves j last (mnNetPoll last (some f)) := by
  intro first last
  obtain ⟨session, empty⟩ := open_session life given_
  obtain ⟨session', waits, admits, gets⟩ := session_run session keeps
  have conserved := Mailbox.conserves none (history i p first acts)
  rw [empty] at waits admits gets
  rw [← admits, ← waits] at conserved
  refine ⟨⟨_, _, conserved, gets, ?_⟩, fun f ip arrives j other => ?_⟩
  · unfold held
    split <;> rfl
  · have post := poll_post session' f
    show Leaves j last _
    generalize mnNetPoll (execAll (exec st (.opens p)) acts) (some f) = st' at post
    cases post with
    | admitted ip' arrives' _ after sock =>
      exact mailed_leaves session'.order other (arrival_some.mp arrives').2.2.2 sock
    | full _ _ _ after sock => exact leaves_of_net (congrFun sock j)
    | elsewhere _ nothing =>
      rw [nothing] at arrives
      cases arrives

/-- A frame with a datagram of one byte, from port 1000 to port 2000. -/
def byteFrame (b : UInt8) : RxFrame where
  bytes :=
    [2, 0, 0, 0, 0, 1, 2, 0, 0, 0, 0, 2, 0x08, 0x00] ++
    [0x45, 0, 0, 29, 0, 0, 0, 0, 64, 17, 0x66, 0xce, 10, 0, 0, 2, 10, 0, 0, 1] ++
    [0x03, 0xe8, 0x07, 0xd0, 0, 9, 0, 0, b]
  fits := by simp

/-- Two such frames one after the other, and two calls to receive. -/
def twoFrames : List Act :=
  [.poll (some (byteFrame 7)), .poll (some (byteFrame 8)), .receives 0 100, .receives 0 100]

/-- The first is received, the second came while it waited. -/
theorem mailboxes_exact_twoFrames :
    (receipts 0 (exec freshStack (.opens 2000)) twoFrames).map (·.2.data) = [[7]] ∧
      ∃ taken waiting, admissions 0 2000 (exec freshStack (.opens 2000)) twoFrames = taken ++ waiting ∧
        List.Forall₂ Returns taken (receipts 0 (exec freshStack (.opens 2000)) twoFrames) := by
  obtain ⟨taken, waiting, same, gets, _⟩ :=
    (@mailboxes_exact freshStack 0 2000 (.start freshStack_begun) (by decide) twoFrames
      (by simp [twoFrames, Closes])).1
  exact ⟨by decide +kernel, taken, waiting, same, gets⟩

end MegaNet.UdpMailboxes
