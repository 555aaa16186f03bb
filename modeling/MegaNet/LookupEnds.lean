import MegaNet.Lookups
import MegaNet.RetryTimer

/-! Whether a lookup that hears nothing ends: it does when its question can go
out, and never does while the next hop towards the server is unknown. -/
namespace MegaNet.LookupEnds
open MegaNet.Core RetryTimer TcpEmission TcpConnection UdpOutcomes Lookups

variable {σ : Type} {client : Client σ} {begun : σ × MnNetFull} {before net after : MnNetFull} {c : σ}
  {port start now : UInt16} {server : Ip4} {elapsed gap : Nat} {a : Asker} {i : Fin 4}

/-! ## Runs in silence -/

/-- What a lookup comes to when no frame arrives: others may send, and it is
polled within every period. `elapsed` ticks have gone by when it was looked at
last, and the tick then was `now`. -/
inductive Silent (client : Client σ) (begun : σ × MnNetFull) (start : UInt16) :
    σ → MnNetFull → UInt16 → Nat → Prop where
  | starts : Silent client begun start begun.1 begun.2 start 0
  | meanwhile {c : σ} {net after : MnNetFull} {now : UInt16} {elapsed : Nat} {sent : List Datagram}
      (run : Silent client begun start c net now elapsed) (posts : Posts net after sent) :
      Silent client begun start c after now elapsed
  | polled {c : σ} {net : MnNetFull} {now : UInt16} {elapsed : Nat}
      (run : Silent client begun start c net now elapsed) (x : XMem) (gap : Nat)
      (soon : gap ≤ client.period.toNat) :
      Silent client begun start (client.poll c net x (now + UInt16.ofNat gap)).1
        (client.poll c net x (now + UInt16.ofNat gap)).2 (now + UInt16.ofNat gap) (elapsed + gap)

/-- Its end, with every socket as it was before. -/
structure Ended (client : Client σ) (before : MnNetFull) (c : σ) (net : MnNetFull) : Prop where
  failed : client.failed c
  released : (client.asker c).sock = 0xff
  closed : ∀ j, (net.sock j).port = (before.sock j).port

/-- In every run it has ended once `(MAX_TRIES + 1) * 2 * RETRY_TICKS` ticks
have gone by, the next look not being due before. -/
def EndsInTime (client : Client σ) (before : MnNetFull) (begun : σ × MnNetFull)
    (start : UInt16) : Prop :=
  ∀ c net now elapsed, Silent client begun start c net now elapsed →
    (client.most.toNat + 1) * (2 * client.period.toNat) ≤ elapsed + client.period.toNat →
      Ended client before c net

/-! ## The question while it waits -/

/-- The question waits in the socket it was given. -/
structure Waits (client : Client σ) (before : MnNetFull) (server : Ip4) (i : Fin 4)
    (c : σ) (net : MnNetFull) :
    Prop where
  on : client.waiting c
  sock : (client.asker c).sock = UInt8.ofNat i
  asked : (client.asker c).server = server
  empty : (net.sock i).pending = false
  others : ∀ j, j ≠ i → (net.sock j).port = (before.sock j).port
  routes : SameRoutes before.toMnNet net.toMnNet

theorem Waits.noMail (waits : Waits client before server i c net) : NoMail (client.asker c) net := by
  intro j here
  rw [waits.sock, (given i).2] at here
  have same : j = i := Fin.ext here.symm
  rw [same]
  exact waits.empty

theorem Waits.posts {sent : List Datagram} (waits : Waits client before server i c net)
    (posts : Posts net after sent) : Waits client before server i c after :=
  ⟨waits.on, waits.sock, waits.asked, by rw [posts.sock]; exact waits.empty,
    fun j other => by rw [posts.sock]; exact waits.others j other, waits.routes.trans posts.routes⟩

/-- Where the question stays waiting, nothing but the question changed. -/
theorem Waits.retry (waits : Waits client before server i c net) {c' : σ} (on : client.waiting c')
    (retry : Retry client.period client.most (client.asker c) net now false (client.asker c') after) :
    Waits client before server i c' after := by
  generalize asker : client.asker c = a at retry
  generalize asker' : client.asker c' = a' at retry
  have sock := asker ▸ waits.sock
  have asked := asker ▸ waits.asked
  cases retry with
  | waits => exact ⟨on, asker' ▸ sock, asker' ▸ asked, waits.empty, waits.others, waits.routes⟩
  | sends _ r _ sent posts =>
    have kept := waits.posts posts
    exact ⟨on, asker' ▸ sock, asker' ▸ asked, kept.empty, kept.others, kept.routes⟩

/-- Where it has ended, its socket is given back. -/
theorem Waits.ends (waits : Waits client before server i c net)
    (free : (before.sock i).port = 0) {c' : σ}
    (failed : client.failed c')
    (retry : Retry client.period client.most (client.asker c) net now true (client.asker c') after) :
    Ended client before c' after := by
  generalize asker : client.asker c = a at retry
  generalize asker' : client.asker c' = a' at retry
  cases retry with
  | gives_up =>
    refine ⟨failed, by rw [asker'], fun j => ?_⟩
    rw [← asker, waits.sock]
    obtain ⟨past, _⟩ | ⟨k, here, closes⟩ := udpClose_cases net (UInt8.ofNat i)
    · rw [(given i).2] at past
      exact absurd i.isLt (by omega)
    · rw [(given i).2] at here
      obtain rfl : i = k := Fin.ext here
      rw [closes]
      by_cases same : j = i
      · rw [same, setSock_self, free]
        rfl
      · rw [setSock_other _ _ same]
        exact waits.others j same

private theorem begins_waits {r : SendResult} {sent : List Datagram} (on : client.waiting c)
    (blank : a.sock = UInt8.ofNat i ∧ a.server = server) (asker : client.asker c = a.sent r now)
    (posts : Posts (opened before i port) after sent) : Waits client before server i c after := by
  refine ⟨on, asker ▸ blank.1, asker ▸ blank.2, ?_, fun j other => ?_, posts.routes⟩
  · rw [posts.sock, opened, setSock_self]
  · rw [posts.sock, opened, setSock_other _ _ other]

/-! ## With a known next hop it ends -/

/-- The question is out, and its timer running. -/
def Timed (client : Client σ) (c : σ) (now : UInt16) (elapsed : Nat) : Prop :=
  (client.asker c).pending = false ∧ ∃ t : Timer, Spent client.period.toNat client.most.toNat t elapsed ∧
    (client.asker c).tries.toNat = t.tries ∧ (now - (client.asker c).sentAt).toNat = t.age

theorem later {sentAt period : UInt16} {age : Nat} (then_ : (now - sentAt).toNat = age)
    (young : age < period.toNat)
    (soon : gap ≤ period.toNat) (short : 2 * period.toNat < 65536) :
    (now + UInt16.ofNat gap - sentAt).toNat = age + gap := by
  have moved : now + UInt16.ofNat gap - sentAt = now - sentAt + UInt16.ofNat gap := by
    rw [UInt16.sub_eq_add_neg, UInt16.sub_eq_add_neg, UInt16.add_assoc,
      UInt16.add_comm (UInt16.ofNat gap),
      ← UInt16.add_assoc]
  rw [moved, UInt16.toNat_add, then_, UInt16.toNat_ofNat']
  omega

private theorem begins_timed {r : SendResult} (lawful : Lawful client) (blank : a.tries = 0)
    (asker : client.asker c = a.sent r now) (out : r ≠ .pending) : Timed client c now 0 := by
  refine ⟨?_, ⟨1, 0⟩, spent_start lawful.timed.1 lawful.timed.2.2, ?_, ?_⟩ <;> rw [asker, Asker.sent]
  · simpa using out
  · rw [if_neg out, blank]
    rfl
  · rw [UInt16.sub_self]
    rfl

/-- A look at the question is one at its timer. -/
theorem Timed.retry (timed : Timed client c now elapsed) (lawful : Lawful client)
    (soon : gap ≤ client.period.toNat)
    (known : net.toMnNet.Resolves (client.asker c).server) {c' : σ}
    (retry : Retry client.period client.most (client.asker c) net (now + UInt16.ofNat gap) false
      (client.asker c') after) : Timed client c' (now + UInt16.ofNat gap) (elapsed + gap) := by
  obtain ⟨idle, t, spent, tries, age⟩ := timed
  have reached := later age spent.young soon lawful.timed.2.1
  generalize asker : client.asker c = a at retry idle tries age known reached
  generalize asker' : client.asker c' = a' at retry
  cases retry with
  | waits _ early =>
    rw [ge_iff_le, UInt16.le_iff_toNat_le, reached, Nat.not_le] at early
    exact ⟨asker' ▸ idle, _, spent.tick soon (if_pos early), asker' ▸ tries, asker' ▸ reached⟩
  | sends due r _ _ _ result =>
    obtain ⟨late, more⟩ := due idle
    rw [ge_iff_le, UInt16.le_iff_toNat_le, reached] at late
    rw [ge_iff_le, UInt8.le_iff_toNat_le, Nat.not_le, tries] at more
    have out : r ≠ .pending := fun put_off => result.mp put_off known
    have ticked : tick client.period.toNat client.most.toNat gap t = some ⟨t.tries + 1, 0⟩ := by
      rw [RetryTimer.tick, if_neg (by omega), if_pos more]
    refine ⟨?_, _, spent.tick soon ticked, ?_, ?_⟩ <;> rw [asker', Asker.sent]
    · simpa using out
    · have := client.most.toNat_lt
      rw [if_neg out, UInt8.toNat_add, tries]
      exact Nat.mod_eq_of_lt (by rw [show UInt8.toNat 1 = 1 from rfl]; omega)
    · rw [UInt16.sub_self]
      rfl

/-- Where the question can go out, it waits timed until it has ended. -/
theorem silent_timed (lawful : Lawful client) (begins : Begins client before port server start begun)
    (fine : CannotOpen before port ∨ before.toMnNet.Resolves server)
    (run : Silent client begun start c net now elapsed) :
    Ended client before c net ∨
      before.toMnNet.Resolves server ∧
        ∃ i, (before.sock i).port = 0 ∧ Waits client before server i c net ∧
          Timed client c now elapsed := by
  induction run with
  | starts =>
    cases begins with
    | refused c why failed none_ => exact Or.inl ⟨failed, none_, fun _ => rfl⟩
    | asks c i r after sent free alone on a blank asker posts result =>
      have known := fine.resolve_left (asks_open free alone)
      have out : r ≠ .pending := fun put_off => result.mp put_off known
      have waits := begins_waits on ⟨blank.1, blank.2.1⟩ asker posts
      exact Or.inr ⟨known, i, free, waits, begins_timed lawful blank.2.2.1 asker out⟩
  | meanwhile _ posts ih =>
    obtain ⟨failed, released, closed⟩ | ⟨known, i, free, waits, timed⟩ := ih
    · exact Or.inl ⟨failed, released, fun j => by rw [posts.sock]; exact closed j⟩
    · exact Or.inr ⟨known, i, free, waits.posts posts, timed⟩
  | @polled c net now elapsed run x gap soon ih =>
    obtain ended | ⟨known, i, free, waits, timed⟩ := ih
    · rw [lawful.rests c net x _ ended.failed]
      exact Or.inl ended
    · obtain ⟨over_, retry, next⟩ :=
        lawful.retries c net x (now + UInt16.ofNat gap) waits.on waits.noMail
      cases over_ with
      | true => exact Or.inl (waits.ends free next retry)
      | false =>
        have still : net.toMnNet.Resolves (client.asker c).server := by
          rw [waits.asked, same_routes_resolves waits.routes]
          exact known
        exact Or.inr ⟨known, i, free, waits.retry next retry, timed.retry lawful soon still retry⟩

/-! ## Without one it never does -/

/-- A question that was put off waits to be sent. -/
theorem Waits.pending_retry (waits : Waits client before server i c net)
    (pending : (client.asker c).pending = true)
    (unknown : ¬ before.toMnNet.Resolves server) {over_ : Bool} {c' : σ}
    (retry : Retry client.period client.most (client.asker c) net now over_ (client.asker c') after) :
    over_ = false ∧ (client.asker c').pending = true := by
  have still : ¬ net.toMnNet.Resolves (client.asker c).server := by
    rw [waits.asked, same_routes_resolves waits.routes]
    exact unknown
  generalize asker : client.asker c = a at retry pending still
  generalize asker' : client.asker c' = a' at retry ⊢
  cases retry with
  | waits idle | gives_up idle =>
    rw [idle] at pending
    cases pending
  | sends _ r _ _ _ result => exact ⟨rfl, by rw [Asker.sent, result.mpr still]; rfl⟩

/-- However often it is polled, a question that cannot go out waits. -/
theorem waits_forever (lawful : Lawful client) (begins : Begins client before port server start begun)
    (can : ¬ CannotOpen before port) (unknown : ¬ before.toMnNet.Resolves server) (n : Nat) :
    ∃ c net now, Silent client begun start c net now (n * client.period.toNat) ∧ client.waiting c := by
  have stays : ∃ c net now i, Silent client begun start c net now (n * client.period.toNat) ∧
      Waits client before server i c net ∧ (client.asker c).pending = true := by
    induction n with
    | zero =>
      cases begins with
      | refused _ why => exact absurd why can
      | asks c i r after sent free alone on a blank asker posts result =>
        refine ⟨c, after, start, i, ?_, begins_waits on ⟨blank.1, blank.2.1⟩ asker posts, ?_⟩
        · rw [Nat.zero_mul]
          exact .starts
        · rw [asker, Asker.sent, result.mpr unknown]
          rfl
    | succ n ih =>
      obtain ⟨c, net, now, i, run, waits, pending⟩ := ih
      have polled := run.polled (fun _ => 0) client.period.toNat (Nat.le_refl _)
      rw [← Nat.succ_mul] at polled
      obtain ⟨over_, retry, next⟩ :=
        lawful.retries c net (fun _ => 0) (now + UInt16.ofNat client.period.toNat)
        waits.on waits.noMail
      obtain ⟨rfl, still⟩ := waits.pending_retry pending unknown retry
      exact ⟨_, _, _, i, polled, waits.retry next retry, still⟩
  obtain ⟨c, net, now, i, run, waits, _⟩ := stays
  exact ⟨c, net, now, run, waits.on⟩

/-- A lookup that has failed is left as it is. -/
theorem stays_failed (lawful : Lawful client) (failed : client.failed begun.1) (n : Nat) :
    Silent client begun start begun.1 begun.2 (start + UInt16.ofNat (n * client.period.toNat))
      (n * client.period.toNat) := by
  induction n with
  | zero =>
    rw [Nat.zero_mul, show start + UInt16.ofNat 0 = start from UInt16.add_zero start]
    exact .starts
  | succ n ih =>
    have polled := ih.polled (fun _ => 0) client.period.toNat (Nat.le_refl _)
    rw [lawful.rests _ _ _ _ failed, UInt16.add_assoc, ← UInt16.ofNat_add, ← Nat.succ_mul] at polled
    exact polled

/-! ## When lookups end -/

/-- A lookup that was begun ends in time exactly when it got no socket or the
next hop towards its server is known. -/
theorem ends_iff (lawful : Lawful client) (begins : Begins client before port server start begun) :
    EndsInTime client before begun start ↔ CannotOpen before port ∨ before.toMnNet.Resolves server := by
  constructor
  · intro ends
    by_contra neither
    obtain ⟨can, unknown⟩ := not_or.mp neither
    obtain ⟨c, net, now, run, on⟩ :=
      waits_forever lawful begins can unknown ((client.most.toNat + 1) * 2)
    refine lawful.apart c on (ends c net now _ run ?_).failed
    rw [← Nat.mul_assoc]
    exact Nat.le_add_right _ _
  · intro fine c net now elapsed run late
    obtain ended | ⟨_, i, _, _, _, t, spent, _⟩ := silent_timed lawful begins fine run
    · exact ended
    · have soon := spent.bound
      have more : 2 * client.period.toNat * client.most.toNat ≤
          (client.most.toNat + 1) * (2 * client.period.toNat) := by
        rw [Nat.mul_comm]
        exact Nat.mul_le_mul_right _ (Nat.le_succ _)
      omega

/-- A DNS lookup ends in time, its socket given back, exactly when there was
none to be had, or its name is well formed and the next hop towards the server
known; an NTP request, when one of these holds that concern it. -/
theorem lookups_end (d : Dns.MnDns) (n : Ntp.MnNtp) (net : MnNetFull) (name : List UInt8) (server : Ip4)
    (now : UInt16) :
    (EndsInTime dns (givenBack d.sock net) (Dns.mnDnsStart d net name server now) now ↔
      CannotOpen (givenBack d.sock net) (dnsPort now) ∨ WellNamed name ∧ net.toMnNet.Resolves server) ∧
    (EndsInTime ntp (givenBack n.sock net) (Ntp.mnNtpStart n net server now) now ↔
      CannotOpen (givenBack n.sock net) (ntpPort now) ∨ net.toMnNet.Resolves server) := by
  constructor
  · by_cases fine : WellNamed name ∨ CannotOpen (givenBack d.sock net) (dnsPort now)
    · rw [ends_iff dns_lawful (dnsStart_begins d net server now fine), givenBack_toMnNet]
      constructor
      · rintro (cannot | known)
        · exact Or.inl cannot
        · exact fine.symm.imp id fun named => ⟨named, known⟩
      · exact Or.imp id And.right
    · -- A malformed name: it has failed, but its socket is not given back.
      obtain ⟨bad, can⟩ := not_or.mp fine
      refine iff_of_false (fun ends => ?_) fun either => either.elim can fun both => bad both.1
      obtain ⟨i, _, same⟩ := dnsStart_malformed d net bad server now can
      have failed : dns.failed (Dns.mnDnsStart d net name server now).1 := by
        rw [same]
        rfl
      have released :=
        (ends _ _ _ _ (stays_failed dns_lawful failed ((dns.most.toNat + 1) * 2)) ?_).released
      · rw [same] at released
        exact (given i).1 released
      · rw [← Nat.mul_assoc]
        exact Nat.le_add_right _ _
  · rw [ends_iff ntp_lawful (ntpStart_begins n net server now), givenBack_toMnNet]

/-- A host that does not know its neighbour's MAC. -/
def lonely : MnNetFull := layerOver (hostNet (fun _ => true) false)

private theorem lonely_unknown : ¬ lonely.toMnNet.Resolves neighbour := by
  rintro (broadcast | known)
  · revert broadcast
    decide
  · revert known
    decide

private theorem closed_canOpen (net : MnNet) {port : UInt16} (some_ : port ≠ 0) : ¬ CannotOpen
    (layerOver net) port := by
  rintro (⟨_, taken⟩ | full)
  · exact some_ taken.symm
  · exact full 0 rfl

/-- While the next hop does not answer ARP, neither a DNS lookup of `a` nor an
NTP request ends; and the lookup of `a..b` fails, but keeps its socket. -/
theorem lookups_never_end :
    ¬ EndsInTime dns lonely (Dns.mnDnsStart freshDns lonely [0x61] neighbour 0) 0 ∧
      ¬ EndsInTime ntp lonely (Ntp.mnNtpStart freshNtp lonely neighbour 0) 0 ∧
      ¬ EndsInTime dns (layerOver goodNet)
        (Dns.mnDnsStart freshDns (layerOver goodNet) [0x61, 0x2e, 0x2e, 0x62] neighbour 0) 0 := by
  refine ⟨fun ends => ?_, fun ends => ?_, fun ends => ?_⟩
  · have named : WellNamed [0x61] := by decide
    have begins := dnsStart_begins freshDns lonely neighbour 0 (Or.inl named)
    exact ((ends_iff dns_lawful begins).mp ends).elim (closed_canOpen _ (by decide)) lonely_unknown
  · have begins := ntpStart_begins freshNtp lonely neighbour 0
    exact ((ends_iff ntp_lawful begins).mp ends).elim (closed_canOpen _ (by decide)) lonely_unknown
  · have failed : dns.failed
      (Dns.mnDnsStart freshDns (layerOver goodNet) [0x61, 0x2e, 0x2e, 0x62] neighbour 0).1 :=
      rfl
    have released := (ends _ _ _ _ (stays_failed dns_lawful failed 8) (by decide)).released
    revert released
    decide

end MegaNet.LookupEnds
