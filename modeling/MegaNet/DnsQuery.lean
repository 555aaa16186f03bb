import MegaNet.DnsParse
import MegaNet.LabelCodec

/-! The query a name is asked for with: the loop that writes it, its length bytes
put in afterwards, against the labels of the name, and what the resolver's own
reader makes of it. -/
namespace MegaNet.DnsQuery
open MegaNet.Core MegaNet.Core.Dns DnsParse LabelCodec

variable {m pre rest : List UInt8} {labels : List (List UInt8)}

/-- What a label of a query may be. -/
def Labelled (label : List UInt8) : Prop := label ≠ [] ∧ label.length ≤ 63

instance (label : List UInt8) : Decidable (Labelled label) := inferInstanceAs (Decidable (_ ∧ _))

theorem Labelled.fits {label : List UInt8} (fine : Labelled label) : Fits label :=
  ⟨fine.1, Nat.lt_of_le_of_lt fine.2 (by decide)⟩

/-! ## Writing -/

/-- The length byte put in where it was left out. -/
theorem patched (pre cur : List UInt8) (x n : UInt8) : (pre ++ x :: cur).set pre.length n =
    pre ++ n :: cur := by
  rw [List.set_append_right _ _ (Nat.le_refl _), Nat.sub_self]
  rfl

private theorem length_byte_zero {cur : List UInt8} (short : cur.length ≤ 63) :
    UInt8.ofNat cur.length = 0 ↔
    cur = [] := by
  rw [← UInt8.toNat_inj, UInt8.toNat_ofNat', ← List.length_eq_zero_iff, Nat.mod_eq_of_lt (by omega)]
  rfl

/-- The loop, where `cur` has been written of the label at hand, its length byte
`x` still to come: it writes the labels, if all of them are fine. -/
theorem encode_spec (rest pre cur : List UInt8) (x : UInt8) (short : cur.length ≤ 63)
    {first : List UInt8}
    {others : List (List UInt8)} (split : rest.splitOn 0x2e = first :: others) :
    Dns.encode rest (pre ++ x :: cur) pre.length (UInt8.ofNat cur.length) =
      if ∀ l ∈ (cur ++ first) :: others, Labelled l then some
        (pre ++ LabelCodec.encode ((cur ++ first) :: others))
      else none := by
  have none_ := length_byte_zero short
  induction rest generalizing pre cur x first others with
  | nil =>
    rw [List.splitOn_nil] at split
    obtain ⟨rfl, rfl⟩ := List.cons.inj split
    unfold Dns.encode
    by_cases empty : cur = []
    · rw [if_pos (none_.mpr empty), if_neg fun fine => (fine _ List.mem_cons_self).1
        (by rw [empty]; rfl)]
    · rw [if_neg fun zero => empty (none_.mp zero), patched, if_pos]
      · simp [LabelCodec.encode]
      · intro l member
        rw [List.mem_singleton.mp member, List.append_nil]
        exact ⟨empty, short⟩
  | cons c rest ih =>
    obtain ⟨next, more, parts⟩ := List.exists_cons_of_ne_nil (List.splitOn_ne_nil 0x2e rest)
    rw [List.splitOn_cons_eq_if_modifyHead, parts] at split
    unfold Dns.encode
    by_cases dot : c = 0x2e
    · -- The label ends; its length goes in front of it.
      rw [if_pos (by simpa using dot)] at split
      obtain ⟨rfl, rfl⟩ := List.cons.inj split
      rw [if_pos dot, List.append_nil]
      by_cases empty : cur = []
      · rw [if_pos (none_.mpr empty), if_neg fun fine => (fine _ List.mem_cons_self).1 empty]
      · have length : (pre ++ x :: cur).length = (pre ++ UInt8.ofNat cur.length :: cur).length := by simp
        have later := ih (pre ++ UInt8.ofNat cur.length :: cur) [] 0 (Nat.zero_le _) parts
          (length_byte_zero (Nat.zero_le _))
        rw [if_neg fun zero => empty (none_.mp zero), patched, length]
        rw [List.length_nil, show UInt8.ofNat 0 = 0 from rfl, List.nil_append] at later
        rw [later]
        by_cases fine : ∀ l ∈ next :: more, Labelled l
        · rw [if_pos fine, if_pos]
          · simp [LabelCodec.encode]
          · intro l member
            obtain rfl | further := List.mem_cons.mp member
            · exact ⟨empty, short⟩
            · exact fine l further
        · rw [if_neg fine, if_neg fun all => fine fun l member => all l (List.mem_cons_of_mem _ member)]
    · -- The label goes on, unless that makes it too long.
      rw [if_neg (by simpa using dot), List.modifyHead_cons] at split
      obtain ⟨rfl, rfl⟩ := List.cons.inj split
      have whole : cur ++ c :: next = (cur ++ [c]) ++ next := by simp
      have longer : (cur ++ [c]).length = cur.length + 1 := by simp
      have one : UInt8.ofNat cur.length + 1 = UInt8.ofNat (cur ++ [c]).length := by
        rw [longer, UInt8.ofNat_add]
        rfl
      have full : UInt8.ofNat (cur ++ [c]).length > 63 ↔ 63 < (cur ++ [c]).length := by
        rw [gt_iff_lt, UInt8.lt_iff_toNat_lt, UInt8.toNat_ofNat', Nat.mod_eq_of_lt (by omega)]
        rfl
      rw [if_neg dot, one, whole]
      by_cases past : 63 < (cur ++ [c]).length
      · rw [if_pos (full.mpr past), if_neg]
        intro fine
        have most := (fine _ List.mem_cons_self).2
        rw [List.length_append] at most
        omega
      · rw [if_neg fun beyond => past (full.mp beyond), List.append_assoc, List.cons_append]
        exact ih pre (cur ++ [c]) x (by omega) parts (length_byte_zero (by omega))

/-- The header of a query. -/
def header (d : MnDns) : List UInt8 :=
  put16 d.id ++ put16 FLAG_RD ++ put16 1 ++ put16 0 ++ put16 0 ++ put16 0

/-- What follows the name: the type and the class. -/
def trailer : List UInt8 := put16 TYPE_A ++ put16 CLASS_IN

theorem build_spec (d : MnDns) : Dns.build d =
    if ∀ l ∈ d.name.splitOn 0x2e, Labelled l then
      some (header d ++ LabelCodec.encode (d.name.splitOn 0x2e) ++ trailer)
    else none := by
  obtain ⟨first, others, split⟩ := List.exists_cons_of_ne_nil (List.splitOn_ne_nil 0x2e d.name)
  have coded := encode_spec d.name (header d) [] 0 (Nat.zero_le _) split
  rw [List.nil_append] at coded
  have written : Dns.build d =
    (Dns.encode d.name (header d ++ [0]) (header d).length (UInt8.ofNat 0)).map
      fun msg => msg ++ put16 TYPE_A ++ put16 CLASS_IN := rfl
  rw [written, split]
  rw [List.length_nil] at coded
  rw [coded]
  split
  · rw [Option.map_some, List.append_assoc]
    rfl
  · rfl

/-! ## Reading it back -/

private theorem byteAt_after (pre rest : List UInt8) (c : UInt8) : byteAt
    (pre ++ c :: rest) pre.length = c := by
  simp [byteAt]

/-- To the resolver's reader the labels are a name. -/
theorem encode_nameAt (fine : ∀ l ∈ labels, Labelled l) (pre rest : List UInt8) :
    NameAt (pre ++ (LabelCodec.encode labels ++ rest)) pre.length
      (pre.length + (LabelCodec.encode labels).length) := by
  induction labels generalizing pre with
  | nil => exact .root (by simp [LabelCodec.encode]) (byteAt_after pre rest 0)
  | cons label labels ih =>
    have here := fine label List.mem_cons_self
    have later := ih (fun l member => fine l (List.mem_cons_of_mem _ member))
      (pre ++ UInt8.ofNat label.length :: label)
    have same : pre ++ (LabelCodec.encode (label :: labels) ++ rest) =
        pre ++ UInt8.ofNat label.length :: label ++ (LabelCodec.encode labels ++ rest) := by
      simp [LabelCodec.encode]
    have first : byteAt (pre ++ (LabelCodec.encode (label :: labels) ++ rest)) pre.length =
        UInt8.ofNat label.length :=
      byteAt_after ..
    have length := here.fits.length_byte
    refine .label (by simp [LabelCodec.encode]) ?_ ?_ ?_
    · rw [first]
      exact here.fits.more
    · -- A length below 64 is no pointer.
      rw [first]
      intro points
      have bits := congrArg UInt8.toNat points
      rw [UInt8.toNat_and, length] at bits
      have small : label.length &&& 0xc0 ≤ label.length := Nat.and_le_left
      have most := here.2
      simp only [show UInt8.toNat 0xc0 = 0xc0 from rfl] at bits
      omega
    · rw [first, length, same]
      have start : pre.length + 1 + label.length =
          (pre ++ UInt8.ofNat label.length :: label).length := by
        simp only [List.length_append, List.length_cons]
        omega
      have stop : pre.length + (LabelCodec.encode (label :: labels)).length =
          (pre ++ UInt8.ofNat label.length :: label).length + (LabelCodec.encode labels).length := by
        simp only [LabelCodec.encode, List.length_append, List.length_cons]
        omega
      rw [start, stop]
      exact later

/-! ## Its length -/

private theorem encode_length {rest msg out : List UInt8} {lenpos : Nat} {n : UInt8}
    (coded : Dns.encode rest msg lenpos n = some out) : out.length = msg.length + rest.length + 1 := by
  induction rest generalizing msg lenpos n with
  | nil =>
    unfold Dns.encode at coded
    split at coded
    · cases coded
    · rw [← Option.some.inj coded, List.length_append, List.length_set]
      rfl
  | cons c rest ih =>
    unfold Dns.encode at coded
    split_ifs at coded
    · have size := ih coded
      rw [List.length_append, List.length_set, List.length_singleton] at size
      rw [size, List.length_cons]
      omega
    · have size := ih coded
      rw [List.length_append, List.length_singleton] at size
      rw [size, List.length_cons]
      omega

/-- A query is 18 bytes longer than its name. -/
theorem build_length {d : MnDns} {msg : List UInt8} (built : Dns.build d = some msg) :
    msg.length = d.name.length + 18 := by
  obtain ⟨out, coded, rfl⟩ := Option.map_eq_some_iff.mp built
  have size := encode_length coded
  simp only [List.length_append, put16, List.length_cons, List.length_nil] at size ⊢
  omega

/-! ## The round trip -/

/-- The name's end is found where the type begins. -/
theorem query_skipName {d : MnDns} {msg : List UInt8} (built : Dns.build d = some msg)
    (short : d.name.length ≤ 63) :
    (skipName msg 12 (UInt16.ofNat msg.length)).toNat + 4 = msg.length ∧
      msg.drop (skipName msg 12 (UInt16.ofNat msg.length)).toNat = trailer := by
  have length := build_length built
  rw [build_spec] at built
  split at built
  · rename_i fine
    obtain rfl := Option.some.inj built
    have name := encode_nameAt fine (header d) trailer
    rw [← List.append_assoc] at name
    have here : (header d).length = (12 : UInt16).toNat := rfl
    rw [here] at name
    obtain ⟨found, _⟩ := skipName_at (by omega) name
    rw [found, ← here]
    constructor
    · simp only [List.length_append]
      rfl
    · rw [← List.length_append, List.drop_left]
  · cases built

private theorem not_labelled (label : List UInt8) : ¬ Labelled label ↔ label = [] ∨
    63 < label.length := by
  unfold Labelled
  by_cases empty : label = [] <;> simp [empty]

private theorem build_none_iff (d : MnDns) :
    Dns.build d = none ↔ ∃ label ∈ d.name.splitOn 0x2e, label = [] ∨ 63 < label.length := by
  rw [build_spec]
  constructor
  · intro none_
    split at none_
    · cases none_
    · rename_i bad
      obtain ⟨label, member, bad⟩ : ∃ label ∈ d.name.splitOn 0x2e, ¬ Labelled label := by simpa using bad
      exact ⟨label, member, (not_labelled label).mp bad⟩
  · rintro ⟨label, member, bad⟩
    apply if_neg
    intro fine
    exact (not_labelled label).mpr bad (fine label member)

/-- Behind the header are the labels of the name, and then the type and the class. -/
theorem query_decodes (built : Dns.build d = some msg) :
    decode (msg.drop 12) = some (d.name.splitOn 0x2e, trailer) := by
  rw [build_spec] at built
  split at built
  · rename_i fine
    obtain rfl := Option.some.inj built
    have start : (header d).length = 12 := rfl
    rw [List.append_assoc, ← start, List.drop_left]
    exact decode_encode (fun l member => (fine l member).fits) trailer
  · cases built

/-- Where a message ends in the type and the class, they are read there. -/
theorem trailer_read {o : Nat} (tail : msg.drop o = trailer) :
    get16 msg o = TYPE_A ∧ get16 msg (o + 2) = CLASS_IN := by
  have read : ∀ k, byteAt msg (o + k) = byteAt trailer k := by
    intro k
    rw [← tail]
    simp [byteAt]
  constructor
  · unfold get16
    rw [read 1, ← Nat.add_zero o, read 0]
    rfl
  · unfold get16
    rw [Nat.add_assoc, read 2, read 3]
    rfl

/-- A name of at most 63 characters has a query exactly when none of its labels
is empty or over 63. Its labels, read back and joined, are the name; the
resolver's own reader finds the type and the class behind them, and the end of
the message; and the message is 18 bytes longer than the name. -/
theorem query_faithful (d : MnDns) (short : d.name.length ≤ MN_DNS_NAME_MAX) :
    (Dns.build d = none ↔ ∃ label ∈ d.name.splitOn 0x2e, label = [] ∨ 63 < label.length) ∧
      ∀ msg, Dns.build d = some msg →
        (∃ labels, decode (msg.drop 12) = some (labels, put16 TYPE_A ++ put16 CLASS_IN) ∧
          [0x2e].intercalate labels = d.name) ∧
        (let o := (skipName msg 12 (UInt16.ofNat msg.length)).toNat
        get16 msg o = TYPE_A ∧ get16 msg (o + 2) = CLASS_IN ∧ o + 4 = msg.length) ∧
        msg.length = d.name.length + 18 ∧ msg.length ≤ MN_UDP_SOCK_BUF.toNat := by
  have most : d.name.length ≤ 63 := short
  refine ⟨build_none_iff d, ?_⟩
  intro msg built
  have length := build_length built
  obtain ⟨stop, tail⟩ := query_skipName built most
  obtain ⟨type, class_⟩ := trailer_read tail
  refine ⟨⟨d.name.splitOn 0x2e, query_decodes built, List.intercalate_splitOn 0x2e⟩,
    ⟨type, class_, stop⟩, length, ?_⟩
  rw [length, show MN_UDP_SOCK_BUF.toNat = 576 from rfl]
  omega

/-- A resolver about to ask for `name`. -/
def asking (name : List UInt8) : MnDns :=
  { state := .waiting, sock := 0, id := 0x1234, port := 49152, server := zeroIp,
    ip := zeroIp, name, sentAt := 0
    tries := 0, pending := false }

/-- The query for `a.bc`. -/
def shortQuery : List UInt8 :=
  [0x12, 0x34, 1, 0, 0, 1, 0, 0, 0, 0, 0, 0, 1, 0x61, 2, 0x62, 0x63, 0, 0, 1, 0, 1]

theorem query_faithful_short : Dns.build (asking [0x61, 0x2e, 0x62, 0x63]) = some shortQuery ∧
    ∃ labels, decode (shortQuery.drop 12) = some (labels, put16 TYPE_A ++ put16 CLASS_IN) ∧
      [0x2e].intercalate labels = [0x61, 0x2e, 0x62, 0x63] := by
  have built : Dns.build (asking [0x61, 0x2e, 0x62, 0x63]) = some shortQuery := by decide +kernel
  obtain ⟨labels, _⟩ := (query_faithful (asking [0x61, 0x2e, 0x62, 0x63]) (by decide)).2 shortQuery built
  exact ⟨built, labels⟩

end MegaNet.DnsQuery
