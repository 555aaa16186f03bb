import MegaNet.Core.Dns
import MegaNet.Words

/-! Which datagrams the resolver takes for an answer: a grammar of DNS messages
by offsets, the parser's loops against it, and the one length field whose sum
wraps. -/
namespace MegaNet.DnsParse
open MegaNet.Core MegaNet.Core.Dns Words

variable {m : List UInt8} {o e k : Nat}

/-! ## The grammar -/

/-- A name from `o` to `e`: labels, each behind its length, up to a zero byte or
a pointer of two bytes. -/
inductive NameAt (m : List UInt8) : Nat → Nat → Prop where
  | root {o : Nat} (inside : o < m.length) (ends : byteAt m o = 0) : NameAt m o (o + 1)
  | pointer {o : Nat} (inside : o + 2 ≤ m.length) (points : byteAt m o &&& 0xc0 = 0xc0) :
      NameAt m o (o + 2)
  | label {o e : Nat} (inside : o < m.length) (more : byteAt m o ≠ 0)
      (plain : byteAt m o &&& 0xc0 ≠ 0xc0)
      (rest : NameAt m (o + 1 + (byteAt m o).toNat) e) : NameAt m o e

/-- A question: a name, a type and a class. -/
structure QuestionAt (m : List UInt8) (o e : Nat) : Prop where
  name : NameAt m o (e - 4)
  inside : e ≤ m.length
  fixed : 4 ≤ e

/-- `count` questions end to end. -/
inductive QuestionsAt (m : List UInt8) : Nat → Nat → Nat → Prop where
  | none {o : Nat} : QuestionsAt m 0 o o
  | next {count o middle e : Nat} (first : QuestionAt m o middle) (rest : QuestionsAt m count middle e) :
      QuestionsAt m (count + 1) o e

/-- The start of a record: its name, up to `k`, and its fixed fields. -/
structure HeadAt (m : List UInt8) (o k : Nat) : Prop where
  name : NameAt m o k
  inside : k + 10 ≤ m.length

/-- RDLENGTH, for a record whose name ends at `k`. -/
def rdlength (m : List UInt8) (k : Nat) : Nat := (get16 m (k + 8)).toNat

/-- Where such a record ends. -/
def recordEnd (m : List UInt8) (k : Nat) : Nat := k + 10 + rdlength m k

/-- Type A, class IN, length 4. -/
def IsAddress (m : List UInt8) (k : Nat) : Prop :=
  get16 m k = TYPE_A ∧ get16 m (k + 2) = CLASS_IN ∧ get16 m (k + 8) = 4

instance (m : List UInt8) (k : Nat) : Decidable (IsAddress m k) :=
  inferInstanceAs (Decidable (_ ∧ _ ∧ _))

/-- Records end to end from `o`, the first address record among the first `an`
holding `a`. -/
inductive AnswerAt (m : List UInt8) (a : Ip4) : Nat → Nat → Prop where
  | here {an o k : Nat} (head : HeadAt m o k) (inside : recordEnd m k ≤ m.length)
      (address : IsAddress m k)
      (data : a = ipAt m (k + 10)) : AnswerAt m a (an + 1) o
  | later {an o k : Nat} (head : HeadAt m o k) (inside : recordEnd m k ≤ m.length)
      (other : ¬ IsAddress m k)
      (rest : AnswerAt m a an (recordEnd m k)) : AnswerAt m a (an + 1) o

/-- The header of a successful answer to query `id`. -/
def Answers (id : UInt16) (m : List UInt8) : Prop :=
  12 ≤ m.length ∧ get16 m 0 = id ∧ get16 m 2 &&& FLAG_QR ≠ 0 ∧ get16 m 2 &&& RCODE_MASK = 0

def qdcount (m : List UInt8) : Nat := (get16 m 4).toNat

def ancount (m : List UInt8) : Nat := (get16 m 6).toNat

/-- A well-formed answer with address `a`. -/
def WellFormed (id : UInt16) (m : List UInt8) (a : Ip4) : Prop :=
  Answers id m ∧ ∃ o, QuestionsAt m (qdcount m) 12 o ∧ AnswerAt m a (ancount m) o

/-- Among the first `an` records from `o`, before any address record, one whose
end is past what 16 bits hold. -/
inductive OverlongAt (m : List UInt8) : Nat → Nat → Prop where
  | here {an o k : Nat} (head : HeadAt m o k) (past : 65536 ≤ recordEnd m k) : OverlongAt m (an + 1) o
  | later {an o k : Nat} (head : HeadAt m o k) (inside : recordEnd m k ≤ m.length)
      (other : ¬ IsAddress m k)
      (rest : OverlongAt m an (recordEnd m k)) : OverlongAt m (an + 1) o

/-- Such a record in an answer to query `id`. -/
def Overlong (id : UInt16) (m : List UInt8) : Prop :=
  Answers id m ∧ ∃ o, QuestionsAt m (qdcount m) 12 o ∧ OverlongAt m (ancount m) o

/-! ## Names -/

theorem NameAt.bounds (name : NameAt m o e) : o < e ∧ e ≤ m.length := by
  induction name with
  | root | pointer => omega
  | label _ _ _ _ ih => omega

/-- A name ends at one place. -/
theorem NameAt.unique (name : NameAt m o e) (name' : NameAt m o k) : e = k := by
  induction name generalizing k with
  | root _ ends =>
    cases name' with
    | root => rfl
    | pointer _ points =>
      rw [ends] at points
      cases points
    | label _ more => exact absurd ends more
  | pointer _ points =>
    cases name' with
    | root _ ends =>
      rw [ends] at points
      cases points
    | pointer => rfl
    | label _ _ plain => exact absurd points plain
  | label _ more plain _ ih =>
    cases name' with
    | root _ ends => exact absurd ends more
    | pointer _ points => exact absurd points plain
    | label _ _ _ rest' => exact ih rest'

private theorem skipNameFrom_sound (short : m.length ≤ 576) (fuel : Nat) (o : UInt16)
    (found : skipNameFrom m (UInt16.ofNat m.length) fuel o ≠ 0) :
    NameAt m o.toNat (skipNameFrom m (UInt16.ofNat m.length) fuel o).toNat := by
  induction fuel generalizing o with
  | zero => exact absurd rfl found
  | succ fuel ih =>
    have one : (1 : UInt16).toNat = 1 := rfl
    have two : (2 : UInt16).toNat = 2 := rfl
    rw [skipNameFrom] at found ⊢
    by_cases inside : o < UInt16.ofNat m.length
    · rw [if_pos inside] at found ⊢
      rw [UInt16.lt_iff_toNat_lt, len_toNat (short.trans (by decide))] at inside
      dsimp only at found ⊢
      by_cases ends : byteAt m o.toNat = 0
      · rw [if_pos ends, toNat_more (by omega)]
        exact .root inside ends
      rw [if_neg ends] at found ⊢
      by_cases points : byteAt m o.toNat &&& 0xc0 = 0xc0
      · rw [if_pos points] at found ⊢
        by_cases fits : o + 2 ≤ UInt16.ofNat m.length
        · rw [if_pos fits, toNat_more (by omega)]
          rw [UInt16.le_iff_toNat_le, len_toNat (short.trans (by decide)), toNat_more (by omega)] at fits
          exact .pointer fits points
        · exact absurd (if_neg fits) found
      rw [if_neg points] at found ⊢
      have rest := ih _ found
      have small := (byteAt m o.toNat).toNat_lt
      rw [toNat_more (by rw [UInt8.toNat_toUInt16, toNat_more (by omega)]; omega), UInt8.toNat_toUInt16,
        toNat_more (by omega)] at rest
      exact .label inside ends points rest
    · exact absurd (if_neg inside) found

/-- Enough turns find the end of a name that is there. -/
theorem skipNameFrom_complete (short : m.length ≤ 576) (name : NameAt m o e) (fuel : Nat) (p : UInt16)
    (here : p.toNat = o) (enough : m.length ≤ o + fuel) :
    (skipNameFrom m (UInt16.ofNat m.length) fuel p).toNat = e := by
  have one : (1 : UInt16).toNat = 1 := rfl
  have two : (2 : UInt16).toNat = 2 := rfl
  induction name generalizing fuel p with
  | root inside ends =>
    subst here
    obtain ⟨fuel, rfl⟩ : ∃ n, fuel = n + 1 := ⟨fuel - 1, by omega⟩
    rw [skipNameFrom]
    dsimp only
    rw [if_pos (by rwa [UInt16.lt_iff_toNat_lt, len_toNat (short.trans (by decide))]), if_pos ends,
      toNat_more (by omega), one]
  | pointer inside points =>
    subst here
    obtain ⟨fuel, rfl⟩ : ∃ n, fuel = n + 1 := ⟨fuel - 1, by omega⟩
    have more : byteAt m p.toNat ≠ 0 := fun ends => by
      rw [ends] at points
      cases points
    have fits : p + 2 ≤ UInt16.ofNat m.length := by
      rw [UInt16.le_iff_toNat_le, len_toNat (short.trans (by decide)), toNat_more (by omega)]
      omega
    rw [skipNameFrom]
    dsimp only
    rw [if_pos (by rw [UInt16.lt_iff_toNat_lt, len_toNat (short.trans (by decide))]; omega),
      if_neg more, if_pos points, if_pos fits,
      toNat_more (by omega), two]
  | label inside more plain rest ih =>
    subst here
    obtain ⟨fuel, rfl⟩ : ∃ n, fuel = n + 1 := ⟨fuel - 1, by omega⟩
    have small := (byteAt m p.toNat).toNat_lt
    have further : (p + 1 + (byteAt m p.toNat).toUInt16).toNat = p.toNat + 1 +
        (byteAt m p.toNat).toNat := by
      rw [toNat_more (by rw [UInt8.toNat_toUInt16, toNat_more (by omega)]; omega), UInt8.toNat_toUInt16,
        toNat_more (by omega), one]
    rw [skipNameFrom]
    dsimp only
    rw [if_pos (by rwa [UInt16.lt_iff_toNat_lt, len_toNat (short.trans (by decide))]),
      if_neg more, if_neg plain]
    exact ih fuel _ further (by omega)

/-- `skip_name` finds the end of the name at `p`, and nothing else. -/
theorem skipName_iff (short : m.length ≤ 576) (p e : UInt16) :
    skipName m p (UInt16.ofNat m.length) = e ∧ e ≠ 0 ↔ NameAt m p.toNat e.toNat := by
  unfold skipName
  constructor
  · rintro ⟨rfl, found⟩
    exact skipNameFrom_sound short _ p found
  · intro name
    have same := skipNameFrom_complete short name (UInt16.ofNat m.length).toNat p rfl
      (by rw [len_toNat (short.trans (by decide))]; omega)
    refine ⟨UInt16.toNat_inj.mp same, ?_⟩
    rintro rfl
    exact absurd name.bounds.1 (by simp)

/-- The end of a name as the parser has it. -/
theorem skipName_at (short : m.length ≤ 576) {p : UInt16} (name : NameAt m p.toNat k) :
    (skipName m p (UInt16.ofNat m.length)).toNat = k ∧ skipName m p (UInt16.ofNat m.length) ≠ 0 := by
  have bounds := name.bounds
  have whole : (UInt16.ofNat k).toNat = k := by
    rw [UInt16.toNat_ofNat']
    omega
  obtain ⟨same, found⟩ := (skipName_iff short p (UInt16.ofNat k)).mpr (whole.symm ▸ name)
  rw [same]
  exact ⟨whole, found⟩

/-! ## One turn of each loop -/

private theorem question_iff (short : m.length ≤ 576) (p e : UInt16) :
    question m (UInt16.ofNat m.length) p = some e ↔ QuestionAt m p.toNat e.toNat := by
  have four : (4 : UInt16).toNat = 4 := rfl
  have len := len_toNat (short.trans (by decide))
  unfold question
  dsimp only
  constructor
  · intro found
    split at found
    · cases found
    rename_i passed
    rw [not_or, gt_iff_lt, UInt16.lt_iff_toNat_lt, len] at passed
    have name := (skipName_iff short p _).mp ⟨rfl, passed.1⟩
    have bounds := name.bounds
    obtain rfl := Option.some.inj found
    have sum : (skipName m p (UInt16.ofNat m.length) + 4).toNat =
        (skipName m p (UInt16.ofNat m.length)).toNat + 4 := toNat_more (by omega)
    refine ⟨?_, by omega, by omega⟩
    rw [sum, Nat.add_sub_cancel]
    exact name
  · rintro ⟨name, inside, fixed⟩
    obtain ⟨same, found⟩ := skipName_at short name
    have sum : (skipName m p (UInt16.ofNat m.length) + 4).toNat = e.toNat := by
      rw [toNat_more (by omega), same, four]
      omega
    rw [if_neg]
    · rw [UInt16.toNat_inj.mp sum]
    · rw [not_or, gt_iff_lt, UInt16.lt_iff_toNat_lt, sum, len]
      exact ⟨found, by omega⟩

/-- What a turn of the loop over the answers comes to, in terms of the record. -/
inductive RecordIs (m : List UInt8) (p : UInt16) : Record → Prop where
  | malformed (bad : ∀ k, HeadAt m p.toNat k → m.length < recordEnd m k ∧ recordEnd m k < 65536) :
      RecordIs m p .malformed
  | address (k : Nat) (head : HeadAt m p.toNat k) (inside : recordEnd m k ≤ m.length)
      (address : IsAddress m k) :
      RecordIs m p (.answer (ipAt m (k + 10)))
  | other (k : Nat) (next : UInt16) (head : HeadAt m p.toNat k) (inside : recordEnd m k ≤ m.length)
      (plain : ¬ IsAddress m k) (end_ : next.toNat = recordEnd m k) : RecordIs m p (.other next)
  /-- The end of the record wraps, to before its data. -/
  | wrapped (k : Nat) (next : UInt16) (head : HeadAt m p.toNat k) (past : 65536 ≤ recordEnd m k)
      (end_ : next.toNat + 65536 = recordEnd m k) (back : next.toNat < k + 10) :
        RecordIs m p (.other next)

theorem HeadAt.unique {k' : Nat} (head : HeadAt m o k) (head' : HeadAt m o k') : k = k' :=
  head.name.unique head'.name

private theorem record_is (short : m.length ≤ 576) (p : UInt16) : RecordIs m p
    (record m (UInt16.ofNat m.length) p) := by
  have ten : (10 : UInt16).toNat = 10 := rfl
  have len := len_toNat (short.trans (by decide))
  unfold record
  dsimp only
  split
  · rename_i refused
    refine .malformed fun k head => ?_
    obtain ⟨same, found⟩ := skipName_at short head.name
    have inside := head.inside
    obtain none_ | past := refused
    · exact absurd none_ found
    · rw [gt_iff_lt, UInt16.lt_iff_toNat_lt, len, toNat_more (by omega)] at past
      omega
  rename_i passed
  rw [not_or, gt_iff_lt, UInt16.lt_iff_toNat_lt, len] at passed
  have name := (skipName_iff short p _).mp ⟨rfl, passed.1⟩
  generalize skipName m p (UInt16.ofNat m.length) = o at passed name ⊢
  have bounds := name.bounds
  have fixed : (o + 10).toNat = o.toNat + 10 := by rw [toNat_more (by omega), ten]
  have head : HeadAt m p.toNat o.toNat := ⟨name, by omega⟩
  have inside := head.inside
  have small := (get16 m (o.toNat + 8)).toNat_lt
  have whole : recordEnd m o.toNat = o.toNat + 10 + (get16 m (o.toNat + 8)).toNat := rfl
  have sum := UInt16.toNat_add (o + 10) (get16 m (o.toNat + 8))
  rw [fixed] at sum
  have test : o + 10 + get16 m (o.toNat + 8) > UInt16.ofNat m.length ↔
      m.length < (o + 10 + get16 m (o.toNat + 8)).toNat := by
    rw [gt_iff_lt, UInt16.lt_iff_toNat_lt, len]
  rw [fixed]
  by_cases past : 65536 ≤ recordEnd m o.toNat
  · -- The wrapped end passes the test, and so long a record is no address.
    rw [if_neg (by rw [test]; omega), if_neg]
    · exact .wrapped o.toNat _ head past (by omega) (by omega)
    · rintro ⟨_, _, four⟩
      rw [whole, four, show (4 : UInt16).toNat = 4 from rfl] at past
      omega
  by_cases beyond : m.length < recordEnd m o.toNat
  · rw [if_pos (by rw [test]; omega)]
    refine .malformed fun k head' => ?_
    rw [← head.unique head']
    omega
  · rw [if_neg (by rw [test]; omega)]
    split
    · rename_i address
      exact .address o.toNat head (by omega) address
    · rename_i plain
      exact .other o.toNat _ head (by omega) plain (by omega)

/-! ## The loops -/

theorem QuestionAt.bounds (at_ : QuestionAt m o e) : o + 5 ≤ e ∧ e ≤ m.length := by
  have name := at_.name.bounds
  have := at_.inside
  omega

private theorem questionsAt_zero : QuestionsAt m 0 o e ↔ e = o :=
  ⟨fun done => by cases done; rfl, fun same => same ▸ .none⟩

private theorem questionsAt_succ {count : Nat} :
    QuestionsAt m (count + 1) o e ↔ ∃ middle, QuestionAt m o middle ∧ QuestionsAt m count middle e := by
  constructor
  · intro more
    cases more with
    | next first rest => exact ⟨_, first, rest⟩
  · rintro ⟨_, first, rest⟩
    exact .next first rest

theorem QuestionsAt.bounds {count : Nat} (at_ : QuestionsAt m count o e)
    (inside : o ≤ m.length) : e ≤ m.length := by
  induction at_ with
  | none => exact inside
  | next first _ ih => exact ih first.bounds.2

private theorem answerAt_succ {a : Ip4} {an : Nat} :
    AnswerAt m a (an + 1) o ↔ ∃ k, HeadAt m o k ∧ recordEnd m k ≤ m.length ∧
      (IsAddress m k ∧ a = ipAt m (k + 10) ∨ ¬ IsAddress m k ∧ AnswerAt m a an (recordEnd m k)) := by
  constructor
  · intro more
    cases more with
    | here head inside address data => exact ⟨_, head, inside, Or.inl ⟨address, data⟩⟩
    | later head inside other rest => exact ⟨_, head, inside, Or.inr ⟨other, rest⟩⟩
  · rintro ⟨_, head, inside, ⟨address, data⟩ | ⟨other, rest⟩⟩
    · exact .here head inside address data
    · exact .later head inside other rest

private theorem overlongAt_succ {an : Nat} :
    OverlongAt m (an + 1) o ↔ ∃ k, HeadAt m o k ∧ (65536 ≤ recordEnd m k ∨
      recordEnd m k ≤ m.length ∧ ¬ IsAddress m k ∧ OverlongAt m an (recordEnd m k)) := by
  constructor
  · intro more
    cases more with
    | here head past => exact ⟨_, head, Or.inl past⟩
    | later head inside other rest => exact ⟨_, head, Or.inr ⟨inside, other, rest⟩⟩
  · rintro ⟨_, head, past | ⟨inside, other, rest⟩⟩
    · exact .here head past
    · exact .later head inside other rest

/-- An offset within a message, as a 16-bit word. -/
theorem word_of (short : m.length ≤ 576) (inside : o ≤ m.length) : ∃ p : UInt16, p.toNat = o :=
  ⟨UInt16.ofNat o, by rw [UInt16.toNat_ofNat']; omega⟩

private theorem questions_iff (short : m.length ≤ 576) (qd : Nat) (p e : UInt16) :
    questions m (UInt16.ofNat m.length) qd p = some e ↔ QuestionsAt m qd p.toNat e.toNat := by
  induction qd generalizing p with
  | zero =>
    rw [questionsAt_zero, UInt16.toNat_inj, questions, Option.some.injEq]
    exact eq_comm
  | succ qd ih =>
    rw [questionsAt_succ, questions]
    constructor
    · intro done
      cases first : question m (UInt16.ofNat m.length) p with
      | none =>
        rw [first] at done
        cases done
      | some middle =>
        rw [first] at done
        exact ⟨middle.toNat, (question_iff short p middle).mp first, (ih middle).mp done⟩
    · rintro ⟨o, first, rest⟩
      obtain ⟨middle, rfl⟩ := word_of short first.bounds.2
      rw [(question_iff short p middle).mpr first]
      exact (ih middle).mpr rest

/-- Without an overlong record, the loop over the answers finds what the grammar
names. -/
theorem answers_iff (short : m.length ≤ 576) (an : Nat) (p : UInt16)
    (fine : ¬ OverlongAt m an p.toNat) (a : Ip4) :
    answers m (UInt16.ofNat m.length) an p = some a ↔ AnswerAt m a an p.toNat := by
  induction an generalizing p with
  | zero =>
    constructor
    · intro done
      cases done
    · intro more
      cases more
  | succ an ih =>
    rw [overlongAt_succ] at fine
    rw [answerAt_succ, answers]
    have turn := record_is short p
    generalize record m (UInt16.ofNat m.length) p = found at turn
    cases turn with
    | malformed bad =>
      constructor
      · intro done
        cases done
      · rintro ⟨k, head, inside, _⟩
        have := (bad k head).1
        omega
    | address k head inside address =>
      constructor
      · intro done
        exact ⟨k, head, inside, Or.inl ⟨address, (Option.some.inj done).symm⟩⟩
      · rintro ⟨k', head', _, ⟨_, data⟩ | ⟨other, _⟩⟩
        · rw [data, head.unique head']
        · exact absurd (head.unique head' ▸ address) other
    | other k next head inside plain end_ =>
      have later : ¬ OverlongAt m an next.toNat := fun rest =>
        fine ⟨k, head, Or.inr ⟨inside, plain, end_ ▸ rest⟩⟩
      constructor
      · intro done
        exact ⟨k, head, inside, Or.inr ⟨plain, end_ ▸ (ih next later).mp done⟩⟩
      · rintro ⟨k', head', _, ⟨address, _⟩ | ⟨_, rest⟩⟩
        · exact absurd (head.unique head' ▸ address) plain
        · exact (ih next later).mpr (end_ ▸ head.unique head' ▸ rest)
    | wrapped k next head past => exact absurd ⟨k, head, Or.inl past⟩ fine

/-! ## Where the loops go -/

/-- The cursor at each turn of the loop over the questions. -/
def questionCursors (m : List UInt8) (len : UInt16) : Nat → UInt16 → List UInt16
  | 0, _ => []
  | qd + 1, o => o :: match question m len o with
    | none => []
    | some o => questionCursors m len qd o

/-- The cursor at each turn of the loop over the answers. -/
def answerCursors (m : List UInt8) (len : UInt16) : Nat → UInt16 → List UInt16
  | 0, _ => []
  | an + 1, o => o :: match record m len o with
    | .malformed | .answer _ => []
    | .other o => answerCursors m len an o

instance (id : UInt16) (m : List UInt8) : Decidable (Answers id m) :=
  inferInstanceAs (Decidable (_ ∧ _ ∧ _ ∧ _))

/-- The cursors of both loops of `parse`. -/
def cursors (d : MnDns) (m : List UInt8) : List UInt16 × List UInt16 :=
  let len := UInt16.ofNat m.length
  if Answers d.id m then
    (questionCursors m len (qdcount m) HDR_LEN,
      match questions m len (qdcount m) HDR_LEN with
      | none => []
      | some o => answerCursors m len (ancount m) o)
  else ([], [])

/-- The cursor moves on: past a question, past a record, never back from the
data of one; and there are fewer turns than bytes, if any. -/
structure MovesOn (d : MnDns) (m : List UInt8) : Prop where
  questions : ∀ o ∈ (cursors d m).1, ∀ o', question m (UInt16.ofNat m.length) o = some o' → o < o'
  answers : ∀ o ∈ (cursors d m).2, ∀ o', record m (UInt16.ofNat m.length) o = .other o' →
    o < o' ∧ skipName m o (UInt16.ofNat m.length) + 10 ≤ o'
  few : (cursors d m).1.length + (cursors d m).2.length < m.length ∨ cursors d m = ([], [])

/-- The parser does what it is for: it accepts the well-formed answers, and its
cursor moves on. -/
def ParsesWell (d : MnDns) (m : List UInt8) : Prop :=
  (∀ a, (parse d m).1 = true ∧ (parse d m).2.ip = a ↔ WellFormed d.id m a) ∧ MovesOn d m

private theorem questionCursors_few (short : m.length ≤ 576) (qd : Nat) (p : UInt16)
    (inside : p.toNat ≤ m.length) :
    5 * (questionCursors m (UInt16.ofNat m.length) qd p).length + p.toNat ≤ m.length + 5 ∧
      ∀ e, questions m (UInt16.ofNat m.length) qd p = some e →
        5 * (questionCursors m (UInt16.ofNat m.length) qd p).length + p.toNat ≤ e.toNat ∧
          e.toNat ≤ m.length := by
  induction qd generalizing p with
  | zero =>
    refine ⟨by simp only [questionCursors, List.length_nil]; omega, fun e done => ?_⟩
    obtain rfl : p = e := Option.some.inj done
    simp [questionCursors, inside]
  | succ qd ih =>
    rw [questionCursors, questions]
    cases first : question m (UInt16.ofNat m.length) p with
    | none =>
      refine ⟨by simp only [List.length_cons, List.length_nil]; omega, fun e done => by cases done⟩
    | some middle =>
      have bounds := ((question_iff short p middle).mp first).bounds
      obtain ⟨most, exact_⟩ := ih middle bounds.2
      refine ⟨by simp only [List.length_cons]; omega, fun e done => ?_⟩
      have := exact_ e done
      simp only [List.length_cons]
      omega

theorem HeadAt.bounds (head : HeadAt m o k) : o + 11 ≤ recordEnd m k := by
  have name := head.name.bounds
  unfold recordEnd
  omega

private theorem answerCursors_few (short : m.length ≤ 576) (an : Nat) (p : UInt16)
    (inside : p.toNat ≤ m.length)
    (fine : ¬ OverlongAt m an p.toNat) :
    11 * (answerCursors m (UInt16.ofNat m.length) an p).length + p.toNat ≤ m.length + 11 := by
  induction an generalizing p with
  | zero =>
    simp only [answerCursors, List.length_nil]
    omega
  | succ an ih =>
    rw [overlongAt_succ] at fine
    rw [answerCursors]
    have turn := record_is short p
    generalize record m (UInt16.ofNat m.length) p = found at turn
    cases turn with
    | malformed | address =>
      simp only [List.length_cons, List.length_nil]
      omega
    | other k next head within plain end_ =>
      have bounds := head.bounds
      have rest := ih next (by omega) fun rest => fine ⟨k, head, Or.inr ⟨within, plain, end_ ▸ rest⟩⟩
      simp only [List.length_cons]
      omega
    | wrapped k next head past => exact absurd ⟨k, head, Or.inl past⟩ fine

private theorem questionCursors_on (short : m.length ≤ 576) (qd : Nat) (p : UInt16) :
    ∀ o ∈ questionCursors m (UInt16.ofNat m.length) qd p, ∀ o',
      question m (UInt16.ofNat m.length) o = some o' → o < o' := by
  intro o _ o' first
  have bounds := ((question_iff short o o').mp first).bounds
  rw [UInt16.lt_iff_toNat_lt]
  omega

/-- At a record that is not overlong the cursor moves on past its fixed fields. -/
theorem record_on (short : m.length ≤ 576) {p next : UInt16}
    (fine : ∀ k, HeadAt m p.toNat k → recordEnd m k < 65536)
    (found : record m (UInt16.ofNat m.length) p = .other next) :
    p < next ∧ skipName m p (UInt16.ofNat m.length) + 10 ≤ next := by
  have ten : (10 : UInt16).toNat = 10 := rfl
  have turn := record_is short p
  rw [found] at turn
  cases turn with
  | other k _ head inside plain end_ =>
    have bounds := head.bounds
    obtain ⟨same, _⟩ := skipName_at short head.name
    have within := head.inside
    rw [UInt16.lt_iff_toNat_lt, UInt16.le_iff_toNat_le, toNat_more (by omega), same, end_]
    refine ⟨by omega, ?_⟩
    unfold recordEnd
    omega
  | wrapped k _ head past =>
    have := fine k head
    omega

private theorem answerCursors_on (short : m.length ≤ 576) (an : Nat) (p : UInt16)
    (fine : ¬ OverlongAt m an p.toNat) :
    ∀ o ∈ answerCursors m (UInt16.ofNat m.length) an p, ∀ o',
      record m (UInt16.ofNat m.length) o = .other o' →
        o < o' ∧ skipName m o (UInt16.ofNat m.length) + 10 ≤ o' := by
  induction an generalizing p with
  | zero => simp [answerCursors]
  | succ an ih =>
    rw [overlongAt_succ] at fine
    have short_ : ∀ k, HeadAt m p.toNat k → recordEnd m k < 65536 := fun k head =>
      Nat.lt_of_not_le fun past => fine ⟨k, head, Or.inl past⟩
    intro o member o' found
    rw [answerCursors, List.mem_cons] at member
    obtain rfl | later := member
    · exact record_on short short_ found
    · have turn := record_is short p
      generalize record m (UInt16.ofNat m.length) p = first at turn later
      cases turn with
      | malformed | address => simp at later
      | other k next head within plain end_ =>
        exact ih next (fun rest => fine ⟨k, head, Or.inr ⟨within, plain, end_ ▸ rest⟩⟩) o later o' found
      | wrapped k next head past => exact absurd ⟨k, head, Or.inl past⟩ fine

/-- An overlong record is reached, and takes the cursor back. -/
theorem overlong_back (short : m.length ≤ 576) (an : Nat) (p : UInt16)
    (over_ : OverlongAt m an p.toNat) :
    ∃ o ∈ answerCursors m (UInt16.ofNat m.length) an p, ∃ o',
      record m (UInt16.ofNat m.length) o = .other o' ∧
      o' < skipName m o (UInt16.ofNat m.length) + 10 := by
  have ten : (10 : UInt16).toNat = 10 := rfl
  induction an generalizing p with
  | zero => cases over_
  | succ an ih =>
    obtain ⟨k, head, long⟩ := overlongAt_succ.mp over_
    have inside := head.inside
    rw [answerCursors]
    have turn := record_is short p
    cases first : record m (UInt16.ofNat m.length) p with
    | malformed =>
      rw [first] at turn
      cases turn with
      | malformed bad =>
        have := bad k head
        omega
    | answer ip =>
      rw [first] at turn
      cases turn with
      | address k' head' inside' address =>
        rw [← head.unique head'] at address inside'
        obtain past | ⟨_, plain, _⟩ := long
        · omega
        · exact absurd address plain
    | other next =>
      rw [first] at turn
      cases turn with
      | other k' _ head' inside' plain end_ =>
        rw [← head.unique head'] at end_ inside'
        obtain past | ⟨_, _, rest⟩ := long
        · omega
        · obtain ⟨o, member, back⟩ := ih next (end_ ▸ rest)
          exact ⟨o, List.mem_cons_of_mem _ member, back⟩
      | wrapped k' _ head' past end_ back =>
        rw [← head.unique head'] at back
        obtain ⟨same, _⟩ := skipName_at short head.name
        refine ⟨p, List.mem_cons_self, next, first, ?_⟩
        rw [UInt16.lt_iff_toNat_lt, toNat_more (by omega), same]
        exact back

/-! ## The parser -/

private theorem parse_refused (short : m.length ≤ 576) (d : MnDns) (bad : ¬ Answers d.id m) :
    (parse d m).1 = false := by
  have tests := bad
  unfold parse
  dsimp only
  split
  · rfl
  rename_i header
  rw [not_or, UInt16.lt_iff_toNat_lt, len_toNat (short.trans (by decide)), not_not] at header
  split
  · rfl
  split
  · rfl
  · rename_i flags rcode
    exact absurd ⟨Nat.le_of_not_lt header.1, header.2, flags, not_not.mp rcode⟩ bad

theorem parse_answers (short : m.length ≤ 576) (d : MnDns) (good : Answers d.id m) (a : Ip4) :
    (parse d m).1 = true ∧ (parse d m).2.ip = a ↔
      ∃ o, questions m (UInt16.ofNat m.length) (qdcount m) HDR_LEN = some o ∧
        answers m (UInt16.ofNat m.length) (ancount m) o = some a := by
  obtain ⟨long, id, flags, rcode⟩ := good
  have header : ¬ (UInt16.ofNat m.length < HDR_LEN ∨ get16 m 0 ≠ d.id) := by
    rw [not_or, UInt16.lt_iff_toNat_lt, len_toNat (short.trans (by decide)), not_not]
    exact ⟨Nat.not_lt.mpr long, id⟩
  unfold parse
  dsimp only
  rw [if_neg header, if_neg flags, if_neg (not_not.mpr rcode), qdcount, ancount]
  cases questions m (UInt16.ofNat m.length) (get16 m 4).toNat HDR_LEN with
  | none => simp
  | some o =>
    simp only [Option.some.injEq, exists_eq_left']
    cases answers m (UInt16.ofNat m.length) (get16 m 6).toNat o <;> simp

private theorem parses_well (short : m.length ≤ 576) (d : MnDns) (fine : ¬ Overlong d.id m) :
    ParsesWell d m := by
  have start : HDR_LEN.toNat = 12 := rfl
  by_cases good : Answers d.id m
  · have reached : ∀ o, questions m (UInt16.ofNat m.length) (qdcount m) HDR_LEN = some o →
        QuestionsAt m (qdcount m) 12 o.toNat ∧ ¬ OverlongAt m (ancount m) o.toNat := fun o found =>
      have there := (questions_iff short _ _ o).mp found
      ⟨there, fun long => fine ⟨good, o.toNat, there, long⟩⟩
    obtain ⟨most, exact_⟩ := questionCursors_few short (qdcount m) HDR_LEN good.1
    refine ⟨fun a => ?_, ?_, ?_, ?_⟩
    · rw [parse_answers short d good a]
      constructor
      · rintro ⟨o, found, answer⟩
        exact ⟨good, o.toNat, (reached o found).1,
          (answers_iff short _ o (reached o found).2 a).mp answer⟩
      · rintro ⟨_, o, there, answer⟩
        obtain ⟨p, rfl⟩ := word_of short (there.bounds good.1)
        have found := (questions_iff short _ HDR_LEN p).mpr there
        exact ⟨p, found, (answers_iff short _ p (reached p found).2 a).mpr answer⟩
    · rw [cursors, if_pos good]
      exact questionCursors_on short _ _
    · rw [cursors, if_pos good]
      dsimp only
      cases found : questions m (UInt16.ofNat m.length) (qdcount m) HDR_LEN with
      | none => simp
      | some o => exact answerCursors_on short _ o (reached o found).2
    · refine Or.inl ?_
      rw [cursors, if_pos good]
      dsimp only
      have long := good.1
      cases found : questions m (UInt16.ofNat m.length) (qdcount m) HDR_LEN with
      | none =>
        simp only [List.length_nil]
        omega
      | some o =>
        obtain ⟨asked, within⟩ := exact_ o found
        have told := answerCursors_few short (ancount m) o within (reached o found).2
        dsimp only
        omega
  · refine ⟨fun a => ?_, ?_, ?_, Or.inr (if_neg good)⟩
    · rw [parse_refused short d good]
      simp [WellFormed, good]
    · simp [cursors, good]
    · simp [cursors, good]

private theorem not_parses_well (short : m.length ≤ 576) (d : MnDns) (bad : Overlong d.id m) :
    ¬ ParsesWell d m := by
  obtain ⟨good, o, there, long⟩ := bad
  obtain ⟨p, rfl⟩ := word_of short (there.bounds good.1)
  have found := (questions_iff short _ HDR_LEN p).mpr there
  obtain ⟨c, member, next, first, back⟩ := overlong_back short _ p long
  intro well
  have on := well.2.answers c (by rw [cursors, if_pos good, found]; exact member) next first
  rw [UInt16.lt_iff_toNat_lt] at back
  have := UInt16.le_iff_toNat_le.mp on.2
  omega

/-- For every datagram that fits a mailbox and every lookup, the parser accepts
exactly the well-formed answers, its cursor moving on at every turn and the
turns being fewer than the bytes, if and only if the datagram holds no overlong
record that the parser reaches. -/
theorem parse_exact_iff (d : MnDns) (short : m.length ≤ 576) : ParsesWell d m ↔ ¬ Overlong d.id m :=
  ⟨fun well bad => not_parses_well short d bad well, parses_well short d⟩

/-- A lookup under way, of `a`. -/
def aLookup : MnDns where
  state := .waiting
  sock := 0
  id := 7
  port := 49152
  server := ⟨10, 0, 0, 53⟩
  ip := zeroIp
  name := [0x61]
  sentAt := 0
  tries := 1
  pending := false

/-- The question, an alias for its name, and the address of the alias. -/
def aliasAnswer : List UInt8 :=
  [0, 7, 0x81, 0x80, 0, 1, 0, 2, 0, 0, 0, 0] ++ [1, 0x61, 0, 0, 1, 0, 1] ++
  [0xc0, 12, 0, 5, 0, 1, 0, 0, 0, 60, 0, 3, 1, 0x62, 0] ++
  [0xc0, 31, 0, 1, 0, 1, 0, 0, 0, 60, 0, 4, 10, 0, 0, 99]

private theorem aliasAnswer_question : QuestionAt aliasAnswer 12 19 where
  name := .label (by decide) (by decide) (by decide) (.root (by decide) (by decide))
  inside := by decide
  fixed := by decide

private theorem aliasAnswer_alias : HeadAt aliasAnswer 19 21 where
  name := .pointer (by decide) (by decide)
  inside := by decide

private theorem aliasAnswer_address : HeadAt aliasAnswer 34 36 where
  name := .pointer (by decide) (by decide)
  inside := by decide

/-- Neither record is overlong. -/
theorem aliasAnswer_fits : ¬ Overlong 7 aliasAnswer := by
  rintro ⟨_, o, asked, long⟩
  obtain ⟨middle, first, none_⟩ :=
    questionsAt_succ.mp (show QuestionsAt aliasAnswer (0 + 1) 12 o from asked)
  have there : o = 19 := by
    have same := first.name.unique aliasAnswer_question.name
    have fixed := first.fixed
    rw [questionsAt_zero.mp none_]
    omega
  rw [there, show ancount aliasAnswer = 1 + 1 from rfl, overlongAt_succ] at long
  obtain ⟨k, head, past | ⟨_, _, rest⟩⟩ := long
  · rw [head.unique aliasAnswer_alias] at past
    exact absurd past (by decide)
  · rw [head.unique aliasAnswer_alias, show recordEnd aliasAnswer 21 = 34 from rfl,
      show (1 : Nat) = 0 + 1 from rfl, overlongAt_succ] at rest
    obtain ⟨k', head', past | ⟨_, _, nothing⟩⟩ := rest
    · rw [head'.unique aliasAnswer_address] at past
      exact absurd past (by decide)
    · cases nothing

/-- It is accepted at its second record, well formed, and the cursor moves on all
the way. -/
theorem parse_exact_iff_alias :
    (parse aLookup aliasAnswer).1 = true ∧ (parse aLookup aliasAnswer).2.ip = ⟨10, 0, 0, 99⟩ ∧
      cursors aLookup aliasAnswer = ([12], [19, 34]) ∧ ParsesWell aLookup aliasAnswer ∧
      ¬ Overlong 7 aliasAnswer ∧ WellFormed 7 aliasAnswer ⟨10, 0, 0, 99⟩ := by
  have well : ParsesWell aLookup aliasAnswer :=
    (parse_exact_iff aLookup (by decide)).mpr aliasAnswer_fits
  have accepted : (parse aLookup aliasAnswer).1 = true := by decide
  have address : (parse aLookup aliasAnswer).2.ip = ⟨10, 0, 0, 99⟩ := by decide
  exact ⟨accepted, address, by decide, well, aliasAnswer_fits, (well.1 _).mp ⟨accepted, address⟩⟩

/-- Two records are announced. The first, a CNAME, ends past 65535, which takes
the cursor back into the header, where a second appears to stand. -/
def wrappingAnswer : List UInt8 :=
  [0, 7, 0x80, 0, 0, 0, 0, 2, 0, 0, 0, 0] ++
  [1, 0, 1, 0x61, 0, 0, 5, 0, 4, 10, 0, 0, 99, 0xff, 0xec]

private theorem wrappingAnswer_head : HeadAt wrappingAnswer 12 17 where
  name := .label (by decide) (by decide) (by decide)
    (.label (by decide) (by decide) (by decide) (.root (by decide) (by decide)))
  inside := by decide

/-- It is accepted, with an address that is the first record's TTL, and it is not
well formed; the cursor goes from 12 to 7. -/
theorem wrapping_answer_accepted :
    wrappingAnswer.length ≤ 576 ∧
      (parse aLookup wrappingAnswer).1 = true ∧ (parse aLookup wrappingAnswer).2.ip = ⟨10, 0, 0, 99⟩ ∧
      ¬ WellFormed aLookup.id wrappingAnswer ⟨10, 0, 0, 99⟩ ∧
      (cursors aLookup wrappingAnswer).2 = [12, 7] := by
  refine ⟨by decide, by decide, by decide, ?_, by decide⟩
  rintro ⟨_, o, none_, answer⟩
  rw [show qdcount wrappingAnswer = 0 from rfl, questionsAt_zero] at none_
  rw [none_, show ancount wrappingAnswer = 1 + 1 from rfl, answerAt_succ] at answer
  obtain ⟨k, head, inside, _⟩ := answer
  rw [head.unique wrappingAnswer_head] at inside
  exact absurd inside (by decide)

end MegaNet.DnsParse
