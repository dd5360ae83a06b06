import WolfSshUefi.Library.Numeral
import WolfSshUefi.Terminal.Streams

/-!
# The fields of a control sequence

The parameters of a control sequence are fields of digits with `;` between
them, and a field can have sub-fields with `:` between them.  The parser keeps
sixteen fields apart: digits after a `:` are added to the number before it, and
so are those of the fields that find the array full.  What `HandleCsi` is given
is the first number of each of the first sixteen fields exactly when these
further digits change nothing (`fields_isolated_iff`).
-/

namespace WolfSshUefi

def DigitByte (byte : UInt8) : Prop := 0x30 ≤ byte ∧ byte ≤ 0x39

instance (byte : UInt8) : Decidable (DigitByte byte) := by
  unfold DigitByte; infer_instance

def digitValue (byte : UInt8) : Nat := byte.toNat - 0x30

/-- A digit, `:` or `;`. -/
def ParameterByte (byte : UInt8) : Prop := DigitByte byte ∨ byte = 0x3a ∨ byte = 0x3b

instance (byte : UInt8) : Decidable (ParameterByte byte) := by
  unfold ParameterByte; infer_instance

/-- The number that digits denote. -/
def number (digits : List UInt8) : Nat := Numeral.append 10 0 (digits.map digitValue)

/-- A stored parameter once more digits are read. -/
def extended (value : Int) (digits : List UInt8) : Int :=
  if digits = [] then value
  else Numeral.readOn 10 1000000 value.toNat (digits.map digitValue)

/-- The parameter that digits are stored as, -1 if there are none. -/
def parameterOf (digits : List UInt8) : Int := extended (-1) digits

/-- The first run of digits of a field. -/
def firstRun (field : List UInt8) : List UInt8 := field.takeWhile (DigitByte ·)

/-- The first `n` fields apart, and all the others together. -/
def piecesOf (n : Nat) (fields : List (List UInt8)) : List (List UInt8) :=
  fields.take n ++ if n < fields.length then [(fields.drop n).flatten] else []

/-- The digits behind the first run of a field, and those of `more`. -/
def strayDigits (field more : List UInt8) : List UInt8 :=
  (field.dropWhile (DigitByte ·) ++ more).filter (DigitByte ·)

/-- The stray digits do not change the parameter: there are none, or they follow
a number that has reached the cut-off, or they are zeros after zeros. -/
def Harmless (field more : List UInt8) : Prop :=
  strayDigits field more = [] ∨
    firstRun field ≠ [] ∧ (1000000 ≤ number (firstRun field) ∨
      number (firstRun field) = 0 ∧ ∀ b ∈ strayDigits field more, b = 0x30)

instance (field more : List UInt8) : Decidable (Harmless field more) := by
  have := List.decidableBAll (· = 0x30) (strayDigits field more)
  unfold Harmless; infer_instance

/-- Stray digits are harmless in the first fifteen fields, and in the sixteenth
together with the fields behind it. -/
def Isolated (fields : List (List UInt8)) : Prop :=
  (∀ field ∈ fields.take 15, Harmless field []) ∧
    Harmless (fields.getD 15 []) (fields.drop 16).flatten

instance (fields : List (List UInt8)) : Decidable (Isolated fields) := by
  unfold Isolated; infer_instance

/-- The parameter part of a sequence, with the mark of a private one. -/
def parameterPart (question : Bool) (body : List UInt8) : List UInt8 :=
  if question then 0x3f :: body else body

namespace Terminal

/-- The final byte of the sequence finds `HandleCsi` with these parameters. -/
def Sees (t : Terminal) (body : List UInt8) (params : List Int) : Prop :=
  ∃ u, t.feed (0x1b :: 0x5b :: body) = .ok u ∧ u.parser.params = params ∧
    ∀ final, FinalByte final → t.feed (controlSequence body final) = (do
      let v ← u.handleCsi final
      .ok (v.setParserState .ground))

end Terminal

/-! ### Digits -/

/-- A digit is a byte between `0` and `9`. -/
theorem toNat_of_digit {byte : UInt8} (h : DigitByte byte) :
    0x30 ≤ byte.toNat ∧ byte.toNat ≤ 0x39 := h

/-- Only `0` has the value zero. -/
theorem digitValue_eq_zero_iff {byte : UInt8} (h : DigitByte byte) :
    digitValue byte = 0 ↔ byte = 0x30 := by
  obtain ⟨hlow, -⟩ := toNat_of_digit h
  rw [← UInt8.toNat_inj]
  show byte.toNat - 0x30 = 0 ↔ byte.toNat = 0x30
  omega

/-- Digits in two pieces. -/
theorem extended_append (value : Int) (first rest : List UInt8) :
    extended value (first ++ rest) = extended (extended value first) rest := by
  unfold extended
  by_cases hfirst : first = []
  · rw [hfirst, List.nil_append, if_pos rfl]
  by_cases hrest : rest = []
  · rw [hrest, List.append_nil, if_pos rfl]
  rw [if_neg (by simp [hfirst]), if_neg hfirst, if_neg hrest, List.map_append,
    Numeral.readOn_append, Int.toNat_natCast]

/-- **More digits change nothing** exactly when they are harmless. -/
theorem extended_eq_self_iff {run more : List UInt8} (hmore : ∀ b ∈ more, DigitByte b) :
    extended (parameterOf run) more = parameterOf run ↔
      more = [] ∨ run ≠ [] ∧ (1000000 ≤ number run ∨ number run = 0 ∧ ∀ b ∈ more, b = 0x30) := by
  by_cases hnone : more = []
  · simp [hnone, extended]
  have hzeros : (∀ digit ∈ more.map digitValue, digit = 0) ↔ ∀ b ∈ more, b = 0x30 := by
    rw [List.forall_mem_map]
    exact forall₂_congr fun b hb => digitValue_eq_zero_iff (hmore b hb)
  by_cases hrun : run = []
  · subst hrun
    simp only [hnone, parameterOf, extended, if_true, if_false, ne_eq, not_true, false_and,
      or_false, iff_false]
    omega
  · simp only [parameterOf, extended, if_neg hrun, if_neg hnone, Int.toNat_natCast,
      Int.natCast_inj]
    rw [Numeral.readOn_eq_self_iff (by omega), hzeros, Numeral.limit_le_readOn_iff (by omega),
      Numeral.readOn_eq_zero_iff (by omega) (by omega)]
    simp only [List.map_eq_nil_iff, hnone, hrun, false_or, ne_eq, not_false_eq_true, true_and]
    rfl

/-! ### Fields and pieces -/

/-- All that is left is one piece. -/
theorem piecesOf_zero (first : List UInt8) (rest : List (List UInt8)) :
    piecesOf 0 (first :: rest) = [(first :: rest).flatten] := rfl

/-- The first field is a piece of its own. -/
theorem piecesOf_succ (n : Nat) (first : List UInt8) (rest : List (List UInt8)) :
    piecesOf (n + 1) (first :: rest) = first :: piecesOf n rest := by
  simp [piecesOf]

/-- Fields have pieces. -/
theorem piecesOf_cons (n : Nat) (first : List UInt8) (rest : List (List UInt8)) :
    ∃ piece pieces, piecesOf n (first :: rest) = piece :: pieces := by
  cases n with
  | zero => exact ⟨_, _, piecesOf_zero first rest⟩
  | succ n => exact ⟨_, _, piecesOf_succ n first rest⟩

/-- Up to sixteen fields are all kept apart. -/
theorem piecesOf_of_length_le {n : Nat} {fields : List (List UInt8)}
    (hlength : fields.length ≤ n + 1) : piecesOf n fields = fields := by
  induction n generalizing fields with
  | zero =>
      match fields, hlength with
      | [], _ => rfl
      | [field], _ => simp [piecesOf]
  | succ n ih =>
      cases fields with
      | nil => rfl
      | cons first rest =>
          rw [piecesOf_succ, ih (Nat.le_of_succ_le_succ hlength)]

/-- A field holds bytes of the body, and no `;`. -/
theorem mem_field {body field : List UInt8} (hfield : field ∈ body.splitOn 0x3b) {b : UInt8}
    (hb : b ∈ field) : b ∈ body ∧ b ≠ 0x3b := by
  induction body generalizing field with
  | nil =>
      rw [List.splitOn_nil, List.mem_singleton] at hfield
      rw [hfield] at hb
      cases hb
  | cons byte rest ih =>
      have htail {field : List UInt8} (hfield : field ∈ rest.splitOn 0x3b) (hb : b ∈ field) :
          b ∈ byte :: rest ∧ b ≠ 0x3b := by
        obtain ⟨hmem, hne⟩ := ih hfield hb
        exact ⟨List.mem_cons_of_mem byte hmem, hne⟩
      rw [List.splitOn_cons_eq_if_modifyHead] at hfield
      by_cases hbyte : byte = 0x3b
      · rw [if_pos (by simpa using hbyte)] at hfield
        rcases List.mem_cons.mp hfield with rfl | hrest
        · cases hb
        · exact htail hrest hb
      · rw [if_neg (by simpa using hbyte)] at hfield
        obtain ⟨first, others, hsplit⟩ := List.exists_cons_of_ne_nil
          (List.splitOn_ne_nil 0x3b rest)
        rw [hsplit, List.modifyHead_cons] at hfield
        rcases List.mem_cons.mp hfield with rfl | hrest
        · rcases List.mem_cons.mp hb with rfl | hb
          · exact ⟨List.mem_cons_self, hbyte⟩
          · exact htail (hsplit ▸ List.mem_cons_self) hb
        · exact htail (hsplit ▸ List.mem_cons_of_mem first hrest) hb

/-! ### What the parser stores -/

namespace Parser

/-- Inside a control sequence, with the last parameter still open. -/
structure Collecting (p : Parser) (question : Bool) (done : List Int) (last : Int) : Prop where
  state : p.state = .csi
  privateCsi : p.privateCsi = question
  params : p.params = done ++ [last]

/-- The parameters after a change of the last one. -/
theorem params_of_update {p : Parser} {f : Nat → Int} {n : Nat} {value : Int}
    (hcount : p.parameterCount = n + 1) (hparameters : p.parameters = Function.update f n value) :
    p.params = (List.range n).map f ++ [value] := by
  have hbelow : (List.range n).map (Function.update f n value) = (List.range n).map f := by
    apply List.map_congr_left
    intro i hi
    have hlt := List.mem_range.mp hi
    exact Function.update_of_ne (show i ≠ n by omega) value f
  rw [Parser.params, hcount, hparameters, List.range_succ, List.map_append, hbelow]
  simp only [List.map_cons, List.map_nil, Function.update_self]

namespace Collecting

variable {p : Parser} {question : Bool} {done : List Int} {last : Int}

/-- While the parameters are collected there is one more than those that are done. -/
theorem count (h : p.Collecting question done last) : p.parameterCount = done.length + 1 := by
  rw [← p.params_length, h.params, List.length_append, List.length_singleton]

/-- The open parameter is the last one in the array. -/
theorem parts (h : p.Collecting question done last) :
    (List.range done.length).map p.parameters = done ∧ p.parameters done.length = last := by
  have hparams := h.params
  rw [Parser.params, h.count, List.range_succ, List.map_append] at hparams
  obtain ⟨hdone, hlast⟩ := List.append_inj' hparams rfl
  exact ⟨hdone, by simpa using hlast⟩

/-- A byte of the parameter part is no other byte of a sequence. -/
theorem next_eq (h : p.Collecting question done last) {byte : UInt8} (hbyte : ParameterByte byte) :
    (p.next byte).1 =
      if DigitByte byte then p.digit byte else if byte = 0x3b then p.separator else p := by
  have hrange : byte ≠ 0x1b ∧ byte ≠ 0x3f ∧ ¬ (byte ≥ 0x40 ∧ byte ≤ 0x7e) := by
    rcases hbyte with ⟨hlow, hhigh⟩ | rfl | rfl
    · refine ⟨?_, ?_, fun hfinal => absurd (UInt8.le_trans hfinal.1 hhigh) (by decide)⟩
      · intro heq
        obtain rfl := heq
        exact absurd hlow (by decide)
      · intro heq
        obtain rfl := heq
        exact absurd hhigh (by decide)
    · decide
    · decide
  unfold Parser.next
  rw [if_neg hrange.1, h.state]
  simp only [Parser.csi]
  rw [if_neg (fun hmark => hrange.2.1 hmark.1), if_neg hrange.2.2]
  by_cases hdigit : byte ≥ 0x30 ∧ byte ≤ 0x39
  · rw [if_pos hdigit, if_pos (show DigitByte byte from hdigit)]
  · rw [if_neg hdigit, if_neg (show ¬ DigitByte byte from hdigit)]
    split <;> rfl

/-- A digit goes to the last parameter. -/
theorem digit (h : p.Collecting question done last) {byte : UInt8} (hbyte : DigitByte byte) :
    (p.next byte).1.Collecting question done (extended last [byte]) := by
  obtain ⟨hdone, hlast⟩ := h.parts
  have hcount := h.count
  have hlow := (toNat_of_digit hbyte).1
  have hindex : p.parameterCount - 1 = done.length := by omega
  have hvalue : (if max 0 last < 1000000 then max 0 last * 10 + (byte.toNat - 0x30 : Int)
      else max 0 last) = extended last [byte] := by
    simp only [extended, List.cons_ne_nil, if_false, List.map_cons, List.map_nil,
      Numeral.readOn_cons, Numeral.readOn_nil, digitValue]
    split <;> split <;> omega
  rw [h.next_eq (.inl hbyte), if_pos hbyte]
  refine ⟨h.state, h.privateCsi, ?_⟩
  rw [params_of_update (p := p.digit byte) hcount (congrArg (Function.update p.parameters · _)
    hindex), hdone, hindex, hlast, hvalue]

/-- A `:` is skipped. -/
theorem colon (h : p.Collecting question done last) :
    (p.next 0x3a).1.Collecting question done last := by
  rw [h.next_eq (.inr (.inl rfl)), if_neg (by decide), if_neg (by decide)]
  exact h

/-- With room in the array, a `;` opens the next parameter. -/
theorem separator (h : p.Collecting question done last) (hroom : done.length < 15) :
    (p.next 0x3b).1.Collecting question (done ++ [last]) (-1) := by
  have hcount := h.count
  have hlt : p.parameterCount < terminalMaxParams := by
    unfold terminalMaxParams
    omega
  rw [h.next_eq (.inr (.inr rfl)), if_neg (by decide), if_pos rfl, Parser.separator, if_pos hlt]
  refine ⟨h.state, h.privateCsi, ?_⟩
  rw [← h.params]
  exact params_of_update rfl rfl

/-- Without room, it is skipped. -/
theorem full (h : p.Collecting question done last) (hfull : 15 ≤ done.length) :
    (p.next 0x3b).1.Collecting question done last := by
  have hcount := h.count
  have hge : ¬ p.parameterCount < terminalMaxParams := by
    unfold terminalMaxParams
    omega
  rw [h.next_eq (.inr (.inr rfl)), if_neg (by decide), if_pos rfl, Parser.separator, if_neg hge]
  exact h

/-- A field: its digits are added to the open parameter. -/
theorem field {p : Parser} {last : Int} (h : p.Collecting question done last) {field : List UInt8}
    (hfield : ∀ b ∈ field, DigitByte b ∨ b = 0x3a) :
    (p.after field).Collecting question done (extended last (field.filter (DigitByte ·))) := by
  induction field generalizing p last with
  | nil => exact h
  | cons byte rest ih =>
      have hrest : ∀ b ∈ rest, DigitByte b ∨ b = 0x3a :=
        fun b hb => hfield b (List.mem_cons_of_mem byte hb)
      rw [Parser.after_cons]
      by_cases hdigit : DigitByte byte
      · rw [List.filter_cons_of_pos (by simpa using hdigit), ← List.singleton_append,
          extended_append]
        exact ih (h.digit hdigit) hrest
      · obtain rfl := (hfield byte List.mem_cons_self).resolve_left hdigit
        rw [List.filter_cons_of_neg (by decide)]
        exact ih h.colon hrest

/-- **Fields**: the parameters of the pieces, the first of which goes on from the
open parameter. -/
theorem fields {p : Parser} {done : List Int} {last : Int} (h : p.Collecting question done last)
    {first : List UInt8} {rest : List (List UInt8)}
    (hfields : ∀ field ∈ first :: rest, ∀ b ∈ field, DigitByte b ∨ b = 0x3a)
    {piece : List UInt8} {pieces : List (List UInt8)}
    (hpieces : piecesOf (15 - done.length) (first :: rest) = piece :: pieces) :
    (p.after ([0x3b].intercalate (first :: rest))).state = .csi ∧
      (p.after ([0x3b].intercalate (first :: rest))).privateCsi = question ∧
      (p.after ([0x3b].intercalate (first :: rest))).params =
        done ++ extended last (piece.filter (DigitByte ·)) ::
          pieces.map fun piece => parameterOf (piece.filter (DigitByte ·)) := by
  induction rest generalizing p done last first piece pieces with
  | nil =>
      have hend := h.field (hfields first List.mem_cons_self)
      obtain ⟨rfl, rfl⟩ : first = piece ∧ [] = pieces := by
        cases hroom : 15 - done.length <;> simpa [hroom, piecesOf] using hpieces
      rw [List.intercalate_singleton]
      exact ⟨hend.state, hend.privateCsi, hend.params⟩
  | cons second rest ih =>
      have hopen := h.field (hfields first List.mem_cons_self)
      have hlater : ∀ field ∈ second :: rest, ∀ b ∈ field, DigitByte b ∨ b = 0x3a :=
        fun field hmem => hfields field (List.mem_cons_of_mem first hmem)
      rw [List.intercalate_cons_cons, List.append_assoc, Parser.after_append,
        List.singleton_append, Parser.after_cons]
      by_cases hroom : done.length < 15
      · -- the next field is a parameter of its own
        have hless : 15 - done.length = 15 - (done.length + 1) + 1 := by omega
        rw [hless, piecesOf_succ, List.cons.injEq] at hpieces
        obtain ⟨rfl, rfl⟩ := hpieces
        obtain ⟨next, others, hnext⟩ := piecesOf_cons (15 - (done.length + 1)) second rest
        have hlength : (done ++ [extended last (first.filter (DigitByte ·))]).length =
            done.length + 1 := by simp
        obtain ⟨hstate, hprivate, hparams⟩ :=
          ih (hopen.separator hroom) hlater (by rw [hlength]; exact hnext)
        refine ⟨hstate, hprivate, ?_⟩
        rw [hparams, hnext, List.append_assoc]
        rfl
      · -- the next field goes on with the same parameter
        have hnone : 15 - done.length = 0 := by omega
        rw [hnone, piecesOf_zero, List.cons.injEq] at hpieces
        obtain ⟨rfl, rfl⟩ := hpieces
        obtain ⟨hstate, hprivate, hparams⟩ :=
          ih (hopen.full (by omega)) hlater (by rw [hnone]; exact piecesOf_zero second rest)
        refine ⟨hstate, hprivate, ?_⟩
        rw [hparams, ← extended_append, ← List.filter_append]
        rfl

end Collecting

/-- The mark of a private sequence is only looked for in front of the fields. -/
theorem start_collecting (p : Parser) (question : Bool) (body : List UInt8) :
    ∃ q : Parser, q.Collecting question [] (-1) ∧
      p.collected (parameterPart question body) = q.after body := by
  cases question with
  | false => exact ⟨p.atCsi, ⟨rfl, rfl, rfl⟩, rfl⟩
  | true => exact ⟨(p.atCsi.next 0x3f).1, ⟨rfl, rfl, rfl⟩, rfl⟩

/-- **The parameters of a body** are those of its pieces. -/
theorem collected_fields (p : Parser) (question : Bool) {body : List UInt8}
    (hbody : ∀ b ∈ body, ParameterByte b) :
    (p.collected (parameterPart question body)).state = .csi ∧
      (p.collected (parameterPart question body)).privateCsi = question ∧
      (p.collected (parameterPart question body)).params =
        (piecesOf 15 (body.splitOn 0x3b)).map
          fun piece => parameterOf (piece.filter (DigitByte ·)) := by
  obtain ⟨q, hstart, hcollected⟩ := p.start_collecting question body
  obtain ⟨first, rest, hsplit⟩ := List.exists_cons_of_ne_nil (List.splitOn_ne_nil 0x3b body)
  obtain ⟨piece, pieces, hpieces⟩ := piecesOf_cons 15 first rest
  have hfields : ∀ field ∈ first :: rest, ∀ b ∈ field, DigitByte b ∨ b = 0x3a := by
    intro field hfield b hb
    obtain ⟨hmem, hne⟩ := mem_field (hsplit ▸ hfield) hb
    rcases hbody b hmem with hdigit | hcolon | hsemicolon
    · exact .inl hdigit
    · exact .inr hcolon
    · exact absurd hsemicolon hne
  have hread := hstart.fields hfields hpieces
  rw [← hsplit, List.intercalate_splitOn] at hread
  rw [hcollected, hsplit, hpieces]
  exact hread

end Parser

/-! ### What `HandleCsi` is given -/

/-- Digits and separators belong to the body of a sequence. -/
theorem bodyByte_of_parameter {byte : UInt8} (h : ParameterByte byte) : BodyByte byte := by
  rcases h with ⟨hlow, hhigh⟩ | rfl | rfl
  · exact ⟨UInt8.le_trans (by decide) hlow, UInt8.le_trans hhigh (by decide)⟩
  · decide
  · decide

/-- So does a question mark before them. -/
theorem bodyByte_parameterPart (question : Bool) {body : List UInt8}
    (hbody : ∀ b ∈ body, ParameterByte b) : ∀ b ∈ parameterPart question body, BodyByte b := by
  have hplain : ∀ b ∈ body, BodyByte b := fun b hb => bodyByte_of_parameter (hbody b hb)
  cases question with
  | false => exact hplain
  | true =>
      intro b hb
      rcases List.mem_cons.mp hb with rfl | hmem
      · decide
      · exact hplain b hmem

/-! ### Fields of digits -/

/-- Fields of digits with separators between them are a body. -/
theorem parameterByte_of_digits {fields : List (List UInt8)}
    (hdigits : ∀ field ∈ fields, ∀ b ∈ field, DigitByte b) :
    ∀ b ∈ [0x3b].intercalate fields, ParameterByte b := by
  induction fields with
  | nil =>
      intro b hb
      cases hb
  | cons first rest ih =>
      have hfirst : ∀ b ∈ first, ParameterByte b :=
        fun b hb => .inl (hdigits first List.mem_cons_self b hb)
      have hrest := ih fun field hfield => hdigits field (List.mem_cons_of_mem first hfield)
      cases rest with
      | nil => simpa using hfirst
      | cons second rest =>
          rw [List.intercalate_cons_cons, List.append_assoc]
          intro b hb
          rcases List.mem_append.mp hb with hb | hb
          · exact hfirst b hb
          rcases List.mem_cons.mp hb with rfl | hb
          · exact .inr (.inr rfl)
          · exact hrest b hb

/-- Up to sixteen fields of digits are stored one by one. -/
theorem Parser.collected_digits (p : Parser) (question : Bool) {fields : List (List UInt8)}
    (hsome : fields ≠ []) (hcount : fields.length ≤ 16)
    (hdigits : ∀ field ∈ fields, ∀ b ∈ field, DigitByte b) :
    (p.collected (parameterPart question ([0x3b].intercalate fields))).privateCsi = question ∧
      (p.collected (parameterPart question ([0x3b].intercalate fields))).params =
        fields.map parameterOf := by
  have hsemicolon : ∀ field ∈ fields, 0x3b ∉ field := by
    intro field hfield hmem
    exact absurd (hdigits field hfield _ hmem) (by decide)
  obtain ⟨-, hquestion, hparams⟩ :=
    p.collected_fields question (parameterByte_of_digits hdigits)
  refine ⟨hquestion, ?_⟩
  rw [hparams, List.splitOn_intercalate 0x3b hsemicolon hsome, piecesOf_of_length_le hcount]
  apply List.map_congr_left
  intro field hfield
  have hall : field.filter (DigitByte ·) = field := by
    rw [List.filter_eq_self]
    intro b hb
    simpa using hdigits field hfield b hb
  rw [hall]

namespace Terminal

open Loops

/-- The final byte of a sequence is handed to `HandleCsi`. -/
theorem feedByte_final {t : Terminal} (hcsi : t.parser.state = .csi) {final : UInt8}
    (hfinal : FinalByte final) :
    t.feedByte final = (do
      let v ← t.handleCsi final
      .ok (v.setParserState .ground)) := by
  have hne (byte : UInt8) (hbyte : byte.toNat < 0x40) : final ≠ byte := hfinal.ne hbyte
  have hdigit : ¬ (final ≥ 0x30 ∧ final ≤ 0x39) := hfinal.not_digit
  have hbounds : final ≥ 0x40 ∧ final ≤ 0x7e := hfinal
  have hread : readParameter t.parser 0 = .ok (t.parser.parameters 0) := if_pos (by decide)
  unfold feedByte
  rw [if_neg (hne 0x1b (by decide)), hcsi]
  simp only [csiByte]
  rw [hread, ok_bind, if_neg (fun h => hne 0x3f (by decide) h.1), if_neg hdigit,
    if_neg (hne 0x3b (by decide)), if_pos hbounds]

/-- What the final byte sees is what the parser has collected. -/
theorem sees_iff {t : Terminal} (h : t.WellFormed) (hlisten : t.parser.Listening)
    {body : List UInt8} (hbody : ∀ b ∈ body, BodyByte b) (params : List Int) :
    t.Sees body params ↔ (t.parser.collected body).params = params := by
  have hfeed := h.feed_eq (0x1b :: 0x5b :: body)
  have hparser : (Screen.feed t (0x1b :: 0x5b :: body)).parser = t.parser.collected body := by
    rw [Screen.parser_feed, Parser.after_cons, Parser.after_cons,
      (Parser.next_introducer hlisten).2]
    rfl
  constructor
  · intro hsees
    obtain ⟨u, hu, hparams, -⟩ := hsees
    rw [hfeed] at hu
    obtain rfl := Except.ok.inj hu
    rw [← hparser, hparams]
  · intro hparams
    refine ⟨_, hfeed, by rw [hparser, hparams], fun final hfinal => ?_⟩
    have hstate : (Screen.feed t (0x1b :: 0x5b :: body)).parser.state = .csi := by
      rw [hparser]
      exact t.parser.collected_state hbody
    rw [← feedByte_final hstate hfinal]
    have hsplit : controlSequence body final = (0x1b :: 0x5b :: body) ++ [final] := rfl
    rw [hsplit, Terminal.feed, List.foldlM_append, ← Terminal.feed, hfeed, ok_bind,
      List.foldlM_cons]
    exact bind_pure _

end Terminal

/-- The first number of a field is all of it when stray digits are harmless. -/
theorem parameterOf_eq_firstRun_iff (field more : List UInt8) :
    parameterOf ((field ++ more).filter (DigitByte ·)) = parameterOf (firstRun field) ↔
      Harmless field more := by
  have hstray : ∀ b ∈ strayDigits field more, DigitByte b := by
    intro b hb
    simpa using (List.mem_filter.mp hb).2
  have hrun : (firstRun field).filter (DigitByte ·) = firstRun field := by
    rw [List.filter_eq_self]
    intro b hb
    exact List.all_eq_true.mp List.all_takeWhile b hb
  have hsplit : (field ++ more).filter (DigitByte ·) =
      firstRun field ++ strayDigits field more := by
    rw [strayDigits, ← hrun, ← List.filter_append, ← List.append_assoc]
    unfold firstRun
    rw [List.takeWhile_append_dropWhile]
  rw [hsplit, parameterOf, extended_append]
  exact extended_eq_self_iff hstray

/-- The parameters are the first numbers of the fields when these are isolated. -/
theorem pieces_eq_firstRuns_iff (fields : List (List UInt8)) :
    (piecesOf 15 fields).map (fun piece => parameterOf (piece.filter (DigitByte ·))) =
      (fields.take 16).map (fun field => parameterOf (firstRun field)) ↔ Isolated fields := by
  have hapart (field : List UInt8) : parameterOf (field.filter (DigitByte ·)) =
      parameterOf (firstRun field) ↔ Harmless field [] := by
    rw [← parameterOf_eq_firstRun_iff, List.append_nil]
  have htake : fields.take 16 = fields.take 15 ++ (fields.drop 15).take 1 :=
    List.take_add (i := 15) (j := 1)
  have hparts {first first' last last' : List Int} (hlength : first.length = first'.length) :
      first ++ last = first' ++ last' ↔ first = first' ∧ last = last' :=
    ⟨fun hsame => List.append_inj hsame hlength, fun ⟨hfirst, hlast⟩ => by rw [hfirst, hlast]⟩
  rw [htake, piecesOf, List.map_append, List.map_append, hparts (by simp), List.map_inj_left]
  unfold Isolated
  refine and_congr (forall₂_congr fun field _ => hapart field) ?_
  cases hlast : fields.drop 15 with
  | nil =>
      have hlength : fields.length ≤ 15 := List.drop_eq_nil_iff.mp hlast
      have hmissing : fields.getD 15 [] = [] := by
        rw [List.getD_eq_getElem?_getD, List.getElem?_eq_none hlength, Option.getD_none]
      rw [if_neg (by omega), hmissing, List.drop_eq_nil_of_le (by omega)]
      exact iff_of_true rfl (.inl rfl)
  | cons field rest =>
      have hlength : 15 < fields.length := by
        by_contra hshort
        rw [List.drop_eq_nil_of_le (Nat.le_of_not_lt hshort)] at hlast
        cases hlast
      have hfield : fields.getD 15 [] = field := by
        rw [List.getD_eq_getElem?_getD, ← List.head?_drop, hlast]
        rfl
      have hrest : fields.drop 16 = rest := by
        rw [← List.drop_drop (i := 1) (j := 15), hlast]
        rfl
      rw [if_pos hlength, hfield, hrest, ← parameterOf_eq_firstRun_iff]
      simp

namespace Terminal

/-- **The fields of a sequence are kept apart exactly when** the digits behind the
first run of each of the first sixteen change nothing, and those of later fields
neither. -/
theorem fields_isolated_iff {t : Terminal} (h : Reachable t) (hlisten : t.parser.Listening)
    (question : Bool) {body : List UInt8} (hbody : ∀ b ∈ body, ParameterByte b) :
    t.Sees (parameterPart question body)
        (((body.splitOn 0x3b).take 16).map fun field => parameterOf (firstRun field)) ↔
      Isolated (body.splitOn 0x3b) := by
  rw [sees_iff h.wellFormed hlisten (bodyByte_parameterPart question hbody),
    (t.parser.collected_fields question hbody).2.2]
  exact pieces_eq_firstRuns_iff _

/-- `CSI 1;2 m` -/
theorem fields_isolated_pair :
    (Firmware.ample 2 1 7).fresh.Sees [0x31, 0x3b, 0x32] [1, 2] :=
  (@fields_isolated_iff _ (created_ample 2 1 7).reachable (by decide) false [0x31, 0x3b, 0x32]
    (by simp [ParameterByte, DigitByte])).mpr ⟨by decide, by decide⟩

/-- `CSI 4:3 m` is read as `CSI 43 m`. -/
theorem sub_field_joined :
    ¬ (Firmware.ample 2 1 7).fresh.Sees [0x34, 0x3a, 0x33]
      ((([0x34, 0x3a, 0x33].splitOn 0x3b).take 16).map fun field =>
        parameterOf (firstRun field)) := by
  rw [sees_iff (created_ample 2 1 7).wellFormed (by decide) (by simp [BodyByte])]
  decide

end Terminal

end WolfSshUefi
