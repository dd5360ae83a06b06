import Mathlib.Data.List.Forall2
import WolfSshUefi.Terminal.Saturation

/-!
# Omitted parameters

An omitted parameter is read as 0 by every control sequence but `CSI r`: there
the bottom margin has the number of rows for its default, and an explicit 0 is
no valid margin.  So a 0 in the place of an empty field changes nothing unless
it is the second of `CSI r`, the margins it would have selected are valid, and
they are not in force already with the cursor at home (`omitted_is_zero_iff`).
-/

namespace WolfSshUefi

/-- An empty field can be an explicit 0. -/
def Explicit (field field' : List UInt8) : Prop :=
  field' = field ∨ field = [] ∧ field' = [0x30]

instance (field field' : List UInt8) : Decidable (Explicit field field') := by
  unfold Explicit; infer_instance

/-- The same cells, cursor, saved cursor, attributes, margins, modes and replies. -/
structure SameOutcome (t u : Terminal) : Prop where
  primary : t.primary = u.primary
  alternate : t.alternate = u.alternate
  cells : t.cells = u.cells
  row : t.row = u.row
  column : t.column = u.column
  wrapPending : t.wrapPending = u.wrapPending
  savedRow : t.savedRow = u.savedRow
  savedColumn : t.savedColumn = u.savedColumn
  foreground : t.foreground = u.foreground
  background : t.background = u.background
  bold : t.bold = u.bold
  reverse : t.reverse = u.reverse
  scrollTop : t.scrollTop = u.scrollTop
  scrollBottom : t.scrollBottom = u.scrollBottom
  cursorVisible : t.cursorVisible = u.cursorVisible
  applicationCursor : t.applicationCursor = u.applicationCursor
  insertMode : t.insertMode = u.insertMode
  alternateActive : t.alternateActive = u.alternateActive
  replies : t.replies = u.replies
  replyLength : t.replyLength = u.replyLength

namespace Terminal

/-- The sequence does the same with both lists of fields. -/
def SameWith (t : Terminal) (question : Bool) (fields fields' : List (List UInt8))
    (final : UInt8) : Prop :=
  ∃ u v, t.feed (numberedSequence question fields final) = .ok u ∧
    t.feed (numberedSequence question fields' final) = .ok v ∧ SameOutcome u v

/-- A 0 takes the place of the bottom margin, the margins from the first parameter to
the last row are valid, and they are not in force with the cursor at home. -/
def LosesBottom (t : Terminal) (fields fields' : List (List UInt8)) (final : UInt8) : Prop :=
  final = 0x72 ∧ fields[1]? = some [] ∧ fields'[1]? = some [0x30] ∧
    max 1 (number (fields.headD [])) < t.rows ∧
      ¬ (t.scrollTop + 1 = max 1 (number (fields.headD [])) ∧ t.scrollBottom + 1 = t.rows ∧
        t.row = 0 ∧ t.column = 0)

instance (t : Terminal) (fields fields' : List (List UInt8)) (final : UInt8) :
    Decidable (t.LosesBottom fields fields' final) := by
  unfold LosesBottom; infer_instance

end Terminal

/-! ### What a command reads of its parameters -/

/-- A missing value is zero. -/
theorem valueAt_eq (params : List Int) (i : Nat) :
    valueAt params i = (params.map Int.toNat).getD i 0 := by
  unfold valueAt
  rw [List.getD_eq_getElem?_getD, List.getD_eq_getElem?_getD, List.getElem?_map]
  cases params[i]? <;> rfl

/-- Apart from the bottom margin, a command reads an omitted parameter as 0. -/
theorem csiAction_congr {final : CsiFinal} {question : Bool} {params params' : List Int}
    (hvalues : params.map Int.toNat = params'.map Int.toNat)
    (hgiven : final = .margins → givenAt params 1 = givenAt params' 1) :
    csiAction final question params = csiAction final question params' := by
  have hvalue (i : Nat) : valueAt params i = valueAt params' i := by
    rw [valueAt_eq, valueAt_eq, hvalues]
  have hcountAt (i : Nat) : countAt params i = countAt params' i := by
    unfold countAt
    rw [hvalue]
  cases final
  case margins => simp only [csiAction, hcountAt, hgiven rfl]
  all_goals simp only [csiAction, hcountAt, hvalue, hvalues]

/-- Only `r` sets the margins. -/
theorem csiFinal_margins_iff (final : UInt8) : csiFinal final = .margins ↔ final = 0x72 := by
  constructor
  · intro h
    unfold csiFinal at h
    split at h <;> first | rfl | cases h
  · intro heq
    obtain rfl := heq
    rfl

/-! ### Lists that differ in empty fields -/

section

variable {fields fields' : List (List UInt8)}

/-- Written out, the fields are still digits. -/
theorem digits_explicit (hexplicit : List.Forall₂ Explicit fields fields')
    (hdigits : ∀ field ∈ fields, ∀ b ∈ field, DigitByte b) :
    ∀ field ∈ fields', ∀ b ∈ field, DigitByte b := by
  induction hexplicit with
  | nil => exact hdigits
  | cons hfirst hrest ih =>
      have hlater := ih fun field hfield => hdigits field (List.mem_cons_of_mem _ hfield)
      intro field hfield b hb
      rcases List.mem_cons.mp hfield with rfl | hmem
      · rcases hfirst with rfl | ⟨-, rfl⟩
        · exact hdigits field List.mem_cons_self b hb
        · rw [List.mem_singleton] at hb
          subst hb
          decide
      · exact hlater field hmem b hb

theorem toNat_explicit (hexplicit : List.Forall₂ Explicit fields fields') :
    (fields.map exactParameter).map Int.toNat = (fields'.map exactParameter).map Int.toNat := by
  induction hexplicit with
  | nil => rfl
  | cons hfirst hrest ih =>
      rw [List.map_cons, List.map_cons, List.map_cons, List.map_cons, ih]
      rcases hfirst with rfl | ⟨rfl, rfl⟩ <;> rfl

/-- The second parameter is given in both lists, or the 0 is the difference. -/
theorem given_explicit (hexplicit : List.Forall₂ Explicit fields fields') :
    givenAt (fields.map exactParameter) 1 = givenAt (fields'.map exactParameter) 1 ∨
      fields[1]? = some [] ∧ fields'[1]? = some [0x30] := by
  cases hexplicit with
  | nil => exact .inl rfl
  | cons hfirst hrest =>
      cases hrest with
      | nil => exact .inl rfl
      | cons hsecond _ =>
          rcases hsecond with rfl | ⟨rfl, rfl⟩
          · exact .inl rfl
          · exact .inr ⟨rfl, rfl⟩

end

/-- An empty field is not given. -/
theorem givenAt_of_empty {fields : List (List UInt8)} (h : fields[1]? = some []) :
    givenAt (fields.map exactParameter) 1 = none := by
  have hparameter : (fields.map exactParameter).getD 1 (-1) = -1 := by
    rw [List.getD_eq_getElem?_getD, List.getElem?_map, h]
    rfl
  rw [givenAt, hparameter, if_neg (by omega)]

/-- A zero is. -/
theorem givenAt_of_zero {fields : List (List UInt8)} (h : fields[1]? = some [0x30]) :
    givenAt (fields.map exactParameter) 1 = some 0 := by
  have hparameter : (fields.map exactParameter).getD 1 (-1) = 0 := by
    rw [List.getD_eq_getElem?_getD, List.getElem?_map, h]
    rfl
  rw [givenAt, valueAt, hparameter, if_pos (Int.le_refl 0)]
  rfl

/-- The first number of a list of fields. -/
theorem countAt_fields (fields : List (List UInt8)) :
    countAt (fields.map exactParameter) 0 = max 1 (number (fields.headD [])) := by
  cases fields with
  | nil => rfl
  | cons first rest =>
      show max 1 (exactParameter first).toNat = max 1 (number first)
      unfold exactParameter
      split
      · next hnone => rw [hnone]; rfl
      · rfl

/-- The outcome does not depend on the parser. -/
theorem SameOutcome.withParser (t : Terminal) (p q : Parser) :
    SameOutcome (t.withParser p) (t.withParser q) := by
  constructor <;> rfl

namespace Terminal

open Screen

/-- Selecting the last row for bottom margin, beside selecting nothing. -/
theorem sameOutcome_setMargins_iff {t : Terminal} (h : t.WellFormed) {count : Nat}
    (hcount : 0 < count) (p q : Parser) :
    SameOutcome ((setMargins t (count - 1) none).withParser p)
        ((setMargins t (count - 1) (some 0)).withParser q) ↔
      ¬ (count < t.rows ∧ ¬ (t.scrollTop + 1 = count ∧ t.scrollBottom + 1 = t.rows ∧
        t.row = 0 ∧ t.column = 0)) := by
  have hrows := h.rows_pos
  have hzero : setMargins t (count - 1) (some 0) = t := if_neg (by simp)
  rw [hzero]
  by_cases hvalid : count < t.rows
  · have hset : setMargins t (count - 1) none =
        { t with scrollTop := count - 1, scrollBottom := t.rows - 1, row := 0, column := 0 } :=
      if_pos ⟨by simpa using (by omega : count - 1 + 1 < t.rows), Nat.le_refl t.rows⟩
    rw [hset]
    constructor
    · intro hsame hvalid
      obtain ⟨-, hother⟩ := hvalid
      have htop : count - 1 = t.scrollTop := hsame.scrollTop
      have hbottom : t.rows - 1 = t.scrollBottom := hsame.scrollBottom
      exact hother ⟨by omega, by omega, hsame.row.symm, hsame.column.symm⟩
    · intro hsame
      obtain ⟨htop, hbottom, hrow, hcolumn⟩ : t.scrollTop + 1 = count ∧
          t.scrollBottom + 1 = t.rows ∧ t.row = 0 ∧ t.column = 0 := by
        by_contra hother
        exact hsame ⟨hvalid, hother⟩
      exact { SameOutcome.withParser t p q with
        scrollTop := show count - 1 = t.scrollTop by omega
        scrollBottom := show t.rows - 1 = t.scrollBottom by omega
        row := hrow.symm, column := hcolumn.symm }
  · have hnone : setMargins t (count - 1) none = t :=
      if_neg (by simp only [Option.getD_none]; omega)
    rw [hnone]
    exact iff_of_true (.withParser t p q) fun hlost => hvalid hlost.1

/-- **An omitted parameter means zero exactly when** the zero is not the bottom margin
of margins that the omitted one would have set. -/
theorem omitted_is_zero_iff {t : Terminal} (h : Reachable t) (hlisten : t.parser.Listening)
    (question : Bool) {fields fields' : List (List UInt8)} (hcount : fields.length ≤ 16)
    (hdigits : ∀ field ∈ fields, ∀ b ∈ field, DigitByte b)
    (hexplicit : List.Forall₂ Explicit fields fields') {final : UInt8}
    (hfinal : FinalByte final) :
    t.SameWith question fields fields' final ↔ ¬ t.LosesBottom fields fields' final := by
  have hwell := h.wellFormed
  by_cases hsome : fields = []
  · subst hsome
    cases hexplicit
    have hfeed := hwell.feed_eq (numberedSequence question [] final)
    exact iff_of_true ⟨_, _, hfeed, hfeed, .withParser _ _ _⟩ fun hlost => by cases hlost.2.1
  have hlength := hexplicit.length_eq
  have hsome' : fields' ≠ [] := by
    intro heq
    obtain rfl := heq
    exact hsome (List.length_eq_zero_iff.mp hlength)
  obtain ⟨p, -, hfeed⟩ := feed_numberedSequence hwell hlisten question hsome hcount hdigits hfinal
  obtain ⟨q, -, hfeed'⟩ := feed_numberedSequence hwell hlisten question hsome' (hlength ▸ hcount)
    (digits_explicit hexplicit hdigits) hfinal
  have houtcome : t.SameWith question fields fields' final ↔
      SameOutcome
        ((execAll t (csiCommands (csiFinal final) question
          (fields.map exactParameter))).withParser p)
        ((execAll t (csiCommands (csiFinal final) question
          (fields'.map exactParameter))).withParser q) := by
    constructor
    · intro halike
      obtain ⟨u, v, hu, hv, hsame⟩ := halike
      rw [hfeed] at hu
      rw [hfeed'] at hv
      rwa [← Except.ok.inj hu, ← Except.ok.inj hv] at hsame
    · exact fun hsame => ⟨_, _, hfeed, hfeed', hsame⟩
  rw [houtcome]
  have hvalues := toNat_explicit hexplicit
  by_cases hlast : csiFinal final = .margins ∧ fields[1]? = some [] ∧ fields'[1]? = some [0x30]
  · obtain ⟨hmargins, hempty, hzero⟩ := hlast
    have hfirst : countAt (fields'.map exactParameter) 0 =
        countAt (fields.map exactParameter) 0 := by
      rw [countAt, countAt, valueAt_eq, valueAt_eq, hvalues]
    simp only [hmargins, csiCommands, csiAction, givenAt_of_empty hempty, givenAt_of_zero hzero,
      hfirst, execAll_cons, execAll_nil, exec]
    rw [sameOutcome_setMargins_iff hwell.cancelWrap (countAt_pos _ 0), countAt_fields]
    unfold LosesBottom
    rw [csiFinal_margins_iff] at hmargins
    simp only [hmargins, hempty, hzero, true_and]
    rfl
  · -- everything the sequence reads is the same
    have hgiven : csiFinal final = .margins →
        givenAt (fields.map exactParameter) 1 = givenAt (fields'.map exactParameter) 1 := by
      intro hmargins
      rcases given_explicit hexplicit with hgiven | ⟨hempty, hzero⟩
      · exact hgiven
      · exact absurd ⟨hmargins, hempty, hzero⟩ hlast
    rw [csiCommands, csiCommands, csiAction_congr hvalues hgiven]
    refine iff_of_true (.withParser _ p q) ?_
    intro hloses
    obtain ⟨hr, hempty, hzero, -⟩ := hloses
    exact hlast ⟨(csiFinal_margins_iff final).mpr hr, hempty, hzero⟩

/-- `CSI ; 3 H` -/
theorem omitted_is_zero_home :
    (Firmware.ample 2 3 7).fresh.SameWith false [[], [0x33]] [[0x30], [0x33]] 0x48 :=
  (omitted_is_zero_iff (created_ample 2 3 7).reachable (by decide) false (by decide)
    (by simp [DigitByte]) (by simp [Explicit]) (by decide)).mpr (by decide)

/-- `CSI 2;r` selects the last row for bottom margin, `CSI 2;0r` no margins. -/
theorem zero_bottom_ignored :
    List.Forall₂ Explicit [[0x32], []] [[0x32], [0x30]] ∧
      ¬ (Firmware.ample 2 3 7).fresh.SameWith false [[0x32], []] [[0x32], [0x30]] 0x72 := by
  refine ⟨by simp [Explicit], ?_⟩
  intro halike
  obtain ⟨u, v, hu, hv, hsame⟩ := halike
  have hwell := (created_ample 2 3 7).wellFormed
  rw [hwell.feed_eq] at hu hv
  obtain rfl := Except.ok.inj hu
  obtain rfl := Except.ok.inj hv
  exact absurd hsame.scrollTop (by decide)

end Terminal

end WolfSshUefi
