import WolfSshUefi.Terminal.Drawing

/-!
# Control sequences carried out

`HandleCsi` carries out the instructions that `csiCommands` reads off the
parameters.  An instruction neither reads nor changes the parser, which lets
the loops over the parameters look at them again in every round.
-/

namespace WolfSshUefi

/-! ### Instructions and the parser -/

/-- Another parser in front of the same screen. -/
def Terminal.withParser (t : Terminal) (p : Parser) : Terminal := { t with parser := p }

/-- The parser of a choice. -/
theorem Terminal.withParser_ite (P : Prop) [Decidable P] (t u : Terminal) (p : Parser) :
    (if P then t else u).withParser p = if P then t.withParser p else u.withParser p :=
  apply_ite (fun v : Terminal => v.withParser p) P t u

namespace Screen

open Terminal

/-- An index does not look at the parser. -/
theorem index_withParser (t : Terminal) (p : Parser) :
    index (t.withParser p) = (index t).withParser p := by
  simp only [index, withParser_ite]
  rfl

theorem wrap_withParser (t : Terminal) (p : Parser) :
    wrap (t.withParser p) = (wrap t).withParser p := by
  simp only [wrap, withParser_ite, ← index_withParser]
  rfl

/-- Nor does writing a character. -/
theorem write_withParser (t : Terminal) (p : Parser) (character : Nat) :
    write (t.withParser p) character = (write t character).withParser p := by
  simp only [write, withParser_ite]
  rfl

/-- An instruction has the same effect whatever the parser. -/
theorem exec_withParser (t : Terminal) (p : Parser) (c : Command) :
    exec (t.withParser p) c = (exec t c).withParser p := by
  cases c with
  | print character =>
      simp only [exec, print, wrap_withParser, write_withParser]
      rfl
  | index => exact index_withParser t p
  | reverseIndex =>
      simp only [exec, reverseIndex, withParser_ite]
      rfl
  | eraseDisplay mode =>
      simp only [exec, eraseDisplay, withParser_ite]
      rfl
  | eraseLine mode =>
      simp only [exec, eraseLine, withParser_ite]
      rfl
  | rendition change => cases change <;> rfl
  | margins top bottom =>
      simp only [exec, setMargins, withParser_ite]
      rfl
  | insertLines count | deleteLines count =>
      simp only [exec, withParser_ite]
      rfl
  | alternateScreen on =>
      simp only [exec, alternateScreen, withParser_ite]
      rfl
  | _ => rfl

/-- No instruction looks at the parser. -/
theorem execAll_withParser (t : Terminal) (p : Parser) (commands : List Command) :
    execAll (t.withParser p) commands = (execAll t commands).withParser p := by
  induction commands generalizing t with
  | nil => rfl
  | cons c rest ih => rw [execAll_cons, exec_withParser, ih, execAll_cons]

@[simp] theorem parser_execAll (t : Terminal) (commands : List Command) :
    (execAll t commands).parser = t.parser := by
  have hsame := congrArg Terminal.parser (execAll_withParser t t.parser commands)
  exact hsame

/-- One instruction leaves it, too. -/
@[simp] theorem parser_exec (t : Terminal) (c : Command) : (exec t c).parser = t.parser :=
  parser_execAll t [c]

end Screen

/-! ### Parameters -/

/-- The parameters read so far, by their index. -/
theorem Parser.params_getD (p : Parser) (i : Nat) :
    p.params.getD i (-1) = if i < p.parameterCount then p.parameters i else -1 := by
  by_cases hi : i < p.parameterCount
  · simp [Parser.params, List.getD_eq_getElem?_getD, hi]
  · simp [Parser.params, List.getD_eq_getElem?_getD, hi]

/-- Their number. -/
theorem Parser.params_length (p : Parser) : p.params.length = p.parameterCount := by
  simp [Parser.params]

namespace Terminal

open Loops

/-- `Parameter` takes the default for an omitted or missing parameter. -/
theorem parameter_eq {t : Terminal} (h : t.parser.WellFormed) (i : Nat) (d : Int) :
    t.parameter i d =
      .ok (if t.parser.params.getD i (-1) < 0 then d else t.parser.params.getD i (-1)) := by
  have hcount := h.count_le
  rw [Parser.params_getD]
  unfold parameter
  by_cases hi : i < t.parser.parameterCount
  · rw [if_neg (by omega), if_pos hi, readParameter, if_pos (by omega)]
    rfl
  · rw [if_pos (by omega), if_neg hi]
    rfl

/-- `Parameter` with the default 0 gives the value. -/
theorem parameter_zero_eq {t : Terminal} (h : t.parser.WellFormed) (i : Nat) :
    t.parameter i 0 = .ok (valueAt t.parser.params i : Int) := by
  rw [parameter_eq h]
  unfold valueAt
  split <;> (congr 1; omega)

/-- `NonZeroParameter` gives the count. -/
theorem nonZeroParameter_eq {t : Terminal} (h : t.parser.WellFormed) (i : Nat) :
    t.nonZeroParameter i = .ok (countAt t.parser.params i) := by
  unfold nonZeroParameter countAt valueAt
  rw [parameter_eq h, ok_bind]
  split <;> (congr 1; split <;> omega)

/-- A count is at least 1. -/
theorem countAt_pos (params : List Int) (i : Nat) : 0 < countAt params i := by
  unfold countAt
  omega

namespace WellFormed

variable {t : Terminal}

/-- `QueueReply` does not fail. -/
theorem queueReply_eq (h : t.WellFormed) (bytes : List UInt8) :
    t.queueReply bytes = .ok (Screen.queueReply t bytes) := by
  have hle := h.reply_le
  unfold Terminal.queueReply Screen.queueReply
  rw [usub_eq hle, ok_bind]
  generalize hn : min bytes.length (terminalReplySize - t.replyLength) = n
  simp only
  by_cases hzero : n = 0
  · have hnone (i : Nat) : ¬ (t.replyLength ≤ i ∧ i < t.replyLength) := by omega
    simp only [hzero, if_true, hnone, if_false, Nat.add_zero]
  · rw [if_neg hzero, if_pos (by omega)]

/-- `EraseLine` does not fail. -/
theorem eraseLine_eq (h : t.WellFormed) (mode : Nat) :
    t.eraseLine mode = .ok (Screen.eraseLine t mode) := by
  have hcolumns := h.columns_pos
  have hcolumn := h.column_lt
  have hattr := t.terminalAttribute_le
  have hcursor : min t.column (t.columns - 1) = t.column := by omega
  have hself : min (t.columns - 1) (t.columns - 1) = t.columns - 1 := Nat.min_self _
  have hone : (mode : Int) = 1 ↔ mode = 1 := by omega
  have htwo : (mode : Int) = 2 ↔ mode = 2 := by omega
  simp only [Terminal.eraseLine, Screen.eraseLine, hone, htwo, usub_eq hcolumns, ok_bind,
    h.fillCells_eq h.row_lt hcolumns _ hattr, h.fillCells_eq h.row_lt hcolumn _ hattr,
    hcursor, hself]
  split
  · rfl
  · split <;> rfl

/-- Resetting the dirty interval of every row. -/
theorem markClean_eq (h : t.WellFormed) :
    upFrom (fun row (t : Terminal) => t.writeDirty row t.columns 0) t.rows 0 t =
      .ok (Screen.markClean t) := by
  have hle := h.columns_le
  unfold maxUint16 at hle
  have hmod : t.columns % 65536 = t.columns := Nat.mod_eq_of_lt (by omega)
  have hloop := upFrom_eq (fun row (t : Terminal) => t.writeDirty row t.columns 0)
    (fun n => { t with
      dirtyStart := fun i => if i < n then t.columns else t.dirtyStart i
      dirtyEnd := fun i => if i < n then 0 else t.dirtyEnd i }) t.rows 0 (fun n hn => by
      simp only [Nat.zero_add, writeDirty, hn, if_true, hmod, Nat.zero_mod,
        Except.ok.injEq, Terminal.mk.injEq, true_and, and_true]
      constructor <;> (funext i; simp only [Function.update_apply]; grind))
  simp only [Nat.not_lt_zero, if_false] at hloop
  exact hloop

/-- `EraseDisplay` does not fail. -/
theorem eraseDisplay_eq (h : t.WellFormed) (mode : Nat) :
    t.eraseDisplay mode = .ok (Screen.eraseDisplay t mode) := by
  have hcolumns := h.columns_pos
  have hcolumn := h.column_lt
  have hrow := h.row_lt
  have hattr := t.terminalAttribute_le
  have hcursor : min t.column (t.columns - 1) = t.column := by omega
  have hself : min (t.columns - 1) (t.columns - 1) = t.columns - 1 := Nat.min_self _
  have hone : (mode : Int) = 1 ↔ mode = 1 := by omega
  have htwo : (mode : Int) = 2 ↔ mode = 2 := by omega
  have hthree : (mode : Int) = 3 ↔ mode = 3 := by omega
  simp only [Terminal.eraseDisplay, Screen.eraseDisplay, hone, htwo, hthree]
  split
  · rw [clearBuffer_eq hcolumns, ok_bind]
    exact h.clear.clearScreen.markClean_eq
  · split
    · have habove := h.erase h.last_lt t.blank_valid 0 t.row 0
      have hline := habove.fillCells_eq hrow hcolumns t.column hattr
      rw [h.fillRows_eq (by omega) hattr, ok_bind]
      exact hline.trans (congrArg Except.ok (congrArg (fun last =>
        Screen.erase _ t.row 1 0 last t.blank) hcursor))
    · have hline := h.erase h.last_lt t.blank_valid t.row 1 t.column
      rw [usub_eq hcolumns, ok_bind, h.fillCells_eq hrow hcolumn _ hattr, ok_bind, hself]
      exact hline.fillRows_eq (show t.row + 1 + (t.rows - (t.row + 1)) ≤ t.rows by omega) hattr

/-- `SetAlternateScreen` does not fail. -/
theorem setAlternateScreen_eq (h : t.WellFormed) (enable : Bool) :
    t.setAlternateScreen enable = .ok (Screen.alternateScreen t enable) := by
  have hrows := h.rows_pos
  have hcolumns := h.columns_pos
  unfold setAlternateScreen Screen.alternateScreen
  cases enable <;> cases hactive : t.alternateActive
  case false.false | true.true => simp [Screen.cancelWrap]
  case true.false =>
    have henter : { t with
        primaryRow := t.row, primaryColumn := t.column
        cells := .alternate, alternateActive := true, row := 0, column := 0 }.WellFormed :=
      { h with cells_eq := rfl, row_lt := hrows, column_lt := hcolumns }
    have hmargins : usub t.rows 1 = .ok (t.rows - 1) := usub_eq hrows
    simp only [Bool.false_eq_true, not_false_eq_true, and_self, if_true, clearBuffer_eq henter.columns_pos,
      ok_bind, editBuffer, hmargins]
    rfl

  case false.true =>
    have hmark := h.onPrimary.markDirtyRows_eq 0 (show t.rows - 1 < t.rows by omega)
    have hcount : t.rows - 1 + 1 - 0 = t.rows := by omega
    simp only [Bool.false_eq_true, false_and, if_false, not_false_eq_true, and_self, if_true,
      usub_eq hrows, usub_eq hcolumns, ok_bind]
    rw [hmark, ok_bind]
    simp only [hcount]
    rfl

/-- One mode. -/
theorem setMode_eq (h : t.WellFormed) (enable : Bool) (index : Nat) :
    t.setMode enable index = .ok (Screen.execAll t
      (modeCommands t.parser.privateCsi enable (valueAt t.parser.params index))) := by
  unfold setMode modeCommands
  rw [parameter_zero_eq h.parser, ok_bind]
  generalize valueAt t.parser.params index = mode
  have hone : (mode : Int) = 1 ↔ mode = 1 := by omega
  have hinsert : (mode : Int) = 4 ↔ mode = 4 := by omega
  have hvisible : (mode : Int) = 25 ↔ mode = 25 := by omega
  have hold : (mode : Int) = 47 ↔ mode = 47 := by omega
  have hnew : (mode : Int) = 1047 ↔ mode = 1047 := by omega
  have hboth : (mode : Int) = 1049 ↔ mode = 1049 := by omega
  simp only [hone, hinsert, hvisible, hold, hnew, hboth, h.setAlternateScreen_eq]
  repeat' split
  all_goals rfl

/-- The value of a parameter that is there. -/
theorem valueAt_of_lt {params : List Int} {n : Nat} (hn : n < params.length) :
    valueAt params n = params[n].toNat := by
  simp [valueAt, List.getD_eq_getElem?_getD, hn]

/-- The modes one after the other. -/
theorem setModes_eq (h : t.WellFormed) (enable : Bool) :
    t.setModes enable = .ok (Screen.execAll t ((t.parser.params.map Int.toNat).flatMap
      (modeCommands t.parser.privateCsi enable))) := by
  have hlength := t.parser.params_length
  have hloop := upFrom_eq (fun index (t : Terminal) => t.setMode enable index)
    (fun n => Screen.execAll t (((t.parser.params.take n).map Int.toNat).flatMap
      (modeCommands t.parser.privateCsi enable))) t.parser.parameterCount 0 (fun n hn => by
      have hvalid : ∀ c ∈ ((t.parser.params.take n).map Int.toNat).flatMap
          (modeCommands t.parser.privateCsi enable), c.Valid := by
        intro c hc
        obtain ⟨mode, _, hmode⟩ := List.mem_flatMap.mp hc
        exact Parser.modeCommands_valid _ _ mode c hmode
      have hstep := (h.execAll hvalid).setMode_eq enable n
      have hn' : n < t.parser.params.length := by omega
      rw [Screen.parser_execAll, valueAt_of_lt hn', ← Screen.execAll_append] at hstep
      rw [Nat.zero_add, hstep, List.take_add_one, List.getElem?_eq_getElem hn']
      simp only [Option.toList_some, List.map_append, List.map_cons, List.map_nil,
        List.flatMap_append, List.flatMap_cons, List.flatMap_nil, List.append_nil])
  rw [← hlength, List.take_length] at hloop
  simpa [setModes, hlength] using hloop

/-! ### Renditions -/

/-- The codes from parameter `i` on. -/
def codesFrom (params : List Int) (i : Nat) : List Nat := (params.drop i).map Int.toNat

/-- The first of the codes that are left. -/
theorem codesFrom_cons {params : List Int} {i : Nat} (hi : i < params.length) :
    codesFrom params i = valueAt params i :: codesFrom params (i + 1) := by
  unfold codesFrom
  rw [List.drop_eq_getElem_cons hi, List.map_cons, valueAt_of_lt hi]

/-- The parameters at `i` select an extended colour by its number. -/
def IndexedColor (params : List Int) (i : Nat) : Prop :=
  (valueAt params i = 38 ∨ valueAt params i = 48) ∧ i + 2 < params.length ∧
    valueAt params (i + 1) = 5

/-- The parameters at `i` select an extended colour by its components. -/
def DirectColor (params : List Int) (i : Nat) : Prop :=
  (valueAt params i = 38 ∨ valueAt params i = 48) ∧ i + 4 < params.length ∧
    valueAt params (i + 1) = 2

/-- The other way round, a first code is that of a parameter. -/
theorem codesFrom_eq_cons {params : List Int} {i code : Nat} {rest : List Nat}
    (h : codesFrom params i = code :: rest) :
    i < params.length ∧ valueAt params i = code ∧ codesFrom params (i + 1) = rest := by
  have hi : i < params.length := by
    by_contra hge
    simp [codesFrom, List.drop_eq_nil_of_le (Nat.le_of_not_lt hge)] at h
  rw [codesFrom_cons hi, List.cons.injEq] at h
  exact ⟨hi, h.1, h.2⟩

/-- A code that begins no colour of its own stands alone. -/
theorem renditions_cons {params : List Int} {i : Nat} (hi : i < params.length)
    (hindexed : ¬ IndexedColor params i) (hdirect : ¬ DirectColor params i) :
    renditions (codesFrom params i) =
      simpleRendition (valueAt params i) ++ renditions (codesFrom params (i + 1)) := by
  have hno5 {n : Nat} {rest : List Nat} (hrest : codesFrom params (i + 1) = 5 :: n :: rest) :
      ¬ (valueAt params i = 38 ∨ valueAt params i = 48) := fun hcode => by
    obtain ⟨_, hfive, htail⟩ := codesFrom_eq_cons hrest
    exact hindexed ⟨hcode, (codesFrom_eq_cons htail).1, hfive⟩
  have hno2 {r g b : Nat} {rest : List Nat}
      (hrest : codesFrom params (i + 1) = 2 :: r :: g :: b :: rest) :
      ¬ (valueAt params i = 38 ∨ valueAt params i = 48) := fun hcode => by
    obtain ⟨_, htwo, hred⟩ := codesFrom_eq_cons hrest
    obtain ⟨_, _, hgreen⟩ := codesFrom_eq_cons hred
    obtain ⟨_, _, hblue⟩ := codesFrom_eq_cons hgreen
    exact hdirect ⟨hcode, (codesFrom_eq_cons hblue).1, htwo⟩
  rw [codesFrom_cons hi]
  generalize codesFrom params (i + 1) = rest at hno5 hno2 ⊢
  rw [renditions]
  all_goals grind

/-- `38;5;n` and `48;5;n` take three codes. -/
theorem renditions_indexed {params : List Int} {i : Nat} (h : IndexedColor params i) :
    renditions (codesFrom params i) =
      (if valueAt params i = 38 then .foreground (map256Color (valueAt params (i + 2)))
        else .background (map256Color (valueAt params (i + 2)))) ::
      renditions (codesFrom params (i + 3)) := by
  obtain ⟨hcode, hlength, hfive⟩ := h
  rw [codesFrom_cons (by omega), codesFrom_cons (show i + 1 < _ by omega), hfive,
    codesFrom_cons hlength]
  rcases hcode with hcode | hcode <;> rw [hcode] <;> rfl

/-- `38;2;r;g;b` and `48;2;r;g;b` take five. -/
theorem renditions_direct {params : List Int} {i : Nat} (h : DirectColor params i) :
    renditions (codesFrom params i) =
      (if valueAt params i = 38 then
          .foreground (mapRgbColor (valueAt params (i + 2)) (valueAt params (i + 3))
            (valueAt params (i + 4)))
        else .background (mapRgbColor (valueAt params (i + 2)) (valueAt params (i + 3))
          (valueAt params (i + 4)))) ::
      renditions (codesFrom params (i + 5)) := by
  obtain ⟨hcode, hlength, htwo⟩ := h
  rw [codesFrom_cons (by omega), codesFrom_cons (show i + 1 < _ by omega), htwo,
    codesFrom_cons (show i + 2 < _ by omega), codesFrom_cons (show i + 3 < _ by omega),
    codesFrom_cons hlength]
  rcases hcode with hcode | hcode <;> rw [hcode] <;> rfl

/-- The selector of an extended colour is read with default -1, which is
none of the selectors. -/
theorem selector_eq (h : t.WellFormed) (i : Nat) :
    ∃ selector, t.parameter i (-1) = .ok selector ∧
      (selector = 5 ↔ valueAt t.parser.params i = 5) ∧
      (selector = 2 ↔ valueAt t.parser.params i = 2) := by
  refine ⟨_, parameter_eq h.parser i (-1), ?_, ?_⟩ <;>
    (unfold valueAt; split <;> omega)

/-- A code that stands for itself. -/
theorem graphicRenditionItem_simple (h : t.WellFormed) {i : Nat}
    (hindexed : ¬ IndexedColor t.parser.params i) (hdirect : ¬ DirectColor t.parser.params i) :
    t.graphicRenditionItem i = .ok (Screen.execAll t
      ((simpleRendition (valueAt t.parser.params i)).map .rendition), i) := by
  obtain ⟨selector, hselector, hfive, htwo⟩ := h.selector_eq (i + 1)
  unfold IndexedColor at hindexed
  unfold DirectColor at hdirect
  unfold graphicRenditionItem simpleRendition
  rw [parameter_zero_eq h.parser, ok_bind, hselector, ok_bind]
  rw [← hfive, t.parser.params_length] at hindexed
  rw [← htwo, t.parser.params_length] at hdirect
  generalize valueAt t.parser.params i = code at hindexed hdirect ⊢
  let result (changes : List Rendition) : Checked (Terminal × Nat) :=
    .ok (Screen.execAll t (changes.map .rendition), i)
  have hforeground {color : Int} {color' : Nat} (hcolor : color.toNat = color') :
      (.ok ({ t with foreground := color.toNat }, i) : Checked (Terminal × Nat)) =
        result [.foreground color'] := by rw [hcolor]; rfl
  have hbackground {color : Int} {color' : Nat} (hcolor : color.toNat = color') :
      (.ok ({ t with background := color.toNat }, i) : Checked (Terminal × Nat)) =
        result [.background color'] := by rw [hcolor]; rfl
  refine ite_eq_of_iff result (by omega) (fun _ => rfl) fun _ => ?_
  refine ite_eq_of_iff result (by omega) (fun _ => rfl) fun _ => ?_
  refine ite_eq_of_iff result (by omega) (fun _ => rfl) fun _ => ?_
  refine ite_eq_of_iff result (by omega) (fun _ => rfl) fun _ => ?_
  refine ite_eq_of_iff result (by omega) (fun _ => rfl) fun _ => ?_
  refine ite_eq_of_iff result (by omega) (fun _ => hforeground (by omega)) fun _ => ?_
  refine ite_eq_of_iff result (by omega) (fun _ => hforeground (by omega)) fun _ => ?_
  refine ite_eq_of_iff result (by omega) (fun _ => rfl) fun _ => ?_
  refine ite_eq_of_iff result (by omega) (fun _ => hbackground (by omega)) fun _ => ?_
  refine ite_eq_of_iff result (by omega) (fun _ => hbackground (by omega)) fun _ => ?_
  refine ite_eq_of_iff result (by omega) (fun _ => rfl) fun _ => ?_
  rw [if_neg (by omega), if_neg (by omega)]
  rfl

/-- A colour by its number takes three parameters. -/
theorem graphicRenditionItem_indexed (h : t.WellFormed) {i : Nat}
    (hindexed : IndexedColor t.parser.params i) :
    t.graphicRenditionItem i = .ok (Screen.setRendition t
      (if valueAt t.parser.params i = 38 then
          .foreground (map256Color (valueAt t.parser.params (i + 2)))
        else .background (map256Color (valueAt t.parser.params (i + 2)))), i + 2) := by
  obtain ⟨selector, hselector, hfive, htwo⟩ := h.selector_eq (i + 1)
  obtain ⟨hcode, hlength, hselect⟩ := hindexed
  rw [t.parser.params_length] at hlength
  unfold graphicRenditionItem
  rw [parameter_zero_eq h.parser, ok_bind, hselector, ok_bind,
    parameter_zero_eq h.parser, ok_bind]
  rcases hcode with hcode | hcode <;> simp [hcode, hlength, hfive.mpr hselect] <;> rfl

/-- A colour by its components takes five parameters. -/
theorem graphicRenditionItem_direct (h : t.WellFormed) {i : Nat}
    (hdirect : DirectColor t.parser.params i) :
    t.graphicRenditionItem i = .ok (Screen.setRendition t
      (if valueAt t.parser.params i = 38 then
          .foreground (mapRgbColor (valueAt t.parser.params (i + 2))
            (valueAt t.parser.params (i + 3)) (valueAt t.parser.params (i + 4)))
        else .background (mapRgbColor (valueAt t.parser.params (i + 2))
          (valueAt t.parser.params (i + 3)) (valueAt t.parser.params (i + 4)))), i + 4) := by
  obtain ⟨selector, hselector, hfive, htwo⟩ := h.selector_eq (i + 1)
  obtain ⟨hcode, hlength, hselect⟩ := hdirect
  rw [t.parser.params_length] at hlength
  unfold graphicRenditionItem
  rw [parameter_zero_eq h.parser, ok_bind, hselector, ok_bind]
  simp only [parameter_zero_eq h.parser, ok_bind]
  rcases hcode with hcode | hcode <;> simp [hcode, hlength, htwo.mpr hselect] <;> rfl

/-- One round applies some changes and moves on to the codes they leave. -/
theorem graphicRenditionItem_eq (h : t.WellFormed) {i : Nat} (hi : i < t.parser.params.length) :
    ∃ changes last, t.graphicRenditionItem i =
        .ok (Screen.execAll t (changes.map .rendition), last) ∧ i ≤ last ∧
      renditions (codesFrom t.parser.params i) =
        changes ++ renditions (codesFrom t.parser.params (last + 1)) := by
  by_cases hindexed : IndexedColor t.parser.params i
  · exact ⟨[_], i + 2, h.graphicRenditionItem_indexed hindexed, Nat.le_add_right i 2,
      renditions_indexed hindexed⟩
  · by_cases hdirect : DirectColor t.parser.params i
    · exact ⟨[_], i + 4, h.graphicRenditionItem_direct hdirect, Nat.le_add_right i 4,
        renditions_direct hdirect⟩
    · exact ⟨_, i, h.graphicRenditionItem_simple hindexed hdirect, Nat.le_refl i,
        renditions_cons hi hindexed hdirect⟩

/-- Changes of colours carry no characters. -/
theorem rendition_valid (changes : List Rendition) :
    ∀ c ∈ changes.map Command.rendition, c.Valid := by
  intro c hc
  obtain ⟨change, _, rfl⟩ := List.mem_map.mp hc
  trivial

theorem renditions_end {params : List Int} {i : Nat} (hi : params.length ≤ i) :
    renditions (codesFrom params i) = [] := by
  rw [codesFrom, List.drop_eq_nil_of_le hi]
  rfl

/-- The loop of `SelectGraphicRendition` applies the changes the codes stand for. -/
theorem graphicRenditionFrom_eq (rounds : Nat) {t : Terminal} (h : t.WellFormed) {i : Nat}
    (hrounds : t.parser.params.length ≤ i + rounds) :
    graphicRenditionFrom rounds i t = .ok (Screen.execAll t
      ((renditions (codesFrom t.parser.params i)).map .rendition)) := by
  have hlength := t.parser.params_length
  induction rounds generalizing t i with
  | zero =>
      rw [renditions_end (by omega)]
      rfl
  | succ n ih =>
      unfold graphicRenditionFrom
      by_cases hi : i < t.parser.parameterCount
      · obtain ⟨changes, last, hitem, hlast, hcodes⟩ :=
          h.graphicRenditionItem_eq (i := i) (by omega)
        have hrest := ih (h.execAll (rendition_valid changes)) (i := last + 1)
        rw [Screen.parser_execAll] at hrest
        have hround := hrest (by omega) hlength
        rw [← Screen.execAll_append, ← List.map_append, ← hcodes] at hround
        rw [if_pos hi, hitem, ok_bind]
        exact hround
      · rw [if_neg hi, renditions_end (by omega)]
        rfl

/-- `SelectGraphicRendition` carries out the renditions of its codes. -/
theorem selectGraphicRendition_eq (h : t.WellFormed) :
    t.selectGraphicRendition = .ok (Screen.execAll t
      ((renditions (t.parser.params.map Int.toNat)).map .rendition)) :=
  graphicRenditionFrom_eq t.parser.parameterCount h
    (by rw [t.parser.params_length]; omega)

/-! ### The dispatch -/

/-- The margins of `CSI r`, with the last row for a missing bottom. -/
theorem setMargins_eq (h : t.WellFormed) (top : Nat) :
    (do
      let bottom := difference (← t.parameter 1 t.rows).toNat 1
      if top < bottom.value ∧ bottom.value < t.rows then do
        let bottom ← bottom.use Fault.wrapped
        .ok { t with scrollTop := top, scrollBottom := bottom, row := 0, column := 0 }
      else .ok t) = .ok (Screen.setMargins t top (givenAt t.parser.params 1)) := by
  have hrows := h.rows_pos
  have hle := h.rows_le
  unfold maxUint16 at hle
  have hread : t.parameter 1 t.rows = .ok ((givenAt t.parser.params 1).getD t.rows : Nat) := by
    rw [parameter_eq h.parser]
    unfold givenAt valueAt
    split
    · rw [if_neg (by omega)]
      rfl
    · rw [if_pos (by omega)]
      simp only [Option.getD_some]
      congr 1
      omega
  unfold Screen.setMargins
  rw [hread, ok_bind]
  generalize (givenAt t.parser.params 1).getD t.rows = bottom
  simp only [Int.toNat_natCast]
  by_cases hzero : bottom = 0
  · have hvalue : (difference bottom 1).value = bottom + 0x10000000000000000 - 1 := by
      rw [difference_of_lt (by omega)]
    rw [hvalue, if_neg (by omega), if_neg (by omega)]
  · have hone : 1 ≤ bottom := by omega
    have hvalue : (difference bottom 1).value = bottom - 1 := by rw [difference_of_le hone]
    rw [hvalue, use_difference hone]
    by_cases hvalid : top < bottom - 1 ∧ bottom - 1 < t.rows
    · rw [if_pos hvalid, if_pos (by omega)]
      rfl
    · rw [if_neg hvalid, if_neg (by omega)]

/-- Every case of the switch in `HandleCsi`. -/
theorem dispatchCsi_eq (h : t.WellFormed) (final : CsiFinal) :
    t.dispatchCsi (countAt t.parser.params 0) final = .ok (Screen.execAll t
      (csiAction final t.parser.privateCsi t.parser.params)) := by
  have hpos := countAt_pos t.parser.params 0
  have hpos' := countAt_pos t.parser.params 1
  have hrows := h.rows_pos
  have hcolumns := h.columns_pos
  have hback {position count : Nat} {f : Nat → Terminal} :
      (if count > position then (.ok (f 0) : Checked Terminal)
        else do .ok (f (← usub position count))) = .ok (f (position - count)) := by
    by_cases hgt : count > position
    · rw [if_pos hgt, show position - count = 0 by omega]
    · rw [if_neg hgt, usub_eq (Nat.le_of_not_lt hgt), ok_bind]
  cases final with
  | cursorUp => exact hback
  | cursorDown | cursorForward | restoreCursor =>
      simp only [dispatchCsi, usub_eq hrows, usub_eq hcolumns, ok_bind]
      rfl
  | cursorBack => exact hback
  | nextLine =>
      simp only [dispatchCsi, usub_eq hrows, ok_bind, csiAction, Screen.execAll_cons,
        Screen.execAll_nil, Screen.exec, Nat.min_zero]
  | previousLine =>
      simp only [csiAction, Screen.execAll_cons, Screen.execAll_nil, Screen.exec, Nat.min_zero]
      exact hback (f := fun row => { t with row := row, column := 0 })
  | columnAbsolute | lineAbsolute =>
      simp only [dispatchCsi, usub_eq hrows, usub_eq hcolumns, usub_eq hpos, ok_bind]
      rfl
  | position =>
      simp only [dispatchCsi, nonZeroParameter_eq h.parser, usub_eq hrows, usub_eq hcolumns,
        usub_eq hpos, usub_eq hpos', ok_bind]
      rfl
  | eraseDisplay =>
      simp only [dispatchCsi, parameter_zero_eq h.parser, ok_bind]
      exact h.eraseDisplay_eq _
  | eraseLine =>
      simp only [dispatchCsi, parameter_zero_eq h.parser, ok_bind]
      exact h.eraseLine_eq _
  | rendition => exact h.selectGraphicRendition_eq
  | saveCursor => rfl
  | margins =>
      simp only [dispatchCsi, nonZeroParameter_eq h.parser, usub_eq hpos, ok_bind]
      exact h.setMargins_eq _
  | insertLines => exact h.insertLines_eq _
  | deleteLines => exact h.deleteLines_eq _
  | insertCharacters => exact h.insertCharacters_eq hpos
  | deleteCharacters => exact h.deleteCharacters_eq hpos
  | eraseCharacters =>
      simp only [dispatchCsi, usub_eq hcolumns,
        usub_eq (show 1 ≤ t.column + countAt t.parser.params 0 by omega), ok_bind]
      have hlast : min (min (t.columns - 1) (t.column + countAt t.parser.params 0 - 1))
          (t.columns - 1) = min (t.columns - 1) (t.column + countAt t.parser.params 0 - 1) := by
        omega
      refine (h.fillCells_eq h.row_lt h.column_lt _ t.terminalAttribute_le).trans ?_
      rw [hlast]
      rfl
  | scrollUp => exact h.scrollUp_eq hpos
  | scrollDown => exact h.scrollDown_eq hpos
  | setModes => exact h.setModes_eq true
  | resetModes => exact h.setModes_eq false
  | report =>
      have hfive : (valueAt t.parser.params 0 : Int) = 5 ↔ valueAt t.parser.params 0 = 5 := by omega
      have hsix : (valueAt t.parser.params 0 : Int) = 6 ↔ valueAt t.parser.params 0 = 6 := by omega
      simp only [dispatchCsi, parameter_zero_eq h.parser, ok_bind, csiAction, hfive, hsix,
        h.queueReply_eq]
      split
      · rfl
      · split <;> rfl
  | deviceAttributes => exact h.queueReply_eq attributesReply
  | other => rfl

/-- **`HandleCsi` carries out the instructions of the sequence.** -/
theorem handleCsi_eq (h : t.WellFormed) (finalByte : UInt8) :
    t.handleCsi finalByte = .ok (Screen.execAll t
      (csiCommands (csiFinal finalByte) t.parser.privateCsi t.parser.params)) := by
  unfold handleCsi csiCommands
  rw [nonZeroParameter_eq h.parser, ok_bind, Screen.execAll_cons]
  exact h.cancelWrap.dispatchCsi_eq (csiFinal finalByte)

end WellFormed

end Terminal

end WolfSshUefi
