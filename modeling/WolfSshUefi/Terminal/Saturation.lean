import WolfSshUefi.Terminal.Fields

/-!
# Parameters of any size

A stored parameter is the number its digits denote up to the cut-off, and some
number from the cut-off on when they denote one.  No instruction tells two
numbers from the cut-off on apart: the screen has at most 65535 rows and
columns, and all other numbers that mean something are smaller still.  So every
control sequence does what it does with the exact numbers
(`parameters_exact`).
-/

namespace WolfSshUefi

/-- The parameter that digits denote, -1 if there are none. -/
def exactParameter (digits : List UInt8) : Int :=
  if digits = [] then -1 else number digits

/-- A parameter up to the cut-off. -/
def clipped (value : Int) : Int := min value 1000000

/-- Up to the cut-off what is stored is exact. -/
theorem clipped_parameterOf (digits : List UInt8) :
    clipped (parameterOf digits) = clipped (exactParameter digits) := by
  unfold parameterOf extended exactParameter
  split
  · rfl
  · have hmin : min (Numeral.readOn 10 1000000 0 (digits.map digitValue)) 1000000 =
        min (Numeral.append 10 0 (digits.map digitValue)) 1000000 :=
      Numeral.min_readOn_limit (by omega) 0 (digits.map digitValue)
    show min (Numeral.readOn 10 1000000 0 (digits.map digitValue) : Int) 1000000 =
      min (Numeral.append 10 0 (digits.map digitValue) : Int) 1000000
    omega

/-! ### Reading clipped parameters -/

/-- A parameter that is clipped, or missing. -/
theorem getD_clipped (params : List Int) (i : Nat) :
    (params.map clipped).getD i (-1) = clipped (params.getD i (-1)) := by
  rw [List.getD_eq_getElem?_getD, List.getD_eq_getElem?_getD, List.getElem?_map]
  cases params[i]? <;> rfl

/-- The value of a clipped parameter. -/
theorem valueAt_clipped (params : List Int) (i : Nat) :
    valueAt (params.map clipped) i = min (valueAt params i) 1000000 := by
  unfold valueAt
  rw [getD_clipped]
  unfold clipped
  omega

/-- Its count. -/
theorem countAt_clipped (params : List Int) (i : Nat) :
    countAt (params.map clipped) i = min (countAt params i) 1000000 := by
  unfold countAt
  rw [valueAt_clipped]
  omega

/-- Its value, if it is given. -/
theorem givenAt_clipped (params : List Int) (i : Nat) :
    givenAt (params.map clipped) i = (givenAt params i).map (min · 1000000) := by
  have hsign : 0 ≤ clipped (params.getD i (-1)) ↔ 0 ≤ params.getD i (-1) := by
    unfold clipped
    omega
  simp only [givenAt, getD_clipped, valueAt_clipped, hsign]
  split <;> rfl

/-- All values of clipped parameters. -/
theorem toNat_clipped (params : List Int) :
    (params.map clipped).map Int.toNat = (params.map Int.toNat).map (min · 1000000) := by
  rw [List.map_map, List.map_map]
  apply List.map_congr_left
  intro value _
  show (min value 1000000).toNat = min value.toNat 1000000
  omega

/-! ### Codes and modes from the cut-off on -/

/-- Colours out of the palette stay out of it. -/
theorem map256Color_clipped (color : Nat) :
    map256Color (min color 1000000) = map256Color color := by
  by_cases hsmall : color ≤ 1000000
  · rw [Nat.min_eq_left hsmall]
  · have hlarge {n : Nat} (hn : 1000000 ≤ n) : map256Color n = 15 := by
      unfold map256Color
      rw [if_neg (by omega), if_pos (by omega), if_pos (by omega)]
    rw [hlarge (by omega), hlarge (by omega)]

/-- Shares of a colour are saturated long before. -/
theorem mapRgbColor_clipped (red green blue : Nat) :
    mapRgbColor (min red 1000000) (min green 1000000) (min blue 1000000) =
      mapRgbColor red green blue := by
  have hhalf (n : Nat) : min n 1000000 ≥ 128 ↔ n ≥ 128 := by omega
  have hbright : max (min red 1000000) (max (min green 1000000) (min blue 1000000)) ≥ 192 ↔
      max red (max green blue) ≥ 192 := by omega
  simp only [mapRgbColor, hhalf, hbright]

/-- No rendition has so large a code. -/
theorem simpleRendition_clipped (code : Nat) :
    simpleRendition (min code 1000000) = simpleRendition code := by
  by_cases hsmall : code ≤ 1000000
  · rw [Nat.min_eq_left hsmall]
  · have hlarge {n : Nat} (hn : 1000000 ≤ n) : simpleRendition n = [] := by
      unfold simpleRendition
      repeat rw [if_neg (by omega)]
    rw [hlarge (by omega), hlarge (by omega)]

/-- A clipped list of codes starts with a small number only where the list does. -/
theorem eq_cons_of_clipped {codes rest : List Nat} {n : Nat} (hn : n < 1000000)
    (h : codes.map (min · 1000000) = n :: rest) :
    ∃ rest', codes = n :: rest' ∧ rest'.map (min · 1000000) = rest := by
  cases codes with
  | nil => cases h
  | cons code rest' =>
      rw [List.map_cons, List.cons.injEq] at h
      obtain rfl : code = n := by omega
      exact ⟨rest', rfl, h.2⟩

/-- So the renditions are those of the exact codes. -/
theorem renditions_clipped (codes : List Nat) :
    renditions (codes.map (min · 1000000)) = renditions codes := by
  induction codes using renditions.induct with
  | case1 n rest ih =>
      show renditions (38 :: 5 :: min n 1000000 :: rest.map (min · 1000000)) = _
      rw [renditions, renditions, map256Color_clipped, ih]
  | case2 n rest ih =>
      show renditions (48 :: 5 :: min n 1000000 :: rest.map (min · 1000000)) = _
      rw [renditions, renditions, map256Color_clipped, ih]
  | case3 r g b rest ih =>
      show renditions (38 :: 2 :: min r 1000000 :: min g 1000000 :: min b 1000000 ::
        rest.map (min · 1000000)) = _
      rw [renditions, renditions, mapRgbColor_clipped, ih]
  | case4 r g b rest ih =>
      show renditions (48 :: 2 :: min r 1000000 :: min g 1000000 :: min b 1000000 ::
        rest.map (min · 1000000)) = _
      rw [renditions, renditions, mapRgbColor_clipped, ih]
  | case5 code rest hindexed hindexed' hdirect hdirect' ih =>
      -- what the clipped codes select, the codes select
      have hfive {n : Nat} {others : List Nat}
          (h : rest.map (min · 1000000) = 5 :: n :: others) :
          code ≠ 38 ∧ code ≠ 48 := by
        obtain ⟨tail, rfl, htail⟩ := eq_cons_of_clipped (by omega) h
        cases tail with
        | nil => cases htail
        | cons color others =>
            exact ⟨fun hcode => hindexed color others hcode rfl,
              fun hcode => hindexed' color others hcode rfl⟩
      have htwo {r g b : Nat} {others : List Nat}
          (h : rest.map (min · 1000000) = 2 :: r :: g :: b :: others) :
          code ≠ 38 ∧ code ≠ 48 := by
        obtain ⟨tail, rfl, htail⟩ := eq_cons_of_clipped (by omega) h
        obtain _ | ⟨red, _ | ⟨green, _ | ⟨blue, others⟩⟩⟩ := tail
        · cases htail
        · cases htail
        · cases htail
        · exact ⟨fun hcode => hdirect red green blue others hcode rfl,
            fun hcode => hdirect' red green blue others hcode rfl⟩
      rw [List.map_cons, renditions, renditions, simpleRendition_clipped, ih]
      · exact hindexed
      · exact hindexed'
      · exact hdirect
      · exact hdirect'
      · exact fun _ _ hcode hrest => (hfive hrest).1 (by omega)
      · exact fun _ _ hcode hrest => (hfive hrest).2 (by omega)
      · exact fun _ _ _ _ hcode hrest => (htwo hrest).1 (by omega)
      · exact fun _ _ _ _ hcode hrest => (htwo hrest).2 (by omega)
  | case6 => rfl

/-- No mode has so large a number. -/
theorem modeCommands_clipped (question on : Bool) (mode : Nat) :
    modeCommands question on (min mode 1000000) = modeCommands question on mode := by
  have hmode {n : Nat} (hn : n < 1000000) : min mode 1000000 = n ↔ mode = n := by omega
  simp only [modeCommands, hmode (show 1 < 1000000 by omega), hmode (show 25 < 1000000 by omega),
    hmode (show 47 < 1000000 by omega), hmode (show 1047 < 1000000 by omega),
    hmode (show 1049 < 1000000 by omega), hmode (show 4 < 1000000 by omega)]

/-! ### The screen does not tell them apart -/

namespace Terminal

open Screen

theorem min_region_clipped {t : Terminal} (h : t.WellFormed) (top count : Nat) :
    min (min count 1000000) (t.scrollBottom - top + 1) =
      min count (t.scrollBottom - top + 1) := by
  have hrows := h.rows_le
  have hbottom := h.bottom_lt
  unfold maxUint16 at hrows
  omega

/-- A count from the cut-off on moves all of a region. -/
theorem moveUp_clipped {t : Terminal} (h : t.WellFormed) (top count : Nat) :
    moveUp t top (min count 1000000) = moveUp t top count := by
  simp only [moveUp, min_region_clipped h]

/-- So rows move down as with the exact count. -/
theorem moveDown_clipped {t : Terminal} (h : t.WellFormed) (top count : Nat) :
    moveDown t top (min count 1000000) = moveDown t top count := by
  simp only [moveDown, min_region_clipped h]

/-- A bottom margin from the cut-off on is below the screen. -/
theorem setMargins_clipped {t : Terminal} (h : t.WellFormed) (count : Nat) (bottom : Option Nat) :
    setMargins t (min count 1000000 - 1) (bottom.map (min · 1000000)) =
      setMargins t (count - 1) bottom := by
  have hrows := h.rows_le
  unfold maxUint16 at hrows
  have hlast : (bottom.map (min · 1000000)).getD t.rows = min (bottom.getD t.rows) 1000000 := by
    cases bottom with
    | none =>
        show t.rows = min t.rows 1000000
        omega
    | some last => rfl
  unfold setMargins
  rw [hlast]
  generalize bottom.getD t.rows = last
  by_cases hfits : count - 1 + 1 < last ∧ last ≤ t.rows
  · have hcount : min count 1000000 = count := by omega
    have hsame : min last 1000000 = last := by omega
    rw [hcount, hsame]
  · rw [if_neg hfits, if_neg (by omega)]

/-- A command with clipped parameters does what it does with the parameters. -/
theorem execAll_clipped {t : Terminal} (h : t.WellFormed) (final : CsiFinal) (question : Bool)
    (params : List Int) :
    execAll t (csiAction final question (params.map clipped)) =
      execAll t (csiAction final question params) := by
  have hrows := h.rows_le
  have hcolumns := h.columns_le
  have hrow := h.row_lt
  have hcolumn := h.column_lt
  unfold maxUint16 at hrows hcolumns
  have hmode (mode : Nat) {n : Nat} (hn : n < 1000000) : min mode 1000000 = n ↔ mode = n := by
    omega
  have hback (count : Nat) {position : Nat} (hposition : position < 65536) :
      position - min count 1000000 = position - count := by omega
  have hforward (position count : Nat) {last : Nat} (hlast : last < 65536) :
      min last (position + min count 1000000) = min last (position + count) := by omega
  have habsolute (count : Nat) {last : Nat} (hlast : last < 65536) :
      min last (min count 1000000 - 1) = min last (count - 1) := by omega
  have hlastRow : t.rows - 1 < 65536 := by omega
  have hlastColumn : t.columns - 1 < 65536 := by omega
  cases final
  case rendition =>
    simp only [csiAction, toNat_clipped, renditions_clipped]
  case setModes | resetModes =>
    simp only [csiAction, toNat_clipped, List.flatMap_map, modeCommands_clipped]
  case saveCursor | restoreCursor | deviceAttributes | other => rfl
  case report =>
    simp only [csiAction, valueAt_clipped, hmode _ (show 5 < 1000000 by omega),
      hmode _ (show 6 < 1000000 by omega)]
  case eraseDisplay =>
    simp only [csiAction, valueAt_clipped, execAll_cons, execAll_nil, exec, Screen.eraseDisplay,
      hmode _ (show 1 < 1000000 by omega), hmode _ (show 2 < 1000000 by omega),
      hmode _ (show 3 < 1000000 by omega)]
  case eraseLine =>
    simp only [csiAction, valueAt_clipped, execAll_cons, execAll_nil, exec, Screen.eraseLine,
      hmode _ (show 1 < 1000000 by omega), hmode _ (show 2 < 1000000 by omega)]
  case margins =>
    simp only [csiAction, countAt_clipped, givenAt_clipped, execAll_cons, execAll_nil, exec,
      setMargins_clipped h]
  case insertLines | deleteLines | scrollUp | scrollDown =>
    simp only [csiAction, countAt_clipped, execAll_cons, execAll_nil, exec, moveUp_clipped h,
      moveDown_clipped h]
  case insertCharacters | deleteCharacters =>
    have hregion : min (min (countAt params 0) 1000000) (t.columns - t.column) =
        min (countAt params 0) (t.columns - t.column) := by omega
    simp only [csiAction, countAt_clipped, execAll_cons, execAll_nil, exec,
      Screen.insertCharacters, Screen.deleteCharacters, hregion]
  case eraseCharacters =>
    have hlast : min (t.columns - 1) (t.column + min (countAt params 0) 1000000 - 1) =
        min (t.columns - 1) (t.column + countAt params 0 - 1) := by omega
    simp only [csiAction, countAt_clipped, execAll_cons, execAll_nil, exec, hlast]
  case cursorUp | previousLine =>
    simp only [csiAction, countAt_clipped, execAll_cons, execAll_nil, exec,
      hback _ (show t.row < 65536 by omega)]
  case cursorBack =>
    simp only [csiAction, countAt_clipped, execAll_cons, execAll_nil, exec,
      hback _ (show t.column < 65536 by omega)]
  case cursorDown | cursorForward | nextLine =>
    simp only [csiAction, countAt_clipped, execAll_cons, execAll_nil, exec,
      hforward _ _ hlastRow, hforward _ _ hlastColumn]
  case columnAbsolute | position | lineAbsolute =>
    simp only [csiAction, countAt_clipped, execAll_cons, execAll_nil, exec,
      habsolute _ hlastRow, habsolute _ hlastColumn]

/-- The sequence with these numbers. -/
def numberedSequence (question : Bool) (fields : List (List UInt8)) (final : UInt8) : List UInt8 :=
  controlSequence (parameterPart question ([0x3b].intercalate fields)) final

/-- What is stored does what the numbers denoted do. -/
theorem feed_numberedSequence {t : Terminal} (h : t.WellFormed) (hlisten : t.parser.Listening)
    (question : Bool) {fields : List (List UInt8)} (hsome : fields ≠ [])
    (hcount : fields.length ≤ 16) (hdigits : ∀ field ∈ fields, ∀ b ∈ field, DigitByte b)
    {final : UInt8} (hfinal : FinalByte final) :
    ∃ p : Parser, p.state = .ground ∧
      t.feed (numberedSequence question fields final) =
        .ok ((execAll t (csiCommands (csiFinal final) question
          (fields.map exactParameter))).withParser p) := by
  have hbody := bodyByte_parameterPart question (parameterByte_of_digits hdigits)
  obtain ⟨hquestion, hparams⟩ := t.parser.collected_digits question hsome hcount hdigits
  have hclipped : (fields.map parameterOf).map clipped =
      (fields.map exactParameter).map clipped := by
    rw [List.map_map, List.map_map]
    exact List.map_congr_left fun digits _ => clipped_parameterOf digits
  have hexact : execAll (cancelWrap t) (csiAction (csiFinal final) question
        (fields.map parameterOf)) =
      execAll (cancelWrap t) (csiAction (csiFinal final) question (fields.map exactParameter)) := by
    rw [← execAll_clipped h.cancelWrap, hclipped, execAll_clipped h.cancelWrap]
  have hfeed := feed_controlSequence hlisten hbody hfinal
  rw [hquestion, hparams, hexact] at hfeed
  refine ⟨{ t.parser.collected (parameterPart question ([0x3b].intercalate fields)) with
    state := .ground }, rfl, ?_⟩
  rw [h.feed_eq]
  exact congrArg Except.ok hfeed

/-- A sequence with one number. -/
theorem feed_number {t : Terminal} (h : t.WellFormed) (hlisten : t.parser.Listening)
    {digits : List UInt8} (hdigits : ∀ b ∈ digits, DigitByte b) {final : UInt8}
    (hfinal : FinalByte final) :
    ∃ p : Parser, p.state = .ground ∧
      t.feed (controlSequence digits final) =
        .ok ((execAll (cancelWrap t) (csiAction (csiFinal final) false
          [exactParameter digits])).withParser p) := by
  have hfield : ∀ field ∈ [digits], ∀ b ∈ field, DigitByte b := by
    intro field hfield
    rw [List.mem_singleton.mp hfield]
    exact hdigits
  have hsequence : numberedSequence false [digits] final = controlSequence digits final := by
    simp [numberedSequence, parameterPart]
  rw [← hsequence]
  exact feed_numberedSequence h hlisten false (List.cons_ne_nil _ _) (by simp) hfield hfinal

/-- **Parameters are exact.**  A control sequence with up to sixteen numbers of any
length does what its final byte does with the numbers denoted; the parser is in
ground state again. -/
theorem parameters_exact {t : Terminal} (h : Reachable t) (hlisten : t.parser.Listening)
    (question : Bool) {fields : List (List UInt8)} (hsome : fields ≠ [])
    (hcount : fields.length ≤ 16) (hdigits : ∀ field ∈ fields, ∀ b ∈ field, DigitByte b)
    {final : UInt8} (hfinal : FinalByte final) :
    ∃ p : Parser, p.state = .ground ∧
      t.feed (numberedSequence question fields final) =
        .ok ((execAll t (csiCommands (csiFinal final) question
          (fields.map exactParameter))).withParser p) :=
  feed_numberedSequence h.wellFormed hlisten question hsome hcount hdigits hfinal

/-- `CSI 999999999999;2 H` -/
theorem parameters_exact_far :
    ∃ p : Parser, p.state = .ground ∧
      (Firmware.ample 2 1 7).fresh.feed
          (numberedSequence false [List.replicate 12 0x39, [0x32]] 0x48) =
        .ok ((execAll (Firmware.ample 2 1 7).fresh (csiCommands .position false
          [999999999999, 2])).withParser p) :=
  @parameters_exact _ (created_ample 2 1 7).reachable (by decide) false
    [List.replicate 12 0x39, [0x32]] (by decide) (by decide) (by simp [DigitByte]) 0x48 (by decide)

end Terminal

end WolfSshUefi
