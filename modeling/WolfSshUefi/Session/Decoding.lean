import WolfSshUefi.Library.PrefixCodes
import WolfSshUefi.Session.Keyboard
import WolfSshUefi.Session.Echo

/-!
# What was pressed

The server sees the bytes of the keyboard only.  The sequences of the keys without a
character and the encoded characters are a prefix code, but for the character ESC, which
begins the sequences.  So the bytes tell which keys were pressed, in whatever cursor mode
each of them was (`keys_decodable`); Backspace is told from no other way to enter DEL.
-/

namespace WolfSshUefi

open PrefixCodes

/-- What a keystroke stands for. -/
inductive KeySymbol
  | key (scanCode : UInt16)
  | character (unicodeChar : UInt16)
  deriving DecidableEq

/-- The keys with a sequence. -/
def Scan.sequenceKeys : List UInt16 := Scan.cursorKeys ++ Scan.editingKeys

/-- The symbol of a keystroke: the sequence of a key is sent whatever character comes with
it, Ctrl+] is never sent, and Backspace is DEL. -/
def InputKey.symbol? (key : InputKey) : Option KeySymbol :=
  if key.unicodeChar = 0x1d then none
  else if key.scanCode ∈ Scan.sequenceKeys then some (.key key.scanCode)
  else if key.unicodeChar = 0 then none
  else some (.character (if key.unicodeChar = 0x08 then 0x7f else key.unicodeChar))

/-- The character ESC, which no sequence begins with. -/
def InputKey.IsEscapeChar (key : InputKey) : Prop := key.symbol? = some (.character 0x1b)

/-! ### The sequences -/

/-- Other keys have no sequence. -/
theorem mapped_eq_none {scanCode : UInt16} (h : scanCode ∉ Scan.sequenceKeys)
    (applicationCursor : Bool) : mapped applicationCursor scanCode = none := by
  simp only [Scan.sequenceKeys, Scan.cursorKeys, Scan.editingKeys, List.cons_append,
    List.nil_append, List.mem_cons, List.not_mem_nil, or_false, not_or] at h
  unfold mapped
  simp only [h, if_false]

/-- The keys with a sequence, each with it. -/
def keyTable (applicationCursor : Bool) : List (UInt16 × List UInt8) :=
  Scan.sequenceKeys.map fun scanCode => (scanCode, (mapped applicationCursor scanCode).getD [])

/-- The special keys have one of the tables. -/
theorem mapped_eq_some {scanCode : UInt16} (h : scanCode ∈ Scan.sequenceKeys)
    (applicationCursor : Bool) : ∃ sequence, mapped applicationCursor scanCode = some sequence ∧
      (scanCode, sequence) ∈ keyTable false ++ keyTable true := by
  have hevery : (Scan.sequenceKeys.all fun code =>
      decide (mapped applicationCursor code ≠ none)) = true := by
    cases applicationCursor <;> decide
  obtain ⟨sequence, hmapped⟩ := Option.ne_none_iff_exists'.mp
    (of_decide_eq_true (List.all_eq_true.mp hevery scanCode h))
  have hmem : (scanCode, sequence) ∈ keyTable applicationCursor :=
    List.mem_map.mpr ⟨scanCode, h, by rw [hmapped]; rfl⟩
  refine ⟨sequence, hmapped, ?_⟩
  cases applicationCursor with
  | false => exact List.mem_append_left _ hmem
  | true => exact List.mem_append_right _ hmem

/-- No sequence begins another one, in either mode. -/
theorem keyTable_apart : ∀ x ∈ keyTable false ++ keyTable true,
    ∀ y ∈ keyTable false ++ keyTable true, x.2 <+: y.2 → x = y := by
  decide +kernel

/-- All sequences begin with ESC. -/
theorem keyTable_escape : ∀ x ∈ keyTable false ++ keyTable true, x.2.head? = some 0x1b := by
  decide +kernel

/-- The sequences of the keys. -/
def keySequences : Set (List UInt8) :=
  { w | ∃ scanCode, (scanCode, w) ∈ keyTable false ++ keyTable true }

theorem keySequences_prefixFree : PrefixFree keySequences where
  nil_notMem := by
    rintro ⟨scanCode, hmem⟩
    cases keyTable_escape _ hmem
  eq_of_initial := by
    rintro w ⟨scanCode, hw⟩ w' ⟨scanCode', hw'⟩ hinitial
    exact congrArg Prod.snd (keyTable_apart _ hw _ hw' hinitial)

/-! ### The characters -/

/-- The bytes of a character, as numbers. -/
theorem characterBytes_toNat {c : UInt16} (h : c ≠ 0x08) :
    (characterBytes c).map UInt8.toNat =
      if c.toNat < 0x80 then [c.toNat]
      else if c.toNat < 0x800 then [c.toNat / 64 + 0xc0, c.toNat % 64 + 0x80]
      else [c.toNat / 4096 + 0xe0, c.toNat / 64 % 64 + 0x80, c.toNat % 64 + 0x80] := by
  have hsize := c.toNat_lt
  have hshift6 : (c >>> 6).toNat = c.toNat / 64 := by
    rw [UInt16.toNat_shiftRight]
    exact Nat.shiftRight_eq_div_pow c.toNat 6
  have hshift12 : (c >>> 12).toNat = c.toNat / 4096 := by
    rw [UInt16.toNat_shiftRight]
    exact Nat.shiftRight_eq_div_pow c.toNat 12
  have hbyte {n : Nat} (hn : n < 256) : (UInt8.ofNat n).toNat = n := by
    rw [UInt8.toNat_ofNat', Nat.mod_eq_of_lt hn]
  have htail (value : UInt16) : (((0x80 : UInt16) ||| (value &&& 0x3f)).toUInt8).toNat =
      value.toNat % 64 + 0x80 := by
    have hless : (value &&& 0x3f).toNat < 1 <<< 6 := by
      rw [toNat_and_63]
      exact Nat.mod_lt _ (by decide)
    have hsmall := Nat.mod_lt value.toNat (show 0 < 64 by decide)
    rw [toUInt8_or (show (0x80 : UInt16).toNat = 2 <<< 6 by decide) hless, toNat_and_63]
    exact hbyte (show value.toNat % 64 + 0x80 < 256 by omega)
  unfold characterBytes
  rw [if_neg h]
  by_cases hone : c.toNat < 0x80
  · rw [if_pos (UInt16.lt_iff_toNat_lt.mpr hone), if_pos hone, List.map_singleton,
      UInt16.toNat_toUInt8, Nat.mod_eq_of_lt (by omega)]
  rw [if_neg (fun h => hone (UInt16.lt_iff_toNat_lt.mp h)), if_neg hone]
  by_cases htwo : c.toNat < 0x800
  · have hlead : (((0xc0 : UInt16) ||| (c >>> 6)).toUInt8).toNat = c.toNat / 64 + 0xc0 := by
      rw [toUInt8_or (show (0xc0 : UInt16).toNat = 3 <<< 6 by decide) (by rw [hshift6]; omega),
        hshift6]
      exact hbyte (show c.toNat / 64 + 0xc0 < 256 by omega)
    rw [if_pos (UInt16.lt_iff_toNat_lt.mpr htwo), if_pos htwo]
    simp only [List.map_cons, List.map_nil, hlead, htail]
  · have hlead : (((0xe0 : UInt16) ||| (c >>> 12)).toUInt8).toNat = c.toNat / 4096 + 0xe0 := by
      rw [toUInt8_or (show (0xe0 : UInt16).toNat = 7 <<< 5 by decide) (by rw [hshift12]; omega),
        hshift12]
      exact hbyte (show c.toNat / 4096 + 0xe0 < 256 by omega)
    rw [if_neg (fun h => htwo (UInt16.lt_iff_toNat_lt.mp h)), if_neg htwo]
    simp only [List.map_cons, List.map_nil, hlead, htail, hshift6]

/-- No character begins another one. -/
theorem eq_of_initial_characterBytes {c c' : UInt16} (h : c ≠ 0x08) (h' : c' ≠ 0x08)
    (hinitial : characterBytes c <+: characterBytes c') : c = c' := by
  have hsize := c.toNat_lt
  have hsize' := c'.toNat_lt
  have hnumbers := hinitial.map UInt8.toNat
  rw [characterBytes_toNat h, characterBytes_toNat h'] at hnumbers
  apply UInt16.toNat_inj.mp
  split at hnumbers
  all_goals split at hnumbers
  all_goals try split at hnumbers
  all_goals try split at hnumbers
  all_goals
    simp only [List.cons_prefix_cons, List.nil_prefix, List.prefix_nil, and_true,
      reduceCtorEq, and_false] at hnumbers
  all_goals omega

/-- The encoded characters, but for ESC; Backspace is encoded as DEL. -/
def characterWords : Set (List UInt8) :=
  { w | ∃ c : UInt16, c ≠ 0x08 ∧ c ≠ 0x1b ∧ w = characterBytes c }

/-- No character begins another. -/
theorem characterWords_prefixFree : PrefixFree characterWords where
  nil_notMem := by
    rintro ⟨c, -, -, hnil⟩
    have hlength := (characterBytes_length c).1
    rw [← hnil] at hlength
    exact absurd hlength (Nat.lt_irrefl 0)
  eq_of_initial := by
    rintro w ⟨c, hc, -, rfl⟩ w' ⟨c', hc', -, rfl⟩ hinitial
    rw [eq_of_initial_characterBytes hc hc' hinitial]

/-- A character but ESC does not begin with it. -/
theorem head_characterBytes {c : UInt16} (h : c ≠ 0x08) (hescape : c ≠ 0x1b) :
    (characterBytes c).head? ≠ some 0x1b := by
  intro hhead
  have hnumber : ((characterBytes c).map UInt8.toNat).head? = some 0x1b := by
    rw [List.head?_map, hhead]
    rfl
  have hdifferent : c.toNat ≠ 0x1b := fun hsame => hescape (UInt16.toNat_inj.mp hsame)
  rw [characterBytes_toNat h] at hnumber
  repeat' split at hnumber
  all_goals
    have hfirst := Option.some.inj hnumber
    omega

/-! ### Keystrokes -/

/-- The words of the keyboard. -/
def keyWords : Set (List UInt8) := keySequences ∪ characterWords

/-- So no key begins another. -/
theorem keyWords_prefixFree : PrefixFree keyWords :=
  keySequences_prefixFree.union characterWords_prefixFree (by
    rintro w ⟨scanCode, hw⟩ w' ⟨c, hc, hescape, rfl⟩ hsame
    exact head_characterBytes hc hescape (hsame.symm.trans (keyTable_escape _ hw)))

/-- What a word stands for. -/
inductive Denotes : List UInt8 → KeySymbol → Prop
  | key {scanCode : UInt16} {sequence : List UInt8}
      (hmem : (scanCode, sequence) ∈ keyTable false ++ keyTable true) :
      Denotes sequence (.key scanCode)
  | character {c : UInt16} (hc : c ≠ 0x08) (hescape : c ≠ 0x1b) :
      Denotes (characterBytes c) (.character c)

/-- The bytes of a key tell the key. -/
theorem denotes_unique : Relator.RightUnique Denotes := by
  intro w x y hx hy
  cases hx with
  | @key scanCode w hmem =>
      generalize hw : w = v at hy
      cases hy with
      | key hmem' =>
          subst hw
          have hsame := keyTable_apart _ hmem _ hmem' (List.prefix_refl _)
          exact congrArg (fun x : UInt16 × List UInt8 => KeySymbol.key x.1) hsame
      | character hc hescape =>
          have hhead := keyTable_escape _ hmem
          rw [hw] at hhead
          exact absurd hhead (head_characterBytes hc hescape)
  | @character c hc hescape =>
      generalize hw : characterBytes c = v at hy
      cases hy with
      | key hmem' =>
          have hhead := keyTable_escape _ hmem'
          rw [← hw] at hhead
          exact absurd hhead (head_characterBytes hc hescape)
      | @character c' hc' hescape' =>
          rw [eq_of_initial_characterBytes hc hc' (hw ▸ List.prefix_refl _)]

/-- **A keystroke hands over the word of its symbol, or nothing.** -/
theorem handed_writes {press : Bool × InputKey} (h : ¬ press.2.IsEscapeChar) :
    Writes keyWords Denotes handed (fun press : Bool × InputKey => press.2.symbol?) press := by
  obtain ⟨applicationCursor, key⟩ := press
  have hsuccess : ¬ EfiError efiSuccess := by decide
  unfold InputKey.IsEscapeChar InputKey.symbol? at h
  unfold Writes handed readKey
  simp only [if_neg hsuccess, InputKey.symbol?]
  by_cases hexit : key.unicodeChar = 0x1d
  · left
    rw [if_pos hexit, if_pos hexit]
    exact ⟨rfl, rfl⟩
  simp only [if_neg hexit] at h ⊢
  by_cases hcode : key.scanCode ∈ Scan.sequenceKeys
  · right
    obtain ⟨sequence, hmapped, hmem⟩ := mapped_eq_some hcode applicationCursor
    have hfits : sequence.length ≤ 16 := Nat.le_trans (mapped_length hmapped).2 (by decide)
    rw [hmapped, if_pos hcode]
    simp only [copyKeySequence, storeKey_fits hfits]
    exact ⟨.inl ⟨key.scanCode, hmem⟩, _, rfl, .key hmem⟩
  rw [mapped_eq_none hcode]
  simp only [if_neg hcode] at h ⊢
  by_cases hnone : key.unicodeChar = 0
  · left
    rw [if_pos hnone, if_pos hnone]
    exact ⟨rfl, rfl⟩
  right
  have hroom : ¬ 16 < 1 := by decide
  have hfits : (characterBytes key.unicodeChar).length ≤ 16 :=
    Nat.le_trans (characterBytes_length key.unicodeChar).2 (by decide)
  simp only [if_neg hnone, if_neg hroom, storeKey_fits hfits] at h ⊢
  by_cases hbackspace : key.unicodeChar = 0x08
  · rw [hbackspace]
    exact ⟨.inr ⟨0x7f, by decide, by decide, rfl⟩, _, rfl,
      .character (c := 0x7f) (by decide) (by decide)⟩
  · simp only [if_neg hbackspace, Option.some.injEq, KeySymbol.character.injEq] at h ⊢
    exact ⟨.inr ⟨_, hbackspace, h, rfl⟩, _, rfl, .character hbackspace h⟩

/-- **The bytes tell what was pressed.**  Two sequences of keystrokes, in any cursor modes and
without the character ESC, that give the session the same bytes are the same symbols in the
same order. -/
theorem keys_decodable {presses presses' : List (Bool × InputKey)}
    (h : ∀ press ∈ presses, ¬ press.2.IsEscapeChar)
    (h' : ∀ press ∈ presses', ¬ press.2.IsEscapeChar)
    (hsame : presses.flatMap handed = presses'.flatMap handed) :
    presses.filterMap (fun press => press.2.symbol?) =
      presses'.filterMap fun press => press.2.symbol? :=
  meanings_eq keyWords_prefixFree.uniquelyDecodable denotes_unique
    (fun press hpress => handed_writes (h press hpress))
    (fun press hpress => handed_writes (h' press hpress)) hsame

/-- Backspace and Up, and DEL and Up with a character. -/
theorem keys_decodable_up :
    [(false, (⟨0, 0x08⟩ : InputKey)), (true, ⟨Scan.up, 0⟩)].filterMap
        (fun press => press.2.symbol?) =
      [(false, (⟨0, 0x7f⟩ : InputKey)), (true, ⟨Scan.up, 0x78⟩)].filterMap
        fun press => press.2.symbol? :=
  keys_decodable (by simp [InputKey.IsEscapeChar, InputKey.symbol?, Scan.up]; decide)
    (by simp [InputKey.IsEscapeChar, InputKey.symbol?]; decide) (by decide)

/-- The character ESC and two more are the sequence of Up. -/
example : [(false, (⟨0, 0x1b⟩ : InputKey)), (false, ⟨0, 0x5b⟩), (false, ⟨0, 0x41⟩)].flatMap handed =
    [(false, (⟨Scan.up, 0⟩ : InputKey))].flatMap handed := by decide

end WolfSshUefi
