import WolfSshUefi.Session.Keys
import WolfSshUefi.Terminal.Typing

/-!
# Characters come back

What `WolfSshTerminalReadKey` encodes the terminal decodes: the bytes of
characters that were typed, fed to an idle terminal in any pieces, print these
characters and nothing else (`typed_text_prints`).
-/

namespace WolfSshUefi

/-- A keystroke with a character of the basic plane that is no control character of
ASCII. -/
def InputKey.IsCharacter (key : InputKey) : Prop :=
  key.scanCode = 0 ∧ (0x20 ≤ key.unicodeChar ∧ key.unicodeChar ≤ 0x7e ∨ 0x80 ≤ key.unicodeChar) ∧
    ¬ (0xd800 ≤ key.unicodeChar ∧ key.unicodeChar ≤ 0xdfff)

instance (key : InputKey) : Decidable key.IsCharacter := by
  unfold InputKey.IsCharacter; infer_instance

/-- The characters of keystrokes. -/
def typedCharacters (presses : List (Bool × InputKey)) : List Nat :=
  presses.map fun press => press.2.unicodeChar.toNat

/-- The bytes of keystrokes, each in its cursor mode. -/
def typedText (capacity : Nat) (presses : List (Bool × InputKey)) : List UInt8 :=
  presses.flatMap fun press => (readKey press.1 capacity ⟨efiSuccess, press.2⟩).bytes

/-- The bytes put the characters on the screen, one after the other, and nothing else;
fed in any pieces, they leave the parser idle. -/
structure Terminal.Prints (t : Terminal) (data : List UInt8) (characters : List Nat) : Prop where
  decoded : t.parser.commands data = characters.map .print
  shown : ∀ chunks : List (List UInt8), chunks.flatten = data →
    ∃ (u : Terminal) (p : Parser), characters.foldlM Terminal.putCharacter t = .ok u ∧
      p.Idle ∧ t.run (chunks.map .feed) = .ok (u.withParser p)

/-! ### The encoder -/

/-- A tag in the high bits of a byte. -/
theorem toUInt8_or {tag value : UInt16} {high bits : Nat} (htag : tag.toNat = high <<< bits)
    (hvalue : value.toNat < 1 <<< bits) :
    (tag ||| value).toUInt8 = UInt8.ofNat (value.toNat + tag.toNat) := by
  apply UInt8.toNat.inj
  rw [UInt16.toNat_toUInt8, UInt16.toNat_or, htag, UInt8.toNat_ofNat',
    ← Nat.shiftLeft_add_eq_or_of_lt (by rwa [Nat.one_shiftLeft] at hvalue), Nat.add_comm]

/-- The last six bits. -/
theorem toNat_and_63 (value : UInt16) : (value &&& 0x3f).toNat = value.toNat % 64 := by
  rw [UInt16.toNat_and]
  exact Nat.and_two_pow_sub_one_eq_mod value.toNat 6

/-- The bytes of a character are its encoding in UTF-8. -/
theorem characterBytes_utf8 {unicodeChar : UInt16} {c : Char} (hc : c.toNat = unicodeChar.toNat)
    (hprintable : unicodeChar ≠ 0x08) : characterBytes unicodeChar = String.utf8EncodeChar c := by
  have hval : c.val.toNat = unicodeChar.toNat := hc
  have hsize : unicodeChar.toNat < 0x10000 := unicodeChar.toNat_lt
  have hshift6 : (unicodeChar >>> 6).toNat = unicodeChar.toNat / 64 := by
    rw [UInt16.toNat_shiftRight]
    exact Nat.shiftRight_eq_div_pow unicodeChar.toNat 6
  have hshift12 : (unicodeChar >>> 12).toNat = unicodeChar.toNat / 4096 := by
    rw [UInt16.toNat_shiftRight]
    exact Nat.shiftRight_eq_div_pow unicodeChar.toNat 12
  have htail (value : UInt16) : ((0x80 : UInt16) ||| (value &&& 0x3f)).toUInt8 =
      UInt8.ofNat (value.toNat % 64 + 0x80) := by
    have hless : (value &&& 0x3f).toNat < 1 <<< 6 := by
      rw [toNat_and_63]
      exact Nat.mod_lt _ (by decide)
    rw [toUInt8_or (show (0x80 : UInt16).toNat = 2 <<< 6 by decide) hless, toNat_and_63]
    rfl
  unfold characterBytes String.utf8EncodeChar
  simp only [hval]
  rw [if_neg hprintable]
  by_cases hone : unicodeChar.toNat < 0x80
  · rw [if_pos (UInt16.lt_iff_toNat_lt.mpr hone),
      if_pos (show unicodeChar.toNat ≤ 0x7f by omega)]
    rfl
  rw [if_neg (fun h => hone (UInt16.lt_iff_toNat_lt.mp h)),
    if_neg (show ¬ unicodeChar.toNat ≤ 0x7f by omega)]
  by_cases htwo : unicodeChar.toNat < 0x800
  · have hlead : (unicodeChar >>> 6).toNat < 1 <<< 6 := by
      rw [hshift6]
      omega
    have hfits : unicodeChar.toNat / 64 % 32 = unicodeChar.toNat / 64 := by omega
    rw [if_pos (UInt16.lt_iff_toNat_lt.mpr htwo),
      if_pos (show unicodeChar.toNat ≤ 0x7ff by omega),
      toUInt8_or (show (0xc0 : UInt16).toNat = 3 <<< 6 by decide) hlead, htail, hshift6, hfits]
    rfl
  · have hlead : (unicodeChar >>> 12).toNat < 1 <<< 5 := by
      rw [hshift12]
      omega
    have hfits : unicodeChar.toNat / 4096 % 16 = unicodeChar.toNat / 4096 := by omega
    rw [if_neg (fun h => htwo (UInt16.lt_iff_toNat_lt.mp h)),
      if_neg (show ¬ unicodeChar.toNat ≤ 0x7ff by omega),
      if_pos (show unicodeChar.toNat ≤ 0xffff by omega),
      toUInt8_or (show (0xe0 : UInt16).toNat = 7 <<< 5 by decide) hlead, htail, htail, hshift6,
      hshift12, hfits]
    rfl

/-! ### Keystrokes -/

/-- The character of a keystroke. -/
theorem InputKey.IsCharacter.exists_char {key : InputKey} (h : key.IsCharacter) :
    ∃ c : Char, c.toNat = key.unicodeChar.toNat ∧ Plain c := by
  obtain ⟨-, hrange, hsurrogate⟩ := h
  have hsize : key.unicodeChar.toNat < 0x10000 := key.unicodeChar.toNat_lt
  simp only [UInt16.le_iff_toNat_le] at hrange hsurrogate
  change 0x20 ≤ key.unicodeChar.toNat ∧ key.unicodeChar.toNat ≤ 0x7e ∨
    0x80 ≤ key.unicodeChar.toNat at hrange
  change ¬ (0xd800 ≤ key.unicodeChar.toNat ∧ key.unicodeChar.toNat ≤ 0xdfff) at hsurrogate
  have hvalid : key.unicodeChar.toUInt32.isValidChar := by
    show key.unicodeChar.toUInt32.toNat < 0xd800 ∨ _
    rw [UInt16.toNat_toUInt32]
    omega
  have hnat : (⟨key.unicodeChar.toUInt32, hvalid⟩ : Char).toNat = key.unicodeChar.toNat :=
    UInt16.toNat_toUInt32 key.unicodeChar
  refine ⟨⟨key.unicodeChar.toUInt32, hvalid⟩, hnat, ?_⟩
  unfold Plain
  rw [hnat]
  omega

/-- A character is stored as its bytes. -/
theorem InputKey.IsCharacter.readKey_bytes {key : InputKey} (h : key.IsCharacter)
    (applicationCursor : Bool) {capacity : Nat} (hcapacity : 3 ≤ capacity) {c : Char}
    (hc : c.toNat = key.unicodeChar.toNat) (hplain : Plain c) :
    (readKey applicationCursor capacity ⟨efiSuccess, key⟩).bytes = String.utf8EncodeChar c := by
  have hother (code : UInt16) (hcode : code.toNat < 0x20) : key.unicodeChar ≠ code := by
    intro heq
    have hlow := hplain.1
    rw [hc, heq] at hlow
    omega
  have hsuccess : ¬ EfiError efiSuccess := by decide
  have hunmapped : mapped applicationCursor key.scanCode = none := by
    rw [h.1]
    cases applicationCursor <;> decide
  have hroom : ¬ capacity < 1 := by omega
  have hlength : ¬ capacity < (characterBytes key.unicodeChar).length := by
    unfold characterBytes
    split
    · simp
      omega
    split
    · simp
      omega
    split <;> simp <;> omega
  unfold readKey
  simp only [hunmapped, if_neg hsuccess, if_neg (hother 0x1d (by decide)),
    if_neg (hother 0 (by decide)), if_neg hroom, storeKey, if_neg hlength]
  exact characterBytes_utf8 hc (hother 0x08 (by decide))

/-- Characters typed are an encoded text. -/
theorem typedText_encoded {capacity : Nat} (hcapacity : 3 ≤ capacity)
    {presses : List (Bool × InputKey)} (h : ∀ press ∈ presses, press.2.IsCharacter) :
    ∃ text : List Char, (∀ c ∈ text, Plain c) ∧ text.map Char.toNat = typedCharacters presses ∧
      typedText capacity presses = encoded text := by
  induction presses with
  | nil => exact ⟨[], by simp, rfl, rfl⟩
  | cons press rest ih =>
      obtain ⟨text, hplain, hcharacters, hbytes⟩ :=
        ih fun p hp => h p (List.mem_cons_of_mem press hp)
      have hkey := h press List.mem_cons_self
      obtain ⟨c, hc, hfirst⟩ := hkey.exists_char
      refine ⟨c :: text, ?_, ?_, ?_⟩
      · intro c' hc'
        obtain rfl | htail := List.mem_cons.mp hc'
        · exact hfirst
        · exact hplain c' htail
      · rw [List.map_cons, hcharacters, hc]
        rfl
      · rw [typedText, List.flatMap_cons, hkey.readKey_bytes press.1 hcapacity hc hfirst]
        exact congrArg (String.utf8EncodeChar c ++ ·) hbytes

namespace Terminal

open Screen

variable {t : Terminal}

/-- `PutCharacter` for one character after the other. -/
theorem foldlM_putCharacter (ht : t.WellFormed) {characters : List Nat}
    (h : ∀ c ∈ characters, c ≠ 0 ∧ c ≤ 0xffff) :
    characters.foldlM putCharacter t = .ok (execAll t (characters.map .print)) := by
  induction characters generalizing t with
  | nil => rfl
  | cons c rest ih =>
      have hfirst := h c List.mem_cons_self
      rw [List.foldlM_cons, ht.putCharacter_eq hfirst, List.map_cons, execAll_cons]
      exact ih (ht.exec (c := .print c) hfirst) fun c' hc' => h c' (List.mem_cons_of_mem c hc')

/-- **Characters come back**: what the keyboard encodes the terminal decodes. -/
theorem typed_text_prints (h : Reachable t) (hidle : t.parser.Idle) {capacity : Nat}
    (hcapacity : 3 ≤ capacity) {presses : List (Bool × InputKey)}
    (hpresses : ∀ press ∈ presses, press.2.IsCharacter) :
    t.Prints (typedText capacity presses) (typedCharacters presses) := by
  obtain ⟨text, hplain, hcharacters, hbytes⟩ := typedText_encoded hcapacity hpresses
  obtain ⟨hdecoded, hend⟩ := hidle.read_encoded hplain
  have hcommands : t.parser.commands (typedText capacity presses) =
      (typedCharacters presses).map .print := by
    rw [hbytes, hdecoded, ← hcharacters, List.map_map]
    rfl
  refine ⟨hcommands, ?_⟩
  intro chunks hchunks
  have hrange : ∀ c ∈ typedCharacters presses, c ≠ 0 ∧ c ≤ 0xffff := by
    intro c hc
    rw [← hcharacters] at hc
    obtain ⟨character, hmem, rfl⟩ := List.mem_map.mp hc
    obtain ⟨hlow, -, hhigh⟩ := hplain character hmem
    exact ⟨by omega, hhigh⟩
  refine ⟨_, t.parser.after (typedText capacity presses),
    foldlM_putCharacter h.wellFormed hrange, hbytes ▸ hend, ?_⟩
  rw [h.wellFormed.run_feeds, hchunks, feed_eq_execAll, hcommands]

/-- An `a` and the Euro sign, the latter in application cursor mode. -/
theorem typed_text_prints_euro :
    (Firmware.ample 2 1 7).fresh.Prints
      (typedText 16 [(false, ⟨0, 0x61⟩), (true, ⟨0, 0x20ac⟩)]) [0x61, 0x20ac] :=
  typed_text_prints (created_ample 2 1 7).reachable ⟨rfl, rfl⟩ (by decide)
    (show ∀ press ∈ [(false, (⟨0, 0x61⟩ : InputKey)), (true, ⟨0, 0x20ac⟩)], press.2.IsCharacter by
      simp [InputKey.IsCharacter])

end Terminal

end WolfSshUefi
