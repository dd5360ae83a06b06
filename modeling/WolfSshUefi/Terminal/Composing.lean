import WolfSshUefi.Terminal.Palette
import WolfSshUefi.Terminal.Saturation

/-!
# Rendition lists compose

A rendition list is read item by item, each with all of its operands, so one
sequence with the items of a list and one sequence for each of them do the same
(`renditions_compose`).
-/

namespace WolfSshUefi

/-- An item in digits, one field for each of its codes; an omitted code is 0. -/
structure WrittenItem where
  item : Item
  fields : List (List UInt8)
  decimal : ∀ field ∈ fields, ∀ b ∈ field, DigitByte b
  codes : fields.map number = item.codes

namespace WrittenItem

/-- The fields of a list of items. -/
def allFields (items : List WrittenItem) : List (List UInt8) := items.flatMap fields

/-- One `CSI m` for all items. -/
def together (items : List WrittenItem) : List UInt8 :=
  Terminal.numberedSequence false (allFields items) 0x6d

/-- One `CSI m` for each item. -/
def oneByOne (items : List WrittenItem) : List UInt8 := items.flatMap fun item => together [item]

/-- The changes of colours that the items stand for. -/
def allChanges (items : List WrittenItem) : List Rendition :=
  items.flatMap fun written => written.item.changes

/-- An item is written in one field at least. -/
theorem fields_ne_nil (written : WrittenItem) : written.fields ≠ [] := by
  intro hnil
  have hcodes := written.codes
  rw [hnil] at hcodes
  cases hitem : written.item <;> rw [hitem] at hcodes <;> cases hcodes

/-- All fields are of digits. -/
theorem decimal_allFields (items : List WrittenItem) :
    ∀ field ∈ allFields items, ∀ b ∈ field, DigitByte b := by
  intro field hfield
  obtain ⟨written, _, hmem⟩ := List.mem_flatMap.mp hfield
  exact written.decimal field hmem

/-- Their numbers are the codes of the items. -/
theorem codes_allFields (items : List WrittenItem) :
    (allFields items).map number = (items.map item).flatMap Item.codes := by
  induction items with
  | nil => rfl
  | cons written rest ih =>
      rw [allFields, List.flatMap_cons, List.map_append, List.map_cons, List.flatMap_cons,
        written.codes, ← ih]
      rfl

end WrittenItem

/-- A byte that does not end an operating system command. -/
def Carried (byte : UInt8) : Prop := byte ≠ 0x07 ∧ byte ≠ 0x5c

/-- One sequence has no byte that would break it. -/
theorem carried_together (items : List WrittenItem) :
    ∀ b ∈ WrittenItem.together items, Carried b := by
  intro b hb
  have hbody := bodyByte_parameterPart false
    (parameterByte_of_digits (WrittenItem.decimal_allFields items))
  obtain rfl | hb := List.mem_cons.mp hb
  · exact ⟨by decide, by decide⟩
  obtain rfl | hb := List.mem_cons.mp hb
  · exact ⟨by decide, by decide⟩
  obtain hb | hb := List.mem_append.mp hb
  · obtain ⟨hlow, hhigh⟩ := hbody b hb
    constructor
    · intro heq
      exact absurd (heq ▸ hlow) (by decide)
    · intro heq
      exact absurd (heq ▸ hhigh) (by decide)
  · obtain rfl := List.mem_singleton.mp hb
    exact ⟨by decide, by decide⟩

theorem carried_oneByOne (items : List WrittenItem) :
    ∀ b ∈ WrittenItem.oneByOne items, Carried b := by
  intro b hb
  obtain ⟨item, -, hmem⟩ := List.mem_flatMap.mp hb
  exact carried_together [item] b hmem

/-- In an operating system command such bytes are skipped. -/
theorem Parser.commands_carried {p : Parser} (hdeaf : ¬ p.Listening) {data : List UInt8}
    (hdata : ∀ b ∈ data, Carried b) : p.commands data = [] := by
  induction data generalizing p with
  | nil => rfl
  | cons byte rest ih =>
      obtain ⟨hbell, hslash⟩ := hdata byte List.mem_cons_self
      have hstate : p.state = .osc ∨ p.state = .oscEscape := by
        unfold Parser.Listening at hdeaf
        by_cases hosc : p.state = .osc
        · exact .inl hosc
        · exact .inr (by simpa [hosc] using hdeaf)
      have hnext : (p.next byte).2 = [] ∧ ¬ (p.next byte).1.Listening := by
        by_cases hescape : byte = 0x1b
        · rcases hstate with hosc | hosc <;> simp [Parser.next, Parser.Listening, hosc, hescape]
        · rcases hstate with hosc | hosc <;>
            simp [Parser.next, Parser.Listening, hosc, hescape, hbell, hslash]
      rw [Parser.commands_cons, hnext.1,
        ih hnext.2 fun b hb => hdata b (List.mem_cons_of_mem byte hb)]
      rfl

/-- A parameter acts as the number written, an omitted one as 0. -/
theorem toNat_exactParameter (digits : List UInt8) :
    (exactParameter digits).toNat = number digits := by
  unfold exactParameter
  split
  · next hnil =>
      rw [hnil]
      rfl
  · rfl

namespace Terminal

open Screen WrittenItem

variable {t u v : Terminal}

/-- One sequence makes the changes of its items, one after the other. -/
theorem feed_together (ht : t.WellFormed) (hlisten : t.parser.Listening)
    {items : List WrittenItem} (hsome : items ≠ []) (hcount : (allFields items).length ≤ 16) :
    ∃ p : Parser, p.state = .ground ∧ t.feed (together items) =
      .ok (((allChanges items).foldl setRendition (cancelWrap t)).withParser p) := by
  have hfields : allFields items ≠ [] := by
    obtain ⟨first, rest, rfl⟩ := List.exists_cons_of_ne_nil hsome
    exact List.append_ne_nil_of_left_ne_nil first.fields_ne_nil _
  obtain ⟨p, hground, hfeed⟩ := feed_numberedSequence ht hlisten false hfields hcount
    (decimal_allFields items) (show FinalByte 0x6d by decide)
  have hcodes : ((allFields items).map exactParameter).map Int.toNat =
      (items.map item).flatMap Item.codes := by
    rw [← codes_allFields, List.map_map]
    exact List.map_congr_left fun digits _ => toNat_exactParameter digits
  have hchanges : renditions (((allFields items).map exactParameter).map Int.toNat) =
      allChanges items := by
    rw [hcodes, renditions_items, List.flatMap_map]
    rfl
  have haction : csiCommands (csiFinal 0x6d) false ((allFields items).map exactParameter) =
      .cancelWrap :: (allChanges items).map .rendition := by
    rw [← hchanges]
    rfl
  rw [haction, execAll_cons, execAll, List.foldl_map] at hfeed
  exact ⟨p, hground, hfeed⟩

/-- Colours do not depend on a pending wrap. -/
theorem foldl_setRendition_cancelWrap (t : Terminal) (changes : List Rendition) :
    changes.foldl setRendition (cancelWrap t) = cancelWrap (changes.foldl setRendition t) := by
  induction changes generalizing t with
  | nil => rfl
  | cons change rest ih =>
      have hstep : setRendition (cancelWrap t) change = cancelWrap (setRendition t change) := by
        cases change <;> rfl
      rw [List.foldl_cons, hstep, ih]
      rfl

theorem foldl_setRendition_withParser (t : Terminal) (p : Parser) (changes : List Rendition) :
    changes.foldl setRendition (t.withParser p) =
      (changes.foldl setRendition t).withParser p := by
  induction changes generalizing t with
  | nil => rfl
  | cons change rest ih =>
      have hstep : setRendition (t.withParser p) change =
          (setRendition t change).withParser p := by
        cases change <;> rfl
      rw [List.foldl_cons, hstep, ih]
      rfl

/-- One sequence after the other makes the changes of all items, but for the
parser and a wrap that was pending. -/
theorem feed_oneByOne (ht : t.WellFormed) (hlisten : t.parser.Listening)
    (items : List WrittenItem) (hcount : (allFields items).length ≤ 16) :
    ∃ (v : Terminal) (p : Parser), t.feed (oneByOne items) = .ok v ∧
      cancelWrap v = cancelWrap (((allChanges items).foldl setRendition t).withParser p) := by
  induction items generalizing t with
  | nil => exact ⟨t, t.parser, rfl, rfl⟩
  | cons written rest ih =>
      have hlength : (allFields (written :: rest)).length =
          (allFields [written]).length + (allFields rest).length := by
        simp only [allFields, List.flatMap_cons, List.flatMap_nil, List.append_nil,
          List.length_append]
      obtain ⟨p, hground, hfirst⟩ := feed_together ht hlisten (List.cons_ne_nil written [])
        (by omega)
      obtain ⟨w, hw⟩ : ∃ w : Terminal, w =
        ((allChanges [written]).foldl setRendition (cancelWrap t)).withParser p := ⟨_, rfl⟩
      rw [← hw] at hfirst
      have hstate : Screen.feed t (together [written]) = w :=
        Except.ok.inj ((ht.feed_eq _).symm.trans hfirst)
      have hwell : w.WellFormed := hstate ▸ ht.feed (together [written])
      have hnow : w.parser.Listening := .of_ground (hw ▸ hground)
      obtain ⟨v, q, hrest, hsame⟩ := ih hwell hnow (by omega)
      refine ⟨v, q, ?_, ?_⟩
      · have happend : oneByOne (written :: rest) = together [written] ++ oneByOne rest := rfl
        rw [ht.feed_eq, happend, Screen.feed_append, hstate, ← hwell.feed_eq, hrest]
      · have hchanges : allChanges (written :: rest) = allChanges [written] ++ allChanges rest := by
          simp only [allChanges, List.flatMap_cons, List.flatMap_nil, List.append_nil]
        rw [hsame, hw, hchanges, List.foldl_append, foldl_setRendition_withParser,
          foldl_setRendition_cancelWrap, foldl_setRendition_cancelWrap]
        rfl

theorem sameColours_cancelWrap (t u : Terminal) :
    SameColours (cancelWrap t) (cancelWrap u) ↔ SameColours t u :=
  ⟨fun ⟨hf, hb, hbold, hreverse, hattr⟩ => ⟨hf, hb, hbold, hreverse, hattr⟩,
    fun ⟨hf, hb, hbold, hreverse, hattr⟩ => ⟨hf, hb, hbold, hreverse, hattr⟩⟩

/-- In an operating system command nothing changes but the parser. -/
theorem feed_carried (ht : t.WellFormed) (hdeaf : ¬ t.parser.Listening) {data : List UInt8}
    (hdata : ∀ b ∈ data, Carried b) : ∃ p : Parser, t.feed data = .ok (t.withParser p) := by
  refine ⟨t.parser.after data, ?_⟩
  rw [ht.feed_eq, feed_eq_execAll, Parser.commands_carried hdeaf hdata]
  rfl

/-- **Rendition lists compose**: one sequence with all items leaves the colours
that one sequence for each of them leaves.  Where it is not part of an operating
system command these are the changes of the items, each with its own operands. -/
theorem renditions_compose (h : Reachable t) (first : WrittenItem) (rest : List WrittenItem)
    (hcount : (allFields (first :: rest)).length ≤ 16) :
    ∃ u v, t.feed (together (first :: rest)) = .ok u ∧
      t.feed (oneByOne (first :: rest)) = .ok v ∧ SameColours u v ∧
        (t.parser.Listening →
          SameColours u ((allChanges (first :: rest)).foldl setRendition t)) := by
  by_cases hlisten : t.parser.Listening
  · obtain ⟨p, -, htogether⟩ := feed_together h.wellFormed hlisten
      (List.cons_ne_nil first rest) hcount
    obtain ⟨v, q, hone, hsame⟩ := feed_oneByOne h.wellFormed hlisten (first :: rest) hcount
    obtain ⟨w, hw⟩ : ∃ w : Terminal, w = (allChanges (first :: rest)).foldl setRendition t :=
      ⟨_, rfl⟩
    rw [foldl_setRendition_cancelWrap, ← hw] at htogether
    rw [← hw] at hsame
    have hcolours : SameColours ((cancelWrap w).withParser p) w :=
      (sameColours_cancelWrap _ _).mp ⟨rfl, rfl, rfl, rfl, rfl⟩
    refine ⟨_, v, htogether, hone, ?_, fun _ => hw ▸ hcolours⟩
    rw [← sameColours_cancelWrap, hsame]
    exact ⟨rfl, rfl, rfl, rfl, rfl⟩
  · obtain ⟨p, htogether⟩ := feed_carried h.wellFormed hlisten (carried_together (first :: rest))
    obtain ⟨q, hone⟩ := feed_carried h.wellFormed hlisten (carried_oneByOne (first :: rest))
    exact ⟨_, _, htogether, hone, ⟨rfl, rfl, rfl, rfl, rfl⟩, fun hnow => absurd hnow hlisten⟩

/-- `38;5;7` and `48;2;31;42;7`, whose operands are codes as well. -/
theorem renditions_compose_operands :
    ∃ u v,
      (Firmware.ample 2 1 7).fresh.feed (controlSequence
        [0x33, 0x38, 0x3b, 0x35, 0x3b, 0x37, 0x3b,
          0x34, 0x38, 0x3b, 0x32, 0x3b, 0x33, 0x31, 0x3b, 0x34, 0x32, 0x3b, 0x37] 0x6d) = .ok u ∧
      (Firmware.ample 2 1 7).fresh.feed
        (controlSequence [0x33, 0x38, 0x3b, 0x35, 0x3b, 0x37] 0x6d ++
          controlSequence [0x34, 0x38, 0x3b, 0x32, 0x3b, 0x33, 0x31, 0x3b, 0x34, 0x32, 0x3b, 0x37]
            0x6d) = .ok v ∧
      SameColours u v ∧ u.reverse = false := by
  have hdecimal : ∀ field ∈ [[0x33, 0x38], [0x35], [0x37]], ∀ b ∈ field, DigitByte b := by
    simp [DigitByte]
  have hdecimal' : ∀ field ∈ [[0x34, 0x38], [0x32], [0x33, 0x31], [0x34, 0x32], [0x37]],
      ∀ b ∈ field, DigitByte b := by
    simp [DigitByte]
  obtain ⟨u, v, htogether, hone, hsame, hchanges⟩ :=
    renditions_compose (created_ample 2 1 7).reachable
      ⟨.palette .foreground 7, _, hdecimal, by decide⟩
      [⟨.direct .background 31 42 7, _, hdecimal', by decide⟩] (show 8 ≤ 16 by decide)
  exact ⟨u, v, htogether, hone, hsame, (hchanges (by decide)).reverse⟩

end Terminal

end WolfSshUefi
