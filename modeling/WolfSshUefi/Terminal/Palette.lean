import WolfSshUefi.Terminal.Streams

/-!
# Three encodings of a colour

A rendition list can name one of the eight ANSI colours by a code of its own, by
an entry of the palette, or by its three components.  In an ANSI number red is
the low bit and blue the high one; in an EFI number it is the other way round.
Only the components are translated, so the encodings agree on the colours whose
red and blue are alike, and where a later item of the list sets the same colour
again (`encodings_agree_iff`).
-/

namespace WolfSshUefi

/-- The colour of the characters, or the colour behind them. -/
inductive Ground
  | foreground | background
  deriving DecidableEq, Repr

namespace Ground

def get : Ground → Terminal → Nat
  | .foreground, t => t.foreground
  | .background, t => t.background

def set : Ground → Nat → Rendition
  | .foreground, color => .foreground color
  | .background, color => .background color

/-- The code of ANSI colour 0. -/
def basic : Ground → Nat
  | .foreground => 30
  | .background => 40

/-- The code that starts the other encodings. -/
def selector : Ground → Nat
  | .foreground => 38
  | .background => 48

end Ground

/-- A complete item of a rendition list. -/
inductive Item
  | simple (code : Nat) (plain : code ≠ 38 ∧ code ≠ 48)
  | palette (ground : Ground) (color : Nat)
  | direct (ground : Ground) (red green blue : Nat)

namespace Item

def codes : Item → List Nat
  | .simple code _ => [code]
  | .palette ground color => [ground.selector, 5, color]
  | .direct ground red green blue => [ground.selector, 2, red, green, blue]

def changes : Item → List Rendition
  | .simple code _ => simpleRendition code
  | .palette ground color => [ground.set (map256Color color)]
  | .direct ground red green blue => [ground.set (mapRgbColor red green blue)]

end Item

/-- The change sets the ground, to a colour or to its default. -/
def Rendition.Sets (g : Ground) : Rendition → Prop
  | .reset => True
  | .foreground _ | .defaultForeground => g = .foreground
  | .background _ | .defaultBackground => g = .background
  | .bold _ | .reverse _ => False

/-- One of the items sets the ground again. -/
def Overridden (g : Ground) (items : List Item) : Prop :=
  ∃ item ∈ items, ∃ change ∈ item.changes, change.Sets g

/-- How a basic colour can be named beside its components. -/
inductive Encoding
  | basic | palette
  deriving DecidableEq, Repr

/-- The item that names ANSI colour `k`. -/
def Encoding.item (g : Ground) (k : Fin 8) : Encoding → Item
  | .basic => .simple (g.basic + k) (by cases g <;> simp only [Ground.basic] <;> omega)
  | .palette => .palette g k

/-- A component of ANSI colour `k`. -/
def component (k : Fin 8) (bit : Nat) : Nat := if k.val.testBit bit then 128 else 0

/-- The components of ANSI colour `k`. -/
def directItem (g : Ground) (k : Fin 8) : Item :=
  .direct g (component k 0) (component k 1) (component k 2)

/-- The EFI colour has the components of ANSI colour `k`. -/
def Shows (k : Fin 8) (color : Nat) : Prop :=
  color.testBit 2 = k.val.testBit 0 ∧ color.testBit 1 = k.val.testBit 1 ∧
    color.testBit 0 = k.val.testBit 2

instance (k : Fin 8) (color : Nat) : Decidable (Shows k color) := by
  unfold Shows; infer_instance

/-- The same colours for the characters to come. -/
structure SameColours (t u : Terminal) : Prop where
  foreground : t.foreground = u.foreground
  background : t.background = u.background
  bold : t.bold = u.bold
  reverse : t.reverse = u.reverse
  attr : t.terminalAttribute = u.terminalAttribute

namespace Terminal

/-- The two rendition sequences select the same colours, and the ground shows ANSI
colour `k` unless an item after it sets the ground again. -/
def EncodingsAgree (t : Terminal) (body body' : List UInt8) (g : Ground) (k : Fin 8)
    (after : List Item) : Prop :=
  ∃ u v, t.feed (controlSequence body 0x6d) = .ok u ∧
    t.feed (controlSequence body' 0x6d) = .ok v ∧ SameColours u v ∧
      (¬ Overridden g after → Shows k (g.get u) ∧ Shows k (g.get v))

end Terminal

/-! ### Items -/

/-- A code that is neither 38 nor 48 stands alone. -/
theorem renditions_simple {code : Nat} (h : code ≠ 38 ∧ code ≠ 48) (rest : List Nat) :
    renditions (code :: rest) = simpleRendition code ++ renditions rest := by
  rw [renditions]
  all_goals
    intros
    simp_all

/-- A list of complete items is read item by item. -/
theorem renditions_items (items : List Item) :
    renditions (items.flatMap Item.codes) = items.flatMap Item.changes := by
  induction items with
  | nil => simp [renditions]
  | cons item rest ih =>
      rw [List.flatMap_cons, List.flatMap_cons, ← ih]
      cases item with
      | simple code plain => exact renditions_simple plain _
      | palette ground color => cases ground <;> exact renditions.eq_def _
      | direct ground red green blue => cases ground <;> exact renditions.eq_def _

/-- The item of a basic colour sets the ground to its ANSI number. -/
theorem Encoding.changes_item (e : Encoding) (g : Ground) (k : Fin 8) :
    (e.item g k).changes = [g.set k] := by
  revert k
  cases e <;> cases g <;> decide

/-- The components are translated to the EFI number. -/
def efiNumber (k : Fin 8) : Nat := mapRgbColor (component k 0) (component k 1) (component k 2)

/-- A direct item sets one ground to its colour. -/
theorem changes_directItem (g : Ground) (k : Fin 8) :
    (directItem g k).changes = [g.set (efiNumber k)] := rfl

/-- The number of EFI shows the colour. -/
theorem shows_efiNumber (k : Fin 8) : Shows k (efiNumber k) := by
  revert k
  decide

/-- The two numbers of a colour are the same when red and blue are alike. -/
theorem eq_efiNumber_iff (k : Fin 8) :
    k.val = efiNumber k ↔ k.val.testBit 0 = k.val.testBit 2 := by
  revert k
  decide

/-! ### Two lists that differ in one item -/

/-- The colours do not depend on the parser. -/
theorem sameColours_withParser (t u : Terminal) (p q : Parser) :
    SameColours (t.withParser p) (u.withParser q) ↔ SameColours t u :=
  ⟨fun ⟨hf, hb, hbold, hreverse, hattr⟩ => ⟨hf, hb, hbold, hreverse, hattr⟩,
    fun ⟨hf, hb, hbold, hreverse, hattr⟩ => ⟨hf, hb, hbold, hreverse, hattr⟩⟩

theorem Ground.get_withParser (g : Ground) (t : Terminal) (p : Parser) :
    g.get (t.withParser p) = g.get t := by
  cases g <;> rfl

/-- A ground that is set is what it was set to. -/
theorem Ground.get_set (g : Ground) (color : Nat) (t : Terminal) :
    g.get (Screen.setRendition t (g.set color)) = color := by
  cases g <;> rfl

/-- A change that does not set the ground leaves it alone. -/
theorem Ground.get_of_not_sets {g : Ground} {change : Rendition} (h : ¬ change.Sets g)
    (t : Terminal) : g.get (Screen.setRendition t change) = g.get t := by
  cases change with
  | reset => exact absurd trivial h
  | bold on => cases g <;> rfl
  | reverse on => cases g <;> rfl
  | foreground color | defaultForeground =>
      cases g with
      | foreground => exact absurd rfl h
      | background => rfl
  | background color | defaultBackground =>
      cases g with
      | foreground => rfl
      | background => exact absurd rfl h

/-- A ground that no change sets stays. -/
theorem Ground.get_foldl {g : Ground} {changes : List Rendition}
    (h : ¬ ∃ change ∈ changes, change.Sets g) (t : Terminal) :
    g.get (changes.foldl Screen.setRendition t) = g.get t := by
  induction changes generalizing t with
  | nil => rfl
  | cons change rest ih =>
      have hchange : ¬ change.Sets g := fun hsets => h ⟨change, List.mem_cons_self, hsets⟩
      have hlater : ¬ ∃ change ∈ rest, change.Sets g := by
        intro hall
        obtain ⟨later, hmem, hsets⟩ := hall
        exact h ⟨later, List.mem_cons_of_mem change hmem, hsets⟩
      exact (ih hlater _).trans (Ground.get_of_not_sets hchange t)

/-- The colours of two terminals agree, but for those of one ground. -/
structure Beside (g : Ground) (t u : Terminal) : Prop where
  others : ∀ g', g' ≠ g → g'.get t = g'.get u
  bold : t.bold = u.bold
  reverse : t.reverse = u.reverse
  defaultForeground : t.defaultForeground = u.defaultForeground
  defaultBackground : t.defaultBackground = u.defaultBackground

namespace Beside

variable {g : Ground} {t u : Terminal}

/-- A terminal differs from itself in nothing. -/
theorem refl (g : Ground) (t : Terminal) : Beside g t t := ⟨fun _ _ => rfl, rfl, rfl, rfl, rfl⟩

/-- A change that sets a ground makes it the same. -/
theorem get_eq_of_sets (h : Beside g t u) {g' : Ground} {change : Rendition}
    (hsets : change.Sets g') :
    g'.get (Screen.setRendition t change) = g'.get (Screen.setRendition u change) := by
  cases change with
  | reset =>
      cases g' with
      | foreground => exact h.defaultForeground
      | background => exact h.defaultBackground
  | bold on | reverse on => cases hsets
  | foreground color | background color => cases hsets; rfl
  | defaultForeground => cases hsets; exact h.defaultForeground
  | defaultBackground => cases hsets; exact h.defaultBackground

/-- A change does the same on both sides. -/
theorem setRendition (h : Beside g t u) (change : Rendition) :
    Beside g (Screen.setRendition t change) (Screen.setRendition u change) where
  others := by
    intro g' hg'
    by_cases hsets : change.Sets g'
    · exact h.get_eq_of_sets hsets
    · rw [Ground.get_of_not_sets hsets, Ground.get_of_not_sets hsets]
      exact h.others g' hg'
  bold := by cases change <;> first | exact h.bold | rfl
  reverse := by cases change <;> first | exact h.reverse | rfl
  defaultForeground := by cases change <;> exact h.defaultForeground
  defaultBackground := by cases change <;> exact h.defaultBackground

/-- Two colours for the one ground. -/
theorem of_set (g : Ground) (t : Terminal) (color color' : Nat) :
    Beside g (Screen.setRendition t (g.set color)) (Screen.setRendition t (g.set color')) where
  others := by
    intro g' hg'
    cases g <;> cases g' <;> first | exact absurd rfl hg' | rfl
  bold := by cases g <;> rfl
  reverse := by cases g <;> rfl
  defaultForeground := by cases g <;> rfl
  defaultBackground := by cases g <;> rfl

/-- **The same changes** keep the rest alike, and make the ground the same when one
of them sets it. -/
theorem foldl (h : Beside g t u) (changes : List Rendition) :
    Beside g (changes.foldl Screen.setRendition t) (changes.foldl Screen.setRendition u) ∧
      ((g.get t = g.get u ∨ ∃ change ∈ changes, change.Sets g) →
        g.get (changes.foldl Screen.setRendition t) =
          g.get (changes.foldl Screen.setRendition u)) := by
  induction changes generalizing t u with
  | nil =>
      refine ⟨h, ?_⟩
      intro hcase
      obtain hget | ⟨change, hmem, -⟩ := hcase
      · exact hget
      · cases hmem
  | cons change rest ih =>
      obtain ⟨hrest, hsame⟩ := ih (h.setRendition change)
      refine ⟨hrest, fun hnow => hsame ?_⟩
      by_cases hsets : change.Sets g
      · exact .inl (h.get_eq_of_sets hsets)
      rcases hnow with hget | ⟨later, hmem, hlater⟩
      · left
        rw [Ground.get_of_not_sets hsets, Ground.get_of_not_sets hsets, hget]
      · rcases List.mem_cons.mp hmem with rfl | htail
        · exact absurd hlater hsets
        · exact .inr ⟨later, htail, hlater⟩

/-- With the ground the same, all colours are. -/
theorem sameColours_iff (h : Beside g t u) : SameColours t u ↔ g.get t = g.get u := by
  constructor
  · intro hsame
    cases g with
    | foreground => exact hsame.foreground
    | background => exact hsame.background
  · intro hget
    have hall (g' : Ground) : g'.get t = g'.get u := by
      by_cases hg' : g' = g
      · exact hg' ▸ hget
      · exact h.others g' hg'
    have hforeground : t.foreground = u.foreground := hall .foreground
    have hbackground : t.background = u.background := hall .background
    refine ⟨hforeground, hbackground, h.bold, h.reverse, ?_⟩
    unfold Terminal.terminalAttribute
    rw [hforeground, hbackground, h.bold, h.reverse]

/-- The ANSI number and the EFI number of a colour, with more changes after them. -/
theorem agree_iff (g : Ground) (k : Fin 8) (t : Terminal) (changes : List Rendition)
    {u v : Terminal} (hu : u = changes.foldl Screen.setRendition (Screen.setRendition t (g.set k)))
    (hv : v = changes.foldl Screen.setRendition (Screen.setRendition t (g.set (efiNumber k)))) :
    (SameColours u v ∧
        ((¬ ∃ change ∈ changes, change.Sets g) → Shows k (g.get u) ∧ Shows k (g.get v))) ↔
      (∃ change ∈ changes, change.Sets g) ∨ k.val.testBit 0 = k.val.testBit 2 := by
  obtain ⟨hend, hsame⟩ := (Beside.of_set g t k (efiNumber k)).foldl changes
  rw [← hu, ← hv] at hend hsame
  rw [hend.sameColours_iff]
  by_cases hover : ∃ change ∈ changes, change.Sets g
  · exact iff_of_true ⟨hsame (.inr hover), fun hnone => absurd hover hnone⟩ (.inl hover)
  · have hget : g.get u = k := by rw [hu, Ground.get_foldl hover, Ground.get_set]
    have hget' : g.get v = efiNumber k := by rw [hv, Ground.get_foldl hover, Ground.get_set]
    rw [hget, hget']
    constructor
    · intro hboth
      obtain ⟨hnumber, -⟩ := hboth
      exact .inr ((eq_efiNumber_iff k).mp hnumber)
    · intro hcase
      obtain hsets | halike := hcase
      · exact absurd hsets hover
      · have hnumber := (eq_efiNumber_iff k).mpr halike
        have hshows := shows_efiNumber k
        exact ⟨hnumber, fun _ => ⟨hnumber ▸ hshows, hshows⟩⟩

end Beside

/-! ### The two sequences -/

namespace Terminal

/-- A list of complete items is carried out change by change. -/
theorem feed_items {t : Terminal} (h : t.WellFormed) (hlisten : t.parser.Listening)
    {body : List UInt8} (hbody : ∀ b ∈ body, BodyByte b) {items : List Item}
    (hcodes : (t.parser.collected body).params.map Int.toNat = items.flatMap Item.codes) :
    ∃ p, t.feed (controlSequence body 0x6d) =
      .ok (((items.flatMap Item.changes).foldl Screen.setRendition
        (Screen.cancelWrap t)).withParser p) := by
  have haction : csiAction (csiFinal 0x6d) (t.parser.collected body).privateCsi
      (t.parser.collected body).params =
        (renditions ((t.parser.collected body).params.map Int.toNat)).map .rendition := rfl
  refine ⟨{ t.parser.collected body with state := .ground }, ?_⟩
  rw [h.feed_eq, Screen.feed_controlSequence hlisten hbody (by decide), haction, hcodes,
    renditions_items, Screen.execAll, List.foldl_map]
  rfl

/-- **The encodings of a basic colour agree exactly when** a later item sets the
same ground again, or red and blue of the colour are alike. -/
theorem encodings_agree_iff {t : Terminal} (h : Reachable t) (hlisten : t.parser.Listening)
    (before after : List Item) (e : Encoding) (g : Ground) (k : Fin 8) {body body' : List UInt8}
    (hbody : ∀ b ∈ body, BodyByte b) (hbody' : ∀ b ∈ body', BodyByte b)
    (hcodes : (t.parser.collected body).params.map Int.toNat =
      (before ++ e.item g k :: after).flatMap Item.codes)
    (hcodes' : (t.parser.collected body').params.map Int.toNat =
      (before ++ directItem g k :: after).flatMap Item.codes) :
    t.EncodingsAgree body body' g k after ↔
      Overridden g after ∨ k.val.testBit 0 = k.val.testBit 2 := by
  obtain ⟨p, hfeed⟩ := feed_items h.wellFormed hlisten hbody hcodes
  obtain ⟨p', hfeed'⟩ := feed_items h.wellFormed hlisten hbody' hcodes'
  rw [List.flatMap_append, List.foldl_append, List.flatMap_cons, List.foldl_append,
    e.changes_item] at hfeed
  rw [List.flatMap_append, List.foldl_append, List.flatMap_cons, List.foldl_append,
    changes_directItem] at hfeed'
  have hover : Overridden g after ↔ ∃ change ∈ after.flatMap Item.changes, change.Sets g := by
    simp only [Overridden, List.mem_flatMap]
    grind
  obtain ⟨w, hw⟩ : ∃ w, w = (before.flatMap Item.changes).foldl Screen.setRendition
    (Screen.cancelWrap t) := ⟨_, rfl⟩
  rw [← hw] at hfeed hfeed'
  rw [hover, ← Beside.agree_iff g k w _ rfl rfl]
  constructor
  · intro hall
    obtain ⟨u, v, hu, hv, hsame, hshows⟩ := hall
    rw [hfeed] at hu
    rw [hfeed'] at hv
    obtain rfl := Except.ok.inj hu
    obtain rfl := Except.ok.inj hv
    rw [sameColours_withParser, Ground.get_withParser, Ground.get_withParser, hover] at *
    exact ⟨hsame, hshows⟩
  · intro hboth
    obtain ⟨hsame, hshows⟩ := hboth
    refine ⟨_, _, hfeed, hfeed', (sameColours_withParser _ _ _ _).mpr hsame, ?_⟩
    rw [Ground.get_withParser, Ground.get_withParser, hover]
    exact hshows

/-- Magenta is the same either way round. -/
theorem encodings_agree_magenta :
    (Firmware.ample 2 1 7).fresh.EncodingsAgree [0x33, 0x35]
      [0x33, 0x38, 0x3b, 0x32, 0x3b, 0x31, 0x32, 0x38, 0x3b, 0x30, 0x3b, 0x31, 0x32, 0x38]
      .foreground 5 [] :=
  (encodings_agree_iff (created_ample 2 1 7).reachable (by decide) [] [] .basic .foreground 5
    (by decide +kernel) (by decide +kernel) (by decide) (by decide)).mpr (.inr (by decide))

/-- `CSI 31 m` selects EFI colour 1, `CSI 38;2;128;0;0 m` EFI colour 4. -/
theorem red_is_blue :
    ∃ body body', (∀ b ∈ body, BodyByte b) ∧ (∀ b ∈ body', BodyByte b) ∧
      ((Firmware.ample 2 1 7).fresh.parser.collected body).params.map Int.toNat =
        (Encoding.basic.item .foreground 1).codes ∧
      ((Firmware.ample 2 1 7).fresh.parser.collected body').params.map Int.toNat =
        (directItem .foreground 1).codes ∧
      ¬ (Firmware.ample 2 1 7).fresh.EncodingsAgree body body' .foreground 1 [] := by
  refine ⟨[0x33, 0x31], [0x33, 0x38, 0x3b, 0x32, 0x3b, 0x31, 0x32, 0x38, 0x3b, 0x30, 0x3b, 0x30],
    by decide +kernel, by decide +kernel, by decide, by decide, ?_⟩
  intro hall
  obtain ⟨u, v, hu, hv, hsame, -⟩ := hall
  have hwell := (created_ample 2 1 7).wellFormed
  rw [hwell.feed_eq] at hu hv
  obtain rfl := Except.ok.inj hu
  obtain rfl := Except.ok.inj hv
  exact absurd hsame.foreground (by decide)

end Terminal

end WolfSshUefi
