import Mathlib.Data.List.Basic
import WolfSshUefi.Session.Results

/-!
# From the keyboard to the session

`WolfSshTerminalReadKey` takes a keystroke from the firmware, and the key loop
sends its bytes.  Nothing is sent twice or out of order; but Escape, which the
firmware reports by its scan code alone, has no sequence and is lost.  So a
session hands over what was typed exactly when it was no Escape
(`session_keyboard_iff`).
-/

namespace WolfSshUefi

/-! ### Keys and encodings -/

/-- The keys whose sequence depends on the application cursor mode. -/
def Scan.cursorKeys : List UInt16 := [Scan.up, Scan.down, Scan.right, Scan.left, Scan.home, Scan.endKey]

/-- The other keys without a character, Escape apart. -/
def Scan.editingKeys : List UInt16 :=
  [Scan.insert, Scan.delete, Scan.pageUp, Scan.pageDown, Scan.f1, Scan.f2, Scan.f3, Scan.f4,
    Scan.f5, Scan.f6, Scan.f7, Scan.f8, Scan.f9, Scan.f10]

namespace InputKey

/-- Escape, as the firmware reports it. -/
def IsEscape (key : InputKey) : Prop := key.scanCode = Scan.esc ∧ key.unicodeChar = 0

/-- An arrow, Home or End. -/
def IsCursor (key : InputKey) : Prop := key.scanCode ∈ Scan.cursorKeys ∧ key.unicodeChar = 0

/-- A character, or one of the keys without one. -/
def Typable (key : InputKey) : Prop :=
  (key.scanCode = 0 ∧ key.unicodeChar ≠ 0) ∨ key.IsCursor ∨
    (key.scanCode ∈ Scan.editingKeys ∧ key.unicodeChar = 0) ∨ key.IsEscape

instance (key : InputKey) : Decidable key.IsEscape := by unfold IsEscape; infer_instance

end InputKey

/-- A way to encode keystrokes: every key has bytes, Escape is the byte `ESC`, and
the application cursor mode matters for the cursor keys only. -/
structure KeyEncoding where
  bytes : Bool → InputKey → List UInt8
  ne_nil : ∀ applicationCursor key, key.Typable → bytes applicationCursor key ≠ []
  escape : ∀ applicationCursor key, key.IsEscape → bytes applicationCursor key = [0x1b]
  mode : ∀ key, key.Typable → ¬ key.IsCursor → bytes true key = bytes false key

/-- The bytes that a keystroke gives the session. -/
def handed (press : Bool × InputKey) : List UInt8 :=
  (readKey press.1 16 ⟨efiSuccess, press.2⟩).bytes

/-- The keystroke of an event: what was pressed, and in which mode. -/
def Event.keystroke? : Event → Option (Bool × InputKey)
  | .polled applicationCursor read =>
      if EfiError read.status ∨ read.key.unicodeChar = 0x1d then none
      else some (applicationCursor, read.key)
  | _ => none

/-- The bytes that an event hands to the session. -/
def Event.typedBytes : Event → List UInt8
  | .typed bytes _ _ => bytes
  | _ => []

/-- The keystrokes delivered before Ctrl+]. -/
def keystrokes (trace : List Event) : List (Bool × InputKey) := trace.filterMap Event.keystroke?

/-- All bytes that came from the keyboard, in order. -/
def typedBytes (trace : List Event) : List UInt8 := trace.flatMap Event.typedBytes

/-- The bytes from the keyboard are the encoded keystrokes. -/
def Faithful (encoding : KeyEncoding) (trace : List Event) : Prop :=
  typedBytes trace = (keystrokes trace).flatMap fun press => encoding.bytes press.1 press.2

/-- The keystrokes of two traces. -/
@[simp] theorem keystrokes_append (first rest : List Event) :
    keystrokes (first ++ rest) = keystrokes first ++ keystrokes rest :=
  List.filterMap_append ..

/-- The bytes typed in two traces. -/
@[simp] theorem typedBytes_append (first rest : List Event) :
    typedBytes (first ++ rest) = typedBytes first ++ typedBytes rest :=
  List.flatMap_append ..

/-! ### One keystroke -/

/-- A branch gave the value, or a later one. -/
theorem ite_eq_some {α : Type} {c : Prop} [Decidable c] {a b : α} {rest : Option α}
    (h : (if c then some a else rest) = some b) : a = b ∨ rest = some b := by
  by_cases hc : c
  · rw [if_pos hc] at h
    exact .inl (Option.some.inj h)
  · rw [if_neg hc] at h
    exact .inr h

/-- The sequences of the special keys have at most five bytes. -/
theorem mapped_length {applicationCursor : Bool} {scanCode : UInt16} {sequence : List UInt8}
    (h : mapped applicationCursor scanCode = some sequence) :
    0 < sequence.length ∧ sequence.length ≤ 5 := by
  have hcursor (letter : UInt8) : (cursorSequence applicationCursor letter).length = 3 := by
    cases applicationCursor <;> rfl
  unfold mapped at h
  iterate 20
    rcases ite_eq_some h with rfl | h
    · simp [hcursor]
  cases h

/-- A character has at most three. -/
theorem characterBytes_length (unicodeChar : UInt16) :
    0 < (characterBytes unicodeChar).length ∧ (characterBytes unicodeChar).length ≤ 3 := by
  unfold characterBytes
  split
  · simp
  split
  · simp
  split <;> simp

/-- What fits is stored. -/
theorem storeKey_fits {capacity : Nat} {bytes : List UInt8} (h : bytes.length ≤ capacity) :
    storeKey capacity bytes = ⟨efiSuccess, bytes, bytes.length, false⟩ :=
  if_neg (Nat.not_lt.mpr h)

/-- Bytes come only with a success and their length. -/
theorem readKey_stored (applicationCursor : Bool) (capacity : Nat) (read : KeyRead) :
    (readKey applicationCursor capacity read).bytes = [] ∨
      readKey applicationCursor capacity read =
        ⟨efiSuccess, (readKey applicationCursor capacity read).bytes,
          (readKey applicationCursor capacity read).bytes.length, false⟩ := by
  have hstore (bytes : List UInt8) : (storeKey capacity bytes).bytes = [] ∨
      storeKey capacity bytes = ⟨efiSuccess, (storeKey capacity bytes).bytes,
        (storeKey capacity bytes).bytes.length, false⟩ := by
    unfold storeKey
    split
    · exact .inl rfl
    · exact .inr rfl
  unfold readKey
  split
  · exact .inl rfl
  split
  · exact .inl rfl
  split
  · exact hstore _
  split
  · exact .inl rfl
  split
  · exact .inl rfl
  · exact hstore _

/-- Only a keystroke gives bytes. -/
theorem readKey_bytes (applicationCursor : Bool) (read : KeyRead) :
    (readKey applicationCursor 16 read).bytes =
      (keystrokes [.polled applicationCursor read]).flatMap handed := by
  have hsuccess : ¬ EfiError efiSuccess := by decide
  by_cases herror : EfiError read.status
  · simp [keystrokes, Event.keystroke?, readKey, herror]
  by_cases hexit : read.key.unicodeChar = 0x1d
  · simp [keystrokes, Event.keystroke?, readKey, herror, hexit]
  · simp [keystrokes, Event.keystroke?, handed, readKey, herror, hexit, hsuccess]

/-! ### The encoding of the program -/

/-- The bytes of a keystroke, with those that Escape should have. -/
def keyBytes (applicationCursor : Bool) (key : InputKey) : List UInt8 :=
  if key.IsEscape then [0x1b]
  else (mapped applicationCursor key.scanCode).getD (characterBytes key.unicodeChar)

/-- Every key has bytes. -/
theorem keyBytes_ne_nil (applicationCursor : Bool) (key : InputKey) :
    keyBytes applicationCursor key ≠ [] := by
  unfold keyBytes
  split
  · simp
  apply List.ne_nil_of_length_pos
  cases hmapped : mapped applicationCursor key.scanCode with
  | none => exact (characterBytes_length key.unicodeChar).1
  | some sequence => exact (mapped_length hmapped).1

/-- Outside the cursor keys the mode does not matter. -/
theorem mapped_mode {scanCode : UInt16} (h : scanCode ∉ Scan.cursorKeys) :
    mapped true scanCode = mapped false scanCode := by
  simp only [Scan.cursorKeys, List.mem_cons, List.not_mem_nil, or_false, not_or] at h
  obtain ⟨hup, hdown, hright, hleft, hhome, hend⟩ := h
  unfold mapped
  simp only [if_neg hup, if_neg hdown, if_neg hright, if_neg hleft, if_neg hhome, if_neg hend]

/-- A typable key with the scan code of a cursor key is one. -/
theorem InputKey.Typable.isCursor {key : InputKey} (h : key.Typable)
    (hcode : key.scanCode ∈ Scan.cursorKeys) : key.IsCursor := by
  rcases h with ⟨hzero, -⟩ | hcursor | ⟨hediting, -⟩ | ⟨hescape, -⟩
  · rw [hzero] at hcode
    exact absurd hcode (by decide)
  · exact hcursor
  · have hdisjoint : (Scan.editingKeys.all fun code => decide (code ∉ Scan.cursorKeys)) = true := by
      decide
    have hnot := List.all_eq_true.mp hdisjoint _ hediting
    exact absurd hcode (of_decide_eq_true hnot)
  · rw [hescape] at hcode
    exact absurd hcode (by decide)

/-- The encoding of `WolfSshTerminalReadKey`, completed by Escape. -/
def keyEncoding : KeyEncoding where
  bytes := keyBytes
  ne_nil := fun applicationCursor key _ => keyBytes_ne_nil applicationCursor key
  escape := fun _ _ hescape => if_pos hescape
  mode := by
    intro key htypable hcursor
    have hcode : key.scanCode ∉ Scan.cursorKeys := fun hcode => hcursor (htypable.isCursor hcode)
    unfold keyBytes
    rw [mapped_mode hcode]

/-- Escape gives nothing. -/
theorem handed_escape (applicationCursor : Bool) {key : InputKey} (h : key.IsEscape) :
    handed (applicationCursor, key) = [] := by
  obtain ⟨scanCode, unicodeChar⟩ := key
  obtain ⟨rfl, rfl⟩ := h
  cases applicationCursor <;> decide

/-- A key without a character has a sequence, unless it is Escape. -/
theorem InputKey.Typable.mapped_ne_none {key : InputKey} (h : key.Typable)
    (hescape : ¬ key.IsEscape) (hchar : key.unicodeChar = 0) (applicationCursor : Bool) :
    mapped applicationCursor key.scanCode ≠ none := by
  have hall (code : UInt16) (hmem : code ∈ Scan.cursorKeys ++ Scan.editingKeys) :
      mapped applicationCursor code ≠ none := by
    have hevery : ((Scan.cursorKeys ++ Scan.editingKeys).all fun code =>
        decide (mapped applicationCursor code ≠ none)) = true := by
      cases applicationCursor <;> decide
    exact of_decide_eq_true (List.all_eq_true.mp hevery code hmem)
  rcases h with ⟨-, hnot⟩ | ⟨hcursor, -⟩ | ⟨hediting, -⟩ | hesc
  · exact absurd hchar hnot
  · exact hall _ (List.mem_append_left _ hcursor)
  · exact hall _ (List.mem_append_right _ hediting)
  · exact absurd hesc hescape

/-- Every other key gives its bytes. -/
theorem handed_typable (applicationCursor : Bool) {key : InputKey} (h : key.Typable)
    (hescape : ¬ key.IsEscape) (hexit : key.unicodeChar ≠ 0x1d) :
    handed (applicationCursor, key) = keyBytes applicationCursor key := by
  have hsuccess : ¬ EfiError efiSuccess := by decide
  have hmissing := h.mapped_ne_none hescape
  unfold handed readKey keyBytes
  rw [if_neg hescape]
  simp only [if_neg hsuccess, if_neg hexit]
  cases hmapped : mapped applicationCursor key.scanCode with
  | some sequence =>
      have hfits : sequence.length ≤ 16 := Nat.le_trans (mapped_length hmapped).2 (by decide)
      simp only [copyKeySequence, storeKey_fits hfits, Option.getD_some]
  | none =>
      have hchar : key.unicodeChar ≠ 0 := fun hzero => hmissing hzero applicationCursor hmapped
      have hfits : (characterBytes key.unicodeChar).length ≤ 16 :=
        Nat.le_trans (characterBytes_length key.unicodeChar).2 (by decide)
      have hroom : ¬ 16 < 1 := by decide
      simp only [if_neg hchar, if_neg hroom, storeKey_fits hfits, Option.getD_none]

/-! ### Whole sessions -/

/-- The session got the bytes of the keystrokes, and nothing else. -/
def Handed (trace : List Event) : Prop :=
  typedBytes trace = (keystrokes trace).flatMap handed

/-- The answers of the keyboard so far. -/
def polls (trace : List Event) : List KeyRead :=
  trace.filterMap fun
    | .polled _ read => some read
    | _ => none

/-- The looks at the keyboard in two traces. -/
@[simp] theorem polls_append (first rest : List Event) :
    polls (first ++ rest) = polls first ++ polls rest :=
  List.filterMap_append ..

/-- What is handed on in two traces. -/
theorem Handed.append {first rest : List Event} (h : Handed first) (h' : Handed rest) :
    Handed (first ++ rest) := by
  unfold Handed at h h' ⊢
  rw [typedBytes_append, keystrokes_append, List.flatMap_append, h, h']

/-- An event that has nothing to do with the keyboard. -/
def Event.Remote : Event → Prop
  | .polled _ _ | .typed _ _ _ => False
  | _ => True

/-- Events of the server are neither keystrokes nor typed. -/
theorem remote_silent {events : List Event} (h : ∀ e ∈ events, e.Remote) :
    Handed events ∧ polls events = [] := by
  induction events with
  | nil => exact ⟨rfl, rfl⟩
  | cons e rest ih =>
      obtain ⟨hhanded, hpolls⟩ := ih fun e' he' => h e' (List.mem_cons_of_mem _ he')
      have hone : Handed [e] ∧ polls [e] = [] := by
        have hremote := h e (List.mem_cons_self ..)
        cases e with
        | polled _ _ => exact hremote.elim
        | typed _ _ _ => exact hremote.elim
        | _ => exact ⟨rfl, rfl⟩
      refine ⟨hone.1.append hhanded, ?_⟩
      have hsplit := polls_append [e] rest
      rw [hone.2, hpolls] at hsplit
      exact hsplit

namespace Session

variable {ws : WolfSshErrors}

/-- The session has handed over its keystrokes, and has taken them in order from
`keys`. -/
structure Typing (keys : List KeyRead) (s : Session) : Prop where
  bytes : Handed s.trace
  order : polls s.trace ++ s.script.keys = keys

/-- A stage of the server leaves the typing alone. -/
theorem Typing.remote {keys : List KeyRead} {kind : Event → Prop} {s s' : Session}
    {events : List Event} (h : Typing keys s) (hstage : Stage kind s s' events)
    (hkind : ∀ e, kind e → e.Remote) (hkeys : s'.script.keys = s.script.keys) :
    Typing keys s' := by
  obtain ⟨hsilent, hnone⟩ := remote_silent fun e he => hkind e (hstage.kind e he)
  refine ⟨?_, ?_⟩
  · rw [hstage.trace]
    exact h.bytes.append hsilent
  · rw [hstage.trace, hkeys, polls_append, hnone, List.append_nil]
    exact h.order

/-- A read leaves the keys. -/
theorem readOnce_keys {s s' : Session} {more : Bool} (h : readOnce ws s = .ok (s', more)) :
    s'.script.keys = s.script.keys := by
  unfold readOnce at h
  split at h
  · cases h
  simp only at h
  split at h
  · obtain ⟨t, -, h⟩ := bind_ok.mp h
    obtain rfl := fst_of_ok h
    rfl
  split at h
  · obtain ⟨⟨status, t, extended⟩, -, h⟩ := bind_ok.mp h
    obtain rfl := fst_of_ok h
    rfl
  iterate 4
    split at h
    · obtain rfl := fst_of_ok h
      rfl
  obtain rfl := fst_of_ok h
  rfl

theorem burst_keys {rounds : Nat} {s s' : Session} (h : burst ws rounds s = .ok s') :
    s'.script.keys = s.script.keys := by
  induction rounds generalizing s with
  | zero =>
      obtain rfl := Except.ok.inj h
      rfl
  | succ rounds ih =>
      obtain ⟨⟨u, more⟩, honce, h⟩ := bind_ok.mp h
      cases more with
      | true =>
          have hrest := ih h
          exact hrest.trans (readOnce_keys honce)
      | false =>
          obtain rfl := Except.ok.inj h
          exact readOnce_keys honce

/-- A poll, and what it hands over. -/
theorem Typing.poll {keys : List KeyRead} {s u : Session} {read : KeyRead}
    {rest : List KeyRead} (h : Typing keys s) (hnext : s.script.keys = read :: rest)
    (events : List Event) {applicationCursor : Bool}
    (htrace : u.trace = s.trace ++ .polled applicationCursor read :: events)
    (hkeys : u.script.keys = rest) (hnone : keystrokes events = []) (hpolls : polls events = [])
    (hbytes : typedBytes events = (readKey applicationCursor 16 read).bytes) :
    Typing keys u := by
  refine ⟨?_, ?_⟩
  · have hpoll : Handed (.polled applicationCursor read :: events) := by
      have hfirst := keystrokes_append [.polled applicationCursor read] events
      rw [hnone, List.append_nil] at hfirst
      have htyped := typedBytes_append [.polled applicationCursor read] events
      rw [hbytes, readKey_bytes, ← hfirst] at htyped
      exact htyped
    rw [htrace]
    exact h.bytes.append hpoll
  · have hfirst := polls_append [.polled applicationCursor read] events
    rw [hpolls, List.append_nil] at hfirst
    have hall := h.order
    rw [hnext] at hall
    rw [htrace, hkeys, polls_append]
    change polls s.trace ++ polls ([.polled applicationCursor read] ++ events) ++ rest = keys
    rw [hfirst, List.append_assoc]
    exact hall

/-- **The key loop** hands each keystroke on, in order. -/
theorem keyFrom_typing {keys reads : List KeyRead} {s s' : Session} (hs : Typing keys s)
    (hkeys : s.script.keys = reads) (h : keyFrom ws reads s = .ok s') : Typing keys s' := by
  induction reads generalizing s with
  | nil =>
      unfold keyFrom at h
      split at h
      · obtain rfl := Except.ok.inj h
        exact hs
      · cases h
  | cons read rest ih =>
      unfold keyFrom at h
      split at h
      · obtain rfl := Except.ok.inj h
        exact hs
      have hstored := readKey_stored s.terminal.applicationCursor 16 read
      -- a poll that stores nothing
      have hempty {u : Session}
          (htrace : u.trace = s.trace ++ [.polled s.terminal.applicationCursor read])
          (hrest : u.script.keys = rest)
          (hnone : (readKey s.terminal.applicationCursor 16 read).bytes = []) : Typing keys u :=
        hs.poll hkeys [] htrace hrest rfl rfl hnone.symm
      -- a poll whose bytes are sent
      have hsent {u : Session} {taken : List UInt8} {status : EfiStatus}
          (htrace : u.trace = s.trace ++ [.polled s.terminal.applicationCursor read,
            .typed (readKey s.terminal.applicationCursor 16 read).bytes taken status])
          (hrest : u.script.keys = rest) : Typing keys u :=
        hs.poll hkeys [_] htrace hrest rfl rfl (List.append_nil _)
      have hsuccess : efiSuccess ≠ efiNotReady ∧ ¬ EfiError efiSuccess := by decide
      simp only at h
      split at h
      · next hready =>
          obtain rfl := Except.ok.inj h
          apply hempty rfl rfl
          apply hstored.resolve_right
          intro hkey
          rw [hkey] at hready
          exact hsuccess.1 hready
      split at h
      · next herror =>
          obtain rfl := Except.ok.inj h
          apply hempty rfl rfl
          apply hstored.resolve_right
          intro hkey
          rw [hkey] at herror
          exact hsuccess.2 herror
      split at h
      · next hexit =>
          obtain rfl := Except.ok.inj h
          apply hempty rfl rfl
          apply hstored.resolve_right
          intro hkey
          rw [hkey] at hexit
          cases hexit
      split at h
      · obtain ⟨⟨status, taken, sends⟩, -, h⟩ := bind_ok.mp h
        simp only at h
        split at h
        · obtain rfl := Except.ok.inj h
          exact hsent (List.append_assoc _ [_] [_]) rfl
        · apply ih ?_ rfl h
          apply hsent
          · exact List.append_assoc _ [_] [_]
          · rfl
      · next hlength =>
          refine ih (hempty ?_ ?_ ?_) ?_ h
          · rfl
          · rfl
          · rcases hstored with hnone | hkey
            · exact hnone
            · rw [hkey] at hlength
              exact List.eq_nil_of_length_eq_zero (Decidable.of_not_not hlength)
          · rfl

/-- **A round** keeps the typing. -/
theorem round_typing {keys : List KeyRead} {s s' : Session} (hs : Typing keys s)
    (h : round ws s = .ok s') : Typing keys s' := by
  obtain ⟨u, hburst, h⟩ := bind_ok.mp h
  obtain ⟨v, hpaint, h⟩ := bind_ok.mp h
  obtain ⟨w, hreply, h⟩ := bind_ok.mp h
  have hburstRemote : ∀ e : Event, e.InBurst → e.Remote := by
    intro e he
    cases e <;> trivial
  have hreplyRemote : ∀ e : Event, e.IsReply → e.Remote := by
    intro e he
    cases e <;> trivial
  obtain ⟨bursts, hbursts⟩ := burst_stage hburst
  obtain ⟨replies, hreplies⟩ := replyFrom_stage hreply
  have hquiet : Typing keys { s with activity := false } := ⟨hs.bytes, hs.order⟩
  have hread : Typing keys u := hquiet.remote hbursts hburstRemote (burst_keys hburst)
  have hpainted : Typing keys v := by
    refine hread.remote (paint_stage hpaint) hburstRemote ?_
    rw [paint_script hpaint]
  have hreplied : Typing keys w := by
    refine hpainted.remote hreplies hreplyRemote ?_
    rw [replyFrom_script hreply]
  exact keyFrom_typing hreplied rfl h

/-- **A run** keeps it. -/
theorem loop_typing {keys : List KeyRead} {rounds : Nat} {s s' : Session} (hs : Typing keys s)
    (h : loop ws rounds s = .ok s') : Typing keys s' := by
  induction rounds generalizing s with
  | zero => cases h
  | succ rounds ih =>
      unfold loop at h
      split at h
      · obtain rfl := Except.ok.inj h
        exact hs
      · obtain ⟨u, hround, h⟩ := bind_ok.mp h
        exact ih (round_typing hs hround) h

/-- A session hands over the bytes of its keystrokes, and takes the keystrokes in
order. -/
theorem session_typing {created : Terminal} {script : Script} {status : EfiStatus}
    {trace : List Event}
    (h : runInteractiveSession ws (some created) script = .ok (status, trace)) :
    Handed trace ∧ polls trace <+: script.keys := by
  obtain ⟨s, hloop, h⟩ := bind_ok.mp h
  obtain ⟨t, -, h⟩ := bind_ok.mp h
  obtain ⟨rfl, rfl⟩ := Prod.mk.inj (Except.ok.inj h)
  have hstart : Typing script.keys ⟨created, script, efiSuccess, false, false, []⟩ :=
    ⟨rfl, rfl⟩
  have hend := loop_typing hstart hloop
  exact ⟨hend.bytes, s.script.keys, hend.order⟩

/-! ### Escape -/

/-- Ctrl+] is no keystroke for the server. -/
theorem keystroke_exit {trace : List Event} {press : Bool × InputKey}
    (h : press ∈ keystrokes trace) : press.2.unicodeChar ≠ 0x1d := by
  obtain ⟨e, -, he⟩ := List.mem_filterMap.mp h
  cases e with
  | polled applicationCursor read =>
      simp only [Event.keystroke?] at he
      split at he
      · cases he
      · next hnot =>
          obtain rfl := Option.some.inj he
          exact (not_or.mp hnot).2
  | _ => cases he

/-- A key hands on at most its bytes, and Escape hands on none. -/
theorem handed_le {press : Bool × InputKey} (htypable : press.2.Typable)
    (hexit : press.2.unicodeChar ≠ 0x1d) :
    (handed press).length ≤ (keyBytes press.1 press.2).length ∧
      (press.2.IsEscape → (handed press).length < (keyBytes press.1 press.2).length) := by
  by_cases hescape : press.2.IsEscape
  · have hnone : handed press = [] := handed_escape press.1 hescape
    have hone : keyBytes press.1 press.2 = [0x1b] := if_pos hescape
    rw [hnone, hone]
    simp
  · have hsame : handed press = keyBytes press.1 press.2 :=
      handed_typable press.1 htypable hescape hexit
    rw [hsame]
    exact ⟨Nat.le_refl _, fun hnot => absurd hnot hescape⟩

/-- Bytes are missing exactly when an Escape is. -/
theorem flatMap_handed_iff {presses : List (Bool × InputKey)}
    (h : ∀ press ∈ presses, press.2.Typable ∧ press.2.unicodeChar ≠ 0x1d) :
    (presses.flatMap handed = presses.flatMap fun press => keyBytes press.1 press.2) ↔
      ∀ press ∈ presses, ¬ press.2.IsEscape := by
  have hall : (presses.flatMap handed).length ≤
        (presses.flatMap fun press => keyBytes press.1 press.2).length ∧
      ((∃ press ∈ presses, press.2.IsEscape) → (presses.flatMap handed).length <
        (presses.flatMap fun press => keyBytes press.1 press.2).length) := by
    induction presses with
    | nil => simp
    | cons press rest ih =>
        obtain ⟨hle, hless⟩ := ih fun p hp => h p (List.mem_cons_of_mem _ hp)
        obtain ⟨htypable, hexit⟩ := h press (List.mem_cons_self ..)
        obtain ⟨hone, hescape⟩ := handed_le htypable hexit
        simp only [List.flatMap_cons, List.length_append]
        refine ⟨Nat.add_le_add hone hle, ?_⟩
        intro hall
        obtain ⟨p, hp, hmissing⟩ := hall
        rcases List.mem_cons.mp hp with rfl | hrest
        · exact Nat.add_lt_add_of_lt_of_le (hescape hmissing) hle
        · exact Nat.add_lt_add_of_le_of_lt hone (hless ⟨p, hrest, hmissing⟩)
  constructor
  · intro hsame press hpress hescape
    have hless := hall.2 ⟨press, hpress, hescape⟩
    rw [hsame] at hless
    exact absurd hless (Nat.lt_irrefl _)
  · intro hnone
    apply List.flatMap_congr
    intro press hpress
    obtain ⟨htypable, hexit⟩ := h press hpress
    exact handed_typable press.1 htypable (hnone press hpress) hexit

/-- **A session gets the encoded keystrokes exactly when** no Escape is among them.  The
keystrokes are those that `ReadKeyStroke` has given, in their order. -/
theorem session_keyboard_iff (ws : WolfSshErrors) {created : Terminal} {script : Script}
    {status : EfiStatus} {trace : List Event}
    (h : runInteractiveSession ws (some created) script = .ok (status, trace))
    (htypable : ∀ press ∈ keystrokes trace, press.2.Typable) :
    polls trace <+: script.keys ∧
      (Faithful keyEncoding trace ↔ ∀ press ∈ keystrokes trace, ¬ press.2.IsEscape) := by
  obtain ⟨hhanded, horder⟩ := session_typing h
  refine ⟨horder, ?_⟩
  have hbytes : typedBytes trace = (keystrokes trace).flatMap handed := hhanded
  unfold Faithful
  rw [hbytes]
  exact flatMap_handed_iff fun press hpress => ⟨htypable press hpress, keystroke_exit hpress⟩

/-- A read without a result has no data. -/
theorem no_bytes (hread : (0 : Int) < -1) : (([] : List UInt8).length : Int) = -1 :=
  absurd hread (by decide)

/-- The user types these keys, and then the stream ends. -/
def typingScript (keys : List InputKey) (sends : List SshSend) : Script where
  reads := [⟨-1, [], -10, no_bytes⟩, ⟨-1, [], -15, no_bytes⟩]
  extended := []
  sends := sends
  keys := keys.map (fun key => ⟨efiSuccess, key⟩) ++ [⟨efiNotReady, ⟨0, 0⟩⟩]

/-- What comes of typing the letter `A` and the Up key. -/
def letterAndUp : List Event :=
  [.polled false ⟨efiSuccess, ⟨0, 0x41⟩⟩, .typed [0x41] [0x41] efiSuccess,
    .polled false ⟨efiSuccess, ⟨1, 0⟩⟩, .typed [0x1b, 0x5b, 0x41] [0x1b, 0x5b, 0x41] efiSuccess,
    .polled false ⟨efiNotReady, ⟨0, 0⟩⟩, .endOfFile]

/-- The letter and the Up key are handed on. -/
theorem session_keyboard_up :
    runInteractiveSession someErrors (some (Terminal.Firmware.ample 2 1 7).fresh)
        (typingScript [⟨0, 0x41⟩, ⟨1, 0⟩] [⟨1, 0⟩, ⟨3, 0⟩]) = .ok (efiSuccess, letterAndUp) ∧
      polls letterAndUp <+: (typingScript [⟨0, 0x41⟩, ⟨1, 0⟩] [⟨1, 0⟩, ⟨3, 0⟩]).keys ∧
      (Faithful keyEncoding letterAndUp ↔
        ∀ press ∈ [(false, (⟨0, 0x41⟩ : InputKey)), (false, ⟨1, 0⟩)], ¬ press.2.IsEscape) := by
  have hrun : runInteractiveSession someErrors (some (Terminal.Firmware.ample 2 1 7).fresh)
      (typingScript [⟨0, 0x41⟩, ⟨1, 0⟩] [⟨1, 0⟩, ⟨3, 0⟩]) = .ok (efiSuccess, letterAndUp) := rfl
  refine ⟨hrun, session_keyboard_iff someErrors hrun ?_⟩
  intro press hpress
  have hpresses : press ∈ [(false, (⟨0, 0x41⟩ : InputKey)), (false, ⟨1, 0⟩)] := hpress
  rcases List.mem_cons.mp hpresses with rfl | hup
  · exact .inl ⟨rfl, by decide⟩
  · obtain rfl := List.mem_singleton.mp hup
    exact .inr (.inl ⟨by decide, rfl⟩)

/-- The user presses Escape, and nothing is sent: no encoding of keystrokes explains
that. -/
theorem escape_is_lost :
    ∃ (created : Terminal) (script : Script) (status : EfiStatus) (trace : List Event),
      Terminal.Created created ∧
        runInteractiveSession someErrors (some created) script = .ok (status, trace) ∧
        (∀ press ∈ keystrokes trace, press.2.Typable) ∧
        ∀ encoding : KeyEncoding, ¬ Faithful encoding trace := by
  refine ⟨(Terminal.Firmware.ample 2 1 7).fresh, typingScript [⟨Scan.esc, 0⟩] [], efiSuccess,
    [.polled false ⟨efiSuccess, ⟨Scan.esc, 0⟩⟩, .endOfFile], Terminal.created_ample 2 1 7,
    rfl, ?_, ?_⟩
  · intro press hpress
    have hpresses : press ∈ [(false, (⟨Scan.esc, 0⟩ : InputKey))] := hpress
    obtain rfl := List.mem_singleton.mp hpresses
    exact .inr (.inr (.inr ⟨rfl, rfl⟩))
  · intro encoding hfaithful
    have hescape := encoding.escape false ⟨Scan.esc, 0⟩ ⟨rfl, rfl⟩
    have hnothing : [] = [(false, (⟨Scan.esc, 0⟩ : InputKey))].flatMap
        fun press => encoding.bytes press.1 press.2 := hfaithful
    simp [hescape] at hnothing

end Session

end WolfSshUefi
