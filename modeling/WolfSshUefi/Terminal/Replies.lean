import Mathlib.Data.List.TakeDrop
import WolfSshUefi.Library.Framing
import WolfSshUefi.Terminal.Streams

/-!
# Replies

The server asks for its terminal's status, for the place of the cursor and for
the terminal's attributes, and finds the replies in the stream of what it is
sent.  Every reply is a message that begins with ESC and ends with a letter.
The queue takes of a reply what there is room for, so the stream is one of
complete replies exactly when every request found the queue full or with room
for its whole reply.
-/

namespace WolfSshUefi

/-- A request that is processed: the reply to it, and the room in the queue. -/
structure Request where
  reply : List UInt8
  room : Nat

/-- The part of the reply that is queued. -/
def Request.written (r : Request) : List UInt8 := r.reply.take r.room

/-- The queue is full, or has room for the whole reply. -/
def Request.Fits (r : Request) : Prop := r.room = 0 ∨ r.reply.length ≤ r.room

instance (r : Request) : Decidable r.Fits := by
  unfold Request.Fits; infer_instance

/-! ### The replies as messages -/

/-- The final bytes of the replies. -/
def ReplyEnd (byte : UInt8) : Prop := byte = 0x6e ∨ byte = 0x52 ∨ byte = 0x63

/-- A reply between ESC and its final byte. -/
abbrev IsReply (bytes : List UInt8) : Prop := Framing.Message 0x1b ReplyEnd bytes

/-- ESC, a body without ends, and an end. -/
theorem isReply_of_body (body : List UInt8) {last : UInt8}
    (hbody : ∀ b ∈ body, b ≠ 0x1b ∧ ¬ ReplyEnd b) (hlast : ReplyEnd last) :
    IsReply (0x1b :: (body ++ [last])) := by
  refine ⟨body, last, rfl, ?_, ?_, hlast⟩
  · intro hmem
    rcases List.mem_append.mp hmem with hbody' | hlast'
    · exact (hbody 0x1b hbody').1 rfl
    · obtain rfl := List.mem_singleton.mp hlast'
      exact absurd hlast (by unfold ReplyEnd; decide +kernel)
  · intro b hb
    rcases List.mem_cons.mp hb with rfl | hb
    · unfold ReplyEnd
      decide
    · exact (hbody b hb).2

/-- The status is a reply. -/
theorem isReply_status : IsReply statusReply :=
  isReply_of_body [0x5b, 0x30] (by unfold ReplyEnd; decide +kernel) (.inl rfl)

theorem isReply_attributes : IsReply attributesReply :=
  isReply_of_body [0x5b, 0x3f, 0x31, 0x3b, 0x30] (by unfold ReplyEnd; decide +kernel)
    (.inr (.inr rfl))

/-- A decimal digit is between `0` and `9`. -/
theorem toNat_of_mem_toDigits {n : Nat} {c : Char} (h : c ∈ Nat.toDigits 10 n) :
    48 ≤ c.toNat ∧ c.toNat ≤ 57 := by
  have hdigit := Nat.isDigit_of_mem_toDigits (by decide) (by decide) h
  simpa [Char.isDigit, UInt32.le_iff_toNat_le] using hdigit

/-- A number is printed in digits. -/
theorem digit_of_mem_decimal {n : Nat} {byte : UInt8} (h : byte ∈ decimal n) :
    0x30 ≤ byte ∧ byte ≤ 0x39 := by
  obtain ⟨c, hc, rfl⟩ := List.mem_map.mp h
  have hval := toNat_of_mem_toDigits hc
  have hbyte : c.toUInt8.toNat = c.toNat := by
    change c.toNat % 256 = c.toNat
    omega
  rw [UInt8.le_iff_toNat_le, UInt8.le_iff_toNat_le, hbyte]
  exact hval

/-- The 32-bit numbers have at most ten digits. -/
theorem length_decimal_le {n : Nat} (h : n < 0x100000000) : (decimal n).length ≤ 10 := by
  unfold decimal
  rw [List.length_map]
  exact (Nat.length_toDigits_le_iff (by decide) (by decide)).mpr (by omega)

/-- The buffer of 32 bytes is large enough for the place of the cursor. -/
theorem cursorReport_eq (row column : Nat) :
    cursorReport row column =
      0x1b :: (([0x5b] ++ decimal ((row + 1) % 0x100000000) ++ [0x3b] ++
        decimal ((column + 1) % 0x100000000)) ++ [0x52]) := by
  have hrow := length_decimal_le (Nat.mod_lt (row + 1) (show 0 < 0x100000000 by decide))
  have hcolumn := length_decimal_le (Nat.mod_lt (column + 1) (show 0 < 0x100000000 by decide))
  unfold cursorReport
  rw [List.take_of_length_le]
  · simp
  · simp only [List.length_append, List.length_cons, List.length_nil]
    omega

/-- A cursor report is a reply, wherever the cursor is. -/
theorem isReply_cursorReport (row column : Nat) : IsReply (cursorReport row column) := by
  rw [cursorReport_eq]
  apply isReply_of_body _ _ (.inr (.inl rfl))
  have hdigit {byte : UInt8} (h : 0x30 ≤ byte ∧ byte ≤ 0x39) : byte ≠ 0x1b ∧ ¬ ReplyEnd byte := by
    obtain ⟨hlow, hhigh⟩ := h
    rw [UInt8.le_iff_toNat_le] at hlow hhigh
    unfold ReplyEnd
    simp only [ne_eq, ← UInt8.toNat_inj, not_or]
    refine ⟨fun h => ?_, fun h => ?_, fun h => ?_, fun h => ?_⟩ <;>
      simp_all
  intro byte hbyte
  simp only [List.mem_append, List.mem_singleton] at hbyte
  rcases hbyte with ((rfl | hrow) | rfl) | hcolumn
  · unfold ReplyEnd
    decide
  · exact hdigit (digit_of_mem_decimal hrow)
  · unfold ReplyEnd
    decide
  · exact hdigit (digit_of_mem_decimal hcolumn)

/-! ### Requests on the screen -/

namespace Screen

/-- The request an instruction is. -/
def request (t : Terminal) : Command → Option Request
  | .reply bytes => some ⟨bytes, terminalReplySize - t.replyLength⟩
  | .reportCursor => some ⟨cursorReport t.row t.column, terminalReplySize - t.replyLength⟩
  | _ => none

/-- The requests among some instructions, in order. -/
def requests (t : Terminal) : List Command → List Request
  | [] => []
  | c :: rest => (request t c).toList ++ requests (exec t c) rest

/-- An index queues nothing. -/
theorem queued_index (t : Terminal) : (index t).queued = t.queued := by
  unfold index
  split <;> rfl

theorem queued_wrap (t : Terminal) : (wrap t).queued = t.queued := by
  unfold wrap
  split
  · exact queued_index { t with column := 0 }
  · rfl

/-- Nor does writing a character. -/
theorem queued_write (t : Terminal) (character : Nat) : (write t character).queued = t.queued := by
  unfold write
  split <;> rfl

/-- Only requests change the queue. -/
theorem queued_exec_of_none {t : Terminal} {c : Command} (h : request t c = none) :
    (exec t c).queued = t.queued := by
  cases c with
  | reply bytes => cases h
  | reportCursor => cases h
  | print character =>
      have hwrite := queued_write (wrap t) character
      rw [queued_wrap] at hwrite
      exact hwrite
  | index => exact queued_index t
  | reverseIndex =>
      change (reverseIndex t).queued = t.queued
      unfold reverseIndex
      split <;> rfl
  | eraseDisplay mode =>
      change (eraseDisplay t mode).queued = t.queued
      unfold eraseDisplay
      repeat' split
      all_goals rfl
  | eraseLine mode =>
      change (eraseLine t mode).queued = t.queued
      unfold eraseLine
      repeat' split
      all_goals rfl
  | rendition change => cases change <;> rfl
  | margins top bottom =>
      change (setMargins t top bottom).queued = t.queued
      unfold setMargins
      split <;> rfl
  | insertLines count =>
      change (if InMargins t then moveDown t t.row count else t).queued = t.queued
      split <;> rfl
  | deleteLines count =>
      change (if InMargins t then moveUp t t.row count else t).queued = t.queued
      split <;> rfl
  | alternateScreen on =>
      change (alternateScreen t on).queued = t.queued
      unfold alternateScreen
      repeat' split
      all_goals rfl
  | _ => rfl

/-- The queue takes the part of a reply that fits. -/
theorem queued_queueReply (t : Terminal) (bytes : List UInt8) :
    (queueReply t bytes).queued =
      t.queued ++ bytes.take (terminalReplySize - t.replyLength) := by
  apply List.ext_getElem
  · simp [Terminal.queued, queueReply, Nat.min_comm]
  · intro i hi _
    have hlength : i < t.replyLength + min bytes.length (terminalReplySize - t.replyLength) := by
      simpa [Terminal.queued, queueReply] using hi
    by_cases hold : i < t.replyLength
    · have hnot : ¬ (t.replyLength ≤ i ∧
          i < t.replyLength + min bytes.length (terminalReplySize - t.replyLength)) := by omega
      rw [List.getElem_append_left (by simpa [Terminal.queued] using hold)]
      simp [Terminal.queued, queueReply, hnot]
    · have hnew : t.replyLength ≤ i ∧
          i < t.replyLength + min bytes.length (terminalReplySize - t.replyLength) := by omega
      have hbytes : i - t.replyLength < bytes.length := by omega
      rw [List.getElem_append_right (by simp [Terminal.queued]; omega)]
      simp [Terminal.queued, queueReply, hnew, hbytes]

/-- **An instruction queues what it requests**, as far as it fits. -/
theorem queued_exec (t : Terminal) (c : Command) :
    (exec t c).queued = t.queued ++ ((request t c).toList.map Request.written).flatten := by
  cases hrequest : request t c with
  | none => simpa using queued_exec_of_none hrequest
  | some r =>
      cases c with
      | reply bytes =>
          obtain rfl := Option.some.inj hrequest
          change (queueReply t bytes).queued = _
          simp [Request.written, queued_queueReply]
      | reportCursor =>
          obtain rfl := Option.some.inj hrequest
          change (queueReply t (cursorReport t.row t.column)).queued = _
          simp [Request.written, queued_queueReply]
      | _ => cases hrequest

/-- What instructions queue is what is written of their replies. -/
theorem queued_execAll (t : Terminal) (commands : List Command) :
    (execAll t commands).queued =
      t.queued ++ ((requests t commands).map Request.written).flatten := by
  induction commands generalizing t with
  | nil => simp [requests]
  | cons c rest ih =>
      rw [execAll_cons, ih, queued_exec, requests, List.map_append, List.flatten_append,
        List.append_assoc]

end Screen

/-! ### The replies the parser asks for -/

/-- An instruction to reply carries a complete reply. -/
def Command.Replies : Command → Prop
  | .reply bytes => IsReply bytes
  | _ => True

/-- A byte asks for whole replies only. -/
theorem next_replies (p : Parser) (byte : UInt8) : ∀ c ∈ (p.next byte).2, c.Replies := by
  intro c hc
  rcases p.next_simple_or_final byte with hsimple | ⟨hcsi, hfinal⟩
  · have hc := hsimple c hc
    cases c with
    | reply bytes => cases hc
    | _ => trivial
  · rw [Parser.next_final hcsi hfinal] at hc
    cases c with
    | reply bytes =>
        rcases List.mem_cons.mp hc with hwrap | haction
        · cases hwrap
        · revert haction
          cases csiFinal byte with
          | rendition =>
              intro haction
              obtain ⟨change, -, hchange⟩ := List.mem_map.mp haction
              cases hchange
          | setModes | resetModes =>
              intro haction
              obtain ⟨mode, -, hmode⟩ := List.mem_flatMap.mp haction
              unfold modeCommands at hmode
              repeat' split at hmode
              all_goals simp at hmode
          | report =>
              intro haction
              simp only [csiAction] at haction
              split at haction
              · obtain rfl := Command.reply.inj (List.mem_singleton.mp haction)
                exact isReply_status
              · split at haction <;> simp at haction
          | deviceAttributes =>
              intro haction
              obtain rfl := Command.reply.inj (List.mem_singleton.mp haction)
              exact isReply_attributes
          | _ =>
              intro haction
              simp [csiAction] at haction
    | _ => trivial

theorem commands_replies (p : Parser) (data : List UInt8) :
    ∀ c ∈ p.commands data, c.Replies := by
  intro c hc
  obtain ⟨first, byte, rest, -, hbyte⟩ := Transducer.mem_outputs hc
  exact next_replies _ byte c hbyte

/-- All requests are for replies. -/
theorem Screen.requests_replies (t : Terminal) {commands : List Command}
    (hc : ∀ c ∈ commands, c.Replies) : ∀ r ∈ requests t commands, IsReply r.reply := by
  induction commands generalizing t with
  | nil => intro r hr; cases hr
  | cons c rest ih =>
      intro r hr
      rcases List.mem_append.mp hr with hhere | hlater
      · have hrequest : request t c = some r := Option.mem_toList.mp hhere
        have hreplies := hc c List.mem_cons_self
        cases c with
        | reply bytes =>
            obtain rfl := Option.some.inj hrequest
            exact hreplies
        | reportCursor =>
            obtain rfl := Option.some.inj hrequest
            exact isReply_cursorReport t.row t.column
        | _ => cases hrequest
      · exact ih (exec t c) (fun c hmem => hc c (List.mem_cons_of_mem _ hmem)) r hlater

/-! ### Runs -/

namespace Terminal

/-- The requests a call processes. -/
def asked (t : Terminal) : Call → List Request
  | .feed data => Screen.requests t (t.parser.commands data)
  | _ => []

/-- A call together with the bytes it hands over. -/
def deliver (t : Terminal) : Call → Checked (List UInt8 × Terminal)
  | .takeResponse capacity => t.takeResponse capacity
  | c => do
      let t ← t.perform c
      .ok ([], t)

/-- What a run leaves: the requests it processed, the bytes it handed over and
the terminal. -/
structure Exchange where
  asked : List Request
  taken : List UInt8
  terminal : Terminal

/-- Calls one after the other. -/
def exchange (t : Terminal) : List Call → Checked Exchange
  | [] => .ok ⟨[], [], t⟩
  | c :: rest => do
      let (taken, next) ← t.deliver c
      let later ← next.exchange rest
      .ok ⟨t.asked c ++ later.asked, taken ++ later.taken, later.terminal⟩

/-- The bytes handed over and those that still wait. -/
def Exchange.stream (e : Exchange) : List UInt8 := e.taken ++ e.terminal.queued

/-- The stream consists of complete replies to some of the requests, in order. -/
def Exchange.Atomic (e : Exchange) : Prop :=
  ∃ answered : List (List UInt8), answered.Sublist (e.asked.map Request.reply) ∧
    e.stream = answered.flatten

/-- What a call hands over was queued, or asked for in it. -/
theorem WellFormed.deliver_eq {t : Terminal} (h : t.WellFormed) (c : Call) :
    ∃ taken next, t.deliver c = .ok (taken, next) ∧ next.WellFormed ∧
      t.queued ++ ((t.asked c).map Request.written).flatten = taken ++ next.queued := by
  obtain ⟨next, hperform, hstep⟩ := h.perform_eq c
  cases c with
  | feed data =>
      refine ⟨[], next, ?_, h.step hstep, ?_⟩
      · change (do let t ← t.perform (.feed data); .ok ([], t)) = _
        rw [hperform]
        rfl
      · cases hstep
        rw [Screen.feed_eq_execAll, asked, ← Screen.queued_execAll]
        rfl
  | flush =>
      refine ⟨[], next, ?_, h.step hstep, ?_⟩
      · change (do let t ← t.perform .flush; .ok ([], t)) = _
        rw [hperform]
        rfl
      · cases hstep
        exact List.append_nil _
  | takeResponse capacity =>
      obtain ⟨replies, htake, hdrop⟩ := h.takeResponse_eq capacity
      refine ⟨_, _, htake, h.step (.takeResponse capacity hdrop), ?_⟩
      have hrest : ({ t with
          replies := replies, replyLength := t.replyLength - capacity } : Terminal).queued =
            t.queued.drop capacity := hdrop
      rw [hrest, List.take_append_drop]
      simp [asked]

/-- A call asks for replies only. -/
theorem asked_replies (t : Terminal) (c : Call) : ∀ r ∈ t.asked c, IsReply r.reply := by
  cases c with
  | feed data => exact Screen.requests_replies t (commands_replies t.parser data)
  | flush => intro r hr; cases hr
  | takeResponse capacity => intro r hr; cases hr

/-- The stream of a run is what was written of its replies. -/
theorem WellFormed.exchange_eq {t : Terminal} (h : t.WellFormed) (calls : List Call) :
    ∃ e, t.exchange calls = .ok e ∧
      t.queued ++ (e.asked.map Request.written).flatten = e.stream ∧
      ∀ r ∈ e.asked, IsReply r.reply := by
  induction calls generalizing t with
  | nil => exact ⟨⟨[], [], t⟩, rfl, by simp [Exchange.stream], fun r hr => by cases hr⟩
  | cons c rest ih =>
      obtain ⟨taken, next, hdeliver, hnext, hqueued⟩ := h.deliver_eq c
      obtain ⟨later, hlater, hstream, hreplies⟩ := ih hnext
      refine ⟨⟨t.asked c ++ later.asked, taken ++ later.taken, later.terminal⟩, ?_, ?_, ?_⟩
      · rw [exchange, hdeliver, Loops.ok_bind]
        simp only [hlater, Loops.ok_bind]
      · calc t.queued ++ ((t.asked c ++ later.asked).map Request.written).flatten
            = (t.queued ++ ((t.asked c).map Request.written).flatten) ++
                (later.asked.map Request.written).flatten := by simp
          _ = taken ++ (next.queued ++ (later.asked.map Request.written).flatten) := by
              rw [hqueued, List.append_assoc]
          _ = taken ++ (later.taken ++ later.terminal.queued) := by
              rw [hstream]
              rfl
          _ = _ := (List.append_assoc _ _ _).symm
      · intro r hr
        rcases List.mem_append.mp hr with hhere | hthere
        · exact asked_replies t c r hhere
        · exact hreplies r hthere

/-- A reply is written whole or not at all exactly if the queue is full or has room for it. -/
theorem written_iff (r : Request) (hreply : IsReply r.reply) :
    r.written = [] ∨ r.written = r.reply ↔ r.Fits := by
  obtain ⟨body, last, hshape, -, -, -⟩ := hreply
  have hne : r.reply ≠ [] := by
    rw [hshape]
    exact List.cons_ne_nil _ _
  unfold Request.written Request.Fits
  rw [List.take_eq_nil_iff, or_iff_left hne, List.take_eq_self_iff]

/-- From an empty queue a run is atomic when every request fits. -/
theorem WellFormed.atomic_iff {t : Terminal} (h : t.WellFormed) (hempty : t.queued = [])
    {calls : List Call} {e : Exchange} (hexchange : t.exchange calls = .ok e) :
    e.Atomic ↔ ∀ r ∈ e.asked, r.Fits := by
  obtain ⟨e', hexchange', hstream, hreplies⟩ := h.exchange_eq calls
  rw [hexchange] at hexchange'
  obtain rfl := Except.ok.inj hexchange'
  rw [hempty, List.nil_append] at hstream
  have hmessage : ∀ w ∈ e.asked.map fun r => (r.reply, r.written), IsReply w.1 := by
    intro w hw
    obtain ⟨r, hr, rfl⟩ := List.mem_map.mp hw
    exact hreplies r hr
  have hinitial : ∀ w ∈ e.asked.map fun r => (r.reply, r.written), w.2 <+: w.1 := by
    intro w hw
    obtain ⟨r, hr, rfl⟩ := List.mem_map.mp hw
    exact List.take_prefix r.room r.reply
  have hwhole := Framing.whole_iff hmessage hinitial
  rw [List.map_map, List.map_map] at hwhole
  unfold Exchange.Atomic
  rw [← hstream]
  refine hwhole.trans ?_
  rw [List.forall_mem_map]
  constructor
  · intro hall r hr
    exact (written_iff r (hreplies r hr)).mp (hall r hr)
  · intro hall r hr
    exact (written_iff r (hreplies r hr)).mpr (hall r hr)

/-- **The replies of a session are atomic exactly when every request finds the
queue full or with room for the whole reply.** -/
theorem replies_atomic_iff {t₀ : Terminal} (h : Created t₀) (calls : List Call) :
    ∃ e, t₀.exchange calls = .ok e ∧ (e.Atomic ↔ ∀ r ∈ e.asked, r.Fits) := by
  obtain ⟨e, hexchange, -, -⟩ := h.wellFormed.exchange_eq calls
  obtain ⟨fw, rfl⟩ := h.eq_fresh
  exact ⟨e, hexchange, (fresh_wellFormed fw).atomic_iff rfl hexchange⟩

/-- One request on an empty queue. -/
theorem replies_atomic_one :
    ∃ e, (Firmware.ample 2 2 7).fresh.exchange [.feed [0x1b, 0x5b, 0x35, 0x6e]] = .ok e ∧
      (e.Atomic ↔ ∀ r ∈ e.asked, r.Fits) :=
  replies_atomic_iff (created_ample 2 2 7) _

/-- `CSI c` and then `CSI 5 n` thirty-one times: the last reply has one byte left. -/
def crowdingRequests : List UInt8 :=
  [0x1b, 0x5b, 0x63] ++ (List.replicate 31 [0x1b, 0x5b, 0x35, 0x6e]).flatten

/-- The reply to the last of these requests is cut. -/
theorem reply_cut :
    ∃ e, (Firmware.ample 2 2 7).fresh.exchange [.feed crowdingRequests] = .ok e ∧ ¬ e.Atomic := by
  have hwell := (created_ample 2 2 7).wellFormed
  obtain ⟨e, hexchange, -, -⟩ := hwell.exchange_eq [.feed crowdingRequests]
  refine ⟨e, hexchange, ?_⟩
  rw [hwell.atomic_iff rfl hexchange]
  have hasked : e.asked = (Firmware.ample 2 2 7).fresh.asked (.feed crowdingRequests) := by
    obtain ⟨taken, next, hdeliver, -, -⟩ := hwell.deliver_eq (.feed crowdingRequests)
    rw [exchange, hdeliver] at hexchange
    obtain rfl := Except.ok.inj hexchange
    exact List.append_nil _
  rw [hasked]
  decide

end Terminal

end WolfSshUefi
