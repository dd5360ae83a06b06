import WolfSshUefi.Library.Potentials
import WolfSshUefi.Terminal.Contents
import WolfSshUefi.Terminal.Covering
import WolfSshUefi.Terminal.Reporting

/-!
# What the terminal answers

The terminal sends bytes back for three control sequences only, and what it sends is made
of a few bytes that no key but Escape and the printable ones gives (`exchange_known`).
It cannot be made to send without end either: a reply is at most three and a half times
as long as the sequence that asks for it (`answers_bounded`).
-/

namespace WolfSshUefi

open Transducer

/-- The bytes that replies are made of: ESC, the digits and some of the printable ones. -/
def ReplyByte (byte : UInt8) : Prop :=
  byte = 0x1b ∨ byte = 0x5b ∨ byte = 0x3f ∨ byte = 0x3b ∨ (0x30 ≤ byte ∧ byte ≤ 0x39) ∨
    ReplyEnd byte

instance (byte : UInt8) : Decidable (ReplyByte byte) := by
  unfold ReplyByte ReplyEnd; infer_instance

/-- The replies that a terminal of this size has: its status, what it is, and a place on its
screen. -/
def Request.Known (rows columns : Nat) (r : Request) : Prop :=
  r.reply = statusReply ∨ r.reply = attributesReply ∨
    ∃ row column, row < rows ∧ column < columns ∧ r.reply = cursorReport row column

/-- An instruction that asks for no reply. -/
def Command.Quiet : Command → Prop
  | .reply _ | .reportCursor => False
  | _ => True

/-- The bytes that an instruction may send back. -/
def Command.weight : Command → Nat
  | .reply bytes => bytes.length
  | .reportCursor => 14
  | _ => 0

/-- What asks for no reply weighs nothing. -/
theorem Command.Quiet.weight {c : Command} (h : c.Quiet) : c.weight = 0 := by
  cases c with
  | reply bytes => exact h.elim
  | reportCursor => exact h.elim
  | _ => rfl

/-- It requests nothing. -/
theorem Command.Quiet.request {c : Command} (h : c.Quiet) (t : Terminal) :
    Screen.request t c = none := by
  cases c with
  | reply bytes => exact h.elim
  | reportCursor => exact h.elim
  | _ => rfl

/-- Printing and moving ask for no reply. -/
theorem Command.Simple.quiet {c : Command} (h : c.Simple) : c.Quiet := by
  cases c with
  | reply bytes => exact h
  | reportCursor => exact h
  | _ => trivial

/-- Setting a mode does not, either. -/
theorem quiet_modeCommands (privateCsi on : Bool) (mode : Nat) :
    ∀ c ∈ modeCommands privateCsi on mode, c.Quiet := by
  intro c hc
  unfold modeCommands at hc
  repeat' split at hc
  all_goals simp only [List.mem_singleton, List.not_mem_nil] at hc
  all_goals
    subst hc
    trivial

/-- **What the final byte of a control sequence asks for.** -/
theorem csiAction_answers (final : CsiFinal) (privateCsi : Bool) (params : List Int) :
    (∀ c ∈ csiAction final privateCsi params, c.Quiet) ∨
      csiAction final privateCsi params = [.reply attributesReply] ∨
      csiAction final privateCsi params = [.reply statusReply] ∨
      (csiAction final privateCsi params = [.reportCursor] ∧ valueAt params 0 ≠ 0) := by
  cases final with
  | report =>
      simp only [csiAction]
      by_cases hstatus : valueAt params 0 = 5
      · right; right; left
        rw [if_pos hstatus]
      rw [if_neg hstatus]
      by_cases hcursor : valueAt params 0 = 6
      · right; right; right
        rw [if_pos hcursor, hcursor]
        exact ⟨rfl, by decide⟩
      · left
        rw [if_neg hcursor]
        exact fun _ hc => absurd hc List.not_mem_nil
  | deviceAttributes => exact .inr (.inl rfl)
  | rendition =>
      left
      intro c hc
      obtain ⟨change, -, rfl⟩ := List.mem_map.mp hc
      trivial
  | setModes | resetModes =>
      left
      intro c hc
      obtain ⟨mode, -, hmode⟩ := List.mem_flatMap.mp hc
      exact quiet_modeCommands _ _ mode c hmode
  | _ =>
      left
      simp [csiAction, Command.Quiet]

/-- **What a byte asks for.** -/
theorem Parser.next_answers (p : Parser) (byte : UInt8) :
    (∀ c ∈ (p.next byte).2, c.Quiet) ∨
      (p.state = .csi ∧ (p.next byte).1.state = .ground ∧
        ((p.next byte).2 = [.cancelWrap, .reply attributesReply] ∨
          (p.next byte).2 = [.cancelWrap, .reply statusReply] ∨
          ((p.next byte).2 = [.cancelWrap, .reportCursor] ∧ valueAt p.params 0 ≠ 0))) := by
  rcases p.next_simple_or_final byte with hsimple | ⟨hcsi, hfinal⟩
  · exact .inl fun c hc => (hsimple c hc).quiet
  · rw [Parser.next_final hcsi hfinal]
    simp only [csiCommands]
    rcases csiAction_answers (csiFinal byte) p.privateCsi p.params with
      hquiet | hreply | hreply | ⟨hreply, hvalue⟩
    · left
      intro c hc
      rcases List.mem_cons.mp hc with rfl | hc
      · trivial
      · exact hquiet c hc
    · exact .inr ⟨hcsi, trivial, .inl (by rw [hreply])⟩
    · exact .inr ⟨hcsi, trivial, .inr (.inl (by rw [hreply]))⟩
    · exact .inr ⟨hcsi, trivial, .inr (.inr ⟨by rw [hreply], hvalue⟩)⟩

/-! ### Paying for the answers -/

/-- How much of a control sequence the parser has read at least: `ESC`, `[` and a digit of
the first parameter. -/
def Parser.saved (p : Parser) : Nat :=
  match p.state with
  | .escape => 1
  | .csi => if valueAt p.params 0 = 0 then 2 else 3
  | _ => 0

namespace Parser

/-- At most three bytes are saved up. -/
theorem saved_le (p : Parser) : p.saved ≤ 3 := by
  unfold saved
  split
  · decide
  · split <;> decide
  · decide

/-- In a control sequence two are. -/
theorem saved_csi {p : Parser} (h : p.state = .csi) : 2 ≤ p.saved := by
  unfold saved
  rw [h]
  dsimp only
  split <;> decide

/-- With a digit there are three. -/
theorem saved_digit {p : Parser} (h : p.state = .csi) (hvalue : valueAt p.params 0 ≠ 0) :
    p.saved = 3 := by
  unfold saved
  rw [h]
  exact if_neg hvalue

/-- Outside it is one at most. -/
theorem saved_not_csi {p : Parser} (h : p.state ≠ .csi) : p.saved ≤ 1 := by
  unfold saved
  split
  · exact Nat.le_refl 1
  · next hcsi => exact absurd hcsi h
  · exact Nat.zero_le 1

/-- A byte of text begins no control sequence. -/
theorem ground_not_csi {p : Parser} (h : p.state ≠ .csi) (byte : UInt8) :
    (p.ground byte).1.state ≠ .csi := by
  unfold ground
  repeat' split
  all_goals first | exact h | (intro hcsi; cases hcsi)

/-- A control sequence begins with `ESC [` and without parameters. -/
theorem next_csi {p : Parser} {byte : UInt8} (h : (p.next byte).1.state = .csi) :
    p.state = .csi ∨ (p.state = .escape ∧ (p.next byte).1.saved = 2) := by
  by_cases hescape : byte = 0x1b
  · subst hescape
    unfold next at h
    rw [if_pos rfl] at h
    split at h
    · cases h
    split at h
    · cases h
    · exact .inl h
  cases hstate : p.state with
  | csi => exact .inl rfl
  | escape =>
      right
      have hnext : p.next byte = p.escape byte := by
        unfold next
        rw [if_neg hescape, hstate]
      rw [hnext] at h ⊢
      unfold escape at h ⊢
      by_cases hintroducer : byte = 0x5b
      · rw [if_pos hintroducer]
        exact ⟨rfl, rfl⟩
      · rw [if_neg hintroducer] at h
        split at h <;> cases h
  | ground =>
      have hnot : p.state ≠ .csi := by rw [hstate]; decide
      have hnext : p.next byte = p.text byte := by
        unfold next
        rw [if_neg hescape, hstate]
      rw [hnext] at h
      unfold text at h
      split at h
      · exact absurd h (ground_not_csi hnot byte)
      split at h
      · exact absurd h hnot
      · exact absurd h (ground_not_csi (p := { p with utf8Remaining := 0 }) hnot byte)
  | osc =>
      unfold next at h
      rw [if_neg hescape, hstate] at h
      dsimp only at h
      split at h <;> cases h
  | oscEscape =>
      unfold next at h
      rw [if_neg hescape, hstate] at h
      dsimp only at h
      split at h <;> cases h

/-- A byte more is read. -/
theorem saved_next (p : Parser) (byte : UInt8) : (p.next byte).1.saved ≤ p.saved + 1 := by
  by_cases hcsi : (p.next byte).1.state = .csi
  · rcases next_csi hcsi with hold | ⟨hescape, hnew⟩
    · have hthree := (p.next byte).1.saved_le
      have htwo := saved_csi hold
      omega
    · have hone : p.saved = 1 := by
        unfold saved
        rw [hescape]
      omega
  · have hone := saved_not_csi hcsi
    omega

/-- **Every answer has been paid for**: three and a half bytes for each byte read. -/
theorem next_paid (p : Parser) (byte : UInt8) :
    total (fun c => 2 * c.weight) (p.next byte).2 + 7 * (p.next byte).1.saved ≤
      7 * p.saved + 7 := by
  rcases p.next_answers byte with hquiet | ⟨hcsi, hground, hanswer⟩
  · have hfree : total (fun c => 2 * c.weight) (p.next byte).2 = 0 :=
      total_of_free _ fun c hc => by rw [(hquiet c hc).weight]
    have hsaved := p.saved_next byte
    omega
  · have hspent : (p.next byte).1.saved = 0 := by
      unfold saved
      rw [hground]
    have htwo := saved_csi hcsi
    rcases hanswer with hreply | hreply | ⟨hreply, hvalue⟩
    · have hcost : total (fun c : Command => 2 * c.weight) (p.next byte).2 = 14 := by
        rw [hreply]
        decide
      omega
    · have hcost : total (fun c : Command => 2 * c.weight) (p.next byte).2 = 8 := by
        rw [hreply]
        decide
      omega
    · have hcost : total (fun c : Command => 2 * c.weight) (p.next byte).2 = 28 := by
        rw [hreply]
        decide
      have hthree := saved_digit hcsi hvalue
      omega

end Parser

/-! ### Requests -/

namespace Screen

/-- What an instruction sends back is no more than its weight. -/
theorem written_le {t : Terminal} (h : t.WellFormed) (c : Command) :
    ((request t c).toList.map Request.written).flatten.length ≤ c.weight := by
  cases c with
  | reply bytes =>
      simp only [request, Option.toList_some, List.map_singleton, List.flatten_singleton,
        Request.written, List.length_take, Command.weight]
      omega
  | reportCursor =>
      obtain ⟨hrow, hcolumn⟩ := Terminal.report_small h
      have hbody := length_placeBody hrow hcolumn
      simp only [request, Option.toList_some, List.map_singleton, List.flatten_singleton,
        Request.written, List.length_take, Command.weight, cursorReport_placeBody hrow hcolumn,
        List.length_append, List.length_singleton]
      omega
  | _ => exact Nat.le_refl 0

/-- What instructions send back is no more than their weights together. -/
theorem requests_written_le {t : Terminal} (h : t.WellFormed) {commands : List Command}
    (hc : ∀ c ∈ commands, c.Valid) :
    2 * ((requests t commands).map Request.written).flatten.length ≤
      total (fun c => 2 * c.weight) commands := by
  induction commands generalizing t with
  | nil => exact Nat.le_refl 0
  | cons c rest ih =>
      have hhere := written_le h c
      have hlater := ih (h.exec (hc c List.mem_cons_self)) fun c' hc' =>
        hc c' (List.mem_cons_of_mem _ hc')
      rw [requests, List.map_append, List.flatten_append, List.length_append, total]
      omega

/-- No instruction changes the size of the screen. -/
theorem exec_size {t : Terminal} (h : t.WellFormed) (c : Command) :
    (exec t c).rows = t.rows ∧ (exec t c).columns = t.columns := by
  rcases exec_picture h c with ⟨-, hmarked⟩ | ⟨-, hblanked⟩
  · exact ⟨hmarked.rows, hmarked.columns⟩
  · exact ⟨hblanked.rows, hblanked.columns⟩

/-- The requests are for the replies that the terminal has, and for places on its screen. -/
theorem requests_known {t : Terminal} (h : t.WellFormed) {commands : List Command}
    (hc : ∀ c ∈ commands, c.Valid) (hanswers : ∀ bytes, .reply bytes ∈ commands →
      bytes = statusReply ∨ bytes = attributesReply) :
    ∀ r ∈ requests t commands, r.Known t.rows t.columns := by
  induction commands generalizing t with
  | nil => exact fun _ hr => absurd hr List.not_mem_nil
  | cons c rest ih =>
      intro r hr
      rcases List.mem_append.mp hr with hhere | hlater
      · have hrequest : request t c = some r := Option.mem_toList.mp hhere
        cases c with
        | reply bytes =>
            obtain rfl := Option.some.inj hrequest
            rcases hanswers bytes List.mem_cons_self with hstatus | hattributes
            · exact .inl hstatus
            · exact .inr (.inl hattributes)
        | reportCursor =>
            obtain rfl := Option.some.inj hrequest
            exact .inr (.inr ⟨t.row, t.column, h.row_lt, h.column_lt, rfl⟩)
        | _ => cases hrequest
      · have hknown := ih (h.exec (hc c List.mem_cons_self))
          (fun c' hc' => hc c' (List.mem_cons_of_mem _ hc'))
          (fun bytes hmem => hanswers bytes (List.mem_cons_of_mem _ hmem)) r hlater
        obtain ⟨hrows, hcolumns⟩ := exec_size h c
        rwa [hrows, hcolumns] at hknown

end Screen

/-- Of the fixed replies the bytes ask for the two that there are. -/
theorem Parser.commands_answers (p : Parser) (data bytes : List UInt8)
    (h : .reply bytes ∈ p.commands data) : bytes = statusReply ∨ bytes = attributesReply := by
  obtain ⟨first, byte, rest, -, hbyte⟩ := Transducer.mem_outputs h
  rcases Parser.next_answers _ byte with hquiet | ⟨-, -, hanswer⟩
  · exact (hquiet _ hbyte).elim
  · rcases hanswer with hreply | hreply | ⟨hreply, -⟩
    all_goals
      rw [hreply] at hbyte
      simp only [List.mem_cons, reduceCtorEq, false_or, List.not_mem_nil, or_false,
        Command.reply.injEq] at hbyte
    · exact .inr hbyte
    · exact .inl hbyte

/-- What the terminal sends is made of the bytes of replies. -/
theorem Request.Known.bytes {rows columns : Nat} {r : Request} (h : r.Known rows columns) :
    ∀ b ∈ r.reply, ReplyByte b := by
  rcases h with hstatus | hattributes | ⟨row, column, -, -, hreport⟩
  · rw [hstatus]
    decide +kernel
  · rw [hattributes]
    decide +kernel
  · intro b hb
    have hdigit {n : Nat} (hn : b ∈ decimal n) : ReplyByte b :=
      .inr (.inr (.inr (.inr (.inl (digit_of_mem_decimal hn)))))
    rw [hreport, cursorReport_eq] at hb
    simp only [List.mem_cons, List.mem_append, List.not_mem_nil, or_false] at hb
    rcases hb with rfl | (((rfl | hrow) | rfl) | hcolumn) | rfl
    · decide
    · decide
    · exact hdigit hrow
    · decide
    · exact hdigit hcolumn
    · decide

/-! ### Runs -/

namespace Terminal

/-- What a checked computation gives passes on to the next. -/
theorem checked_bind_ok {α β : Type} {x : Checked α} {f : α → Checked β} {b : β} :
    x >>= f = .ok b ↔ ∃ a, x = .ok a ∧ f a = .ok b := by
  cases x <;> simp [bind, Except.bind]

/-- The first call of an exchange, and the others. -/
theorem exchange_cons {t : Terminal} {c : Call} {rest : List Call} {e : Exchange}
    (h : t.exchange (c :: rest) = .ok e) :
    ∃ taken next later, t.deliver c = .ok (taken, next) ∧ next.exchange rest = .ok later ∧
      e = ⟨t.asked c ++ later.asked, taken ++ later.taken, later.terminal⟩ := by
  obtain ⟨⟨taken, next⟩, hdeliver, hlater⟩ := checked_bind_ok.mp h
  obtain ⟨later, hrest, hsame⟩ := checked_bind_ok.mp hlater
  exact ⟨taken, next, later, hdeliver, hrest, (Except.ok.inj hsame).symm⟩

/-- One exchange after the other. -/
theorem exchange_append {t : Terminal} {first rest : List Call} {e e' : Exchange}
    (hfirst : t.exchange first = .ok e) (hrest : e.terminal.exchange rest = .ok e') :
    t.exchange (first ++ rest) = .ok ⟨e.asked ++ e'.asked, e.taken ++ e'.taken, e'.terminal⟩ := by
  induction first generalizing t e with
  | nil =>
      obtain rfl := Except.ok.inj hfirst
      exact hrest
  | cons c tail ih =>
      obtain ⟨taken, next, later, hdeliver, htail, rfl⟩ := exchange_cons hfirst
      rw [List.cons_append, exchange, hdeliver, Loops.ok_bind]
      simp only [ih htail hrest, Loops.ok_bind, List.append_assoc]

/-- What a call hands over changes nothing in what it does. -/
theorem perform_of_deliver {t t' : Terminal} {c : Call} {taken : List UInt8}
    (h : t.deliver c = .ok (taken, t')) : t.perform c = .ok t' := by
  cases c with
  | takeResponse capacity =>
      have htake : t.takeResponse capacity = .ok (taken, t') := h
      rw [perform, htake]
      rfl
  | feed data =>
      obtain ⟨u, hperform, hsame⟩ := checked_bind_ok.mp h
      obtain ⟨-, rfl⟩ := Prod.mk.inj (Except.ok.inj hsame)
      exact hperform
  | flush =>
      obtain ⟨u, hperform, hsame⟩ := checked_bind_ok.mp h
      obtain ⟨-, rfl⟩ := Prod.mk.inj (Except.ok.inj hsame)
      exact hperform

/-- An exchange is a run. -/
theorem run_of_exchange {t : Terminal} {calls : List Call} {e : Exchange}
    (h : t.exchange calls = .ok e) : t.run calls = .ok e.terminal := by
  induction calls generalizing t e with
  | nil =>
      obtain rfl := Except.ok.inj h
      rfl
  | cons c rest ih =>
      obtain ⟨taken, next, later, hdeliver, hrest, rfl⟩ := exchange_cons h
      unfold Terminal.run at ih ⊢
      rw [List.foldlM_cons, perform_of_deliver hdeliver, Loops.ok_bind]
      have hrun := ih hrest
      exact hrun

/-- The step of a call. -/
theorem WellFormed.step_of_deliver {t t' : Terminal} (h : t.WellFormed) {c : Call}
    {taken : List UInt8} (hdeliver : t.deliver c = .ok (taken, t')) : t.Step c t' := by
  obtain ⟨next, hperform, hstep⟩ := h.perform_eq c
  obtain rfl := Except.ok.inj (hperform.symm.trans (perform_of_deliver hdeliver))
  exact hstep

/-- No call changes the size of the screen. -/
theorem WellFormed.step_size {t t' : Terminal} (h : t.WellFormed) {c : Call}
    (hstep : t.Step c t') : t'.rows = t.rows ∧ t'.columns = t.columns := by
  cases hstep with
  | feed data =>
      rcases Screen.feed_picture h data with ⟨-, hmarked⟩ | ⟨-, hwiped⟩
      · exact ⟨hmarked.rows, hmarked.columns⟩
      · exact ⟨hwiped.rows, hwiped.columns⟩
  | flush hpainting => exact ⟨rfl, rfl⟩
  | takeResponse capacity hreplies => exact ⟨rfl, rfl⟩

/-- **Every exchange is paid for, and asks for known replies only.** -/
theorem WellFormed.exchange_known {t : Terminal} (h : t.WellFormed) {calls : List Call}
    {e : Exchange} (hexchange : t.exchange calls = .ok e) :
    2 * (e.asked.map Request.written).flatten.length + 7 * e.terminal.parser.saved ≤
      7 * t.parser.saved + 7 * (fed calls).length ∧
      ∀ r ∈ e.asked, r.Known t.rows t.columns := by
  induction calls generalizing t e with
  | nil =>
      obtain rfl := Except.ok.inj hexchange
      exact ⟨by simp, fun _ hr => absurd hr List.not_mem_nil⟩
  | cons c rest ih =>
      obtain ⟨taken, next, later, hdeliver, hrest, rfl⟩ := exchange_cons hexchange
      have hstep := h.step_of_deliver hdeliver
      obtain ⟨hpaid, hknown⟩ := ih (h.step hstep) hrest
      obtain ⟨hrows, hcolumns⟩ := h.step_size hstep
      rw [hrows, hcolumns] at hknown
      suffices hcall : 2 * ((t.asked c).map Request.written).flatten.length +
          7 * next.parser.saved ≤ 7 * t.parser.saved + 7 * (fed [c]).length ∧
          ∀ r ∈ t.asked c, r.Known t.rows t.columns by
        obtain ⟨hpaid', hknown'⟩ := hcall
        have hfed : (fed (c :: rest)).length = (fed [c]).length + (fed rest).length := by
          have hsplit : fed (c :: rest) = fed [c] ++ fed rest :=
            show fed ([c] ++ rest) = _ from List.flatMap_append
          rw [hsplit, List.length_append]
        refine ⟨?_, fun r hr => (List.mem_append.mp hr).elim (hknown' r) (hknown r)⟩
        simp only [List.map_append, List.flatten_append, List.length_append, hfed]
        omega
      cases hstep with
      | feed data =>
          have hvalid := t.parser.commands_valid data
          have hwritten := Screen.requests_written_le h hvalid
          have htotal := @total_outputs_le _ _ _ Parser.next (fun c : Command => 2 * c.weight)
            (fun p : Parser => 7 * p.saved) 7 Parser.next_paid t.parser data
          have hdata : fed [.feed data] = data := List.append_nil data
          rw [hdata, Screen.parser_feed]
          refine ⟨Nat.le_trans (Nat.add_le_add_right hwritten _) htotal, ?_⟩
          exact Screen.requests_known h hvalid (t.parser.commands_answers data)
      | flush hpainting =>
          exact ⟨Nat.le_of_eq (Nat.zero_add _), fun _ hr => absurd hr List.not_mem_nil⟩
      | takeResponse capacity hreplies =>
          exact ⟨Nat.le_of_eq (Nat.zero_add _), fun _ hr => absurd hr List.not_mem_nil⟩

/-- **The terminal cannot be made to talk.**  Whatever a session feeds its terminal and
whenever it takes replies, the replies are the three that the terminal has, the cursor's
place being one on its screen, cut at the end of the queue; and they are at most three and a
half times as long as what was fed. -/
theorem answers_bounded {t : Terminal} (h : Created t) (calls : List Call) :
    ∃ e, t.exchange calls = .ok e ∧ e.stream = (e.asked.map Request.written).flatten ∧
      (∀ r ∈ e.asked, r.Known t.rows t.columns) ∧
      2 * e.stream.length ≤ 7 * (fed calls).length := by
  obtain ⟨e, hexchange, hstream, -⟩ := h.wellFormed.exchange_eq calls
  obtain ⟨hpaid, hknown⟩ := h.wellFormed.exchange_known hexchange
  obtain ⟨fw, rfl⟩ := h.eq_fresh
  have hwritten : e.stream = (e.asked.map Request.written).flatten := by
    rw [← hstream]
    exact List.nil_append _
  have hsaved : fw.fresh.parser.saved = 0 := rfl
  refine ⟨e, hexchange, hwritten, hknown, ?_⟩
  rw [hwritten]
  omega

/-- `CSI c` and `CSI 5 n`, of which two bytes are taken. -/
theorem answers_bounded_two :
    ∃ e, (Firmware.ample 2 2 7).fresh.exchange
        [.feed [0x1b, 0x5b, 0x63, 0x1b, 0x5b, 0x35, 0x6e], .takeResponse 2] = .ok e ∧
      e.stream = (e.asked.map Request.written).flatten ∧ (∀ r ∈ e.asked, r.Known 2 2) ∧
      2 * e.stream.length ≤ 49 :=
  answers_bounded (created_ample 2 2 7) _

end Terminal

end WolfSshUefi
