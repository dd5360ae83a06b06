import WolfSshUefi.Session.Conversing

/-!
# What a session says

All that a session sends are keystrokes and replies of its terminal, in the order of its
trace, each whole but for the last of a session that fails (`session_says`).  The replies
have no byte by which a key that the server could use is typed: what the server gets, but
for the bytes of replies, is what was typed and nothing else (`only_keys_type`).
-/

namespace WolfSshUefi

namespace Session

open Terminal

variable {ws : WolfSshErrors}

/-- All that wolfSSH has taken in a session, by its trace. -/
def received (trace : List Event) : List UInt8 := (messages trace).flatMap Message.taken

/-- **What wolfSSH takes is a beginning of what is said**, all of it when nothing failed. -/
theorem received_initial {s : Session} {spoken : List Spoken}
    (horder : messages s.trace = spoken.map Spoken.message) (h : Through s spoken) :
    received s.trace <+: spoken.flatMap Spoken.bytes ∧
      (¬ EfiError s.status → received s.trace = spoken.flatMap Spoken.bytes) := by
  have hreceived : received s.trace = spoken.flatMap Spoken.accepted := by
    unfold received
    rw [horder, List.flatMap_map]
    rfl
  have hwhole {spoken : List Spoken} (h : Whole spoken) :
      spoken.flatMap Spoken.accepted = spoken.flatMap Spoken.bytes := List.flatMap_congr h
  rw [hreceived]
  rcases h with hall | ⟨herror, -, before, last, rfl, hbefore⟩
  · rw [hwhole hall]
    exact ⟨List.prefix_refl _, fun _ => rfl⟩
  · refine ⟨?_, fun hnot => absurd herror hnot⟩
    rw [List.flatMap_append, List.flatMap_append, hwhole hbefore, List.flatMap_singleton,
      List.flatMap_singleton]
    exact (List.prefix_append_right_inj _).mpr (takes_initial last.bytes last.answers)

/-- An account of a session that has returned: it has read the answers `used` and sent the
messages `spoken`, each with `SendAll` and by the answers of wolfSSH in order; its trace has
these messages, byte for byte, with what wolfSSH has taken of them.  Those of the keyboard are
the keystrokes; those of the terminal are what the calls on it have handed over, and with what
still waits in it, what was written of its replies to what the session has heard.  wolfSSH has
taken each message whole, but for the last one when the session has failed there. -/
structure Account (ws : WolfSshErrors) (t : Terminal) (script : Script) (s : Session)
    (used : List SshRead) (spoken : List Spoken) (calls : List Call) (e : Exchange) : Prop where
  ends : loop ws (script.reads.length + 2) ⟨t, script, efiSuccess, false, false, []⟩ = .ok s
  reads : script.reads = used ++ s.script.reads
  sends : script.sends = spoken.flatMap Spoken.answers ++ s.script.sends
  sent : ∀ m ∈ spoken, m.Sent ws
  order : messages s.trace = spoken.map Spoken.message
  typed : voiced .keyboard spoken = (keystrokes s.trace).flatMap handed
  exchange : t.exchange calls = .ok e
  terminal : e.terminal = s.terminal
  heard : fed calls = (heard ws used script.extended).1
  taken : e.taken = voiced .terminal spoken
  replied : voiced .terminal spoken ++ s.terminal.queued = (e.asked.map Request.written).flatten
  through : Through s spoken

/-- The conversation of a loop is an account of the session. -/
theorem Converses.account {t : Terminal} (h : Created t) {script : Script} {s : Session}
    {used : List SshRead} {spoken : List Spoken}
    (hloop : loop ws (script.reads.length + 2) ⟨t, script, efiSuccess, false, false, []⟩ = .ok s)
    (hconverses : Converses ws ⟨t, script, efiSuccess, false, false, []⟩ s used spoken)
    (hthrough : Through s spoken) : ∃ calls e, Account ws t script s used spoken calls e := by
  obtain ⟨calls, e, hexchange, hterminal, hfed, htaken⟩ := hconverses.calls
  obtain ⟨e', hexchange', hstream, -⟩ := h.wellFormed.exchange_eq calls
  obtain rfl := Except.ok.inj (hexchange'.symm.trans hexchange)
  have hempty : t.queued = [] := by
    obtain ⟨fw, rfl⟩ := h.eq_fresh
    rfl
  have hstart : Typing script.keys ⟨t, script, efiSuccess, false, false, []⟩ := ⟨rfl, rfl⟩
  have hhanded : typedBytes s.trace = (keystrokes s.trace).flatMap handed :=
    (loop_typing hstart hloop).bytes
  rw [hempty, List.nil_append] at hstream
  exact ⟨calls, e', {
    ends := hloop, reads := hconverses.reads, sends := hconverses.sends, sent := hconverses.sent
    order := hconverses.order, typed := hconverses.typed.symm.trans hhanded
    exchange := hexchange, terminal := hterminal, heard := hfed, taken := htaken
    replied := by rw [hstream, ← htaken, ← hterminal]; rfl
    through := hthrough }⟩

/-- A session that returns has been a conversation. -/
theorem returns_converses {t : Terminal} {script : Script} {status : EfiStatus}
    {trace : List Event}
    (hreturns : runInteractiveSession ws (some t) script = .ok (status, trace)) :
    ∃ s used spoken,
      loop ws (script.reads.length + 2) ⟨t, script, efiSuccess, false, false, []⟩ = .ok s ∧
      status = s.status ∧ trace = s.trace ∧
      Converses ws ⟨t, script, efiSuccess, false, false, []⟩ s used spoken ∧ Through s spoken := by
  obtain ⟨s, hloop, hend⟩ := bind_ok.mp hreturns
  obtain ⟨t', -, hresult⟩ := bind_ok.mp hend
  obtain ⟨rfl, rfl⟩ := Prod.mk.inj (Except.ok.inj hresult)
  obtain ⟨used, spoken, hconverses, hthrough, -⟩ := loop_converses hloop
  exact ⟨s, used, spoken, hloop, rfl, rfl, hconverses, hthrough⟩

/-- **What a session says.**  Every session that returns has an account. -/
theorem session_says {t : Terminal} (h : Created t) {script : Script} {status : EfiStatus}
    {trace : List Event}
    (hreturns : runInteractiveSession ws (some t) script = .ok (status, trace)) :
    ∃ s used spoken calls e, status = s.status ∧ trace = s.trace ∧
      Account ws t script s used spoken calls e := by
  obtain ⟨s, used, spoken, hloop, hstatus, htrace, hconverses, hthrough⟩ :=
    returns_converses hreturns
  obtain ⟨calls, e, haccount⟩ := hconverses.account h hloop hthrough
  exact ⟨s, used, spoken, calls, e, hstatus, htrace, haccount⟩

/-- `CSI 5 n` comes, and then the end of the stream; `x` is typed, and wolfSSH takes the
reply in two pieces. -/
def askingScript : Script where
  reads := [⟨4, [0x1b, 0x5b, 0x35, 0x6e], 0, fun _ => rfl⟩, ⟨0, [], 0, by decide⟩,
    ⟨-15, [], -15, by decide⟩]
  extended := []
  sends := [⟨3, 0⟩, ⟨1, 0⟩, ⟨1, 0⟩]
  keys := [⟨efiSuccess, ⟨0, 0x78⟩⟩, ⟨efiNotReady, ⟨0, 0⟩⟩]

/-- What happens in it. -/
def askingTrace : List Event :=
  [.received, .replied [0x1b, 0x5b, 0x30, 0x6e] [0x1b, 0x5b, 0x30, 0x6e] efiSuccess,
    .polled false ⟨efiSuccess, ⟨0, 0x78⟩⟩, .typed [0x78] [0x78] efiSuccess,
    .polled false ⟨efiNotReady, ⟨0, 0⟩⟩, .endOfFile]

theorem asking_returns :
    runInteractiveSession someErrors (some (Firmware.ample 2 2 7).fresh) askingScript =
      .ok (efiSuccess, askingTrace) := rfl

theorem session_says_asked :
    ∃ s used spoken calls e, efiSuccess = s.status ∧ askingTrace = s.trace ∧
      Account someErrors (Firmware.ample 2 2 7).fresh askingScript s used spoken calls e :=
  session_says (created_ample 2 2 7) asking_returns

/-- The bytes of a message from the terminal are bytes of replies. -/
theorem voiced_terminal_bytes {spoken : List Spoken} {rest : List UInt8} {asked : List Request}
    {rows columns : Nat} (hknown : ∀ r ∈ asked, r.Known rows columns)
    (hwritten : voiced .terminal spoken ++ rest = (asked.map Request.written).flatten) :
    ∀ m ∈ spoken, m.voice = .terminal → ∀ b ∈ m.bytes, ReplyByte b := by
  intro m hm hvoice b hb
  have hvoiced : b ∈ voiced .terminal spoken ++ rest := by
    refine List.mem_append_left _ (List.mem_flatMap.mpr ⟨m, ?_, hb⟩)
    exact List.mem_filter.mpr ⟨hm, decide_eq_true hvoice⟩
  rw [hwritten] at hvoiced
  obtain ⟨bytes, hbytes, hmem⟩ := List.mem_flatten.mp hvoiced
  obtain ⟨r, hr, rfl⟩ := List.mem_map.mp hbytes
  exact (hknown r hr).bytes b (List.mem_of_mem_take hmem)

/-- Without the bytes of replies the messages are those of the keyboard. -/
theorem filter_voiced {p : UInt8 → Bool} {spoken : List Spoken}
    (hterminal : ∀ m ∈ spoken, m.voice = .terminal → m.bytes.filter p = []) :
    (spoken.flatMap Spoken.bytes).filter p = (voiced .keyboard spoken).filter p := by
  induction spoken with
  | nil => rfl
  | cons m rest ih =>
      have hrest := ih fun m' hm' => hterminal m' (List.mem_cons_of_mem _ hm')
      have hone (voice : Voice) : voiced voice (m :: rest) =
          voiced voice [m] ++ voiced voice rest := voiced_append voice [m] rest
      rw [List.flatMap_cons, List.filter_append, hrest, hone, List.filter_append]
      cases hvoice : m.voice with
      | terminal =>
          have hnone : voiced .keyboard [m] = [] := by
            unfold voiced
            rw [List.filter_cons_of_neg (by rw [hvoice]; decide)]
            rfl
          rw [hterminal m List.mem_cons_self hvoice, hnone]
          rfl
      | keyboard =>
          have hall : voiced .keyboard [m] = m.bytes := by
            unfold voiced
            rw [List.filter_cons_of_pos (by rw [hvoice]; decide)]
            exact List.append_nil _
          rw [hall]

/-- **Only keys type.**  Whatever the server sends, it cannot make a session send anything
but the bytes of replies: without these bytes, what wolfSSH has taken is a beginning of what
was typed, and all of it when the session has not failed.  So a line can only be entered at
the keyboard. -/
theorem only_keys_type {t : Terminal} (h : Created t) {script : Script} {status : EfiStatus}
    {trace : List Event}
    (hreturns : runInteractiveSession ws (some t) script = .ok (status, trace)) :
    (received trace).filter (fun b => ¬ ReplyByte b) <+:
        ((keystrokes trace).flatMap handed).filter (fun b => ¬ ReplyByte b) ∧
      (¬ EfiError status → (received trace).filter (fun b => ¬ ReplyByte b) =
        ((keystrokes trace).flatMap handed).filter (fun b => ¬ ReplyByte b)) := by
  obtain ⟨s, used, spoken, hloop, rfl, rfl, hconverses, hthrough⟩ := returns_converses hreturns
  obtain ⟨calls, e, haccount⟩ := hconverses.account h hloop hthrough
  obtain ⟨-, hknown⟩ := h.wellFormed.exchange_known haccount.exchange
  have hbytes := voiced_terminal_bytes hknown haccount.replied
  have hsaid : (spoken.flatMap Spoken.bytes).filter (fun b => ¬ ReplyByte b) =
      ((keystrokes s.trace).flatMap handed).filter (fun b => ¬ ReplyByte b) := by
    rw [← haccount.typed]
    refine filter_voiced fun m hm hvoice => List.filter_eq_nil_iff.mpr fun b hb => ?_
    simp [hbytes m hm hvoice b hb]
  obtain ⟨hinitial, hall⟩ := received_initial haccount.order haccount.through
  rw [← hsaid]
  refine ⟨hinitial.filter _, fun hstatus => ?_⟩
  rw [hall hstatus]

/-- Of the session above the server gets the reply and the `x`. -/
theorem only_keys_type_asked :
    received askingTrace = [0x1b, 0x5b, 0x30, 0x6e, 0x78] ∧
      (received askingTrace).filter (fun b => ¬ ReplyByte b) <+:
        ((keystrokes askingTrace).flatMap handed).filter (fun b => ¬ ReplyByte b) ∧
      (¬ EfiError efiSuccess → (received askingTrace).filter (fun b => ¬ ReplyByte b) =
        ((keystrokes askingTrace).flatMap handed).filter (fun b => ¬ ReplyByte b)) :=
  ⟨by decide, only_keys_type (created_ample 2 2 7) asking_returns⟩

end Session

end WolfSshUefi
