import WolfSshUefi.Library.Yielding
import WolfSshUefi.Session.Watching

/-!
# How a session ends

A session ends when the server hangs up, in whatever state it is then: as long as its calls
are answered, no data, no keys and no failure keep it from reading on until it hears of that
(`session_ends`).
-/

namespace WolfSshUefi

/-- wolfSSH says that there is nothing more to read. -/
def SshRead.HangsUp (ws : WolfSshErrors) (read : SshRead) : Prop :=
  ¬ 0 < read.result ∧ ¬ (read.result = ws.extData ∨ read.error = ws.extData) ∧
    (read.result = ws.eof ∨ read.error = ws.eof ∨ read.error = ws.channelClosed ∨
      read.error = ws.socketError)

/-- The connection takes no more bytes. -/
def SshSend.Breaks (ws : WolfSshErrors) (send : SshSend) : Prop :=
  ¬ 0 < send.result ∧ ¬ Session.IsRetryableError ws send.error

namespace Script

/-- How often the extended data can be drained. -/
def drains (extended : List SshRead) : Nat := extended.countP fun read => ¬ 0 < read.result

/-- How often the keyboard says that no key is there. -/
def looks (keys : List KeyRead) : Nat := keys.countP fun read => read.status = efiNotReady

/-- A send breaks. -/
def Breaks (ws : WolfSshErrors) (sends : List SshSend) : Prop := ∃ send ∈ sends, send.Breaks ws

/-- The answers last until the server hangs up: for each read the extended data can be drained
and the keys read until none is there, and sends are answered until one breaks. -/
structure Lasts (ws : WolfSshErrors) (script : Script) : Prop where
  hangsUp : ∃ read ∈ script.reads, read.HangsUp ws
  drains : script.reads.length ≤ Script.drains script.extended
  looks : script.reads.length ≤ Script.looks script.keys
  breaks : Breaks ws script.sends

/-- If sending breaks, and not here, it breaks later. -/
theorem Breaks.rest {ws : WolfSshErrors} {send : SshSend} {rest : List SshSend}
    (h : Breaks ws (send :: rest)) (hsend : ¬ send.Breaks ws) : Breaks ws rest := by
  obtain ⟨broken, hmem, hbreaks⟩ := h
  rcases List.mem_cons.mp hmem with rfl | hrest
  · exact absurd hbreaks hsend
  · exact ⟨broken, hrest, hbreaks⟩

end Script

namespace Session

open Terminal Script

variable {ws : WolfSshErrors} {s : Session}

/-! ### Sending and draining -/

/-- `SendAll` comes back while a send that breaks is still to come: it fails, or it leaves that
send for later. -/
theorem sendFrom_yields {bytes taken : List UInt8} {sends : List SshSend} (h : Breaks ws sends)
    (offset retry : Nat) :
    Yields (sendFrom ws bytes sends offset retry taken) fun sent =>
      EfiError sent.1 ∨ Breaks ws sent.2.2 := by
  induction sends generalizing offset retry taken with
  | nil =>
      obtain ⟨_, hmem, -⟩ := h
      cases hmem
  | cons send rest ih =>
      have hfails : EfiError efiDeviceError := by decide
      unfold sendFrom
      refine .ite (fun _ => .ite (fun hsent => ?_) fun hnone => .ite (fun _ => ?_) fun hretry => ?_)
        fun _ => .ok (.inr h)
      · exact ih (Breaks.rest h fun hbreaks => hbreaks.1 hsent) _ _
      · exact .ok (.inl hfails)
      · have hretried : IsRetryableError ws send.error := by
          by_contra hnot
          exact hretry (.inl hnot)
        exact ih (Breaks.rest h fun hbreaks => hbreaks.2 hretried) _ _

/-- Feeding yields a well-formed terminal. -/
theorem feed_yields {t : Terminal} (ht : t.WellFormed) (data : List UInt8) :
    Yields (onTerminal (t.feed data)) WellFormed := by
  rw [ht.feed_eq data]
  exact .ok (ht.feed data)

theorem flush_yields {t : Terminal} (ht : t.WellFormed) : Yields (onTerminal t.flush) WellFormed := by
  obtain ⟨buffer, painting, hflush, -⟩ := ht.flush_eq
  rw [hflush]
  exact .ok (ht.painted _ _ _)

/-- A drain yields, if it can end, and uses up one end. -/
theorem drain_yields {extended : List SshRead} {t : Terminal} (ht : t.WellFormed)
    (h : 0 < drains extended) :
    Yields (drainExtendedData ws extended t) fun drained =>
      drained.2.1.WellFormed ∧ drains extended ≤ drains drained.2.2 + 1 := by
  induction extended generalizing t with
  | nil => cases h
  | cons read rest ih =>
      unfold drainExtendedData
      refine .ite (fun hdata => ?_) fun hnone => ?_
      · have hsame : drains (read :: rest) = drains rest :=
          List.countP_cons_of_neg (by simp [hdata])
        rw [hsame] at h ⊢
        exact .bind (feed_yields ht read.data) fun t ht => ih ht h
      · have hone : drains (read :: rest) = drains rest + 1 :=
          List.countP_cons_of_pos (by simp [hnone])
        rw [hone]
        exact .ite (fun _ => .ok ⟨ht, Nat.le_refl _⟩) fun _ => .ok ⟨ht, Nat.le_refl _⟩

/-! ### Reading -/

/-- A stage of reading leaves the keys and the sends for later. -/
structure Reads (s s' : Session) : Prop where
  wellFormed : s'.terminal.WellFormed
  keys : s'.script.keys = s.script.keys
  sends : s'.script.sends = s.script.sends

/-- The server hangs up, or the answers last for the rest. -/
theorem readOnce_yields (ht : s.terminal.WellFormed) (hlasts : s.script.Lasts ws) :
    Yields (readOnce ws s) fun next =>
      Reads s next.1 ∧ (next.1.script.Lasts ws ∨ next.1.finished = true ∧ next.2 = false) := by
  cases hreads : s.script.reads with
  | nil =>
      obtain ⟨_, hmem, -⟩ := hlasts.hangsUp
      rw [hreads] at hmem
      cases hmem
  | cons read rest =>
      have hdrains := hlasts.drains
      have hlooks := hlasts.looks
      obtain ⟨last, hmem, hlast⟩ := hlasts.hangsUp
      rw [hreads, List.length_cons] at hdrains hlooks
      rw [hreads] at hmem
      unfold readOnce
      rw [hreads]
      dsimp only
      by_cases hup : read.HangsUp ws
      · obtain ⟨hnone, hstream, hends⟩ := hup
        rw [if_neg hnone, if_neg hstream]
        refine .ite (fun _ => .ok ⟨⟨ht, rfl, rfl⟩, .inr ⟨rfl, rfl⟩⟩) fun hopen => ?_
        have hbroken : read.error = ws.socketError := by tauto
        rw [if_pos hbroken]
        exact .ok ⟨⟨ht, rfl, rfl⟩, .inr ⟨rfl, rfl⟩⟩
      · have hlater : ∃ read ∈ rest, read.HangsUp ws := by
          rcases List.mem_cons.mp hmem with rfl | hrest
          · exact absurd hlast hup
          · exact ⟨last, hrest, hlast⟩
        have hkeys : rest.length ≤ looks s.script.keys := by omega
        have hrest {extended : List SshRead} (h : rest.length ≤ drains extended) :
            Lasts ws { s.script with reads := rest, extended := extended } :=
          ⟨hlater, h, hkeys, hlasts.breaks⟩
        have hon : Lasts ws { s.script with reads := rest } := hrest (by omega)
        refine .ite (fun _ => ?_) fun _ => .ite (fun _ => ?_) fun _ => .ite (fun _ => ?_) fun _ =>
          .ite (fun _ => ?_) fun _ => .ite (fun _ => ?_) fun _ => .ite (fun _ => ?_) fun _ => ?_
        · exact .bind (feed_yields ht read.data) fun t ht' => .ok ⟨⟨ht', rfl, rfl⟩, .inl hon⟩
        · refine .bind (drain_yields ht (by omega)) fun drained hdrained => ?_
          obtain ⟨status, t, left⟩ := drained
          obtain ⟨hwell, hleft⟩ := hdrained
          have henough : rest.length ≤ drains left := by
            dsimp only at hleft
            omega
          exact .ok ⟨⟨hwell, rfl, rfl⟩, .inl (hrest henough)⟩
        all_goals exact .ok ⟨⟨ht, rfl, rfl⟩, .inl hon⟩

/-- **A burst yields**, and leaves a script that lasts, or ends the session. -/
theorem burst_yields (rounds : Nat) (ht : s.terminal.WellFormed) (hlasts : s.script.Lasts ws) :
    Yields (burst ws rounds s) fun s' =>
      Reads s s' ∧ (s'.script.Lasts ws ∨ s'.finished = true) := by
  induction rounds generalizing s with
  | zero => exact .ok ⟨⟨ht, rfl, rfl⟩, .inl hlasts⟩
  | succ rounds ih =>
      refine .bind (readOnce_yields ht hlasts) fun next hnext => ?_
      obtain ⟨u, more⟩ := next
      obtain ⟨hreads, hgoes⟩ := hnext
      refine .ite (fun hmore => ?_) fun _ => .ok ⟨hreads, hgoes.imp_right And.left⟩
      have hlasts' : u.script.Lasts ws := hgoes.resolve_right fun hstops =>
        Bool.false_ne_true (hstops.2.symm.trans hmore)
      refine (ih hreads.wellFormed hlasts').mono fun s' h => ⟨?_, h.2⟩
      exact ⟨h.1.wellFormed, h.1.keys.trans hreads.keys, h.1.sends.trans hreads.sends⟩

/-! ### Painting and replying -/

/-- Painting yields, and ends nothing. -/
theorem paint_yields (ht : s.terminal.WellFormed) :
    Yields (paint s) fun s' => s'.terminal.WellFormed ∧ s'.finished = s.finished := by
  refine .ite (fun _ => ?_) fun _ => .ok ⟨ht, rfl⟩
  exact .bind (flush_yields ht) fun t ht' => .ok ⟨ht', rfl⟩

/-- Every round but the last takes a reply off the queue. -/
theorem replyFrom_yields {rounds : Nat} (ht : s.terminal.WellFormed)
    (hbreaks : Breaks ws s.script.sends) (hrounds : s.terminal.replyLength < rounds) :
    Yields (replyFrom ws rounds s) fun s' => s'.terminal.WellFormed ∧
      (s'.finished = true ∨ s'.finished = s.finished ∧ Breaks ws s'.script.sends) := by
  induction rounds generalizing s with
  | zero => exact absurd hrounds (Nat.not_lt_zero _)
  | succ rounds ih =>
      obtain ⟨replies, htake, -⟩ := ht.takeResponse_eq 128
      have hlength : (s.terminal.queued.take 128).length = min 128 s.terminal.replyLength := by
        simp [queued]
      have hwell : ({ s.terminal with
          replies := replies, replyLength := s.terminal.replyLength - 128 } : Terminal).WellFormed :=
        { ht with reply_le := Nat.le_trans (Nat.sub_le _ _) ht.reply_le }
      unfold replyFrom
      rw [htake]
      refine .ite (fun hsome => ?_) fun _ => .ok ⟨hwell, .inr ⟨rfl, hbreaks⟩⟩
      refine .bind (sendFrom_yields hbreaks 0 0) fun sent hsent => ?_
      refine .ite (fun _ => .ok ⟨hwell, .inl rfl⟩) fun hgood => ?_
      have hfewer : s.terminal.replyLength - 128 < rounds := by omega
      exact ih hwell (hsent.resolve_left hgood) hfewer

/-! ### Typing -/

/-- The keys are read until none is there, or the session ends. -/
theorem keyFrom_yields {reads : List KeyRead} (hlooks : 0 < looks reads)
    (hbreaks : Breaks ws s.script.sends) :
    Yields (keyFrom ws reads s) fun s' => s'.terminal = s.terminal ∧
      s'.script.reads = s.script.reads ∧ s'.script.extended = s.script.extended ∧
      (s'.finished = true ∨
        looks reads ≤ looks s'.script.keys + 1 ∧ Breaks ws s'.script.sends) := by
  induction reads generalizing s with
  | nil => cases hlooks
  | cons read rest ih =>
      unfold keyFrom
      refine .ite (fun hfinished => .ok ⟨rfl, rfl, rfl, .inl hfinished⟩) fun _ => ?_
      have hcount : looks (read :: rest) ≤ looks rest + 1 := by
        unfold looks
        rw [List.countP_cons]
        split <;> omega
      refine .ite (fun _ => .ok ⟨rfl, rfl, rfl, .inr ⟨hcount, hbreaks⟩⟩) fun hkey => ?_
      refine .ite (fun _ => .ok ⟨rfl, rfl, rfl, .inl rfl⟩) fun hgood => ?_
      refine .ite (fun _ => .ok ⟨rfl, rfl, rfl, .inl rfl⟩) fun _ => ?_
      have hstatus : read.status ≠ efiNotReady := by
        intro hidle
        have hfails : EfiError read.status := by
          rw [hidle]
          decide
        have hready : readKey s.terminal.applicationCursor 16 read = ⟨read.status, [], 0, false⟩ :=
          if_pos hfails
        rw [hready] at hkey
        exact hkey hidle
      have hsame : looks (read :: rest) = looks rest :=
        List.countP_cons_of_neg (by simp [hstatus])
      rw [hsame] at hlooks ⊢
      refine .ite (fun _ => ?_) fun _ => ih hlooks hbreaks
      refine .bind (sendFrom_yields hbreaks 0 0) fun sent hsent => ?_
      refine .ite (fun _ => .ok ⟨rfl, rfl, rfl, .inl rfl⟩) fun hsuccess => ?_
      exact ih hlooks (hsent.resolve_left hsuccess)

/-! ### The loop -/

/-- Between two rounds: the session is over, or its answers last. -/
theorem round_yields (ht : s.terminal.WellFormed) (hlasts : s.script.Lasts ws) :
    Yields (round ws s) fun s' => s'.terminal.WellFormed ∧
      (s'.finished = false → s'.script.Lasts ws) := by
  have hbreaks := hlasts.breaks
  obtain ⟨u, hburst, hreads, hgoes⟩ := @burst_yields ws { s with activity := false } 32 ht hlasts
  obtain ⟨v, hpaint, hv, hfinished⟩ := paint_yields hreads.wellFormed
  have hscript := paint_script hpaint
  have hsends : Breaks ws v.script.sends := by
    rw [hscript, hreads.sends]
    exact hbreaks
  obtain ⟨w, hreply, hw, hreplied⟩ := replyFrom_yields hv hsends (Nat.lt_succ_self _)
  have hrest : round ws s = typeKeys ws w := by
    show (burst ws 32 { s with activity := false } >>= fun s => paint s >>= fun s =>
      reply ws s >>= fun s => typeKeys ws s) = _
    rw [hburst, Loops.ok_bind, hpaint, Loops.ok_bind, reply, hreply, Loops.ok_bind]
  rw [hrest]
  cases hend : w.finished with
  | true =>
      rw [typeKeys, keyFrom_finished hend]
      exact .ok ⟨hw, fun hgoes => absurd (hend.symm.trans hgoes) (by decide)⟩
  | false =>
      obtain ⟨hsame, hbreaks'⟩ := hreplied.resolve_left (by simp [hend])
      have hlasts' : u.script.Lasts ws := by
        refine hgoes.resolve_right fun hstops => ?_
        rw [hsame, hfinished, hstops] at hend
        cases hend
      have hw_script : w.script = { u.script with sends := w.script.sends } := by
        rw [← hscript]
        exact replyFrom_script hreply
      have hkeys : w.script.keys = s.script.keys := by
        rw [hw_script]
        exact hreads.keys
      have hless : u.script.reads.length < s.script.reads.length :=
        @burst_reads ws 31 { s with activity := false } u hburst
      have hlooks := hlasts.looks
      rw [← hkeys] at hlooks
      refine (keyFrom_yields (by omega) hbreaks').mono fun s' hs' => ?_
      obtain ⟨hterminal, hreads', hextended', hstops⟩ := hs'
      refine ⟨by rwa [hterminal], fun hgoes' => ?_⟩
      obtain ⟨hleft, hbreaks''⟩ := hstops.resolve_left (by simp [hgoes'])
      have hleft_reads : s'.script.reads = u.script.reads := by rw [hreads', hw_script]
      have hleft_extended : s'.script.extended = u.script.extended := by rw [hextended', hw_script]
      constructor
      · rw [hleft_reads]
        exact hlasts'.hangsUp
      · rw [hleft_reads, hleft_extended]
        exact hlasts'.drains
      · rw [hleft_reads]
        omega
      · exact hbreaks''

/-- **The loop yields** within its rounds. -/
theorem loop_yields {rounds : Nat} (ht : s.terminal.WellFormed)
    (hlasts : s.finished = false → s.script.Lasts ws) (hrounds : s.script.reads.length < rounds) :
    Yields (loop ws rounds s) fun s' => s'.terminal.WellFormed := by
  induction rounds generalizing s with
  | zero => exact absurd hrounds (Nat.not_lt_zero _)
  | succ rounds ih =>
      refine .ite (fun _ => .ok ht) fun hgoes => ?_
      obtain ⟨s', hround, ht', hlasts'⟩ := round_yields ht (hlasts (Bool.eq_false_iff.mpr hgoes))
      have hfewer := round_reads hround
      rw [hround]
      exact ih ht' hlasts' (by omega)

/-- **A session ends when the server hangs up**, whatever it is doing then: if its calls are
answered until it hears of that, it returns. -/
theorem session_ends {t : Terminal} (h : Created t) {script : Script} (hlasts : script.Lasts ws) :
    ∃ status trace, runInteractiveSession ws (some t) script = .ok (status, trace) := by
  have hwell := h.wellFormed
  have hloop := @loop_yields ws ⟨t, script, efiSuccess, false, false, []⟩ (script.reads.length + 2)
    hwell (fun _ => hlasts) (by show script.reads.length < _; omega)
  have hrun : Yields (runInteractiveSession ws (some t) script) fun _ => True :=
    .bind hloop fun s hs => .bind (flush_yields hs) fun _ _ => .ok trivial
  obtain ⟨result, hresult, -⟩ := hrun
  exact ⟨result.1, result.2, hresult⟩

/-- A request for the place of the cursor, which cannot be answered any more. -/
def lostScript : Script where
  reads := [⟨4, [0x1b, 0x5b, 0x36, 0x6e], 0, fun _ => rfl⟩, ⟨-1, [], -15, no_bytes⟩]
  extended := [⟨-1, [], -10, no_bytes⟩, ⟨-1, [], -10, no_bytes⟩]
  sends := [⟨-1, -10⟩, ⟨-1, -17⟩]
  keys := [⟨efiNotReady, ⟨0, 0⟩⟩, ⟨efiNotReady, ⟨0, 0⟩⟩]

/-- The connection is lost with a reply still waiting. -/
theorem session_ends_lost :
    ∃ status trace, runInteractiveSession someErrors (some (Firmware.ample 2 1 7).fresh) lostScript =
      .ok (status, trace) := by
  refine session_ends (created_ample 2 1 7) ⟨⟨_, List.mem_cons_of_mem _ List.mem_cons_self, ?_⟩,
    by decide, by decide, ⟨_, List.mem_cons_of_mem _ List.mem_cons_self, ?_⟩⟩
  · exact ⟨by decide, by decide, by decide⟩
  · exact ⟨by decide, by decide⟩

end Session

end WolfSshUefi
