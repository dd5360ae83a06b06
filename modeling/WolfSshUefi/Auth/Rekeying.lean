import WolfSshUefi.Auth.HostKey

/-!
# Host keys over a whole session

A session calls the callback again on every rekey.  No call accepts before a
key has been digested, and from then on every call repeats the decision on
that key (`hostKeyRun_shape`).  So a key is accepted without a reason of its
own as soon as the first one was accepted and a later one differs from it.
-/

namespace WolfSshUefi

section Runs

variable (sha256 : List UInt8 → Digest) {options : HostKeyOptions} {auth : Auth}

/-- Once decided, every call with a key returns the decision and prints nothing. -/
theorem hostKeyRun_decided (hoptions : auth.options = some options)
    (hchecked : auth.hostKeyChecked = true) {invs : List Invocation}
    {steps : List (Invocation × HostKeyOutcome)} (h : hostKeyRun sha256 auth invs = some steps) :
    steps = invs.map fun inv =>
      (inv, ⟨if inv.key ≠ [] ∧ auth.hostKeyAccepted = true then 0 else -1, []⟩) := by
  induction invs generalizing steps with
  | nil =>
      obtain rfl := Option.some.inj h
      rfl
  | cons inv rest ih =>
      have hcall : hostKeyCallback sha256 auth inv =
          some (⟨if inv.key ≠ [] ∧ auth.hostKeyAccepted = true then 0 else -1, []⟩, auth) := by
        by_cases hkey : inv.key = []
        · rw [hostKeyCallback_no_key sha256 hoptions hkey, if_neg (fun h => h.1 hkey)]
        · rw [hostKeyCallback_decided sha256 hoptions hchecked hkey]
          simp [hkey]
      unfold hostKeyRun at h
      obtain ⟨⟨outcome, auth'⟩, hfirst, hrest⟩ := Option.bind_eq_some_iff.mp h
      obtain ⟨steps', hrun, hsteps⟩ := Option.bind_eq_some_iff.mp hrest
      obtain rfl := Option.some.inj hsteps
      rw [hcall] at hfirst
      obtain ⟨rfl, rfl⟩ := Prod.mk.inj (Option.some.inj hfirst)
      rw [ih hrun]
      rfl

/-- **A run**: no call accepts until the first digest, and from then on every
call with a key returns what was decided on that one. -/
theorem hostKeyRun_shape (hoptions : auth.options = some options)
    (hchecked : auth.hostKeyChecked = false) {invs : List Invocation}
    {steps : List (Invocation × HostKeyOutcome)} (h : hostKeyRun sha256 auth invs = some steps) :
    ∃ before after, steps = before ++ after ∧ (∀ s ∈ before, s.2 = ⟨-1, []⟩) ∧
      ((invs.dropWhile (fun inv => decide (¬ inv.Digests)) = [] ∧ after = []) ∨
        ∃ first later accepted lines,
          invs.dropWhile (fun inv => decide (¬ inv.Digests)) = first :: later ∧
          decideHostKey options (hexText (sha256 first.key)) first.keys = some (accepted, lines) ∧
          after = (first, ⟨if accepted then 0 else -1,
              .fingerprint (hexText (sha256 first.key)) :: lines⟩) ::
            later.map fun inv =>
              (inv, ⟨if inv.key ≠ [] ∧ accepted = true then 0 else -1, []⟩)) := by
  induction invs generalizing steps with
  | nil =>
      obtain rfl := Option.some.inj h
      exact ⟨[], [], rfl, fun s hs => by (cases hs), .inl ⟨rfl, rfl⟩⟩
  | cons inv rest ih =>
      unfold hostKeyRun at h
      obtain ⟨⟨outcome, auth'⟩, hcall, hrest⟩ := Option.bind_eq_some_iff.mp h
      obtain ⟨steps', hrun, hsteps⟩ := Option.bind_eq_some_iff.mp hrest
      obtain rfl := Option.some.inj hsteps
      by_cases hdigest : inv.Digests
      · obtain ⟨accepted, lines, hdecide, rfl, rfl⟩ :=
          hostKeyCallback_decides sha256 hoptions hchecked hdigest hcall
        refine ⟨[], _, rfl, fun s hs => by (cases hs), .inr ⟨inv, rest, accepted, lines, ?_, hdecide, ?_⟩⟩
        · rw [List.dropWhile_cons_of_neg (by simpa using hdigest)]
        · rw [hostKeyRun_decided sha256 (by exact hoptions) rfl hrun]
      · rw [hostKeyCallback_no_digest sha256 hoptions hchecked hdigest] at hcall
        obtain ⟨rfl, rfl⟩ := Prod.mk.inj (Option.some.inj hcall)
        obtain ⟨before, after, rfl, hbefore, hafter⟩ := ih hrun
        rw [List.dropWhile_cons_of_pos (by simpa using hdigest)]
        refine ⟨(inv, ⟨-1, []⟩) :: before, after, rfl, ?_, hafter⟩
        intro s hs
        rcases List.mem_cons.mp hs with rfl | hmem
        · rfl
        · exact hbefore s hmem

/-! ### Lawful runs -/

/-- The user said yes to a question that showed the digest of the key. -/
def Confirmed (key : List UInt8) (step : Invocation × HostKeyOutcome) : Prop :=
  AnswersYes step.1.keys ∧ [.fingerprint (hexText (sha256 key)), .question] <:+: step.2.lines

/-- A reason to accept the key. -/
def Justified (options : HostKeyOptions) (key : List UInt8)
    (history : List (Invocation × HostKeyOutcome)) : Prop :=
  (options.haveFingerprint = true ∧ hexText (sha256 key) = options.fingerprint.bytes) ∨
    (options.haveFingerprint = false ∧ options.acceptAnyHostKey = true) ∨
    ∃ step ∈ history, Confirmed sha256 key step

/-- Every call that accepts has a reason to, then or before. -/
def Lawful (options : HostKeyOptions) (steps : List (Invocation × HostKeyOutcome)) : Prop :=
  ∀ before inv outcome after, steps = before ++ (inv, outcome) :: after → outcome.result = 0 →
    Justified sha256 options inv.key (before ++ [(inv, outcome)])

/-- If the first key that is digested is approved, no other key comes after it. -/
def OneKey (options : HostKeyOptions) (invs : List Invocation) : Prop :=
  ∀ first later, invs.dropWhile (fun inv => decide (¬ inv.Digests)) = first :: later →
    options.Approves sha256 first →
      ∀ inv ∈ later, inv.key ≠ [] → sha256 inv.key = sha256 first.key

/-- A call that accepts is the deciding one or comes after it. -/
theorem after_deciding {before after b a : List (Invocation × HostKeyOutcome)}
    {deciding step : Invocation × HostKeyOutcome}
    (hbefore : ∀ s ∈ before, s.2 = ⟨-1, []⟩) (haccepts : step.2.result = 0)
    (h : before ++ deciding :: after = b ++ step :: a) :
    deciding ∈ b ++ [step] ∧ (step = deciding ∨ step ∈ after) := by
  have hnot : step ∉ before := by
    intro hmem
    have hresult := hbefore step hmem
    rw [hresult] at haccepts
    exact absurd haccepts (by decide)
  rcases List.append_eq_append_iff.mp h with ⟨c, hb, hc⟩ | ⟨c, hb, hc⟩
  · cases c with
    | nil =>
        obtain ⟨rfl, -⟩ := List.cons.inj hc
        exact ⟨by simp, .inl rfl⟩
    | cons first rest =>
        obtain ⟨rfl, hrest⟩ := List.cons.inj hc
        refine ⟨by simp [hb], .inr ?_⟩
        rw [hrest]
        simp
  · cases c with
    | nil =>
        obtain ⟨rfl, -⟩ := List.cons.inj hc
        exact ⟨by simp, .inl rfl⟩
    | cons first rest =>
        obtain ⟨rfl, -⟩ := List.cons.inj hc
        exact absurd (by simp [hb]) hnot

/-- A run with one key is lawful. -/
theorem lawful_of_oneKey {invs : List Invocation} {steps : List (Invocation × HostKeyOutcome)}
    (h : hostKeyRun sha256 (Auth.initial options) invs = some steps)
    (hkey : OneKey sha256 options invs) : Lawful sha256 options steps := by
  intro b inv outcome a hsplit haccepts
  obtain ⟨before, after, rfl, hbefore, hafter⟩ := hostKeyRun_shape sha256 rfl rfl h
  rcases hafter with ⟨-, rfl⟩ | ⟨first, later, accepted, lines, hfirst, hdecide, rfl⟩
  · have hmem : (inv, outcome) ∈ before := by
      have hall : (inv, outcome) ∈ before ++ [] := by simp [hsplit]
      simpa using hall
    have hresult : outcome = ⟨-1, []⟩ := hbefore _ hmem
    rw [hresult] at haccepts
    exact absurd haccepts (by decide)
  · obtain ⟨hhistory, hstep⟩ := after_deciding hbefore haccepts hsplit
    obtain ⟨happroves, hquestion⟩ := decideHostKey_spec sha256 hdecide
    have haccepted : accepted = true ∧ sha256 inv.key = sha256 first.key := by
      rcases hstep with hsame | hlater
      · obtain ⟨rfl, rfl⟩ := Prod.mk.inj hsame
        refine ⟨?_, rfl⟩
        by_contra hrejected
        have hminus : (if accepted then (0 : Int) else -1) = 0 := haccepts
        rw [if_neg hrejected] at hminus
        exact absurd hminus (by decide)
      · obtain ⟨inv', hinv, hsame⟩ := List.mem_map.mp hlater
        obtain ⟨rfl, rfl⟩ := Prod.mk.inj hsame
        by_cases hboth : inv'.key ≠ [] ∧ accepted = true
        · exact ⟨hboth.2, hkey first later hfirst (happroves.mp hboth.2) inv' hinv hboth.1⟩
        · have hminus : (if inv'.key ≠ [] ∧ accepted = true then (0 : Int) else -1) = 0 := haccepts
          rw [if_neg hboth] at hminus
          exact absurd hminus (by decide)
    obtain ⟨hyes, hdigest⟩ := haccepted
    have happroved := happroves.mp hyes
    unfold HostKeyOptions.Approves at happroved
    unfold Justified
    rw [hdigest]
    cases hhave : options.haveFingerprint with
    | true =>
        rw [hhave, if_pos rfl] at happroved
        exact .inl ⟨rfl, happroved⟩
    | false =>
        right
        rw [hhave, if_neg Bool.false_ne_true] at happroved
        cases hany : options.acceptAnyHostKey with
        | true => exact .inl ⟨rfl, rfl⟩
        | false =>
            right
            obtain ⟨answer, rfl⟩ := hquestion hhave hany
            rcases happroved with hnone | hanswers
            · rw [hany] at hnone
              cases hnone
            · refine ⟨_, hhistory, hanswers, ?_⟩
              rw [hdigest]
              exact ⟨[], answer, rfl⟩

/-- A lawful run has one key, unless every key is to be accepted. -/
theorem oneKey_of_lawful {invs : List Invocation} {steps : List (Invocation × HostKeyOutcome)}
    (h : hostKeyRun sha256 (Auth.initial options) invs = some steps)
    (hlawful : Lawful sha256 options steps)
    (hpinned : ¬ (options.haveFingerprint = false ∧ options.acceptAnyHostKey = true)) :
    OneKey sha256 options invs := by
  intro first later hfirst happroves inv hinv hkey
  obtain ⟨before, after, rfl, hbefore, hafter⟩ := hostKeyRun_shape sha256 rfl rfl h
  rcases hafter with ⟨hnone, -⟩ | ⟨first', later', accepted, lines, hfirst', hdecide, rfl⟩
  · rw [hfirst] at hnone
    cases hnone
  · rw [hfirst] at hfirst'
    obtain ⟨rfl, rfl⟩ := List.cons.inj hfirst'
    have haccepted : accepted = true := (decideHostKey_spec sha256 hdecide).1.mpr happroves
    subst haccepted
    obtain ⟨early, late, rfl⟩ := List.append_of_mem hinv
    have hjustified := hlawful
      (before ++ (first, ⟨0, .fingerprint (hexText (sha256 first.key)) :: lines⟩) ::
        early.map fun inv => (inv, ⟨if inv.key ≠ [] ∧ true = true then 0 else -1, []⟩))
      inv ⟨if inv.key ≠ [] ∧ true = true then 0 else -1, []⟩
      (late.map fun inv => (inv, ⟨if inv.key ≠ [] ∧ true = true then 0 else -1, []⟩))
      (by simp) (if_pos ⟨hkey, rfl⟩)
    rcases hjustified with ⟨hhave, hpin⟩ | haccept | ⟨step, hstep, -, hshown⟩
    · unfold HostKeyOptions.Approves at happroves
      rw [hhave, if_pos rfl, ← hpin] at happroves
      exact (hexText_injective happroves).symm
    · exact absurd haccept hpinned
    · -- only the deciding call shows a digest
      have hmem : HostKeyLine.fingerprint (hexText (sha256 inv.key)) ∈ step.2.lines :=
        hshown.subset List.mem_cons_self
      have hnowhere (hlines : step.2.lines = []) : sha256 inv.key = sha256 first.key := by
        rw [hlines] at hmem
        cases hmem
      simp only [List.append_assoc, List.cons_append, List.mem_append, List.mem_cons,
        List.mem_map, List.not_mem_nil, or_false] at hstep
      rcases hstep with hearly | rfl | ⟨inv', -, rfl⟩ | rfl
      · exact hnowhere (by rw [hbefore step hearly])
      · rcases List.mem_cons.mp hmem with hsame | hother
        · exact hexText_injective (HostKeyLine.fingerprint.inj hsame)
        · exact absurd hother (decideHostKey_lines hdecide _)
      · exact hnowhere rfl
      · exact hnowhere rfl

end Runs

/-! ### A pinned key and another one -/

/-- SHA-256 on the keys `a` and `b`. -/
def sha256OfTwo (key : List UInt8) : Digest :=
  if key = [0x61] then
    #v[0xca, 0x97, 0x81, 0x12, 0xca, 0x1b, 0xbd, 0xca,
      0xfa, 0xc2, 0x31, 0xb3, 0x9a, 0x23, 0xdc, 0x4d,
      0xa7, 0x86, 0xef, 0xf8, 0x14, 0x7c, 0x4e, 0x72,
      0xb9, 0x80, 0x77, 0x85, 0xaf, 0xee, 0x48, 0xbb]
  else if key = [0x62] then
    #v[0x3e, 0x23, 0xe8, 0x16, 0x00, 0x39, 0x59, 0x4a,
      0x33, 0x89, 0x4f, 0x65, 0x64, 0xe1, 0xb1, 0x34,
      0x8b, 0xbd, 0x7a, 0x00, 0x88, 0xd4, 0x2c, 0x4a,
      0xcb, 0x73, 0xee, 0xae, 0xd5, 0x9c, 0x00, 0x9d]
  else Vector.replicate 32 0

/-- The fingerprint of `a` is pinned. -/
def pinnedOptions : HostKeyOptions where
  fingerprint := ⟨hexText (sha256OfTwo [0x61]), hexText_nul_free _⟩
  haveFingerprint := true
  acceptAnyHostKey := false

/-- A key exchange in which nothing is typed. -/
def keyExchange (key : List UInt8) : Invocation := ⟨some key, 0, 0, 0, []⟩

/-- After the key `a` every key is accepted. -/
theorem hostKeyRun_pinned {key : List UInt8} (h : key ≠ []) :
    hostKeyRun sha256OfTwo (Auth.initial pinnedOptions) [keyExchange [0x61], keyExchange key] =
      some [(keyExchange [0x61], ⟨0, [.fingerprint (hexText (sha256OfTwo [0x61]))]⟩),
        (keyExchange key, ⟨0, []⟩)] := by
  have hsame : asciiStrCmp (hexText (sha256OfTwo [0x61])) pinnedOptions.fingerprint.bytes = 0 :=
    (asciiStrCmp_eq_zero_iff (hexText_nul_free _) pinnedOptions.fingerprint.nul_free).mpr rfl
  have hdecide : decideHostKey pinnedOptions (hexText (sha256OfTwo [0x61])) [] = some (true, []) := by
    have hhave : pinnedOptions.haveFingerprint = true := rfl
    simp [decideHostKey, hhave, hsame]
  have hfirst : hostKeyCallback sha256OfTwo (Auth.initial pinnedOptions) (keyExchange [0x61]) =
      some (⟨0, [.fingerprint (hexText (sha256OfTwo [0x61]))]⟩,
        ⟨some pinnedOptions, true, true⟩) := by
    unfold hostKeyCallback
    simp [keyExchange, Auth.initial, Invocation.shaResult, hdecide]
  have hsecond : hostKeyCallback sha256OfTwo ⟨some pinnedOptions, true, true⟩ (keyExchange key) =
      some (⟨0, []⟩, ⟨some pinnedOptions, true, true⟩) :=
    hostKeyCallback_decided sha256OfTwo rfl rfl h
  unfold hostKeyRun hostKeyRun
  rw [hfirst]
  simp only [Option.bind_eq_bind, Option.bind_some, hsecond]
  rfl

/-! ### Exactly the lawful runs -/

/-- **A run of the callback is lawful exactly when** every key is to be accepted
or no key comes after the first approved one that has another digest. -/
theorem host_key_lawful_iff (sha256 : List UInt8 → Digest) {options : HostKeyOptions}
    {invs : List Invocation}
    {steps : List (Invocation × HostKeyOutcome)}
    (h : hostKeyRun sha256 (Auth.initial options) invs = some steps) :
    Lawful sha256 options steps ↔
      (options.haveFingerprint = false ∧ options.acceptAnyHostKey = true) ∨
        OneKey sha256 options invs := by
  constructor
  · intro hlawful
    by_cases hany : options.haveFingerprint = false ∧ options.acceptAnyHostKey = true
    · exact .inl hany
    · exact .inr (oneKey_of_lawful sha256 h hlawful hany)
  · intro hcase
    obtain hany | hkey := hcase
    · intro before inv outcome after _ _
      exact .inr (.inl hany)
    · exact lawful_of_oneKey sha256 h hkey

theorem host_key_lawful_same_key :
    Lawful sha256OfTwo pinnedOptions
      [(keyExchange [0x61], ⟨0, [.fingerprint (hexText (sha256OfTwo [0x61]))]⟩),
        (keyExchange [0x61], ⟨0, []⟩)] := by
  apply (host_key_lawful_iff sha256OfTwo (hostKeyRun_pinned (List.cons_ne_nil 0x61 []))).mpr
  right
  intro first later hfirst _ inv hinv _
  obtain ⟨rfl, rfl⟩ := List.cons.inj hfirst
  obtain rfl := List.mem_singleton.mp hinv
  rfl

/-- The fingerprint of `a` is pinned, and `b` is accepted after it. -/
theorem host_key_rekey_other_key :
    ∃ steps, hostKeyRun sha256OfTwo (Auth.initial pinnedOptions)
        [keyExchange [0x61], keyExchange [0x62]] = some steps ∧
      ¬ Lawful sha256OfTwo pinnedOptions steps := by
  refine ⟨_, hostKeyRun_pinned (List.cons_ne_nil 0x62 []), ?_⟩
  intro hlawful
  have hone := oneKey_of_lawful sha256OfTwo (hostKeyRun_pinned (List.cons_ne_nil 0x62 []))
    hlawful (fun h => Bool.noConfusion h.1)
  have happroves : pinnedOptions.Approves sha256OfTwo (keyExchange [0x61]) := rfl
  have hsame : sha256OfTwo [0x62] = sha256OfTwo [0x61] :=
    hone (keyExchange [0x61]) [keyExchange [0x62]] rfl happroves (keyExchange [0x62])
      List.mem_cons_self (List.cons_ne_nil 0x62 [])
  exact absurd hsame (by decide)

end WolfSshUefi
