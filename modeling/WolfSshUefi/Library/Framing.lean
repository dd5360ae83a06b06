import Mathlib.Data.List.Basic

/-!
# Framed messages

A message begins with a start symbol, which does not occur again in it, and
ends with the only stop symbol in it.  Then a stream of messages can be taken
apart in one way only (`flatten_injective`), and a part of a message is never
taken for another message (`Message.eq_of_initial`).  So when messages are
written one after the other and some of them are cut, the stream is a stream
of messages exactly when every one was written whole or not at all
(`whole_iff`).
-/

namespace Framing

variable {α : Type} (start : α) (stop : α → Prop)

/-- What stands between a start symbol and the next one. -/
def Frame (s : List α) : Prop := ∃ tail, s = start :: tail ∧ start ∉ tail

/-- A message. -/
def Message (m : List α) : Prop :=
  ∃ body last, m = start :: (body ++ [last]) ∧ start ∉ body ++ [last] ∧
    (∀ a ∈ start :: body, ¬ stop a) ∧ stop last

variable {start stop}

theorem Message.frame {m : List α} (h : Message start stop m) : Frame start m := by
  obtain ⟨body, last, rfl, hstart, -, -⟩ := h
  exact ⟨body ++ [last], rfl, hstart⟩

theorem Frame.of_initial {s p : List α} (h : Frame start s) (hp : p <+: s) (hne : p ≠ []) :
    Frame start p := by
  obtain ⟨tail, rfl, htail⟩ := h
  cases p with
  | nil => exact absurd rfl hne
  | cons a rest =>
      obtain ⟨rfl, hrest⟩ := List.cons_prefix_cons.mp hp
      exact ⟨rest, rfl, fun hmem => htail (hrest.subset hmem)⟩

/-- After frames comes a start symbol or the end. -/
theorem head_flatten {frames : List (List α)} (h : ∀ s ∈ frames, Frame start s) {a : α}
    {rest : List α} (hflat : frames.flatten = a :: rest) : a = start := by
  cases frames with
  | nil => cases hflat
  | cons s frames =>
      obtain ⟨tail, rfl, -⟩ := h s List.mem_cons_self
      exact (List.cons.inj hflat).1.symm

/-- Two ways to cut a stream into frames are the same. -/
theorem flatten_injective {frames frames' : List (List α)} (h : ∀ s ∈ frames, Frame start s)
    (h' : ∀ s ∈ frames', Frame start s) (hflat : frames.flatten = frames'.flatten) :
    frames = frames' := by
  induction frames generalizing frames' with
  | nil =>
      cases frames' with
      | nil => rfl
      | cons s' rest' =>
          obtain ⟨tail, rfl, -⟩ := h' s' List.mem_cons_self
          cases hflat
  | cons s rest ih =>
      obtain ⟨tail, rfl, htail⟩ := h s List.mem_cons_self
      have hrest : ∀ s ∈ rest, Frame start s := fun s hs => h s (List.mem_cons_of_mem _ hs)
      cases frames' with
      | nil => cases hflat
      | cons s' rest' =>
          obtain ⟨tail', rfl, htail'⟩ := h' s' List.mem_cons_self
          have hrest' : ∀ s ∈ rest', Frame start s := fun s hs => h' s (List.mem_cons_of_mem _ hs)
          have hboth : tail ++ rest.flatten = tail' ++ rest'.flatten := (List.cons.inj hflat).2
          have htails : tail = tail' := by
            rcases List.append_eq_append_iff.mp hboth with ⟨c, rfl, hc⟩ | ⟨c, rfl, hc⟩
            · cases c with
              | nil => simp
              | cons a c =>
                  obtain rfl := head_flatten hrest hc
                  exact absurd (by simp) htail'
            · cases c with
              | nil => simp
              | cons a c =>
                  obtain rfl := head_flatten hrest' hc
                  exact absurd (by simp) htail
          subst htails
          rw [ih hrest hrest' (List.append_cancel_left hboth)]

/-- A message that begins another one is the whole of it. -/
theorem Message.eq_of_initial {m p : List α} (hm : Message start stop m)
    (hp : Message start stop p) (hinitial : p <+: m) : p = m := by
  obtain ⟨body, last, rfl, -, hbody, -⟩ := hm
  obtain ⟨body', last', rfl, -, -, hlast'⟩ := hp
  have hparts : start :: body' ++ [last'] <+: (start :: body) ++ [last] := hinitial
  rcases List.prefix_concat_iff.mp hparts with hwhole | hpart
  · exact hwhole
  · have hmem : last' ∈ start :: body := hpart.subset (by simp)
    exact absurd hlast' (hbody last' hmem)

/-- Messages, each with the part of it that was written. -/
theorem whole_iff {writes : List (List α × List α)}
    (hmessage : ∀ w ∈ writes, Message start stop w.1) (hinitial : ∀ w ∈ writes, w.2 <+: w.1) :
    (∃ answered : List (List α), answered.Sublist (writes.map Prod.fst) ∧
        (writes.map Prod.snd).flatten = answered.flatten) ↔
      ∀ w ∈ writes, w.2 = [] ∨ w.2 = w.1 := by
  constructor
  · intro hall w hw
    obtain ⟨answered, hanswered, hflat⟩ := hall
    by_cases hnone : w.2 = []
    · exact .inl hnone
    · right
      have hframes : ∀ s ∈ (writes.map Prod.snd).filter (fun s => !s.isEmpty), Frame start s := by
        intro s hs
        obtain ⟨hs, hne⟩ := List.mem_filter.mp hs
        obtain ⟨w, hw, rfl⟩ := List.mem_map.mp hs
        exact (hmessage w hw).frame.of_initial (hinitial w hw) (by simpa using hne)
      have hanswers : ∀ s ∈ answered, Message start stop s := by
        intro s hs
        obtain ⟨w, hw, rfl⟩ := List.mem_map.mp (hanswered.subset hs)
        exact hmessage w hw
      rw [← List.flatten_filter_not_isEmpty] at hflat
      have hsame := flatten_injective hframes (fun s hs => (hanswers s hs).frame) hflat
      have hmem : w.2 ∈ answered := by
        rw [← hsame]
        exact List.mem_filter.mpr ⟨List.mem_map_of_mem hw, by simpa using hnone⟩
      exact (hmessage w hw).eq_of_initial (hanswers w.2 hmem) (hinitial w hw)
  · intro hwhole
    clear hmessage hinitial
    induction writes with
    | nil => exact ⟨[], List.Sublist.slnil, rfl⟩
    | cons w rest ih =>
        obtain ⟨answered, hanswered, hflat⟩ := ih fun w hw => hwhole w (List.mem_cons_of_mem _ hw)
        rw [List.map_cons, List.map_cons, List.flatten_cons, hflat]
        rcases hwhole w List.mem_cons_self with hnone | hall
        · exact ⟨answered, hanswered.cons _, by rw [hnone, List.nil_append]⟩
        · exact ⟨w.1 :: answered, hanswered.cons_cons _, by rw [hall, List.flatten_cons]⟩

end Framing
