import Mathlib.Data.List.Forall2
import Mathlib.InformationTheory.Coding.UniquelyDecodable

/-!
# Prefix codes

When no word of a code begins another one, a stream of words can be cut into words in one
way only (`PrefixFree.uniquelyDecodable`).  So what was written word by word, some of it
without a word, is known from the stream (`meanings_eq`).
-/

namespace PrefixCodes

open InformationTheory

variable {α β γ : Type}

/-- No word is empty, and none begins another one. -/
structure PrefixFree (code : Set (List β)) : Prop where
  nil_notMem : [] ∉ code
  eq_of_initial : ∀ w ∈ code, ∀ w' ∈ code, w <+: w' → w = w'

/-- Of two words at the beginning of a stream one begins the other. -/
theorem PrefixFree.head_eq {code : Set (List β)} (h : PrefixFree code) {w w' rest rest' : List β}
    (hw : w ∈ code) (hw' : w' ∈ code) (hsame : w ++ rest = w' ++ rest') : w = w' := by
  rcases List.append_eq_append_iff.mp hsame with ⟨c, rfl, -⟩ | ⟨c, rfl, -⟩
  · exact h.eq_of_initial w hw _ hw' (List.prefix_append w c)
  · exact (h.eq_of_initial w' hw' _ hw (List.prefix_append w' c)).symm

theorem PrefixFree.uniquelyDecodable {code : Set (List β)} (h : PrefixFree code) :
    UniquelyDecodable code := by
  intro words words' hwords hwords' hsame
  induction words generalizing words' with
  | nil =>
      cases words' with
      | nil => rfl
      | cons w' rest' =>
          have hnil : w' = [] := (List.append_eq_nil_iff.mp hsame.symm).1
          exact absurd (hnil ▸ hwords' w' List.mem_cons_self) h.nil_notMem
  | cons w rest ih =>
      cases words' with
      | nil =>
          have hnil : w = [] := (List.append_eq_nil_iff.mp hsame).1
          exact absurd (hnil ▸ hwords w List.mem_cons_self) h.nil_notMem
      | cons w' rest' =>
          have hhead : w = w' :=
            h.head_eq (hwords w List.mem_cons_self) (hwords' w' List.mem_cons_self) hsame
          subst hhead
          have hrest := ih rest' (fun v hv => hwords v (List.mem_cons_of_mem _ hv))
            (fun v hv => hwords' v (List.mem_cons_of_mem _ hv)) (List.append_cancel_left hsame)
          rw [hrest]

/-- Two codes whose words begin differently make one. -/
theorem PrefixFree.union {code code' : Set (List β)} (h : PrefixFree code) (h' : PrefixFree code')
    (hapart : ∀ w ∈ code, ∀ w' ∈ code', w.head? ≠ w'.head?) : PrefixFree (code ∪ code') := by
  have hhead {w w' : List β} (hne : w ≠ []) (hinitial : w <+: w') : w.head? = w'.head? := by
    obtain ⟨c, rfl⟩ := hinitial
    exact (List.head?_append_of_ne_nil w hne).symm
  refine ⟨fun hmem => hmem.elim h.nil_notMem h'.nil_notMem, ?_⟩
  rintro w (hw | hw) w' (hw' | hw') hinitial
  · exact h.eq_of_initial w hw w' hw' hinitial
  · have hne : w ≠ [] := fun hnil => h.nil_notMem (hnil ▸ hw)
    exact absurd (hhead hne hinitial) (hapart w hw w' hw')
  · have hne : w ≠ [] := fun hnil => h'.nil_notMem (hnil ▸ hw)
    exact absurd (hhead hne hinitial).symm (hapart w' hw' w hw)
  · exact h'.eq_of_initial w hw w' hw' hinitial

/-! ### What was written -/

/-- Everything has the word of its meaning, or neither a word nor a meaning. -/
def Writes (code : Set (List β)) (means : List β → γ → Prop) (word : α → List β)
    (meaning : α → Option γ) (a : α) : Prop :=
  (word a = [] ∧ meaning a = none) ∨
    (word a ∈ code ∧ ∃ x, meaning a = some x ∧ means (word a) x)

variable {code : Set (List β)} {means : List β → γ → Prop} {word : α → List β}
variable {meaning : α → Option γ}

/-- The words of a stream, and what they mean. -/
theorem exists_words {written : List α} (h : ∀ a ∈ written, Writes code means word meaning a) :
    ∃ words : List (List β), (∀ w ∈ words, w ∈ code) ∧ words.flatten = written.flatMap word ∧
      List.Forall₂ means words (written.filterMap meaning) := by
  induction written with
  | nil => exact ⟨[], fun _ hw => absurd hw List.not_mem_nil, rfl, .nil⟩
  | cons a rest ih =>
      obtain ⟨words, hwords, hflat, hmeans⟩ := ih fun a' ha' => h a' (List.mem_cons_of_mem _ ha')
      rcases h a List.mem_cons_self with ⟨hnil, hnone⟩ | ⟨hcode, x, hsome, hx⟩
      · refine ⟨words, hwords, ?_, ?_⟩
        · rw [List.flatMap_cons, hnil, hflat, List.nil_append]
        · rwa [List.filterMap_cons_none hnone]
      · refine ⟨word a :: words, ?_, ?_, ?_⟩
        · intro w hw
          rcases List.mem_cons.mp hw with rfl | hw
          · exact hcode
          · exact hwords w hw
        · rw [List.flatMap_cons, List.flatten_cons, hflat]
        · rw [List.filterMap_cons_some hsome]
          exact .cons hx hmeans

/-- **The stream tells what was written.** -/
theorem meanings_eq (hdecodable : UniquelyDecodable code) (hmeans : Relator.RightUnique means)
    {written written' : List α} (h : ∀ a ∈ written, Writes code means word meaning a)
    (h' : ∀ a ∈ written', Writes code means word meaning a)
    (hsame : written.flatMap word = written'.flatMap word) :
    written.filterMap meaning = written'.filterMap meaning := by
  obtain ⟨words, hwords, hflat, hfirst⟩ := exists_words h
  obtain ⟨words', hwords', hflat', hsecond⟩ := exists_words h'
  have hall : words = words' :=
    hdecodable words words' hwords hwords' (hflat.trans (hsame.trans hflat'.symm))
  subst hall
  exact List.right_unique_forall₂' hmeans hfirst hsecond

end PrefixCodes
