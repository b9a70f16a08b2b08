import CameraPipeline.Proofs.Ini.RoundTrip

/-!
Stores of plain parameters: dotted words as sections, words as names, and values of one line that
the reader takes as they stand. Writing such a store and reading the text gives it back.
-/

namespace CameraPipeline

open Params Ini

namespace Ini

def isWordChar (c : Char) : Bool :=
  ('a' ≤ c && c ≤ 'z') || ('0' ≤ c && c ≤ '9') || c == '_' || c == '-'

def IsWord (s : String) : Prop := s ≠ "" ∧ ∀ c ∈ s.toList, isWordChar c

instance (s : String) : Decidable (IsWord s) :=
  have := List.decidableBAll (isWordChar ·) s.toList
  inferInstanceAs (Decidable (s ≠ "" ∧ _))

/-- One or more words with points between them. -/
def IsDotted (s : String) : Prop :=
  ∃ words : List String, words ≠ [] ∧ (∀ w ∈ words, IsWord w) ∧ s = ".".intercalate words

/-- The dotted name `inner` is `outer` or lies below it. -/
def Encloses (outer inner : String) : Prop :=
  outer = inner ∨ (outer ++ ".").toList <+: inner.toList

instance (outer inner : String) : Decidable (Encloses outer inner) :=
  inferInstanceAs (Decidable (_ ∨ _))

section Words

variable {s : String} {c : Char}

/-- What the reader makes of the characters of words and of the point between them. -/
theorem isWordChar_spec (h : isWordChar c ∨ c = '.') :
    Text.IsLowerChar c ∧ Text.isBlank c = false ∧
      c ∉ ['\\', ']', '[', ':', '=', ';', '#'] := by
  have hrange : c.toNat = 0x2e ∨ c.toNat = 0x2d ∨ c.toNat = 0x5f ∨
      0x61 ≤ c.toNat ∧ c.toNat ≤ 0x7a ∨ 0x30 ≤ c.toNat ∧ c.toNat ≤ 0x39 := by
    cases h with
    | inr h =>
        subst h
        exact .inl rfl
    | inl h =>
        simp only [isWordChar, Bool.or_eq_true, Bool.and_eq_true, decide_eq_true_eq,
          beq_iff_eq] at h
        obtain ((h | h) | rfl) | rfl := h
        · exact .inr (.inr (.inr (.inl h)))
        · exact .inr (.inr (.inr (.inr h)))
        · exact .inr (.inr (.inl rfl))
        · exact .inr (.inl rfl)
  refine ⟨Text.isLowerChar_of_ascii (by omega) (by omega), ?_, fun hmem => ?_⟩
  · simp only [Text.isBlank, Bool.or_eq_false_iff, Bool.and_eq_false_iff, decide_eq_false_iff_not,
      beq_eq_false_iff_ne]
    omega
  · revert hrange
    simp only [List.mem_cons, List.not_mem_nil, or_false] at hmem
    obtain rfl | rfl | rfl | rfl | rfl | rfl | rfl := hmem <;> decide

theorem IsDotted.chars (h : IsDotted s) : ∀ c ∈ s.toList, isWordChar c ∨ c = '.' := by
  obtain ⟨words, _, hwords, rfl⟩ := h
  induction words with
  | nil => simp
  | cons w words ih =>
      cases words with
      | nil => simpa using fun c hc => .inl ((hwords w (.head _)).2 c hc)
      | cons next words =>
          intro c hc
          simp only [String.intercalate_cons_cons, String.toList_append, List.mem_append] at hc
          obtain (hc | hc) | hc := hc
          · exact .inl ((hwords w (.head _)).2 c hc)
          · exact .inr (by simpa using hc)
          · exact ih (List.cons_ne_nil _ _) (fun w hw => hwords w (.tail _ hw)) c hc

theorem IsDotted.nonempty (h : IsDotted s) : s ≠ "" := by
  obtain ⟨words, hne, hwords, rfl⟩ := h
  cases words with
  | nil => exact absurd rfl hne
  | cons w words =>
      have hw := (hwords w (.head _)).1
      cases words with
      | nil => simpa using hw
      | cons next words => simp

theorem trim_of_words (h : ∀ c ∈ s.toList, isWordChar c ∨ c = '.') : Text.trim s = s := by
  rw [Text.trim_eq_self_iff, Text.trimList_eq_self_iff]
  refine ⟨fun c hc => ?_, fun c hc => ?_⟩
  · exact (isWordChar_spec (h c (List.mem_of_head? hc))).2.1
  · exact (isWordChar_spec (h c (List.mem_of_getLast? hc))).2.1

theorem IsDotted.literalHeading (h : IsDotted s) : LiteralHeading s where
  taken c hc := by
    have hspec := (isWordChar_spec (h.chars c hc)).2.2
    exact ⟨fun heq => hspec (by simp [heq]), by
      simpa [Purpose.endsAt] using fun heq : c = ']' => hspec (by simp [heq])⟩
  trimmed := trim_of_words h.chars

theorem IsWord.literalKey (h : IsWord s) : LiteralKey s where
  nonempty := h.1
  taken c hc := by
    have hspec := (isWordChar_spec (.inl (h.2 c hc))).2.2
    simp only [List.mem_cons, not_or] at hspec
    exact ⟨hspec.1, by simp [Purpose.endsAt, isSeparator, hspec]⟩
  opens c hc := by
    have hspec := (isWordChar_spec (.inl (h.2 c (List.mem_of_head? hc)))).2.2
    simp only [List.mem_cons, not_or] at hspec
    exact ⟨hspec.2.2.2.2.2.1, hspec.2.2.2.2.2.2.1, hspec.2.2.1⟩
  trimmed := trim_of_words fun c hc => .inl (h.2 c hc)

end Words

theorem nested_concat (first : String) (rest : List String) (name : String) :
    nested first (rest ++ [name]) = nested first rest ++ "." ++ name := by
  rw [nested, List.foldl_append]
  rfl

/-- A path that begins another is a dotted name that encloses the other. -/
theorem encloses_of_starts {s s' name : String} (h : ']' ∉ s.toList) (h' : ']' ∉ s'.toList)
    (hstarts : parts s ++ [name] <+: parts s') : Encloses (s ++ "." ++ name) s' := by
  obtain ⟨_, first, rest, hparts, hnested⟩ := parts_eq h
  obtain ⟨_, first', rest', hparts', hnested'⟩ := parts_eq h'
  rw [hparts, hparts', List.cons_append, List.cons_prefix_cons] at hstarts
  obtain ⟨rfl, below, rfl⟩ := hstarts
  rw [← hnested, ← hnested', ← nested_concat]
  cases below with
  | nil => exact .inl (by rw [List.append_nil])
  | cons next below =>
      refine .inr ⟨next.toList ++ below.flatMap fun n => '.' :: n.toList, ?_⟩
      simp [toList_nested]

end Ini

namespace Params

/-- The keys are made of words, no key's path is that of a section or of one around it, and the
values are lines without blanks at their ends that neither open a quote nor hold an escape. -/
structure Plain (p : Params) : Prop where
  keys : ∀ e ∈ p.entries, ∃ s n, IsDotted s ∧ IsWord n ∧ e.1 = s ++ ":" ++ n
  apart : ∀ e ∈ p.entries, ∀ e' ∈ p.entries, ∀ k ∈ splitKey e.1, ∀ k' ∈ splitKey e'.1,
    ¬Encloses (k.1 ++ "." ++ k.2) k'.1
  values : ∀ e ∈ p.entries, LiteralValue e.2

variable {p : Params}

theorem splitKey_of_words {s n : String} (hs : IsDotted s) (hn : IsWord n) :
    splitKey (s ++ ":" ++ n) = some (s, n) := by
  refine splitKey_eq_some.mpr ⟨rfl, hs.nonempty, hn.1, fun hc => ?_⟩
  exact (isWordChar_spec (hs.chars _ hc)).2.2 (by simp)

theorem Plain.legible (h : p.Plain) : p.Legible := by
  intro e he
  obtain ⟨s, n, hs, hn, hkey⟩ := h.keys e he
  refine ⟨s, n, hkey ▸ splitKey_of_words hs hn, hs.literalHeading, hn.literalKey, h.values e he,
    fun c hc => ?_, fun c hc => ?_⟩
  · exact (isWordChar_spec (hs.chars c hc)).1
  · exact (isWordChar_spec (.inl (hn.2 c hc))).1

theorem Plain.toApart (h : p.Plain) : p.Apart := by
  intro e he e' he' s n s' n' hsplit hsplit' hstarts
  have hfree {e : String × String} (he : e ∈ p.entries) {s n : String}
      (hsplit : splitKey e.1 = some (s, n)) : ']' ∉ s.toList := by
    obtain ⟨_, _, hsplit', hliteral⟩ := h.legible e he
    rw [hsplit] at hsplit'
    cases hsplit'
    exact hliteral.heading.not_mem
  exact h.apart e he e' he' (s, n) hsplit (s', n') hsplit'
    (encloses_of_starts (hfree he hsplit) (hfree he' hsplit') hstarts)

/-- Plain parameters are read back as they were written. -/
theorem Plain.ofIni?_iniText (h : p.Plain) : Params.ofIni? p.iniText = some p :=
  ofIni?_iniText_of_legible h.legible h.toApart

def nestedSections : Params :=
  .ofList [("video:on", ""), ("video.0:b-1", "k = 'v'; #[s]: \"")]

theorem Plain.ofIni?_iniText_nestedSections :
    nestedSections.Plain ∧ Params.ofIni? nestedSections.iniText = some nestedSections := by
  have hentries : nestedSections.entries =
      [("video.0:b-1", "k = 'v'; #[s]: \""), ("video:on", "")] := by
    decide +kernel
  have hwords : ∀ w ∈ ["video", "0", "on", "b-1"], IsWord w := by
    decide +kernel
  have hplain : nestedSections.Plain := by
    refine ⟨?keys, by decide +kernel, ?values⟩
    case keys =>
      rw [hentries]
      intro e he
      simp only [List.mem_cons, List.not_mem_nil, or_false] at he
      cases he with
      | inl he =>
          exact he ▸ ⟨"video.0", "b-1", ⟨["video", "0"], by simp, by simp [hwords], by decide⟩,
            hwords _ (by simp), by decide⟩
      | inr he =>
          exact he ▸ ⟨"video", "on", ⟨["video"], by simp, by simp [hwords], by decide⟩,
            hwords _ (by simp), by decide⟩
    case values =>
      rw [hentries]
      intro e he
      simp only [List.mem_cons, List.not_mem_nil, or_false] at he
      cases he with
      | inl he => exact he ▸ (by decide +kernel)
      | inr he => exact he ▸ (by decide +kernel)
  exact ⟨hplain, hplain.ofIni?_iniText⟩

end Params
end CameraPipeline
