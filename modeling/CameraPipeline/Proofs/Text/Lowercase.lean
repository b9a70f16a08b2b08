import Mathlib.Tactic.Common
import CameraPipeline.Text.Lowercase

/-!
Texts in lower case. No lower-case letter has a lower-case letter of its own, so the lower-case
form of a text is in lower case, and a text in lower case is its own form.
-/

namespace CameraPipeline.Text

namespace CaseRun

/-- The first letter of a run and the last one. -/
def lowest (r : CaseRun) : Nat := (r.first + r.distance).toNat

def highest (r : CaseRun) : Nat := (r.last + r.distance).toNat

/-- Do the letters of the first run lie outside the second one? -/
def clears (r s : CaseRun) : Bool :=
  s.last.blt r.lowest || r.highest.blt s.first ||
    ((r.step == 2 || r.first == r.last) && s.step == 2 && (r.lowest + s.first) % 2 == 1)

theorem not_covers_of_clears {r s : CaseRun} {n m : Nat} (h : r.clears s) (hn : r.covers n)
    (hpos : 0 < r.lowest) (hm : m = n + r.distance) : s.covers m = false := by
  obtain ⟨first, last, step, distance⟩ := r
  obtain ⟨first', last', step', distance'⟩ := s
  simp only [covers, Bool.and_eq_true, decide_eq_true_eq, beq_iff_eq] at hn
  refine Bool.eq_false_iff.mpr fun hs => ?_
  simp only [covers, Bool.and_eq_true, decide_eq_true_eq, beq_iff_eq] at hs
  simp only [clears, Bool.or_eq_true, Bool.and_eq_true, Nat.blt_eq, beq_iff_eq, lowest,
    highest] at h hm hpos
  obtain (h | h) | ⟨⟨rfl | h, rfl⟩, hp⟩ := h <;> omega

end CaseRun

/-- What has another lower-case form in some place: the runs and the capital I with a dot. -/
def sources : List CaseRun := ⟨0x130, 0x130, 1, 0⟩ :: caseRuns

theorem caseRuns_clear : (caseRuns.all fun r => sources.all r.clears) = true := by
  decide +kernel

theorem exists_covers_sigma : ∃ s ∈ sources, s.covers 'Σ'.toNat = true := by decide +kernel

theorem exists_covers_dotted : ∃ s ∈ sources, s.covers 'İ'.toNat = true := by decide +kernel

/-- The letters of the runs are characters, and those in ASCII are no capitals. -/
theorem caseRuns_valid : ∀ r ∈ caseRuns,
    (0x80 ≤ r.lowest ∨ 0x5a < r.lowest ∧ r.highest < 0x80) ∧
      (r.highest < 0xd800 ∨ 0xdfff < r.lowest) ∧ r.highest < 0x110000 := by
  decide +kernel

/-- The character is its own lower-case form wherever it stands. -/
def IsLowerChar (c : Char) : Prop := lowerChar c = c ∧ c ≠ 'Σ' ∧ c ≠ 'İ'

instance (c : Char) : Decidable (IsLowerChar c) := inferInstanceAs (Decidable (_ ∧ _))

def IsLower (s : String) : Prop := ∀ c ∈ s.toList, IsLowerChar c

instance (s : String) : Decidable (IsLower s) := List.decidableBAll _ s.toList

section Char

variable {c : Char}

theorem toLower_eq_self (h : c.toNat < 0x41 ∨ 0x5a < c.toNat) : c.toLower = c := by
  refine dif_neg fun hu => ?_
  have hlow : 0x41 ≤ c.toNat := hu.1
  have hhigh : c.toNat ≤ 0x5a := hu.2
  omega

/-- In ASCII only the capitals are not in lower case. -/
theorem isLowerChar_of_ascii (hascii : c.toNat < 0x80) (h : c.toNat < 0x41 ∨ 0x5a < c.toNat) :
    IsLowerChar c := by
  refine ⟨?_, ?_, ?_⟩
  · rw [lowerChar, if_pos hascii, toLower_eq_self h]
  · intro heq
    subst heq
    exact absurd hascii (by decide)
  · intro heq
    subst heq
    exact absurd hascii (by decide)

theorem lowerChar_of_not_covers (hascii : 0x80 ≤ c.toNat)
    (h : ∀ r ∈ caseRuns, r.covers c.toNat = false) : lowerChar c = c := by
  have hnone : caseRuns.find? (·.covers c.toNat) = none :=
    List.find?_eq_none.mpr fun r hr => by simp [h r hr]
  rw [lowerChar, if_neg (by omega), hnone]

theorem toNat_toLower_of_capital (h : 0x41 ≤ c.toNat) (h' : c.toNat ≤ 0x5a) :
    c.toLower.toNat = c.toNat + 0x20 := by
  have hto : c.toLower = _ := dif_pos ⟨h, h'⟩
  rw [hto]
  have hdistance : ('a'.val - 'A'.val).toNat = 0x20 := rfl
  have hval : c.val.toNat = c.toNat := rfl
  simp only [Char.toNat, UInt32.toNat_add, hdistance]
  omega

/-- The letter of a character in a run is in lower case. -/
theorem isLowerChar_of_covers {r : CaseRun} {n : Nat} (hr : r ∈ caseRuns) (hcov : r.covers n) :
    IsLowerChar (Char.ofNat (n + r.distance).toNat) := by
  obtain ⟨hlow, hgap, hhigh⟩ := caseRuns_valid r hr
  simp only [CaseRun.lowest, CaseRun.highest] at hlow hgap hhigh
  have hrange : r.first ≤ n ∧ n ≤ r.last := by
    simp only [CaseRun.covers, Bool.and_eq_true, decide_eq_true_eq] at hcov
    exact hcov.1
  obtain ⟨m, hm⟩ : ∃ m : Nat, (m : Int) = n + r.distance :=
    ⟨(n + r.distance).toNat, by omega⟩
  have hvalid : m.isValidChar := by
    simp only [Nat.isValidChar]
    omega
  have hto : (Char.ofNat m).toNat = m := by
    rw [Char.ofNat, dif_pos hvalid]
    rfl
  have hclear : ∀ s ∈ sources, s.covers (Char.ofNat m).toNat = false := fun s hs =>
    CaseRun.not_covers_of_clears
      (List.all_eq_true.mp (List.all_eq_true.mp caseRuns_clear r hr) s hs)
      hcov (by rw [CaseRun.lowest]; omega) (by omega)
  rw [← hm, Int.toNat_natCast]
  by_cases hascii : m < 0x80
  · exact isLowerChar_of_ascii (by omega) (.inr (by omega))
  · refine ⟨?_, fun heq => ?_, fun heq => ?_⟩
    · exact lowerChar_of_not_covers (by omega) fun s hs => hclear s (.tail _ hs)
    · obtain ⟨s, hs, hcov⟩ := exists_covers_sigma
      exact absurd (heq ▸ hclear s hs) (by rw [hcov]; exact Bool.noConfusion)
    · obtain ⟨s, hs, hcov⟩ := exists_covers_dotted
      exact absurd (heq ▸ hclear s hs) (by rw [hcov]; exact Bool.noConfusion)

/-- A lower-case letter stays as it is. -/
theorem isLowerChar_lowerChar (hsigma : c ≠ 'Σ') (hdot : c ≠ 'İ') :
    IsLowerChar (lowerChar c) := by
  rw [lowerChar]
  by_cases hascii : c.toNat < 0x80
  · rw [if_pos hascii]
    by_cases hcap : 0x41 ≤ c.toNat ∧ c.toNat ≤ 0x5a
    · have hto := toNat_toLower_of_capital hcap.1 hcap.2
      exact isLowerChar_of_ascii (by omega) (.inr (by omega))
    · have hout : c.toNat < 0x41 ∨ 0x5a < c.toNat := by omega
      rw [toLower_eq_self hout]
      exact isLowerChar_of_ascii hascii hout
  · rw [if_neg hascii]
    cases hfind : caseRuns.find? (·.covers c.toNat) with
    | none =>
        exact ⟨by rw [lowerChar, if_neg hascii, hfind], hsigma, hdot⟩
    | some r =>
        exact isLowerChar_of_covers (List.mem_of_find?_eq_some hfind) (List.find?_some hfind :)

end Char

theorem isLower_lowerBetween {before after : List Char} {c d : Char}
    (h : d ∈ lowerBetween before c after) : IsLowerChar d := by
  rw [lowerBetween] at h
  split at h
  · have hd : d = 'ς' ∨ d = 'σ' := by
      split at h <;> simp_all
    cases hd with
    | inl hd => rw [hd]; decide +kernel
    | inr hd => rw [hd]; decide +kernel
  · split at h
    · have hd : d = 'i' ∨ d = '\u0307' := by simpa using h
      cases hd with
      | inl hd => rw [hd]; decide +kernel
      | inr hd => rw [hd]; decide +kernel
    · rename_i hsigma hdot
      rw [List.mem_singleton.mp h]
      exact isLowerChar_lowerChar hsigma hdot

theorem isLower_lowercase (s : String) : IsLower (lowercase s) := by
  have h (before cs : List Char) : ∀ d ∈ lowerFrom before cs, IsLowerChar d := by
    induction cs generalizing before with
    | nil => intro d hd; cases hd
    | cons c cs ih =>
        intro d hd
        rw [lowerFrom, List.mem_append] at hd
        cases hd with
        | inl hd => exact isLower_lowerBetween hd
        | inr hd => exact ih (c :: before) d hd
  rw [IsLower, lowercase, String.toList_ofList]
  exact h [] s.toList

/-- A text in lower case is its own lower-case form. -/
theorem IsLower.lowercase_eq {s : String} (h : IsLower s) : lowercase s = s := by
  have hfrom (before cs : List Char) (hcs : ∀ c ∈ cs, IsLowerChar c) :
      lowerFrom before cs = cs := by
    induction cs generalizing before with
    | nil => rfl
    | cons c cs ih =>
        obtain ⟨hc, hsigma, hdot⟩ := hcs c (.head _)
        rw [lowerFrom, ih (c :: before) fun c hc => hcs c (.tail _ hc), lowerBetween,
          if_neg hsigma, if_neg hdot, hc]
        rfl
  rw [lowercase, hfrom [] s.toList h, String.ofList_toList]

theorem IsLower.append {s t : String} (hs : IsLower s) (ht : IsLower t) : IsLower (s ++ t) := by
  intro c hc
  rw [String.toList_append, List.mem_append] at hc
  cases hc with
  | inl hc => exact hs c hc
  | inr hc => exact ht c hc

end CameraPipeline.Text
