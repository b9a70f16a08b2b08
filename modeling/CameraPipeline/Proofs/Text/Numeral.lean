import CameraPipeline.Proofs.Text.Trim
import CameraPipeline.Text.Numeral

/-!
Numerals. The readers of integers accept the numerals of the integers in their range and no other
text, and what is written for an integer is a numeral of it.
-/

namespace CameraPipeline.Text

/-- One or more decimal digits. -/
def IsDigits (cs : List Char) : Prop := cs ≠ [] ∧ ∀ c ∈ cs, c.isDigit

/-- The numerals of an integer: digits, of which any number at the front may be zeros, and a sign
before them, which is a minus only where negative integers are known. -/
inductive Numeral (signed : Bool) : List Char → Int → Prop
  | plain {cs : List Char} (h : IsDigits cs) : Numeral signed cs (Nat.ofDigitChars 10 cs 0)
  | plus {cs : List Char} (h : IsDigits cs) : Numeral signed ('+' :: cs) (Nat.ofDigitChars 10 cs 0)
  | minus {cs : List Char} (hsigned : signed = true) (h : IsDigits cs) :
      Numeral signed ('-' :: cs) (-(Nat.ofDigitChars 10 cs 0))

variable {cs : List Char} {c : Char} {s : String} {signed : Bool} {n n' : Int} {m bound : Nat}
  {lo hi : Int}

theorem IsDigits.head_ne (h : IsDigits (c :: cs)) : c ≠ '+' ∧ c ≠ '-' := by
  have hdigit := h.2 c (.head _)
  exact ⟨fun he => absurd (he ▸ hdigit) (by decide), fun he => absurd (he ▸ hdigit) (by decide)⟩

theorem digits?_eq_some_iff :
    digits? cs = some m ↔ IsDigits cs ∧ Nat.ofDigitChars 10 cs 0 = m := by
  rw [digits?, IsDigits]
  split
  · rename_i h
    have hnot : ¬(cs ≠ [] ∧ ∀ c ∈ cs, c.isDigit) := by
      simpa [Classical.or_iff_not_imp_left] using h
    simp [hnot]
  · rename_i h
    have hdigits : cs ≠ [] ∧ ∀ c ∈ cs, c.isDigit := by simpa using h
    rw [Option.some_inj, and_iff_right hdigits]
    rfl

/-- A text is a numeral of one integer at most. -/
theorem Numeral.unique (h : Numeral signed cs n) (h' : Numeral signed cs n') : n = n' := by
  cases h with
  | plain h =>
      cases h' with
      | plain => rfl
      | plus => exact absurd rfl h.head_ne.1
      | minus => exact absurd rfl h.head_ne.2
  | plus h =>
      cases h' with
      | plain h' => exact absurd rfl h'.head_ne.1
      | plus => rfl
  | minus _ h =>
      cases h' with
      | plain h' => exact absurd rfl h'.head_ne.2
      | minus => rfl

theorem Numeral.solid (h : Numeral signed cs n) : Solid cs := by
  have hdigits {ds : List Char} (h : IsDigits ds) : Solid ds := by
    intro c hc
    obtain ⟨hlow, hhigh⟩ := Char.isDigit_iff_toNat.mp (h.2 c hc)
    exact isBlank_of_visible (Nat.le_trans (by decide) hlow) (Nat.le_trans hhigh (by decide))
  cases h with
  | plain h => exact hdigits h
  | plus h | minus _ h => exact List.forall_mem_cons.mpr ⟨by decide, hdigits h⟩

theorem natural?_eq_some_iff :
    natural? bound s = some m ↔ Numeral false s.toList m ∧ m < bound := by
  rw [natural?, Option.filter_eq_some_iff]
  refine and_congr ?_ decide_eq_true_iff
  generalize s.toList = cs
  constructor
  · intro h
    split at h
    · obtain ⟨hdigits, rfl⟩ := digits?_eq_some_iff.mp h
      exact .plus hdigits
    · obtain ⟨hdigits, rfl⟩ := digits?_eq_some_iff.mp h
      exact .plain hdigits
  · intro h
    generalize hn : (m : Int) = n at h
    cases h with
    | plain h =>
        split
        · exact absurd rfl h.head_ne.1
        · exact digits?_eq_some_iff.mpr ⟨h, by omega⟩
    | plus h => exact digits?_eq_some_iff.mpr ⟨h, by omega⟩
    | minus hsigned _ => cases hsigned

theorem integer?_eq_some_iff :
    integer? lo hi s = some n ↔ Numeral true s.toList n ∧ lo ≤ n ∧ n ≤ hi := by
  rw [integer?, Option.filter_eq_some_iff]
  refine and_congr ?_ (by simp)
  generalize s.toList = cs
  constructor
  · intro h
    split at h
    all_goals
      obtain ⟨m, hm, rfl⟩ := Option.map_eq_some_iff.mp h
      obtain ⟨hdigits, rfl⟩ := digits?_eq_some_iff.mp hm
    · exact .plus hdigits
    · exact .minus rfl hdigits
    · exact .plain hdigits
  · intro h
    cases h with
    | plain h =>
        split
        · exact absurd rfl h.head_ne.1
        · exact absurd rfl h.head_ne.2
        · exact Option.map_eq_some_iff.mpr ⟨_, digits?_eq_some_iff.mpr ⟨h, rfl⟩, rfl⟩
    | plus h => exact Option.map_eq_some_iff.mpr ⟨_, digits?_eq_some_iff.mpr ⟨h, rfl⟩, rfl⟩
    | minus _ h => exact Option.map_eq_some_iff.mpr ⟨_, digits?_eq_some_iff.mpr ⟨h, rfl⟩, rfl⟩

theorem isDigits_toDigits (m : Nat) : IsDigits (Nat.toDigits 10 m) :=
  ⟨Nat.toDigits_ne_nil, fun _ => Nat.isDigit_of_mem_toDigits (by decide) (by decide)⟩

theorem numeral_ofNat (signed : Bool) (m : Nat) : Numeral signed (ofNat m).toList m := by
  have h : Numeral signed (Nat.toDigits 10 m) _ := .plain (isDigits_toDigits m)
  rw [Nat.ofDigitChars_ten_toDigits] at h
  rwa [ofNat, String.toList_ofList]

theorem numeral_ofInt (n : Int) : Numeral true (ofInt n).toList n := by
  cases n with
  | ofNat m => exact numeral_ofNat true m
  | negSucc m =>
      have h : Numeral true ('-' :: Nat.toDigits 10 (m + 1)) _ :=
        .minus rfl (isDigits_toDigits (m + 1))
      rw [Nat.ofDigitChars_ten_toDigits] at h
      rw [ofInt, ofNat, String.toList_append, String.toList_ofList, String.toList_ofList]
      exact h

end CameraPipeline.Text
