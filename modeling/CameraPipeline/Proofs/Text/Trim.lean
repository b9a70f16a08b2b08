import Mathlib.Data.List.DropRight
import CameraPipeline.Proofs.Text.Lowercase
import CameraPipeline.Text.Blank

/-!
Trimmed texts. A text is trimmed just if it neither begins nor ends with a blank, and trimming takes
the blanks away that were put around a text without blanks, and nothing else.
-/

namespace CameraPipeline.Text

variable {cs : List Char} {c : Char}

theorem trimList_eq (cs : List Char) :
    trimList cs = (cs.dropWhile isBlank).rdropWhile isBlank := rfl

theorem trimList_eq_self_iff :
    trimList cs = cs ↔
      (∀ c, cs.head? = some c → isBlank c = false) ∧
        ∀ c, cs.getLast? = some c → isBlank c = false := by
  rw [trimList_eq]
  constructor
  · intro h
    have hdrop : cs.dropWhile isBlank = cs := by
      refine (List.dropWhile_suffix isBlank).eq_of_length_le ?_
      exact (congrArg List.length h).symm.le.trans (List.rdropWhile_prefix _ _).length_le
    rw [hdrop, List.rdropWhile_eq_self_iff] at h
    rw [List.dropWhile_eq_self_iff] at hdrop
    refine ⟨fun c hc => ?_, fun c hc => ?_⟩
    · obtain ⟨r, rfl⟩ := List.head?_eq_some_iff.mp hc
      simpa using hdrop (Nat.succ_pos _)
    · obtain ⟨r, rfl⟩ := List.getLast?_eq_some_iff.mp hc
      simpa using h
  · intro h
    obtain ⟨hhead, hlast⟩ := h
    have hdrop : cs.dropWhile isBlank = cs :=
      List.dropWhile_eq_self_iff.mpr fun hl => by
        simpa using hhead _ (List.head?_eq_getElem?.trans (List.getElem?_eq_getElem hl))
    rw [hdrop]
    exact List.rdropWhile_eq_self_iff.mpr fun hl => by
      simpa using hlast _ (List.getLast?_eq_getLast_of_ne_nil hl)

theorem trimList_trimList (cs : List Char) : trimList (trimList cs) = trimList cs := by
  rw [trimList_eq_self_iff]
  refine ⟨fun c hc => ?_, fun c hc => ?_⟩
  · have hpre := List.rdropWhile_prefix isBlank (cs.dropWhile isBlank)
    obtain ⟨r, hr⟩ := List.head?_eq_some_iff.mp hc
    rw [trimList_eq] at hr
    rw [hr] at hpre
    obtain ⟨s, hs⟩ := hpre
    have h := List.head?_dropWhile_not isBlank cs
    rw [← hs] at h
    exact h
  · obtain ⟨r, hr⟩ := List.getLast?_eq_some_iff.mp hc
    rw [trimList_eq] at hr
    have h := List.rdropWhile_last_not isBlank (cs.dropWhile isBlank) (by simp [hr])
    simpa [hr] using h

theorem trim_eq_self_iff {s : String} : trim s = s ↔ trimList s.toList = s.toList := by
  rw [trim, ← String.toList_inj, String.toList_ofList]

/-- A blank after a trimmed text goes again. -/
theorem trimList_append_blank (hcs : trimList cs = cs) (hne : cs ≠ []) (hc : isBlank c) :
    trimList (cs ++ [c]) = cs := by
  obtain ⟨hhead, hlast⟩ := trimList_eq_self_iff.mp hcs
  have hdrop : (cs ++ [c]).dropWhile isBlank = cs ++ [c] :=
    List.dropWhile_eq_self_iff.mpr fun _ => by
      have hpos := List.length_pos_of_ne_nil hne
      have h := hhead cs[0] (List.head?_eq_getElem?.trans (List.getElem?_eq_getElem hpos))
      simpa [List.getElem_append_left hpos] using h
  rw [trimList_eq, hdrop, List.rdropWhile_concat_pos _ _ _ hc]
  exact List.rdropWhile_eq_self_iff.mpr fun hl => by
    simpa using hlast _ (List.getLast?_eq_getLast_of_ne_nil hl)

/-! ### Blanks around a text -/

def Blanks (cs : List Char) : Prop := ∀ c ∈ cs, isBlank c

/-- There is no blank among the characters. -/
def Solid (cs : List Char) : Prop := ∀ c ∈ cs, isBlank c = false

-- The list is searched, and not all characters there are.
instance : Decidable (Blanks cs) := List.decidableBAll (fun c => isBlank c) cs
instance : Decidable (Solid cs) := List.decidableBAll (fun c => isBlank c = false) cs

/-- The text consists of the characters, with blanks before and behind them. -/
def Surrounds (s : String) (cs : List Char) : Prop :=
  ∃ before behind, Blanks before ∧ Blanks behind ∧ s.toList = before ++ cs ++ behind

theorem surrounds_trim (s : String) : Surrounds s (trim s).toList := by
  have hfront := List.takeWhile_append_dropWhile (p := isBlank) (l := s.toList)
  have hback := List.rdropWhile_append_rtakeWhile (p := isBlank) (l := s.toList.dropWhile isBlank)
  refine ⟨s.toList.takeWhile isBlank, (s.toList.dropWhile isBlank).rtakeWhile isBlank,
    fun c => List.mem_takeWhile_imp, fun c => List.mem_rtakeWhile_imp, ?_⟩
  rw [trim, String.toList_ofList, trimList_eq, List.append_assoc, hback, hfront]

theorem dropWhile_of_solid (hcs : Solid cs) : cs.dropWhile isBlank = cs := by
  cases cs with
  | nil => rfl
  | cons c cs => exact List.dropWhile_cons_of_neg (by simp [hcs c (.head _)])

theorem trim_of_surrounds {s : String} (h : Surrounds s cs) (hcs : Solid cs) :
    trim s = String.ofList cs := by
  obtain ⟨before, behind, hbefore, hbehind, hs⟩ := h
  have hfront : s.toList.dropWhile isBlank = (cs ++ behind).dropWhile isBlank := by
    rw [hs, List.append_assoc, List.dropWhile_append_of_pos hbefore]
  rw [trim, trimList, hfront]
  cases cs with
  | nil => rw [List.nil_append, List.dropWhile_eq_nil_iff.mpr hbehind]; rfl
  | cons c cs =>
      have hback : ∀ d ∈ behind.reverse, isBlank d := fun d hd => hbehind d (List.mem_reverse.mp hd)
      have hsolid : Solid (c :: cs).reverse := fun d hd => hcs d (List.mem_reverse.mp hd)
      rw [List.cons_append, List.dropWhile_cons_of_neg (by simp [hcs c (.head _)]),
        ← List.cons_append, List.reverse_append, List.dropWhile_append_of_pos hback,
        dropWhile_of_solid hsolid, List.reverse_reverse]

theorem surrounds_self (s : String) : Surrounds s s.toList :=
  ⟨[], [], List.forall_mem_nil _, List.forall_mem_nil _, by simp⟩

/-- No visible character of ASCII is a blank. -/
theorem isBlank_of_visible (hlow : 0x21 ≤ c.toNat) (hhigh : c.toNat ≤ 0x7e) :
    isBlank c = false := by
  simp only [isBlank, Bool.or_eq_false_iff, Bool.and_eq_false_iff, decide_eq_false_iff_not,
    beq_eq_false_iff_ne]
  omega

theorem isBlank_toLower (c : Char) : isBlank c.toLower = isBlank c := by
  by_cases hcapital : 0x41 ≤ c.toNat ∧ c.toNat ≤ 0x5a
  · have hlower := toNat_toLower_of_capital hcapital.1 hcapital.2
    rw [isBlank_of_visible (by omega) (by omega), isBlank_of_visible (by omega) (by omega)]
  · rw [toLower_eq_self (by omega)]

/-- A word without blanks has none in any case. -/
theorem solid_of_toLower {word : String} (hword : Solid word.toList)
    (h : cs.map Char.toLower = word.toList) : Solid cs := by
  intro c hc
  rw [← isBlank_toLower]
  exact hword _ (h ▸ List.mem_map_of_mem hc)

end CameraPipeline.Text
