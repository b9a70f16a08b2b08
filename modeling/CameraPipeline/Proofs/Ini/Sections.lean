import Mathlib.Data.List.TakeWhile
import CameraPipeline.Params.Ini.Writer

/-!
Parameters by their sections. A key that can be split lies in one section, and a section holds
the names and values of just the parameters that lie in it.
-/

namespace CameraPipeline

open Params

theorem Params.splitKey_eq_some {key sectionName name : String} :
    splitKey key = some (sectionName, name) ↔
      key = sectionName ++ ":" ++ name ∧ sectionName ≠ "" ∧ name ≠ "" ∧
        ':' ∉ sectionName.toList := by
  have hsplit := List.takeWhile_append_dropWhile (p := (· != ':')) (l := key.toList)
  constructor
  · intro h
    simp only [splitKey] at h
    cases hrest : key.toList.dropWhile (· != ':') with
    | nil => simp [hrest] at h
    | cons c rest =>
        have hcolon : c = ':' := by
          have h := List.head?_dropWhile_not (· != ':') key.toList
          rw [hrest] at h
          simpa using h
        simp only [hrest, Option.ite_none_left_eq_some, Bool.or_eq_true, List.isEmpty_iff,
          not_or, Option.some.injEq, Prod.mk.injEq] at h
        obtain ⟨⟨hsection, hname⟩, rfl, rfl⟩ := h
        refine ⟨?_, ?_, ?_, ?_⟩
        · rw [hrest, hcolon] at hsplit
          rw [← String.toList_inj, String.toList_append, String.toList_append,
            String.toList_ofList, String.toList_ofList, List.append_assoc]
          simpa using hsplit.symm
        · exact fun hempty => hsection (String.ofList_eq_empty_iff.mp hempty)
        · exact fun hempty => hname (String.ofList_eq_empty_iff.mp hempty)
        · intro hmem
          rw [String.toList_ofList] at hmem
          simpa using List.mem_takeWhile_imp hmem
  · intro h
    obtain ⟨rfl, hsection, hname, hfree⟩ := h
    have hbefore : ∀ c ∈ sectionName.toList, (c != ':') = true := fun c hc => by
      simpa using fun heq : c = ':' => hfree (heq ▸ hc)
    have hsection' : sectionName.toList ≠ [] := fun h => hsection (String.toList_eq_nil_iff.mp h)
    have hname' : name.toList ≠ [] := fun h => hname (String.toList_eq_nil_iff.mp h)
    simp [splitKey, List.takeWhile_append_of_pos hbefore, List.dropWhile_append_of_pos hbefore,
      hsection', hname']

namespace Ini

/-- The name and the value of a parameter of the section. -/
def memberOf? (sectionName : String) (e : String × String) : Option (String × String) :=
  match splitKey e.1 with
  | some (s, name) => if s = sectionName then some (name, e.2) else none
  | none => none

theorem memberOf?_eq_some {sectionName name value : String} {e : String × String} :
    memberOf? sectionName e = some (name, value) ↔
      splitKey e.1 = some (sectionName, name) ∧ e.2 = value := by
  rw [memberOf?]
  cases splitKey e.1 with
  | none => simp
  | some k =>
      obtain ⟨s, n⟩ := k
      by_cases hs : s = sectionName
      · simp [hs]
      · simp [hs]

section Grouping

variable {p : Params} {sectionName : String} {entries : List (String × String)}

theorem get?_sections (p : Params) (sectionName : String) :
    (sections p).get? sectionName =
      match p.entries.filterMap (memberOf? sectionName) with
      | [] => none
      | m :: ms => some (m :: ms) := by
  have h (l : List (String × String)) (t : Table String (List (String × String))) :
      (l.foldl (fun t e =>
        match splitKey e.1 with
        | some (s, name) => t.insert s ((t.get? s).getD [] ++ [(name, e.2)])
        | none => t) t).get? sectionName =
        match l.filterMap (memberOf? sectionName) with
        | [] => t.get? sectionName
        | m :: ms => some ((t.get? sectionName).getD [] ++ m :: ms) := by
    induction l generalizing t with
    | nil => rfl
    | cons e l ih =>
        rw [List.foldl_cons, ih]
        cases hk : splitKey e.1 with
        | none => simp [memberOf?, hk]
        | some k =>
            obtain ⟨s, name⟩ := k
            by_cases hs : s = sectionName
            · subst hs
              have hm : memberOf? s e = some (name, e.2) := memberOf?_eq_some.mpr ⟨hk, rfl⟩
              rw [List.filterMap_cons_some hm]
              cases l.filterMap (memberOf? s) <;> simp
            · have hm : memberOf? sectionName e = none := by simp [memberOf?, hk, hs]
              rw [List.filterMap_cons_none hm]
              simp [Table.get?_insert_of_ne _ _ (Ne.symm hs)]
  exact (h p.entries .empty).trans rfl

/-- A section holds the parameters that lie in it. -/
theorem mem_of_mem_sections (h : (sectionName, entries) ∈ (sections p).entries)
    {name value : String} :
    (name, value) ∈ entries ↔
      ∃ key, (key, value) ∈ p.entries ∧ splitKey key = some (sectionName, name) := by
  have hget := (Table.mem_entries_iff _).mp h
  rw [get?_sections] at hget
  have hentries : entries = p.entries.filterMap (memberOf? sectionName) := by
    revert hget
    cases p.entries.filterMap (memberOf? sectionName) with
    | nil => exact fun h => nomatch h
    | cons m ms => exact fun h => (Option.some.inj h).symm
  rw [hentries, List.mem_filterMap]
  constructor
  · intro hex
    obtain ⟨⟨key, v⟩, he, hm⟩ := hex
    obtain ⟨hk, rfl⟩ := memberOf?_eq_some.mp hm
    exact ⟨key, he, hk⟩
  · intro hex
    obtain ⟨key, he, hk⟩ := hex
    exact ⟨(key, value), he, memberOf?_eq_some.mpr ⟨hk, rfl⟩⟩

theorem nonempty_of_mem_sections (h : (sectionName, entries) ∈ (sections p).entries) :
    entries ≠ [] := by
  have hget := (Table.mem_entries_iff _).mp h
  rw [get?_sections] at hget
  intro hnil
  subst hnil
  revert hget
  cases p.entries.filterMap (memberOf? sectionName) with
  | nil => exact fun h => nomatch h
  | cons m ms => exact fun h => nomatch Option.some.inj h

/-- Every parameter whose key can be split lies in a section. -/
theorem exists_mem_sections {key name value : String} (he : (key, value) ∈ p.entries)
    (hk : splitKey key = some (sectionName, name)) :
    ∃ entries, (sectionName, entries) ∈ (sections p).entries ∧ (name, value) ∈ entries := by
  have hmem : (name, value) ∈ p.entries.filterMap (memberOf? sectionName) :=
    List.mem_filterMap.mpr ⟨(key, value), he, memberOf?_eq_some.mpr ⟨hk, rfl⟩⟩
  refine ⟨p.entries.filterMap (memberOf? sectionName), (Table.mem_entries_iff _).mpr ?_, hmem⟩
  rw [get?_sections]
  cases hl : p.entries.filterMap (memberOf? sectionName) with
  | nil => rw [hl] at hmem; cases hmem
  | cons m ms => rfl

end Grouping

end Ini
end CameraPipeline
