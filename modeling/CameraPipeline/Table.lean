/-!
Finite tables with sorted keys. The order of the keys is part of the type, so a table has one
representation and listing it needs no further sorting.

Main statements: `get?_insert`, `get?_erase` and `ext_get?`, which says that a table is
determined by what it answers.
-/

namespace CameraPipeline

/-- A strict total order on keys. -/
class KeyOrder (κ : Type) [LT κ] : Prop where
  irrefl : ∀ a : κ, ¬ a < a
  trans : ∀ {a b c : κ}, a < b → b < c → a < c
  eq_of_not_lt : ∀ {a b : κ}, ¬ a < b → ¬ b < a → a = b

instance : KeyOrder String where
  irrefl := String.lt_irrefl
  trans := String.lt_trans
  eq_of_not_lt := Std.Trichotomous.trichotomous (r := (· < · : String → String → Prop)) _ _

instance : KeyOrder Nat where
  irrefl := Nat.lt_irrefl
  trans := Nat.lt_trans
  eq_of_not_lt := fun h h' => Nat.le_antisymm (Nat.le_of_not_lt h') (Nat.le_of_not_lt h)

/-- A finite map whose entries stand in the order of their keys, each key once. -/
structure Table (κ α : Type) [LT κ] where
  entries : List (κ × α)
  sorted : entries.Pairwise fun a b => a.1 < b.1

namespace Table

variable {κ α : Type} [LT κ]

instance [DecidableEq κ] [DecidableEq α] : DecidableEq (Table κ α) := fun s t =>
  if h : s.entries = t.entries then
    isTrue (by cases s; cases t; simp_all)
  else
    isFalse fun e => h (by rw [e])

def empty : Table κ α := ⟨[], .nil⟩

instance : Inhabited (Table κ α) := ⟨empty⟩

def keys (t : Table κ α) : List κ := t.entries.map (·.1)

def size (t : Table κ α) : Nat := t.entries.length

section Lookup

variable [DecidableEq κ]

def lookup (k : κ) : List (κ × α) → Option α
  | [] => none
  | (k', v) :: rest => if k = k' then some v else lookup k rest

def get? (t : Table κ α) (k : κ) : Option α := lookup k t.entries

def contains (t : Table κ α) (k : κ) : Bool := (t.get? k).isSome

omit [LT κ] in
theorem lookup_eq_none {k : κ} {l : List (κ × α)} :
    lookup k l = none ↔ ∀ e ∈ l, e.1 ≠ k := by
  induction l with
  | nil => simp [lookup]
  | cons e l ih =>
    obtain ⟨k', v⟩ := e
    by_cases h : k = k'
    · simp [lookup, h]
    · simp [lookup, h, ih, Ne.symm h]

omit [LT κ] in
theorem mem_of_lookup {k : κ} {v : α} {l : List (κ × α)} (h : lookup k l = some v) :
    (k, v) ∈ l := by
  induction l with
  | nil => simp [lookup] at h
  | cons e l ih =>
    obtain ⟨k', v'⟩ := e
    by_cases hk : k = k'
    · subst hk; simp_all [lookup]
    · simp only [lookup, hk, if_false] at h; exact .tail _ (ih h)

@[simp] theorem get?_empty (k : κ) : (empty : Table κ α).get? k = none := rfl

end Lookup

/-- The entries without those of key `k`. -/
def erase [DecidableEq κ] (t : Table κ α) (k : κ) : Table κ α :=
  ⟨t.entries.filter (·.1 ≠ k), t.sorted.filter _⟩

def map {β : Type} (t : Table κ α) (f : α → β) : Table κ β :=
  ⟨t.entries.map fun e => (e.1, f e.2), by
    simpa [List.pairwise_map] using t.sorted⟩

variable [DecidableEq κ] [DecidableLT κ]

/-- Puts `v` under `k` into a sorted list, in place of what stood there. -/
def insertEntry (k : κ) (v : α) : List (κ × α) → List (κ × α)
  | [] => [(k, v)]
  | (k', v') :: rest =>
    if k = k' then (k, v) :: rest
    else if k < k' then (k, v) :: (k', v') :: rest
    else (k', v') :: insertEntry k v rest

theorem mem_insertEntry {k : κ} {v : α} {e : κ × α} {l : List (κ × α)}
    (h : e ∈ insertEntry k v l) : e = (k, v) ∨ e ∈ l := by
  induction l with
  | nil => simpa [insertEntry] using h
  | cons d l ih =>
    obtain ⟨k', v'⟩ := d
    simp only [insertEntry] at h
    split at h
    · cases List.mem_cons.1 h with
      | inl h => exact .inl h
      | inr h => exact .inr (.tail _ h)
    · split at h
      · cases List.mem_cons.1 h with
        | inl h => exact .inl h
        | inr h => exact .inr h
      · cases List.mem_cons.1 h with
        | inl h => exact .inr (h ▸ .head _)
        | inr h => exact (ih h).imp_right (.tail _)

theorem lookup_insertEntry (k j : κ) (v : α) (l : List (κ × α)) :
    lookup j (insertEntry k v l) = if j = k then some v else lookup j l := by
  induction l with
  | nil => rfl
  | cons d l ih =>
    obtain ⟨k', v'⟩ := d
    by_cases h : k = k'
    · subst h
      by_cases hj : j = k <;> simp [insertEntry, lookup, hj]
    · by_cases hlt : k < k'
      · simp only [insertEntry, h, hlt, if_true, if_false]; rfl
      · simp only [insertEntry, h, hlt, if_false, lookup, ih]
        by_cases hj : j = k'
        · simp [hj, Ne.symm h]
        · simp [hj]

variable [KeyOrder κ]

theorem pairwise_insertEntry (k : κ) (v : α) {l : List (κ × α)}
    (h : l.Pairwise fun a b => a.1 < b.1) :
    (insertEntry k v l).Pairwise fun a b => a.1 < b.1 := by
  induction l with
  | nil => simp [insertEntry]
  | cons d l ih =>
    obtain ⟨k', v'⟩ := d
    have ⟨hd, hl⟩ := List.pairwise_cons.1 h
    by_cases he : k = k'
    · subst he
      simpa [insertEntry] using h
    · by_cases hlt : k < k'
      · simp only [insertEntry, he, hlt, if_true, if_false]
        refine List.pairwise_cons.2 ⟨fun e hm => ?_, h⟩
        cases List.mem_cons.1 hm with
        | inl heq =>
            subst heq
            exact hlt
        | inr hm => exact KeyOrder.trans hlt (hd e hm)
      · simp only [insertEntry, he, hlt, if_false]
        refine List.pairwise_cons.2 ⟨fun e hm => ?_, ih hl⟩
        cases mem_insertEntry hm with
        | inl heq =>
            subst heq
            exact Classical.byContradiction fun hn => he (KeyOrder.eq_of_not_lt hlt hn)
        | inr hm => exact hd e hm

def insert (t : Table κ α) (k : κ) (v : α) : Table κ α :=
  ⟨insertEntry k v t.entries, pairwise_insertEntry k v t.sorted⟩

/-- Builds a table from a list; of several entries under one key the last wins. -/
def ofList (l : List (κ × α)) : Table κ α :=
  l.foldl (fun t e => t.insert e.1 e.2) empty

omit [LT κ] [DecidableLT κ] [KeyOrder κ] in
theorem lookup_filter_ne (k j : κ) (l : List (κ × α)) :
    lookup j (l.filter (·.1 ≠ k)) = if j = k then none else lookup j l := by
  induction l with
  | nil => simp [lookup]
  | cons d l ih =>
    obtain ⟨k', v'⟩ := d
    by_cases hk : k' = k
    · subst hk
      rw [List.filter_cons_of_neg (by simp), ih]
      by_cases hj : j = k' <;> simp [lookup, hj]
    · rw [List.filter_cons_of_pos (by simpa using hk), lookup, ih]
      by_cases hj : j = k'
      · subst hj; simp [lookup, hk]
      · simp [lookup, hj]

theorem get?_insert (t : Table κ α) (k j : κ) (v : α) :
    (t.insert k v).get? j = if j = k then some v else t.get? j :=
  lookup_insertEntry k j v t.entries

@[simp] theorem get?_insert_self (t : Table κ α) (k : κ) (v : α) :
    (t.insert k v).get? k = some v := by simp [get?_insert]

theorem get?_insert_of_ne (t : Table κ α) {k j : κ} (v : α) (h : j ≠ k) :
    (t.insert k v).get? j = t.get? j := by simp [get?_insert, h]

omit [DecidableLT κ] [KeyOrder κ] in
theorem get?_erase (t : Table κ α) (k j : κ) :
    (t.erase k).get? j = if j = k then none else t.get? j :=
  lookup_filter_ne k j t.entries

omit [DecidableLT κ] in
theorem lookup_of_mem {l : List (κ × α)} (hl : l.Pairwise fun a b => a.1 < b.1)
    {k : κ} {v : α} (h : (k, v) ∈ l) : lookup k l = some v := by
  induction l with
  | nil => simp at h
  | cons d l ih =>
    obtain ⟨k', v'⟩ := d
    have ⟨hd, hl'⟩ := List.pairwise_cons.1 hl
    cases List.mem_cons.1 h with
    | inl he => cases he; simp [lookup]
    | inr hm =>
        have hne : k ≠ k' := fun e => KeyOrder.irrefl k' (by simpa [e] using hd _ hm)
        simpa [lookup, hne] using ih hl' hm

omit [DecidableLT κ] in
theorem mem_entries_iff (t : Table κ α) {k : κ} {v : α} :
    (k, v) ∈ t.entries ↔ t.get? k = some v :=
  ⟨lookup_of_mem t.sorted, mem_of_lookup⟩

omit [DecidableLT κ] in
theorem mem_keys_iff (t : Table κ α) {k : κ} : k ∈ t.keys ↔ (t.get? k).isSome := by
  rw [keys, List.mem_map, Option.isSome_iff_exists]
  constructor
  · intro hex
    obtain ⟨⟨_, v⟩, he, rfl⟩ := hex
    exact ⟨v, t.mem_entries_iff.1 he⟩
  · intro hex
    obtain ⟨v, hv⟩ := hex
    exact ⟨(k, v), t.mem_entries_iff.2 hv, rfl⟩

omit [DecidableEq κ] [DecidableLT κ] in
theorem keys_nodup (t : Table κ α) : t.keys.Nodup := by
  rw [keys, List.Nodup, List.pairwise_map]
  refine t.sorted.imp fun h he => ?_
  rw [he] at h
  exact KeyOrder.irrefl _ h

omit [DecidableLT κ] in
theorem entries_ext {l m : List (κ × α)} (hl : l.Pairwise fun a b => a.1 < b.1)
    (hm : m.Pairwise fun a b => a.1 < b.1) (h : ∀ k, lookup k l = lookup k m) : l = m := by
  induction l generalizing m with
  | nil =>
    cases m with
    | nil => rfl
    | cons d m => obtain ⟨k, v⟩ := d; simpa [lookup] using h k
  | cons d l ih =>
    obtain ⟨k, v⟩ := d
    have ⟨hd, hl'⟩ := List.pairwise_cons.1 hl
    cases m with
    | nil => simpa [lookup] using h k
    | cons d' m =>
      obtain ⟨k', v'⟩ := d'
      have ⟨hd', hm'⟩ := List.pairwise_cons.1 hm
      have hk : k = k' := by
        refine KeyOrder.eq_of_not_lt (fun hlt => ?_) (fun hlt => ?_)
        · have := h k
          have hne : k ≠ k' := fun e => KeyOrder.irrefl k' (e ▸ hlt)
          simp only [lookup, if_true, hne, if_false] at this
          exact KeyOrder.irrefl k (KeyOrder.trans hlt (hd' _ (mem_of_lookup this.symm)))
        · have := h k'
          have hne : k' ≠ k := fun e => KeyOrder.irrefl k (e ▸ hlt)
          simp only [lookup, if_true, hne, if_false] at this
          exact KeyOrder.irrefl k' (KeyOrder.trans hlt (hd _ (mem_of_lookup this)))
      subst hk
      have hv : v = v' := by simpa [lookup] using h k
      subst hv
      refine congrArg _ (ih hl' hm' fun j => ?_)
      by_cases hj : j = k
      · subst hj
        have fresh {l : List (κ × α)} (hl : ∀ e ∈ l, j < e.1) : lookup j l = none :=
          lookup_eq_none.2 fun e he hx => KeyOrder.irrefl j (hx ▸ hl e he)
        rw [fresh hd, fresh hd']
      · simpa [lookup, hj] using h j

omit [DecidableLT κ] in
/-- Tables that answer alike are equal. -/
theorem ext_get? {s t : Table κ α} (h : ∀ k, s.get? k = t.get? k) : s = t := by
  cases s; cases t; congr 1; exact entries_ext ‹_› ‹_› h

theorem insert_insert (t : Table κ α) (k : κ) (v w : α) :
    (t.insert k v).insert k w = t.insert k w :=
  ext_get? fun j => by
    simp only [get?_insert]
    split <;> rfl

omit [DecidableLT κ] [KeyOrder κ] in
theorem get?_map {β : Type} (t : Table κ α) (f : α → β) (k : κ) :
    (t.map f).get? k = (t.get? k).map f := by
  have h (l : List (κ × α)) : lookup k (l.map fun e => (e.1, f e.2)) = (lookup k l).map f := by
    induction l with
    | nil => rfl
    | cons e l ih =>
      by_cases hk : k = e.1
      · simp [lookup, hk]
      · simp [lookup, hk, ih]
  exact h t.entries

theorem map_insert {β : Type} (t : Table κ α) (f : α → β) (k : κ) (v : α) :
    (t.insert k v).map f = (t.map f).insert k (f v) :=
  ext_get? fun j => by
    rw [get?_map, get?_insert, get?_insert, get?_map]
    split <;> rfl

omit [DecidableLT κ] in
theorem map_erase {β : Type} (t : Table κ α) (f : α → β) (k : κ) :
    (t.erase k).map f = (t.map f).erase k :=
  ext_get? fun j => by
    rw [get?_map, get?_erase, get?_erase, get?_map]
    split <;> rfl

theorem mem_of_mem_ofList {l : List (κ × α)} {e : κ × α} (h : e ∈ (ofList l).entries) :
    e ∈ l := by
  have hfold (l : List (κ × α)) (t : Table κ α)
      (h : e ∈ (l.foldl (fun t e => t.insert e.1 e.2) t).entries) : e ∈ l ∨ e ∈ t.entries := by
    induction l generalizing t with
    | nil => exact .inr h
    | cons d l ih =>
      cases ih (t.insert d.1 d.2) h with
      | inl hl => exact .inl (.tail _ hl)
      | inr ht =>
          cases mem_insertEntry ht with
          | inl heq => exact .inl (heq ▸ .head _)
          | inr ht => exact .inr ht
  exact (hfold l empty h).resolve_right fun he => nomatch he

/-- A list that gives each key one value lists the entries of its table. -/
theorem get?_ofList {l : List (κ × α)} (hl : ∀ k v v', (k, v) ∈ l → (k, v') ∈ l → v = v')
    {k : κ} {v : α} : (ofList l).get? k = some v ↔ (k, v) ∈ l := by
  have h (t : Table κ α) : (l.foldl (fun t e => t.insert e.1 e.2) t).get? k = some v ↔
      (k, v) ∈ l ∨ t.get? k = some v ∧ ∀ v', (k, v') ∉ l := by
    induction l generalizing t with
    | nil => simp
    | cons e l ih =>
      obtain ⟨k', w⟩ := e
      rw [List.foldl_cons, ih fun k v v' h h' => hl k v v' (.tail _ h) (.tail _ h'), get?_insert]
      by_cases hk : k = k'
      · subst hk
        have hw : ∀ v', (k, v') ∈ l → w = v' := fun v' hm => hl k w v' (.head _) (.tail _ hm)
        simp only [if_true, List.mem_cons, Prod.mk.injEq, true_and, Option.some.injEq, not_or]
        constructor
        · intro hcase
          cases hcase with
          | inl hm => exact .inl (.inr hm)
          | inr hcase => exact .inl (.inl hcase.1.symm)
        · intro hcase
          obtain (rfl | hm) | ⟨_, hnone⟩ := hcase
          · by_cases hm : (k, v) ∈ l
            · exact .inl hm
            · exact .inr ⟨rfl, fun v' hm' => hm (hw v' hm' ▸ hm')⟩
          · exact .inl hm
          · exact absurd rfl (hnone w).1
      · simp [hk]
  exact (h empty).trans (by simp)

end Table
end CameraPipeline
