import CameraPipeline.Settings.Path

/-!
The texts in nested tables, by the names of the tables down to them. Tables that are put where a
table stands join it, so a table of texts that is put at a path adds its texts below the path and
hides only what stood on the path or below one of them.
-/

namespace CameraPipeline
namespace Tree

/-- The text under a row of names. -/
def text? (t : Tree) : List String → Option String
  | [] =>
    match t with
    | leaf (.text s) => some s
    | _ => none
  | name :: path =>
    match t.child? name with
    | some c => c.text? path
    | none => none

/-- Trees of texts and of sorted tables. -/
inductive Neat : Tree → Prop
  | text (s : String) : Neat (leaf (.text s))
  | table {entries : List (String × Tree)} (sorted : entries.Pairwise fun a b => a.1 < b.1)
      (each : ∀ e ∈ entries, Neat e.2) : Neat (table entries)

/-- A sorted table of texts whose names are in lower case. -/
structure Flat (entries : List (String × Tree)) : Prop where
  sorted : entries.Pairwise fun a b => a.1 < b.1
  lower : ∀ e ∈ entries, Text.lowercase e.1 = e.1
  texts : ∀ e ∈ entries, ∃ s, e.2 = leaf (.text s)

section SetChild

variable {t value : Tree} {name key : String}

theorem child?_setChild (t : Tree) (name key : String) (value : Tree) :
    (t.setChild name value).child? key =
      if key = Text.lowercase name then some value else t.child? key :=
  Table.lookup_insertEntry _ _ _ _

theorem text?_cons (t : Tree) (name : String) (path : List String) :
    t.text? (name :: path) = (t.child? name).bind (·.text? path) := by
  rw [text?]
  cases t.child? name <;> rfl

theorem text?_childOrEmpty (hname : Text.lowercase name = name) (path : List String) :
    (t.childOrEmpty name).text? path = t.text? (name :: path) := by
  rw [text?_cons, childOrEmpty, hname]
  cases t.child? name with
  | some c => rfl
  | none => cases path <;> rfl

theorem Neat.entries (h : Neat t) :
    (t.entries.Pairwise fun a b => a.1 < b.1) ∧ ∀ e ∈ t.entries, Neat e.2 := by
  cases h with
  | text => exact ⟨.nil, fun e he => nomatch he⟩
  | table sorted each => exact ⟨sorted, each⟩

theorem Neat.setChild (h : Neat t) (hv : Neat value) (name : String) :
    Neat (t.setChild name value) := by
  refine .table (Table.pairwise_insertEntry _ _ h.entries.1) fun e he => ?_
  cases Table.mem_insertEntry he with
  | inl heq => exact heq ▸ hv
  | inr he => exact h.entries.2 e he

theorem Neat.childOrEmpty (h : Neat t) (name : String) : Neat (t.childOrEmpty name) := by
  rw [Tree.childOrEmpty]
  cases hc : t.child? (Text.lowercase name) with
  | none => exact .table .nil fun e he => nomatch he
  | some c => exact h.entries.2 _ (Table.mem_of_lookup hc)

end SetChild

section PutAll

variable {t : Tree} {entries : List (String × Tree)}

theorem Flat.tail {e : String × Tree} (h : Flat (e :: entries)) : Flat entries :=
  ⟨(List.pairwise_cons.mp h.sorted).2, fun e he => h.lower e (.tail _ he),
    fun e he => h.texts e (.tail _ he)⟩

theorem putAll_cons_text (t : Tree) (name s : String) (entries : List (String × Tree)) :
    putAll t ((name, leaf (.text s)) :: entries) =
      putAll (t.setChild name (leaf (.text s))) entries := by
  rw [putAll, put]

theorem child?_putAll (h : Flat entries) (key : String) :
    (putAll t entries).child? key = (Table.lookup key entries).or (t.child? key) := by
  induction entries generalizing t with
  | nil => rw [putAll]; rfl
  | cons e entries ih =>
      obtain ⟨name, value⟩ := e
      obtain ⟨s, rfl⟩ : ∃ s, value = leaf (.text s) := h.texts _ (.head _)
      have hlower : Text.lowercase name = name := h.lower _ (.head _)
      rw [putAll_cons_text, ih h.tail, child?_setChild, hlower, Table.lookup]
      split
      · rename_i hkey
        have hnone : Table.lookup key entries = none :=
          Table.lookup_eq_none.mpr fun e he heq =>
            KeyOrder.irrefl key (by
              simpa [hkey, heq] using (List.pairwise_cons.mp h.sorted).1 e he)
        rw [hnone]
        rfl
      · rfl

theorem Neat.putAll (ht : Neat t) (h : Flat entries) : Neat (putAll t entries) := by
  induction entries generalizing t with
  | nil => rwa [Tree.putAll]
  | cons e entries ih =>
      obtain ⟨name, value⟩ := e
      obtain ⟨s, rfl⟩ : ∃ s, value = leaf (.text s) := h.texts _ (.head _)
      rw [putAll_cons_text]
      exact ih (ht.setChild (.text s) name) h.tail

theorem text?_nil_putAll {v : String} (h : Flat entries)
    (hv : (putAll t entries).text? [] = some v) : t.text? [] = some v := by
  induction entries generalizing t with
  | nil => rwa [putAll] at hv
  | cons e entries ih =>
      obtain ⟨name, value⟩ := e
      obtain ⟨s, rfl⟩ : ∃ s, value = leaf (.text s) := h.texts _ (.head _)
      rw [putAll_cons_text] at hv
      cases ih h.tail hv

end PutAll

/-- Joins the entries to the table at a path. -/
def joinAt (t : Tree) (entries : List (String × Tree)) : List String → Tree
  | [] => putAll t entries
  | name :: path => t.setChild name ((t.childOrEmpty name).joinAt entries path)

theorem putAt_table (t : Tree) (entries : List (String × Tree)) {path : List String}
    (hpath : path ≠ []) : t.putAt (table entries) (path.map .name) = t.joinAt entries path := by
  induction path generalizing t with
  | nil => exact absurd rfl hpath
  | cons name path ih =>
      cases path with
      | nil => simp only [List.map_cons, List.map_nil, putAt, put, joinAt]
      | cons next path =>
          have h := ih (t.childOrEmpty name) (List.cons_ne_nil _ _)
          simp only [List.map_cons] at h ⊢
          rw [putAt, h]
          · rfl
          · exact List.cons_ne_nil _ _

section JoinAt

variable {t : Tree} {entries : List (String × Tree)} {path q : List String} {v : String}

theorem Neat.joinAt (ht : Neat t) (h : Flat entries) (path : List String) :
    Neat (t.joinAt entries path) := by
  induction path generalizing t with
  | nil => exact ht.putAll h
  | cons name path ih => exact ht.setChild (ih (ht.childOrEmpty name)) name

theorem text?_joinAt_cons {name : String}
    (hname : Text.lowercase name = name) (key : String) (q : List String) :
    (t.joinAt entries (name :: path)).text? (key :: q) =
      if key = name then ((t.childOrEmpty name).joinAt entries path).text? q
      else t.text? (key :: q) := by
  rw [joinAt, text?_cons, child?_setChild, hname]
  split
  · rfl
  · rw [text?_cons]

/-- The new texts stand below the path. -/
theorem text?_joinAt_new (hlower : ∀ name ∈ path, Text.lowercase name = name)
    (h : Flat entries) {name : String} (he : (name, leaf (.text v)) ∈ entries) :
    (t.joinAt entries path).text? (path ++ [name]) = some v := by
  induction path generalizing t with
  | nil =>
      rw [joinAt, List.nil_append, text?_cons, child?_putAll h, Table.lookup_of_mem h.sorted he]
      rfl
  | cons part path ih =>
      have htail := fun name hn => hlower name (.tail part hn)
      rw [List.cons_append, text?_joinAt_cons (hlower _ (.head _)), if_pos rfl]
      exact ih htail

/-- A text that stands neither on the path nor below a new text stays. -/
theorem text?_joinAt_old (hlower : ∀ name ∈ path, Text.lowercase name = name)
    (h : Flat entries) (hon : ¬q <+: path) (hbelow : ∀ e ∈ entries, ¬path ++ [e.1] <+: q)
    (hq : t.text? q = some v) : (t.joinAt entries path).text? q = some v := by
  induction path generalizing t q with
  | nil =>
      cases q with
      | nil => exact absurd List.prefix_rfl hon
      | cons key q =>
          have hnone : Table.lookup key entries = none :=
            Table.lookup_eq_none.mpr fun e he heq => hbelow e he ⟨q, by simp [heq]⟩
          rw [joinAt, text?_cons, child?_putAll h, hnone]
          rwa [text?_cons] at hq
  | cons part path ih =>
      have htail := fun name hn => hlower name (.tail part hn)
      cases q with
      | nil => exact absurd List.nil_prefix hon
      | cons key q =>
          rw [text?_joinAt_cons (hlower _ (.head _))]
          split
          · rename_i heq
            subst heq
            refine ih htail (fun hp => hon ?_) (fun e he hp => hbelow e he ?_) ?_
            · exact List.cons_prefix_cons.mpr ⟨rfl, hp⟩
            · exact List.cons_prefix_cons.mpr ⟨rfl, hp⟩
            · rwa [text?_childOrEmpty (hlower _ (.head _))]
          · exact hq

/-- There are no texts but the new ones and those of before. -/
theorem text?_joinAt_cases (hlower : ∀ name ∈ path, Text.lowercase name = name)
    (h : Flat entries) (hq : (t.joinAt entries path).text? q = some v) :
    t.text? q = some v ∨ ∃ name, (name, leaf (.text v)) ∈ entries ∧ q = path ++ [name] := by
  induction path generalizing t q with
  | nil =>
      cases q with
      | nil => exact .inl (text?_nil_putAll h hq)
      | cons key q =>
          rw [joinAt, text?_cons, child?_putAll h] at hq
          cases hl : Table.lookup key entries with
          | none =>
              rw [hl] at hq
              exact .inl (by rw [text?_cons]; exact hq)
          | some c =>
              rw [hl] at hq
              have hm := Table.mem_of_lookup hl
              obtain ⟨s, rfl⟩ : ∃ s, c = leaf (.text s) := h.texts _ hm
              cases q with
              | nil =>
                  cases hq
                  exact .inr ⟨key, hm, rfl⟩
              | cons => cases hq
  | cons part path ih =>
      have htail := fun name hn => hlower name (.tail part hn)
      have hpart := hlower part (.head _)
      cases q with
      | nil => cases hq
      | cons key q =>
          rw [text?_joinAt_cons hpart] at hq
          split at hq
          · rename_i heq
            subst heq
            refine (ih htail hq).imp (fun ht => ?_) fun ⟨name, hm, heq⟩ =>
              ⟨name, hm, by rw [heq]; rfl⟩
            rwa [text?_childOrEmpty hpart] at ht
          · exact .inl hq

end JoinAt

/-- Entries and the path of the table that they are put in. -/
structure Bough where
  path : List String
  entries : List (String × Tree)

namespace Bough

structure Valid (b : Bough) : Prop where
  lower : ∀ name ∈ b.path, Text.lowercase name = name
  flat : Flat b.entries

/-- The text under `name` below the path is one of the bough. -/
def Bears (b : Bough) (q : List String) (v : String) : Prop :=
  ∃ name, (name, leaf (.text v)) ∈ b.entries ∧ q = b.path ++ [name]

/-- No text under `q` is hidden when the bough is joined. -/
def Spares (b : Bough) (q : List String) : Prop :=
  ¬q <+: b.path ∧ ∀ e ∈ b.entries, ¬b.path ++ [e.1] <+: q

end Bough

def joinAll (t : Tree) (boughs : List Bough) : Tree :=
  boughs.foldl (fun t b => t.joinAt b.entries b.path) t

section JoinAll

variable {t : Tree} {boughs : List Bough} {q : List String} {v : String}

theorem Neat.joinAll (ht : Neat t) (h : ∀ b ∈ boughs, b.Valid) : Neat (t.joinAll boughs) := by
  induction boughs generalizing t with
  | nil => exact ht
  | cons b boughs ih =>
      exact ih (ht.joinAt (h b (.head _)).flat b.path) fun b hb => h b (.tail _ hb)

theorem text?_joinAll_old (h : ∀ b ∈ boughs, b.Valid) (hq : t.text? q = some v)
    (hspares : ∀ b ∈ boughs, b.Spares q) : (t.joinAll boughs).text? q = some v := by
  induction boughs generalizing t with
  | nil => exact hq
  | cons b boughs ih =>
      obtain ⟨hon, hbelow⟩ := hspares b (.head _)
      have hb := h b (.head _)
      exact ih (fun b hb => h b (.tail _ hb)) (text?_joinAt_old hb.lower hb.flat hon hbelow hq)
        fun b hb => hspares b (.tail _ hb)

theorem text?_joinAll_cases (h : ∀ b ∈ boughs, b.Valid)
    (hq : (t.joinAll boughs).text? q = some v) :
    t.text? q = some v ∨ ∃ b ∈ boughs, b.Bears q v := by
  induction boughs generalizing t with
  | nil => exact .inl hq
  | cons b boughs ih =>
      have hb := h b (.head _)
      cases ih (fun b hb => h b (.tail _ hb)) hq with
      | inl ht =>
          refine (text?_joinAt_cases hb.lower hb.flat ht).imp_right fun hnew => ?_
          exact ⟨b, .head _, hnew⟩
      | inr hex =>
          obtain ⟨b', hb', hbears⟩ := hex
          exact .inr ⟨b', .tail _ hb', hbears⟩

/-- When each bough spares the texts of those before it, the texts are just those of the boughs. -/
theorem text?_joinAll (h : ∀ b ∈ boughs, b.Valid)
    (hspares : boughs.Pairwise fun a b => ∀ q v, a.Bears q v → b.Spares q) :
    (empty.joinAll boughs).text? q = some v ↔ ∃ b ∈ boughs, b.Bears q v := by
  constructor
  · intro hq
    refine (text?_joinAll_cases h hq).resolve_left fun hempty => ?_
    cases q with
    | nil => cases hempty
    | cons => cases hempty
  · intro hex
    obtain ⟨b, hb, hbears⟩ := hex
    obtain ⟨before, after, rfl⟩ := List.append_of_mem hb
    have hlater : ∀ b' ∈ after, b'.Spares q := fun b' hb' =>
      (List.pairwise_cons.mp (List.pairwise_append.mp hspares).2.1).1 b' hb' q v hbears
    obtain ⟨name, he, rfl⟩ := hbears
    have hvalid := h b hb
    rw [joinAll, List.foldl_append, List.foldl_cons]
    refine text?_joinAll_old (fun b' hb' => h b' (by simp [hb'])) ?_ hlater
    exact text?_joinAt_new hvalid.lower hvalid.flat he

end JoinAll

end Tree
end CameraPipeline
