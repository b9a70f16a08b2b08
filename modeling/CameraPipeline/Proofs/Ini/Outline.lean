import CameraPipeline.Params.Ini.Load
import CameraPipeline.Proofs.Ini.Literal
import CameraPipeline.Proofs.Ini.Sections
import CameraPipeline.Proofs.Settings.Leaves

/-!
From sections to tables and back to parameters. What is read of written sections is one table of
texts for each, these tables are put at the paths of their names, and the parameters of a tree are
its texts, each under the names of the tables down to it.
-/

namespace CameraPipeline

open CameraPipeline.Tree

namespace Tree

variable {entries : List (String × Tree)} {q : List String} {v : String}

theorem text?_table_nil (q : List String) : (table []).text? q = none := by
  cases q <;> rfl

/-- The texts of a sorted table are those of its first tree and those of the rest. -/
theorem text?_table_cons {name : String} {c : Tree}
    (hs : ((name, c) :: entries).Pairwise fun a b => a.1 < b.1) :
    (table ((name, c) :: entries)).text? q = some v ↔
      (∃ q', q = name :: q' ∧ c.text? q' = some v) ∨ (table entries).text? q = some v := by
  have hfirst : Table.lookup name entries = none :=
    Table.lookup_eq_none.mpr fun e he heq =>
      KeyOrder.irrefl name (by simpa [heq] using (List.pairwise_cons.mp hs).1 e he)
  cases q with
  | nil => simp [text?]
  | cons key q =>
      simp only [text?_cons, child?, Tree.entries, Table.lookup]
      by_cases hk : key = name
      · subst hk
        simp [hfirst]
      · simp [hk]

theorem Neat.tail {e : String × Tree} (h : Neat (.table (e :: entries))) :
    Neat (.table entries) :=
  .table (List.pairwise_cons.mp h.entries.1).2 fun e' he => h.entries.2 e' (.tail _ he)

end Tree

namespace Ini

/-- The section of the table that lies at `path` below the one of `sectionName`. -/
def nested (sectionName : String) (path : List String) : String :=
  path.foldl (fun s name => s ++ "." ++ name) sectionName

section Flatten

variable {entries : List (String × Tree)}

/-- Below a name that stands for a text there is only this text. -/
theorem exists_text_leaf {name s v : String} {P : List String → String → Prop} :
    (∃ path n, (∃ q, path ++ [n] = name :: q ∧ (leaf (.text s)).text? q = some v) ∧ P path n) ↔
      s = v ∧ P [] name := by
  constructor
  · intro hex
    obtain ⟨path, n, ⟨q, hq, hv⟩, hp⟩ := hex
    cases q with
    | cons => cases hv
    | nil =>
        cases path with
        | cons => simp at hq
        | nil =>
            cases hq
            exact ⟨Option.some.inj hv, hp⟩
  · intro h
    obtain ⟨rfl, hp⟩ := h
    exact ⟨[], name, ⟨[], rfl, rfl⟩, hp⟩

/-- Below a name that stands for a table there are the texts in this table. -/
theorem exists_text_table {name v : String} {P : List String → String → Prop} :
    (∃ path n, (∃ q, path ++ [n] = name :: q ∧ (table entries).text? q = some v) ∧ P path n) ↔
      ∃ path n, (table entries).text? (path ++ [n]) = some v ∧ P (name :: path) n := by
  constructor
  · intro hex
    obtain ⟨path, n, ⟨q, hq, hv⟩, hp⟩ := hex
    cases path with
    | nil =>
        obtain ⟨rfl, rfl⟩ := List.cons.inj hq
        cases hv
    | cons part path =>
        obtain ⟨rfl, rfl⟩ := List.cons.inj hq
        exact ⟨path, n, hv, hp⟩
  · intro hex
    obtain ⟨path, n, hv, hp⟩ := hex
    exact ⟨name :: path, n, ⟨path ++ [n], rfl, hv⟩, hp⟩

/-- The parameters in the tables below a section are their texts. -/
theorem sectionEntries_of_neat (sectionName : String) (h : Neat (table entries)) :
    ∃ params, sectionEntries sectionName entries = some params ∧
      ∀ k v, (k, v) ∈ params ↔ ∃ path name, (table entries).text? (path ++ [name]) = some v ∧
        k = nested sectionName path ++ ":" ++ name := by
  induction sectionName, entries using sectionEntries.induct with
  | case1 sectionName =>
      refine ⟨[], by rw [sectionEntries], fun k v => ?_⟩
      simp [text?_table_nil]
  | case2 sectionName name value rest ih =>
      obtain ⟨params, hparams, hmem⟩ := ih h.tail
      refine ⟨(sectionName ++ ":" ++ name, value) :: params, ?_, fun k v => ?_⟩
      · rw [sectionEntries, hparams]
        rfl
      · simp only [List.mem_cons, Prod.mk.injEq, hmem, text?_table_cons h.entries.1, or_and_right,
          exists_or, exists_text_leaf]
        exact or_congr ⟨fun heq => ⟨heq.2.symm, heq.1⟩, fun heq => ⟨heq.2, heq.1.symm⟩⟩ Iff.rfl
  | case3 sectionName name inner rest ihInner ihRest =>
      obtain ⟨below, hbelow, hmemBelow⟩ := ihInner (h.entries.2 _ (.head _))
      obtain ⟨params, hparams, hmem⟩ := ihRest h.tail
      refine ⟨below ++ params, ?_, fun k v => ?_⟩
      · rw [sectionEntries, hbelow, hparams]
        rfl
      · simp only [List.mem_append, hmemBelow, hmem, text?_table_cons h.entries.1, or_and_right,
          exists_or, exists_text_table]
        rfl
  | case4 sectionName head tail htext htable =>
      obtain ⟨name, c⟩ := head
      cases h.entries.2 (name, c) (.head _) with
      | text s => exact (htext name s rfl).elim
      | table => exact (htable name _ rfl).elim

/-- The parameters of a tree are its texts in tables. -/
theorem entriesOf_of_neat (h : Neat (table entries)) :
    ∃ params, entriesOf entries = some params ∧
      ∀ k v, (k, v) ∈ params ↔ ∃ s path name,
        (table entries).text? (s :: (path ++ [name])) = some v ∧
          k = nested s path ++ ":" ++ name := by
  induction entries using entriesOf.induct with
  | case1 =>
      refine ⟨[], by rw [entriesOf], fun k v => ?_⟩
      simp [text?_table_nil]
  | case2 s inner rest ih =>
      obtain ⟨below, hbelow, hmemBelow⟩ := sectionEntries_of_neat s (h.entries.2 _ (.head _))
      obtain ⟨params, hparams, hmem⟩ := ih h.tail
      refine ⟨below ++ params, ?_, fun k v => ?_⟩
      · rw [entriesOf, hbelow, hparams]
        rfl
      · simp only [List.mem_append, hmemBelow, hmem, text?_table_cons h.entries.1, or_and_right,
          exists_or, List.cons.injEq, and_assoc, exists_eq_left', exists_and_left, exists_eq_left]
  | case3 head rest htable ih =>
      obtain ⟨params, hparams, hmem⟩ := ih h.tail
      obtain ⟨name, c⟩ := head
      cases h.entries.2 (name, c) (.head _) with
      | table => exact (htable name _ rfl).elim
      | text value =>
          refine ⟨params, by rw [entriesOf]; exact hparams; exact htable, fun k v => ?_⟩
          simp only [hmem, text?_table_cons h.entries.1, or_and_right, exists_or]
          refine ⟨.inr, fun hex => hex.resolve_left fun htop => ?_⟩
          -- a text at the top has no path below it
          obtain ⟨s, path, n, ⟨q, hq, hv⟩, _⟩ := htop
          obtain ⟨rfl, rfl⟩ := List.cons.inj hq
          cases path <;> cases hv

end Flatten

theorem toList_nested (sectionName : String) (path : List String) :
    (nested sectionName path).toList =
      sectionName.toList ++ path.flatMap fun name => '.' :: name.toList := by
  rw [nested]
  induction path generalizing sectionName with
  | nil => simp
  | cons name path ih => simp [ih]

/-- A row of steps without brackets is a row of parts. -/
theorem exists_names_of_steps {cs : List Char} {path : Path} (hcs : ']' ∉ cs)
    (hpath : Path.steps? cs = some path) :
    ∃ names : List String, path = names.map .name ∧
      cs = names.flatMap fun name => '.' :: name.toList := by
  induction cs using Path.steps?.induct generalizing path with
  | case1 =>
      rw [Path.steps?] at hpath
      cases hpath
      exact ⟨[], rfl, rfl⟩
  | case2 r ih =>
      have hrest : ']' ∉ r.dropWhile Path.isPartChar := fun hm =>
        hcs (.tail _ ((List.dropWhile_suffix _).mem hm))
      simp only [Path.steps?, if_true, Option.bind_eq_bind, Option.bind_eq_some_iff] at hpath
      obtain ⟨rest, hr, hpath⟩ := hpath
      obtain ⟨names, rfl, hnames⟩ := ih hrest hr
      split at hpath
      · cases hpath
      · cases hpath
        refine ⟨String.ofList (r.takeWhile Path.isPartChar) :: names, rfl, ?_⟩
        rw [List.flatMap_cons, ← hnames, String.toList_ofList, List.cons_append,
          List.takeWhile_append_dropWhile]
  | case3 r hdot ih =>
      have hclosed : (r.dropWhile (· != ']')).isEmpty = true := by
        rw [List.isEmpty_iff, List.dropWhile_eq_nil_iff]
        intro c hc
        simpa using fun heq : c = ']' => hcs (.tail _ (heq ▸ hc))
      simp [Path.steps?, hclosed] at hpath
  | case4 c r hdot hbracket =>
      rw [Path.steps?, if_neg hdot, if_neg hbracket] at hpath
      cases hpath

/-- A name without subscripts stands for the path of the parts between its points, or is one part
as it is. -/
theorem exists_parts {sectionName : String} (h : ']' ∉ sectionName.toList) :
    ∃ first parts, Path.ofName sectionName = (first :: parts : List String).map .name ∧
      nested first parts = sectionName := by
  rw [Path.ofName]
  cases hp : Path.steps? ('.' :: sectionName.toList) with
  | none => exact ⟨sectionName, [], rfl, rfl⟩
  | some path =>
      obtain ⟨names, rfl, hnames⟩ := exists_names_of_steps (by simpa using h) hp
      cases names with
      | nil => simp at hnames
      | cons first parts =>
          refine ⟨first, parts, rfl, ?_⟩
          rw [← String.toList_inj, toList_nested]
          simpa using hnames.symm

section Tables

variable {entries : List (String × String)}

/-- The texts of a section as trees. -/
def leaves (entries : List (String × String)) : Table String Tree :=
  Table.ofList (entries.map fun e => (e.1, leaf (.text e.2)))

theorem foldl_add_entries (o : Outline) (sectionName : String) (t : Table String Tree)
    (h : ∀ e ∈ entries, Text.lowercase e.1 = e.1) :
    (entries.map fun e => Item.entry e.1 e.2).foldl Outline.add
        ⟨some sectionName, o.top.insert sectionName (table t.entries)⟩ =
      ⟨some sectionName, o.top.insert sectionName
        (table ((entries.map fun e => (e.1, leaf (.text e.2))).foldl
          (fun t e => t.insert e.1 e.2) t).entries)⟩ := by
  induction entries generalizing t with
  | nil => rfl
  | cons e entries ih =>
      have hadd : Outline.add ⟨some sectionName, o.top.insert sectionName (table t.entries)⟩
          (.entry e.1 e.2) =
          ⟨some sectionName, o.top.insert sectionName
            (table (t.insert e.1 (leaf (.text e.2))).entries)⟩ := by
        simp only [Outline.add, Table.get?_insert_self, Option.getD_some, setChild,
          Table.insert_insert, h e (.head _), Tree.entries]
        rfl
      rw [List.map_cons, List.foldl_cons, hadd, ih _ fun e he => h e (.tail _ he)]
      rfl

theorem foldl_add_sectionItems (o : Outline) (sectionName : String)
    (h : ∀ e ∈ entries, Text.lowercase e.1 = e.1) :
    (sectionItems sectionName entries).foldl Outline.add o =
      ⟨some sectionName, o.top.insert sectionName (table (leaves entries).entries)⟩ :=
  foldl_add_entries o sectionName .empty h

theorem mem_leaves (hkeys : ∀ n v v', (n, v) ∈ entries → (n, v') ∈ entries → v = v')
    {name : String} {c : Tree} :
    (name, c) ∈ (leaves entries).entries ↔ ∃ v, (name, v) ∈ entries ∧ c = leaf (.text v) := by
  rw [Table.mem_entries_iff, leaves, Table.get?_ofList]
  · simp only [List.mem_map, Prod.mk.injEq]
    constructor
    · intro hex
      obtain ⟨e, he, rfl, rfl⟩ := hex
      exact ⟨e.2, he, rfl⟩
    · intro hex
      obtain ⟨v, hv, rfl⟩ := hex
      exact ⟨(name, v), hv, rfl, rfl⟩
  · intro n c c' hc hc'
    simp only [List.mem_map, Prod.mk.injEq] at hc hc'
    obtain ⟨e, he, rfl, rfl⟩ := hc
    obtain ⟨e', he', hn, rfl⟩ := hc'
    rw [hkeys e.1 e.2 e'.2 he (hn ▸ he')]

theorem flat_leaves (hkeys : ∀ n v v', (n, v) ∈ entries → (n, v') ∈ entries → v = v')
    (h : ∀ e ∈ entries, Text.lowercase e.1 = e.1) : Flat (leaves entries).entries where
  sorted := (leaves entries).sorted
  lower e he := by
    obtain ⟨v, hv, _⟩ := (mem_leaves hkeys).mp he
    exact h _ hv
  texts e he := by
    obtain ⟨v, _, hc⟩ := (mem_leaves hkeys).mp he
    exact ⟨v, hc⟩

end Tables

theorem top_foldl_add_sectionItems {l : List (String × List (String × String))} (o : Outline)
    (hl : ∀ s ∈ l, ∀ e ∈ s.2, Text.lowercase e.1 = e.1) :
    ((l.flatMap fun s => sectionItems s.1 s.2).foldl Outline.add o).top =
      (l.map fun s => (s.1, table (leaves s.2).entries)).foldl
        (fun t e => t.insert e.1 e.2) o.top := by
  induction l generalizing o with
  | nil => rfl
  | cons s l ih =>
      rw [List.flatMap_cons, List.foldl_append, foldl_add_sectionItems o s.1 (hl s (.head _)),
        ih _ fun s hs => hl s (.tail _ hs)]
      rfl

/-- What is read of written sections is a table of texts under each name. -/
theorem foldl_add_sections (sections : Table String (List (String × String)))
    (h : ∀ s ∈ sections.entries, ∀ e ∈ s.2, Text.lowercase e.1 = e.1) :
    ((sections.entries.flatMap fun s => sectionItems s.1 s.2).foldl Outline.add {}).top =
      sections.map fun entries => table (leaves entries).entries := by
  rw [top_foldl_add_sectionItems _ h]
  refine Table.ext_get? fun k => Option.ext fun c => ?_
  rw [Table.get?_map]
  refine (Table.get?_ofList ?_).trans ?_
  · intro k c c' hc hc'
    simp only [List.mem_map, Prod.mk.injEq] at hc hc'
    obtain ⟨s, hs, rfl, rfl⟩ := hc
    obtain ⟨s', hs', hk, rfl⟩ := hc'
    have hsame : s.2 = s'.2 := by
      have hget := sections.mem_entries_iff.mp hs
      have hget' := sections.mem_entries_iff.mp hs'
      rw [hk, hget] at hget'
      exact Option.some.inj hget'
    rw [hsame]
  · simp only [List.mem_map, Prod.mk.injEq, Option.map_eq_some_iff, ← Table.mem_entries_iff]
    constructor
    · intro hex
      obtain ⟨s, hs, rfl, rfl⟩ := hex
      exact ⟨s.2, hs, rfl⟩
    · intro hex
      obtain ⟨entries, hs, rfl⟩ := hex
      exact ⟨(k, entries), hs, rfl, rfl⟩

end Ini
end CameraPipeline
