import CameraPipeline.Proofs.Ini.Outline
import CameraPipeline.Proofs.Text.Lowercase

/-!
Writing parameters and reading them back. Parameters whose sections, names and values are literal
and in lower case come back as they were, unless a table would have to lie where a value lies.
-/

namespace CameraPipeline

open CameraPipeline.Tree Params

namespace Ini

/-- A parameter that is read as it is written. -/
structure Literal (sectionName name value : String) : Prop where
  heading : LiteralHeading sectionName
  key : LiteralKey name
  value : LiteralValue value
  lowerSection : Text.IsLower sectionName
  lowerName : Text.IsLower name

/-- The names on the path of a section. -/
def parts (sectionName : String) : List String :=
  (Path.ofName sectionName).filterMap fun
    | .name s => some s
    | .item _ => none

end Ini

namespace Params

def Legible (p : Params) : Prop :=
  ∀ e ∈ p.entries, ∃ s n, splitKey e.1 = some (s, n) ∧ Ini.Literal s n e.2

/-- No section lies at the place of a value or below it. -/
def Apart (p : Params) : Prop :=
  ∀ e ∈ p.entries, ∀ e' ∈ p.entries, ∀ s n s' n', splitKey e.1 = some (s, n) →
    splitKey e'.1 = some (s', n') → ¬Ini.parts s ++ [n] <+: Ini.parts s'

end Params

namespace Ini

section Parts

variable {sectionName : String}

theorem parts_eq (h : ']' ∉ sectionName.toList) :
    Path.ofName sectionName = (parts sectionName).map .name ∧
      ∃ first rest, parts sectionName = first :: rest ∧ nested first rest = sectionName := by
  obtain ⟨first, rest, hpath, hnested⟩ := exists_parts h
  have hparts : parts sectionName = first :: rest := by
    rw [parts, hpath, List.filterMap_map]
    exact List.filterMap_some
  exact ⟨hparts ▸ hpath, first, rest, hparts, hnested⟩

theorem lowercase_parts (hlower : Text.IsLower sectionName) (h : ']' ∉ sectionName.toList) :
    ∀ name ∈ parts sectionName, Text.lowercase name = name := by
  obtain ⟨_, first, rest, hparts, hnested⟩ := parts_eq h
  intro name hname
  refine Text.IsLower.lowercase_eq fun c hc => hlower c ?_
  rw [← hnested, toList_nested, List.mem_append, List.mem_flatMap]
  rw [hparts] at hname
  cases hname with
  | head => exact .inl hc
  | tail _ hname => exact .inr ⟨name, hname, .tail _ hc⟩

end Parts

variable {p : Params}

section Boughs

theorem literal_of_mem_sections (h : p.Legible) {sectionName name value : String}
    {entries : List (String × String)} (hs : (sectionName, entries) ∈ (sections p).entries)
    (he : (name, value) ∈ entries) : Literal sectionName name value := by
  obtain ⟨key, hkey, hsplit⟩ := (mem_of_mem_sections hs).mp he
  obtain ⟨s, n, hsplit', hliteral⟩ := h _ hkey
  obtain ⟨rfl, rfl⟩ := Prod.mk.inj (Option.some.inj (hsplit.symm.trans hsplit'))
  exact hliteral

theorem literalHeading_of_mem_sections (h : p.Legible) {sectionName : String}
    {entries : List (String × String)} (hs : (sectionName, entries) ∈ (sections p).entries) :
    LiteralHeading sectionName ∧ Text.IsLower sectionName := by
  obtain ⟨⟨name, value⟩, he⟩ := List.exists_mem_of_ne_nil _ (nonempty_of_mem_sections hs)
  have hliteral := literal_of_mem_sections h hs he
  exact ⟨hliteral.heading, hliteral.lowerSection⟩

theorem LiteralHeading.not_mem {name : String} (h : LiteralHeading name) : ']' ∉ name.toList :=
  fun hc => absurd (h.taken _ hc).2 (by decide)

/-- A section gives each of its names one value. -/
theorem value_unique {sectionName : String} {entries : List (String × String)}
    (hs : (sectionName, entries) ∈ (sections p).entries) (n v v' : String)
    (hv : (n, v) ∈ entries) (hv' : (n, v') ∈ entries) : v = v' := by
  obtain ⟨key, hkey, hsplit⟩ := (mem_of_mem_sections hs).mp hv
  obtain ⟨key', hkey', hsplit'⟩ := (mem_of_mem_sections hs).mp hv'
  rw [splitKey_eq_some] at hsplit hsplit'
  rw [hsplit'.1, ← hsplit.1, p.mem_entries_iff, p.mem_entries_iff.mp hkey] at hkey'
  exact Option.some.inj hkey'

/-- The written sections as tables of texts at their paths. -/
def boughs (p : Params) : List Bough :=
  (sections p).entries.map fun s => ⟨parts s.1, (leaves s.2).entries⟩

theorem valid_of_mem_boughs (h : p.Legible) : ∀ b ∈ boughs p, b.Valid := by
  intro b hb
  obtain ⟨⟨s, entries⟩, hs, rfl⟩ := List.mem_map.mp hb
  obtain ⟨hheading, hlower⟩ := literalHeading_of_mem_sections h hs
  refine ⟨lowercase_parts hlower hheading.not_mem, flat_leaves (value_unique hs) fun e he => ?_⟩
  exact (literal_of_mem_sections h hs he).lowerName.lowercase_eq

/-- The texts of the boughs are the parameters. -/
theorem bears_iff {q : List String} {v : String} :
    (∃ b ∈ boughs p, b.Bears q v) ↔
      ∃ s n, (s ++ ":" ++ n, v) ∈ p.entries ∧ splitKey (s ++ ":" ++ n) = some (s, n) ∧
        q = parts s ++ [n] := by
  constructor
  · intro hex
    obtain ⟨b, hb, n, hleaf, rfl⟩ := hex
    obtain ⟨⟨s, entries⟩, hs, rfl⟩ := List.mem_map.mp hb
    obtain ⟨v', hv', heq⟩ := (mem_leaves (value_unique hs)).mp hleaf
    cases heq
    obtain ⟨key, hkey, hsplit⟩ := (mem_of_mem_sections hs).mp hv'
    obtain rfl := (splitKey_eq_some.mp hsplit).1
    exact ⟨s, n, hkey, hsplit, rfl⟩
  · intro hex
    obtain ⟨s, n, hkey, hsplit, rfl⟩ := hex
    obtain ⟨entries, hs, he⟩ := exists_mem_sections hkey hsplit
    exact ⟨_, List.mem_map_of_mem hs, n, (mem_leaves (value_unique hs)).mpr ⟨v, he, rfl⟩, rfl⟩

theorem pairwise_boughs (h : p.Legible) (hapart : p.Apart) :
    (boughs p).Pairwise fun a b => ∀ q v, a.Bears q v → b.Spares q := by
  rw [boughs, List.pairwise_map]
  refine (sections p).sorted.imp_of_mem fun {a b} ha hb hlt q v hq => ?_
  obtain ⟨s, entries⟩ := a
  obtain ⟨s', entries'⟩ := b
  obtain ⟨n, hleaf, rfl⟩ := hq
  obtain ⟨w, hw, _⟩ := (mem_leaves (value_unique ha)).mp hleaf
  obtain ⟨key, hkey, hsplit⟩ := (mem_of_mem_sections ha).mp hw
  refine ⟨fun hstarts => ?_, fun e he hstarts => ?_⟩
  · obtain ⟨⟨n', w'⟩, hw'⟩ := List.exists_mem_of_ne_nil _ (nonempty_of_mem_sections hb)
    obtain ⟨key', hkey', hsplit'⟩ := (mem_of_mem_sections hb).mp hw'
    exact hapart _ hkey _ hkey' _ _ _ _ hsplit hsplit' hstarts
  · obtain ⟨w', hw', _⟩ := (mem_leaves (value_unique hb)).mp he
    obtain ⟨key', hkey', hsplit'⟩ := (mem_of_mem_sections hb).mp hw'
    cases List.prefix_concat_iff.mp hstarts with
    | inl heq =>
        obtain ⟨_, first, rest, hparts, hnested⟩ :=
          parts_eq (literalHeading_of_mem_sections h ha).1.not_mem
        obtain ⟨_, first', rest', hparts', hnested'⟩ :=
          parts_eq (literalHeading_of_mem_sections h hb).1.not_mem
        have hsame := (List.append_inj' heq rfl).1
        rw [hparts, hparts'] at hsame
        obtain ⟨rfl, rfl⟩ := List.cons.inj hsame
        rw [hnested.symm.trans hnested'] at hlt
        exact KeyOrder.irrefl _ hlt
    | inr hbelow => exact hapart _ hkey' _ hkey _ _ _ _ hsplit' hsplit hbelow

end Boughs

theorem items?_iniText (h : p.Legible) :
    items? p.iniText = some ((sections p).entries.flatMap fun s => sectionItems s.1 s.2) := by
  refine items?_writeSections fun s hs => ⟨(literalHeading_of_mem_sections h hs).1, fun e he => ?_⟩
  have hliteral := literal_of_mem_sections h hs he
  exact ⟨hliteral.key, hliteral.value⟩

theorem putPaths_leaves {l : List (String × List (String × String))} (t : Tree)
    (hl : ∀ s ∈ l, LiteralHeading s.1) :
    t.putPaths (l.map fun s => (s.1, table (leaves s.2).entries)) =
      t.joinAll (l.map fun s => ⟨parts s.1, (leaves s.2).entries⟩) := by
  induction l generalizing t with
  | nil => rfl
  | cons s l ih =>
      obtain ⟨hpath, first, rest, hparts, _⟩ := parts_eq (hl s (.head _)).not_mem
      have hput : t.putAt (table (leaves s.2).entries) (Path.ofName s.1) =
          t.joinAt (leaves s.2).entries (parts s.1) := by
        rw [hpath]
        exact putAt_table t _ (by simp [hparts])
      have hrest := ih (t.joinAt (leaves s.2).entries (parts s.1)) fun s hs => hl s (.tail _ hs)
      rw [List.map_cons, List.map_cons, putPaths, List.foldl_cons, hput]
      exact hrest

theorem tree_iniText (h : p.Legible) :
    (((sections p).entries.flatMap fun s => sectionItems s.1 s.2).foldl Outline.add {}).tree =
      empty.joinAll (boughs p) := by
  rw [Outline.tree, foldl_add_sections]
  · exact putPaths_leaves _ fun s hs => (literalHeading_of_mem_sections h hs).1
  · intro s hs e he
    exact (literal_of_mem_sections h hs he).lowerName.lowercase_eq

/-- The parameters of the tree are those that were written. -/
theorem texts_joinAll_boughs (h : p.Legible) (hapart : p.Apart) (k v : String) :
    (∃ s path n, (table (empty.joinAll (boughs p)).entries).text? (s :: (path ++ [n])) = some v ∧
      k = nested s path ++ ":" ++ n) ↔ (k, v) ∈ p.entries := by
  have htext (s : String) (q : List String) :
      (table (empty.joinAll (boughs p)).entries).text? (s :: q) = some v ↔
        ∃ s' n, (s' ++ ":" ++ n, v) ∈ p.entries ∧
          splitKey (s' ++ ":" ++ n) = some (s', n) ∧ s :: q = parts s' ++ [n] := by
    rw [← bears_iff, ← text?_joinAll (valid_of_mem_boughs h) (pairwise_boughs h hapart),
      text?_cons, text?_cons]
    rfl
  simp only [htext]
  constructor
  · intro hex
    obtain ⟨s, path, n, ⟨s', n', hentry, hsplit, hq⟩, rfl⟩ := hex
    obtain ⟨s'', n'', hsplit', hliteral⟩ := h _ hentry
    obtain ⟨rfl, rfl⟩ := Prod.mk.inj (Option.some.inj (hsplit.symm.trans hsplit'))
    obtain ⟨_, first, rest, hparts, hnested⟩ := parts_eq hliteral.heading.not_mem
    rw [hparts, List.cons_append] at hq
    obtain ⟨rfl, htail⟩ := List.cons.inj hq
    obtain ⟨rfl, hn⟩ := List.append_inj' htail rfl
    cases hn
    rw [hnested]
    exact hentry
  · intro hentry
    obtain ⟨s, n, hsplit, hliteral⟩ := h _ hentry
    obtain rfl := (splitKey_eq_some.mp hsplit).1
    obtain ⟨_, first, rest, hparts, hnested⟩ := parts_eq hliteral.heading.not_mem
    refine ⟨first, rest, n, ⟨s, n, hentry, hsplit, ?_⟩, ?_⟩
    · rw [hparts, List.cons_append]
    · rw [hnested]

end Ini

open Ini

/-- Literal parameters, none of whose sections lies at a value, are read back as they are. -/
theorem Params.ofIni?_iniText_of_legible {p : Params} (h : p.Legible) (hapart : p.Apart) :
    Params.ofIni? p.iniText = some p := by
  have hneat : Neat (table (empty.joinAll (boughs p)).entries) := by
    have hempty : Neat empty := .table .nil fun e he => nomatch he
    have hjoined := hempty.joinAll (valid_of_mem_boughs h)
    exact .table hjoined.entries.1 hjoined.entries.2
  obtain ⟨params, hparams, hmem⟩ := entriesOf_of_neat hneat
  have hsame (k v : String) : (k, v) ∈ params ↔ p.get? k = some v := by
    rw [hmem, texts_joinAll_boughs h hapart, Table.mem_entries_iff]
  have htable : Table.ofList params = p := by
    refine Table.ext_get? fun k => Option.ext fun v => ?_
    rw [Table.get?_ofList, hsame]
    intro k v v' hv hv'
    rw [hsame] at hv hv'
    exact Option.some.inj (hv.symm.trans hv')
  rw [Params.ofIni?, items?_iniText h]
  simp only [Option.bind_eq_bind, Option.bind_some, tree_iniText h, hparams, htable]
  rfl

end CameraPipeline
