import CameraPipeline.Proofs.Ini.RoundTrip

/-!
Parameters that have been read from a text. Their keys are in lower case and their values have no
blanks at the ends, so they change no more when they are written and read again, as long as the
reader gives nothing in them another meaning. The writer escapes nothing, and a backslash, say,
is lost.
-/

namespace CameraPipeline

open Params

namespace Tree

/-- Trees whose names are in lower case and whose texts are trimmed. -/
inductive Tidy : Tree → Prop
  | nothing : Tidy nothing
  | text {s : String} (trimmed : Text.trim s = s) : Tidy (leaf (.text s))
  | list {items : List Tree} (each : ∀ t ∈ items, Tidy t) : Tidy (list items)
  | table {entries : List (String × Tree)} (lower : ∀ e ∈ entries, Text.IsLower e.1)
      (each : ∀ e ∈ entries, Tidy e.2) : Tidy (table entries)

section Tidy

variable {t value : Tree}

theorem tidy_empty : Tidy empty :=
  .table nofun nofun

theorem Tidy.entries (h : Tidy t) :
    (∀ e ∈ t.entries, Text.IsLower e.1) ∧ ∀ e ∈ t.entries, Tidy e.2 := by
  cases h with
  | table lower each => exact ⟨lower, each⟩
  | nothing | text | list => exact ⟨nofun, nofun⟩

theorem Tidy.tail {e : String × Tree} {entries : List (String × Tree)}
    (h : Tidy (.table (e :: entries))) : Tidy (.table entries) :=
  .table (fun e' he => h.entries.1 e' (.tail _ he)) fun e' he => h.entries.2 e' (.tail _ he)

theorem Tidy.items (h : Tidy t) : ∀ item ∈ t.items, Tidy item := by
  cases h with
  | list each => exact each
  | nothing | text | table => exact nofun

theorem Tidy.setChild (h : Tidy t) (hv : Tidy value) (name : String) :
    Tidy (t.setChild name value) := by
  refine .table (fun e he => ?_) fun e he => ?_
  · cases Table.mem_insertEntry he with
    | inl heq => exact heq ▸ Text.isLower_lowercase name
    | inr he => exact h.entries.1 e he
  · cases Table.mem_insertEntry he with
    | inl heq => exact heq ▸ hv
    | inr he => exact h.entries.2 e he

theorem Tidy.childOrEmpty (h : Tidy t) (name : String) : Tidy (t.childOrEmpty name) := by
  rw [Tree.childOrEmpty]
  cases hc : t.child? (Text.lowercase name) with
  | none => exact tidy_empty
  | some c => exact h.entries.2 _ (Table.mem_of_lookup hc)

theorem Tidy.item (h : Tidy t) (i : Int) : Tidy (t.item i) := by
  rw [Tree.item, List.getD_eq_getElem?_getD]
  cases hc : t.items[t.place i]? with
  | none => exact .nothing
  | some c => exact h.items c (List.mem_of_getElem? hc)

theorem Tidy.setItem (h : Tidy t) (hv : Tidy value) (i : Int) : Tidy (t.setItem i value) := by
  refine .list fun c hc => ?_
  cases List.mem_or_eq_of_mem_set hc with
  | inr heq => exact heq ▸ hv
  | inl hc =>
      cases List.mem_append.mp hc with
      | inl hc => exact h.items c hc
      | inr hc => exact List.eq_of_mem_replicate hc ▸ .nothing

mutual

theorem Tidy.put {t : Tree} (h : Tidy t) (name : String) :
    (value : Tree) → Tidy value → Tidy (t.put name value)
  | .table entries, hv => by
      rw [Tree.put]
      exact h.setChild ((h.childOrEmpty name).putAll entries hv.entries.2) name
  | .nothing, hv => by
      rw [Tree.put]
      exact h.setChild hv name
  | .leaf s, hv => by
      rw [Tree.put]
      exact h.setChild hv name
  | .list items, hv => by
      rw [Tree.put]
      exact h.setChild hv name

theorem Tidy.putAll {t : Tree} (h : Tidy t) :
    (entries : List (String × Tree)) → (∀ e ∈ entries, Tidy e.2) → Tidy (t.putAll entries)
  | [], _ => by rwa [Tree.putAll]
  | (name, value) :: rest, hentries => by
      rw [Tree.putAll]
      exact (h.put name value (hentries _ (.head _))).putAll rest
        fun e he => hentries e (.tail _ he)

end

theorem Tidy.putAt (h : Tidy t) (hv : Tidy value) (path : Path) : Tidy (t.putAt value path) := by
  induction path generalizing t with
  | nil => exact hv
  | cons step path ih =>
      cases step with
      | item i => exact h.setItem (ih (h.item i)) i
      | name s =>
          cases path with
          | nil => exact h.put s value hv
          | cons => exact h.setChild (ih (h.childOrEmpty s)) s

theorem Tidy.putPaths (h : Tidy t) {values : List (String × Tree)}
    (hv : ∀ e ∈ values, Tidy e.2) : Tidy (t.putPaths values) := by
  induction values generalizing t with
  | nil => exact h
  | cons e values ih =>
      exact ih (h.putAt (hv e (.head _)) _) fun e he => hv e (.tail _ he)

end Tidy

end Tree

namespace Ini

/-- The value of an entry is trimmed. -/
def Item.Trimmed : Item → Prop
  | .heading _ => True
  | .entry _ value => Text.trim value = value

section Items

variable {r r' : Reader} {c : Char}

theorem trim_trimmed (read : List Char) : Text.trim (trimmed read) = trimmed read := by
  rw [trimmed, Text.trim, String.toList_ofList, Text.trimList_trimList]

theorem Reader.finishText_trimmed {read : List Char} {purpose : Purpose}
    (h : ∀ item ∈ r.items, item.Trimmed) (hr : r.finishText read purpose = some r') :
    ∀ item ∈ r'.items, item.Trimmed := by
  cases purpose with
  | heading =>
      cases hr
      exact List.forall_mem_cons.mpr ⟨trivial, h⟩
  | key =>
      simp only [finishText, Option.ite_none_left_eq_some, Option.some.injEq] at hr
      obtain ⟨_, rfl⟩ := hr
      exact h
  | quoted =>
      cases hr
      exact h
  | value =>
      cases hr
      exact List.forall_mem_cons.mpr ⟨trim_trimmed _, h⟩

theorem Reader.readChar_trimmed (h : ∀ item ∈ r.items, item.Trimmed)
    (hr : r.readChar c = some r') : ∀ item ∈ r'.items, item.Trimmed := by
  have henter (mode : Option Mode) (hmode : mode.map r.enter = some r') :
      ∀ item ∈ r'.items, item.Trimmed := by
    obtain ⟨_, _, rfl⟩ := Option.map_eq_some_iff.mp hmode
    exact h
  simp only [readChar] at hr
  cases hmode : r.mode with
  | between =>
      simp only [hmode] at hr
      repeat' split at hr
      all_goals first | exact henter _ hr | cases hr
      all_goals exact h
  | comment =>
      simp only [hmode] at hr
      split at hr <;> cases hr <;> exact h
  | beforeValue key =>
      simp only [hmode] at hr
      split at hr
      · cases hr
        exact List.forall_mem_cons.mpr ⟨rfl, h⟩
      · repeat' split at hr
        all_goals first | exact henter _ hr | cases hr
        all_goals exact h
  | text purpose read escape =>
      simp only [hmode] at hr
      split at hr
      · exact finishText_trimmed h hr
      · exact henter _ hr

theorem Reader.run_trimmed {cs : List Char} (h : ∀ item ∈ r.items, item.Trimmed)
    (hr : r.run cs = some r') : ∀ item ∈ r'.items, item.Trimmed := by
  induction cs generalizing r with
  | nil =>
      cases hr
      exact h
  | cons c cs ih =>
      rw [run_cons, Option.bind_eq_some_iff] at hr
      obtain ⟨next, hnext, hr⟩ := hr
      obtain ⟨read, hread, rfl⟩ := Option.map_eq_some_iff.mp hnext
      have hread' : ∀ item ∈ read.items, item.Trimmed := readChar_trimmed h hread
      exact @ih { read with isLineStart := c == '\n' } hread' hr

theorem Reader.finish_trimmed {items : List Item} (h : ∀ item ∈ r.items, item.Trimmed)
    (hr : r.finish = some items) : ∀ item ∈ items, item.Trimmed := by
  have hreverse {l : List Item} (hl : ∀ item ∈ l, item.Trimmed) :
      ∀ item ∈ l.reverse, item.Trimmed := fun item hm => hl item (List.mem_reverse.mp hm)
  simp only [finish] at hr
  split at hr
  · cases hr
    exact hreverse h
  · cases hr
    exact hreverse h
  · cases hr
    exact hreverse (List.forall_mem_cons.mpr ⟨rfl, h⟩)
  · cases hr
    exact hreverse (List.forall_mem_cons.mpr ⟨trim_trimmed _, h⟩)
  · cases hr

theorem items?_trimmed {text : String} {items : List Item} (h : items? text = some items) :
    ∀ item ∈ items, item.Trimmed := by
  obtain ⟨r, hr, hfinish⟩ := Option.bind_eq_some_iff.mp h
  exact r.finish_trimmed (Reader.run_trimmed (List.forall_mem_nil _) hr) hfinish

end Items

section Flatten

open CameraPipeline.Tree

theorem Outline.tidy_add {o : Outline} {item : Item} (ho : ∀ e ∈ o.top.entries, Tidy e.2)
    (h : item.Trimmed) : ∀ e ∈ (o.add item).top.entries, Tidy e.2 := by
  intro e he
  cases item with
  | heading name =>
      cases Table.mem_insertEntry he with
      | inl heq => exact heq ▸ tidy_empty
      | inr he => exact ho e he
  | entry key value =>
      simp only [Outline.add] at he
      split at he
      · cases Table.mem_insertEntry he with
        | inl heq => exact heq ▸ .text h
        | inr he => exact ho e he
      · rename_i name _
        cases Table.mem_insertEntry he with
        | inr he => exact ho e he
        | inl heq =>
            have hchild : Tidy ((o.top.get? name).getD .empty) := by
              cases hget : o.top.get? name with
              | none => exact tidy_empty
              | some c => exact ho _ ((Table.mem_entries_iff _).mpr hget)
            exact heq ▸ hchild.setChild (.text h) key

theorem Outline.tidy_foldl {items : List Item} {o : Outline} (ho : ∀ e ∈ o.top.entries, Tidy e.2)
    (h : ∀ item ∈ items, item.Trimmed) :
    ∀ e ∈ (items.foldl Outline.add o).top.entries, Tidy e.2 := by
  induction items generalizing o with
  | nil => exact ho
  | cons item items ih =>
      exact ih (tidy_add ho (h item (.head _))) fun item hm => h item (.tail _ hm)

theorem Outline.tidy_tree {items : List Item} (h : ∀ item ∈ items, item.Trimmed) :
    Tidy (items.foldl Outline.add {}).tree :=
  tidy_empty.putPaths (tidy_foldl (List.forall_mem_nil _) h)

/-- A key in lower case with a trimmed value. -/
def Settled (e : String × String) : Prop := Text.IsLower e.1 ∧ Text.trim e.2 = e.2

theorem isLower_join {s t : String} (c : String) (hc : Text.IsLower c) (hs : Text.IsLower s)
    (ht : Text.IsLower t) : Text.IsLower (s ++ c ++ t) :=
  (hs.append hc).append ht

theorem settled_sectionEntries {sectionName : String} {entries : List (String × Tree)}
    {params : List (String × String)} (hs : Text.IsLower sectionName)
    (h : Tidy (table entries)) (hparams : sectionEntries sectionName entries = some params) :
    ∀ e ∈ params, Settled e := by
  have hcolon : Text.IsLower ":" := by
    decide +kernel
  have hpoint : Text.IsLower "." := by
    decide +kernel
  induction sectionName, entries using sectionEntries.induct generalizing params with
  | case1 sectionName =>
      rw [sectionEntries] at hparams
      cases hparams
      exact List.forall_mem_nil _
  | case2 sectionName name value rest ih =>
      obtain ⟨lower, each⟩ := h.entries
      rw [sectionEntries, Option.bind_eq_bind, Option.bind_eq_some_iff] at hparams
      obtain ⟨below, hbelow, hparams⟩ := hparams
      cases hparams
      have hrest := ih hs h.tail hbelow
      refine List.forall_mem_cons.mpr ⟨⟨isLower_join ":" hcolon hs (lower _ (.head _)), ?_⟩, hrest⟩
      cases each _ (.head _) with
      | text trimmed => exact trimmed
  | case3 sectionName name inner rest ihInner ihRest =>
      obtain ⟨lower, each⟩ := h.entries
      simp only [sectionEntries, Option.bind_eq_bind, Option.bind_eq_some_iff] at hparams
      obtain ⟨below, hbelow, params', hparams', heq⟩ := hparams
      cases heq
      have hinner := ihInner (isLower_join "." hpoint hs (lower _ (.head _))) (each _ (.head _))
        hbelow
      have hrest := ihRest hs h.tail hparams'
      exact List.forall_mem_append.mpr ⟨hinner, hrest⟩
  | case4 sectionName head tail htext htable =>
      rw [sectionEntries] at hparams
      · cases hparams
      · exact htext
      · exact htable

theorem settled_entriesOf {entries : List (String × Tree)} {params : List (String × String)}
    (h : Tidy (table entries)) (hparams : entriesOf entries = some params) :
    ∀ e ∈ params, Settled e := by
  induction entries using entriesOf.induct generalizing params with
  | case1 =>
      rw [entriesOf] at hparams
      cases hparams
      exact List.forall_mem_nil _
  | case2 s inner rest ih =>
      obtain ⟨lower, each⟩ := h.entries
      simp only [entriesOf, Option.bind_eq_bind, Option.bind_eq_some_iff] at hparams
      obtain ⟨below, hbelow, params', hparams', heq⟩ := hparams
      cases heq
      have hinner := settled_sectionEntries (lower _ (.head _)) (each _ (.head _)) hbelow
      have hrest := ih h.tail hparams'
      exact List.forall_mem_append.mpr ⟨hinner, hrest⟩
  | case3 head rest htable ih =>
      rw [entriesOf] at hparams
      · exact ih h.tail hparams
      · exact htable

end Flatten

end Ini

open Ini

namespace Params

variable {text : String} {p : Params}

/-- What is loaded has its keys in lower case and its values trimmed. -/
theorem settled_of_ofIni? (h : Params.ofIni? text = some p) : ∀ e ∈ p.entries, Settled e := by
  simp only [Params.ofIni?, Option.bind_eq_bind, Option.bind_eq_some_iff] at h
  obtain ⟨items, hitems, params, hparams, heq⟩ := h
  cases heq
  have htidy := (Outline.tidy_tree (items?_trimmed hitems)).entries
  have hsettled := settled_entriesOf (.table htidy.1 htidy.2) hparams
  exact fun e he => hsettled e (Table.mem_of_mem_ofList he)

/-- The reader gives nothing in the keys and values another meaning. -/
structure Unmarked (p : Params) : Prop where
  keys : ∀ e ∈ p.entries, ∃ s n, splitKey e.1 = some (s, n) ∧ LiteralHeading s ∧ LiteralKey n
  values : ∀ e ∈ p.entries, UnmarkedValue e.2
  apart : p.Apart

theorem Unmarked.legible (h : p.Unmarked) (hsettled : ∀ e ∈ p.entries, Settled e) :
    p.Legible := by
  intro e he
  obtain ⟨s, n, hsplit, hheading, hkey⟩ := h.keys e he
  obtain ⟨hlower, htrimmed⟩ := hsettled e he
  have hchars := (splitKey_eq_some.mp hsplit).1
  refine ⟨s, n, hsplit, hheading, hkey, ⟨h.values e he, htrimmed⟩, fun c hc => ?_, fun c hc => ?_⟩
  · exact hlower c (by simp [hchars, hc])
  · exact hlower c (by simp [hchars, hc])

/-- What is left after so many times of writing and reading. -/
def reloaded (p : Params) : Nat → Option Params
  | 0 => some p
  | n + 1 => (p.reloaded n).bind fun q => Params.ofIni? q.iniText

/-- Unmarked parameters that have been loaded stay as they are however often they are saved and
loaded again. -/
theorem Unmarked.reloaded_eq_some (h : p.Unmarked) (hload : Params.ofIni? text = some p) (n : Nat) :
    p.reloaded n = some p := by
  have honce := ofIni?_iniText_of_legible (h.legible (settled_of_ofIni? hload)) h.apart
  induction n with
  | zero => rfl
  | succ n ih => rw [reloaded, ih, Option.bind_some, honce]

/-- A text with one section of one value. -/
theorem ofIni?_of_items? {value : String}
    (h : items? text = some [.heading "a", .entry "k" value]) :
    Params.ofIni? text = some (.ofList [("a:k", value)]) := by
  have hpath : Path.ofName "a" = [.name "a"] := by
    have hsteps : Path.steps? ['.', 'a'] = some [.name "a"] := by
      have hrest : List.dropWhile Path.isPartChar ['a'] = [] := by decide
      rw [Path.steps?, hrest, Path.steps?]
      decide
    exact congrArg (Option.getD · _) hsteps
  have hlower : Text.lowercase "a" = "a" ∧ Text.lowercase "k" = "k" := by decide +kernel
  have htree : ([Item.heading "a", .entry "k" value].foldl Outline.add {}).tree =
      .table [("a", .table [("k", .leaf (.text value))])] := by
    simp [Outline.tree, Outline.add, Tree.putPaths, hpath, Tree.putAt, Tree.put, Tree.putAll,
      Tree.setChild, Tree.childOrEmpty, Tree.child?, Tree.entries, Tree.empty, Table.empty,
      Table.insert, Table.insertEntry, Table.get?, Table.lookup, hlower]
  rw [Params.ofIni?, h]
  simp only [Option.bind_eq_bind, Option.bind_some, htree, Tree.entries, entriesOf,
    sectionEntries]
  rfl

theorem Unmarked.reloaded_eq_some_quoted :
    Params.ofIni? "[a]\nk = '30' \n" = some (.ofList [("a:k", "30")]) ∧
      Unmarked (.ofList [("a:k", "30")]) ∧
        reloaded (.ofList [("a:k", "30")]) 2 = some (.ofList [("a:k", "30")]) := by
  have hitems : items? "[a]\nk = '30' \n" = some [.heading "a", .entry "k" "30"] := by
    decide +kernel
  have hload := ofIni?_of_items? hitems
  have hsplit : splitKey "a:k" = some ("a", "k") := by decide +kernel
  have honly {e : String × String}
      (he : e ∈ (Table.ofList [("a:k", "30")] : Params).entries) : e = ("a:k", "30") :=
    List.mem_singleton.mp he
  have hunmarked : Unmarked (.ofList [("a:k", "30")]) := by
    refine ⟨fun e he => ?keys, fun e he => ?values, fun e he e' he' s n s' n' hs hs' => ?apart⟩
    case keys =>
      obtain rfl := honly he
      exact ⟨"a", "k", hsplit, ⟨by simp [Purpose.Takes, Purpose.endsAt], by decide⟩, by decide,
        by simp [Purpose.Takes, Purpose.endsAt, isSeparator], by simp, by decide⟩
    case values =>
      obtain rfl := honly he
      decide
    case apart =>
      obtain rfl := honly he
      obtain rfl := honly he'
      cases hsplit.symm.trans hs
      cases hsplit.symm.trans hs'
      intro hstarts
      have hlength := hstarts.length_le
      rw [List.length_append, List.length_singleton] at hlength
      omega
  exact ⟨hload, hunmarked, hunmarked.reloaded_eq_some hload 2⟩

/-- A backslash is lost when the file is read again. -/
theorem reloaded_ne_of_backslash :
    Params.ofIni? "[a]\nk = x\\\\y\n" = some (.ofList [("a:k", "x\\y")]) ∧
      reloaded (.ofList [("a:k", "x\\y")]) 1 = some (.ofList [("a:k", "xy")]) ∧
        (.ofList [("a:k", "xy")] : Params) ≠ .ofList [("a:k", "x\\y")] := by
  have hload : items? "[a]\nk = x\\\\y\n" = some [.heading "a", .entry "k" "x\\y"] := by
    decide +kernel
  have hreload : items? (iniText (.ofList [("a:k", "x\\y")])) =
      some [.heading "a", .entry "k" "xy"] := by
    decide +kernel
  exact ⟨ofIni?_of_items? hload, ofIni?_of_items? hreload, by decide +kernel⟩

end Params
end CameraPipeline
