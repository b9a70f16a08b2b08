import CameraPipeline.Params.Ini.Reader
import CameraPipeline.Params.Ini.Writer
import CameraPipeline.Proofs.Text.Trim

/-!
Texts that the reader takes as they are written. A literal heading, key or value holds nothing that
the reader gives another meaning and has no blanks at its ends, so a section written with literal
texts is read back as its heading and its entries, whatever comes before and after it.
-/

namespace CameraPipeline

namespace Ini

/-- No character of the text ends a text of the purpose or begins an escape. -/
def Purpose.Takes (purpose : Purpose) (cs : List Char) : Prop :=
  ∀ c ∈ cs, c ≠ '\\' ∧ purpose.endsAt c = false

structure LiteralHeading (name : String) : Prop where
  taken : Purpose.heading.Takes name.toList
  trimmed : Text.trim name = name

/-- A key that is read as it is written is not taken for a comment or a heading either. -/
structure LiteralKey (name : String) : Prop where
  nonempty : name ≠ ""
  taken : Purpose.key.Takes name.toList
  opens : ∀ c, name.toList.head? = some c → c ≠ ';' ∧ c ≠ '#' ∧ c ≠ '['
  trimmed : Text.trim name = name

/-- A value in which the reader gives nothing another meaning. -/
structure UnmarkedValue (value : String) : Prop where
  taken : ∀ c ∈ value.toList, c ≠ '\\' ∧ isLineBreak c = false
  opens : ∀ c, value.toList.head? = some c → c ≠ '"' ∧ c ≠ '\''

structure LiteralValue (value : String) : Prop extends UnmarkedValue value where
  trimmed : Text.trim value = value

instance (value : String) : Decidable (UnmarkedValue value) :=
  decidable_of_iff
    (value.toList.all (fun c => c != '\\' && !isLineBreak c) ∧
      value.toList.head?.all (fun c => c != '"' && c != '\''))
    ⟨fun h => ⟨by simpa using h.1, by simpa [Option.all_eq_true] using h.2⟩,
      fun h => ⟨by simpa using h.taken, by simpa [Option.all_eq_true] using h.opens⟩⟩

instance (value : String) : Decidable (LiteralValue value) :=
  decidable_of_iff (UnmarkedValue value ∧ Text.trim value = value)
    ⟨fun h => ⟨h.1, h.2⟩, fun h => ⟨h.toUnmarkedValue, h.trimmed⟩⟩

namespace Reader

variable {items : List Item} {atStart : Bool}

theorem run_cons (r : Reader) (c : Char) (cs : List Char) :
    r.run (c :: cs) = (r.step c).bind (·.run cs) := rfl

/-- Characters of which none is special are all kept. -/
theorem run_text (items : List Item) (atStart : Bool) {purpose : Purpose} (read : List Char)
    {cs : List Char} (h : purpose.Takes cs) :
    ∃ atStart', run ⟨items, atStart, .text purpose read .none⟩ cs =
      some ⟨items, atStart', .text purpose (cs.reverse ++ read) .none⟩ := by
  induction cs generalizing read atStart with
  | nil => exact ⟨atStart, rfl⟩
  | cons c cs ih =>
      obtain ⟨hescape, hend⟩ := h c (.head _)
      have hstep : step ⟨items, atStart, .text purpose read .none⟩ c =
          some ⟨items, c == '\n', .text purpose (c :: read) .none⟩ := by
        simp [step, readChar, readText, enter, hend, hescape]
      obtain ⟨atStart', hrun⟩ := ih (c == '\n') (c :: read) fun c hc => h c (.tail _ hc)
      refine ⟨atStart', ?_⟩
      rw [run_cons, hstep, Option.bind_some, hrun]
      simp

theorem run_heading {name : String} (h : LiteralHeading name) :
    run ⟨items, atStart, .between⟩ ('[' :: name.toList ++ [']', '\n']) =
      some ⟨.heading name :: items, true, .between⟩ := by
  have hopen : step ⟨items, atStart, .between⟩ '[' =
      some ⟨items, false, .text .heading [] .none⟩ := rfl
  obtain ⟨atStart', hname⟩ := run_text items false [] h.taken
  have hclose : run ⟨items, atStart', .text .heading name.toList.reverse .none⟩ [']', '\n'] =
      some ⟨.heading name :: items, true, .between⟩ := by
    have htrim : trimmed name.toList.reverse = name := by
      simpa [trimmed, Text.trim] using h.trimmed
    simp [run, step, readChar, Purpose.endsAt, finishText, add, htrim, Text.isBlank]
  rw [List.cons_append, run_cons, hopen, Option.bind_some, run_append, hname, Option.bind_some,
    List.append_nil, hclose]

theorem run_key {name : String} (h : LiteralKey name) :
    run ⟨items, atStart, .between⟩ (name.toList ++ [' ', '=']) =
      some ⟨items, false, .beforeValue name⟩ := by
  have hn := h.taken
  have htrim := Text.trim_eq_self_iff.mp h.trimmed
  obtain ⟨c, cs, hcs⟩ : ∃ c cs, name.toList = c :: cs :=
    List.exists_cons_of_ne_nil fun he => h.nonempty (String.toList_eq_nil_iff.mp he)
  obtain ⟨hsemicolon, hhash, hbracket⟩ := h.opens c (by simp [hcs])
  have hblank := (Text.trimList_eq_self_iff.mp htrim).1 c (by simp [hcs])
  rw [hcs] at hn
  obtain ⟨hescape, hend⟩ := hn c (.head _)
  have hopen : step ⟨items, atStart, .between⟩ c =
      some ⟨items, c == '\n', .text .key [c] .none⟩ := by
    have hend : isSeparator c = false := hend
    simp [step, readChar, readText, enter, hblank, hsemicolon, hhash, hbracket, hend, hescape]
  obtain ⟨atStart', hrest⟩ := run_text items (c == '\n') [c] fun c hc => hn c (.tail _ hc)
  have hclose : run ⟨items, atStart', .text .key (cs.reverse ++ [c]) .none⟩ [' ', '='] =
      some ⟨items, false, .beforeValue name⟩ := by
    have hread : trimmed (' ' :: (cs.reverse ++ [c])) = name := by
      have hback := Text.trimList_append_blank (c := ' ') htrim (by simp [hcs]) rfl
      rw [← String.toList_inj, trimmed, String.toList_ofList, ← hback, hcs]
      simp
    simp [run, step, readChar, readText, enter, Purpose.endsAt, isSeparator, finishText, hread,
      h.nonempty]
  rw [hcs, List.cons_append, run_cons, hopen, Option.bind_some, run_append, hrest,
    Option.bind_some, hclose]

theorem run_value {key value : String} (h : LiteralValue value) :
    run ⟨items, atStart, .beforeValue key⟩ (' ' :: value.toList ++ ['\n']) =
      some ⟨.entry key value :: items, true, .between⟩ := by
  have htrim := Text.trim_eq_self_iff.mp h.trimmed
  have hskip : step ⟨items, atStart, .beforeValue key⟩ ' ' =
      some ⟨items, false, .beforeValue key⟩ := rfl
  rw [List.cons_append, run_cons, hskip, Option.bind_some]
  cases hcs : value.toList with
  | nil =>
      have hempty : value = "" := String.toList_eq_nil_iff.mp hcs
      subst hempty
      rfl
  | cons c cs =>
      have hv := h.taken
      rw [hcs] at hv
      obtain ⟨hescape, hbreak⟩ := hv c (.head _)
      obtain ⟨hdouble, hsingle⟩ := h.opens c (by simp [hcs])
      have hblank := (Text.trimList_eq_self_iff.mp htrim).1 c (by simp [hcs])
      have hopen : step ⟨items, false, .beforeValue key⟩ c =
          some ⟨items, c == '\n', .text (.value key []) [c] .none⟩ := by
        simp [step, readChar, readText, enter, hblank, hbreak, hdouble, hsingle, hescape]
      have htakes : (Purpose.value key []).Takes cs := fun c hc => hv c (.tail _ hc)
      obtain ⟨atStart', hrest⟩ := run_text items (c == '\n') [c] htakes
      have hclose : run ⟨items, atStart', .text (.value key []) (cs.reverse ++ [c]) .none⟩ ['\n'] =
          some ⟨.entry key value :: items, true, .between⟩ := by
        have hread : trimmed (cs.reverse ++ [c]) = value := by
          rw [← String.toList_inj, trimmed, String.toList_ofList, ← htrim, hcs]
          simp
        simp [run, step, readChar, Purpose.endsAt, isLineBreak, finishText, add, hread]
      rw [List.cons_append, run_cons, hopen, Option.bind_some, run_append, hrest,
        Option.bind_some, hclose]

theorem run_writeEntry {name value : String} (hn : LiteralKey name) (hv : LiteralValue value) :
    run ⟨items, atStart, .between⟩ (writeEntry name value) =
      some ⟨.entry name value :: items, true, .between⟩ := by
  have hsplit : writeEntry name value =
      (name.toList ++ [' ', '=']) ++ (' ' :: value.toList ++ ['\n']) := by
    simp [writeEntry]
  rw [hsplit, run_append, run_key hn, Option.bind_some, run_value hv]

theorem run_entries {entries : List (String × String)}
    (h : ∀ e ∈ entries, LiteralKey e.1 ∧ LiteralValue e.2) :
    run ⟨items, true, .between⟩ (entries.flatMap fun e => writeEntry e.1 e.2) =
      some ⟨(entries.map fun e => .entry e.1 e.2).reverse ++ items, true, .between⟩ := by
  induction entries generalizing items with
  | nil => rfl
  | cons e entries ih =>
      obtain ⟨hn, hv⟩ := h e (.head _)
      rw [List.flatMap_cons, run_append, run_writeEntry hn hv, Option.bind_some,
        ih fun e he => h e (.tail _ he)]
      simp

end Reader

/-- What a written section is read as. -/
def sectionItems (name : String) (entries : List (String × String)) : List Item :=
  .heading name :: entries.map fun e => .entry e.1 e.2

namespace Reader

variable {items : List Item}

theorem run_writeSection {name : String} {entries : List (String × String)}
    (hn : LiteralHeading name) (he : ∀ e ∈ entries, LiteralKey e.1 ∧ LiteralValue e.2) :
    run ⟨items, true, .between⟩ (writeSection name entries) =
      some ⟨(sectionItems name entries).reverse ++ items, true, .between⟩ := by
  have hsplit : writeSection name entries =
      ('[' :: name.toList ++ [']', '\n']) ++
        ((entries.flatMap fun e => writeEntry e.1 e.2) ++ ['\n']) := by
    simp [writeSection]
  have hblank (items : List Item) :
      run ⟨items, true, .between⟩ ['\n'] = some ⟨items, true, .between⟩ := rfl
  rw [hsplit, run_append, run_heading hn, Option.bind_some, run_append, run_entries he,
    Option.bind_some, hblank]
  simp [sectionItems]

theorem run_writeSections {sections : List (String × List (String × String))}
    (h : ∀ s ∈ sections, LiteralHeading s.1 ∧
      ∀ e ∈ s.2, LiteralKey e.1 ∧ LiteralValue e.2) :
    run ⟨items, true, .between⟩ (sections.flatMap fun s => writeSection s.1 s.2) =
      some ⟨(sections.flatMap fun s => sectionItems s.1 s.2).reverse ++ items, true,
        .between⟩ := by
  induction sections generalizing items with
  | nil => rfl
  | cons s sections ih =>
      obtain ⟨hn, he⟩ := h s (.head _)
      rw [List.flatMap_cons, run_append, run_writeSection hn he, Option.bind_some,
        ih fun s hs => h s (.tail _ hs)]
      simp

end Reader

/-- A text of literal sections is read as what was written. -/
theorem items?_writeSections {sections : List (String × List (String × String))}
    (h : ∀ s ∈ sections, LiteralHeading s.1 ∧
      ∀ e ∈ s.2, LiteralKey e.1 ∧ LiteralValue e.2) :
    items? (String.ofList (sections.flatMap fun s => writeSection s.1 s.2)) =
      some (sections.flatMap fun s => sectionItems s.1 s.2) := by
  rw [items?, String.toList_ofList, Reader.run_writeSections h]
  simp [Reader.finish]

end Ini
end CameraPipeline
