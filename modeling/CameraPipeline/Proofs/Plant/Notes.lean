import CameraPipeline.Proofs.Plant.Continuity

/-!
What is noted on the way. Each change notes its own kind of thing, and only a join that a pump is
stopped; so what comes to stand in the journal tells which changes were made.
-/

namespace CameraPipeline

/-- What the change may note. -/
def Change.Noting : Change → JournalEntry → Prop
  | .move _, .pumped _ _ => True
  | .request r, .asked r' _ => r' = r
  | .start _, .started _ => True
  | .join id _, .stopped id' _ => id' = id
  | _, _ => False

/-- Of the pumps only `ids` are stopped. -/
def JournalEntry.StopsOnly (ids : PumpId → Prop) : JournalEntry → Prop
  | .stopped id _ => ids id
  | .started _ | .asked _ _ | .pumped _ _ => True

namespace Plant

variable {P Q : JournalEntry → Prop} {p q r : Plant} {id : PumpId}

/-- From `p` to `q` only what satisfies `P` was noted. -/
def Notes (P : JournalEntry → Prop) (p q : Plant) : Prop :=
  ∃ since, q.journal = p.journal ++ since ∧ ∀ e ∈ since, P e

namespace Notes

theorem of_same (h : q.journal = p.journal) : Notes P p q := ⟨[], by simpa using h, by simp⟩

theorem refl (p : Plant) : Notes P p p := of_same rfl

theorem one {e : JournalEntry} (h : q.journal = p.journal ++ [e]) (he : P e) : Notes P p q :=
  ⟨[e], h, fun _ hm => List.mem_singleton.mp hm ▸ he⟩

theorem trans (h : Notes P p q) (h' : Notes P q r) : Notes P p r := by
  obtain ⟨since, hq, hs⟩ := h
  obtain ⟨later, hr, hl⟩ := h'
  refine ⟨since ++ later, by rw [hr, hq, List.append_assoc], fun e he => ?_⟩
  exact (List.mem_append.mp he).elim (hs e) (hl e)

theorem mono (hPQ : ∀ e, P e → Q e) (h : Notes P p q) : Notes Q p q := by
  obtain ⟨since, hq, hs⟩ := h
  exact ⟨since, hq, fun e he => hPQ e (hs e he)⟩

theorem journal (h : Notes P p q) : p.journal <+: q.journal := by
  obtain ⟨since, hq, _⟩ := h
  exact hq ▸ List.prefix_append _ _

theorem mem {e : JournalEntry} (h : Notes P p q) (he : e ∈ q.journal) : e ∈ p.journal ∨ P e := by
  obtain ⟨since, hq, hs⟩ := h
  rw [hq] at he
  exact (List.mem_append.mp he).imp_right (hs e)

theorem since {before : List JournalEntry} {e : JournalEntry} (h : Notes P p q)
    (hp : p.journal <+: before) (hq : before ++ [e] <+: q.journal) : P e := by
  obtain ⟨since, hj, hs⟩ := h
  obtain ⟨first, rfl⟩ := hp
  rw [hj, List.append_assoc, List.prefix_append_right_inj] at hq
  exact hs e (hq.subset (List.mem_append_right _ (.head _)))

/-- What was noted on the way was noted before a moment in between, or after it. -/
theorem split (h : Notes P p r) (hp : p.journal <+: q.journal) (hr : q.journal <+: r.journal) :
    Notes P p q ∧ Notes P q r := by
  obtain ⟨all, hall, hP⟩ := h
  obtain ⟨since, hq⟩ := hp
  obtain ⟨later, hr⟩ := hr
  have heq : all = since ++ later := by
    rw [← hr, ← hq, List.append_assoc] at hall
    exact (List.append_cancel_left hall).symm
  subst heq
  exact ⟨⟨since, hq.symm, fun e he => hP e (List.mem_append_left _ he)⟩,
    ⟨later, hr.symm, fun e he => hP e (List.mem_append_right _ he)⟩⟩

/-- What is not noted up to `m` stands in the journal only after `m`. -/
theorem later {m : Plant} {before rest : List JournalEntry} {e : JournalEntry} (h : Notes P p m)
    (hm : m.journal <+: q.journal) (hj : q.journal = before ++ e :: rest)
    (hp : p.journal <+: before) (he : ¬P e) : m.journal <+: before := by
  have hlater : ¬before ++ [e] <+: m.journal := fun hm => he (h.since hp hm)
  have hq : before ++ [e] <+: q.journal := ⟨rest, by rw [hj, List.append_assoc]; rfl⟩
  have hpre := (List.prefix_or_prefix_of_prefix hq hm).resolve_left hlater
  exact (List.prefix_concat_iff.mp hpre).resolve_left fun heq => hlater (heq ▸ List.prefix_rfl)

end Notes

/-- From `p` to `q` only pumps of `ids` were stopped. -/
abbrev StopsOnly (ids : PumpId → Prop) : Plant → Plant → Prop := Notes (JournalEntry.StopsOnly ids)

theorem StopsOnly.mono {ids ids' : PumpId → Prop} (hids : ∀ id, ids id → ids' id)
    (h : StopsOnly ids p q) : StopsOnly ids' p q :=
  Notes.mono (fun e he => by cases e <;> first | trivial | exact hids _ he) h

theorem Advanced.notes (h : Advanced p id q) : Notes (∃ deed, · = .pumped id deed) p q := by
  cases h with
  | stays => exact .refl p
  | checks | fetches | releases => exact .one rfl ⟨_, rfl⟩
  | offers pump hp u sink rest phase taken p' hq =>
      refine .one ?_ ⟨.offered sink u taken, rfl⟩
      simp [note, Plant.setPump, (offer_frame hq).2.2.1]

theorem apply_notes (p : Plant) (c : Change) : Notes c.Noting p (p.apply c) := by
  cases c with
  | move m =>
      cases m with
      | advance id =>
          refine (advanced p id).notes.mono fun e he => ?_
          obtain ⟨deed, rfl⟩ := he
          trivial
      | stall id | unstall id =>
          refine .of_same ?_
          simp only [apply, move, setStalled]
          split <;> rfl
      | hold | letGo => exact .of_same rfl
  | turns => exact .of_same rfl
  | request r =>
      obtain ⟨fault, hj⟩ := journal_serve p r
      exact .one hj rfl
  | start pump => exact .one rfl trivial
  | raise id =>
      refine .of_same ?_
      simp only [apply, raise]
      split <;> rfl
  | await id =>
      refine .of_same ?_
      simp only [apply, waitPump]
      split <;> rfl
  | join id millis =>
      simp only [apply, join]
      split
      · exact .refl p
      · exact .one rfl rfl

theorem Steps.notes {R : Change → Prop} (hR : ∀ c e, R c → c.Noting e → P e) (h : Steps R p q) :
    Notes P p q := by
  induction h with
  | refl p => exact .refl p
  | cons c hc _ ih => exact ((apply_notes _ c).mono fun e => hR c e hc).trans ih

/-- By themselves pumps are not stopped. -/
theorem Steps.stopsOnly (h : Steps Change.IsDrift p q) {ids : PumpId → Prop} :
    StopsOnly ids p q := by
  refine h.notes fun c e hc he => ?_
  cases c <;> cases e <;> trivial

section Owner

variable (p : Plant) (id : PumpId)

theorem ask_stopsOnly (r : Request) {ids : PumpId → Prop} :
    StopsOnly ids p (p.ask r).2 := by
  obtain ⟨fault, hj⟩ := journal_serve p.takeTurn r
  exact (takeTurn_steps p).stopsOnly.trans (.one hj trivial)

theorem stopPump_stopsOnly (millis : Nat) :
    StopsOnly (· = id) p (p.stopPump id millis).2 := by
  have hraise : StopsOnly (· = id) p (p.raise id) :=
    (apply_notes p (.raise id)).mono fun e he => by cases e <;> exact he.elim
  rw [stopPump_eq]
  split
  · exact .refl p
  · split
    · exact .refl p
    · refine hraise.trans ((takeTurn_steps _).stopsOnly.trans ?_)
      refine (rest_steps _ id).stopsOnly.trans ?_
      exact (apply_notes _ (.join id millis)).mono fun e he => by cases e <;> trivial

theorem dropPump_stopsOnly : StopsOnly (· = id) p (p.dropPump id) := by
  simp only [dropPump]
  split
  · exact .refl p
  · exact stopPump_stopsOnly p id _

end Owner

/-- Every pump that was stopped on the way had ended in time. -/
abbrev DrainsTo : Plant → Plant → Prop := Notes (·.isLate = false)

theorem Steps.drainsTo {R : Change → Prop} (h : Steps R p q) (hq : q.Drained) : p.DrainsTo q := by
  obtain ⟨since, hj⟩ := h.journal
  exact ⟨since, hj.symm, fun e he => hq e (hj ▸ List.mem_append_right _ he)⟩

end Plant
end CameraPipeline
