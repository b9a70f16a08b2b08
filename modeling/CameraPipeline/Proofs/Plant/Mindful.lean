import CameraPipeline.Proofs.Plant.Unwind

/-!
Pumps and the channels that they read. An owner that minds its pumps starts a pump only on a
channel that can give units, and takes nothing away from a channel while a pump reads it. Under
such an owner every running pump finds its channel enabled, whenever it gets to run, and nothing
is out of a channel that is to be destroyed.
-/

namespace CameraPipeline

/-- The channel that a request takes something away from; a link is taken from its target. -/
def Request.withdrawn? : Request → Option Handle
  | .disable h | .destroy h | .stopReceiving h => some h
  | .unbind l => some l.target
  | .create _ _ | .setAttr _ _ | .enable _ | .bind _ | .startReceiving _ _ | .release _ _
  | .submit _ => none

/-- The channel is enabled and, unless it is an input, receives. -/
def Circuit.Feeds (c : Circuit) (h : Handle) : Prop :=
  ∃ n, c.node? h = some n ∧ n.enabled ∧ (h.kind = .vi ∨ n.receiving.isSome)

namespace Circuit

variable {c : Circuit} {h k : Handle}

theorem Feeds.enabled (hf : c.Feeds h) : c.Enabled h := by
  obtain ⟨n, hn, he, _⟩ := hf
  exact ⟨n, hn, he⟩

theorem Feeds.set_ne (hf : c.Feeds k) (hk : k ≠ h) (n : Option Node) : (c.set h n).Feeds k := by
  obtain ⟨m, hm, hrest⟩ := hf
  exact ⟨m, by rw [node?_set, if_neg hk, hm], hrest⟩

theorem Feeds.modify (hf : c.Feeds k) {f : Node → Node} (he : ∀ n : Node, n.enabled → (f n).enabled)
    (hr : ∀ n : Node, n.receiving.isSome → (f n).receiving.isSome) : (c.modify h f).Feeds k := by
  by_cases hk : k = h
  · subst hk
    obtain ⟨n, hn, hon, hsrc⟩ := hf
    exact ⟨f n, by simp [Circuit.modify, hn], he n hon, hsrc.imp_right (hr n)⟩
  · exact hf.set_ne hk _

/-- A request leaves a channel as it is that it takes nothing away from. -/
theorem Feeds.after {s : Server} {r : Request} (hf : s.circuit.Feeds k) (hn : s.Numbered)
    (hp : s.permit r = .ok h) (hk : r.withdrawn? ≠ some k) : (s.circuit.after h r).Feeds k := by
  cases r with
  | create kind attr =>
      obtain ⟨rfl, _⟩ := Server.permit_create hp
      refine hf.set_ne (fun heq => ?_) _
      subst heq
      exact not_live_iff.mpr (hn.fresh kind) hf.enabled.live
  | setAttr | enable | startReceiving =>
      exact hf.modify (fun _ => by simp) fun _ => by simp
  | disable j | destroy j | stopReceiving j =>
      obtain rfl := Server.eq_of_permit hp rfl
      exact hf.set_ne (fun heq => hk (heq ▸ rfl)) _
  | bind | unbind | release | submit => exact hf

end Circuit

namespace Plant

/-- `q` comes from `p` by changes that satisfy `P` where they are made. Between them failures may
be injected, though not on what gives back, and readers may act on the sinks. -/
inductive Runs (P : Plant → Change → Prop) : Plant → Plant → Prop
  | refl (p : Plant) : Runs P p p
  | change {p q : Plant} (c : Change) (hc : P p c) (rest : Runs P (p.apply c) q) : Runs P p q
  | inject {p q : Plant} (rule : FailureRule) (spares : rule.operation.givesBack = false)
      (rest : Runs P { p with server := p.server.inject rule } q) : Runs P p q
  | sinks {p q : Plant} (sinks : List Sink) (rest : Runs P { p with sinks } q) : Runs P p q

/-- `q` may come after `p`. -/
abbrev Reaches : Plant → Plant → Prop := Runs fun _ _ => True

variable {P Q : Plant → Change → Prop} {p q r : Plant} {id : PumpId}

namespace Runs

theorem one (c : Change) (hc : P p c) : Runs P p (p.apply c) := .change c hc (.refl _)

theorem trans (h : Runs P p q) (h' : Runs P q r) : Runs P p r := by
  induction h with
  | refl _ => exact h'
  | change c hc _ ih => exact .change c hc (ih h')
  | inject rule spares _ ih => exact .inject rule spares (ih h')
  | sinks sinks _ ih => exact .sinks sinks (ih h')

theorem mono (hPQ : ∀ p c, P p c → Q p c) (h : Runs P p q) : Runs Q p q := by
  induction h with
  | refl p => exact .refl p
  | change c hc _ ih => exact .change c (hPQ _ c hc) ih
  | inject rule spares _ ih => exact .inject rule spares ih
  | sinks sinks _ ih => exact .sinks sinks ih

theorem reaches (h : Runs P p q) : p.Reaches q := h.mono fun _ _ _ => trivial

theorem journal (h : Runs P p q) : p.journal <+: q.journal := by
  induction h with
  | refl p => exact List.prefix_rfl
  | change c _ _ ih => exact (journal_apply _ c).trans ih
  | inject _ _ _ ih | sinks _ _ ih => exact ih

end Runs

/-- The owner minds its pumps in a change. -/
def Mindful (p : Plant) : Change → Prop
  | .request r => ∀ h, r.withdrawn? = some h → ∀ id, ¬p.Reads id h
  | .start pump => pump.Honest ∧ p.server.circuit.Feeds pump.source
  | .move _ | .turns _ | .raise _ | .await _ | .join _ _ => True

theorem mindful_of_quiet {c : Change} (hc : c.IsQuiet) : p.Mindful c := by
  cases c <;> trivial

theorem Steps.mindful (h : Steps Change.IsQuiet p q) : Runs Mindful p q := by
  induction h with
  | refl p => exact .refl p
  | cons c hc _ ih => exact .change c (mindful_of_quiet hc) ih

theorem ask_mindful {r : Request} (hr : ∀ h, r.withdrawn? = some h → ∀ id, ¬p.Reads id h) :
    Runs Mindful p (p.ask r).2 := by
  have ht := (takeTurn_steps p).quiet
  refine ht.mindful.trans (.one (.request r) ?_)
  exact fun h hh id hid => hr h hh id (ht.reads hid)

/-- Every running pump reads a channel that can give units. -/
def Wired (p : Plant) : Prop := ∀ id h, p.Reads id h → p.server.circuit.Feeds h

theorem Wired.of_quiet (hw : p.Wired) (h : Steps Change.IsQuiet p q) : q.Wired := by
  intro id k hk
  rw [h.circuit]
  exact hw id k (h.reads hk)

theorem Mindful.wired {c : Change} (hc : p.Mindful c) (hn : p.server.Numbered) (hw : p.Wired) :
    (p.apply c).Wired := by
  cases c with
  | request r =>
      intro id k hk
      have hk : p.Reads id k := hk.of_pumps (pumps_serve p r)
      rw [apply, server_serve]
      cases ho : p.server.perform r with
      | mk answer s =>
          cases answer with
          | error fault => exact Server.circuit_of_perform_error ho ▸ hw id k hk
          | ok h =>
              obtain ⟨hp, hafter⟩ := Server.circuit_of_perform_ok ho
              rw [hafter]
              exact (hw id k hk).after hn hp fun hr => hc k hr id hk
  | start pump =>
      intro id k hex
      obtain ⟨pump', hp', he, rfl⟩ := hex
      rw [apply, pump?_addPump] at hp'
      split at hp'
      · cases hp'
        exact hc.2
      · exact hw id _ ⟨pump', hp', he, rfl⟩
  | move m => exact hw.of_quiet (.one (.move m) trivial)
  | turns ts => exact hw.of_quiet (.one (.turns ts) trivial)
  | raise id => exact hw.of_quiet (.one (.raise id) trivial)
  | await id => exact hw.of_quiet (.one (.await id) trivial)
  | join id millis => exact hw.of_quiet (.one (.join id millis) trivial)

theorem Mindful.sound {c : Change} (hc : p.Mindful c) (hs : p.Sound) : (p.apply c).Sound := by
  have hone : Steps (· = c) p (p.apply c) := .one c rfl
  refine hone.sound (fun pump heq => ?_) hs
  subst heq
  exact hc.1

theorem Runs.wired (h : Runs Mindful p q) (hs : p.Sound) (hw : p.Wired) : q.Sound ∧ q.Wired := by
  induction h with
  | refl p => exact ⟨hs, hw⟩
  | change c hc _ ih => exact ih (hc.sound hs) (hc.wired hs.numbered hw)
  | inject rule spares _ ih => exact ih (hs.inject spares) hw
  | sinks sinks _ ih => exact ih (hs.of_same rfl rfl) hw

/-- What may be noted next: a pump that fetches or gives back finds its channel live and enabled;
nothing is taken away from a channel while a pump reads it; and no unit is out of a channel that
is to be destroyed. -/
def Heeds (p : Plant) : JournalEntry → Prop
  | .pumped id (.fetched _) | .pumped id (.released _ _) =>
    ∃ pump, p.pump? id = some pump ∧ p.server.circuit.Enabled pump.source
  | .asked r _ =>
    (∀ h, r.withdrawn? = some h → ∀ id, ¬p.Reads id h) ∧
      ∀ h c, r = .destroy h → p.server.channels.get? h = some c → c.outstanding = []
  | .started _ | .pumped _ (.checked _) | .pumped _ (.offered _ _ _) | .stopped _ _ => True

theorem Wired.enabled {pump : Pump} (hw : p.Wired) (hp : p.pump? id = some pump)
    (hr : pump.phase ≠ .ended) : p.server.circuit.Enabled pump.source := by
  have he : pump.hasEnded = false := by simpa [Pump.hasEnded] using hr
  exact (hw id _ ⟨pump, hp, he, rfl⟩).enabled

theorem Advanced.heeds (h : Advanced p id q) (hw : p.Wired) :
    q.journal = p.journal ∨ ∃ e, q.journal = p.journal ++ [e] ∧ p.Heeds e := by
  cases h with
  | stays => exact .inl rfl
  | checks => exact .inr ⟨_, rfl, trivial⟩
  | fetches pump hp phase =>
      exact .inr ⟨_, rfl, pump, hp, hw.enabled hp (by simp [phase])⟩
  | offers pump hp u sink rest phase taken p' hq =>
      refine .inr ⟨.pumped id (.offered sink u taken), ?_, trivial⟩
      simp [note, Plant.setPump, (offer_frame hq).2.2.1]
  | releases pump hp u phase =>
      exact .inr ⟨_, rfl, pump, hp, hw.enabled hp (by simp [phase])⟩

/-- A mindful change notes at most one thing, which the plant before it heeds. -/
theorem Mindful.heeds {c : Change} (hc : p.Mindful c) (hb : p.Balanced) (hw : p.Wired) :
    (p.apply c).journal = p.journal ∨
      ∃ e, (p.apply c).journal = p.journal ++ [e] ∧ p.Heeds e := by
  cases applied p c with
  | advance id h => exact h.heeds hw
  | request r =>
      obtain ⟨fault, hj⟩ := journal_serve p r
      exact .inr ⟨_, hj, hc, fun h c heq hget => hb.outstanding_eq_nil hget (hc h (heq ▸ rfl))⟩
  | start pump => exact .inr ⟨_, rfl, trivial⟩
  | handled _ id pump pump' _ _ _ _ _ _ _ journal =>
      refine journal.imp_right ?_
      intro hex
      obtain ⟨k, b, hj⟩ := hex
      exact ⟨_, hj, trivial⟩
  | idle _ _ _ _ _ journal => exact .inl journal

/-- Whatever a mindful run notes was heeded at the moment before. -/
theorem Runs.heeds (h : Runs Mindful p q) (hs : p.Sound) (hw : p.Wired)
    {before rest : List JournalEntry} {e : JournalEntry} (hj : q.journal = before ++ e :: rest)
    (hp : p.journal <+: before) :
    ∃ r c, p.Reaches r ∧ r.journal = before ∧ (r.apply c).journal = before ++ [e] ∧
      (r.apply c).Reaches q ∧ r.Heeds e := by
  induction h with
  | refl p =>
      have hle := hp.length_le
      rw [hj] at hle
      simp only [List.length_append, List.length_cons] at hle
      omega
  | @change p q c hc hrest ih =>
      have hlater (hb : (p.apply c).journal <+: before) :
          ∃ r c', p.Reaches r ∧ r.journal = before ∧ (r.apply c').journal = before ++ [e] ∧
            (r.apply c').Reaches q ∧ r.Heeds e := by
        obtain ⟨r, c', hr, hrest⟩ := ih (hc.sound hs) (hc.wired hs.numbered hw) hj hb
        exact ⟨r, c', .change c trivial hr, hrest⟩
      cases hc.heeds hs.balanced hw with
      | inl hsame => exact hlater (hsame ▸ hp)
      | inr hnoted =>
          obtain ⟨e', hnoted, he⟩ := hnoted
          have hq : p.journal ++ [e'] <+: before ++ e :: rest := hnoted ▸ hj ▸ hrest.journal
          obtain ⟨since, rfl⟩ := hp
          rw [List.append_assoc, List.prefix_append_right_inj] at hq
          cases since with
          | nil =>
              obtain rfl : e' = e := (List.cons_prefix_cons.mp hq).1
              exact ⟨p, c, .refl p, by simp, by simpa using hnoted, hrest.reaches, he⟩
          | cons e'' since =>
              obtain rfl : e' = e'' := (List.cons_prefix_cons.mp hq).1
              refine hlater ?_
              rw [hnoted, List.prefix_append_right_inj]
              exact ⟨since, rfl⟩
  | inject rule spares _ ih =>
      obtain ⟨r, c, hr, hrest⟩ := ih (hs.inject spares) hw hj hp
      exact ⟨r, c, .inject rule spares hr, hrest⟩
  | sinks sinks _ ih =>
      obtain ⟨r, c, hr, hrest⟩ := ih (hs.of_same rfl rfl) hw hj hp
      exact ⟨r, c, .sinks sinks hr, hrest⟩

end Plant

end CameraPipeline
