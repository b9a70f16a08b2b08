import Mathlib.Algebra.GroupWithZero.Nat
import CameraPipeline.Proofs.Orchestrator.PhotoSession

/-!
Runs of completed photo sessions. Every session numbers its photos from nought, so after any
number of them a storage directory has as many photos as the longest session took, the photos of
the others having been written over. Only up to one session is each photo a file of its own.
-/

namespace CameraPipeline

namespace Plant

variable {p q : Plant} {d : SinkId} {size base m : Nat} {n : UInt32} {id : PumpId}

/-- `q` is `p` but for what photos do not depend on. -/
structure Alike (d : SinkId) (p q : Plant) : Prop where
  pumps : q.pumps = p.pumps
  journal : q.journal = p.journal
  sink : q.sinks[d]? = p.sinks[d]?
  channels : q.server.channels = p.server.channels
  bytes : q.server.payloadSize = p.server.payloadSize

namespace Alike

theorem pump?_eq (h : Alike d p q) (id : PumpId) : q.pump? id = p.pump? id := by
  rw [pump?, h.pumps, pump?]

theorem shows (h : Alike d p q) (hp : p.Shows d size m) : q.Shows d size m :=
  hp.of_sinks (h.bytes.trans hp.bytes) (.of_pumps h.pumps) h.sink fun _ he => .inl (h.journal ▸ he)

theorem session (h : Alike d p q) (hp : p.Session d size n base id) :
    q.Session d size n base id where
  focused k pump hk := hp.focused k pump (h.pump?_eq k ▸ hk)
  alone k pump hne hk := hp.alone k pump hne (h.pump?_eq k ▸ hk)
  shooting := by
    obtain ⟨pump, m, hpump, hs⟩ := hp.shooting
    exact ⟨pump, m, (h.pump?_eq id).trans hpump, hs.shoots,
      (Server.next?_of_channels h.channels _).trans hs.count, hs.progress, h.shows hs.shows⟩

end Alike
end Plant

/-- An event that is no command and leaves the directory behind `d` to itself. -/
def Event.Spectates (o : Orchestrator) (d : SinkId) : Event → Prop
  | .command _ => False
  | .sinks left => left[d]? = o.plant.sinks[d]?
  | _ => True

theorem Event.Spectates.isOutside {o : Orchestrator} {d : SinkId} {e : Event}
    (he : e.Spectates o d) : e.IsOutside := by
  cases e with
  | command => exact he.elim
  | _ => trivial

namespace Orchestrator

open Plant

variable {o o' : Orchestrator} {d : SinkId} {size base m : Nat} {n : UInt32} {e : Event}

theorem meet_spectates (he : e.Spectates o d) (hd : d < o.plant.sinks.length) :
    Steps Change.IsCalm o.plant (o.meet e).plant ∨ Alike d o.plant (o.meet e).plant := by
  cases e with
  | command => exact he.elim
  | write | inject => exact .inr ⟨rfl, rfl, rfl, rfl, rfl⟩
  | move m => exact .inl (.one (.move m) ⟨trivial, fun h => h⟩)
  | turns ts => exact .inl (.one (.turns ts) ⟨trivial, fun h => h⟩)
  | register => exact .inr ⟨rfl, rfl, List.getElem?_append_left hd, rfl, rfl⟩
  | sinks => exact .inr ⟨rfl, rfl, he, rfl, rfl⟩
  | waitPhoto =>
      left
      simp only [meet, waitPhoto]
      split
      · exact .refl _
      · rename_i s _
        exact s.isDrained_calm o.plant

theorem Ready.meet (hr : o.Ready d) (he : e.Spectates o d) (hd : d < o.plant.sinks.length) :
    (o.meet e).Ready d where
  kinded := meet_kinded e hr.kinded
  feed := by
    cases e with
    | command => exact he.elim
    | write | inject | move | turns | sinks => exact hr.feed
    | register => exact List.mem_append_left _ hr.feed
    | waitPhoto =>
        simp only [Orchestrator.meet, waitPhoto]
        split <;> exact hr.feed
  honest := by
    cases meet_spectates he hd with
    | inl h => exact h.honest (fun _ hc => hc.1.elim) hr.honest
    | inr h => exact fun id pump hp => hr.honest id pump (h.pump?_eq id ▸ hp)

theorem Resting.meet (hr : o.Resting d size m) (he : e.Spectates o d) :
    (o.meet e).Resting d size m := by
  obtain ⟨s, hs, _⟩ := hr.shows.sink
  have hd : d < o.plant.sinks.length := (List.getElem?_eq_some_iff.mp hs).1
  cases meet_spectates he hd with
  | inl h =>
      have hquiet := h.mono fun _ => And.left
      obtain ⟨hshows, hdark⟩ := hquiet.dark (fun _ => False.elim) hr.shows hr.dark
      exact { hr.toReady.meet he hd with
        focused := hquiet.focused (fun _ => False.elim) hr.focused
        shows := hshows
        dark := hdark }
  | inr h =>
      exact { hr.toReady.meet he hd with
        focused := fun id pump hp => hr.focused id pump (h.pump?_eq id ▸ hp)
        shows := h.shows hr.shows
        dark := fun id pump hp => hr.dark id pump (h.pump?_eq id ▸ hp) }

theorem Taking.meet (ht : o.Taking d size n base) (he : e.Spectates o d) :
    (o.meet e).Taking d size n base := by
  obtain ⟨b, s, hb, hs, hstack, hsession⟩ := ht.session
  obtain ⟨_, _, _, hshooting⟩ := hsession.shooting
  obtain ⟨storage, hstorage, _⟩ := hshooting.shows.sink
  have hd : d < o.plant.sinks.length := (List.getElem?_eq_some_iff.mp hstorage).1
  refine { ht.toReady.meet he hd with
    session := ⟨b, s, (built_meet he.isOutside).trans hb, hs, hstack, ?_⟩ }
  cases meet_spectates he hd with
  | inl h => exact h.session hsession
  | inr h => exact h.session hsession

/-- From `o` to `o'` a session takes its photos: the surroundings do what they like, and the owner
does no more than to ask for its end too early. -/
inductive Awaits (d : SinkId) : Orchestrator → Orchestrator → Prop
  | done (o : Orchestrator) : Awaits d o o
  | event {o o' : Orchestrator} (e : Event) (he : e.Spectates o d)
      (rest : Awaits d (o.meet e) o') : Awaits d o o'
  | early {o o' : Orchestrator} (stands : (o.handle .stopPhoto).2.photoSession?.isSome)
      (rest : Awaits d (o.handle .stopPhoto).2 o') : Awaits d o o'

/-- From `o` to `o'` sessions of so many photos were started and stopped. Between them there may
be any other events and any other commands, whatever they come to. -/
inductive Captures (d : SinkId) : Orchestrator → List UInt32 → Orchestrator → Prop
  | done (o : Orchestrator) : Captures d o [] o
  | event {o o' : Orchestrator} {ns : List UInt32} (e : Event) (he : e.Spectates o d)
      (rest : Captures d (o.meet e) ns o') : Captures d o ns o'
  | command {o o' : Orchestrator} {ns : List UInt32} (c : Command) (hc : ¬c.Shoots)
      (rest : Captures d (o.handle c).2 ns o') : Captures d o ns o'
  | session {o o₁ o' : Orchestrator} {n : UInt32} {ns : List UInt32}
      (started : (o.handle (.startPhoto n)).1 = .ok true)
      (taking : Awaits d (o.handle (.startPhoto n)).2 o₁)
      (stopped : (o₁.handle .stopPhoto).2.photoSession? = none)
      (rest : Captures d (o₁.handle .stopPhoto).2 ns o') : Captures d o (n :: ns) o'

theorem Awaits.taking (h : Awaits d o o') (ht : o.Taking d size n base) :
    o'.Taking d size n base := by
  induction h with
  | done => exact ht
  | event e he _ ih => exact ih (ht.meet he)
  | early stands _ ih =>
      cases ht.stopPhoto with
      | inl hcase =>
          obtain ⟨_, ht⟩ := hcase
          exact ih ht
      | inr hcase =>
          obtain ⟨hnone, _⟩ := hcase
          rw [hnone] at stands
          cases stands

theorem Captures.resting {ns : List UInt32} (h : Captures d o ns o') (hr : o.Resting d size m) :
    o'.Resting d size ((ns.map (·.toNat)).foldl max m) := by
  induction h generalizing m with
  | done => exact hr
  | event e he _ ih => exact ih (hr.meet he)
  | @command o _ _ c hc _ ih =>
      have ht := handle_transitions o c
      rw [eq_false hc] at ht
      exact ih (hr.transitions ht)
  | session started taking stopped _ ih =>
      cases (taking.taking (hr.startPhoto started)).stopPhoto with
      | inl hcase =>
          obtain ⟨hsome, _⟩ := hcase
          rw [stopped] at hsome
          cases hsome
      | inr hcase =>
          obtain ⟨_, hr⟩ := hcase
          exact ih hr

theorem Captures.pos {ns : List UInt32} (h : Captures d o ns o') : ∀ n ∈ ns, 0 < n.toNat := by
  induction h with
  | done => exact nofun
  | event _ _ _ ih | command _ _ _ ih => exact ih
  | session started _ _ _ ih =>
      refine List.forall_mem_cons.mpr ⟨?_, ih⟩
      exact Nat.pos_of_ne_zero fun hn => (startPhoto_eq_ok started).1 (UInt32.toNat_inj.mp hn)

theorem Fresh.resting (hf : o.Fresh) (hd : o.plant.sinks[d]? = some (.storage {}))
    (hfeed : (Stream.photo, d) ∈ o.feeds) : o.Resting d o.plant.server.payloadSize 0 := by
  have hpump : ∀ id pump, o.plant.pump? id ≠ some pump := fun id pump => by
    simp [Plant.pump?, hf.pumps]
  exact {
    kinded := hf.kinded
    feed := hfeed
    honest := fun id pump hp => absurd hp (hpump id pump)
    focused := fun id pump hp => absurd hp (hpump id pump)
    shows := {
      bytes := rfl
      sink := ⟨{}, hd, Storage.shows_empty _⟩
      taken := fun id u he => by
        rw [hf.journal] at he
        cases he }
    dark := fun id pump hp => absurd hp (hpump id pump) }

section Count

theorem foldl_max_le (l : List Nat) (m : Nat) : l.foldl max m ≤ m + l.sum := by
  induction l generalizing m with
  | nil => exact Nat.le_refl m
  | cons a l ih =>
      have h := ih (max m a)
      simp only [List.foldl_cons, List.sum_cons]
      omega

/-- The greatest of some positive numbers is their sum only if there is no other. -/
theorem foldl_max_eq_sum_iff {l : List Nat} (hl : ∀ n ∈ l, 0 < n) :
    l.foldl max 0 = l.sum ↔ l.length ≤ 1 := by
  match l with
  | [] | [a] => simp
  | a :: b :: l =>
      have ha := hl a (.head _)
      have hb := hl b (.tail _ (.head _))
      have h := foldl_max_le l (max a b)
      simp only [List.foldl_cons, Nat.zero_max, List.sum_cons, List.length_cons]
      omega

end Count

/-- After a run of completed sessions the directory has as many photos as the longest session
took. That is one file for each photo only up to one session. Still, for every photo that the
directory took there is a file of its number with its bytes. -/
theorem Captures.photos {ns : List UInt32} (h : Captures d o ns o') (hf : o.Fresh)
    (hd : o.plant.sinks[d]? = some (.storage {})) (hfeed : (Stream.photo, d) ∈ o.feeds) :
    ∃ s, o'.plant.sinks[d]? = some (.storage s) ∧
      s.photos.length = (ns.map (·.toNat)).foldl max 0 ∧
      (s.photos.length = (ns.map (·.toNat)).sum ↔ ns.length ≤ 1) ∧
      ∀ id pump u, o'.plant.pump? id = some pump → pump.stream = .photo →
        .pumped id (.offered d u true) ∈ o'.plant.journal →
          s.entries.get? (Storage.photoFile u.sequence) = some (.file u.payload) := by
  have hr := h.resting (hf.resting hd hfeed)
  obtain ⟨s, hs, hshows⟩ := hr.shows.sink
  refine ⟨s, hs, hshows.length_photos, ?_, fun id pump u hp hst he => ?_⟩
  · have hpos : ∀ n ∈ ns.map (·.toNat), 0 < n := List.forall_mem_map.mpr h.pos
    rw [hshows.length_photos, foldl_max_eq_sum_iff hpos, List.length_map]
  · obtain ⟨pump', hp', hu⟩ := hr.shows.taken id u he
    rw [hp] at hp'
    cases hp'
    rw [hshows.photo u.sequence (hu hst).lt, (hu hst).payload]

theorem awaits_moves (ms : List Move) : Awaits d o (o.after (ms.map .move)) := by
  induction ms generalizing o with
  | nil => exact .done o
  | cons m ms ih => exact .event (.move m) trivial ih

/-- An orchestrator in photo mode with an empty directory for photos. -/
def studio : Orchestrator :=
  bare.after [.write (Table.empty.insert Selection.modeKey "photo"), .register .photo (.storage {})]

/-- A session for one photo, up to where the pump has ended. -/
def snap (o : Orchestrator) : Orchestrator :=
  (o.handle (.startPhoto 1)).2.after
    ((List.replicate 5 (.advance o.plant.pumps.length)).map .move)

def firstSnap : Orchestrator := ((snap (studio.handle .init).2).handle .stopPhoto).2

def secondSnap : Orchestrator := ((snap firstSnap).handle .stopPhoto).2

theorem fresh_studio : studio.Fresh := ⟨rfl, ⟨4, rfl⟩, rfl, rfl⟩

theorem captures_studio : Captures 0 studio [1, 1] secondSnap :=
  .command .init (fun h => h)
    (.session rfl (awaits_moves _) rfl (.session rfl (awaits_moves _) rfl (.done _)))

theorem Captures.photos_studio :
    ∃ s, secondSnap.plant.sinks[0]? = some (.storage s) ∧
      s.photos.length = ([1, 1].map UInt32.toNat).foldl max 0 ∧
      (s.photos.length = ([1, 1].map UInt32.toNat).sum ↔ [(1 : UInt32), 1].length ≤ 1) ∧
      ∀ id pump u, secondSnap.plant.pump? id = some pump → pump.stream = .photo →
        .pumped id (.offered 0 u true) ∈ secondSnap.plant.journal →
          s.entries.get? (Storage.photoFile u.sequence) = some (.file u.payload) :=
  Captures.photos captures_studio fresh_studio rfl (.head _)

/-- Two sessions of one photo each leave one file. -/
theorem not_photos_sum :
    ¬∀ (d : SinkId) (o o' : Orchestrator) (ns : List UInt32), o.Fresh →
      o.plant.sinks[d]? = some (.storage {}) → (Stream.photo, d) ∈ o.feeds →
      Captures d o ns o' → ∃ s, o'.plant.sinks[d]? = some (.storage s) ∧
        s.photos.length = (ns.map (·.toNat)).sum := by
  intro h
  obtain ⟨s, hs, hlen⟩ := h 0 studio secondSnap [1, 1] fresh_studio rfl (.head _) captures_studio
  have hr := captures_studio.resting (fresh_studio.resting rfl (.head _))
  obtain ⟨s', hs', hshows⟩ := hr.shows.sink
  rw [hs] at hs'
  cases hs'
  have hone : s.photos.length = 1 := hshows.length_photos
  have htwo : s.photos.length = 2 := hlen
  exact absurd (hone.symm.trans htwo) (by decide)

end Orchestrator
end CameraPipeline
