import CameraPipeline.Proofs.Playback.Pass
import CameraPipeline.Proofs.Playback.Run

/-!
Playing and pausing. As long as a clip is neither stopped nor moved, what a track has submitted and
what its loop has in hand are, together, whole rounds through its packets and those before its next
read. So each track submits its packets in order, round after round, whenever it is paused and
however fast the other one goes.
-/

namespace CameraPipeline

/-- The act does not move the reading of a track. -/
def Player.Act.KeepsPlace : Player.Act → Prop
  | .seek _ _ => False
  | _ => True

namespace Reel

variable {c : Clip} {track : Track} {r r' : Reel} {otherRuns : Bool} {packet : Option Packet}
  {event : Option PlayerEvent} {packets offered : List Packet}

/-- The packet that the loop has read and not yet submitted. -/
def inHand (r : Reel) : List Packet :=
  match r.lane.phase with
  | .placing packet | .offering packet => [packet]
  | _ => []

/-- What was submitted and what is in hand are some rounds and the packets before the cursor; a
loop that rewinds has come to the end of its round. -/
structure InRound (packets offered : List Packet) (r : Reel) : Prop where
  accounted : ∃ n, offered ++ r.inHand = (List.replicate n packets).flatten ++ packets.take r.cursor
  ended : r.lane.phase = .rewinding → packets.length ≤ r.cursor

namespace InRound

theorem start (hphase : r.lane.phase = .idle) (hcursor : r.cursor = 0) : r.InRound packets [] :=
  ⟨⟨0, by simp [inHand, hphase, hcursor]⟩, by simp [hphase]⟩

/-- Where the loop takes nothing in hand and the reading stays, the round goes on. -/
theorem same (h : r.InRound packets offered) (hcursor : r'.cursor = r.cursor)
    (hhand : r'.inHand = r.inHand) (hphase : r'.lane.phase ≠ .rewinding) :
    r'.InRound packets offered := by
  obtain ⟨n, hn⟩ := h.accounted
  exact ⟨⟨n, by rw [hhand, hcursor, hn]⟩, fun hr => absurd hr hphase⟩

theorem heed {a : Player.Act} (h : r.InRound packets offered) (ha : a.KeepsPlace) :
    (r.heed c track a).InRound packets offered := by
  cases a with
  | loop | emit => exact h
  | transition | place =>
      simp only [Reel.heed]
      split
      · exact ⟨h.accounted, h.ended⟩
      · exact h
  | seek => exact ha.elim

theorem isPrefix (h : r.InRound packets offered) :
    ∃ n, offered <+: (List.replicate n packets).flatten := by
  obtain ⟨n, hn⟩ := h.accounted
  refine ⟨n + 1, (List.prefix_append offered r.inHand).trans ?_⟩
  rw [hn, List.replicate_succ', List.flatten_append, List.flatten_singleton]
  exact List.prefix_append_right_inj _ |>.mpr (List.take_prefix _ _)

end InRound

theorem Turn.inRound (h : r.Turn c track otherRuns r' packet event) (hc : c.failVideoAt = none)
    (hr : r.InRound (c.timeline track).packets offered) :
    r'.InRound (c.timeline track).packets (offered ++ packet.toList) := by
  obtain ⟨n, hn⟩ := hr.accounted
  cases h with
  | waits => simpa using hr
  | looks phase | zeroes phase | leaves phase | closes phase | announces phase | pauses _ phase
  | reports _ phase =>
      rw [Option.toList_none, List.append_nil]
      exact hr.same rfl (by simp [inHand, setPhase, phase]) (by simp [setPhase])
  | reads packet phase read =>
      have hnext : (c.timeline track).packets[r.cursor]? = some packet := by
        rw [Timeline.getElem?_packets]
        exact Clip.packet?_of_readAt read
      have hbefore : offered = (List.replicate n (c.timeline track).packets).flatten ++
          (c.timeline track).packets.take r.cursor := by
        simpa [inHand, phase] using hn
      refine ⟨⟨n, ?_⟩, by simp [setPhase]⟩
      simp only [inHand, setPhase, Option.toList_none, List.append_nil]
      rw [hbefore, List.append_assoc, List.take_add_one, hnext, Option.toList_some]
  | ends phase read =>
      have hend : (c.timeline track).packets.length ≤ r.cursor := by
        rw [← List.getElem?_eq_none_iff, Timeline.getElem?_packets]
        exact Clip.packet?_of_readAt read
      exact ⟨⟨n, by simpa [inHand, setPhase, phase] using hn⟩, fun _ => hend⟩
  | fails fault phase read => exact absurd ⟨phase, fault, read⟩ (not_meetsFault hc)
  | places packet phase =>
      rw [Option.toList_none, List.append_nil]
      exact hr.same rfl (by simp [inHand, phase]) (by simp)
  | offers packet phase =>
      refine ⟨⟨n, ?_⟩, by simp [setPhase]⟩
      simpa [inHand, setPhase, phase] using hn
  | rewinds phase =>
      -- the round that has come to its end counts as a whole one
      refine ⟨⟨n + 1, ?_⟩, by simp [setPhase]⟩
      rw [List.take_of_length_le (hr.ended phase)] at hn
      simpa [inHand, setPhase, phase, List.replicate_succ', List.flatten_append] using hn

end Reel

namespace Player

/-- Since `before` was submitted, the track has gone round. -/
def GoesRound (c : Clip) (before : List Packet) (track : Track) (p : Player) : Prop :=
  ∃ tail, p.offersOf track = before ++ tail ∧ (p.reel? track = none → tail = []) ∧
    ∀ r, p.reel? track = some r → r.InRound (c.timeline track).packets tail

variable {p q : Player} {c : Clip} {track : Track} {a : Act} {acts : List Act}
  {before : List Packet} {e : SessionEvent} {events : List SessionEvent} {path : String}

namespace GoesRound

theorem start (hq : p.control (setFile path) = (.ok (), q)) :
    q.GoesRound c (q.offersOf track) track :=
  ⟨[], (List.append_nil _).symm, fun _ => rfl, fun _ hr =>
    have ⟨hphase, hcursor⟩ := fresh_of_setFile hq hr
    .start hphase hcursor⟩

theorem act (h : p.GoesRound c before track) (hc : p.clip? = some c)
    (hread : c.failVideoAt = none) (ha : a.KeepsPlace) : (p.act a).GoesRound c before track := by
  obtain ⟨tail, hoffers, hnone, hround⟩ := h
  obtain hq | hself | ⟨t, s, s', packet, event, rfl, hs, turn, hq⟩ := act_cases hc a
  · refine ⟨tail, by rw [offersOf, hq.offers, ← offersOf, hoffers], fun hr => ?_, fun r' hr' => ?_⟩
    · rw [hq.reel, Option.map_eq_none_iff] at hr
      exact hnone hr
    · rw [hq.reel, Option.map_eq_some_iff] at hr'
      obtain ⟨r, hr, rfl⟩ := hr'
      exact (hround r hr).heed ha
  · rw [hself]
    exact ⟨tail, hoffers, hnone, hround⟩
  · have hoffers' := hq.offersOf track
    obtain rfl | rfl := Track.eq_or_eq_other t track
    · refine ⟨tail ++ packet.toList, ?_, ?_, ?_⟩
      · rw [hoffers', if_pos rfl, hoffers, List.append_assoc]
      · intro hr
        cases hq.reel.symm.trans hr
      · intro r hr
        cases hq.reel.symm.trans hr
        exact turn.inRound hread (hround s hs)
    · refine ⟨tail, ?_, ?_, ?_⟩
      · rw [hoffers', if_neg t.ne_other, List.append_nil, hoffers]
      · rw [hq.other]
        exact hnone
      · rw [hq.other]
        exact hround

end GoesRound

/-- What steps of the loops and acts that do not move the reading keep, plays and pauses keep. -/
theorem meet_keeps {I : Player → Prop} (hI : ∀ p a, a.KeepsPlace → I p → I (p.act a))
    (hframe : ∀ p q, q.loaded = p.loaded → q.offers = p.offers → I p → I q)
    (he : e.Plays) (hp : I p) : I (p.meet e) := by
  have hcall {x : PlayerAction Unit} {acts : List Act} (hx : x.Does acts)
      (hacts : ∀ a ∈ acts, a.KeepsPlace) : I (p.control x).2 :=
    hx.keeps hI (fun p turns => hframe p (p.withTurns turns) rfl rfl) (fun _ => trivial) hacts hp
  cases e with
  | call call =>
      cases call with
      | play => exact hcall .play (by simp [Act.KeepsPlace])
      | pause => exact hcall .pause (by simp [Act.KeepsPlace])
      | setFile | stop | seek | removeFile | destroy => exact he.elim
  | loop t => exact hI p (.loop t) trivial hp
  | turns | starts | inject | register | drain => exact hframe p _ rfl rfl hp

theorem run_goesRound (h : p.GoesRound c before track) (hc : p.clip? = some c)
    (hread : c.failVideoAt = none) (hplays : ∀ e ∈ events, e.Plays) :
    (p.run events).clip? = some c ∧ (p.run events).GoesRound c before track := by
  let I : Player → Prop := fun p => p.clip? = some c ∧ p.GoesRound c before track
  have hact (p : Player) (a : Act) (ha : a.KeepsPlace) (hi : I p) : I (p.act a) :=
    ⟨(act_frame hi.1 a).1, hi.2.act hi.1 hread ha⟩
  have hframe (p q : Player) (hl : q.loaded = p.loaded) (ho : q.offers = p.offers) (hi : I p) :
      I q := by
    simpa only [I, clip?, GoesRound, offersOf, reel?, hl, ho] using hi
  exact run_keeps (I := I) (fun _ _ => meet_keeps hact hframe) hplays ⟨hc, h⟩

theorem rounds_mono {packets : List Packet} {n m : Nat} (h : n ≤ m) :
    (List.replicate n packets).flatten <+: (List.replicate m packets).flatten := by
  obtain ⟨k, rfl⟩ := Nat.exists_eq_add_of_le h
  rw [← List.replicate_append_replicate, List.flatten_append]
  exact List.prefix_append _ _

/-- Of two beginnings of the same rounds one begins the other. -/
theorem prefix_or_prefix {packets tail tail' : List Packet} {n m : Nat}
    (h : tail <+: (List.replicate n packets).flatten)
    (h' : tail' <+: (List.replicate m packets).flatten) : tail <+: tail' ∨ tail' <+: tail :=
  List.prefix_or_prefix_of_prefix
    (h.trans (rounds_mono (Nat.le_max_left n m)))
    (h'.trans (rounds_mono (Nat.le_max_right n m)))

theorem GoesRound.offered (h : p.GoesRound c before track) :
    ∃ tail, p.offersOf track = before ++ tail ∧
      (∃ n, tail <+: (List.replicate n (c.timeline track).packets).flatten) ∧
      ∀ r, p.reel? track = some r → r.InRound (c.timeline track).packets tail := by
  obtain ⟨tail, hoffers, hnone, hround⟩ := h
  refine ⟨tail, hoffers, ?_, hround⟩
  cases hr : p.reel? track with
  | none => exact ⟨0, by rw [hnone hr]; exact List.nil_prefix⟩
  | some r => exact (hround r hr).isPrefix

/-- However many steps one loop takes, the other track stays where it is. -/
theorem run_other (hc : p.clip? = some c) (track : Track) (n : Nat) :
    (p.run (List.replicate n (.loop track.other))).reel? track = p.reel? track ∧
      (p.run (List.replicate n (.loop track.other))).offersOf track = p.offersOf track := by
  induction n generalizing p with
  | zero => exact ⟨rfl, rfl⟩
  | succ n ih =>
      rw [List.replicate_succ, run_cons]
      obtain ⟨hreel, hoffers⟩ := ih (p := p.meet (.loop track.other)) (act_frame hc (.loop _)).1
      rw [hreel, hoffers]
      cases hr : p.reel? track.other with
      | none => rw [meet, advance_eq_self hr]; exact ⟨rfl, rfl⟩
      | some r =>
          obtain ⟨r', packet, event, -, hq⟩ := advance_turn hc hr
          have hother := hq.other
          rw [Track.other_other] at hother
          refine ⟨hother, (hq.offersOf track).trans ?_⟩
          rw [if_neg (Track.ne_other track).symm, List.append_nil]

/-- Whenever a loaded clip is played and paused, each track submits its packets in order, round
after round. All that was read was submitted, but for what its loop has in hand. Two runs differ in
no more than how far they have come, and the steps of one loop leave the other track alone. -/
theorem run_offersOf (hq : p.control (setFile path) = (.ok (), q)) (hc : q.clip? = some c)
    (hread : c.failVideoAt = none) (hplays : ∀ e ∈ events, e.Plays) (track : Track) :
    ∃ tail, (q.run events).offersOf track = q.offersOf track ++ tail ∧
      (∃ n, tail <+: (List.replicate n (c.timeline track).packets).flatten) ∧
      (∀ r, (q.run events).reel? track = some r → ∃ n, tail ++ r.inHand =
        (List.replicate n (c.timeline track).packets).flatten ++
          (c.timeline track).packets.take r.cursor) ∧
      (∀ others : List SessionEvent, (∀ e ∈ others, e.Plays) →
        ∃ tail', (q.run others).offersOf track = q.offersOf track ++ tail' ∧
          (tail <+: tail' ∨ tail' <+: tail)) ∧
      ∀ n, (q.run (events ++ List.replicate n (.loop track.other))).reel? track =
          (q.run events).reel? track ∧
        (q.run (events ++ List.replicate n (.loop track.other))).offersOf track =
          (q.run events).offersOf track := by
  have hstart : q.GoesRound c (q.offersOf track) track := .start hq
  have hrun (events : List SessionEvent) (hplays : ∀ e ∈ events, e.Plays) :=
    run_goesRound hstart hc hread hplays
  obtain ⟨hclip, hround⟩ := hrun events hplays
  obtain ⟨tail, hoffers, ⟨n, hprefix⟩, hreel⟩ := hround.offered
  refine ⟨tail, hoffers, ⟨n, hprefix⟩, fun r hr => (hreel r hr).accounted, ?_, ?_⟩
  · intro others hothers
    obtain ⟨tail', hoffers', ⟨m, hprefix'⟩, -⟩ := (hrun others hothers).2.offered
    exact ⟨tail', hoffers', prefix_or_prefix hprefix hprefix'⟩
  · intro n
    rw [run_append]
    exact run_other hclip track n

/-- The picture is paused with its first packet in hand, started again, and after its end once
more. -/
theorem run_offersOf_bareLoaded :
    let events : List SessionEvent :=
      [.call .play] ++ List.replicate 3 (.loop .video) ++ [.call .pause, .loop .audio] ++
        List.replicate 3 (.loop .video) ++ [.call .play] ++ List.replicate 9 (.loop .video) ++
        [.call .play] ++ List.replicate 4 (.loop .video)
    let offered : List Packet := [⟨0, true, 256⟩, ⟨100, false, 256⟩, ⟨0, true, 256⟩]
    bare.control (setFile "clip") = (.ok (), bareLoaded) ∧
      bareLoaded.clip? = some .short ∧ Clip.short.failVideoAt = none ∧
      (∀ e ∈ events, e.Plays) ∧ (bareLoaded.run events).offersOf .video = offered ∧
      ∃ n, offered <+: (List.replicate n (Clip.short.timeline .video).packets).flatten := by
  intro events offered
  have hplays : ∀ e ∈ events, e.Plays := by simp [events, SessionEvent.Plays]
  have hoffered : (bareLoaded.run events).offersOf .video = offered := rfl
  obtain ⟨tail, hoffers, hprefix, -⟩ := run_offersOf setFile_bare rfl rfl hplays .video
  have htail : offered = tail := hoffered.symm.trans hoffers
  exact ⟨setFile_bare, rfl, rfl, hplays, hoffered, htail ▸ hprefix⟩

end Player
end CameraPipeline
