import Mathlib.Data.List.Induction
import CameraPipeline.Proofs.Playback.Pass

/-!
Reads and seeks of a clip. Its builder lays the packets of each track on a grid; a seek goes to the
first packet that is not before a position, the one that a scan of the packets finds. From there on
the reads answer one packet after the other and then the end, and the two tracks have nothing to do
with each other.
-/

namespace CameraPipeline

/-- The times 0, `step`, 2 `step`, … of whole packets within a duration. -/
structure Grid where
  step : Nat
  durationMs : Nat

def Grid.times (g : Grid) : List Nat := (List.range (g.durationMs / g.step)).map (· * g.step)

/-- Halves an interval until it comes to the first index that fails a test. -/
def bisect (test : Nat → Bool) (lo hi : Nat) : Nat :=
  if lo < hi then
    if test ((lo + hi) / 2) then bisect test ((lo + hi) / 2 + 1) hi
    else bisect test lo ((lo + hi) / 2)
  else lo
termination_by hi - lo

theorem bisect_eq {test : Nat → Bool} {lo hi k : Nat} (htest : ∀ i, test i = true ↔ i < k)
    (hlo : lo ≤ k) (hhi : k ≤ hi) : bisect test lo hi = k := by
  fun_induction bisect test lo hi with
  | case1 lo hi h hmid ih => exact ih ((htest _).mp hmid) hhi
  | case2 lo hi h hmid ih => exact ih hlo (Nat.le_of_not_lt fun hlt => hmid ((htest _).mpr hlt))
  | case3 lo hi h => omega

namespace Timeline

variable {t : Timeline} {g : Grid} {i positionMs : Nat}

/-- The packets are those of the grid. -/
structure On (t : Timeline) (g : Grid) : Prop where
  count : t.count = g.durationMs / g.step
  step : t.step = g.step
  positive : 0 < g.step

theorem On.times (h : t.On g) : t.packets.map (·.ptsMs) = g.times := by
  simp [packets, Grid.times, h.count, h.step, Function.comp_def]

theorem length_packets (t : Timeline) : t.packets.length = t.count := by
  simp [packets]

theorem isKey_of_head {packet : Packet} (h : t.packets.head? = some packet) :
    packet.isKey = true := by
  rw [List.head?_eq_getElem?, getElem?_packets, packet?] at h
  split at h
  · cases h
    simp
  · cases h

theorem lt_indexFrom (hstep : 0 < t.step) :
    i < t.indexFrom positionMs ↔ i < t.count ∧ i * t.step < positionMs := by
  have hdiv : i < (positionMs + t.step - 1) / t.step ↔ i * t.step < positionMs := by
    rw [← Nat.succ_le_iff, Nat.le_div_iff_mul_le hstep, Nat.succ_mul]
    omega
  rw [indexFrom, Nat.lt_min, hdiv]

theorem indexFrom_le (t : Timeline) (positionMs : Nat) : t.indexFrom positionMs ≤ t.count :=
  Nat.min_le_left _ _

/-- The test whether a packet is before a position. -/
def isBefore (t : Timeline) (positionMs i : Nat) : Bool :=
  t.packets[i]?.any (·.ptsMs < positionMs)

theorem isBefore_iff (hstep : 0 < t.step) :
    t.isBefore positionMs i = true ↔ i < t.indexFrom positionMs := by
  rw [lt_indexFrom hstep, isBefore, getElem?_packets, packet?]
  split <;> simp [*]

/-- The index is the one that halving finds. -/
theorem indexFrom_eq_bisect (hstep : 0 < t.step) (positionMs : Nat) :
    t.indexFrom positionMs = bisect (t.isBefore positionMs) 0 t.packets.length := by
  refine (bisect_eq (fun i => isBefore_iff hstep) (Nat.zero_le _) ?_).symm
  rw [length_packets]
  exact t.indexFrom_le positionMs

/-- It cuts off the packets that a scan passes over. -/
theorem filter_range (hstep : 0 < t.step) (positionMs : Nat) :
    (List.range t.count).filter (fun i => positionMs ≤ i * t.step) =
      List.range' (t.indexFrom positionMs) (t.count - t.indexFrom positionMs) := by
  have hle := t.indexFrom_le positionMs
  have hsplit : List.range t.count = List.range (t.indexFrom positionMs) ++
      List.range' (t.indexFrom positionMs) (t.count - t.indexFrom positionMs) := by
    have happend := List.range'_append_1 (s := 0) (m := t.indexFrom positionMs)
      (n := t.count - t.indexFrom positionMs)
    rw [Nat.zero_add, Nat.add_sub_cancel' hle] at happend
    rw [List.range_eq_range', List.range_eq_range', happend]
  rw [hsplit, List.filter_append, List.filter_eq_nil_iff.mpr, List.filter_eq_self.mpr,
    List.nil_append]
  · intro i hi
    obtain ⟨hfrom, hto⟩ := List.mem_range'_1.mp hi
    have hnot : ¬(i < t.count ∧ i * t.step < positionMs) := fun h =>
      Nat.not_lt.mpr hfrom ((lt_indexFrom hstep).mpr h)
    rw [decide_eq_true_eq]
    omega
  · intro i hi
    have hlt := ((lt_indexFrom hstep).mp (List.mem_range.mp hi)).2
    simpa using hlt

end Timeline

namespace Clip

/-- One call of the builder of a clip. -/
inductive Part where
  | video (codec : Codec) (geometry : Geometry) (fps : UInt32) (durationMs : Nat)
  | audio (codec : Codec) (sampleRate channels : UInt32) (packetMs durationMs : Nat)
  | failure (index : Nat)

namespace Part

def addTo (c : Clip) : Part → Clip
  | video codec geometry fps durationMs => c.withVideo codec geometry fps durationMs
  | audio codec sampleRate channels packetMs durationMs =>
    c.withAudio codec sampleRate channels packetMs durationMs
  | failure index => c.withFailureAt index

/-- The grid that the call lays a track on. Its step is a millisecond at least. -/
def grid? (track : Track) : Part → Option Grid
  | video _ _ fps durationMs =>
    if track = .video then some ⟨max (1000 / max fps.toNat 1) 1, durationMs⟩ else none
  | audio _ _ _ packetMs durationMs =>
    if track = .audio then some ⟨max packetMs 1, durationMs⟩ else none
  | failure _ => none

def index? : Part → Option Nat
  | failure index => some index
  | video .. | audio .. => none

def durationMs : Part → Nat
  | video _ _ _ durationMs | audio _ _ _ _ durationMs => durationMs
  | failure _ => 0

end Part

/-- The clip that calls of the builder make. -/
def ofParts (parts : List Part) : Clip := parts.foldl Part.addTo {}

/-- The value of the last call that has one. -/
def last? {α : Type} (value : Part → Option α) (parts : List Part) : Option α :=
  parts.reverse.findSome? value

/-- The grid of a track, without times where no call is for it. -/
def gridOf (parts : List Part) (track : Track) : Grid :=
  (last? (Part.grid? track) parts).getD ⟨1, 0⟩

variable {c : Clip} {track : Track} {parts : List Part} {g : Grid} {i positionMs : Nat}

theorem ofParts_concat (parts : List Part) (part : Part) :
    ofParts (parts ++ [part]) = part.addTo (ofParts parts) := by
  rw [ofParts, List.foldl_append]
  rfl

theorem last?_concat {α : Type} (value : Part → Option α) (parts : List Part) (part : Part) :
    last? value (parts ++ [part]) = (value part).or (last? value parts) := by
  rw [last?, List.reverse_append]
  cases h : value part <;> simp [last?, h]

theorem on_addTo (h : (c.timeline track).On g) (part : Part) :
    ((part.addTo c).timeline track).On ((part.grid? track).getD g) := by
  cases part with
  | failure index => exact h
  | video codec geometry fps durationMs =>
      cases track with
      | video => exact ⟨rfl, rfl, Nat.le_max_right _ 1⟩
      | audio => exact h
  | audio codec sampleRate channels packetMs durationMs =>
      cases track with
      | video => exact h
      | audio => exact ⟨rfl, rfl, Nat.le_max_right _ 1⟩

theorem on_ofParts (parts : List Part) (track : Track) :
    ((ofParts parts).timeline track).On (gridOf parts track) := by
  induction parts using List.reverseRecOn with
  | nil => cases track <;> exact ⟨rfl, rfl, Nat.one_pos⟩
  | append_singleton parts part ih =>
      have hpart := on_addTo ih part
      rw [ofParts_concat, gridOf, last?_concat, Option.getD_or]
      exact hpart

theorem failVideoAt_ofParts (parts : List Part) :
    (ofParts parts).failVideoAt = last? Part.index? parts := by
  induction parts using List.reverseRecOn with
  | nil => rfl
  | append_singleton parts part ih =>
      rw [ofParts_concat, last?_concat, ← ih]
      cases part <;> rfl

theorem le_durationMs_iff (parts : List Part) : positionMs ≤ (ofParts parts).info.durationMs ↔
    positionMs = 0 ∨ ∃ part ∈ parts, positionMs ≤ part.durationMs := by
  induction parts using List.reverseRecOn with
  | nil => simp [ofParts]
  | append_singleton parts part ih =>
      have hpart : (part.addTo (ofParts parts)).info.durationMs =
          max (ofParts parts).info.durationMs part.durationMs := by
        cases part with
        | failure index => exact (Nat.max_zero _).symm
        | video | audio => rfl
      have hmax {a b : Nat} : positionMs ≤ max a b ↔ positionMs ≤ a ∨ positionMs ≤ b := by omega
      rw [ofParts_concat, hpart, hmax, ih]
      simp only [List.mem_append, List.mem_singleton, or_and_right, exists_or, exists_eq_left,
        or_assoc]

theorem failure_mem_of_last? (h : last? Part.index? parts = some i) : .failure i ∈ parts := by
  obtain ⟨part, hmem, hindex⟩ := List.exists_of_findSome?_eq_some h
  cases part with
  | failure index =>
      cases hindex
      exact List.mem_reverse.mp hmem
  | video | audio => cases hindex

/-- The packet whose read fails is one of the video packets. -/
def HasFailing (c : Clip) : Prop := ∀ i, c.failVideoAt = some i → i < c.video.count

theorem readAt_of_lt (hi : i < (c.timeline track).count) : c.readAt track i ≠ .ok none := by
  intro h
  rw [readAt] at h
  split at h
  · cases h
  · rw [Timeline.packet?, if_pos hi] at h
    cases h

theorem readAt_of_le (hc : c.HasFailing) (hi : (c.timeline track).count ≤ i) :
    c.readAt track i = .ok none := by
  have hfail : ¬(track = .video ∧ c.failVideoAt = some i) := by
    rintro ⟨rfl, hfail⟩
    exact Nat.not_lt.mpr hi (hc i hfail)
  rw [readAt, if_neg hfail, Timeline.packet?, if_neg (Nat.not_lt.mpr hi)]

/-- What a scan of the packets for those that are not before a position finds. The packet whose
read fails stands there as the error. -/
def scan (c : Clip) (track : Track) (positionMs : Nat) :
    List (Except DemuxFault (Option Packet)) :=
  ((c.timeline track).packets.zipIdx.filter fun x => positionMs ≤ x.1.ptsMs).map fun x =>
    if track = .video ∧ c.failVideoAt = some x.2 then .error (.corruptPacket x.2)
    else .ok (some x.1)

theorem zipIdx_packets (t : Timeline) : t.packets.zipIdx =
    (List.range t.count).map fun i => (⟨i * t.step, i % t.keyEvery = 0, t.size⟩, i) := by
  refine List.ext_getElem (by simp [Timeline.packets]) fun i hi hi' => ?_
  simp [Timeline.packets]

/-- The scan finds what reads answer from the index of the seek on. -/
theorem scan_eq (hstep : 0 < (c.timeline track).step) (positionMs : Nat) :
    c.scan track positionMs =
      (List.range' ((c.timeline track).indexFrom positionMs)
        ((c.timeline track).count - (c.timeline track).indexFrom positionMs)).map
          (c.readAt track) := by
  rw [scan, zipIdx_packets, List.filter_map, List.map_map, ← Timeline.filter_range hstep]
  refine List.map_congr_left fun i hi => ?_
  have hlt : i < (c.timeline track).count := List.mem_range.mp (List.mem_filter.mp hi).1
  simp only [Function.comp_apply, readAt, Timeline.packet?, if_pos hlt]

end Clip

/-- A call of a clip's reader. -/
inductive DemuxCall where
  | read (track : Track)
  | seek (track : Track) (positionMs : Nat)
  deriving DecidableEq

namespace DemuxCall

def track : DemuxCall → Track
  | read track | seek track _ => track

theorem eq_read_or_seek_or_ne (call : DemuxCall) (track : Track) :
    call = .read track ∨ (∃ positionMs, call = .seek track positionMs) ∨ call.track ≠ track := by
  by_cases h : call.track = track
  · subst h
    cases call with
    | read k => exact .inl rfl
    | seek k positionMs => exact .inr (.inl ⟨positionMs, rfl⟩)
  · exact .inr (.inr h)

end DemuxCall

/-- Where the next read of a track is after a call of its own. -/
def Clip.next (c : Clip) (i : Nat) : DemuxCall → Nat
  | .read track =>
    match c.readAt track i with
    | .ok none => i
    | _ => i + 1
  | .seek track positionMs =>
    if c.info.durationMs < positionMs then i else (c.timeline track).indexFrom positionMs

namespace Demuxer

open Clip

/-- The reader after a call; a seek that fails leaves it as it is. -/
def meet (d : Demuxer) : DemuxCall → Demuxer
  | .read track => (d.read track).2
  | .seek track positionMs => (d.seek track positionMs).toOption.getD d

def after (d : Demuxer) (calls : List DemuxCall) : Demuxer := calls.foldl meet d

/-- What a call answers to the reads of a track. -/
def answer (d : Demuxer) (track : Track) :
    DemuxCall → List (Except DemuxFault (Option Packet))
  | .read k => if k = track then [(d.read k).1] else []
  | .seek _ _ => []

/-- What the reads of a track answer in a sequence of calls. -/
def readsOf (d : Demuxer) (track : Track) :
    List DemuxCall → List (Except DemuxFault (Option Packet))
  | [] => []
  | call :: calls => d.answer track call ++ (d.meet call).readsOf track calls

/-- What a track has of the reader. -/
def view (d : Demuxer) (track : Track) : Clip × Nat := (d.clip, d.pos track)

variable {d d' : Demuxer} {c : Clip} {track k : Track} {calls : List DemuxCall} {call : DemuxCall}
  {i positionMs : Nat}

@[simp] theorem view_setPos (d : Demuxer) (track : Track) (i : Nat) :
    (d.setPos track i).view track = (d.clip, i) := by
  cases track <;> rfl

theorem view_setPos_of_ne (h : k ≠ track) (d : Demuxer) (i : Nat) :
    (d.setPos k i).view track = d.view track := by
  cases k <;> cases track <;> first | rfl | exact absurd rfl h

theorem setPos_pos (d : Demuxer) (track : Track) : d.setPos track (d.pos track) = d := by
  cases track <;> rfl

/-- A call moves the cursor of its track, and nothing else. -/
theorem meet_eq (d : Demuxer) (call : DemuxCall) :
    d.meet call = d.setPos call.track (d.clip.next (d.pos call.track) call) := by
  cases call with
  | read k =>
      simp only [meet, read_eq, next, DemuxCall.track]
      generalize d.clip.readAt k (d.pos k) = answer
      rcases answer with fault | _ | packet
      · rfl
      · exact (setPos_pos d k).symm
      · rfl
  | seek k positionMs =>
      simp only [meet, seek, next, DemuxCall.track]
      split
      · rw [setPos_pos]
        rfl
      · rfl

theorem clip_after (d : Demuxer) (calls : List DemuxCall) : (d.after calls).clip = d.clip := by
  induction calls generalizing d with
  | nil => rfl
  | cons call calls ih =>
      refine (ih (d.meet call)).trans ?_
      rw [meet_eq, clip_setPos]

theorem meet_seek_of_lt (h : d.clip.info.durationMs < positionMs) :
    d.meet (.seek track positionMs) = d := by
  rw [meet, seek, if_pos h]
  rfl

/-- A call of one track is nothing to the other. -/
theorem meet_of_ne (h : call.track ≠ track) :
    (d.meet call).view track = d.view track ∧ d.answer track call = [] := by
  rw [meet_eq, view_setPos_of_ne h]
  refine ⟨rfl, ?_⟩
  cases call with
  | read k => exact if_neg h
  | seek k positionMs => rfl

/-- A call of a track depends on no more than what the track has of the reader. -/
theorem meet_congr (h : d.view track = d'.view track) (hcall : call.track = track) :
    (d.meet call).view track = (d'.meet call).view track ∧
      d.answer track call = d'.answer track call := by
  obtain ⟨hclip, hpos⟩ := Prod.mk.inj h
  subst hcall
  rw [meet_eq, meet_eq, view_setPos, view_setPos, hclip, hpos]
  refine ⟨rfl, ?_⟩
  cases call with
  | read k =>
      simp only [DemuxCall.track] at hpos
      simp only [answer, read_eq, hclip, hpos]
  | seek k positionMs => rfl

theorem readsOf_congr (h : d.view track = d'.view track) (calls : List DemuxCall) :
    d.readsOf track calls = d'.readsOf track (calls.filter (·.track = track)) := by
  induction calls generalizing d d' with
  | nil => rfl
  | cons call calls ih =>
      by_cases hcall : call.track = track
      · obtain ⟨hview, hanswer⟩ := meet_congr h hcall
        rw [List.filter_cons_of_pos (by simpa using hcall), readsOf, readsOf, hanswer, ih hview]
      · obtain ⟨hview, hanswer⟩ := meet_of_ne (d := d) hcall
        rw [List.filter_cons_of_neg (by simpa using hcall), readsOf, hanswer, List.nil_append,
          ih (hview.trans h)]

/-- The next read of a track is at an index, or at the end where there is no such packet. -/
def ReadsFrom (d : Demuxer) (c : Clip) (track : Track) (i : Nat) : Prop :=
  d.view track = (c, min i (c.timeline track).count)

theorem ReadsFrom.meet_read (hc : c.HasFailing) (h : d.ReadsFrom c track i) :
    (d.meet (.read track)).ReadsFrom c track (i + 1) ∧
      d.answer track (.read track) = [c.readAt track i] := by
  obtain ⟨hclip, hpos⟩ := Prod.mk.inj h
  rw [ReadsFrom, meet_eq, DemuxCall.track, view_setPos, next]
  simp only [answer, read_eq, hclip, if_true]
  obtain hi | hi := Nat.lt_or_ge i (c.timeline track).count
  · rw [hpos, Nat.min_eq_left (Nat.le_of_lt hi), Nat.min_eq_left hi]
    refine ⟨?_, rfl⟩
    split
    · rename_i hend
      exact absurd hend (readAt_of_lt hi)
    · rfl
  · rw [hpos, Nat.min_eq_right hi, Nat.min_eq_right (Nat.le_succ_of_le hi), readAt_of_le hc hi,
      readAt_of_le hc (Nat.le_refl _)]
    exact ⟨rfl, rfl⟩

theorem ReadsFrom.meet_other (h : d.ReadsFrom c track i) (hcall : call.track ≠ track) :
    (d.meet call).ReadsFrom c track i ∧ d.answer track call = [] :=
  (meet_of_ne hcall).imp_left (·.trans h)

/-- Until a seek of its own succeeds a track is read on, packet by packet. -/
theorem ReadsFrom.readsOf (hc : c.HasFailing) (h : d.ReadsFrom c track i)
    (hseek : ∀ positionMs, .seek track positionMs ∈ calls → c.info.durationMs < positionMs) :
    d.readsOf track calls = (List.range' i (calls.count (.read track))).map (c.readAt track) := by
  induction calls generalizing d i with
  | nil => rfl
  | cons call calls ih =>
      have hrest (positionMs : Nat) (hmem : .seek track positionMs ∈ calls) :
          c.info.durationMs < positionMs := hseek positionMs (.tail _ hmem)
      rw [Demuxer.readsOf]
      -- only a read of the track itself moves it on, since its seeks fail
      obtain rfl | ⟨positionMs, rfl⟩ | hcall := call.eq_read_or_seek_or_ne track
      · obtain ⟨hnext, hanswer⟩ := h.meet_read hc
        rw [hanswer, ih hnext hrest, List.count_cons_self, List.range'_succ, List.map_cons]
        rfl
      · have hfails := hseek positionMs (.head _)
        rw [← (Prod.mk.inj h).1] at hfails
        rw [meet_seek_of_lt hfails, List.count_cons_of_ne (by simp)]
        exact ih h hrest
      · obtain ⟨hnext, hanswer⟩ := h.meet_other hcall
        have hne : call ≠ .read track := fun hread => hcall (hread ▸ rfl)
        rw [hanswer, List.nil_append, List.count_cons_of_ne hne]
        exact ih hnext hrest

/-- Packet after packet, and then the end at every read. -/
theorem map_readAt (hc : c.HasFailing) (hi : i ≤ (c.timeline track).count) (n : Nat) :
    (List.range' i n).map (c.readAt track) =
      ((List.range' i ((c.timeline track).count - i)).map (c.readAt track) ++
        List.replicate n (Except.ok none)).take n := by
  have hend : List.replicate n (Except.ok none) =
      (List.range' (c.timeline track).count n).map (c.readAt track) := by
    refine (List.eq_replicate_iff.mpr ⟨by simp, fun answer hanswer => ?_⟩).symm
    obtain ⟨j, hj, rfl⟩ := List.mem_map.mp hanswer
    exact readAt_of_le hc (List.mem_range'_1.mp hj).1
  -- behind the packets the indices go on, and every read there answers the end
  have happend := List.range'_append_1 (s := i) (m := (c.timeline track).count - i) (n := n)
  rw [Nat.add_sub_cancel' hi] at happend
  rw [hend, ← List.map_append, happend, ← List.map_take, Nat.add_comm, ← List.range'_append_1,
    List.take_left' List.length_range']

/-- A seek that succeeds goes to the packet that halving finds. -/
theorem view_of_seek (hstep : 0 < (d.clip.timeline track).step)
    (h : d.seek track positionMs = .ok d') :
    d'.view track = (d.clip, bisect ((d.clip.timeline track).isBefore positionMs) 0
      (d.clip.timeline track).packets.length) := by
  rw [seek] at h
  split at h <;> cases h
  rw [view_setPos, Timeline.indexFrom_eq_bisect hstep]

theorem seek_eq_ok_iff : (∃ d', d.seek track positionMs = .ok d') ↔
    positionMs ≤ d.clip.info.durationMs := by
  rw [seek]
  split <;> simp <;> omega

/-- The packets of each track of a clip lie on the grid that the last call of the builder for it
laid out, the first one a key frame. After any calls of its reader a seek succeeds within the
duration of the clip. It goes to the index that halving finds, and then the reads of the track
answer the packets that are not before the position, the failing one by its error, each once and in
order, and then the end, until the next seek of the track that succeeds; one that fails changes
nothing, and the calls of one track do not show in the other. -/
theorem reads_spec (parts : List Part)
    (hfailure : ∀ i, .failure i ∈ parts → i < (ofParts parts).video.packets.length) :
    (ofParts parts).failVideoAt = last? Part.index? parts ∧
    (∀ positionMs, positionMs ≤ (ofParts parts).info.durationMs ↔
      positionMs = 0 ∨ ∃ part ∈ parts, positionMs ≤ part.durationMs) ∧
    (∀ track,
      ((ofParts parts).timeline track).packets.map (·.ptsMs) = (gridOf parts track).times ∧
      ∀ packet, ((ofParts parts).timeline track).packets.head? = some packet →
        packet.isKey = true) ∧
    ∀ (before : List DemuxCall) (d : Demuxer) (track : Track),
      after { clip := ofParts parts } before = d →
      (∀ positionMs, (∃ d', d.seek track positionMs = .ok d') ↔
        positionMs ≤ (ofParts parts).info.durationMs) ∧
      (∀ positionMs d', d.seek track positionMs = .ok d' → d'.view track = (ofParts parts,
        bisect (((ofParts parts).timeline track).isBefore positionMs) 0
          ((ofParts parts).timeline track).packets.length)) ∧
      (∀ positionMs calls, positionMs ≤ (ofParts parts).info.durationMs →
        (∀ later, .seek track later ∈ calls → (ofParts parts).info.durationMs < later) →
        (d.meet (.seek track positionMs)).readsOf track calls =
          ((ofParts parts).scan track positionMs ++
            List.replicate (calls.count (DemuxCall.read track)) (Except.ok none)).take
              (calls.count (DemuxCall.read track))) ∧
      (∀ positionMs, (ofParts parts).info.durationMs < positionMs →
        d.meet (.seek track positionMs) = d) ∧
      ∀ calls, d.readsOf track calls = d.readsOf track (calls.filter (·.track = track)) := by
  refine ⟨failVideoAt_ofParts parts, fun _ => le_durationMs_iff parts, fun track =>
    ⟨(on_ofParts parts track).times, fun _ => Timeline.isKey_of_head⟩, fun before d track hd => ?_⟩
  have hclip : d.clip = ofParts parts := hd ▸ clip_after _ before
  have hon := on_ofParts parts track
  have hstep : 0 < ((ofParts parts).timeline track).step := hon.step ▸ hon.positive
  refine ⟨fun positionMs => ?_, fun positionMs d' hseek => ?_,
    fun positionMs calls hposition hlater => ?_,
    fun positionMs hposition => meet_seek_of_lt (hclip ▸ hposition), readsOf_congr rfl⟩
  · rw [seek_eq_ok_iff, hclip]
  · rw [← hclip] at hstep ⊢
    exact view_of_seek hstep hseek
  · have hc : (ofParts parts).HasFailing := fun i hi => by
      rw [failVideoAt_ofParts] at hi
      have hlt := hfailure i (failure_mem_of_last? hi)
      rwa [Timeline.length_packets] at hlt
    have hle := ((ofParts parts).timeline track).indexFrom_le positionMs
    have hfrom : (d.meet (.seek track positionMs)).ReadsFrom (ofParts parts) track
        (((ofParts parts).timeline track).indexFrom positionMs) := by
      rw [ReadsFrom, meet_eq, DemuxCall.track, view_setPos, hclip, next,
        if_neg (Nat.not_lt.mpr hposition), Nat.min_eq_left hle]
    rw [hfrom.readsOf hc hlater, map_readAt hc hle, scan_eq hstep]

/-- Three frames, of which the second cannot be read, and sound that is shorter. -/
def torn : List Part :=
  [.video .h264 ⟨640, 480⟩ 10 300, .audio .aac 48000 2 100 250, .failure 1]

/-- The read of the sound and the seek behind the end do not show between the reads of the picture,
and the second frame alone is lost. -/
theorem reads_spec_torn :
    let d := after { clip := ofParts torn } [.read .video, .seek .audio 100, .read .audio]
    (ofParts torn).video.packets.map (·.ptsMs) = [0, 100, 200] ∧
    (d.meet (.seek .video 100)).readsOf .video [.read .video, .read .audio, .seek .video 999,
      .read .video, .read .video, .read .video] =
        [.error (.corruptPacket 1), .ok (some ⟨200, false, 256⟩), .ok none, .ok none] ∧
    d.meet (.seek .video 301) = d := by
  have hfailure : ∀ i, .failure i ∈ torn → i < (ofParts torn).video.packets.length := by
    intro i hi
    have hi' : i = 1 := by simpa [torn] using hi
    rw [hi']
    decide
  obtain ⟨-, -, hgrid, hcalls⟩ := reads_spec torn hfailure
  obtain ⟨-, -, hreads, hfails, -⟩ := hcalls _ _ .video rfl
  refine ⟨(hgrid .video).1, ?_, hfails 301 (by decide)⟩
  refine (hreads 100 _ (by decide) fun later hlater => ?_).trans rfl
  have hlater' : later = 999 := by simpa using hlater
  rw [hlater']
  decide

end Demuxer
end CameraPipeline
