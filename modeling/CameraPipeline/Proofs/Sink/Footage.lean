import CameraPipeline.Proofs.Sink.Album
import CameraPipeline.Sink.Sink

/-!
The footage in a storage directory. Units of all streams are delivered in any order, and at any of
them the system may refuse to open a file. A stream waits for a key frame whose file is opened; from
there on its file takes every unit of the stream and nothing else.
-/

namespace CameraPipeline

/-- A unit that is offered to the storage. -/
structure Delivery where
  stream : Stream
  unit : MediaUnit
  /-- Would the system let its file be opened? -/
  granted : Bool

/-- The file that the unit of a delivery goes to. -/
def Delivery.file (d : Delivery) : String :=
  if d.stream = .photo then Storage.photoFile d.unit.sequence else Storage.streamFile d.stream

theorem Delivery.file_eq {d : Delivery} (hd : d.stream ≠ .photo) :
    d.file = Storage.streamFile d.stream := if_neg hd

/-- The names of a stream's files. -/
def Stream.Owns (stream : Stream) (name : String) : Prop :=
  if stream = .photo then ∃ n, name = Storage.photoFile n else name = Storage.streamFile stream

namespace Storage

/-- The storage after a delivery; one that fails leaves it as it is. -/
def meet (s : Storage) (d : Delivery) : Storage := (s.accept d.stream d.unit d.granted).getD s

def after (s : Storage) (ds : List Delivery) : Storage := ds.foldl meet s

/-- What a delivery is answered. -/
def answer (s : Storage) (d : Delivery) : Except SinkFault Unit :=
  ((Sink.storage s).accept d.stream d.unit d.granted).map fun _ => ()

/-- What the deliveries of a stream are answered. -/
def answersOf (s : Storage) (stream : Stream) : List Delivery → List (Except SinkFault Unit)
  | [] => []
  | d :: ds => (if d.stream = stream then [s.answer d] else []) ++ (s.meet d).answersOf stream ds

/-- The bytes under a name; there are none where no file is. -/
def contents (s : Storage) (name : String) : List UInt8 :=
  match s.entries.get? name with
  | some (.file bytes) => bytes
  | _ => []

/-- What comes of a delivery. -/
inductive Outcome where
  | skipped
  | refused
  /-- The file of the delivery holds these bytes now. -/
  | stored (bytes : List UInt8)

def outcome (s : Storage) (d : Delivery) : Outcome :=
  if d.stream = .photo then
    match s.open? d.file d.granted with
    | some _ => .stored d.unit.payload
    | none => .refused
  else if d.stream ∈ s.opened || d.unit.isKey then
    match s.open? d.file (d.stream ∈ s.opened || d.granted) with
    | some bytes => .stored (bytes ++ d.unit.payload)
    | none => .refused
  else .skipped

/-- The storage with bytes in the file of a delivery, which is open if it is a stream's. -/
def put (s : Storage) (d : Delivery) (bytes : List UInt8) : Storage where
  entries := s.entries.insert d.file (.file bytes)
  opened := if d.stream = .photo then s.opened else s.opened.insert d.stream

variable {s t : Storage} {stream : Stream} {d : Delivery} {ds : List Delivery} {name : String}
  {bytes : List UInt8}

theorem accept_eq (s : Storage) (d : Delivery) : s.accept d.stream d.unit d.granted =
    match s.outcome d with
    | .skipped => some s
    | .refused => none
    | .stored bytes => some (s.put d bytes) := by
  by_cases hphoto : d.stream = .photo
  · have hfile : d.file = photoFile d.unit.sequence := if_pos hphoto
    simp only [accept, outcome, if_pos hphoto, storePhoto, hfile]
    cases s.open? (photoFile d.unit.sequence) d.granted with
    | none => rfl
    | some bytes => simp [put, write, hfile, hphoto]
  · simp only [accept, outcome, if_neg hphoto, append, Delivery.file_eq hphoto]
    split
    · cases s.open? (streamFile d.stream) (d.stream ∈ s.opened || d.granted) with
      | none => rfl
      | some bytes => simp [put, write, Delivery.file_eq hphoto, hphoto]
    · rfl

theorem meet_eq (s : Storage) (d : Delivery) : s.meet d =
    match s.outcome d with
    | .stored bytes => s.put d bytes
    | .skipped | .refused => s := by
  rw [meet, accept_eq]
  cases s.outcome d <;> rfl

/-- Only a file that is not opened is answered by a fault. -/
theorem answer_eq (s : Storage) (d : Delivery) : s.answer d =
    match s.outcome d with
    | .refused => .error .io
    | .skipped | .stored _ => .ok () := by
  rw [answer, Sink.accept, accept_eq]
  cases s.outcome d <;> rfl

theorem open?_eq_some_iff {granted : Bool} : s.open? name granted = some bytes ↔
    granted = true ∧ s.entries.get? name ≠ some .directory ∧ s.contents name = bytes := by
  rw [open?, contents]
  cases granted with
  | false => simp
  | true =>
      rcases s.entries.get? name with _ | bytes' | _ <;> simp

/-! ### One stream apart from the others -/

theorem streamFile_injective {stream stream' : Stream} (h : streamFile stream = streamFile stream') :
    stream = stream' := by
  have hname : stream.name = stream'.name := by
    have hlist := congrArg String.toList h
    rw [streamFile, streamFile, String.toList_append, String.toList_append] at hlist
    exact String.toList_inj.mp (List.append_cancel_right hlist)
  cases stream <;> cases stream' <;> first | rfl | exact absurd hname (by decide)

theorem owns_file (d : Delivery) : d.stream.Owns d.file := by
  rw [Stream.Owns, Delivery.file]
  split
  · exact ⟨_, rfl⟩
  · rfl

/-- No two streams have a file in common. -/
theorem eq_of_owns {stream' : Stream} (h : stream.Owns name) (h' : stream'.Owns name) :
    stream = stream' := by
  rw [Stream.Owns] at h h'
  split at h <;> split at h'
  · rename_i hs hs'
    rw [hs, hs']
  · obtain ⟨n, rfl⟩ := h
    exact absurd h' (photoFile_ne_streamFile n stream')
  · obtain ⟨n, rfl⟩ := h'
    exact absurd h (photoFile_ne_streamFile n stream)
  · exact streamFile_injective (h.symm.trans h')

/-- The storages have the same of a stream: its files, and whether its file stands open. -/
structure Alike (s t : Storage) (stream : Stream) : Prop where
  opened : stream ∈ s.opened ↔ stream ∈ t.opened
  files : ∀ name, stream.Owns name → s.entries.get? name = t.entries.get? name

theorem Alike.refl (s : Storage) (stream : Stream) : s.Alike s stream := ⟨.rfl, fun _ _ => rfl⟩

theorem Alike.trans {u : Storage} (h : s.Alike t stream) (h' : t.Alike u stream) :
    s.Alike u stream :=
  ⟨h.opened.trans h'.opened, fun name hname => (h.files name hname).trans (h'.files name hname)⟩

theorem Alike.outcome (h : s.Alike t d.stream) : s.outcome d = t.outcome d := by
  have hopen (granted : Bool) : s.open? d.file granted = t.open? d.file granted := by
    rw [open?, open?, h.files d.file (owns_file d)]
  simp only [Storage.outcome, hopen, h.opened]

theorem Alike.put (h : s.Alike t d.stream) (bytes : List UInt8) :
    (s.put d bytes).Alike (t.put d bytes) d.stream where
  opened := by
    simp only [Storage.put]
    split
    · exact h.opened
    · simp
  files name hname := by
    simp only [Storage.put, Table.get?_insert]
    split
    · rfl
    · exact h.files name hname

/-- A delivery depends on its own stream only. -/
theorem Alike.meet (h : s.Alike t d.stream) :
    (s.meet d).Alike (t.meet d) d.stream ∧ s.answer d = t.answer d := by
  rw [meet_eq, meet_eq, answer_eq, answer_eq, h.outcome]
  refine ⟨?_, rfl⟩
  cases t.outcome d with
  | skipped | refused => exact h
  | stored bytes => exact h.put bytes

/-- It changes its own stream only. -/
theorem alike_meet_of_ne (h : d.stream ≠ stream) : (s.meet d).Alike s stream := by
  rw [meet_eq]
  cases s.outcome d with
  | skipped | refused => exact .refl s stream
  | stored bytes =>
      constructor
      · simp only [put]
        split
        · rfl
        · simp [h.symm]
      · intro name hname
        exact Table.get?_insert_of_ne _ _ fun he => h (eq_of_owns (he ▸ owns_file d) hname)

theorem Alike.after (h : s.Alike t stream) (ds : List Delivery) :
    (s.after ds).Alike (t.after (ds.filter (·.stream = stream))) stream ∧
      s.answersOf stream ds = t.answersOf stream (ds.filter (·.stream = stream)) := by
  induction ds generalizing s t with
  | nil => exact ⟨h, rfl⟩
  | cons d ds ih =>
      by_cases hd : d.stream = stream
      · subst hd
        obtain ⟨hmeet, hanswer⟩ := h.meet
        rw [List.filter_cons_of_pos (by simp), answersOf, answersOf, hanswer, (ih hmeet).2]
        exact ⟨(ih hmeet).1, rfl⟩
      · rw [List.filter_cons_of_neg (by simpa using hd), answersOf, if_neg hd]
        exact ih ((alike_meet_of_ne hd).trans h)

/-! ### What a stream leaves in its file -/

/-- Does a stream that waits begin with this delivery? It is a key frame whose file is opened. -/
def begins (s : Storage) (d : Delivery) : Bool :=
  d.unit.isKey && (s.open? (streamFile d.stream) d.granted).isSome

/-- The deliveries of a stream from its first key frame on whose file is opened. -/
def footage (s : Storage) (stream : Stream) (ds : List Delivery) : List Delivery :=
  (ds.filter (·.stream = stream)).dropWhile fun d => !s.begins d

/-- The deliveries of a stream before that. -/
def missed (s : Storage) (stream : Stream) (ds : List Delivery) : List Delivery :=
  (ds.filter (·.stream = stream)).takeWhile fun d => !s.begins d

/-- The stream's file stands open and holds these bytes. -/
structure Holds (s : Storage) (stream : Stream) (bytes : List UInt8) : Prop where
  opened : stream ∈ s.opened
  file : s.entries.get? (streamFile stream) = some (.file bytes)

theorem holds_put (hd : d.stream ≠ .photo) : (s.put d bytes).Holds d.stream bytes where
  opened := by simp [put, hd]
  file := by rw [put, Delivery.file_eq hd, Table.get?_insert_self]

theorem Holds.outcome (h : s.Holds d.stream bytes) (hd : d.stream ≠ .photo) :
    s.outcome d = .stored (bytes ++ d.unit.payload) := by
  simp [Storage.outcome, hd, h.opened, Delivery.file_eq hd, open?, h.file]

theorem outcome_of_begins (hd : d.stream ≠ .photo) (hwaits : d.stream ∉ s.opened)
    (h : s.begins d = true) :
    s.outcome d = .stored (s.contents (streamFile d.stream) ++ d.unit.payload) := by
  obtain ⟨hkey, hopen⟩ := Bool.and_eq_true_iff.mp h
  obtain ⟨bytes, hopen⟩ := Option.isSome_iff_exists.mp hopen
  have hbytes := (open?_eq_some_iff.mp hopen).2.2
  simp [Storage.outcome, hd, hwaits, hkey, Delivery.file_eq hd, hopen, hbytes]

theorem outcome_of_not_begins (hd : d.stream ≠ .photo) (hwaits : d.stream ∉ s.opened)
    (h : s.begins d = false) :
    s.outcome d = if d.unit.isKey then .refused else .skipped := by
  cases hkey : d.unit.isKey with
  | false => simp [Storage.outcome, hd, hwaits, hkey]
  | true =>
      have hopen : s.open? (streamFile d.stream) d.granted = none := by
        simpa [begins, hkey] using h
      simp [Storage.outcome, hd, hwaits, hkey, Delivery.file_eq hd, hopen]

/-- An open file takes every further unit. -/
theorem Holds.after (h : s.Holds stream bytes) (hstream : stream ≠ .photo)
    (hds : ∀ d ∈ ds, d.stream = stream) :
    (s.after ds).Holds stream (bytes ++ ds.flatMap (·.unit.payload)) ∧
      s.answersOf stream ds = ds.map fun _ => .ok () := by
  induction ds generalizing s bytes with
  | nil => simpa [Storage.after, answersOf] using h
  | cons d ds ih =>
      obtain rfl := hds d (.head _)
      have houtcome := h.outcome hstream
      have hmeet : (s.meet d).Holds d.stream (bytes ++ d.unit.payload) := by
        rw [meet_eq, houtcome]
        exact holds_put hstream
      obtain ⟨hafter, hanswers⟩ := ih hmeet fun d' hd' => hds d' (.tail _ hd')
      rw [answersOf, hanswers, answer_eq, houtcome, List.flatMap_cons, ← List.append_assoc]
      exact ⟨hafter, by simp⟩

/-- A stream that waits misses what is delivered, up to the key frame it begins with. -/
theorem after_of_waits (hwaits : stream ∉ s.opened) (hstream : stream ≠ .photo)
    (hds : ∀ d ∈ ds, d.stream = stream) :
    ((s.after ds).entries.get? (streamFile stream) =
      if (ds.dropWhile fun d => !s.begins d) = [] then s.entries.get? (streamFile stream)
      else some (.file (s.contents (streamFile stream) ++
        (ds.dropWhile fun d => !s.begins d).flatMap (·.unit.payload)))) ∧
    s.answersOf stream ds =
      ((ds.takeWhile fun d => !s.begins d).map fun d =>
        if d.unit.isKey then .error .io else .ok ()) ++
      (ds.dropWhile fun d => !s.begins d).map fun _ => .ok () := by
  induction ds with
  | nil => exact ⟨rfl, rfl⟩
  | cons d ds ih =>
      obtain rfl := hds d (.head _)
      have hrest : ∀ d' ∈ ds, d'.stream = d.stream := fun d' hd' => hds d' (.tail _ hd')
      cases hbegins : s.begins d with
      | true =>
          have houtcome := outcome_of_begins hstream hwaits hbegins
          have hmeet : (s.meet d).Holds d.stream
              (s.contents (streamFile d.stream) ++ d.unit.payload) := by
            rw [meet_eq, houtcome]
            exact holds_put hstream
          obtain ⟨hafter, hanswers⟩ := hmeet.after hstream hrest
          rw [List.dropWhile_cons_of_neg (by simp [hbegins]),
            List.takeWhile_cons_of_neg (by simp [hbegins]), if_neg (by simp), List.flatMap_cons,
            ← List.append_assoc, answersOf, hanswers, answer_eq, houtcome]
          exact ⟨hafter.file, by simp⟩
      | false =>
          have houtcome := outcome_of_not_begins hstream hwaits hbegins
          have hmeet : s.meet d = s := by
            rw [meet_eq, houtcome]
            cases d.unit.isKey <;> rfl
          have hanswer : s.answer d = if d.unit.isKey then .error .io else .ok () := by
            rw [answer_eq, houtcome]
            cases d.unit.isKey <;> rfl
          rw [List.dropWhile_cons_of_pos (by simp [hbegins]),
            List.takeWhile_cons_of_pos (by simp [hbegins]), answersOf, hmeet, hanswer,
            if_pos rfl, List.map_cons, List.singleton_append, List.cons_append, (ih hrest).2]
          refine ⟨?_, rfl⟩
          have hafter : s.after (d :: ds) = s.after ds := congrArg (·.after ds) hmeet
          rw [hafter]
          exact (ih hrest).1

theorem isKey_of_head_footage (h : (s.footage stream ds).head? = some d) : d.unit.isKey = true := by
  have hbegins := List.head?_dropWhile_not (fun d => !s.begins d) (ds.filter (·.stream = stream))
  rw [footage] at h
  rw [h] at hbegins
  have hbegins' : s.begins d = true := by simpa using hbegins
  exact (Bool.and_eq_true_iff.mp hbegins').1

/-- Whatever lies in the directory at first, and whatever is delivered to it while the system
refuses now and then to open a file: the file of a stream holds what was in it and then the units of
the stream from the first key frame on whose file was opened, and nothing is written before. What is
delivered earlier is passed over, or answered by a fault where it is a key frame. Files and answers
of a stream are the same without the deliveries of the others. -/
theorem after_stores (entries : Table String StorageEntry) (ds : List Delivery) :
    let s : Storage := { entries }
    (∀ stream, stream ≠ .photo →
      ((s.after ds).entries.get? (streamFile stream) =
        if s.footage stream ds = [] then entries.get? (streamFile stream)
        else some (.file (s.contents (streamFile stream) ++
          (s.footage stream ds).flatMap (·.unit.payload)))) ∧
      s.answersOf stream ds =
        ((s.missed stream ds).map fun d => if d.unit.isKey then .error .io else .ok ()) ++
          (s.footage stream ds).map (fun _ => .ok ()) ∧
      ∀ d, (s.footage stream ds).head? = some d → d.unit.isKey = true) ∧
    ∀ stream, s.answersOf stream ds = s.answersOf stream (ds.filter (·.stream = stream)) ∧
      ∀ name, stream.Owns name → (s.after ds).entries.get? name =
        (s.after (ds.filter (·.stream = stream))).entries.get? name := by
  intro s
  refine ⟨fun stream hstream => ?_, fun stream => ?_⟩
  · obtain ⟨halike, hanswers⟩ := (Alike.refl s stream).after ds
    have howns : stream.Owns (streamFile stream) := by rw [Stream.Owns, if_neg hstream]
    have hown : ∀ d ∈ ds.filter (·.stream = stream), d.stream = stream := fun d hd => by
      simpa using (List.mem_filter.mp hd).2
    obtain ⟨hfile, hown_answers⟩ := after_of_waits (s := s) List.not_mem_nil hstream hown
    rw [halike.files _ howns, hanswers]
    exact ⟨hfile, hown_answers, fun d => isKey_of_head_footage⟩
  · obtain ⟨halike, hanswers⟩ := (Alike.refl s stream).after ds
    exact ⟨hanswers, halike.files⟩

/-- Two streams and a photo by turns. The main stream's first key frame is refused its file. -/
def interleaved : List Delivery :=
  let unit (sequence : Nat) (kind : UnitKind) : MediaUnit :=
    ⟨⟨.venc, 0⟩, sequence, 0, kind, 0, MediaUnit.pattern sequence 2⟩
  [⟨.main, unit 0 .keyFrame, false⟩, ⟨.sub, unit 1 .keyFrame, true⟩,
    ⟨.main, unit 2 .deltaFrame, true⟩, ⟨.photo, unit 3 .jpeg, true⟩, ⟨.rawTap, unit 4 .raw, true⟩,
    ⟨.main, unit 5 .keyFrame, true⟩, ⟨.sub, unit 6 .deltaFrame, true⟩,
    ⟨.main, unit 7 .deltaFrame, false⟩]

/-- The main stream begins behind what was in its file, with its second key frame. -/
theorem after_stores_interleaved :
    let s : Storage := { entries := .ofList [(streamFile .main, .file [9])] }
    Stream.main ≠ .photo ∧
    (s.after interleaved).entries.get? (streamFile .main) = some (.file [9, 5, 5, 7, 7]) ∧
    s.answersOf .main interleaved = [.error .io, .ok (), .ok (), .ok ()] := by
  have hstream : Stream.main ≠ .photo := by decide
  obtain ⟨hstores, -⟩ := after_stores (.ofList [(streamFile .main, .file [9])]) interleaved
  obtain ⟨hfile, hanswers, -⟩ := hstores .main hstream
  exact ⟨hstream, hfile.trans (by decide +kernel), hanswers.trans (by decide +kernel)⟩

end Storage
end CameraPipeline
