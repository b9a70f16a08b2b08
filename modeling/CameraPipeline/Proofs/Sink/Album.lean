import Mathlib.Data.List.Nodup
import CameraPipeline.Sink.Storage

/-!
The photos in a storage directory. A photo goes by its number, and every session counts from
nought, so what is there are the photos of the longest session so far.
-/

namespace CameraPipeline

/-- The unit is one of the first `m` photos of a session with payloads of `size` bytes. -/
structure MediaUnit.Among (u : MediaUnit) (size m : Nat) : Prop where
  lt : u.sequence < m
  payload : u.payload = pattern u.sequence size

theorem MediaUnit.Among.mono {u : MediaUnit} {size m m' : Nat} (h : u.Among size m)
    (hm : m ≤ m') : u.Among size m' :=
  ⟨Nat.lt_of_lt_of_le h.lt hm, h.payload⟩

namespace Storage

open MediaUnit

variable {s s' : Storage} {size m : Nat} {u : MediaUnit}

theorem toList_photoFile (n : Nat) :
    (photoFile n).toList =
      "photo_".toList ++ (List.replicate (4 - (Text.ofNat n).length) '0' ++
        (Nat.toDigits 10 n ++ ".jpg".toList)) := by
  simp [photoFile, Text.padLeft, Text.ofNat, String.toList_append]

/-- Different photos have different names, however many digits their numbers have. -/
theorem photoFile_injective {m n : Nat} (h : photoFile m = photoFile n) : m = n := by
  have hl := congrArg String.toList h
  rw [toList_photoFile, toList_photoFile] at hl
  have hl := List.append_cancel_left hl
  rw [← List.append_assoc, ← List.append_assoc] at hl
  have hd := congrArg (fun ds => Nat.ofDigitChars 10 ds 0) (List.append_cancel_right hl)
  simpa [Nat.ofDigitChars_append] using hd

/-- Does the name say that the file is a photo? -/
def isPhoto (name : String) : Bool := name.toList.take 6 == "photo_".toList

theorem isPhoto_photoFile (n : Nat) : isPhoto (photoFile n) := by
  rw [isPhoto, toList_photoFile]
  rfl

theorem isPhoto_streamFile (stream : Stream) : isPhoto (streamFile stream) = false := by
  cases stream <;> decide +kernel

theorem photoFile_ne_streamFile (n : Nat) (stream : Stream) :
    photoFile n ≠ streamFile stream := by
  intro h
  have hp := isPhoto_photoFile n
  rw [h, isPhoto_streamFile] at hp
  cases hp

/-- The names of the photos in the directory. -/
def photos (s : Storage) : List String := s.entries.keys.filter isPhoto

/-- The directory holds the first `m` photos of a session with payloads of `size` bytes, and
besides them only streams. -/
structure Shows (s : Storage) (size m : Nat) : Prop where
  photo : ∀ i < m, s.entries.get? (photoFile i) = some (.file (pattern i size))
  only : ∀ name entry, s.entries.get? name = some entry →
    (∃ bytes, entry = .file bytes) ∧
      ((∃ i < m, name = photoFile i) ∨ ∃ stream, name = streamFile stream)

theorem shows_empty (size : Nat) : Shows {} size 0 where
  photo _ hi := absurd hi (Nat.not_lt_zero _)
  only _ _ he := nomatch he

namespace Shows

theorem open?_isSome (h : s.Shows size m) (name : String) : ∃ bytes, s.open? name = some bytes := by
  simp only [open?, if_true]
  split
  · rename_i he
    obtain ⟨_, hb⟩ := (h.only _ _ he).1
    cases hb
  · exact ⟨_, rfl⟩
  · exact ⟨_, rfl⟩

/-- The next photo of a session is added; one that was there already is written anew. -/
theorem accept_photo (h : s.Shows size m) (hn : u.sequence ≤ m)
    (hu : u.payload = pattern u.sequence size) :
    ∃ s', s.accept .photo u = some s' ∧ s'.Shows size (max m (u.sequence + 1)) := by
  obtain ⟨bytes, ho⟩ := h.open?_isSome (photoFile u.sequence)
  refine ⟨s.write (photoFile u.sequence) u.payload, by simp [accept, storePhoto, ho], ?_, ?_⟩
  · intro i hi
    rw [write, Table.get?_insert]
    split
    · rename_i he
      rw [photoFile_injective he, hu]
    · rename_i hne
      have hi : i ≠ u.sequence := fun he => hne (he ▸ rfl)
      exact h.photo i (by omega)
  · intro name entry he
    rw [write, Table.get?_insert] at he
    split at he
    · cases he
      exact ⟨⟨_, rfl⟩, .inl ⟨u.sequence, by omega, ‹_›⟩⟩
    · obtain ⟨hfile, hname⟩ := h.only name entry he
      refine ⟨hfile, hname.imp_left ?_⟩
      intro hex
      obtain ⟨i, hi, hname⟩ := hex
      exact ⟨i, by omega, hname⟩

theorem accept_stream (h : s.Shows size m) {stream : Stream} (hs : stream ≠ .photo)
    (ha : s.accept stream u = some s') : s'.Shows size m := by
  simp only [accept, if_neg hs, append] at ha
  split at ha
  · obtain ⟨bytes, _, rfl⟩ := Option.map_eq_some_iff.mp ha
    constructor
    · intro i hi
      simp only [write]
      rw [Table.get?_insert_of_ne _ _ (photoFile_ne_streamFile i stream)]
      exact h.photo i hi
    · intro name entry he
      simp only [write, Table.get?_insert] at he
      split at he
      · cases he
        exact ⟨⟨_, rfl⟩, .inr ⟨stream, ‹_›⟩⟩
      · exact h.only name entry he
  · cases ha
    exact h

theorem mem_photos (h : s.Shows size m) (name : String) :
    name ∈ s.photos ↔ name ∈ (List.range m).map photoFile := by
  simp only [photos, List.mem_filter, Table.mem_keys_iff, List.mem_map, List.mem_range]
  constructor
  · intro hex
    obtain ⟨hk, hp⟩ := hex
    obtain ⟨entry, he⟩ := Option.isSome_iff_exists.mp hk
    cases (h.only name entry he).2 with
    | inl hcase =>
        obtain ⟨i, hi, rfl⟩ := hcase
        exact ⟨i, hi, rfl⟩
    | inr hcase =>
        obtain ⟨stream, rfl⟩ := hcase
        rw [isPhoto_streamFile] at hp
        cases hp
  · intro hex
    obtain ⟨i, hi, rfl⟩ := hex
    exact ⟨by rw [h.photo i hi]; rfl, isPhoto_photoFile i⟩

/-- There are as many photos as the longest session took. -/
theorem length_photos (h : s.Shows size m) : s.photos.length = m := by
  have hperm : s.photos.Perm ((List.range m).map photoFile) :=
    (List.perm_ext_iff_of_nodup (s.entries.keys_nodup.filter _)
      (List.nodup_range.map fun _ _ => photoFile_injective)).mpr
      h.mem_photos
  simpa using hperm.length_eq

end Shows
end Storage
end CameraPipeline
