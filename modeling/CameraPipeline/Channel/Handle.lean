import CameraPipeline.Table
import CameraPipeline.Text.Numeral

/-!
Channel kinds, handles and links, in the order in which they are listed: handles by kind and
number, links by source and target.
-/

namespace CameraPipeline

/-- The channel families of the media server. -/
inductive ChannelKind where
  | vi | gdc | vpss | venc | jpeg | rgn | vo | vdec | ai | ao | adec | aenc
  deriving DecidableEq, Repr

namespace ChannelKind

def name : ChannelKind → String
  | vi => "VI"
  | gdc => "GDC"
  | vpss => "VPSS"
  | venc => "VENC"
  | jpeg => "JPEG"
  | rgn => "RGN"
  | vo => "VO"
  | vdec => "VDEC"
  | ai => "AI"
  | ao => "AO"
  | adec => "ADEC"
  | aenc => "AENC"

def all : List ChannelKind := [vi, gdc, vpss, venc, jpeg, rgn, vo, vdec, ai, ao, adec, aenc]

/-- The place of a kind in listings. -/
def rank : ChannelKind → Nat
  | vi => 0
  | gdc => 1
  | vpss => 2
  | venc => 3
  | jpeg => 4
  | rgn => 5
  | vo => 6
  | vdec => 7
  | ai => 8
  | ao => 9
  | adec => 10
  | aenc => 11

theorem eq_of_rank_eq {a b : ChannelKind} (h : a.rank = b.rank) : a = b := by
  cases a <;> cases b <;> first | rfl | cases h

end ChannelKind

structure Handle where
  kind : ChannelKind
  id : Nat
  deriving DecidableEq, Repr

namespace Handle

def text (h : Handle) : String := h.kind.name ++ "[" ++ Text.ofNat h.id ++ "]"

def ofText? (s : String) : Option Handle := do
  let cs := s.toList
  let kind ← ChannelKind.all.find? (·.name.toList == cs.takeWhile (· != '['))
  match (cs.dropWhile (· != '[')).drop 1 |>.reverse with
  | ']' :: id => return ⟨kind, ← Text.digits? id.reverse⟩
  | _ => none

instance : LT Handle where
  lt a b := a.kind.rank < b.kind.rank ∨ a.kind.rank = b.kind.rank ∧ a.id < b.id

instance : DecidableLT Handle := fun a b =>
  inferInstanceAs
    (Decidable (a.kind.rank < b.kind.rank ∨ a.kind.rank = b.kind.rank ∧ a.id < b.id))

theorem lt_def {a b : Handle} :
    a < b ↔ a.kind.rank < b.kind.rank ∨ a.kind.rank = b.kind.rank ∧ a.id < b.id := Iff.rfl

instance : KeyOrder Handle where
  irrefl a h := by rw [lt_def] at h; omega
  trans h h' := by rw [lt_def] at *; omega
  eq_of_not_lt {a b} h h' := by
    rw [lt_def] at h h'
    have hk : a.kind = b.kind := ChannelKind.eq_of_rank_eq (by omega)
    have hi : a.id = b.id := by rw [hk] at h h'; omega
    cases a; cases b; simp_all

end Handle

/-- A bind from one channel to another. -/
structure Link where
  source : Handle
  target : Handle
  deriving DecidableEq, Repr

namespace Link

def text (l : Link) : String := l.source.text ++ " -> " ++ l.target.text

def touches (l : Link) (h : Handle) : Bool := l.source == h || l.target == h

instance : LT Link where
  lt a b := a.source < b.source ∨ a.source = b.source ∧ a.target < b.target

instance : DecidableLT Link := fun a b =>
  inferInstanceAs (Decidable (a.source < b.source ∨ a.source = b.source ∧ a.target < b.target))

theorem lt_def {a b : Link} :
    a < b ↔ a.source < b.source ∨ a.source = b.source ∧ a.target < b.target := Iff.rfl

instance : KeyOrder Link where
  irrefl a h := by
    cases lt_def.1 h with
    | inl h => exact KeyOrder.irrefl _ h
    | inr h => exact KeyOrder.irrefl _ h.2
  trans {a b c} h h' := by
    rw [lt_def] at *
    obtain h | ⟨h, i⟩ := h <;> obtain h' | ⟨h', i'⟩ := h'
    · exact .inl (KeyOrder.trans h h')
    · exact .inl (h' ▸ h)
    · exact .inl (h ▸ h')
    · exact .inr ⟨h.trans h', KeyOrder.trans i i'⟩
  eq_of_not_lt {a b} h h' := by
    rw [lt_def, not_or] at h h'
    have hs : a.source = b.source := KeyOrder.eq_of_not_lt h.1 h'.1
    have ht : a.target = b.target :=
      KeyOrder.eq_of_not_lt (fun i => h.2 ⟨hs, i⟩) (fun i => h'.2 ⟨hs.symm, i⟩)
    cases a; cases b; simp_all

end Link
end CameraPipeline
