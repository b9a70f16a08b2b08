import CameraPipeline.Proofs.Plant.Climb
import CameraPipeline.Proofs.Plant.Unwind

/-!
What there is, some step undoes. However the server answers, construction steps keep every live
channel and every link covered by the stacks at hand, and steps that are undone without an error
take what they cover with them. Nothing is assumed about failures or about pumps that drain, so
what is left over has to show up as an error.
-/

namespace CameraPipeline

/-- Undoing the steps takes every channel and every link away, if none of them fails. -/
structure Covers (steps : List Undo) (c : Circuit) : Prop where
  live : ∀ h, c.Live h → .request (.destroy h) ∈ steps
  linked : ∀ l, c.linked l → .request (.unbind l) ∈ steps
  returns : ∀ r, .request r ∈ steps → r.operation.givesBack

namespace Covers

variable {steps steps' : List Undo} {c : Circuit} {h : Handle} {r : Request}

theorem nothing : Covers [] .empty where
  live _ hl := by cases hl
  linked _ hl := by cases hl
  returns _ hr := by cases hr

/-- Only the requests among the steps matter. -/
theorem of_requests (hc : Covers steps c)
    (hs : ∀ r, Undo.request r ∈ steps' ↔ .request r ∈ steps) : Covers steps' c where
  live h hl := (hs _).mpr (hc.live h hl)
  linked l hl := (hs _).mpr (hc.linked l hl)
  returns r hr := hc.returns r ((hs r).mp hr)

/-- What a construction step adds is covered by what undoes the step. -/
theorem asked (hc : Covers steps c) {inverse : Handle → Request} (pair : r.HasInverse inverse) :
    Covers (.request (inverse h) :: steps) (c.after h r) := by
  have hreturns : ∀ u, .request u ∈ Undo.request (inverse h) :: steps →
      u.operation.givesBack := by
    intro u hu
    cases List.mem_cons.mp hu with
    | inl heq =>
        cases heq
        exact pair.givesBack h
    | inr hu => exact hc.returns u hu
  cases pair with
  | create kind attr =>
      refine ⟨fun k hk => ?_, fun l hl => .tail _ (hc.linked l hl), hreturns⟩
      cases Circuit.live_set.mp hk with
      | inl heq => exact heq ▸ .head _
      | inr hk => exact .tail _ (hc.live k hk)
  | enable k | receive k quota =>
      refine ⟨fun k hk => ?_, fun l hl => .tail _ (hc.linked l hl), hreturns⟩
      exact .tail _ (hc.live k (Circuit.live_modify.mp hk))
  | bind l =>
      refine ⟨fun k hk => .tail _ (hc.live k hk), fun l' hl => ?_, hreturns⟩
      by_cases heq : l' = l
      · exact heq ▸ .head _
      · refine .tail _ (hc.linked l' ?_)
        simpa [Circuit.after, heq] using hl

/-- A step that was undone is not needed any more. -/
theorem undone {s : Server} (hc : Covers (.request r :: steps) c) (hp : s.permit r = .ok h) :
    Covers steps (c.after h r) := by
  have hr := hc.returns r (.head _)
  refine ⟨fun k hk => ?_, fun l hl => ?_, fun u hu => hc.returns u (.tail _ hu)⟩
  · cases Server.live_after hk with
    | inl hl =>
        cases List.mem_cons.mp (hc.live k hl) with
        | inl heq =>
            cases heq
            obtain rfl := Server.eq_of_permit hp rfl
            simp [Circuit.Live, Circuit.after] at hk
        | inr hm => exact hm
    | inr hcase =>
        obtain ⟨_, kind, attr, rfl⟩ := hcase
        cases hr
  · have hcl : c.linked l ∧ r ≠ .unbind l := by
      cases r with
      | bind l' => cases hr
      | unbind l' =>
          by_cases heq : l = l'
          · simp [Circuit.after, heq] at hl
          · exact ⟨by simpa [Circuit.after, heq] using hl, fun h => heq (by cases h; rfl)⟩
      | create | setAttr | startReceiving | release | enable | disable | stopReceiving | submit
      | destroy => exact ⟨hl, fun heq => by cases heq⟩
    cases List.mem_cons.mp (hc.linked l hcl.1) with
    | inl heq =>
        cases heq
        exact absurd rfl hcl.2
    | inr hm => exact hm

end Covers

/-- The stack of the site and the steps below it cover what there is. -/
def Site.Covered (below : List Undo) (site : Site) : Prop :=
  Covers (site.stack.steps ++ below) site.plant.server.circuit

namespace Site.Covered

open Plant

variable {below : List Undo} {site site' : Site}

theorem step (h : Step site site') (hc : site.Covered below) : site'.Covered below := by
  cases h with
  | asked pair ho =>
      rw [Site.Covered, (ask_ok ho).2]
      exact Covers.asked hc pair
  | refused _ ho =>
      rw [Site.Covered, ask_error ho]
      exact hc
  | started pump =>
      have hs := (settle_steps (site.plant.addPump pump).2 (site.plant.addPump pump).1).quiet
      have hq : (site.plant.addPump pump).2.server.circuit = site.plant.server.circuit := rfl
      have hcovers : Covers (site.stack.steps ++ below) _ := hc
      rw [Site.Covered, hs.circuit, hq]
      exact hcovers.of_requests fun r => by simp [Stack.push]

theorem climbs (hc : site.Covered below) (h : site.Climbs site') : site'.Covered below :=
  h.keeps (fun _ _ => step) hc

end Site.Covered

/-- A construction that succeeds covers what it adds by its stack. -/
theorem Construction.Climbs.covers {α : Type} {m : Construction α} (hm : Climbs m) {p q : Plant}
    {below : List Undo} (hc : Covers below p.server.circuit) {a : α} {s : Stack}
    (ho : p.construct m = (.ok (a, s), q)) : Covers (s.steps ++ below) q.server.circuit := by
  have h := hm.construct p
  rw [ho] at h
  have hstart : ({ plant := p } : Site).Covered below := hc
  exact hstart.climbs h

namespace Stack

open Plant

variable {p q : Plant} {below : List Undo}

theorem stopPumps_covers (s : Stack) (hc : Covers (s.steps ++ below) p.server.circuit) :
    Covers ((s.stopPumps p).2.1.steps ++ below) (s.stopPumps p).2.2.server.circuit := by
  have hs : (s.stopPumps p).2.2.server.circuit = p.server.circuit :=
    (stopEach_steps p s.steps).circuit
  rw [hs]
  exact hc.of_requests fun r => by simp [stopPumps, request_mem_stopEach]

theorem undoEach_covers {steps : List Undo} (hc : Covers (steps ++ below) p.server.circuit)
    (he : (undoEach p steps).1 = []) : Covers below (undoEach p steps).2.server.circuit := by
  induction steps generalizing p with
  | nil => exact hc
  | cons step older ih =>
      cases step with
      | pump id =>
          refine ih ?_ he
          rw [(dropPump_steps p id).circuit]
          exact hc.of_requests fun r => by simp
      | request r =>
          simp only [undoEach] at he ⊢
          split at he
          · rename_i ho
            obtain ⟨hp, hq⟩ := ask_ok ho
            exact ih (hq ▸ Covers.undone hc hp) he
          · cases he

/-- A stack that unwinds without an error leaves only what is covered below it. -/
theorem unwind_covers (s : Stack) (hc : Covers (s.steps ++ below) p.server.circuit)
    (he : (s.unwind p).1 = []) : Covers below (s.unwind p).2.server.circuit :=
  undoEach_covers (s.stopPumps_covers hc) (List.append_eq_nil_iff.mp he).2

end Stack
end CameraPipeline
