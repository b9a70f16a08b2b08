import CameraPipeline.Proofs.Server.Run

/-!
The log of a server as an account of it. Reading the recorded calls from an empty account gives the
live channels, whether they are enabled, how much they receive, and the links. A call that is
carried out adds its own record, and one that is refused adds nothing but the attempt of a fetch
and changes nothing else, the failures to be injected apart.
-/

namespace CameraPipeline

/-- What the log tells of a live channel. -/
structure ChannelStatus where
  enabled : Bool := false
  receiving : Option Quota := none
  deriving DecidableEq

def Channel.status (c : Channel) : ChannelStatus := ⟨c.enabled, c.receiving⟩

/-- What the log tells of a server. -/
@[ext] structure Account where
  channels : Table Handle ChannelStatus := .empty
  links : Table Link PUnit.{1} := .empty
  deriving DecidableEq

namespace Account

def update (a : Account) (h : Handle) (f : ChannelStatus → ChannelStatus) : Account :=
  match a.channels.get? h with
  | some c => { a with channels := a.channels.insert h (f c) }
  | none => a

/-- Enters one recorded call. -/
def enter (a : Account) : Call → Account
  | .create h => { a with channels := a.channels.insert h {} }
  | .enable h => a.update h fun c => { c with enabled := true }
  | .disable h => a.update h fun c => { c with enabled := false }
  | .bind l => { a with links := a.links.insert l ⟨⟩ }
  | .unbind l => { a with links := a.links.erase l }
  | .startReceiving h quota => a.update h fun c => { c with receiving := some quota }
  | .stopReceiving h => a.update h fun c => { c with receiving := none }
  | .destroy h => { a with channels := a.channels.erase h }
  | .setAttr _ | .fetch _ | .release _ | .submit _ => a

/-- Reads a log from the account of an empty server. -/
def replay (log : List Call) : Account := log.foldl enter {}

theorem update_id (a : Account) (h : Handle) : a.update h id = a := by
  simp only [update]
  split
  · rename_i c hc
    ext1
    · refine Table.ext_get? fun k => ?_
      by_cases hk : k = h <;> simp [Table.get?_insert, hk, hc]
    · rfl
  · rfl

end Account

namespace Server

def account (s : Server) : Account := ⟨s.channels.map Channel.status, s.links⟩

/-- Of a server only its log and the failures to be injected differ, the log by `attempt`. -/
def Spared (s : Server) (attempt : List Call) (t : Server) : Prop :=
  t = { s with log := s.log ++ attempt, failures := t.failures }

variable {s t : Server} {h : Handle} {r : Request} {fault : Fault}

theorem Alike.account (ht : s.Alike t) : t.account = s.account := by
  rw [Server.account, ht.channels, ht.links, Server.account]

theorem account_update (s : Server) (h : Handle) {f : Channel → Channel}
    {g : ChannelStatus → ChannelStatus} (hf : ∀ c, (f c).status = g c.status) :
    (s.update h f).account = s.account.update h g := by
  have hget : s.account.channels.get? h = (s.channels.get? h).map Channel.status :=
    Table.get?_map _ _ _
  cases hc : s.channels.get? h with
  | none =>
      rw [hc] at hget
      simp only [update, hc, Account.update, hget, Option.map_none]
  | some c =>
      rw [hc] at hget
      simp only [update, hc, Account.update, hget, Option.map_some, ← hf]
      exact congrArg (Account.mk · s.links) (Table.map_insert _ _ _ _)

theorem account_update_of_status (s : Server) (h : Handle) {f : Channel → Channel}
    (hf : ∀ c, (f c).status = c.status) : (s.update h f).account = s.account :=
  (account_update s h (g := id) hf).trans (Account.update_id _ _)

/-- What a request changes is what its record says. -/
theorem account_carryOut (s : Server) (h : Handle) (r : Request) :
    (s.carryOut h r).account = s.account.enter (r.call h) := by
  cases r with
  | create => exact congrArg (Account.mk · s.links) (Table.map_insert _ _ _ _)
  | destroy => exact congrArg (Account.mk · s.links) (Table.map_erase _ _ _)
  | enable | disable | startReceiving | stopReceiving =>
      exact account_update s h fun _ => rfl
  | setAttr _ attr => exact account_update_of_status s h fun _ => rfl
  | release _ slot => exact account_update_of_status s h fun _ => rfl
  | bind | unbind | submit => rfl

theorem perform_ok (ho : (s.perform r).1 = .ok h) :
    (s.perform r).2.log = s.log ++ [r.call h] ∧
      (s.perform r).2.account = s.account.enter (r.call h) := by
  cases perform_cases s r with
  | inl hcase =>
      obtain ⟨fault, hf⟩ := hcase
      rw [hf] at ho
      cases ho
  | inr hcase =>
      obtain ⟨k, hp, hf⟩ := hcase
      rw [hf] at ho ⊢
      cases ho
      rw [carryOut_strike]
      exact ⟨congrArg (· ++ [_]) (log_carryOut s h r), account_carryOut s h r⟩

theorem perform_error (he : (s.perform r).1 = .error fault) : s.Spared [] (s.perform r).2 := by
  cases perform_cases s r with
  | inl hcase =>
      obtain ⟨fault, hf⟩ := hcase
      rw [hf, Spared, List.append_nil]
      rfl
  | inr hcase =>
      obtain ⟨k, hp, hf⟩ := hcase
      rw [hf] at he
      cases he

theorem probe_spared (s : Server) (h : Handle) : s.Spared [.fetch h] (s.probe h).2 := by
  simp only [probe]
  split
  · rfl
  · split <;> rfl

theorem log_produce (s : Server) (h : Handle) : (s.produce h).2.log = s.log := by
  simp only [produce]
  split
  · rfl
  · split <;> rfl

theorem account_produce (s : Server) (h : Handle) : (s.produce h).2.account = s.account := by
  simp only [produce]
  split
  · rfl
  · rename_i c hc
    split
    · have hu := account_update_of_status s h (f := fun c => { c with
        produced := c.produced + 1
        nextSlot := c.nextSlot + 1
        outstanding := c.outstanding.insert c.nextSlot }) fun _ => rfl
      simpa only [update, hc] using hu
    · rfl

/-- A fetch is refused at its first look only. -/
theorem fetch_error (he : (s.fetch h).1 = .error fault) :
    s.Spared [.fetch h] (s.fetch h).2 := by
  have hp := probe_spared s h
  simp only [fetch] at he ⊢
  split at he
  · rename_i t ht
    rw [ht] at hp
    exact hp
  · cases he
  · cases he

/-- What an event adds to the log accounts for what it changes. -/
theorem account_meet (s : Server) {e : ServerEvent} (he : e ≠ .clearLog) :
    ∃ calls, (s.meet e).log = s.log ++ calls ∧
      (s.meet e).account = calls.foldl Account.enter s.account := by
  have hperform (r : Request) : ∃ calls, (s.perform r).2.log = s.log ++ calls ∧
      (s.perform r).2.account = calls.foldl Account.enter s.account := by
    cases ha : (s.perform r).1 with
    | ok h => exact ⟨[r.call h], perform_ok ha⟩
    | error fault =>
        refine ⟨[], ?_, ?_⟩
        · rw [perform_error ha]
        · rw [perform_error ha]
          rfl
  cases e with
  | ask r => exact hperform r
  | giveBack h u => exact hperform (.release h u.slot)
  | probe h =>
      refine ⟨[.fetch h], ?_, ?_⟩
      · exact congrArg log (probe_spared s h)
      · exact (probe_alike s h).account
  | produce h =>
      exact ⟨[], by rw [List.append_nil]; exact log_produce s h, account_produce s h⟩
  | inject rule => exact ⟨[], (List.append_nil _).symm, rfl⟩
  | clearLog => exact absurd rfl he

theorem account_after (s : Server) {events : List ServerEvent} (hkept : .clearLog ∉ events) :
    ∃ calls, (s.after events).log = s.log ++ calls ∧
      (s.after events).account = calls.foldl Account.enter s.account := by
  induction events generalizing s with
  | nil => exact ⟨[], (List.append_nil _).symm, rfl⟩
  | cons e events ih =>
      obtain ⟨hne, hkept⟩ := not_or.mp (mt List.mem_cons.mpr hkept)
      obtain ⟨first, hlog, haccount⟩ := account_meet s (Ne.symm hne)
      obtain ⟨rest, hlog', haccount'⟩ := ih (s.meet e) hkept
      refine ⟨first ++ rest, ?_, ?_⟩
      · rw [after_cons, hlog', hlog, List.append_assoc]
      · rw [after_cons, haccount', haccount, List.foldl_append]

/-- After every run in which the log is not cleared, it accounts for the server: read from the
start it gives the channels and links, what is carried out adds its own record, and what is refused
leaves the server as it was, but for the attempt of a fetch. -/
theorem after_accounted (payloadSize : Nat) {events : List ServerEvent}
    (hkept : .clearLog ∉ events) :
    let s := (fresh payloadSize).after events
    Account.replay s.log = s.account ∧
      (∀ r h, (s.perform r).1 = .ok h → (s.perform r).2.log = s.log ++ [r.call h]) ∧
      (∀ r fault, (s.perform r).1 = .error fault → s.Spared [] (s.perform r).2) ∧
      (∀ h fault, (s.probe h).1 = .error fault → s.Spared [.fetch h] (s.probe h).2) ∧
      ∀ h fault, (s.fetch h).1 = .error fault → s.Spared [.fetch h] (s.fetch h).2 := by
  intro s
  refine ⟨?_, fun r h ho => (perform_ok ho).1, fun r fault he => perform_error he,
    fun h fault _ => probe_spared s h, fun h fault he => fetch_error he⟩
  obtain ⟨calls, hlog, haccount⟩ := account_after (fresh payloadSize) hkept
  have hlog : s.log = calls := hlog
  rw [hlog]
  exact haccount.symm

/-- A camera feeds an encoder, which gives a unit. The creation of a second encoder fails, the bound
camera cannot be disabled, and the unit goes back. -/
def filming : List ServerEvent :=
  let encoder : ChannelAttr := .venc ⟨⟨1280, 720⟩, .h264, 4000, 60, 30, 30, 4, false⟩
  [.create .vi (.vi ⟨⟨1280, 720⟩, 30, .nv12, 4, false⟩), .enable ⟨.vi, 0⟩,
    .create .venc encoder, .enable ⟨.venc, 0⟩, .bind ⟨⟨.vi, 0⟩, ⟨.venc, 0⟩⟩,
    .startReceiving ⟨.venc, 0⟩ (.count 5), .inject ⟨.create, some .venc, 1, Nat.one_pos⟩,
    .create .venc encoder, .probe ⟨.venc, 0⟩, .produce ⟨.venc, 0⟩, .disable ⟨.vi, 0⟩,
    .giveBack ⟨.venc, 0⟩ (.produce ⟨.venc, 0⟩ encoder 0 0 4)]

theorem after_accounted_filming :
    let s := (fresh 4).after filming
    .clearLog ∉ filming ∧ Account.replay s.log = s.account ∧
      s.account.channels.entries =
        [(⟨.vi, 0⟩, ⟨true, none⟩), (⟨.venc, 0⟩, ⟨true, some (.count 5)⟩)] ∧
      s.account.links.keys = [⟨⟨.vi, 0⟩, ⟨.venc, 0⟩⟩] ∧
      s.Spared [] (s.perform (.destroy ⟨.venc, 0⟩)).2 ∧
      s.Spared [.fetch ⟨.jpeg, 0⟩] (s.fetch ⟨.jpeg, 0⟩).2 := by
  intro s
  have hkept : .clearLog ∉ filming := by simp [filming]
  obtain ⟨hreplay, -, hrefused, -, hfetch⟩ := after_accounted 4 hkept
  exact ⟨hkept, hreplay, by decide, by decide,
    hrefused (.destroy ⟨.venc, 0⟩) (.busy ⟨.venc, 0⟩) rfl,
    hfetch ⟨.jpeg, 0⟩ (.notFound ⟨.jpeg, 0⟩) rfl⟩

end Server
end CameraPipeline
