import CameraPipeline.Proofs.Server.Reachable

/-!
Runs of a server: its calls in any order, and failures injected at any time. The two looks of a
fetch are events of their own, so that other calls may come between them. A unit that is given back
is named itself and not only by its slot, so that a run tells which units are still out.
-/

namespace CameraPipeline

/-- What may happen to a server. -/
inductive ServerEvent where
  /-- Any request but the return of a unit. -/
  | ask (r : Request) (hr : r.operation ≠ .release)
  | giveBack (h : Handle) (u : MediaUnit)
  | probe (h : Handle)
  | produce (h : Handle)
  | inject (rule : FailureRule)
  | clearLog

namespace ServerEvent

@[simp] def create (kind : ChannelKind) (attr : ChannelAttr) : ServerEvent :=
  .ask (.create kind attr) (by simp [Request.operation])

@[simp] def setAttr (h : Handle) (attr : ChannelAttr) : ServerEvent :=
  .ask (.setAttr h attr) (by simp [Request.operation])

@[simp] def enable (h : Handle) : ServerEvent := .ask (.enable h) (by simp [Request.operation])

@[simp] def disable (h : Handle) : ServerEvent := .ask (.disable h) (by simp [Request.operation])

@[simp] def bind (l : Link) : ServerEvent := .ask (.bind l) (by simp [Request.operation])

@[simp] def startReceiving (h : Handle) (quota : Quota) : ServerEvent :=
  .ask (.startReceiving h quota) (by simp [Request.operation])

@[simp] def destroy (h : Handle) : ServerEvent := .ask (.destroy h) (by simp [Request.operation])

end ServerEvent

/-- What an event that was not in vain has done. -/
inductive ServerDeed where
  /-- The request was carried out on channel `h`. -/
  | did (r : Request) (h : Handle)
  | gave (u : MediaUnit)
  | took (h : Handle) (u : MediaUnit)
  deriving DecidableEq

namespace Server

def fresh (payloadSize : Nat) : Server := { payloadSize }

def meet (s : Server) : ServerEvent → Server
  | .ask r _ => (s.perform r).2
  | .giveBack h u => (s.perform (.release h u.slot)).2
  | .probe h => (s.probe h).2
  | .produce h => (s.produce h).2
  | .inject rule => s.inject rule
  | .clearLog => s.clearLog

def deed? (s : Server) : ServerEvent → Option ServerDeed
  | .ask r _ => (s.perform r).1.toOption.map (.did r)
  | .giveBack h u => (s.perform (.release h u.slot)).1.toOption.map fun _ => .took h u
  | .produce h => (s.produce h).1.map .gave
  | .probe _ | .inject _ | .clearLog => none

/-- The server after a run. -/
def after (s : Server) (events : List ServerEvent) : Server := events.foldl meet s

/-- What a run has done, in order. -/
def deeds (s : Server) : List ServerEvent → List ServerDeed
  | [] => []
  | e :: events => (s.deed? e).toList ++ (s.meet e).deeds events

/-- The channel `h`, which `c` describes, hands out its next unit. -/
def handOut (s : Server) (h : Handle) (c : Channel) : Server :=
  { s with channels := s.channels.insert h { c with
      produced := c.produced + 1
      nextSlot := c.nextSlot + 1
      outstanding := c.outstanding.insert c.nextSlot } }

/-- The same but for the log and the failures to be injected. -/
structure Alike (s t : Server) : Prop where
  channels : t.channels = s.channels
  links : t.links = s.links
  nextId : t.nextId = s.nextId

/-- All that an event can come to: what it did, and the server after it. -/
inductive Effect (s : Server) : Option ServerDeed → Server → Prop
  | none {t : Server} (ht : s.Alike t) : Effect s none t
  | did {t : Server} {r : Request} {h : Handle} (hp : s.permit r = .ok h)
      (hr : r.operation ≠ .release) (ht : (s.carryOut h r).Alike t) :
      Effect s (some (.did r h)) t
  | gave {t : Server} {h : Handle} {c : Channel} (hc : s.channels.get? h = some c)
      (hcan : s.canProduce h) (ht : (s.handOut h c).Alike t) :
      Effect s (some (.gave (.produce h c.attr c.produced c.nextSlot s.payloadSize))) t
  | took {t : Server} {h : Handle} {u : MediaUnit} (hp : s.permit (.release h u.slot) = .ok h)
      (ht : (s.carryOut h (.release h u.slot)).Alike t) : Effect s (some (.took h u)) t

variable {s t : Server} {h : Handle} {r : Request}

theorem Alike.refl (s : Server) : s.Alike s := ⟨rfl, rfl, rfl⟩

theorem Alike.circuit (ht : s.Alike t) : t.circuit = s.circuit := by
  ext1
  · funext h
    rw [node?_circuit, ht.channels, node?_circuit]
  · funext l
    rw [linked_circuit, ht.links, linked_circuit]

theorem perform_effect (s : Server) (r : Request) :
    (∃ fault, (s.perform r).1 = .error fault ∧ s.Alike (s.perform r).2) ∨
      ∃ h, s.permit r = .ok h ∧ (s.perform r).1 = .ok h ∧
        (s.carryOut h r).Alike (s.perform r).2 := by
  cases perform_cases s r with
  | inl hcase =>
      obtain ⟨fault, hf⟩ := hcase
      exact .inl ⟨fault, congrArg Prod.fst hf, by rw [hf]; exact ⟨rfl, rfl, rfl⟩⟩
  | inr hcase =>
      obtain ⟨h, hp, hf⟩ := hcase
      refine .inr ⟨h, hp, congrArg Prod.fst hf, ?_⟩
      rw [hf, carryOut_strike]
      exact ⟨rfl, rfl, rfl⟩

theorem probe_alike (s : Server) (h : Handle) : s.Alike (s.probe h).2 := by
  simp only [probe]
  split
  · exact ⟨rfl, rfl, rfl⟩
  · split <;> exact ⟨rfl, rfl, rfl⟩

theorem produce_effect (s : Server) (h : Handle) :
    s.Effect ((s.produce h).1.map .gave) (s.produce h).2 := by
  simp only [produce]
  split
  · exact .none (.refl _)
  · rename_i c hc
    split
    · rename_i hcan
      exact .gave hc hcan (.refl _)
    · exact .none (.refl _)

theorem meet_effect (s : Server) (e : ServerEvent) : s.Effect (s.deed? e) (s.meet e) := by
  cases e with
  | ask r hr =>
      obtain ⟨fault, ha, ht⟩ | ⟨h, hp, ha, ht⟩ := perform_effect s r
      · simp only [deed?, ha]
        exact .none ht
      · simp only [deed?, ha]
        exact .did hp hr ht
  | giveBack h u =>
      obtain ⟨fault, ha, ht⟩ | ⟨k, hp, ha, ht⟩ := perform_effect s (.release h u.slot)
      · simp only [deed?, ha]
        exact .none ht
      · simp only [deed?, ha]
        obtain rfl := eq_of_permit hp rfl
        exact .took hp ht
  | probe h => exact .none (probe_alike s h)
  | produce h => exact produce_effect s h
  | inject rule => exact .none ⟨rfl, rfl, rfl⟩
  | clearLog => exact .none ⟨rfl, rfl, rfl⟩

@[simp] theorem after_nil (s : Server) : s.after [] = s := rfl

@[simp] theorem after_cons (s : Server) (e : ServerEvent) (events : List ServerEvent) :
    s.after (e :: events) = (s.meet e).after events := rfl

theorem after_append (s : Server) (events events' : List ServerEvent) :
    s.after (events ++ events') = (s.after events).after events' :=
  List.foldl_append

theorem Reachable.meet (hs : s.Reachable) (e : ServerEvent) : (s.meet e).Reachable := by
  cases e with
  | ask r => exact hs.perform r
  | giveBack h u => exact hs.perform (.release h u.slot)
  | probe h => exact hs.probe h
  | produce h => exact hs.produce h
  | inject rule => exact hs.inject rule
  | clearLog => exact hs.clearLog

theorem Reachable.after (hs : s.Reachable) (events : List ServerEvent) :
    (s.after events).Reachable := by
  induction events generalizing s with
  | nil => exact hs
  | cons e events ih => exact ih (hs.meet e)

/-- What every effect keeps, of the server and of all that was done so far, a run keeps. -/
theorem Reachable.after_keeps {I : Server → List ServerDeed → Prop} (hs : s.Reachable)
    (hI : ∀ {s t done deed?}, s.Reachable → I s done → s.Effect deed? t →
      I t (done ++ deed?.toList))
    {done : List ServerDeed} (hi : I s done) (events : List ServerEvent) :
    I (s.after events) (done ++ s.deeds events) := by
  induction events generalizing s done with
  | nil => simpa [deeds] using hi
  | cons e events ih =>
      rw [after_cons, deeds, ← List.append_assoc]
      exact ih (hs.meet e) (hI hs hi (meet_effect s e))

/-- A whole fetch is one look or two, with nothing between them. -/
theorem after_fetch (s : Server) (h : Handle) :
    ∃ looks, (looks = [.probe h] ∨ looks = [.probe h, .produce h]) ∧
      s.after looks = (s.fetch h).2 ∧
      s.deeds looks = ((s.fetch h).1.toOption.join.map ServerDeed.gave).toList := by
  simp only [fetch]
  split
  · rename_i fault t ht
    exact ⟨_, .inl rfl, congrArg Prod.snd ht, rfl⟩
  · rename_i t ht
    exact ⟨_, .inl rfl, congrArg Prod.snd ht, rfl⟩
  · rename_i t ht
    have ht : (s.probe h).2 = t := congrArg Prod.snd ht
    refine ⟨_, .inr rfl, ?_, ?_⟩
    · simp only [after_cons, after_nil, meet, ht]
    · simp [deeds, deed?, meet, ht, Except.toOption]

end Server
end CameraPipeline
