import MessageBroker.Proofs.Broker.Numbering
import MessageBroker.Proofs.Queue.Place

/-! Arrangements leave messages alone: a queue that stays has what it had, and a
new one has nothing. -/

namespace MessageBroker

namespace Queue

/-- The same messages in the same places, under the same settings. -/
structure SameContents (before after : Queue) : Prop where
  settings : after.settings = before.settings
  buffer : after.buffer = before.buffer
  expiring : after.expiring = before.expiring
  held : after.held = before.held
  holdDeadlines : after.holdDeadlines = before.holdDeadlines

structure IsVacant (queue : Queue) : Prop where
  keeps : queue.Keeps []
  gone : ∀ tag, queue.place tag = .gone

namespace SameContents

variable {first middle last : Queue}

theorem refl (queue : Queue) : SameContents queue queue :=
  ⟨rfl, rfl, rfl, rfl, rfl⟩

theorem trans (hfirst : SameContents first middle)
    (hsecond : SameContents middle last) : SameContents first last where
  settings := hsecond.settings.trans hfirst.settings
  buffer := hsecond.buffer.trans hfirst.buffer
  expiring := hsecond.expiring.trans hfirst.expiring
  held := hsecond.held.trans hfirst.held
  holdDeadlines := hsecond.holdDeadlines.trans hfirst.holdDeadlines

theorem place_eq (h : SameContents first last) (tag : Tag) :
    last.place tag = first.place tag := by
  unfold place messages
  rw [h.buffer, h.held]

theorem keeps {row : List (Handle × Message)} (h : SameContents first last)
    (hkeeps : first.Keeps row) : last.Keeps row where
  buffers := {
    represents := h.buffer ▸ hkeeps.buffers.represents
    indexes := h.expiring ▸ hkeeps.buffers.indexes
  }
  holds := by
    rw [h.held, h.holdDeadlines]
    exact hkeeps.holds
  free := hkeeps.free
  nodup := hkeeps.nodup
  apart := h.held ▸ hkeeps.apart

theorem isVacant (h : SameContents first last) (hvacant : first.IsVacant) :
    last.IsVacant where
  keeps := h.keeps hvacant.keeps
  gone tag := (h.place_eq tag).trans (hvacant.gone tag)

end SameContents

theorem sameContents_subscribe (queue : Queue) (client : ClientId)
    (noticesOnly : Bool) :
    SameContents queue (queue.subscribe client noticesOnly) := by
  unfold subscribe
  split <;> exact ⟨rfl, rfl, rfl, rfl, rfl⟩

theorem isVacant_create (id : QueueId) (name : String)
    (settings : QueueSettings) (slots : SlotPolicy) :
    (create id name settings slots).IsVacant where
  keeps := keeps_create id name settings slots
  gone := place_create id name settings slots

end Queue

namespace Broker

/-- The queue is the one that was there, with what it had, or it is newer than
the broker and vacant. -/
def Continues (broker : Broker) (id : QueueId) (next : Queue) : Prop :=
  (∃ queue, broker.queues.find? id = some queue ∧ queue.SameContents next) ∨
    (broker.lastNumber < id.number ∧ next.IsVacant)

/-- No message has moved, and no tag has been stamped. -/
structure Settles (broker after : Broker) : Prop where
  clock : after.clock = broker.clock
  lastNumber : broker.lastNumber ≤ after.lastNumber
  queues : after.queues.All broker.Continues

variable {broker middle after : Broker}

theorem continues_self (broker : Broker) :
    broker.queues.All broker.Continues :=
  fun _ queue found => .inl ⟨queue, found, .refl queue⟩

theorem Continues.sameContents {id : QueueId} {queue next : Queue}
    (h : broker.Continues id queue) (hsame : queue.SameContents next) :
    broker.Continues id next := by
  rcases h with ⟨first, found, hfirst⟩ | ⟨hnew, hvacant⟩
  · exact .inl ⟨first, found, hfirst.trans hsame⟩
  · exact .inr ⟨hnew, hsame.isVacant hvacant⟩

def place (broker : Broker) (id : QueueId) (tag : Tag) : Place :=
  match broker.queues.find? id with
  | none => .gone
  | some queue => queue.place tag

theorem place_of_found {id : QueueId} {queue : Queue}
    (found : broker.queues.find? id = some queue) (tag : Tag) :
    broker.place id tag = queue.place tag := by
  unfold place
  rw [found]

theorem place_of_absent {id : QueueId}
    (absent : broker.queues.find? id = none) (tag : Tag) :
    broker.place id tag = .gone := by
  unfold place
  rw [absent]

theorem found_of_place {id : QueueId} {tag : Tag}
    (hthere : broker.place id tag ≠ .gone) :
    ∃ queue, broker.queues.find? id = some queue ∧
      broker.place id tag = queue.place tag := by
  cases found : broker.queues.find? id with
  | none => exact absurd (place_of_absent found tag) hthere
  | some queue => exact ⟨queue, rfl, place_of_found found tag⟩

namespace Settles

theorem of_queues (hclock : after.clock = broker.clock)
    (hlast : broker.lastNumber ≤ after.lastNumber)
    (hqueues : after.queues = broker.queues) : Settles broker after :=
  ⟨hclock, hlast, hqueues ▸ continues_self broker⟩

theorem trans (hfirst : Settles broker middle) (hsecond : Settles middle after) :
    Settles broker after where
  clock := hsecond.clock.trans hfirst.clock
  lastNumber := Nat.le_trans hfirst.lastNumber hsecond.lastNumber
  queues := by
    intro id next hnext
    rcases hsecond.queues id next hnext with
      ⟨queue, found, hsame⟩ | ⟨hnew, hvacant⟩
    · exact (hfirst.queues id queue found).sameContents hsame
    · exact .inr ⟨Nat.lt_of_le_of_lt hfirst.lastNumber hnew, hvacant⟩

theorem place_eq (h : Settles broker after) (hnumbered : broker.Numbered)
    (id : QueueId) (tag : Tag) :
    after.place id tag = broker.place id tag ∨
      after.queues.find? id = none := by
  cases found : after.queues.find? id with
  | none => exact .inr rfl
  | some next =>
      left
      rw [place_of_found found]
      rcases h.queues id next found with
        ⟨queue, hqueue, hsame⟩ | ⟨hnew, hvacant⟩
      · rw [place_of_found hqueue, hsame.place_eq]
      · have absent := hnumbered.queues.find?_eq_none (Nat.not_le.mpr hnew)
        rw [place_of_absent absent, hvacant.gone]

end Settles

theorem continues_update (id : QueueId) {change : Queue → Queue}
    (hchange : ∀ queue, Queue.SameContents queue (change queue)) :
    (broker.queues.update id change).All broker.Continues :=
  (continues_self broker).update fun queue _ h => h.sameContents (hchange queue)

theorem settles_enrolment (henrol : Enrolment broker after) :
    Settles broker after := by
  cases henrol with
  | connect => exact .of_queues rfl (Nat.le_refl _) rfl
  | addQueue =>
      exact {
        clock := rfl
        lastNumber := Nat.le_succ _
        queues := (continues_self broker).add
          (.inr ⟨Nat.lt_succ_self _, Queue.isVacant_create _ _ _ _⟩)
      }
  | addRoute => exact .of_queues rfl (Nat.le_succ _) rfl
  | addChannel => exact .of_queues rfl (Nat.le_succ _) rfl
  | declare =>
      exact ⟨rfl, Nat.le_refl _,
        continues_update _ fun _ => ⟨rfl, rfl, rfl, rfl, rfl⟩⟩
  | subscribe noticesOnly =>
      exact ⟨rfl, Nat.le_refl _, continues_update _ fun queue =>
        queue.sameContents_subscribe _ noticesOnly⟩
  | bind =>
      exact ⟨rfl, Nat.le_refl _,
        continues_update _ fun _ => ⟨rfl, rfl, rfl, rfl, rfl⟩⟩
  | subscribeTopic => exact .of_queues rfl (Nat.le_refl _) rfl
  | subscribePattern => exact .of_queues rfl (Nat.le_refl _) rfl

theorem settles_withdrawal (hwithdraw : Withdrawal broker after) :
    Settles broker after := by
  cases hwithdraw with
  | leave => exact .of_queues rfl (Nat.le_refl _) rfl
  | dropQueue =>
      exact ⟨rfl, Nat.le_refl _, (continues_self broker).erase _⟩
  | dropRoute =>
      refine ⟨rfl, Nat.le_refl _, (continues_self broker).foldl_update _ ?_⟩
      exact fun _ _ h => h.sameContents ⟨rfl, rfl, rfl, rfl, rfl⟩
  | dropChannel => exact .of_queues rfl (Nat.le_refl _) rfl
  | undeclare =>
      exact ⟨rfl, Nat.le_refl _,
        continues_update _ fun _ => ⟨rfl, rfl, rfl, rfl, rfl⟩⟩
  | unsubscribe =>
      exact ⟨rfl, Nat.le_refl _,
        continues_update _ fun _ => ⟨rfl, rfl, rfl, rfl, rfl⟩⟩
  | unbind =>
      exact ⟨rfl, Nat.le_refl _,
        continues_update _ fun _ => ⟨rfl, rfl, rfl, rfl, rfl⟩⟩
  | unsubscribeTopic => exact .of_queues rfl (Nat.le_refl _) rfl
  | unsubscribePattern => exact .of_queues rfl (Nat.le_refl _) rfl
  | flush => exact ⟨rfl, Nat.le_refl _, Registry.all_empty⟩

theorem settles_upkeep (hnumbered : broker.Numbered)
    (hkeep : Upkeep broker after) : Settles broker after := by
  cases hkeep with
  | @renameQueue id queue name found =>
      have hid : queue.id = id := hnumbered.queues.id_eq found
      subst hid
      refine ⟨rfl, Nat.le_refl _, (continues_self broker).rename ?_⟩
      exact .inl ⟨queue, found, rfl, rfl, rfl, rfl, rfl⟩
  | renameRoute => exact .of_queues rfl (Nat.le_refl _) rfl
  | renameChannel => exact .of_queues rfl (Nat.le_refl _) rfl
  | rotateRoute => exact .of_queues rfl (Nat.le_refl _) rfl
  | rotateChannel => exact .of_queues rfl (Nat.le_refl _) rfl

theorem settles_arrangement (hnumbered : broker.Numbered)
    (harrange : Arrangement broker after) : Settles broker after := by
  cases harrange with
  | enrol enrolment => exact settles_enrolment enrolment
  | withdraw withdrawal => exact settles_withdrawal withdrawal
  | keepUp upkeep => exact settles_upkeep hnumbered upkeep

theorem settles_arrangements (hnumbered : broker.Numbered)
    (harrange : Arrangements broker after) : Settles broker after := by
  induction harrange with
  | refl => exact .of_queues rfl (Nat.le_refl _) rfl
  | tail arrangements arrangement ih =>
      exact ih.trans (settles_arrangement
        (hnumbered.edits (Arrangements.edits arrangements)) arrangement)

end Broker

end MessageBroker
