import MessageBroker.Proofs.Queue.Pushing
import MessageBroker.Proofs.Queue.Refilling

/-! What a queue keeps of saved messages that do not all fit. Those that are too
large are left out, and the rest is cut to the limit of the queue, at its oldest
end where the queue evicts and at its newest end where it does not. -/

namespace MessageBroker

namespace QueueSettings

variable {α β : Type}

def cut (settings : QueueSettings) (items : List α) : List α :=
  if settings.flags.forcePush then items.rtake settings.maxMessages.toNat
  else items.take settings.maxMessages.toNat

theorem cut_sublist (settings : QueueSettings) (items : List α) :
    (settings.cut items).Sublist items := by
  unfold cut
  split
  · exact List.drop_sublist _ _
  · exact List.take_sublist _ _

theorem map_cut (settings : QueueSettings) (change : α → β)
    (items : List α) :
    (settings.cut items).map change = settings.cut (items.map change) := by
  unfold cut List.rtake
  rw [List.length_map]
  split
  · exact List.map_drop
  · exact List.map_take

theorem length_cut_le (settings : QueueSettings) (items : List α) :
    (settings.cut items).length ≤ settings.maxMessages.toNat := by
  unfold cut List.rtake
  split
  · rw [List.length_drop]
    omega
  · exact List.length_take_le _ _

theorem cut_of_length_le {settings : QueueSettings} {items : List α}
    (h : items.length ≤ settings.maxMessages.toNat) :
    settings.cut items = items := by
  unfold cut List.rtake
  split
  · rw [Nat.sub_eq_zero_of_le h, List.drop_zero]
  · exact List.take_of_length_le h

/-- Cutting on the way makes no difference in the end. -/
theorem cut_append_cut (settings : QueueSettings) (items more : List α) :
    settings.cut (settings.cut items ++ more) =
      settings.cut (items ++ more) := by
  unfold cut
  split
  · simp only [List.rtake_eq_reverse_take_reverse, List.reverse_append,
      List.reverse_reverse, List.take_append, List.take_take]
    rw [Nat.min_eq_left (Nat.sub_le _ _)]
  · rw [List.take_append, List.take_append, List.take_take, Nat.min_self,
      List.length_take]
    congr 2
    omega

def admits (settings : QueueSettings) (size : Nat) : Bool :=
  size ≤ settings.maxMessageSize.toNat

end QueueSettings

/-- The messages that the queue keeps when they come back to it. -/
def QueueSnapshot.kept (saved : QueueSnapshot) : List MessageSnapshot :=
  saved.settings.cut (saved.messages.filter fun message =>
    saved.settings.admits message.payload.length)

namespace TagClock

/-- Saved messages under one tag after another. -/
def retag (clock : TagClock) : List MessageSnapshot → List Message
  | [] => []
  | saved :: rest =>
      saved.toMessage clock.nextTag :: clock.stamped.retag rest

theorem capture_retag (clock : TagClock) (messages : List MessageSnapshot) :
    (clock.retag messages).map Message.capture = messages := by
  induction messages generalizing clock with
  | nil => rfl
  | cons saved rest ih => exact congrArg (saved :: ·) (ih clock.stamped)

theorem tags_retag (clock : TagClock) (messages : List MessageSnapshot) :
    (clock.retag messages).map Message.tag =
      (clock.nextTags messages.length).1 := by
  induction messages generalizing clock with
  | nil => rfl
  | cons saved rest ih => exact congrArg (clock.nextTag :: ·) (ih clock.stamped)

theorem nextTags_add (clock : TagClock) (first second : Nat) :
    clock.nextTags (first + second) =
      ((clock.nextTags first).1 ++
        ((clock.nextTags first).2.nextTags second).1,
        ((clock.nextTags first).2.nextTags second).2) := by
  induction first generalizing clock with
  | zero => rw [Nat.zero_add]; rfl
  | succ first ih =>
      rw [Nat.succ_add]
      simp only [nextTags, ih, List.cons_append]

end TagClock

namespace Queue

variable {queue : Queue} {row : List (Handle × Message)}

namespace Buffers

theorem messages_makeRoom (h : queue.Buffers row)
    (hbounded : queue.size ≤ queue.capacity) (hpositive : 0 < queue.capacity)
    (message : Message) :
    (if queue.ensureRoom.2 then queue.ensureRoom.1.enterNewest message
      else queue.ensureRoom.1).messages =
        queue.settings.cut (queue.messages ++ [message]) := by
  cases hroom : queue.ensureRoom.2 with
  | false =>
      obtain ⟨hfull, hkept⟩ := (h.lacksRoom_iff hbounded hpositive).mp hroom
      rw [if_neg Bool.false_ne_true, h.ensureRoom_eq_self hpositive hroom]
      unfold QueueSettings.cut
      rw [hkept, if_neg Bool.false_ne_true, ← hfull, List.take_left]
  | true =>
      rw [if_pos rfl, h.messages_enterNewest hroom]
      rcases h.hasRoom_iff.mp hroom with hfits | ⟨hforced, -⟩
      · have hlength : (queue.messages ++ [message]).length ≤
            queue.settings.maxMessages.toNat := by
          rw [List.length_append, List.length_singleton, h.length_messages]
          exact hfits
        rw [QueueSettings.cut_of_length_le hlength]
        unfold List.rtake
        rw [Nat.sub_eq_zero_of_le hlength, List.drop_zero]
      · unfold QueueSettings.cut
        rw [if_pos hforced]

theorem messages_refill (h : queue.Buffers row)
    (hbounded : queue.size ≤ queue.capacity) (hpositive : 0 < queue.capacity)
    (message : Message) :
    (queue.refill message).messages =
      if queue.settings.admits message.payload.size then
        queue.settings.cut (queue.messages ++ [message])
      else queue.messages := by
  unfold Queue.refill
  split
  · rename_i hlarge
    have hrefused : queue.settings.admits message.payload.size = false :=
      decide_eq_false (Nat.not_le.mpr (isTooLarge_iff.mp hlarge))
    rw [hrefused, if_neg Bool.false_ne_true]
  · rename_i hfits
    have hadmitted : queue.settings.admits message.payload.size = true :=
      decide_eq_true (Nat.not_lt.mp (isTooLarge_iff.not.mp hfits))
    rw [hadmitted, if_pos rfl]
    exact h.messages_makeRoom hbounded hpositive message

/-- Messages that come back stand behind those that are there, as far as they
are admitted, and all of them are cut to the limit. -/
theorem messages_refillAll (h : queue.Buffers row)
    (hbounded : queue.size ≤ queue.capacity) (hpositive : 0 < queue.capacity)
    (clock : TagClock) (messages : List MessageSnapshot) :
    (queue.refillAll clock messages).messages =
      queue.settings.cut (queue.messages ++ (clock.retag messages).filter
        fun message => queue.settings.admits message.payload.size) := by
  induction messages generalizing queue row clock with
  | nil =>
      rw [← h.length_messages] at hbounded
      rw [TagClock.retag, List.filter_nil, List.append_nil,
        QueueSettings.cut_of_length_le hbounded]
      rfl
  | cons saved rest ih =>
      let message := saved.toMessage clock.nextTag
      obtain ⟨next, hnext⟩ := h.refill message
      have hsettings := (queue.refilled_refill message).settings_eq
      have hmessages := h.messages_refill hbounded hpositive message
      have hcapacity : (queue.refill message).capacity = queue.capacity :=
        congrArg (fun settings => settings.maxMessages.toNat) hsettings
      have hsize : (queue.refill message).size ≤ queue.capacity := by
        rw [← hnext.length_messages, hmessages]
        split
        · exact QueueSettings.length_cut_le _ _
        · exact h.length_messages ▸ hbounded
      have hrest := ih hnext (hcapacity ▸ hsize) (hcapacity ▸ hpositive)
        clock.stamped
      rw [hsettings, hmessages] at hrest
      refine hrest.trans ?_
      rw [TagClock.retag, List.filter_cons]
      split
      · rw [QueueSettings.cut_append_cut, List.append_assoc]
        rfl
      · rfl

end Buffers

theorem messages_refillAll_create (id : QueueId) (slots : SlotPolicy)
    (clock : TagClock) {saved : QueueSnapshot}
    (hpositive : 0 < saved.settings.maxMessages.toNat) :
    let queue := (create id saved.name saved.settings slots).refillAll clock
      saved.messages
    queue.messages.map Message.capture = saved.kept ∧
      (queue.messages.map Message.tag).Sublist
        (clock.nextTags saved.messages.length).1 := by
  have hadmitted : ((clock.retag saved.messages).filter fun message =>
      saved.settings.admits message.payload.size).map Message.capture =
        saved.messages.filter fun message =>
          saved.settings.admits message.payload.length := by
    conv_rhs => rw [← clock.capture_retag saved.messages, List.filter_map]
    rfl
  have hempty := buffers_create id saved.name saved.settings slots
  have hmessages := hempty.messages_refillAll (Nat.zero_le _) hpositive clock
    saved.messages
  have hnothing : (create id saved.name saved.settings slots).messages = [] :=
    hempty.messages_eq
  rw [hnothing, List.nil_append] at hmessages
  dsimp only
  rw [hmessages]
  constructor
  · rw [QueueSettings.map_cut]
    exact congrArg _ hadmitted
  · rw [← clock.tags_retag]
    exact ((QueueSettings.cut_sublist _ _).trans List.filter_sublist).map _

end Queue

end MessageBroker
