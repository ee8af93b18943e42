import MessageBroker.Proofs.Queue.Contents
import MessageBroker.Proofs.Queue.Overdue

/-! A sweep takes messages back one after the other. In a buffer that evicts
nothing the first of them take the room there is. In one that evicts, each finds
a place, at worst that of the one before it. -/

namespace MessageBroker.Queue

/-- How a buffer of so many places takes messages back, each to its front. Where
no place is left, a buffer that evicts drops what stands in front; in any other
the message has to wait. The answer is what is buffered in the end, and what
waits. -/
def takeBack (capacity : Nat) (evicts : Bool) :
    List Message → List Message → List Message × List Message
  | buffered, [] => (buffered, [])
  | buffered, message :: rest =>
      if buffered.length < capacity ∨ evicts = true then
        takeBack capacity evicts
          (message.returned :: buffered.drop (buffered.length + 1 - capacity))
          rest
      else
        let (final, waiting) := takeBack capacity evicts buffered rest
        (final, message :: waiting)

/-- Which messages are left in a buffer that evicts, once they have all come back
into so much room. -/
def survivors (room : Nat) (messages : List Message) : List Message :=
  if messages.length ≤ room then messages
  else messages.take (room - 1) ++ messages.drop (messages.length - 1)

section TakeBack

variable {capacity : Nat} {buffered messages : List Message}

theorem takeBack_without_eviction (capacity : Nat)
    (buffered messages : List Message) :
    takeBack capacity false buffered messages =
      (((messages.take (capacity - buffered.length)).map
          Message.returned).reverse ++ buffered,
        messages.drop (capacity - buffered.length)) := by
  induction messages generalizing buffered with
  | nil => simp [takeBack]
  | cons message rest ih =>
      unfold takeBack
      by_cases hfits : buffered.length < capacity
      · have hroom : capacity - buffered.length =
            capacity - (buffered.length + 1) + 1 := by omega
        have hnone : buffered.length + 1 - capacity = 0 := by omega
        rw [if_pos (.inl hfits), ih, hnone, List.drop_zero, List.length_cons,
          hroom, List.take_succ_cons, List.drop_succ_cons, List.map_cons,
          List.reverse_cons, List.append_assoc, List.singleton_append]
      · have hfull : capacity - buffered.length = 0 := by omega
        have hwaits : ¬ (buffered.length < capacity ∨ false = true) := by
          simpa using hfits
        rw [if_neg hwaits, ih, hfull]
        rfl

theorem survivors_cons_of_room {room : Nat} (message : Message) :
    survivors (room + 2) (message :: messages) =
      message :: survivors (room + 1) messages := by
  unfold survivors
  by_cases hfits : messages.length ≤ room + 1
  · rw [if_pos hfits, if_pos (by simpa using hfits)]
  · have hlength : (message :: messages).length - 1 =
        messages.length - 1 + 1 := by
      rw [List.length_cons]
      omega
    rw [if_neg hfits, if_neg (by simpa using hfits), hlength]
    rfl

/-- With one place or none, the last message to come back is the only one that
stays. -/
theorem survivors_cons_of_crowded {room : Nat} (hroom : room ≤ 1)
    (message : Message) (hmore : messages ≠ []) :
    survivors room (message :: messages) = survivors 0 messages := by
  have hpositive := List.length_pos_iff.mpr hmore
  have hlength : (message :: messages).length - 1 =
      messages.length - 1 + 1 := by
    rw [List.length_cons]
    omega
  have hnone : room - 1 = 0 := by omega
  unfold survivors
  rw [if_neg (by rw [List.length_cons]; omega), if_neg (by omega), hlength,
    hnone]
  rfl

theorem survivors_singleton (room : Nat) (message : Message) :
    survivors room [message] = [message] := by
  unfold survivors
  split
  · rfl
  · rename_i hnone
    have hroom : room = 0 := by simpa using hnone
    rw [hroom]
    rfl

theorem takeBack_with_eviction (hcapacity : 0 < capacity)
    (hfits : buffered.length ≤ capacity) :
    takeBack capacity true buffered messages =
      (((survivors (capacity - buffered.length) messages).map
          Message.returned).reverse ++
        buffered.drop (min messages.length
          (buffered.length + 1 - capacity)), []) := by
  induction messages generalizing buffered with
  | nil => simp [takeBack, survivors]
  | cons message rest ih =>
      unfold takeBack
      rw [if_pos (.inr rfl)]
      by_cases hlast : rest = []
      · subst hlast
        have hone : min [message].length (buffered.length + 1 - capacity) =
            buffered.length + 1 - capacity := by
          rw [List.length_singleton]
          omega
        rw [survivors_singleton, hone]
        rfl
      · have hmore := List.length_pos_iff.mpr hlast
        have hlength : (message.returned ::
            buffered.drop (buffered.length + 1 - capacity)).length =
              min (buffered.length + 1) capacity := by
          rw [List.length_cons, List.length_drop]
          omega
        rw [ih (by omega), hlength]
        by_cases hcrowded : capacity - buffered.length ≤ 1
        · -- The buffer is full now, and the next message to come takes the
          -- place of this one.
          have hfull : min (buffered.length + 1) capacity = capacity := by omega
          have hdrop : min rest.length (capacity + 1 - capacity) = 1 := by omega
          have hkept : min (message :: rest).length
              (buffered.length + 1 - capacity) =
                buffered.length + 1 - capacity := by
            rw [List.length_cons]
            omega
          rw [hfull, hdrop, hkept, Nat.sub_self,
            survivors_cons_of_crowded hcrowded message hlast,
            List.drop_succ_cons, List.drop_zero]
        · have hroom : capacity - buffered.length =
              capacity - (buffered.length + 2) + 2 := by omega
          have hleft : capacity - min (buffered.length + 1) capacity =
              capacity - (buffered.length + 2) + 1 := by omega
          have hnone : buffered.length + 1 - capacity = 0 := by omega
          have hstill : min (buffered.length + 1) capacity + 1 - capacity = 0 := by
            omega
          rw [hleft, hroom, survivors_cons_of_room, hnone, hstill]
          simp

end TakeBack

/-- What is buffered, and what waits, once these holds have ended. -/
def settle (queue : Queue) (now : Timestamp) (ends : List Message) :
    List Message × List Message :=
  takeBack queue.capacity queue.settings.flags.forcePush queue.messages
    (unexpired now ends)

/-- A queue and the figures of a sweep, before and after these holds have
ended. -/
structure Ended (now : Timestamp) (ends : List Message) (queue : Queue)
    (stats : SweepStats) (after : Queue × SweepStats) : Prop where
  keeps : ∃ row, after.1.Keeps row
  messages : after.1.messages = (queue.settle now ends).1
  held : ∀ tag message, after.1.held.get? tag = some message ↔
    queue.held.get? tag = some message ∧
      (message ∉ ends ∨ message ∈ (queue.settle now ends).2)
  expired : after.2.expired = stats.expired
  redelivered : after.2.redelivered + (queue.settle now ends).2.length =
    stats.redelivered + (unexpired now ends).length
  dropped : after.2.dropped = stats.dropped + (lapsed now ends).length

variable {queue : Queue} {row : List (Handle × Message)} {now : Timestamp}
  {message : Message} {ends : List Message}

theorem waiting_subset (capacity : Nat) (evicts : Bool)
    (buffered messages : List Message) :
    (takeBack capacity evicts buffered messages).2 ⊆ messages := by
  induction messages generalizing buffered with
  | nil => exact fun _ hmem => hmem
  | cons message rest ih =>
      unfold takeBack
      split
      · exact List.subset_cons_of_subset _ (ih _)
      · exact List.cons_subset_cons _ (ih _)

theorem settle_subset (queue : Queue) (now : Timestamp) (ends : List Message) :
    (queue.settle now ends).2 ⊆ ends :=
  fun _ hmem => (List.mem_filter.mp (waiting_subset _ _ _ _ hmem)).1

theorem settle_of_expired (hexpired : message.isExpired now = true)
    {next : Queue} (hsettings : next.settings = queue.settings)
    (hmessages : next.messages = queue.messages) (rest : List Message) :
    queue.settle now (message :: rest) = next.settle now rest := by
  unfold settle capacity
  rw [unexpired_cons_of_expired hexpired, hsettings, hmessages]

theorem Buffers.settle_of_room (h : queue.Buffers row) {next : Queue}
    (halive : message.isExpired now = false)
    (hroom : queue.ensureRoom.2 = true)
    (hsettings : next.settings = queue.settings)
    (hmessages : next.messages =
      message.returned :: queue.messages.drop queue.excess)
    (rest : List Message) :
    queue.settle now (message :: rest) = next.settle now rest := by
  have hlength := h.length_messages
  have hfits : queue.messages.length < queue.capacity ∨
      queue.settings.flags.forcePush = true := by
    rw [hlength]
    exact (h.hasRoom_iff.mp hroom).imp_right And.left
  have hexcess : queue.messages.length + 1 - queue.capacity =
      queue.excess := by
    unfold excess
    split
    · rw [hlength]
    · rename_i hkept
      have hless := hfits.resolve_right hkept
      omega
  have hcapacity : next.capacity = queue.capacity := by
    unfold capacity
    rw [hsettings]
  unfold settle
  rw [unexpired_cons halive, takeBack, if_pos hfits, hcapacity, hsettings,
    hmessages, hexcess]

theorem Buffers.settle_of_full (h : queue.Buffers row)
    (hcapacity : 0 < queue.capacity) (halive : message.isExpired now = false)
    (hroom : queue.ensureRoom.2 = false) (rest : List Message) :
    queue.settle now (message :: rest) =
      ((queue.settle now rest).1, message :: (queue.settle now rest).2) := by
  have hlength := h.length_messages
  have hwaits : ¬ (queue.messages.length < queue.capacity ∨
      queue.settings.flags.forcePush = true) := by
    intro hfits
    rw [hlength] at hfits
    have htaken := h.hasRoom_iff.mpr (hfits.imp_right fun h => ⟨h, hcapacity⟩)
    rw [hroom] at htaken
    cases htaken
  unfold settle
  rw [unexpired_cons halive, takeBack, if_neg hwaits]

theorem Keeps.held_of_rest (h : queue.Keeps row) {after next : Queue}
    {rest waiting : List Message}
    (hheld : queue.held.get? message.tag = some message)
    (hfresh : message ∉ rest) (hwaiting : waiting ⊆ rest)
    (hnext : next.held = queue.held.erase message.tag)
    (hrest : ∀ tag other, after.held.get? tag = some other ↔
      next.held.get? tag = some other ∧ (other ∉ rest ∨ other ∈ waiting))
    (tag : Tag) (other : Message) :
    after.held.get? tag = some other ↔ queue.held.get? tag = some other ∧
      (other ∉ message :: rest ∨ other ∈ waiting) := by
  rw [hrest, hnext, AssocList.get?_erase, List.mem_cons, not_or]
  by_cases htag : tag = message.tag
  · subst htag
    rw [if_pos rfl, hheld]
    constructor
    · rintro ⟨hnone, -⟩
      cases hnone
    · rintro ⟨hsame, hstays⟩
      cases hsame
      rcases hstays with ⟨hother, -⟩ | hmem
      · exact absurd rfl hother
      · exact absurd (hwaiting hmem) hfresh
  · rw [if_neg htag]
    refine and_congr_right fun hget => or_congr_left ?_
    have hother : other ≠ message := by
      rintro rfl
      exact htag (h.heldUntil hget).1.symm
    exact (and_iff_right hother).symm

namespace Ended

variable {rest : List Message} {stats : SweepStats}
  {final : Queue × SweepStats}

theorem released (h : queue.Keeps row)
    (hheld : queue.held.get? message.tag = some message)
    (hfresh : message ∉ rest) (hexpired : message.isExpired now = true)
    (hrest : Ended now rest
      (queue.forgetHold message.holdEnd.1 message.tag)
      { stats with dropped := stats.dropped + 1 } final) :
    Ended now (message :: rest) queue stats final := by
  have hsettle : queue.settle now (message :: rest) =
      (queue.forgetHold message.holdEnd.1 message.tag).settle now rest :=
    settle_of_expired hexpired rfl rfl rest
  refine ⟨hrest.keeps, ?messages, ?held, hrest.expired, ?redelivered,
    ?dropped⟩
  case messages =>
    rw [hsettle]
    exact hrest.messages
  case held =>
    rw [hsettle]
    exact h.held_of_rest hheld hfresh (settle_subset _ now rest) rfl hrest.held
  case redelivered =>
    rw [hsettle, unexpired_cons_of_expired hexpired]
    exact hrest.redelivered
  case dropped =>
    rw [lapsed_cons_of_expired hexpired, hrest.dropped, List.length_cons,
      Nat.add_assoc, Nat.add_comm 1]

theorem takenBack (h : queue.Keeps row)
    (hheld : queue.held.get? message.tag = some message)
    (hfresh : message ∉ rest) (halive : message.isExpired now = false)
    (hroom : queue.ensureRoom.2 = true)
    (hrest : Ended now rest
      ((queue.ensureRoom.1.forgetHold message.holdEnd.1
        message.tag).enterOldest message.returned)
      { stats with redelivered := stats.redelivered + 1 } final) :
    Ended now (message :: rest) queue stats final := by
  have hroomy := rebuffered_ensureRoom queue
  have hmessages := ((h.buffers.ensureRoom.forgetHold message.holdEnd.1
    message.tag).enterOldest message.returned).messages_eq
  rw [List.map_cons, List.map_drop, ← h.buffers.messages_eq] at hmessages
  have hsettle : queue.settle now (message :: rest) =
      ((queue.ensureRoom.1.forgetHold message.holdEnd.1
        message.tag).enterOldest message.returned).settle now rest := by
    refine h.buffers.settle_of_room halive hroom ?_ hmessages rest
    exact hroomy.settings_eq
  refine ⟨hrest.keeps, ?messages, ?held, hrest.expired, ?redelivered,
    ?dropped⟩
  case messages =>
    rw [hsettle]
    exact hrest.messages
  case held =>
    rw [hsettle]
    refine h.held_of_rest hheld hfresh (settle_subset _ now rest) ?_ hrest.held
    exact congrArg (AssocList.erase · message.tag) hroomy.held_eq
  case redelivered =>
    rw [hsettle, unexpired_cons halive, hrest.redelivered, List.length_cons,
      Nat.add_assoc, Nat.add_comm 1]
  case dropped =>
    rw [lapsed_cons halive]
    exact hrest.dropped

theorem putOff (h : queue.Keeps row) (hcapacity : 0 < queue.capacity)
    (hfresh : message ∉ rest) (halive : message.isExpired now = false)
    (hroom : queue.ensureRoom.2 = false)
    (hrest : Ended now rest queue stats final) :
    Ended now (message :: rest) queue stats final := by
  have hsettle := h.buffers.settle_of_full hcapacity halive hroom rest
  refine ⟨hrest.keeps, ?messages, ?held, hrest.expired, ?redelivered,
    ?dropped⟩
  case messages =>
    rw [hsettle]
    exact hrest.messages
  case held =>
    intro tag other
    rw [hsettle, hrest.held, List.mem_cons, List.mem_cons]
    refine and_congr_right fun _ => ?_
    by_cases hother : other = message
    · simp [hother, hfresh]
    · simp [hother]
  case redelivered =>
    rw [hsettle, unexpired_cons halive, List.length_cons, List.length_cons,
      ← Nat.add_assoc, hrest.redelivered, Nat.add_assoc]
  case dropped =>
    rw [lapsed_cons halive]
    exact hrest.dropped

end Ended

/-- Every hold in turn ends, or is put off where nothing makes room. -/
theorem Keeps.ended (h : queue.Keeps row) (hcapacity : 0 < queue.capacity)
    (hnodup : (ends.map Message.tag).Nodup)
    (hheld : ∀ message ∈ ends, queue.held.get? message.tag = some message)
    (stats : SweepStats) :
    Ended now ends queue stats
      ((ends.map Message.holdEnd).foldl (endHold now) (queue, stats)) := by
  induction ends generalizing queue row stats with
  | nil =>
      refine ⟨⟨row, h⟩, rfl, fun tag message => ?_, rfl, rfl, rfl⟩
      simp
  | cons message rest ih =>
      obtain ⟨hfirst, hothers⟩ := List.forall_mem_cons.mp hheld
      obtain ⟨hapart, hrest⟩ := List.nodup_cons.mp hnodup
      have hfresh : message ∉ rest := fun hmem =>
        hapart (List.mem_map_of_mem hmem)
      have hdeadline := h.heldUntil_eq (h.mem_heldMessages.mpr hfirst)
      have hstill : ∀ other ∈ rest,
          (queue.held.erase message.tag).get? other.tag = some other := by
        intro other hmem
        rw [AssocList.get?_erase, if_neg, hothers other hmem]
        intro htag
        exact hapart (htag ▸ List.mem_map_of_mem hmem)
      have hroomy := rebuffered_ensureRoom queue
      rw [List.map_cons, List.foldl_cons]
      rcases endHold_eq message.holdEnd.1 now hfirst stats with
        ⟨hexpired, hnext⟩ | ⟨halive, hroom, hnext⟩ | ⟨halive, hroom, hnext⟩ <;>
        change endHold now (queue, stats) message.holdEnd = _ at hnext <;>
        rw [hnext]
      case inl =>
        have hleft := h.forgetHold hfirst hdeadline
        exact .released h hfirst hfresh hexpired
          (ih hleft hcapacity hrest hstill _)
      case inr.inl =>
        obtain ⟨⟨left, hleft⟩, -⟩ := h.redeliver hfirst hdeadline
        refine .takenBack h hfirst hfresh halive hroom
          (ih hleft ?_ hrest ?_ _)
        · exact Nat.lt_of_lt_of_eq hcapacity hroomy.capacity_eq.symm
        · intro other hmem
          rw [← hstill other hmem, ← hroomy.held_eq]
          rfl
      case inr.inr =>
        have hsame := h.buffers.ensureRoom_eq_self hcapacity hroom
        rw [hsame]
        exact .putOff h hcapacity hfresh halive hroom
          (ih h hcapacity hrest hothers stats)

/-- The messages that are buffered again when a sweep is over. -/
def takenBack (queue : Queue) (now : Timestamp) : List Message :=
  if queue.settings.flags.forcePush then
    survivors queue.room (queue.returning now)
  else (queue.returning now).take queue.room

/-- The messages that would go back to the buffer and stay on hold. -/
def waiting (queue : Queue) (now : Timestamp) : List Message :=
  if queue.settings.flags.forcePush then []
  else (queue.returning now).drop queue.room

theorem takenBack_of_kept (hkept : queue.settings.flags.forcePush = false)
    (now : Timestamp) :
    queue.takenBack now = (queue.returning now).take queue.room := by
  unfold takenBack
  rw [hkept, if_neg Bool.false_ne_true]

theorem waiting_of_kept (hkept : queue.settings.flags.forcePush = false)
    (now : Timestamp) :
    queue.waiting now = (queue.returning now).drop queue.room := by
  unfold waiting
  rw [hkept, if_neg Bool.false_ne_true]

theorem excess_of_kept (hkept : queue.settings.flags.forcePush = false) :
    queue.excess = 0 := by
  unfold excess
  rw [hkept, if_neg Bool.false_ne_true]

theorem waiting_subset_returning (queue : Queue) (now : Timestamp) :
    queue.waiting now ⊆ queue.returning now := by
  unfold waiting
  split
  · exact List.nil_subset _
  · exact List.drop_subset _ _

theorem takenBack_of_forced (hforced : queue.settings.flags.forcePush = true)
    (now : Timestamp) :
    queue.takenBack now = survivors queue.room (queue.returning now) :=
  if_pos hforced

theorem waiting_of_forced (hforced : queue.settings.flags.forcePush = true)
    (now : Timestamp) : queue.waiting now = [] :=
  if_pos hforced

theorem survivors_sublist (room : Nat) (messages : List Message) :
    (survivors room messages).Sublist messages := by
  unfold survivors
  split
  · exact .refl _
  · have hbelow : room - 1 ≤ messages.length - 1 := by omega
    calc (messages.take (room - 1) ++ messages.drop (messages.length - 1))
      _ |>.Sublist (messages.take (messages.length - 1) ++
            messages.drop (messages.length - 1)) :=
          (List.take_sublist_take_left hbelow).append (.refl _)
      _ = messages := List.take_append_drop _ _

theorem survivors_eq_self_iff {room : Nat} {messages : List Message} :
    survivors room messages = messages ↔ messages.length ≤ max room 1 := by
  unfold survivors
  split
  · rename_i hfits
    exact iff_of_true rfl (Nat.le_trans hfits (Nat.le_max_left _ _))
  · rename_i hmore
    constructor
    · intro hsame
      have hlength := congrArg List.length hsame
      rw [List.length_append, List.length_take, List.length_drop] at hlength
      omega
    · intro hfew
      have hone : messages.length - 1 = room - 1 := by omega
      rw [hone]
      exact List.take_append_drop _ _

theorem takenBack_sublist (queue : Queue) (now : Timestamp) :
    (queue.takenBack now).Sublist (queue.returning now) := by
  unfold takenBack
  split
  · exact survivors_sublist _ _
  · exact List.take_sublist _ _

theorem Buffers.settle_overdue (h : queue.Buffers row)
    (hcapacity : 0 < queue.capacity) (hbounded : queue.size ≤ queue.capacity)
    (now : Timestamp) :
    queue.settle now (queue.overdue now) =
      (((queue.takenBack now).map Message.returned).reverse ++
          queue.messages.drop (min (queue.returning now).length queue.excess),
        queue.waiting now) := by
  have hlength := h.length_messages
  unfold settle takenBack waiting excess room
  rw [← hlength] at hbounded ⊢
  cases queue.settings.flags.forcePush with
  | true => exact takeBack_with_eviction hcapacity hbounded
  | false =>
      rw [takeBack_without_eviction]
      simp [returning]

namespace Keeps

theorem ended_overdue (h : queue.Keeps row) (hcapacity : 0 < queue.capacity)
    (now : Timestamp) :
    Ended now (queue.overdue now) queue .zero (queue.sweepUnconfirmed now) := by
  unfold sweepUnconfirmed
  rw [h.due_eq]
  exact h.ended hcapacity (h.nodup_overdue now)
    (fun _ => h.held_of_mem_overdue) .zero

theorem messages_swept (h : queue.Keeps row) (hcapacity : 0 < queue.capacity)
    (hbounded : queue.size ≤ queue.capacity) (now : Timestamp) :
    (queue.sweepUnconfirmed now).1.messages =
      ((queue.takenBack now).map Message.returned).reverse ++
        queue.messages.drop (min (queue.returning now).length queue.excess) := by
  rw [(h.ended_overdue hcapacity now).messages,
    h.buffers.settle_overdue hcapacity hbounded]

theorem heldMessages_swept (h : queue.Keeps row) (hcapacity : 0 < queue.capacity)
    (hbounded : queue.size ≤ queue.capacity) (now : Timestamp) :
    message ∈ (queue.sweepUnconfirmed now).1.heldMessages ↔
      message ∈ queue.heldMessages ∧
        (message ∉ queue.overdue now ∨ message ∈ queue.waiting now) := by
  have hended := h.ended_overdue hcapacity now
  obtain ⟨left, hleft⟩ := hended.keeps
  rw [hleft.mem_heldMessages, hended.held, h.mem_heldMessages,
    h.buffers.settle_overdue hcapacity hbounded]

/-- No message on hold is buffered, and none has the tag of another. -/
theorem returned_mem_messages_swept (h : queue.Keeps row)
    (hcapacity : 0 < queue.capacity) (hbounded : queue.size ≤ queue.capacity)
    (hoverdue : message ∈ queue.overdue now) :
    message.returned ∈ (queue.sweepUnconfirmed now).1.messages ↔
      message ∈ queue.takenBack now := by
  rw [h.messages_swept hcapacity hbounded, List.mem_append, List.mem_reverse,
    List.mem_map]
  constructor
  · rintro (⟨other, hother, hsame⟩ | hbuffered)
    · have hreturning := (queue.takenBack_sublist now).subset hother
      have htag := congrArg Message.tag hsame
      rw [Message.tag_returned, Message.tag_returned] at htag
      have hheld := h.held_of_mem_overdue (mem_returning.mp hreturning).1
      rw [htag, h.held_of_mem_overdue hoverdue] at hheld
      cases hheld
      exact hother
    · obtain ⟨handle, hentry⟩ :=
        h.mem_messages.mp (List.mem_of_mem_drop hbuffered)
      have hnone := h.apart _ hentry
      rw [Message.tag_returned, h.held_of_mem_overdue hoverdue] at hnone
      cases hnone
  · exact fun hmem => .inl ⟨message, hmem, rfl⟩

theorem stats_swept (h : queue.Keeps row) (hcapacity : 0 < queue.capacity)
    (hbounded : queue.size ≤ queue.capacity) (now : Timestamp) :
    (queue.sweepUnconfirmed now).2 = {
      expired := 0
      redelivered :=
        (queue.returning now).length - (queue.waiting now).length
      dropped := (lapsed now (queue.overdue now)).length } := by
  have hended := h.ended_overdue hcapacity now
  have hexpired := hended.expired
  have hredelivered := hended.redelivered
  have hdropped := hended.dropped
  rw [h.buffers.settle_overdue hcapacity hbounded] at hredelivered
  cases hstats : (queue.sweepUnconfirmed now).2 with
  | mk expired redelivered dropped =>
      rw [hstats] at hexpired hredelivered hdropped
      simp only [SweepStats.zero, Nat.zero_add] at hexpired hredelivered hdropped
      subst hexpired hdropped
      rw [SweepStats.mk.injEq]
      exact ⟨rfl, Nat.eq_sub_of_add_eq hredelivered, rfl⟩

end Keeps

end MessageBroker.Queue
