import MessageBroker.Proofs.Queue.Contents

/-! Who holds a payload in a queue: every message that carries it, buffered or on
hold. Each operation keeps the messages that it does not let go. -/

namespace MessageBroker

def Message.carrying (serial : Nat) (messages : List Message) : Nat :=
  messages.countP fun message => message.payload.serial == serial

/-- Holders of a payload in buffers and among the clients. -/
structure Share where
  buffered : Nat
  delivered : Nat
  deriving DecidableEq

def Share.none : Share := ⟨0, 0⟩

def Signal.payload? : Signal → Option Payload
  | .deliver _ delivery => delivery.payload?
  | .disconnect _ => none

def Signal.carrying (serial : Nat) (signals : List Signal) : Nat :=
  signals.countP fun signal =>
    signal.payload?.any fun payload => payload.serial == serial

namespace Message

variable {serial : Nat}

@[simp] theorem carrying_nil : carrying serial [] = 0 := rfl

@[simp] theorem carrying_append (first second : List Message) :
    carrying serial (first ++ second) =
      carrying serial first + carrying serial second :=
  List.countP_append

theorem carrying_cons (message : Message) (messages : List Message) :
    carrying serial (message :: messages) =
      carrying serial [message] + carrying serial messages :=
  carrying_append [message] messages

theorem carrying_take_drop (messages : List Message) (count serial : Nat) :
    carrying serial messages =
      carrying serial (messages.take count) +
        carrying serial (messages.drop count) := by
  rw [← carrying_append, List.take_append_drop]

theorem carrying_perm {first second : List Message} (h : first.Perm second)
    (serial : Nat) : carrying serial first = carrying serial second :=
  h.countP_eq _

theorem carrying_heldUntil (message : Message)
    (heldUntil : Option Timestamp) :
    carrying serial [{ message with heldUntil := heldUntil }] =
      carrying serial [message] := rfl

theorem carrying_filter (messages : List Message) (test : Message → Bool) :
    carrying serial messages =
      carrying serial (messages.filter fun message => !test message) +
        carrying serial (messages.filter test) := by
  rw [← carrying_perm (List.filter_append_perm test messages) serial,
    carrying_append, Nat.add_comm]

end Message

namespace Signal

variable {serial : Nat} {signals : List Signal} {payload : Payload}

theorem carrying_append (first second : List Signal) :
    carrying serial (first ++ second) =
      carrying serial first + carrying serial second :=
  List.countP_append

theorem carrying_of_none (h : ∀ signal ∈ signals, signal.payload? = none) :
    carrying serial signals = 0 := by
  refine List.countP_eq_zero.mpr fun signal hmem => ?_
  rw [h signal hmem]
  exact Bool.false_ne_true

theorem carrying_of_payload
    (h : ∀ signal ∈ signals, signal.payload? = some payload) :
    carrying serial signals =
      if payload.serial = serial then signals.length else 0 := by
  split
  · rename_i hserial
    refine List.countP_eq_length.mpr fun signal hmem => ?_
    rw [h signal hmem]
    exact beq_iff_eq.mpr hserial
  · rename_i hother
    refine List.countP_eq_zero.mpr fun signal hmem => ?_
    rw [h signal hmem]
    exact fun heq => hother (beq_iff_eq.mp heq)

end Signal

open Message (carrying carrying_cons carrying_append carrying_perm
  carrying_take_drop carrying_filter)

namespace Queue

def share (queue : Queue) (serial : Nat) : Nat :=
  carrying serial queue.messages + carrying serial queue.heldMessages

def dealt (queue : Queue) : Share :=
  if queue.messageSubscribers.isEmpty then ⟨1, 0⟩
  else if queue.settings.flags.roundRobin then ⟨0, 1⟩
  else ⟨0, queue.messageSubscribers.size⟩

def pushed (queue : Queue) (clock : TagClock) (payload : Payload)
    (timeToLive : UInt32) : Share :=
  match (queue.push clock payload timeToLive).result with
  | .ok _ => queue.dealt
  | .error _ => .none

def evictable (queue : Queue) : List Message :=
  queue.messages.take queue.excess

def releasedByPush (queue : Queue) (clock : TagClock) (payload : Payload)
    (timeToLive : UInt32) : List Message :=
  if (queue.pushed clock payload timeToLive).buffered = 0 then []
  else queue.evictable

/-- The messages that a pop lets go: the one taken, unless it is held. A hold
takes the place of another one under the same tag. -/
def releasedByPop (queue : Queue) (holdTime : UInt32) : List Message :=
  if holdTime = 0 then queue.messages.take 1
  else
    (queue.messages.take 1).flatMap fun message =>
      (queue.held.get? message.tag).toList

def releasedByConfirm (queue : Queue) (tag : Tag) : List Message :=
  (queue.held.get? tag).toList

/-- The messages that the end of a hold lets go: the one held, if it has expired,
or else those that make room for it. -/
def releasedByEndHold (queue : Queue) (now : Timestamp) (tag : Tag) :
    List Message :=
  match queue.held.get? tag with
  | none => []
  | some message =>
      if message.isExpired now then [message] else queue.evictable

def releasedByEndHolds (now : Timestamp) :
    Queue × SweepStats → List (Timestamp × Tag) → List Message
  | _, [] => []
  | state, hold :: rest =>
      state.1.releasedByEndHold now hold.2 ++
        releasedByEndHolds now (endHold now state hold) rest

def releasedBySweep (queue : Queue) (now : Timestamp) : List Message :=
  let fresh := (queue.sweepExpired now).1
  (queue.messages.filter fun message => message.isExpired now) ++
    releasedByEndHolds now (fresh, .zero) (fresh.holdDeadlines.due now)

variable {queue next : Queue} {row : List (Handle × Message)} {serial : Nat}
  {message : Message} {tag : Tag}

theorem share_congr (hbuffer : next.buffer = queue.buffer)
    (hheld : next.held = queue.held) (serial : Nat) :
    next.share serial = queue.share serial := by
  unfold share messages heldMessages
  rw [hbuffer, hheld]

theorem Buffers.share_eq (h : queue.Buffers row) (serial : Nat) :
    queue.share serial =
      carrying serial (row.map Prod.snd) +
        carrying serial queue.heldMessages := by
  unfold share
  rw [h.messages_eq]

theorem Buffers.share_ensureRoom (h : queue.Buffers row) (serial : Nat) :
    queue.share serial =
      queue.ensureRoom.1.share serial + carrying serial queue.evictable := by
  have hheld : queue.ensureRoom.1.heldMessages = queue.heldMessages :=
    congrArg AssocList.values (rebuffered_ensureRoom queue).held_eq
  have hrow := carrying_take_drop (row.map Prod.snd) queue.excess
    serial
  rw [h.share_eq, h.ensureRoom.share_eq, hheld, evictable, h.messages_eq,
    List.map_drop]
  omega

theorem Buffers.share_enterNewest (h : queue.Buffers row) (message : Message)
    (serial : Nat) :
    (queue.enterNewest message).share serial =
      queue.share serial + carrying serial [message] := by
  rw [(h.enterNewest message).share_eq, h.share_eq, List.map_append,
    carrying_append]
  show _ + carrying serial [message] + carrying serial queue.heldMessages = _
  omega

theorem Buffers.share_enterOldest (h : queue.Buffers row) (message : Message)
    (serial : Nat) :
    (queue.enterOldest message).share serial =
      queue.share serial + carrying serial [message] := by
  rw [(h.enterOldest message).share_eq, h.share_eq, List.map_cons,
    carrying_cons]
  show carrying serial [message] + _ + carrying serial queue.heldMessages = _
  omega

theorem carrying_held (queue : Queue) (tag : Tag) (serial : Nat) :
    carrying serial queue.heldMessages =
      carrying serial (queue.held.get? tag).toList +
        carrying serial (queue.held.erase tag).values := by
  cases hheld : queue.held.get? tag with
  | none =>
      rw [AssocList.erase_eq_self hheld]
      exact (Nat.zero_add _).symm
  | some message =>
      rw [Option.toList_some, ← carrying_cons]
      exact carrying_perm (AssocList.perm_values_erase hheld) serial

theorem share_forgetHold (queue : Queue) (deadline : Timestamp) (tag : Tag)
    (serial : Nat) :
    queue.share serial =
      (queue.forgetHold deadline tag).share serial +
        carrying serial (queue.held.get? tag).toList := by
  have hheld := queue.carrying_held tag serial
  show _ + _ = carrying serial queue.messages +
    carrying serial (queue.held.erase tag).values + _
  omega

theorem share_hold (queue : Queue) (message : Message) (deadline : Timestamp)
    (serial : Nat) :
    queue.share serial + carrying serial [message] =
      (queue.hold message deadline).share serial +
        carrying serial (queue.held.get? message.tag).toList := by
  have hheld := queue.carrying_held message.tag serial
  have hinsert := carrying_perm (queue.held.perm_values_insert message.tag
    { message with heldUntil := some deadline }) serial
  rw [carrying_cons, Message.carrying_heldUntil] at hinsert
  show _ + _ + _ = carrying serial queue.messages + carrying serial
    (queue.held.insert message.tag
      { message with heldUntil := some deadline }).values + _
  rw [hinsert]
  omega

theorem Stores.share_eq_zero {buffered held : Message → Prop}
    (h : queue.Stores buffered held)
    (hbuffered : ∀ message, buffered message → message.payload.serial ≠ serial)
    (hheld : ∀ message, held message → message.payload.serial ≠ serial) :
    queue.share serial = 0 := by
  have hnone : ∀ messages : List Message,
      (∀ message ∈ messages, message.payload.serial ≠ serial) →
      carrying serial messages = 0 := by
    intro messages hothers
    refine List.countP_eq_zero.mpr fun message hmem heq => ?_
    exact hothers message hmem (beq_iff_eq.mp heq)
  unfold share
  rw [hnone _ fun message hmem => hbuffered message (h.buffered message hmem),
    hnone _ fun message hmem => hheld message (h.held message hmem)]

theorem result_push (queue : Queue) (clock : TagClock) (payload : Payload)
    (timeToLive : UInt32) :
    (queue.push clock payload timeToLive).result =
      if queue.isTooLarge payload then
        .error (.tooLarge payload.size queue.settings.maxMessageSize)
      else if !queue.messageSubscribers.isEmpty then .ok ()
      else if queue.ensureRoom.2 then .ok ()
      else .error (.full queue.name) := by
  unfold push
  dsimp only
  split
  · rfl
  · split
    · rfl
    · split <;> rfl

theorem pushed_eq (queue : Queue) (clock other : TagClock) (payload : Payload)
    (timeToLive : UInt32) :
    queue.pushed clock payload timeToLive =
      queue.pushed other payload timeToLive := by
  unfold pushed
  rw [result_push, result_push]

theorem dealt_of_nobody (hnobody : queue.messageSubscribers.isEmpty = true) :
    queue.dealt = ⟨1, 0⟩ :=
  if_pos hnobody

theorem buffered_dealt (hsomebody : queue.messageSubscribers.isEmpty = false) :
    queue.dealt.buffered = 0 := by
  unfold dealt
  rw [hsomebody, if_neg Bool.false_ne_true]
  split <;> rfl

theorem length_receivers (hsomebody : queue.messageSubscribers.isEmpty = false) :
    queue.receivers.length = queue.dealt.delivered := by
  unfold dealt receivers
  rw [hsomebody, if_neg Bool.false_ne_true]
  split
  · have hsome : queue.messageSubscribers.items ≠ [] := by
      intro hnil
      rw [MemberSet.isEmpty, hnil] at hsomebody
      cases hsomebody
    obtain ⟨client, rest, hitems⟩ := List.exists_cons_of_ne_nil
      (MemberSet.items_rotate_ne_nil hsome)
    rw [MemberSet.first?, hitems]
    rfl
  · rfl

theorem Buffers.share_push (h : queue.Buffers row)
    (hcapacity : 0 < queue.capacity) (clock : TagClock) (payload : Payload)
    (timeToLive : UInt32) (serial : Nat) :
    queue.share serial +
        (if payload.serial = serial then
          (queue.pushed clock payload timeToLive).buffered else 0) =
      (queue.push clock payload timeToLive).state.1.share serial +
        carrying serial
          (queue.releasedByPush clock payload timeToLive) := by
  unfold releasedByPush pushed
  rcases queue.push_cases clock payload timeToLive with
    ⟨-, hpush⟩ | ⟨-, hsomebody, hpush⟩ | ⟨-, hnobody, hroom, hpush⟩ |
      ⟨-, -, hroom, hpush⟩ <;> rw [hpush]
  · exact congrArg (_ + ·) (ite_self 0)
  · have hsame : queue.dispatched.share serial = queue.share serial := by
      unfold dispatched
      split
      · exact share_congr rfl rfl serial
      · rfl
    simp only [buffered_dealt hsomebody, hsame, ite_self, if_true,
      Message.carrying_nil]
  · have hentered := h.ensureRoom.share_enterNewest
      (.stamp clock payload timeToLive) serial
    have hroomy := h.share_ensureRoom serial
    have hstamped : carrying serial [.stamp clock payload timeToLive] =
        if payload.serial = serial then 1 else 0 := by
      simp [carrying, Message.stamp, List.countP_cons]
    simp only [dealt_of_nobody hnobody, Nat.one_ne_zero, if_false]
    omega
  · rw [h.ensureRoom_eq_self hcapacity hroom]
    exact congrArg (_ + ·) (ite_self 0)

theorem carrying_push (queue : Queue) (clock : TagClock) (payload : Payload)
    (timeToLive : UInt32) (serial : Nat) :
    Signal.carrying serial (queue.push clock payload timeToLive).signals =
      if payload.serial = serial then
        (queue.pushed clock payload timeToLive).delivered else 0 := by
  have hnotices : Signal.carrying serial queue.noticeSignals = 0 := by
    refine Signal.carrying_of_none fun signal hmem => ?_
    obtain ⟨client, -, rfl⟩ := List.mem_map.mp hmem
    rfl
  have hmessages : Signal.carrying serial
      (queue.dispatchSignals (.stamp clock payload timeToLive)) =
        if payload.serial = serial then queue.receivers.length else 0 := by
    have hcarry : ∀ signal ∈ queue.dispatchSignals
        (.stamp clock payload timeToLive), signal.payload? = some payload := by
      intro signal hmem
      obtain ⟨client, -, rfl⟩ := List.mem_map.mp hmem
      rfl
    rw [Signal.carrying_of_payload hcarry, dispatchSignals, List.length_map]
  unfold pushed
  rcases queue.push_cases clock payload timeToLive with
    ⟨-, hpush⟩ | ⟨-, hsomebody, hpush⟩ | ⟨-, hnobody, -, hpush⟩ |
      ⟨-, -, -, hpush⟩ <;> rw [hpush]
  · exact (ite_self 0).symm
  · dsimp only
    rw [Signal.carrying_append, hmessages, hnotices,
      length_receivers hsomebody, Nat.add_zero]
  · dsimp only
    rw [hnotices, dealt_of_nobody hnobody]
    exact (ite_self 0).symm
  · exact (ite_self 0).symm

theorem Buffers.share_pop (h : queue.Buffers row) (holdTime : UInt32)
    (now : Timestamp) (serial : Nat) :
    queue.share serial =
      (queue.pop holdTime now).2.share serial +
        carrying serial (queue.releasedByPop holdTime) := by
  unfold Queue.pop releasedByPop Message.deadline?
  rw [h.messages_eq]
  cases row with
  | nil =>
      rw [h.takeOldest?_nil]
      simp
  | cons entry rest =>
      obtain ⟨left, htake, hleft⟩ := h.takeOldest?_cons
      have hheld := (rebuffered_takeOldest htake).held_eq
      have htaken : queue.share serial =
          left.share serial + carrying serial [entry.2] := by
        rw [h.share_eq, hleft.share_eq, List.map_cons, carrying_cons,
          heldMessages, heldMessages, hheld]
        omega
      rw [htake]
      by_cases hzero : holdTime = 0
      · rw [if_pos hzero, if_pos hzero]
        exact htaken
      · have hhold := left.share_hold entry.2
          (now.after holdTime.toUInt64) serial
        rw [hheld] at hhold
        rw [if_neg hzero, if_neg hzero]
        simp only [List.map_cons, List.take_succ_cons, List.take_zero,
          List.flatMap_cons, List.flatMap_nil, List.append_nil]
        omega

theorem share_confirm (hconfirm : queue.confirm tag = .ok next)
    (serial : Nat) :
    queue.share serial =
      next.share serial + carrying serial (queue.releasedByConfirm tag) := by
  unfold confirm at hconfirm
  split at hconfirm
  · cases hconfirm
  · cases hconfirm
    have hheld := queue.carrying_held tag serial
    show _ + _ = carrying serial queue.messages +
      carrying serial (queue.held.erase tag).values +
        carrying serial (queue.held.get? tag).toList
    omega

theorem share_purge (queue : Queue) (serial : Nat) :
    queue.share serial =
      queue.purge.1.share serial + carrying serial queue.messages := by
  rw [(buffers_purge queue).share_eq]
  show _ + _ = 0 + carrying serial queue.heldMessages + _
  omega

theorem Buffers.share_sweepExpired (h : queue.Buffers row) (now : Timestamp)
    (serial : Nat) :
    queue.share serial =
      (queue.sweepExpired now).1.share serial +
        carrying serial
          (queue.messages.filter fun message => message.isExpired now) := by
  have hkept : (row.filter fun entry => !entry.2.isExpired now).map Prod.snd =
      (row.map Prod.snd).filter fun message => !message.isExpired now := by
    rw [List.filter_map]
    rfl
  rw [(h.sweepExpired now).share_eq, h.share_eq, h.messages_eq, hkept,
    carrying_filter (row.map Prod.snd) fun message => message.isExpired now]
  show _ = _ + carrying serial queue.heldMessages + _
  omega

theorem Buffers.share_endHold (h : queue.Buffers row) (now : Timestamp)
    (stats : SweepStats) (hold : Timestamp × Tag) (serial : Nat) :
    queue.share serial =
      (Queue.endHold now (queue, stats) hold).1.share serial +
        carrying serial (queue.releasedByEndHold now hold.2) := by
  obtain ⟨deadline, tag⟩ := hold
  unfold releasedByEndHold
  cases hheld : queue.held.get? tag with
  | none =>
      unfold Queue.endHold
      dsimp only
      rw [hheld]
      exact (share_congr rfl rfl serial).symm
  | some message =>
      dsimp only
      rcases endHold_cases deadline now hheld stats with
        ⟨hexpired, hnext⟩ | ⟨hfresh, -, hnext⟩ | ⟨hfresh, -, hnext⟩ <;>
        rw [hnext]
      · have hforgotten := queue.share_forgetHold deadline tag serial
        rw [hheld] at hforgotten
        rw [if_pos hexpired]
        exact hforgotten
      · have hroomy := h.share_ensureRoom serial
        have hforgotten := queue.ensureRoom.1.share_forgetHold deadline tag
          serial
        rw [(rebuffered_ensureRoom queue).held_eq, hheld] at hforgotten
        have hback := (h.ensureRoom.forgetHold deadline tag).share_enterOldest
          { message with heldUntil := none } serial
        rw [Message.carrying_heldUntil] at hback
        rw [Option.toList_some] at hforgotten
        rw [hfresh, if_neg Bool.false_ne_true, hback, hroomy, hforgotten]
      · rw [hfresh, if_neg Bool.false_ne_true]
        exact h.share_ensureRoom serial

theorem Buffers.share_endHolds (h : queue.Buffers row) (now : Timestamp)
    (stats : SweepStats) (due : List (Timestamp × Tag)) (serial : Nat) :
    queue.share serial =
      (due.foldl (Queue.endHold now) (queue, stats)).1.share serial +
        carrying serial (releasedByEndHolds now (queue, stats) due) := by
  induction due generalizing queue row stats with
  | nil => rfl
  | cons hold rest ih =>
      have hfirst := h.share_endHold now stats hold serial
      obtain ⟨left, hleft⟩ := h.endHold now stats hold
      have hrest := ih hleft (Queue.endHold now (queue, stats) hold).2
      change _ = (rest.foldl _ (Queue.endHold now (queue, stats) hold)).1.share
        serial + carrying serial (releasedByEndHolds now
          (Queue.endHold now (queue, stats) hold) rest) at hrest
      rw [List.foldl_cons, releasedByEndHolds, carrying_append]
      dsimp only
      omega

theorem Buffers.share_sweep (h : queue.Buffers row) (now : Timestamp)
    (serial : Nat) :
    queue.share serial =
      (queue.sweep now).1.share serial +
        carrying serial (queue.releasedBySweep now) := by
  have hexpired := h.share_sweepExpired now serial
  have hended : (queue.sweepExpired now).1.share serial =
      (queue.sweep now).1.share serial +
        carrying serial (releasedByEndHolds now
          ((queue.sweepExpired now).1, .zero)
          ((queue.sweepExpired now).1.holdDeadlines.due now)) :=
    (h.sweepExpired now).share_endHolds now .zero _ serial
  unfold releasedBySweep
  rw [carrying_append]
  omega

theorem Keeps.releasedByPop_held (h : queue.Keeps row) {holdTime : UInt32}
    (hheld : holdTime ≠ 0) : queue.releasedByPop holdTime = [] := by
  unfold releasedByPop
  rw [if_neg hheld, h.buffers.messages_eq, List.flatMap_eq_nil_iff]
  intro message hmem
  obtain ⟨entry, hentry, rfl⟩ := List.mem_map.mp (List.mem_of_mem_take hmem)
  rw [h.apart entry hentry]
  rfl

theorem carrying_releasedByPush_le (queue : Queue) (clock : TagClock)
    (payload : Payload) (timeToLive : UInt32) (serial : Nat) :
    carrying serial (queue.releasedByPush clock payload timeToLive) ≤
      queue.share serial := by
  unfold releasedByPush
  split
  · exact Nat.zero_le _
  · have hbuffer :=
      carrying_take_drop queue.messages queue.excess serial
    unfold evictable share
    omega

theorem evictable_eq_nil (hkeeps : queue.settings.flags.forcePush = false) :
    queue.evictable = [] := by
  unfold evictable excess
  rw [hkeeps, if_neg Bool.false_ne_true, List.take_zero]

theorem mem_releasedByEndHolds {now : Timestamp} {stats : SweepStats}
    {due : List (Timestamp × Tag)}
    (hmem : message ∈ releasedByEndHolds now (queue, stats) due) :
    message.isExpired now = true ∨
      queue.settings.flags.forcePush = true := by
  induction due generalizing queue stats with
  | nil => cases hmem
  | cons hold rest ih =>
      rcases List.mem_append.mp hmem with hfirst | hrest
      · unfold releasedByEndHold at hfirst
        split at hfirst
        · cases hfirst
        · split at hfirst
          · rename_i hexpired
            rw [List.mem_singleton.mp hfirst]
            exact .inl hexpired
          · refine .inr (by_contra fun hkeeps => ?_)
            rw [evictable_eq_nil (eq_false_of_ne_true hkeeps)] at hfirst
            cases hfirst
      · have hsettings :=
          (refilled_endHold now (queue, stats) hold).settings_eq
        rw [← hsettings]
        exact ih hrest

/-- A sweep lets go what has expired, and what a queue evicts for a message that
comes back to it. -/
theorem mem_releasedBySweep {now : Timestamp}
    (hmem : message ∈ queue.releasedBySweep now) :
    message.isExpired now = true ∨
      queue.settings.flags.forcePush = true := by
  rcases List.mem_append.mp hmem with hexpired | hended
  · exact .inl (List.mem_filter.mp hexpired).2
  · rw [← (rebuffered_sweepExpired queue now).settings_eq]
    exact mem_releasedByEndHolds hended

end Queue

end MessageBroker
