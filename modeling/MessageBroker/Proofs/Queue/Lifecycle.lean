import Mathlib.Logic.Relation
import MessageBroker.Proofs.Queue.Members
import MessageBroker.Proofs.Queue.Place

/-! The ways of a message through a queue, for everything that a queue can be
asked to do with its messages. -/

namespace MessageBroker

/-- What may be asked of a queue that moves its messages, where a pop comes with
what it hands out. -/
inductive Act where
  | push
  | pop (holdTime : UInt32) (now : Timestamp) (handedOut : Option Message)
  | confirm (tag : Tag)
  | purge
  | sweep (now : Timestamp)

def Act.isFilling : Act → Bool
  | .push | .sweep _ => true
  | _ => false

theorem Message.free_eq {message : Message} (hfree : message.heldUntil = none) :
    { message with heldUntil := none } = message := by
  rw [← hfree]

namespace Queue

/-- One move of a message while a queue does as it is asked, where `final` is
the queue afterwards. -/
inductive Passage (final : Queue) : Act → Place → Place → Prop
  | held {message : Message} {holdTime : UInt32} {now : Timestamp}
      (nonzero : holdTime ≠ 0) :
      Passage final
        (.pop holdTime now (some { message with
          heldUntil := some (now.after holdTime.toUInt64) }))
        (.buffered message)
        (.awaiting { message with
          heldUntil := some (now.after holdTime.toUInt64) })
  | taken {message : Message} {now : Timestamp} :
      Passage final (.pop 0 now (some message)) (.buffered message) .gone
  | confirmed {message : Message} :
      Passage final (.confirm message.tag) (.awaiting message) .gone
  | purged {message : Message} : Passage final .purge (.buffered message) .gone
  | expired {message : Message} {now : Timestamp}
      (expired : message.isExpired now = true) :
      Passage final (.sweep now) (.buffered message) .gone
  | redelivered {message : Message} {now : Timestamp}
      (lapsed : message.isHoldOver now = true)
      (alive : message.isExpired now = false) :
      Passage final (.sweep now) (.awaiting message)
        (.buffered { message with heldUntil := none })
  | released {message : Message} {now : Timestamp}
      (lapsed : message.isHoldOver now = true)
      (expired : message.isExpired now = true) :
      Passage final (.sweep now) (.awaiting message) .gone
  | evicted {message : Message} {act : Act} (filling : act.isFilling = true)
      (forced : final.settings.flags.forcePush = true)
      (full : final.isFull = true) :
      Passage final act (.buffered message) .gone

abbrev Passages (final : Queue) (act : Act) : Place → Place → Prop :=
  Relation.ReflTransGen (final.Passage act)

variable {queue next final : Queue} {row rest : List (Handle × Message)}
  {message : Message} {tag : Tag} {now : Timestamp}

/-- What was a move towards an earlier queue is one towards a later queue that
is at least as full. -/
theorem Passages.later {act : Act} {first last : Place}
    (h : next.Passages act first last)
    (hsettings : final.settings = next.settings)
    (hfull : next.isFull = true → final.isFull = true) :
    final.Passages act first last := by
  induction h with
  | refl => exact .refl
  | tail _ passage ih =>
      refine ih.tail ?_
      cases passage with
      | held nonzero => exact .held nonzero
      | taken => exact .taken
      | confirmed => exact .confirmed
      | purged => exact .purged
      | expired expired => exact .expired expired
      | redelivered lapsed alive => exact .redelivered lapsed alive
      | released lapsed expired => exact .released lapsed expired
      | evicted filling forced full =>
          exact .evicted filling (hsettings ▸ forced) (hfull full)

theorem Passages.ne_gone {act : Act} {first last : Place}
    (h : final.Passages act first last) (hthere : last ≠ .gone) :
    first ≠ .gone := by
  induction h with
  | refl => exact hthere
  | tail _ passage ih =>
      refine ih ?_
      rintro rfl
      cases passage

theorem Buffers.isFull_iff_length (h : queue.Buffers row) :
    queue.isFull = true ↔ queue.capacity ≤ row.length := by
  rw [isFull_iff, h.size_eq]

theorem Buffers.capacity_le_kept (h : queue.Buffers row)
    (hfull : queue.isFull = true) :
    queue.capacity ≤ (row.drop queue.excess).length + 1 := by
  rw [h.isFull_iff_length] at hfull
  rw [List.length_drop]
  unfold excess
  rw [h.size_eq]
  split <;> omega

theorem Buffers.isFull_ensureRoom (h : queue.Buffers row)
    (hfull : queue.isFull = true) (hroom : queue.ensureRoom.2 = false) :
    queue.ensureRoom.1.isFull = true := by
  rw [h.ensureRoom.isFull_iff_length, (rebuffered_ensureRoom queue).capacity_eq]
  have hkept : ¬ (queue.settings.flags.forcePush = true ∧ 0 < queue.capacity) := by
    intro hforced
    rw [h.hasRoom_iff.mpr (.inr hforced)] at hroom
    cases hroom
  rw [h.isFull_iff_length] at hfull
  by_cases hforced : queue.settings.flags.forcePush = true
  · have hnone : ¬ 0 < queue.capacity := fun hsome => hkept ⟨hforced, hsome⟩
    omega
  · unfold excess
    rw [if_neg hforced, List.drop_zero]
    exact hfull

theorem Buffers.isFull_enterNewest (h : queue.Buffers row)
    (hfull : queue.isFull = true) (message : Message) :
    (queue.ensureRoom.1.enterNewest message).isFull = true := by
  have hroomy := h.ensureRoom
  rw [(hroomy.enterNewest message).isFull_iff_length,
    (rebuffered_enterNewest _ message).capacity_eq,
    (rebuffered_ensureRoom queue).capacity_eq, List.length_append]
  exact h.capacity_le_kept hfull

theorem Buffers.isFull_push (h : queue.Buffers row)
    (hfull : queue.isFull = true) (clock : TagClock) (payload : Payload)
    (timeToLive : UInt32) :
    (queue.push clock payload timeToLive).state.1.isFull = true := by
  rcases queue.push_cases clock payload timeToLive with
    ⟨-, hpush⟩ | ⟨-, -, hpush⟩ | ⟨-, -, -, hpush⟩ | ⟨-, -, hroom, hpush⟩ <;>
    rw [hpush]
  · exact hfull
  · unfold dispatched
    split <;> exact hfull
  · exact h.isFull_enterNewest hfull _
  · exact h.isFull_ensureRoom hfull hroom

/-! One operation at a time. -/

/-- Each message of the queue has moved as it may, and each tag still stands for
one message at most. -/
structure Moves (act : Act) (queue next : Queue) : Prop where
  keeps : ∃ row, next.Keeps row
  passages : ∀ tag, next.Passages act (queue.place tag) (next.place tag)

theorem Keeps.moves_refl (h : queue.Keeps row) (act : Act) :
    Moves act queue queue :=
  ⟨⟨row, h⟩, fun _ => .refl⟩

theorem Keeps.pop_cons {handle : Handle}
    (h : queue.Keeps ((handle, message) :: rest)) (holdTime : UInt32)
    (now : Timestamp) :
    ∃ next,
      queue.pop holdTime now =
        (some { message with heldUntil := Message.deadline? now holdTime },
          next) ∧
      next.Keeps rest ∧
      ∀ tag, next.place tag =
        if tag = message.tag then
          if holdTime = 0 then .gone
          else .awaiting { message with
            heldUntil := Message.deadline? now holdTime }
        else queue.place tag := by
  obtain ⟨left, htake, hbuffers⟩ := h.buffers.takeOldest?_cons
  have hnext := rebuffered_takeOldest htake
  have hleft := h.thin hnext hbuffers (List.sublist_cons_self _ _)
  have hplace := h.place_leave hnext hleft
  unfold Queue.pop
  rw [htake]
  by_cases hzero : holdTime = 0
  · have hdeadline : Message.deadline? now holdTime = none := if_pos hzero
    refine ⟨left, ?_, hleft, fun tag => ?_⟩
    · rw [hdeadline, Message.free_eq (h.free _ List.mem_cons_self)]
    · rw [if_pos hzero]
      exact hplace tag
  · have hdeadline : Message.deadline? now holdTime =
        some (now.after holdTime.toUInt64) := if_neg hzero
    have hnew : ∀ entry ∈ rest, entry.2.tag ≠ message.tag :=
      fun entry hentry htag => (List.nodup_cons.mp h.nodup).1
        (List.mem_map.mpr ⟨entry, hentry, htag⟩)
    have hfresh : left.held.get? message.tag = none := by
      rw [hnext.held_eq]
      exact h.apart _ List.mem_cons_self
    have hheld := hleft.hold hnew hfresh (now.after holdTime.toUInt64)
    rw [hdeadline]
    refine ⟨_, rfl, hheld, fun tag => ?_⟩
    rw [hleft.place_hold hheld, hplace, if_neg hzero]
    split <;> rfl

theorem Keeps.pop_nil (h : queue.Keeps []) (holdTime : UInt32)
    (now : Timestamp) : queue.pop holdTime now = (none, queue) := by
  unfold Queue.pop
  rw [h.buffers.takeOldest?_nil]

theorem Keeps.moves_pop (h : queue.Keeps row) (holdTime : UInt32)
    (now : Timestamp) :
    Moves (.pop holdTime now (queue.pop holdTime now).1) queue
      (queue.pop holdTime now).2 := by
  cases row with
  | nil =>
      rw [h.pop_nil]
      exact h.moves_refl _
  | cons entry rest =>
      obtain ⟨handle, message⟩ := entry
      obtain ⟨next, hpop, hkeeps, hplace⟩ := h.pop_cons holdTime now
      have hfirst : queue.place message.tag = .buffered message :=
        h.place_eq_buffered_iff.mpr
          ⟨h.mem_messages.mpr ⟨handle, List.mem_cons_self⟩, rfl⟩
      rw [hpop]
      refine ⟨⟨rest, hkeeps⟩, fun tag => ?_⟩
      show next.Passages _ _ (next.place tag)
      rw [hplace]
      split
      · rename_i htag
        rw [htag, hfirst]
        split
        · rename_i hzero
          subst hzero
          rw [show Message.deadline? now 0 = none from if_pos rfl,
            Message.free_eq (h.free _ List.mem_cons_self)]
          exact .single .taken
        · rename_i hnonzero
          rw [show Message.deadline? now holdTime =
            some (now.after holdTime.toUInt64) from if_neg hnonzero]
          exact .single (.held hnonzero)
      · exact .refl

theorem Keeps.place_confirm (h : queue.Keeps row)
    (hconfirm : queue.confirm tag = .ok next) (other : Tag) :
    next.place other = if other = tag then .gone else queue.place other := by
  obtain ⟨message, deadline, hheld, hdeadline, rfl⟩ := h.confirm hconfirm
  exact h.place_forgetHold hheld hdeadline other

theorem Keeps.moves_confirm (h : queue.Keeps row)
    (hconfirm : queue.confirm tag = .ok next) :
    Moves (.confirm tag) queue next := by
  obtain ⟨message, deadline, hheld, hdeadline, hnext⟩ := h.confirm hconfirm
  refine ⟨⟨row, hnext ▸ h.forgetHold hheld hdeadline⟩, fun other => ?_⟩
  rw [h.place_confirm hconfirm]
  split
  · rename_i htag
    obtain ⟨rfl, -⟩ := h.heldUntil hheld
    rw [htag, h.place_eq_awaiting_iff.mpr hheld]
    exact .single .confirmed
  · exact .refl

theorem Keeps.moves_purge (h : queue.Keeps row) :
    Moves .purge queue queue.purge.1 := by
  refine ⟨⟨[], h.purge⟩, fun tag => ?_⟩
  rcases h.place_thin (rebuffered_purge queue) h.purge (List.nil_sublist _) tag
    with hsame | ⟨message, hplace, hgone, -⟩
  · rw [hsame]
  · rw [hplace, hgone]
    exact .single .purged

theorem Keeps.moves_sweepExpired (h : queue.Keeps row) (now : Timestamp) :
    Moves (.sweep now) queue (queue.sweepExpired now).1 := by
  have hkeeps := h.sweepExpired now
  refine ⟨⟨_, hkeeps⟩, fun tag => ?_⟩
  rcases h.place_thin (rebuffered_sweepExpired queue now) hkeeps
    List.filter_sublist tag with hsame | ⟨message, hplace, hgone, hleft⟩
  · rw [hsame]
  · rw [hplace, hgone]
    have hexpired : message.isExpired now = true := by
      rw [← Bool.not_eq_false]
      intro halive
      obtain ⟨handle, hmem⟩ :=
        h.mem_messages.mp (h.place_eq_buffered_iff.mp hplace).1
      exact hleft (hkeeps.mem_messages.mpr
        ⟨handle, List.mem_filter.mpr ⟨hmem, by simp [halive]⟩⟩)
    exact .single (.expired hexpired)

theorem Keeps.place_ensureRoom (h : queue.Keeps row) (tag : Tag) :
    queue.ensureRoom.1.place tag = queue.place tag ∨
      ∃ message, queue.place tag = .buffered message ∧
        queue.ensureRoom.1.place tag = .gone ∧
        queue.settings.flags.forcePush = true ∧ queue.isFull = true := by
  rcases h.place_thin (rebuffered_ensureRoom queue) h.ensureRoom
    (List.drop_sublist _ _) tag with hsame | ⟨message, hplace, hgone, hleft⟩
  · exact .inl hsame
  · have hexcess : queue.excess ≠ 0 := by
      intro hnone
      have hkeeps := h.ensureRoom
      rw [hnone, List.drop_zero] at hkeeps
      obtain ⟨handle, hmem⟩ :=
        h.mem_messages.mp (h.place_eq_buffered_iff.mp hplace).1
      exact hleft (hkeeps.mem_messages.mpr ⟨handle, hmem⟩)
    unfold excess at hexcess
    split at hexcess
    · rename_i hforced
      refine .inr ⟨message, hplace, hgone, hforced, isFull_iff.mpr ?_⟩
      omega
    · exact absurd rfl hexcess

theorem Keeps.passages_ensureRoom (h : queue.Keeps row) {act : Act}
    (hfilling : act.isFilling = true) (hsettings : final.settings = queue.settings)
    (hfull : queue.isFull = true → final.isFull = true) (tag : Tag) :
    final.Passages act (queue.place tag) (queue.ensureRoom.1.place tag) := by
  rcases h.place_ensureRoom tag with
    hsame | ⟨message, hplace, hgone, hforced, hwasFull⟩
  · rw [hsame]
  · rw [hplace, hgone]
    exact .single (.evicted hfilling (hsettings ▸ hforced) (hfull hwasFull))

theorem Keeps.accept (h : queue.Keeps row) (hfree : message.heldUntil = none)
    (hfresh : queue.place message.tag = .gone) :
    (∃ row, (queue.ensureRoom.1.enterNewest message).Keeps row) ∧
    ∀ tag, (queue.ensureRoom.1.enterNewest message).place tag =
      if tag = message.tag then .buffered message
      else queue.ensureRoom.1.place tag := by
  have hroomy := h.ensureRoom
  have hnext := rebuffered_ensureRoom queue
  obtain ⟨habsent, hheld⟩ := h.place_eq_gone_iff.mp hfresh
  have hnew : ∀ entry ∈ row.drop queue.excess, entry.2.tag ≠ message.tag :=
    fun entry hentry => habsent entry.2
      (h.mem_messages.mpr ⟨entry.1, List.mem_of_mem_drop hentry⟩)
  have hkeeps := hroomy.enterNewest hfree hnew (hnext.held_eq ▸ hheld)
  exact ⟨⟨_, hkeeps⟩, hroomy.place_enter (rebuffered_enterNewest _ message)
    hkeeps (List.perm_append_singleton _ _)⟩

/-- A push moves the messages that are there as it may. The only new message is
the one that it stamps. -/
theorem Keeps.push (h : queue.Keeps row) {clock : TagClock} {payload : Payload}
    {timeToLive : UInt32}
    (hfresh : (queue.push clock payload timeToLive).result = .ok () →
      queue.place clock.nextTag = .gone) :
    (∃ row, (queue.push clock payload timeToLive).state.1.Keeps row) ∧
    ∀ tag,
      (queue.push clock payload timeToLive).state.1.Passages .push
        (queue.place tag)
        ((queue.push clock payload timeToLive).state.1.place tag) ∨
      tag = clock.nextTag ∧
        (queue.push clock payload timeToLive).result = .ok () ∧
        (queue.push clock payload timeToLive).state.1.place tag =
          .buffered (.stamp clock payload timeToLive) := by
  have hfull := fun hfull => h.buffers.isFull_push hfull clock payload timeToLive
  rcases queue.push_cases clock payload timeToLive with
    ⟨-, hpush⟩ | ⟨-, -, hpush⟩ | ⟨-, -, -, hpush⟩ | ⟨-, -, -, hpush⟩ <;>
    rw [hpush] at hfull hfresh ⊢
  case inl => exact ⟨⟨row, h⟩, fun _ => .inl .refl⟩
  case inr.inl =>
    have hdispatched : queue.dispatched.Keeps row := by
      unfold dispatched
      split
      · exact ⟨⟨h.buffers.represents, h.buffers.indexes⟩, h.holds, h.free,
          h.nodup, h.apart⟩
      · exact h
    refine ⟨⟨row, hdispatched⟩, fun tag => .inl ?_⟩
    have hplace : queue.dispatched.place tag = queue.place tag := by
      unfold dispatched
      split <;> rfl
    rw [hplace]
  case inr.inr.inl =>
    have hfree : (Message.stamp clock payload timeToLive).heldUntil = none := rfl
    obtain ⟨hkeeps, hplace⟩ := h.accept hfree (hfresh rfl)
    have hnext := (rebuffered_ensureRoom queue).trans
      (rebuffered_enterNewest _ (.stamp clock payload timeToLive))
    refine ⟨hkeeps, fun tag => ?_⟩
    dsimp only
    rw [hplace]
    split
    · rename_i htag
      exact .inr ⟨htag, rfl, rfl⟩
    · exact .inl (h.passages_ensureRoom rfl hnext.settings_eq hfull tag)
  case inr.inr.inr =>
    have hnext := rebuffered_ensureRoom queue
    exact ⟨⟨_, h.ensureRoom⟩, fun tag =>
      .inl (h.passages_ensureRoom rfl hnext.settings_eq hfull tag)⟩

theorem Keeps.refill (h : queue.Keeps row) (hfree : message.heldUntil = none)
    (hfresh : queue.place message.tag = .gone) :
    (∃ row, (queue.refill message).Keeps row) ∧
    ∀ tag, (queue.refill message).place tag ≠ .gone →
      queue.place tag ≠ .gone ∨ tag = message.tag := by
  have hroomy : ∀ tag, queue.ensureRoom.1.place tag ≠ .gone →
      queue.place tag ≠ .gone := by
    intro tag hthere
    rcases h.place_ensureRoom tag with hsame | ⟨-, -, hgone, -⟩
    · rw [← hsame]
      exact hthere
    · exact absurd hgone hthere
  unfold Queue.refill
  split
  · exact ⟨⟨row, h⟩, fun _ => .inl⟩
  · dsimp only
    split
    · obtain ⟨hkeeps, hplace⟩ := h.accept hfree hfresh
      refine ⟨hkeeps, fun tag hthere => ?_⟩
      rw [hplace] at hthere
      split at hthere
      · rename_i htag
        exact .inr htag
      · exact .inl (hroomy tag hthere)
    · exact ⟨⟨_, h.ensureRoom⟩, fun tag hthere => .inl (hroomy tag hthere)⟩

/-- Whatever turn a queue takes, no tag stands for two messages afterwards, and
the only tag that can be new is the one that is stamped. -/
theorem Turn.outcome {clock : TagClock} {stamps : Nat}
    (turn : queue.Turn clock stamps next) (h : queue.Keeps row)
    (hfresh : stamps = 1 → queue.place clock.nextTag = .gone) :
    (∃ row, next.Keeps row) ∧
    ∀ tag, next.place tag ≠ .gone →
      queue.place tag ≠ .gone ∨ (stamps = 1 ∧ tag = clock.nextTag) := by
  cases turn with
  | push payload timeToLive accepted =>
      obtain ⟨hkeeps, hpassages⟩ := h.push fun _ => hfresh rfl
      refine ⟨hkeeps, fun tag hthere => ?_⟩
      rcases hpassages tag with hmoved | ⟨htag, -, -⟩
      · exact .inl (hmoved.ne_gone hthere)
      · exact .inr ⟨rfl, htag⟩
  | refuse payload timeToLive rejection refused =>
      have hrefused : (queue.push clock payload timeToLive).result ≠ .ok () := by
        rw [refused]
        intro hok
        cases hok
      obtain ⟨hkeeps, hpassages⟩ := h.push fun hok => absurd hok hrefused
      refine ⟨hkeeps, fun tag hthere => ?_⟩
      rcases hpassages tag with hmoved | ⟨-, hok, -⟩
      · exact .inl (hmoved.ne_gone hthere)
      · exact absurd hok hrefused
  | pop holdTime =>
      have hmoves := h.moves_pop holdTime clock.now
      exact ⟨hmoves.keeps, fun tag hthere =>
        .inl ((hmoves.passages tag).ne_gone hthere)⟩
  | confirm confirmed =>
      have hmoves := h.moves_confirm confirmed
      exact ⟨hmoves.keeps, fun tag hthere =>
        .inl ((hmoves.passages tag).ne_gone hthere)⟩
  | purge =>
      have hmoves := h.moves_purge
      exact ⟨hmoves.keeps, fun tag hthere =>
        .inl ((hmoves.passages tag).ne_gone hthere)⟩
  | @refill message tag free =>
      obtain ⟨hkeeps, hplaces⟩ := h.refill free (tag ▸ hfresh rfl)
      refine ⟨hkeeps, fun other hthere => ?_⟩
      exact (hplaces other hthere).imp_right fun hother =>
        ⟨rfl, hother.trans tag⟩

end Queue

end MessageBroker
