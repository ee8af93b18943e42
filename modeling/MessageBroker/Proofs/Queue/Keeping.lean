import MessageBroker.Proofs.Collection.AssocList
import MessageBroker.Proofs.Queue.Buffer

/-! Queues in which every message has a tag of its own. The four structures that
hold messages and deadlines stay in step. -/

namespace MessageBroker.Queue

/-- Every message on hold stands under its own tag, and the index has exactly
the ends of the holds. -/
structure HoldsExact (held : AssocList Tag Message)
    (holdDeadlines : DeadlineIndex Tag) : Prop where
  own : ∀ tag message, held.get? tag = some message →
    message.tag = tag ∧ message.heldUntil.isSome = true
  deadlines : ∀ deadline tag,
    (deadline, tag) ∈ holdDeadlines.entries ↔
      ∃ message, held.get? tag = some message ∧
        message.heldUntil = some deadline

theorem holdsExact_empty : HoldsExact .empty .empty where
  own _ _ hheld := nomatch hheld
  deadlines deadline tag := by simp [DeadlineIndex.empty]

namespace HoldsExact

variable {held : AssocList Tag Message} {holdDeadlines : DeadlineIndex Tag}
  {message : Message} {deadline : Timestamp} {tag : Tag}

theorem hold (h : HoldsExact held holdDeadlines)
    (hfresh : held.get? message.tag = none) (deadline : Timestamp) :
    HoldsExact
      (held.insert message.tag { message with heldUntil := some deadline })
      (holdDeadlines.insert deadline message.tag) where
  own tag found hfound := by
    rw [AssocList.get?_insert] at hfound
    split at hfound
    · rename_i htag
      cases hfound
      exact ⟨htag.symm, rfl⟩
    · exact h.own tag found hfound
  deadlines other tag := by
    rw [DeadlineIndex.mem_insert, h.deadlines, AssocList.get?_insert]
    by_cases htag : tag = message.tag
    · subst htag
      rw [if_pos rfl, hfresh]
      simp [eq_comm]
    · simp [htag]

theorem release (h : HoldsExact held holdDeadlines)
    (hheld : held.get? tag = some message)
    (hdeadline : message.heldUntil = some deadline) :
    HoldsExact (held.erase tag) (holdDeadlines.erase deadline tag) where
  own other found hfound := by
    rw [AssocList.get?_erase] at hfound
    split at hfound
    · cases hfound
    · exact h.own other found hfound
  deadlines other another := by
    rw [DeadlineIndex.mem_erase, h.deadlines, AssocList.get?_erase]
    by_cases htag : another = tag
    · subst htag
      rw [if_pos rfl, hheld]
      simp [hdeadline, eq_comm]
    · simp [htag]

end HoldsExact

/-- The queue buffers this row of free messages, and no tag stands for two
messages. -/
structure Keeps (queue : Queue) (row : List (Handle × Message)) : Prop where
  buffers : queue.Buffers row
  holds : HoldsExact queue.held queue.holdDeadlines
  free : ∀ entry ∈ row, entry.2.heldUntil = none
  nodup : (row.map fun entry => entry.2.tag).Nodup
  apart : ∀ entry ∈ row, queue.held.get? entry.2.tag = none

theorem keeps_create (id : QueueId) (name : String)
    (settings : QueueSettings) (slots : SlotPolicy) :
    (create id name settings slots).Keeps [] where
  buffers := buffers_create id name settings slots
  holds := holdsExact_empty
  free _ hmem := nomatch hmem
  nodup := List.nodup_nil
  apart _ hmem := nomatch hmem

namespace Keeps

variable {queue next : Queue} {row rest : List (Handle × Message)}
  {message : Message} {tag : Tag}

theorem thin (h : queue.Keeps row) (hnext : Rebuffered queue next)
    (hbuffers : next.Buffers rest) (hsub : rest.Sublist row) :
    next.Keeps rest where
  buffers := hbuffers
  holds := by
    rw [hnext.held_eq, hnext.holdDeadlines_eq]
    exact h.holds
  free entry hmem := h.free entry (hsub.subset hmem)
  nodup := h.nodup.sublist (hsub.map _)
  apart entry hmem := by
    rw [hnext.held_eq]
    exact h.apart entry (hsub.subset hmem)

theorem enter {after : List (Handle × Message)} {handle : Handle}
    (h : queue.Keeps row) (hnext : Rebuffered queue next)
    (hbuffers : next.Buffers after)
    (hperm : after.Perm ((handle, message) :: row))
    (hfree : message.heldUntil = none)
    (hnew : ∀ entry ∈ row, entry.2.tag ≠ message.tag)
    (hheld : queue.held.get? message.tag = none) : next.Keeps after where
  buffers := hbuffers
  holds := by
    rw [hnext.held_eq, hnext.holdDeadlines_eq]
    exact h.holds
  free entry hmem := by
    rcases List.mem_cons.mp (hperm.subset hmem) with rfl | hold
    · exact hfree
    · exact h.free entry hold
  nodup := by
    refine (hperm.map _).nodup_iff.mpr (List.nodup_cons.mpr ⟨?_, h.nodup⟩)
    intro hmem
    obtain ⟨entry, hentry, htag⟩ := List.mem_map.mp hmem
    exact hnew entry hentry htag
  apart entry hmem := by
    rw [hnext.held_eq]
    rcases List.mem_cons.mp (hperm.subset hmem) with rfl | hold
    · exact hheld
    · exact h.apart entry hold

theorem enterNewest (h : queue.Keeps row) (hfree : message.heldUntil = none)
    (hnew : ∀ entry ∈ row, entry.2.tag ≠ message.tag)
    (hheld : queue.held.get? message.tag = none) :
    (queue.enterNewest message).Keeps
      (row ++ [(queue.buffer.freshHandle, message)]) :=
  h.enter (rebuffered_enterNewest queue message)
    (h.buffers.enterNewest message) (List.perm_append_singleton _ _) hfree hnew
    hheld

theorem enterOldest (h : queue.Keeps row) (hfree : message.heldUntil = none)
    (hnew : ∀ entry ∈ row, entry.2.tag ≠ message.tag)
    (hheld : queue.held.get? message.tag = none) :
    (queue.enterOldest message).Keeps
      ((queue.buffer.freshHandle, message) :: row) :=
  h.enter (rebuffered_enterOldest queue message)
    (h.buffers.enterOldest message) (List.Perm.refl _) hfree hnew hheld

theorem ensureRoom (h : queue.Keeps row) :
    queue.ensureRoom.1.Keeps (row.drop queue.excess) :=
  h.thin (rebuffered_ensureRoom queue) h.buffers.ensureRoom
    (List.drop_sublist _ _)

theorem sweepExpired (h : queue.Keeps row) (now : Timestamp) :
    (queue.sweepExpired now).1.Keeps
      (row.filter fun entry => !entry.2.isExpired now) :=
  h.thin (rebuffered_sweepExpired queue now) (h.buffers.sweepExpired now)
    List.filter_sublist

theorem purge (h : queue.Keeps row) : queue.purge.1.Keeps [] :=
  h.thin (rebuffered_purge queue) (buffers_purge queue) (List.nil_sublist _)

theorem forgetHold {deadline : Timestamp} (h : queue.Keeps row)
    (hheld : queue.held.get? tag = some message)
    (hdeadline : message.heldUntil = some deadline) :
    (queue.forgetHold deadline tag).Keeps row where
  buffers := ⟨h.buffers.represents, h.buffers.indexes⟩
  holds := h.holds.release hheld hdeadline
  free := h.free
  nodup := h.nodup
  apart entry hmem := by
    show (queue.held.erase tag).get? entry.2.tag = none
    rw [AssocList.get?_erase, h.apart entry hmem, ite_self]

theorem hold (h : queue.Keeps row)
    (hnew : ∀ entry ∈ row, entry.2.tag ≠ message.tag)
    (hheld : queue.held.get? message.tag = none) (deadline : Timestamp) :
    (queue.hold message deadline).Keeps row where
  buffers := ⟨h.buffers.represents, h.buffers.indexes⟩
  holds := h.holds.hold hheld deadline
  free := h.free
  nodup := h.nodup
  apart entry hmem := by
    show (queue.held.insert message.tag _).get? entry.2.tag = none
    rw [AssocList.get?_insert, if_neg (hnew entry hmem), h.apart entry hmem]

theorem heldUntil (h : queue.Keeps row)
    (hheld : queue.held.get? tag = some message) :
    message.tag = tag ∧ ∃ deadline, message.heldUntil = some deadline :=
  (h.holds.own tag message hheld).imp_right Option.isSome_iff_exists.mp

theorem confirm (h : queue.Keeps row) (hconfirm : queue.confirm tag = .ok next) :
    ∃ message deadline, queue.held.get? tag = some message ∧
      message.heldUntil = some deadline ∧
      next = queue.forgetHold deadline tag := by
  unfold Queue.confirm at hconfirm
  split at hconfirm
  · cases hconfirm
  · rename_i message hheld
    obtain ⟨-, deadline, hdeadline⟩ := h.heldUntil hheld
    rw [hdeadline] at hconfirm
    cases hconfirm
    exact ⟨message, deadline, hheld, hdeadline, rfl⟩

end Keeps

end MessageBroker.Queue
