import MessageBroker.Proofs.Queue.Keeping

/-! Where a queue has the message of a tag, and how one step moves it. -/

namespace MessageBroker

inductive Place where
  | buffered (message : Message)
  | awaiting (message : Message)
  | gone
  deriving DecidableEq

namespace Queue

def place (queue : Queue) (tag : Tag) : Place :=
  match queue.messages.find? fun message => message.tag = tag with
  | some message => .buffered message
  | none =>
      match queue.held.get? tag with
      | some message => .awaiting message
      | none => .gone

theorem place_create (id : QueueId) (name : String) (settings : QueueSettings)
    (slots : SlotPolicy) (tag : Tag) :
    (create id name settings slots).place tag = .gone :=
  rfl

namespace Keeps

variable {queue next : Queue} {row rest : List (Handle × Message)}
  {message : Message} {tag other : Tag}

theorem mem_messages (h : queue.Keeps row) :
    message ∈ queue.messages ↔ ∃ handle, (handle, message) ∈ row := by
  rw [h.buffers.messages_eq]
  simp

theorem mem_heldMessages (h : queue.Keeps row) :
    message ∈ queue.heldMessages ↔
      queue.held.get? message.tag = some message := by
  unfold heldMessages
  rw [AssocList.mem_values]
  constructor
  · rintro ⟨tag, hheld⟩
    rw [(h.heldUntil hheld).1]
    exact hheld
  · intro hheld
    exact ⟨_, hheld⟩

theorem nodup_tags (h : queue.Keeps row) :
    ((queue.messages ++ queue.heldMessages).map Message.tag).Nodup := by
  rw [List.map_append, List.nodup_append']
  refine ⟨?buffered, ?held, ?apart⟩
  case buffered =>
    rw [h.buffers.messages_eq, List.map_map]
    exact h.nodup
  case held =>
    have hkeys : queue.heldMessages.map Message.tag = queue.held.keys := by
      unfold heldMessages AssocList.values AssocList.keys
      rw [List.map_map]
      refine List.map_congr_left fun entry hentry => ?_
      exact (h.heldUntil (AssocList.get?_eq_some_iff.mpr hentry)).1
    rw [hkeys]
    exact queue.held.nodup_keys
  case apart =>
    intro tag hbuffered hheld
    obtain ⟨message, hmem, rfl⟩ := List.mem_map.mp hbuffered
    obtain ⟨other, hother, htag⟩ := List.mem_map.mp hheld
    obtain ⟨handle, hentry⟩ := h.mem_messages.mp hmem
    have hnone := h.apart _ hentry
    rw [← htag, h.mem_heldMessages.mp hother] at hnone
    cases hnone

theorem nodup_messages (h : queue.Keeps row) : queue.messages.Nodup := by
  have htags := h.nodup_tags
  rw [List.map_append] at htags
  exact htags.of_append_left.of_map

theorem eq_of_tag (h : queue.Keeps row) {another : Message}
    (hmem : message ∈ queue.messages) (hanother : another ∈ queue.messages)
    (htag : message.tag = another.tag) : message = another := by
  rw [h.buffers.messages_eq] at hmem hanother
  have hnodup : ((row.map Prod.snd).map Message.tag).Nodup := by
    rw [List.map_map]
    exact h.nodup
  exact List.inj_on_of_nodup_map hnodup hmem hanother htag

theorem place_eq_buffered_iff (h : queue.Keeps row) :
    queue.place tag = .buffered message ↔
      message ∈ queue.messages ∧ message.tag = tag := by
  unfold place
  cases hfind : queue.messages.find? fun message => message.tag = tag with
  | none =>
      have habsent := List.find?_eq_none.mp hfind
      constructor
      · intro hplace
        cases hheld : queue.held.get? tag <;> rw [hheld] at hplace <;>
          cases hplace
      · rintro ⟨hmem, htag⟩
        exact absurd (decide_eq_true htag) (habsent message hmem)
  | some found =>
      have hmem := List.mem_of_find?_eq_some hfind
      have htag : found.tag = tag := by simpa using List.find?_some hfind
      constructor
      · intro hplace
        cases hplace
        exact ⟨hmem, htag⟩
      · rintro ⟨hmessage, rfl⟩
        rw [h.eq_of_tag hmem hmessage htag]

theorem place_eq_awaiting_iff (h : queue.Keeps row) :
    queue.place tag = .awaiting message ↔
      queue.held.get? tag = some message := by
  unfold place
  cases hfind : queue.messages.find? fun message => message.tag = tag with
  | none =>
      cases queue.held.get? tag with
      | none => simp
      | some found => simp
  | some found =>
      obtain ⟨handle, hmem⟩ := h.mem_messages.mp
        (List.mem_of_find?_eq_some hfind)
      have htag : found.tag = tag := by simpa using List.find?_some hfind
      have hheld := h.apart _ hmem
      rw [htag] at hheld
      simp [hheld]

theorem place_eq_gone_iff (h : queue.Keeps row) :
    queue.place tag = .gone ↔
      (∀ message ∈ queue.messages, message.tag ≠ tag) ∧
        queue.held.get? tag = none := by
  constructor
  · intro hgone
    refine ⟨fun message hmem htag => ?_, ?_⟩
    · rw [h.place_eq_buffered_iff.mpr ⟨hmem, htag⟩] at hgone
      cases hgone
    · cases hheld : queue.held.get? tag with
      | none => rfl
      | some message =>
          rw [h.place_eq_awaiting_iff.mpr hheld] at hgone
          cases hgone
  · rintro ⟨habsent, hheld⟩
    cases hplace : queue.place tag with
    | buffered message =>
        obtain ⟨hmem, htag⟩ := h.place_eq_buffered_iff.mp hplace
        exact absurd htag (habsent message hmem)
    | awaiting message =>
        rw [h.place_eq_awaiting_iff.mp hplace] at hheld
        cases hheld
    | gone => rfl

theorem place_thin (h : queue.Keeps row) (hnext : Rebuffered queue next)
    (hkeeps : next.Keeps rest) (hsub : rest.Sublist row) (tag : Tag) :
    next.place tag = queue.place tag ∨
      ∃ message, queue.place tag = .buffered message ∧
        next.place tag = .gone ∧ message ∉ next.messages := by
  have hmessages : ∀ message ∈ next.messages, message ∈ queue.messages := by
    intro message hmem
    obtain ⟨handle, hentry⟩ := hkeeps.mem_messages.mp hmem
    exact h.mem_messages.mpr ⟨handle, hsub.subset hentry⟩
  cases hplace : queue.place tag with
  | buffered message =>
      obtain ⟨hmem, htag⟩ := h.place_eq_buffered_iff.mp hplace
      -- A message that left cannot be hidden behind another of its tag.
      by_cases hkept : message ∈ next.messages
      · exact .inl (hkeeps.place_eq_buffered_iff.mpr ⟨hkept, htag⟩)
      · refine .inr ⟨message, rfl, hkeeps.place_eq_gone_iff.mpr ⟨?_, ?_⟩, hkept⟩
        · intro another hanother htagged
          rw [← htag] at htagged
          have heq := h.eq_of_tag (hmessages another hanother) hmem htagged
          exact hkept (heq ▸ hanother)
        · obtain ⟨handle, hentry⟩ := h.mem_messages.mp hmem
          rw [hnext.held_eq, ← htag]
          exact h.apart _ hentry
  | awaiting message =>
      refine .inl (hkeeps.place_eq_awaiting_iff.mpr ?_)
      rw [hnext.held_eq]
      exact h.place_eq_awaiting_iff.mp hplace
  | gone =>
      obtain ⟨habsent, hheld⟩ := h.place_eq_gone_iff.mp hplace
      refine .inl (hkeeps.place_eq_gone_iff.mpr ⟨?_, ?_⟩)
      · exact fun message hmem => habsent message (hmessages message hmem)
      · rw [hnext.held_eq]
        exact hheld

theorem place_congr (h : queue.Keeps row) (hkeeps : next.Keeps rest)
    (hmessages : ∀ message, message.tag = tag →
      (message ∈ next.messages ↔ message ∈ queue.messages))
    (hheld : next.held.get? tag = queue.held.get? tag) :
    next.place tag = queue.place tag := by
  cases hplace : queue.place tag with
  | buffered message =>
      obtain ⟨hmem, htag⟩ := h.place_eq_buffered_iff.mp hplace
      exact hkeeps.place_eq_buffered_iff.mpr
        ⟨(hmessages message htag).mpr hmem, htag⟩
  | awaiting message =>
      rw [hkeeps.place_eq_awaiting_iff, hheld]
      exact h.place_eq_awaiting_iff.mp hplace
  | gone =>
      obtain ⟨habsent, hnone⟩ := h.place_eq_gone_iff.mp hplace
      refine hkeeps.place_eq_gone_iff.mpr ⟨fun message hmem htag => ?_, ?_⟩
      · exact habsent message ((hmessages message htag).mp hmem) htag
      · rw [hheld, hnone]

theorem place_enter {after : List (Handle × Message)} {handle : Handle}
    (h : queue.Keeps row) (hnext : Rebuffered queue next)
    (hkeeps : next.Keeps after)
    (hperm : after.Perm ((handle, message) :: row)) (tag : Tag) :
    next.place tag =
      if tag = message.tag then .buffered message else queue.place tag := by
  have hmessages : ∀ other, other ∈ next.messages ↔
      other = message ∨ other ∈ queue.messages := by
    intro other
    rw [hkeeps.mem_messages, h.mem_messages]
    constructor
    · rintro ⟨handle, hmem⟩
      rcases List.mem_cons.mp (hperm.subset hmem) with heq | hold
      · exact .inl (congrArg Prod.snd heq)
      · exact .inr ⟨handle, hold⟩
    · rintro (rfl | ⟨handle, hmem⟩)
      · exact ⟨_, hperm.symm.subset List.mem_cons_self⟩
      · exact ⟨handle, hperm.symm.subset (List.mem_cons_of_mem _ hmem)⟩
  split
  · rename_i htag
    exact hkeeps.place_eq_buffered_iff.mpr
      ⟨(hmessages message).mpr (.inl rfl), htag.symm⟩
  · rename_i htag
    refine h.place_congr hkeeps (fun other hother => ?_) ?_
    · rw [hmessages, or_iff_right]
      rintro rfl
      exact htag hother.symm
    · rw [hnext.held_eq]

theorem place_leave {handle : Handle}
    (h : queue.Keeps ((handle, message) :: rest))
    (hnext : Rebuffered queue next) (hkeeps : next.Keeps rest) (tag : Tag) :
    next.place tag = if tag = message.tag then .gone else queue.place tag := by
  have hmessages : ∀ other, other ∈ queue.messages ↔
      other = message ∨ other ∈ next.messages := by
    intro other
    rw [hkeeps.mem_messages, h.mem_messages]
    simp [exists_or]
  split
  · rename_i htag
    subst htag
    refine hkeeps.place_eq_gone_iff.mpr ⟨fun other hother htag => ?_, ?_⟩
    · obtain ⟨handle, hentry⟩ := hkeeps.mem_messages.mp hother
      exact (List.nodup_cons.mp h.nodup).1
        (List.mem_map.mpr ⟨_, hentry, htag⟩)
    · rw [hnext.held_eq]
      exact h.apart _ List.mem_cons_self
  · rename_i htag
    refine h.place_congr hkeeps (fun other hother => ?_) ?_
    · rw [hmessages, or_iff_right]
      rintro rfl
      exact htag hother.symm
    · rw [hnext.held_eq]

theorem place_forgetHold {deadline : Timestamp} (h : queue.Keeps row)
    (hheld : queue.held.get? tag = some message)
    (hdeadline : message.heldUntil = some deadline) (other : Tag) :
    (queue.forgetHold deadline tag).place other =
      if other = tag then .gone else queue.place other := by
  have hkeeps := h.forgetHold hheld hdeadline
  have hget := AssocList.get?_erase queue.held tag other
  split
  · rename_i htag
    subst htag
    rw [if_pos rfl] at hget
    refine hkeeps.place_eq_gone_iff.mpr ⟨fun found hmem htag => ?_, hget⟩
    obtain ⟨handle, hentry⟩ := hkeeps.mem_messages.mp hmem
    have hnone := h.apart _ hentry
    rw [htag, hheld] at hnone
    cases hnone
  · rename_i htag
    rw [if_neg htag] at hget
    exact h.place_congr hkeeps (fun _ _ => Iff.rfl) hget

theorem place_hold (h : queue.Keeps row) {deadline : Timestamp}
    (hkeeps : (queue.hold message deadline).Keeps row) (other : Tag) :
    (queue.hold message deadline).place other =
      if other = message.tag then
        .awaiting { message with heldUntil := some deadline }
      else queue.place other := by
  have hget := AssocList.get?_insert queue.held message.tag other
    { message with heldUntil := some deadline }
  split
  · rename_i htag
    rw [if_pos htag] at hget
    exact hkeeps.place_eq_awaiting_iff.mpr hget
  · rename_i htag
    rw [if_neg htag] at hget
    exact h.place_congr hkeeps (fun _ _ => Iff.rfl) hget

end Keeps

end Queue

end MessageBroker
