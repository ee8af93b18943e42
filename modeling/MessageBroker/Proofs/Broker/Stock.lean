import MessageBroker.Proofs.Broker.Reached
import MessageBroker.Proofs.Broker.Settling
import MessageBroker.Proofs.Queue.Coherence
import MessageBroker.Proofs.Tag

/-! As long as no more than 2^32 tags have been stamped, no two messages of a
broker have the same tag. -/

namespace MessageBroker.Broker

/-- Every queue keeps its messages apart, every tag in use has been stamped, and
no tag is in use in two queues. -/
structure Stocked (stamps : Nat) (broker : Broker) : Prop where
  clock : broker.clock.Within stamps
  keeps : broker.queues.All fun _ queue => ∃ row, queue.Keeps row
  stamped : ∀ id tag, broker.place id tag ≠ .gone → broker.clock.Stamped tag
  apart : ∀ first second tag, broker.place first tag ≠ .gone →
    broker.place second tag ≠ .gone → first = second

/-- After so many tags a step stamps some more. What is in a queue afterwards
was there before, unless it is the message stamped. -/
structure Inflow (stamps more : Nat) (broker after : Broker) : Prop where
  clock : after.clock.Within (stamps + more)
  stamped : ∀ tag, broker.clock.Stamped tag → after.clock.Stamped tag
  stampedNext : more = 1 → after.clock.Stamped broker.clock.nextTag
  keeps : after.queues.All fun _ queue => ∃ row, queue.Keeps row
  places : ∃ target, ∀ id tag, after.place id tag ≠ .gone →
    broker.place id tag ≠ .gone ∨
      (more = 1 ∧ id = target ∧ tag = broker.clock.nextTag)

theorem stocked_idle (config : Config) (now : Timestamp)
    (slots : QueueId → SlotPolicy) : Stocked 0 (idle config now slots) where
  clock := TagClock.within_start now
  keeps := Registry.all_empty
  stamped _ _ hthere := absurd rfl hthere
  apart _ _ _ hthere := absurd rfl hthere

namespace Stocked

variable {stamps more : Nat} {broker after : Broker} {id : QueueId}
  {queue next : Queue} {tag : Tag}

theorem nodup_tags (h : Stocked stamps broker) :
    (broker.messages.map Message.tag).Nodup := by
  have hthere : ∀ id queue, broker.queues.find? id = some queue → ∀ tag,
      tag ∈ (queue.messages ++ queue.heldMessages).map Message.tag →
      broker.place id tag ≠ .gone := by
    intro id queue found tag hmem hgone
    obtain ⟨row, hkeeps⟩ := h.keeps id queue found
    obtain ⟨message, hmessage, rfl⟩ := List.mem_map.mp hmem
    rw [place_of_found found] at hgone
    obtain ⟨habsent, hfree⟩ := hkeeps.place_eq_gone_iff.mp hgone
    rcases List.mem_append.mp hmessage with hbuffered | hheld
    · exact habsent message hbuffered rfl
    · rw [hkeeps.mem_heldMessages.mp hheld] at hfree
      cases hfree
  unfold messages Registry.toList
  rw [List.map_flatMap]
  apply AssocList.nodup_flatMap_values
  · intro id queue found
    obtain ⟨row, hkeeps⟩ := h.keeps id queue found
    exact hkeeps.nodup_tags
  · intro first queue second other found foundOther tag hmem hother
    exact h.apart first second tag (hthere first queue found tag hmem)
      (hthere second other foundOther tag hother)

theorem place_nextTag (h : Stocked stamps broker) (hbound : stamps < UInt32.size)
    (id : QueueId) : broker.place id broker.clock.nextTag = .gone := by
  by_contra hthere
  exact (h.stamped id _ hthere).ne_nextTag h.clock hbound rfl

theorem inflow (h : Stocked stamps broker)
    (hbound : stamps + more ≤ UInt32.size)
    (hflow : Inflow stamps more broker after) : Stocked (stamps + more) after := by
  obtain ⟨target, hplaces⟩ := hflow.places
  refine ⟨hflow.clock, hflow.keeps, ?stamped, ?apart⟩
  case stamped =>
    intro id tag hthere
    rcases hplaces id tag hthere with hold | ⟨hmore, -, rfl⟩
    · exact hflow.stamped tag (h.stamped id tag hold)
    · exact hflow.stampedNext hmore
  case apart =>
    -- A tag that was in use is not the one that is stamped.
    have hnew : ∀ id, more = 1 → broker.place id broker.clock.nextTag = .gone :=
      fun id hmore => h.place_nextTag (by omega) id
    intro first second tag hfirst hsecond
    rcases hplaces first tag hfirst with hold | ⟨hmore, rfl, rfl⟩ <;>
      rcases hplaces second _ hsecond with hother | ⟨hmoreOther, rfl, htag⟩
    · exact h.apart first second tag hold hother
    · exact absurd (hnew first hmoreOther) (htag ▸ hold)
    · exact absurd (hnew second hmore) hother
    · rfl

theorem inflow_settles (h : Stocked stamps broker)
    (hnumbered : broker.Numbered) (hsettles : Settles broker after) :
    Inflow stamps 0 broker after where
  clock := hsettles.clock ▸ h.clock
  stamped tag hstamped := hsettles.clock ▸ hstamped
  stampedNext hmore := absurd hmore Nat.zero_ne_one
  keeps := by
    intro id next found
    rcases hsettles.queues id next found with
      ⟨queue, hqueue, hsame⟩ | ⟨-, hvacant⟩
    · obtain ⟨row, hkeeps⟩ := h.keeps id queue hqueue
      exact ⟨row, hsame.keeps hkeeps⟩
    · exact ⟨[], hvacant.keeps⟩
  places := by
    refine ⟨⟨0⟩, fun id tag hthere => .inl ?_⟩
    rcases hsettles.place_eq hnumbered id tag with hsame | habsent
    · rw [← hsame]
      exact hthere
    · exact absurd (place_of_absent habsent tag) hthere

theorem inflow_turnQueue (h : Stocked stamps broker)
    (hbound : stamps + more ≤ UInt32.size)
    (found : broker.queues.find? id = some queue)
    (turn : queue.Turn broker.clock more next) :
    Inflow stamps more broker {
      broker with
      queues := broker.queues.update id fun _ => next
      clock := (broker.clock.nextTags more).2
    } := by
  obtain ⟨row, hqueue⟩ := h.keeps id queue found
  obtain ⟨hkeeps, hplaces⟩ := turn.outcome hqueue fun hmore =>
    (place_of_found found _).symm.trans (h.place_nextTag (by omega) id)
  refine ⟨h.clock.nextTags hbound, ?stamped, ?stampedNext, ?keeps, id, ?places⟩
  case stamped =>
    exact fun tag hstamped => hstamped.nextTags h.clock hbound
  case stampedNext =>
    rintro rfl
    exact broker.clock.stamped_nextTag
  case keeps => exact h.keeps.update fun _ _ _ => hkeeps
  case places =>
    intro other tag hthere
    obtain ⟨entry, hentry, hplace⟩ := found_of_place hthere
    rw [hplace] at hthere
    rw [Registry.find?_update] at hentry
    split at hentry
    · rename_i hother
      subst hother
      rw [found] at hentry
      cases hentry
      rw [place_of_found found]
      exact (hplaces tag hthere).imp_right fun hnew => ⟨hnew.1, rfl, hnew.2⟩
    · rw [place_of_found hentry]
      exact .inl hthere

theorem inflow_tick (h : Stocked stamps broker) (now : Timestamp) :
    Inflow stamps 0 broker (broker.tick now).state := by
  have hmoves : ∀ id queue, broker.queues.find? id = some queue →
      Queue.Moves (.sweep now) queue (queue.sweep now).1 := by
    intro id queue found
    obtain ⟨row, hkeeps⟩ := h.keeps id queue found
    exact hkeeps.moves_sweep now
  refine ⟨h.clock.advance now, fun _ hstamped => hstamped,
    fun hmore => absurd hmore Nat.zero_ne_one, ?keeps, ⟨0⟩, ?places⟩
  case keeps =>
    exact h.keeps.mapEntities fun id queue found _ =>
      (hmoves id queue found).keeps
  case places =>
    intro id tag hthere
    obtain ⟨next, hnext, hplace⟩ := found_of_place hthere
    obtain ⟨queue, found, rfl⟩ := Option.map_eq_some_iff.mp
      ((Registry.find?_mapEntities _ _ _).symm.trans hnext)
    rw [hplace] at hthere
    rw [place_of_found found]
    exact .inl (((hmoves id queue found).passages tag).ne_gone hthere)

theorem inflow_edit (h : Stocked stamps broker) (hnumbered : broker.Numbered)
    (hedit : Edit broker more after) (hbound : stamps + more ≤ UInt32.size) :
    Inflow stamps more broker after := by
  cases hedit with
  | arrange arrangement =>
      exact h.inflow_settles hnumbered
        (settles_arrangement hnumbered arrangement)
  | move traffic =>
      cases traffic with
      | turnQueue found turn => exact h.inflow_turnQueue hbound found turn
      | tick now => exact h.inflow_tick now

theorem edits (h : Stocked stamps broker) (hnumbered : broker.Numbered)
    (hedits : Edits broker more after) (hbound : stamps + more ≤ UInt32.size) :
    Stocked (stamps + more) after := by
  induction hedits with
  | refl => exact h
  | tail edits edit ih =>
      rw [← Nat.add_assoc] at hbound ⊢
      have hmiddle := ih (Nat.le_trans (Nat.le_add_right _ _) hbound)
      exact hmiddle.inflow hbound
        (hmiddle.inflow_edit (hnumbered.edits edits) edit hbound)

theorem stamped_later (h : Stocked stamps broker) (hnumbered : broker.Numbered)
    (hedits : Edits broker more after) (hbound : stamps + more ≤ UInt32.size)
    (hstamped : broker.clock.Stamped tag) : after.clock.Stamped tag := by
  induction hedits with
  | refl => exact hstamped
  | tail edits edit ih =>
      rw [← Nat.add_assoc] at hbound
      have hearlier := Nat.le_trans (Nat.le_add_right _ _) hbound
      have hmiddle := h.edits hnumbered edits hearlier
      have hflow := hmiddle.inflow_edit (hnumbered.edits edits) edit hbound
      exact hflow.stamped tag (ih hearlier)

/-- What has been stamped and is not in a queue never comes to be there. -/
theorem stays_gone (h : Stocked stamps broker) (hnumbered : broker.Numbered)
    (hedits : Edits broker more after) (hbound : stamps + more ≤ UInt32.size)
    (hstamped : broker.clock.Stamped tag) (hgone : broker.place id tag = .gone) :
    after.place id tag = .gone := by
  induction hedits with
  | refl => exact hgone
  | tail edits edit ih =>
      rw [← Nat.add_assoc] at hbound
      have hearlier := Nat.le_trans (Nat.le_add_right _ _) hbound
      have hmiddle := h.edits hnumbered edits hearlier
      have hstill := h.stamped_later hnumbered edits hearlier hstamped
      have hflow := hmiddle.inflow_edit (hnumbered.edits edits) edit hbound
      obtain ⟨target, hplaces⟩ := hflow.places
      -- It could only come in as the tag that this edit stamps.
      by_contra hthere
      rcases hplaces id tag hthere with hold | ⟨hmore, -, htag⟩
      · exact hold (ih hearlier)
      · exact hstill.ne_nextTag hmiddle.clock (by omega) htag

end Stocked

theorem Reached.stocked {stamps : Nat} {broker : Broker}
    (reached : Reached stamps broker) (hbound : stamps ≤ UInt32.size) :
    Stocked stamps broker := by
  obtain ⟨config, now, slots, hedits⟩ := reached.edits
  have h := (stocked_idle config now slots).edits
    (consistent_idle config now slots).numbered hedits
  rw [Nat.zero_add] at h
  exact h hbound

/-- In a broker the indexes of every queue are exact. In a queue by itself the
index of messages that can expire is, whatever tags there are. Each queue can use
its slots in an order of its own. -/
theorem queues_coherent :
    (∀ stamps broker, Reached stamps broker → stamps ≤ UInt32.size →
      ∀ id queue, broker.queues.find? id = some queue → queue.Coherent) ∧
    ∀ id name settings slots operations,
      ((Queue.create id name settings slots).applyAll
        operations).ExpiringExact := by
  constructor
  · intro stamps broker reached hbound id queue found
    obtain ⟨row, hkeeps⟩ := (reached.stocked hbound).keeps id queue found
    exact hkeeps.coherent
  · intro id name settings slots operations
    have hnothing := Queue.buffers_create id name settings slots
    obtain ⟨row, hbuffers⟩ := hnothing.applyAll operations
    exact hbuffers.expiringExact

theorem queues_coherent_redelivered :
    (let broker := (idle .default ⟨0⟩).run [
      .createQueue "jobs" ⟨10, 64, ⟨true, false, false, false⟩⟩,
      .push ⟨1⟩ ⟨[1], 1⟩ 100, .push ⟨1⟩ ⟨[2], 2⟩ 50, .pop ⟨1⟩ 5, .pop ⟨1⟩ 40,
      .tick ⟨7⟩]
    ∃ queue, broker.queues.find? ⟨1⟩ = some queue ∧ queue.size = 1 ∧
      queue.held.size = 1 ∧ queue.Coherent) := by
  have hidle : Reached 0 (idle .default ⟨0⟩) :=
    .start (start_of_sound (by decide))
  intro broker
  have reached : Reached _ broker := hidle.run _
  refine ⟨_, rfl, rfl, rfl, ?_⟩
  exact queues_coherent.1 _ _ reached (by decide) ⟨1⟩ _ rfl

end MessageBroker.Broker
