import MessageBroker.Proofs.Broker.Contents
import MessageBroker.Proofs.Broker.Lifecycle
import MessageBroker.Proofs.Queue.Order

/-! Messages are handed out for the first time in the order in which they were
pushed. Which messages have been handed out cannot be seen from a queue, so the
tags are noted along the run. -/

namespace MessageBroker

theorem Queue.InOrder.of_vacant {queue : Queue} (hvacant : queue.IsVacant)
    (handedOut : List Tag) : queue.InOrder handedOut := by
  refine ⟨.of_vacant hvacant, ?_⟩
  rw [hvacant.keeps.buffers.messages_eq]
  exact .nil handedOut

theorem Queue.InOrder.sameContents {queue next : Queue} {handedOut : List Tag}
    (h : queue.InOrder handedOut) (hsame : queue.SameContents next) :
    next.InOrder handedOut := by
  refine ⟨h.stores.sameContents hsame, ?_⟩
  unfold messages
  rw [hsame.buffer]
  exact h.linedUp

namespace Broker

/-- A broker at the beginning of a run, and how many tags it has stamped. -/
inductive Origin : Nat → Broker → Prop
  | start {config : Config} {now : Timestamp} {slots : QueueId → SlotPolicy}
      {broker : Broker} (started : start config now slots = .ok broker) :
      Origin 0 broker
  | restore {config : Config} {wallClock : Timestamp} {snapshot : Snapshot}
      {slots : QueueId → SlotPolicy} {broker : Broker}
      (restored : restore config wallClock snapshot slots = .ok broker) :
      Origin snapshot.messageCount broker

/-- The tags of the messages that a run takes from a queue, in order. -/
def handOuts (broker : Broker) (id : QueueId) : List Command → List Tag
  | [] => []
  | command :: rest =>
      ((broker.handedOut? id command).map Message.tag).toList ++
        (broker.perform command).state.handOuts id rest

/-- What a queue has, if it is there, after so many of its tags have been handed
out. -/
def InOrder (broker : Broker) (id : QueueId) (handedOut : List Tag) : Prop :=
  ∀ queue, broker.queues.find? id = some queue → queue.InOrder handedOut

variable {stamps more : Nat} {broker after origin : Broker}
  {id target : QueueId} {queue next : Queue} {handedOut : List Tag}

theorem Origin.reached (h : Origin stamps broker) : Reached stamps broker := by
  cases h with
  | start started => exact .start started
  | restore restored => exact .restore restored

theorem Stocked.stamped_of_mem (h : Stocked stamps broker)
    (found : broker.queues.find? id = some queue) {message : Message}
    (hmem : message ∈ queue.messages) : broker.clock.Stamped message.tag := by
  obtain ⟨row, hkeeps⟩ := h.keeps id queue found
  have hplace : broker.place id message.tag = .buffered message :=
    (place_of_found found _).trans
      (hkeeps.place_eq_buffered_iff.mpr ⟨hmem, rfl⟩)
  refine h.stamped id message.tag ?_
  rw [hplace]
  exact Place.noConfusion

namespace InOrder

theorem handedOut?_eq_head? (h : broker.InOrder id handedOut)
    (found : broker.queues.find? id = some queue) (holdTime : UInt32) :
    (broker.handedOut? id (.pop id holdTime)).map Message.tag =
      queue.messages.head?.map Message.tag := by
  rw [handedOut?_found found]
  exact ((h queue found).pop holdTime broker.now).1

theorem front_of_handedOut? (h : broker.InOrder id handedOut)
    {command : Command} {message : Message}
    (hout : broker.handedOut? id command = some message) :
    ∃ queue first rest, broker.queues.find? id = some queue ∧
      queue.messages = first :: rest ∧ first.tag = message.tag := by
  by_cases hpop : ∃ holdTime, command = .pop id holdTime
  · obtain ⟨holdTime, rfl⟩ := hpop
    cases found : broker.queues.find? id with
    | none =>
        rw [handedOut?_absent found] at hout
        cases hout
    | some queue =>
        have hfront := h.handedOut?_eq_head? found holdTime
        rw [hout, Option.map_some] at hfront
        obtain ⟨first, hfirst, htag⟩ := Option.map_eq_some_iff.mp hfront.symm
        obtain ⟨rest, hmessages⟩ := List.head?_eq_some_iff.mp hfirst
        exact ⟨queue, first, rest, rfl, hmessages, htag⟩
  · rw [handedOut?_quiet fun holdTime hcommand => hpop ⟨holdTime, hcommand⟩]
      at hout
    cases hout

theorem settles (h : broker.InOrder id handedOut)
    (hsettles : Settles broker after) : after.InOrder id handedOut := by
  intro next hnext
  rcases hsettles.queues id next hnext with ⟨queue, found, hsame⟩ | ⟨-, hvacant⟩
  · exact (h queue found).sameContents hsame
  · exact .of_vacant hvacant handedOut

theorem put {clock : TagClock} (hnumbered : broker.Numbered)
    (found : broker.queues.find? target = some queue)
    (hid : next.id = queue.id)
    (hnext : id = target → next.InOrder handedOut)
    (hothers : id ≠ target → broker.InOrder id handedOut) :
    InOrder { broker.putQueue next with clock := clock } id handedOut := by
  intro entry hentry
  have hput := hnumbered.queues.find?_put found hid id
  replace hentry := hput.symm.trans hentry
  split at hentry
  · rename_i hsame
    cases hentry
    exact hnext hsame
  · rename_i hother
    exact hothers hother entry hentry

theorem push (h : broker.InOrder id handedOut)
    (hstocked : Stocked stamps broker) (hnumbered : broker.Numbered)
    (hstamped : ∀ tag ∈ handedOut, broker.clock.Stamped tag)
    (target : QueueId) (payload : Payload) (timeToLive : UInt32)
    (hbound : stamps + broker.pushStamps target payload timeToLive ≤
      UInt32.size) :
    (broker.push target payload timeToLive).state.InOrder id handedOut := by
  unfold Broker.push
  unfold pushStamps Broker.push at hbound
  split
  · exact h
  · rename_i queue found
    refine put hnumbered found (Queue.sameMembers_push queue _ _ _).id ?_
      fun _ => h
    rintro rfl
    refine (h queue found).push fun haccepted => ?_
    simp only [found, Outcome.lift, haccepted] at hbound
    exact ⟨fun tag hout => (hstamped tag hout).lt_nextTag hstocked.clock hbound,
      fun other hother =>
        (hstocked.stamped_of_mem found hother).lt_nextTag hstocked.clock hbound⟩

theorem pop (h : broker.InOrder id handedOut) (hnumbered : broker.Numbered)
    (target : QueueId) (holdTime : UInt32) :
    (broker.pop target holdTime).state.InOrder id (handedOut ++
      ((broker.handedOut? id (.pop target holdTime)).map
        Message.tag).toList) := by
  cases found : broker.queues.find? target with
  | none =>
      rw [handedOut?_absent found, Option.map_none, Option.toList_none,
        List.append_nil]
      unfold Broker.pop
      rw [found]
      exact h
  | some queue =>
      have hid := (Queue.refilled_pop queue holdTime broker.now).id_eq
      unfold Broker.pop
      rw [found]
      refine put hnumbered found hid ?_ ?_
      · rintro rfl
        rw [handedOut?_found found]
        exact ((h queue found).pop holdTime broker.now).2
      · intro hother
        rw [handedOut?_elsewhere (Ne.symm hother), Option.map_none,
          Option.toList_none, List.append_nil]
        exact h

theorem confirm (h : broker.InOrder id handedOut) (hnumbered : broker.Numbered)
    (target : QueueId) (tag : Tag) :
    (broker.confirm target tag).state.InOrder id handedOut := by
  unfold Broker.confirm
  split
  · exact h
  · rename_i queue found
    split
    · exact h
    · rename_i next confirmed
      refine put hnumbered found (Queue.refilled_confirm confirmed).id_eq ?_
        fun _ => h
      rintro rfl
      exact (h queue found).confirm confirmed

theorem purge (h : broker.InOrder id handedOut) (hnumbered : broker.Numbered)
    (target : QueueId) : (broker.purge target).state.InOrder id handedOut := by
  unfold Broker.purge
  split
  · exact h
  · rename_i queue found
    refine put hnumbered found rfl ?_ fun _ => h
    rintro rfl
    exact (h queue found).purge

theorem tick (h : broker.InOrder id handedOut) (now : Timestamp) :
    (broker.tick now).state.InOrder id handedOut := by
  intro swept hswept
  obtain ⟨queue, found, rfl⟩ := Option.map_eq_some_iff.mp
    ((Registry.find?_mapEntities _ _ _).symm.trans hswept)
  exact (h queue found).sweep now

theorem fanout {fanout : Fanout} (h : fanout.broker.InOrder id handedOut)
    (hstocked : Stocked stamps fanout.broker)
    (hnumbered : fanout.broker.Numbered)
    (hstamped : ∀ tag ∈ handedOut, fanout.broker.clock.Stamped tag)
    (payload : Payload) (timeToLive : UInt32) (targets : List QueueId)
    (hbound : stamps + Fanout.stamps payload timeToLive fanout targets ≤
      UInt32.size) :
    (targets.foldl (Fanout.next payload timeToLive) fanout).broker.InOrder id
      handedOut := by
  induction targets generalizing fanout stamps with
  | nil => exact h
  | cons target rest ih =>
      unfold Fanout.stamps at hbound
      rw [← Nat.add_assoc] at hbound
      have hearlier := Nat.le_trans (Nat.le_add_right _ _) hbound
      have hedits := edits_push hnumbered target payload timeToLive
      have hpush := h.push hstocked hnumbered hstamped target payload timeToLive
        hearlier
      exact ih hpush (hstocked.edits hnumbered hedits hearlier)
        (hnumbered.edits hedits)
        (fun tag hout => hstocked.stamped_later hnumbered hedits hearlier
          (hstamped tag hout)) hbound

theorem publishRoute (h : broker.InOrder id handedOut)
    (hstocked : Stocked stamps broker) (hnumbered : broker.Numbered)
    (hstamped : ∀ tag ∈ handedOut, broker.clock.Stamped tag) (route : RouteId)
    (key : String) (payload : Payload) (timeToLive : UInt32)
    (hbound : stamps + broker.stamps (.publishRoute route key payload
      timeToLive) ≤ UInt32.size) :
    (broker.publishRoute route key payload timeToLive).state.InOrder id
      handedOut := by
  unfold Broker.stamps at hbound
  unfold Broker.publishRoute
  split
  · exact h
  · rename_i entry found
    split
    · exact h
    · rename_i targets next htargets
      simp only [found, htargets] at hbound
      have hput :=
        (gains_putTargets hnumbered found htargets).arrangements
      have hsettles := settles_arrangements hnumbered hput
      have hstill : Stocked stamps (broker.putRoute next) :=
        hstocked.edits hnumbered hput.edits
          (Nat.le_trans (Nat.le_add_right _ _) hbound)
      exact (h.settles hsettles).fanout hstill (hnumbered.edits hput.edits)
        hstamped payload timeToLive targets hbound

theorem perform (h : broker.InOrder id handedOut)
    (reached : Reached stamps broker)
    (hstamped : ∀ tag ∈ handedOut, broker.clock.Stamped tag) (command : Command)
    (hbound : stamps + broker.stamps command ≤ UInt32.size) :
    (broker.perform command).state.InOrder id (handedOut ++
      ((broker.handedOut? id command).map Message.tag).toList) := by
  have hnumbered := reached.consistent.numbered
  have hstocked := reached.stocked
    (Nat.le_trans (Nat.le_add_right _ _) hbound)
  by_cases hpop : ∃ target holdTime, command = .pop target holdTime
  · obtain ⟨target, holdTime, rfl⟩ := hpop
    exact h.pop hnumbered target holdTime
  · have hquiet : broker.handedOut? id command = none :=
      handedOut?_quiet fun holdTime hcommand => hpop ⟨id, holdTime, hcommand⟩
    rw [hquiet, Option.map_none, Option.toList_none, List.append_nil]
    cases command with
    | push target payload timeToLive =>
        exact h.push hstocked hnumbered hstamped target payload timeToLive
          hbound
    | pop target holdTime => exact absurd ⟨_, _, rfl⟩ hpop
    | confirm target tag => exact h.confirm hnumbered target tag
    | purge target => exact h.purge hnumbered target
    | publishRoute route key payload timeToLive =>
        exact h.publishRoute hstocked hnumbered hstamped route key payload
          timeToLive hbound
    | tick now => exact h.tick now
    | _ =>
        exact h.settles (settles_arrangements hnumbered
          (arrangements_perform reached.consistent rfl))

end InOrder

theorem Restoration.inOrder {first : Broker} (h : Restoration first more after)
    (hfirst : ∀ id, first.InOrder id []) (hstocked : Stocked 0 first)
    (hnumbered : first.Numbered) (hbound : more ≤ UInt32.size) (id : QueueId) :
    after.InOrder id [] := by
  induction h generalizing id with
  | refl => exact hfirst id
  | arrange earlier arrangement ih =>
      exact (ih hbound id).settles
        (settles_arrangement (hnumbered.edits earlier.edits) arrangement)
  | @refill stamps middle target queue message earlier found htag _ ih =>
      intro entry hentry
      have hearlier := Nat.le_of_succ_le hbound
      rw [Registry.find?_update] at hentry
      split at hentry
      · rename_i hsame
        subst hsame
        rw [found] at hentry
        cases hentry
        have hlater := hstocked.edits hnumbered earlier.edits
          (by rwa [Nat.zero_add])
        rw [Nat.zero_add] at hlater
        refine (ih hearlier id queue found).refill (by simp) ?_
        intro other hother
        rw [htag]
        have hstamped := hlater.stamped_of_mem found hother
        exact hstamped.lt_nextTag hlater.clock hbound
      · exact ih hearlier id entry hentry

theorem Origin.inOrder (h : Origin stamps origin)
    (hbound : stamps ≤ UInt32.size) (id : QueueId) : origin.InOrder id [] := by
  cases h with
  | start started =>
      cases eq_idle_of_start started
      exact fun _ found => nomatch found
  | restore restored =>
      obtain ⟨now, hrestored⟩ := restoration_restore restored
      exact hrestored.inOrder (fun _ _ found => nomatch found)
        (stocked_idle _ now _) (consistent_idle _ now _).numbered hbound id

/-- What is known of the tags that have been handed out by a queue. -/
structure Account (broker : Broker) (id : QueueId) (handedOut : List Tag) :
    Prop where
  inOrder : broker.InOrder id handedOut
  stamped : ∀ tag ∈ handedOut, broker.clock.Stamped tag
  increasing : handedOut.eraseDups.Pairwise (· < ·)

theorem pairwise_eraseDups_append {tag : Tag}
    (h : handedOut.eraseDups.Pairwise (· < ·))
    (hnew : tag ∈ handedOut ∨ ∀ earlier ∈ handedOut, earlier < tag) :
    (handedOut ++ [tag]).eraseDups.Pairwise (· < ·) := by
  rw [List.eraseDups_append]
  by_cases hout : tag ∈ handedOut
  · have hnothing : [tag].removeAll handedOut = [] := by
      simp [List.removeAll, hout]
    rw [hnothing, List.eraseDups_nil, List.append_nil]
    exact h
  · have hone : [tag].removeAll handedOut = [tag] := by
      simp [List.removeAll, hout]
    rw [hone, List.eraseDups_cons, List.filter_nil, List.eraseDups_nil]
    refine List.pairwise_append.mpr ⟨h, List.pairwise_singleton _ _, ?_⟩
    intro earlier hearlier last hlast
    rw [List.mem_singleton.mp hlast]
    exact hnew.resolve_left hout earlier (List.mem_eraseDups.mp hearlier)

namespace Account

theorem perform (h : broker.Account id handedOut)
    (reached : Reached stamps broker) (command : Command)
    (hbound : stamps + broker.stamps command ≤ UInt32.size) :
    (broker.perform command).state.Account id (handedOut ++
      ((broker.handedOut? id command).map Message.tag).toList) := by
  have hnumbered := reached.consistent.numbered
  have hstocked := reached.stocked
    (Nat.le_trans (Nat.le_add_right _ _) hbound)
  have hlater : ∀ tag, broker.clock.Stamped tag →
      (broker.perform command).state.clock.Stamped tag := fun tag =>
    hstocked.stamped_later hnumbered (edits_perform reached.consistent command)
      hbound
  have hinOrder := h.inOrder.perform reached h.stamped command hbound
  cases hout : broker.handedOut? id command with
  | none =>
      rw [hout] at hinOrder
      rw [Option.map_none, Option.toList_none, List.append_nil] at hinOrder ⊢
      exact ⟨hinOrder, fun tag hmem => hlater tag (h.stamped tag hmem),
        h.increasing⟩
  | some message =>
      obtain ⟨queue, first, rest, found, hmessages, htag⟩ :=
        h.inOrder.front_of_handedOut? hout
      have hlinedUp := (h.inOrder queue found).linedUp
      rw [hmessages] at hlinedUp
      have hfirst : broker.clock.Stamped first.tag := by
        refine hstocked.stamped_of_mem found ?_
        rw [hmessages]
        exact List.mem_cons_self
      rw [hout] at hinOrder
      rw [Option.map_some, Option.toList_some, ← htag] at hinOrder ⊢
      refine ⟨hinOrder, ?_,
        pairwise_eraseDups_append h.increasing hlinedUp.head⟩
      intro tag hmem
      rcases List.mem_append.mp hmem with hbefore | hnow
      · exact hlater tag (h.stamped tag hbefore)
      · rw [List.mem_singleton.mp hnow]
        exact hlater _ hfirst

theorem run (h : origin.Account id handedOut) (reached : Reached stamps origin)
    (commands : List Command)
    (hbound : stamps + origin.runStamps commands ≤ UInt32.size) :
    (origin.run commands).Account id
      (handedOut ++ origin.handOuts id commands) := by
  induction commands generalizing origin stamps handedOut with
  | nil =>
      rw [handOuts, List.append_nil]
      exact h
  | cons command rest ih =>
      rw [runStamps, ← Nat.add_assoc] at hbound
      have hearlier := Nat.le_trans (Nat.le_add_right _ _) hbound
      rw [handOuts, ← List.append_assoc]
      exact ih (h.perform reached command hearlier) (reached.perform command)
        hbound

end Account

/-- What is new in a queue has a higher tag than all that was there before. -/
theorem Stocked.lt_of_arrival (h : Stocked stamps broker)
    (hnumbered : broker.Numbered) (hedits : Edits broker more after)
    (hbound : stamps + more ≤ UInt32.size) {first second : Tag}
    (hfirst : broker.place id first ≠ .gone)
    (hbefore : broker.place id second = .gone)
    (hafter : after.place id second ≠ .gone) : first < second := by
  obtain ⟨last, hlast, hle⟩ := h.stamped id first hfirst
  refine Nat.lt_of_not_le fun hbelow => hafter ?_
  have hstamped : broker.clock.Stamped second :=
    ⟨last, hlast, Nat.le_trans hbelow hle⟩
  exact h.stays_gone hnumbered hedits hbound hstamped hbefore

/-- How a queue hands out messages along a run, and how it stands at the end. -/
structure FirstInFirstOut (origin : Broker) (id : QueueId)
    (commands : List Command) : Prop where
  /-- Leaving out repetitions, tags are handed out in increasing order. -/
  increasing : (origin.handOuts id commands).eraseDups.Pairwise (· < ·)
  /-- The order of the tags is that in which messages came into the queue. -/
  arrival : ∀ earlier later, commands = earlier ++ later →
    ∀ first second, (origin.run earlier).place id first ≠ .gone →
      (origin.run earlier).place id second = .gone →
      (origin.run commands).place id second ≠ .gone → first < second
  /-- What came back stands before all that was never handed out. -/
  returnedFirst : ∀ queue,
    (origin.run commands).queues.find? id = some queue →
      ∃ returned fresh, queue.messages = returned ++ fresh ∧
        (∀ message ∈ returned, message.tag ∈ origin.handOuts id commands) ∧
        ∀ message ∈ fresh, message.tag ∉ origin.handOuts id commands
  /-- The front of a queue is the end from which messages are handed out. -/
  front : ∀ queue, (origin.run commands).queues.find? id = some queue →
    ∀ holdTime,
      ((origin.run commands).handedOut? id (.pop id holdTime)).map Message.tag =
        queue.messages.head?.map Message.tag

/-- Queues are first in, first out, whatever comes back in between. -/
theorem Origin.firstInFirstOut (h : Origin stamps origin)
    (commands : List Command)
    (hbound : stamps + origin.runStamps commands ≤ UInt32.size)
    (id : QueueId) : origin.FirstInFirstOut id commands := by
  have hstamps := Nat.le_trans (Nat.le_add_right _ _) hbound
  have hnothing : origin.Account id [] :=
    ⟨h.inOrder hstamps id, by simp, by simp⟩
  have haccount := hnothing.run h.reached commands hbound
  rw [List.nil_append] at haccount
  refine ⟨haccount.increasing, ?arrival, ?returnedFirst, ?front⟩
  case arrival =>
    rintro earlier later rfl first second hfirst hbefore hafter
    have reached := h.reached.run earlier
    have hconsistent := reached.consistent
    rw [runStamps_append, ← Nat.add_assoc] at hbound
    rw [run_append] at hafter
    have hstocked := reached.stocked
      (Nat.le_trans (Nat.le_add_right _ _) hbound)
    exact hstocked.lt_of_arrival hconsistent.numbered
      (edits_run hconsistent later) hbound hfirst hbefore hafter
  case returnedFirst =>
    exact fun queue found => (haccount.inOrder queue found).linedUp.split
  case front =>
    exact fun queue found holdTime =>
      haccount.inOrder.handedOut?_eq_head? found holdTime

theorem Origin.firstInFirstOut_redelivered :
    (let origin := idle .default ⟨0⟩
    let commands := [
      .createQueue "jobs" ⟨10, 64, ⟨true, false, false, false⟩⟩,
      .push ⟨1⟩ ⟨[1], 1⟩ 0, .push ⟨1⟩ ⟨[2], 2⟩ 0, .pop ⟨1⟩ 5, .tick ⟨7⟩,
      .pop ⟨1⟩ 5, .pop ⟨1⟩ 0, .tick ⟨20⟩, .push ⟨1⟩ ⟨[3], 3⟩ 0]
    origin.handOuts ⟨1⟩ commands = [⟨0⟩, ⟨0⟩, ⟨1⟩] ∧
      origin.FirstInFirstOut ⟨1⟩ commands) := by
  intro origin commands
  have horigin : Origin 0 origin := .start (start_of_sound (by decide))
  exact ⟨by decide, horigin.firstInFirstOut commands (by decide) ⟨1⟩⟩

end Broker

end MessageBroker
