import Mathlib.Algebra.Order.BigOperators.Group.List
import Mathlib.Algebra.Order.Ring.Nat
import MessageBroker.Proofs.Broker.Delivery
import MessageBroker.Proofs.Broker.Shares

/-! The holders of a payload along a run in which one command gives it. They are
the messages of the broker that carry it, and the deliveries that do. -/

namespace MessageBroker

theorem Channel.carrying_publish (channel : Channel) (topic : String)
    (payload : Payload) (serial : Nat) :
    Signal.carrying serial (channel.publish topic payload).signals =
      if payload.serial = serial then
        (channel.publish topic payload).signals.length else 0 := by
  refine Signal.carrying_of_payload fun signal hmem => ?_
  unfold publish at hmem
  split at hmem
  · cases hmem
  · rcases List.mem_append.mp hmem with htopic | hpattern
    · obtain ⟨client, -, rfl⟩ := List.mem_map.mp htopic
      rfl
    · obtain ⟨⟨pattern, clients⟩, -, hmatch⟩ := List.mem_flatMap.mp hpattern
      dsimp only at hmatch
      split at hmatch
      · obtain ⟨client, -, rfl⟩ := List.mem_map.mp hmatch
        rfl
      · cases hmatch

namespace Broker

open Message (carrying)

def record (broker : Broker) : List Command → List Signal
  | [] => []
  | command :: rest =>
      (broker.perform command).signals ++
        (broker.perform command).state.record rest

def releases (broker : Broker) : List Command → List Message
  | [] => []
  | command :: rest =>
      broker.released command ++ (broker.perform command).state.releases rest

variable {broker after origin : Broker} {serial stamps : Nat}
  {command : Command}

theorem carrying_publishRoute (hnumbered : broker.Numbered) (id : RouteId)
    (key : String) (payload : Payload) (timeToLive : UInt32) (serial : Nat) :
    Signal.carrying serial
        (broker.publishRoute id key payload timeToLive).signals =
      if payload.serial = serial then
        (broker.adds (.publishRoute id key payload timeToLive)).delivered
      else 0 := by
  rcases publishRoute_cases hnumbered id key payload timeToLive with
    ⟨hnone, -, hsignals⟩ | ⟨turned, hturned, hsame, -, hsignals⟩
  · rw [hsignals, adds, hnone]
    exact (ite_self 0).symm
  · have hadds : ∀ target, turned.pushedAt payload timeToLive target =
        broker.pushedAt payload timeToLive target := fun target =>
      pushedAt_congr (congrArg (Registry.find? · target) hsame) _ _
    rw [hsignals, carrying_fanout _ hturned _ _ (broker.nodup_targets _), adds,
      funext hadds]
    exact Nat.zero_add _

theorem carrying_publishChannel (broker : Broker) (id : ChannelId)
    (topic : String) (payload : Payload) (serial : Nat) :
    Signal.carrying serial
        (broker.publishChannel id topic payload).signals =
      if payload.serial = serial then
        (broker.adds (.publishChannel id topic payload)).delivered
      else 0 := by
  unfold adds publishChannel
  dsimp only
  cases broker.channels.find? id with
  | none => exact (ite_self 0).symm
  | some channel =>
      refine (channel.carrying_publish topic payload serial).trans ?_
      unfold Channel.publish Outcome.lift
      dsimp only
      split
      · split <;> rfl
      · rfl

theorem carrying_perform_of_gives (hnumbered : broker.Numbered)
    (hgives : command.Gives serial) :
    Signal.carrying serial (broker.perform command).signals =
      (broker.adds command).delivered := by
  obtain ⟨payload, hpayload, hserial⟩ := Command.gives_iff.mp hgives
  cases command with
  | push id other timeToLive =>
      cases hpayload
      exact (broker.carrying_push id payload timeToLive serial).trans
        (if_pos hserial)
  | publishRoute id key other timeToLive =>
      cases hpayload
      exact (carrying_publishRoute hnumbered id key payload timeToLive
        serial).trans (if_pos hserial)
  | publishChannel id topic other =>
      cases hpayload
      exact (broker.carrying_publishChannel id topic payload serial).trans
        (if_pos hserial)
  | _ => cases hpayload

theorem carrying_perform_of_not_gives (hnumbered : broker.Numbered)
    (hother : ¬ command.Gives serial) :
    Signal.carrying serial (broker.perform command).signals = 0 := by
  have hserial : ∀ payload, command.payload? = some payload →
      payload.serial ≠ serial := fun payload hpayload heq =>
    hother (Command.gives_iff.mpr ⟨payload, hpayload, heq⟩)
  by_cases hpublishes : isPublishing command = true
  · cases command with
    | push id payload timeToLive =>
        exact (broker.carrying_push id payload timeToLive serial).trans
          (if_neg (hserial payload rfl))
    | publishRoute id key payload timeToLive =>
        exact (carrying_publishRoute hnumbered id key payload timeToLive
          serial).trans (if_neg (hserial payload rfl))
    | publishChannel id topic payload =>
        exact (broker.carrying_publishChannel id topic payload serial).trans
          (if_neg (hserial payload rfl))
    | _ => cases hpublishes
  · refine Signal.carrying_of_none fun signal hmem => ?_
    cases signal with
    | deliver client delivery =>
        exact absurd hmem (not_deliver_mem_signals
          (Bool.eq_false_iff.mpr hpublishes) client delivery)
    | disconnect client => rfl

theorem Reached.holders_quiet (reached : Reached stamps broker)
    (hother : ¬ command.Gives serial) :
    broker.holders serial =
      (broker.perform command).state.holders serial +
        carrying serial (broker.released command) := by
  have hbalance := reached.holders_perform command serial
  rw [sum_storedBy_of_not_gives hother] at hbalance
  exact hbalance

/-- Along a run that does not give the payload, what the queues have of it
becomes less by what the run lets go. -/
theorem Reached.holders_run (reached : Reached stamps broker)
    {commands : List Command}
    (hothers : ∀ command ∈ commands, ¬ command.Gives serial) :
    broker.holders serial =
      (broker.run commands).holders serial +
        carrying serial (broker.releases commands) := by
  induction commands generalizing broker stamps with
  | nil => rfl
  | cons command rest ih =>
      have hfirst := reached.holders_quiet (hothers _ List.mem_cons_self)
      have hrest := ih (reached.perform command) fun other hmem =>
        hothers other (List.mem_cons_of_mem _ hmem)
      rw [releases, Message.carrying_append]
      change _ = ((broker.perform command).state.run rest).holders serial + _
      omega

theorem Reached.carrying_record (reached : Reached stamps broker)
    {commands : List Command}
    (hothers : ∀ command ∈ commands, ¬ command.Gives serial) :
    Signal.carrying serial (broker.record commands) = 0 := by
  induction commands generalizing broker stamps with
  | nil => rfl
  | cons command rest ih =>
      have hfirst := carrying_perform_of_not_gives
        reached.consistent.numbered (hothers _ List.mem_cons_self)
      have hrest := ih (reached.perform command) fun other hmem =>
        hothers other (List.mem_cons_of_mem _ hmem)
      rw [record, Signal.carrying_append, hfirst, hrest]

theorem carrying_releasedAt_le (hgives : command.Gives serial) (id : QueueId) :
    carrying serial (broker.releasedAt command id) ≤
      broker.shareAt serial id := by
  cases found : broker.queues.find? id with
  | none =>
      rw [releasedAt_of_absent found]
      exact Nat.zero_le _
  | some queue =>
      have hpush : ∀ payload timeToLive, carrying serial
          (if id ∈ broker.targets command then
            queue.releasedByPush broker.clock payload timeToLive
          else []) ≤ queue.share serial := by
        intro payload timeToLive
        split
        · exact queue.carrying_releasedByPush_le _ payload timeToLive serial
        · exact Nat.zero_le _
      rw [shareAt_of_found found]
      unfold releasedAt
      rw [found]
      cases command with
      | push target payload timeToLive => exact hpush payload timeToLive
      | publishRoute route key payload timeToLive =>
          exact hpush payload timeToLive
      | publishChannel channel topic payload =>
          dsimp only
          split
          · exact Nat.le_of_eq (Message.carrying_append _ _)
          · exact Nat.zero_le _
      | _ => cases hgives

theorem carrying_released_le (hgives : command.Gives serial) :
    carrying serial (broker.released command) ≤ broker.holders serial := by
  rw [holders_eq_sum_keys]
  unfold released carrying
  rw [List.countP_flatMap]
  exact List.sum_le_sum fun id _ => carrying_releasedAt_le hgives id

theorem error_of_reply {α : Type} {result : Result α} {reply : α → Reply}
    {failure : Failure} (hreply : (result.reply reply).result = .error failure) :
    result.result = .error failure := by
  unfold Result.reply Outcome.lift at hreply
  dsimp only at hreply
  split at hreply
  · cases hreply
  · cases hreply
    assumption

theorem pushedAt_of_error {id : QueueId} {payload : Payload}
    {timeToLive : UInt32} {failure : Failure}
    (hpush : (broker.push id payload timeToLive).result = .error failure) :
    broker.pushedAt payload timeToLive id = .none := by
  unfold push Outcome.lift at hpush
  unfold pushedAt Queue.pushed
  split
  · rfl
  · rename_i found
    rw [found] at hpush
    dsimp only at hpush
    split at hpush
    · cases hpush
    · rename_i hrejected
      rw [hrejected]

theorem targets_of_error {id : RouteId} {key : String} {payload : Payload}
    {timeToLive : UInt32} {failure : Failure}
    (hpublish : (broker.publishRoute id key payload timeToLive).result =
      .error failure)
    (hwhole : ∀ route failed, failure ≠ .deliveryFailed route failed) :
    broker.targets (.publishRoute id key payload timeToLive) = [] := by
  unfold publishRoute at hpublish
  unfold targets
  dsimp only
  split
  · rfl
  · rename_i found
    rw [found] at hpublish
    dsimp only at hpublish
    split
    · rename_i htargets
      rw [htargets] at hpublish
      dsimp only at hpublish
      split at hpublish
      · cases hpublish
      · cases hpublish
        exact absurd rfl (hwhole _ _)
    · rfl

theorem adds_of_error {failure : Failure}
    (hfailure : (broker.perform command).result = .error failure)
    (hwhole : ∀ route failed, failure ≠ .deliveryFailed route failed) :
    broker.adds command = .none := by
  cases command with
  | push id payload timeToLive =>
      exact pushedAt_of_error (error_of_reply hfailure)
  | publishRoute id key payload timeToLive =>
      rw [adds, targets_of_error (error_of_reply hfailure) hwhole]
      rfl
  | publishChannel id topic payload =>
      rw [adds, error_of_reply hfailure]
  | _ => rfl

/-- What a call does with the payload that it gives. -/
structure DealsOut (broker : Broker) (serial : Nat) (call : Command) : Prop where
  /-- A call that is rejected as a whole adds nothing. -/
  rejected : ∀ failure, (broker.perform call).result = .error failure →
    (∀ route failed, failure ≠ .deliveryFailed route failed) →
      broker.adds call = .none
  buffered : broker.holders serial + (broker.adds call).buffered =
    (broker.perform call).state.holders serial +
      carrying serial (broker.released call)
  delivered : Signal.carrying serial (broker.perform call).signals =
    (broker.adds call).delivered
  /-- A payload that is new has the holders that the call adds. -/
  fresh : broker.holders serial = 0 →
    (broker.perform call).state.holders serial = (broker.adds call).buffered

/-- What becomes of a payload along a run that does not give it. -/
structure Conserves (broker : Broker) (stamps serial : Nat)
    (commands : List Command) : Prop where
  released : broker.holders serial =
    (broker.run commands).holders serial +
      carrying serial (broker.releases commands)
  recorded : Signal.carrying serial (broker.record commands) = 0
  /-- A hold lets nothing go, as long as no tag is stamped twice. -/
  held : stamps + broker.runStamps commands ≤ UInt32.size →
    ∀ id holdTime, holdTime ≠ 0 →
      (broker.run commands).released (.pop id holdTime) = []
  /-- Coming back, at once or later, lets nothing go that has not expired, but
  for what a queue evicts. -/
  swept : ∀ now id queue, (broker.run commands).queues.find? id = some queue →
    ∀ message ∈ (broker.run commands).releasedAt (.tick now) id,
      message.isExpired now = true ∨ queue.settings.flags.forcePush = true
  flushed : ((broker.run commands).perform .flush).state.holders serial = 0

theorem Reached.dealsOut (reached : Reached stamps broker)
    (hgives : command.Gives serial) : broker.DealsOut serial command := by
  have hbalance := reached.holders_perform command serial
  rw [sum_storedBy_of_gives hgives] at hbalance
  refine {
    rejected := fun _ => adds_of_error
    buffered := hbalance
    delivered := carrying_perform_of_gives reached.consistent.numbered hgives
    fresh := fun hnew => ?_
  }
  have hreleased := broker.carrying_released_le hgives
  omega

theorem Reached.released_held (reached : Reached stamps broker)
    (hbound : stamps ≤ UInt32.size) (target : QueueId) {holdTime : UInt32}
    (hheld : holdTime ≠ 0) : broker.released (.pop target holdTime) = [] := by
  refine List.flatMap_eq_nil_iff.mpr fun id _ => ?_
  unfold releasedAt
  split
  · rfl
  · rename_i queue found
    obtain ⟨row, hkeeps⟩ := (reached.stocked hbound).keeps id queue found
    dsimp only
    rw [hkeeps.releasedByPop_held hheld, ite_self]

theorem mem_releasedAt_tick {now : Timestamp} {id : QueueId} {queue : Queue}
    {message : Message} (found : broker.queues.find? id = some queue)
    (hmem : message ∈ broker.releasedAt (.tick now) id) :
    message.isExpired now = true ∨ queue.settings.flags.forcePush = true := by
  unfold releasedAt at hmem
  rw [found] at hmem
  exact Queue.mem_releasedBySweep hmem

theorem Reached.conserves (reached : Reached stamps broker)
    {commands : List Command}
    (hothers : ∀ command ∈ commands, ¬ command.Gives serial) :
    broker.Conserves stamps serial commands where
  released := reached.holders_run hothers
  recorded := reached.carrying_record hothers
  held hbound target _ := (reached.run commands).released_held hbound target
  swept _ _ _ found _ := mem_releasedAt_tick found
  flushed := rfl

/-- The holders of a payload along a run that gives it once: nothing but the call
adds any, and all that are gone have been let go. Only that a hold lets nothing go
is bound to 2^32 stamped tags. After these a tag is stamped again, and to hold a
message whose tag is on hold already puts it in the place of the other. -/
theorem Reached.balances (reached : Reached stamps origin)
    {earlier later : List Command} {call : Command}
    (hgives : call.Gives serial)
    (honce : ∀ command ∈ earlier ++ later, ¬ command.Gives serial) :
    origin.Conserves stamps serial earlier ∧
      (origin.run earlier).DealsOut serial call ∧
      (origin.run (earlier ++ [call])).Conserves
        (stamps + origin.runStamps (earlier ++ [call])) serial later := by
  refine ⟨reached.conserves fun command hmem => ?_,
    (reached.run earlier).dealsOut hgives,
    (reached.run (earlier ++ [call])).conserves fun command hmem => ?_⟩
  · exact honce command (List.mem_append_left _ hmem)
  · exact honce command (List.mem_append_right _ hmem)

/-- One payload in two queues: buffered in the one, and delivered to the
subscriber of the other. It is held, and comes back in place of a later one. -/
theorem Reached.balances_redelivered :
    (let origin := idle .default ⟨0⟩
    let earlier := [
      .connect ⟨7⟩,
      .createQueue "jobs" ⟨1, 64, ⟨false, true, false, false⟩⟩,
      .createQueue "news" ⟨1, 64, ⟨false, false, false, false⟩⟩,
      .subscribeQueue ⟨7⟩ ⟨2⟩ false,
      .createRoute "both" ⟨false, false, false⟩,
      .bind ⟨3⟩ ⟨1⟩ "key", .bind ⟨3⟩ ⟨2⟩ "key"]
    let call := .publishRoute ⟨3⟩ "key" ⟨[1], 5⟩ 0
    let later := [.pop ⟨1⟩ 10, .push ⟨1⟩ ⟨[2], 6⟩ 0, .tick ⟨20⟩]
    let before := origin.run earlier
    let after := origin.run (earlier ++ [call])
    before.adds call = ⟨1, 1⟩ ∧
      (after.releases later).map Message.payload = [⟨[2], 6⟩] ∧
      (after.run later).holders 5 = 1 ∧
      origin.Conserves 0 5 earlier ∧ before.DealsOut 5 call ∧
      after.Conserves 2 5 later) := by
  have hidle : Reached 0 (idle .default ⟨0⟩) :=
    .start (start_of_sound (by decide))
  intro origin earlier call later before after
  have honce : ∀ command ∈ earlier ++ later, ¬ command.Gives 5 := by decide
  have hstamps : 0 + origin.runStamps (earlier ++ [call]) = 2 := by decide
  have hbalances := hidle.balances (by decide : call.Gives 5) honce
  rw [hstamps] at hbalances
  exact ⟨by decide, by decide, by decide, hbalances⟩

end Broker

end MessageBroker
