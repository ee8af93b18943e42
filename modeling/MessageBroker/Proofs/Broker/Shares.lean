import Mathlib.Algebra.BigOperators.Group.Finset.Basic
import MessageBroker.Proofs.Broker.Lifecycle
import MessageBroker.Proofs.Broker.Refusal
import MessageBroker.Proofs.Queue.Shares

/-! Who holds a payload in a broker. What a command adds and what it lets go is
told queue by queue, and then for all queues together. -/

namespace MessageBroker

def Command.payload? : Command → Option Payload
  | .push _ payload _ => some payload
  | .publishRoute _ _ payload _ => some payload
  | .publishChannel _ _ payload => some payload
  | _ => none

def Command.Gives (command : Command) (serial : Nat) : Prop :=
  command.payload?.map Payload.serial = some serial

instance (command : Command) (serial : Nat) :
    Decidable (command.Gives serial) :=
  inferInstanceAs (Decidable (_ = _))

theorem Command.gives_iff {command : Command} {serial : Nat} :
    command.Gives serial ↔
      ∃ payload, command.payload? = some payload ∧ payload.serial = serial :=
  Option.map_eq_some_iff

def Share.total (shares : List Share) : Share where
  buffered := (shares.map Share.buffered).sum
  delivered := (shares.map Share.delivered).sum

namespace Broker

open Message (carrying)

/-- The messages of one queue that carry a payload of this serial number. -/
def shareAt (broker : Broker) (serial : Nat) (id : QueueId) : Nat :=
  match broker.queues.find? id with
  | none => 0
  | some queue => queue.share serial

def targets (broker : Broker) : Command → List QueueId
  | .push id _ _ => [id]
  | .publishRoute id key _ _ =>
      match broker.routes.find? id with
      | none => []
      | some route =>
          match route.targets key with
          | .ok (targets, _) => targets
          | .error _ => []
  | _ => []

def pushedAt (broker : Broker) (payload : Payload) (timeToLive : UInt32)
    (id : QueueId) : Share :=
  match broker.queues.find? id with
  | none => .none
  | some queue => queue.pushed broker.clock payload timeToLive

def adds (broker : Broker) : Command → Share
  | .push id payload timeToLive => broker.pushedAt payload timeToLive id
  | .publishRoute id key payload timeToLive =>
      .total ((broker.targets (.publishRoute id key payload timeToLive)).map
        (broker.pushedAt payload timeToLive))
  | .publishChannel id topic payload =>
      match (broker.publishChannel id topic payload).result with
      | .ok count => ⟨0, count⟩
      | .error _ => .none
  | _ => .none

def releasedAt (broker : Broker) (command : Command) (id : QueueId) :
    List Message :=
  match broker.queues.find? id with
  | none => []
  | some queue =>
      match command with
      | .push _ payload timeToLive | .publishRoute _ _ payload timeToLive =>
          if id ∈ broker.targets command then
            queue.releasedByPush broker.clock payload timeToLive
          else []
      | .pop target holdTime =>
          if id = target then queue.releasedByPop holdTime else []
      | .confirm target tag =>
          if id = target then queue.releasedByConfirm tag else []
      | .purge target => if id = target then queue.messages else []
      | .tick now => queue.releasedBySweep now
      | _ =>
          match (broker.perform command).state.queues.find? id with
          | none => queue.messages ++ queue.heldMessages
          | some _ => []

/-- The messages that a command lets go from all queues. -/
def released (broker : Broker) (command : Command) : List Message :=
  broker.queues.entities.keys.flatMap (broker.releasedAt command)

variable {broker after : Broker} {id target : QueueId} {queue next : Queue}
  {serial stamps : Nat} {payload : Payload} {timeToLive : UInt32}

theorem shareAt_of_found (found : broker.queues.find? id = some queue)
    (serial : Nat) : broker.shareAt serial id = queue.share serial := by
  unfold shareAt
  rw [found]

theorem shareAt_of_absent (absent : broker.queues.find? id = none)
    (serial : Nat) : broker.shareAt serial id = 0 := by
  unfold shareAt
  rw [absent]

theorem shareAt_congr
    (hsame : after.queues.find? id = broker.queues.find? id) (serial : Nat) :
    after.shareAt serial id = broker.shareAt serial id := by
  unfold shareAt
  rw [hsame]

theorem pushedAt_congr
    (hsame : after.queues.find? id = broker.queues.find? id)
    (payload : Payload) (timeToLive : UInt32) :
    after.pushedAt payload timeToLive id =
      broker.pushedAt payload timeToLive id := by
  unfold pushedAt
  rw [hsame]
  split
  · rfl
  · exact Queue.pushed_eq _ _ _ _ _

theorem holders_eq_sum_keys (broker : Broker) (serial : Nat) :
    broker.holders serial =
      (broker.queues.entities.keys.map (broker.shareAt serial)).sum := by
  have hentry : ∀ entry ∈ broker.queues.entities.entries,
      broker.shareAt serial entry.1 = entry.2.share serial := by
    intro entry hmem
    exact shareAt_of_found (AssocList.get?_eq_some_iff.mpr hmem) serial
  unfold holders messages Registry.toList AssocList.values AssocList.keys
  rw [List.countP_flatMap, List.map_map, List.map_map]
  refine congrArg List.sum (List.map_congr_left fun entry hmem => ?_)
  exact List.countP_append.trans (hentry entry hmem).symm

theorem sum_keys_eq {number : QueueId → Nat} {ids : Finset QueueId}
    (hids : ∀ id ∈ broker.queues.entities.keys, id ∈ ids)
    (habsent : ∀ id, broker.queues.find? id = none → number id = 0) :
    (broker.queues.entities.keys.map number).sum = ∑ id ∈ ids, number id := by
  refine (List.sum_toFinset number broker.queues.entities.nodup_keys).symm.trans
    ?_
  refine Finset.sum_subset (fun id hmem => hids id (List.mem_toFinset.mp hmem))
    fun id _ hother => habsent id (AssocList.get?_eq_none_iff.mpr ?_)
  exact fun hmem => hother (List.mem_toFinset.mpr hmem)

theorem holders_balance {stored : QueueId → Nat}
    {released : QueueId → List Message}
    (hlaw : ∀ id, broker.shareAt serial id + stored id =
      after.shareAt serial id + carrying serial (released id))
    (hstored : ∀ id, broker.queues.find? id = none → stored id = 0)
    (hreleased : ∀ id, broker.queues.find? id = none → released id = []) :
    broker.holders serial + (broker.queues.entities.keys.map stored).sum =
      after.holders serial +
        carrying serial (broker.queues.entities.keys.flatMap released) := by
  let ids := broker.queues.entities.keys.toFinset ∪
    after.queues.entities.keys.toFinset
  have hbefore : ∀ id ∈ broker.queues.entities.keys, id ∈ ids := fun id hmem =>
    Finset.mem_union_left _ (List.mem_toFinset.mpr hmem)
  have hafter : ∀ id ∈ after.queues.entities.keys, id ∈ ids := fun id hmem =>
    Finset.mem_union_right _ (List.mem_toFinset.mpr hmem)
  have hsum : carrying serial (broker.queues.entities.keys.flatMap released) =
      ∑ id ∈ ids, carrying serial (released id) := by
    unfold carrying
    rw [List.countP_flatMap]
    refine sum_keys_eq hbefore fun id habsent => ?_
    exact congrArg (List.countP _) (hreleased id habsent)
  rw [holders_eq_sum_keys, holders_eq_sum_keys, hsum, sum_keys_eq hbefore
    fun id habsent => shareAt_of_absent habsent serial, sum_keys_eq hafter
    fun id habsent => shareAt_of_absent habsent serial,
    sum_keys_eq hbefore hstored, ← Finset.sum_add_distrib,
    ← Finset.sum_add_distrib]
  exact Finset.sum_congr rfl fun id _ => hlaw id

theorem find?_push_ne (hnumbered : broker.Numbered) (payload : Payload)
    (timeToLive : UInt32) (hother : id ≠ target) :
    (broker.push target payload timeToLive).state.queues.find? id =
      broker.queues.find? id := by
  cases found : broker.queues.find? target with
  | none =>
      unfold push
      rw [found]
      rfl
  | some queue => rw [find?_push hnumbered found, if_neg hother]

theorem find?_push_self (hnumbered : broker.Numbered) (payload : Payload)
    (timeToLive : UInt32) (id : QueueId) :
    (broker.push id payload timeToLive).state.queues.find? id =
      (broker.queues.find? id).map fun queue =>
        (queue.push broker.clock payload timeToLive).state.1 := by
  cases found : broker.queues.find? id with
  | none =>
      unfold push
      rw [found]
      exact found
  | some queue =>
      rw [find?_push hnumbered found, if_pos rfl]
      rfl

/-- Every target gets its push, and the other queues stay as they are. -/
theorem find?_fanout (fanout : Fanout) (hnumbered : fanout.broker.Numbered)
    (payload : Payload) (timeToLive : UInt32) {targets : List QueueId}
    (hnodup : targets.Nodup) (id : QueueId) :
    ∃ clock, (targets.foldl (Fanout.next payload timeToLive)
        fanout).broker.queues.find? id =
      (fanout.broker.queues.find? id).map fun queue =>
        if id ∈ targets then (queue.push clock payload timeToLive).state.1
        else queue := by
  induction targets generalizing fanout with
  | nil => exact ⟨fanout.broker.clock, by simp⟩
  | cons target rest ih =>
      obtain ⟨habsent, hrest⟩ := List.nodup_cons.mp hnodup
      obtain ⟨clock, hfind⟩ := ih (fanout.next payload timeToLive target)
        (hnumbered.edits (edits_push hnumbered target payload timeToLive)) hrest
      rw [List.foldl_cons]
      by_cases hsame : id = target
      · subst hsame
        refine ⟨fanout.broker.clock, hfind.trans ?_⟩
        rw [Fanout.next, find?_push_self hnumbered, Option.map_map]
        simp [habsent, Function.comp_def]
      · refine ⟨clock, hfind.trans ?_⟩
        rw [Fanout.next, find?_push_ne hnumbered payload timeToLive hsame]
        simp [hsame]

theorem carrying_push (broker : Broker) (id : QueueId) (payload : Payload)
    (timeToLive : UInt32) (serial : Nat) :
    Signal.carrying serial (broker.push id payload timeToLive).signals =
      if payload.serial = serial then
        (broker.pushedAt payload timeToLive id).delivered else 0 := by
  unfold push pushedAt
  cases found : broker.queues.find? id with
  | none => exact (ite_self 0).symm
  | some queue => exact queue.carrying_push _ payload timeToLive serial

theorem carrying_fanout (fanout : Fanout) (hnumbered : fanout.broker.Numbered)
    (payload : Payload) (timeToLive : UInt32) {targets : List QueueId}
    (hnodup : targets.Nodup) (serial : Nat) :
    Signal.carrying serial
        (targets.foldl (Fanout.next payload timeToLive) fanout).signals =
      Signal.carrying serial fanout.signals +
        if payload.serial = serial then
          (Share.total (targets.map
            (fanout.broker.pushedAt payload timeToLive))).delivered
        else 0 := by
  induction targets generalizing fanout with
  | nil => simp [Share.total]
  | cons target rest ih =>
      obtain ⟨habsent, hrest⟩ := List.nodup_cons.mp hnodup
      have hlater := ih (fanout.next payload timeToLive target)
        (hnumbered.edits (edits_push hnumbered target payload timeToLive)) hrest
      have hsame : rest.map ((fanout.next payload timeToLive
            target).broker.pushedAt payload timeToLive) =
          rest.map (fanout.broker.pushedAt payload timeToLive) := by
        refine List.map_congr_left fun id hmem => pushedAt_congr ?_ _ _
        refine find?_push_ne hnumbered payload timeToLive ?_
        rintro rfl
        exact habsent hmem
      rw [List.foldl_cons, hlater, hsame, Fanout.next, Signal.carrying_append,
        carrying_push]
      simp only [Share.total, List.map_cons, List.sum_cons]
      split <;> omega

theorem nodup_of_targets {route turned : Route} {key : String}
    {targets : List QueueId}
    (htargets : route.targets key = .ok (targets, turned)) :
    targets.Nodup := by
  unfold Route.targets at htargets
  split at htargets
  · cases htargets
  · rename_i queues _
    split at htargets
    · cases htargets
      cases queues.rotate.first? with
      | none => exact List.nodup_nil
      | some id => exact List.nodup_singleton id
    · cases htargets
      exact queues.nodup_items

theorem nodup_targets (broker : Broker) (command : Command) :
    (broker.targets command).Nodup := by
  unfold targets
  split
  · exact List.nodup_singleton _
  · split
    · exact List.nodup_nil
    · split
      · rename_i htargets
        exact nodup_of_targets htargets
      · exact List.nodup_nil
  · exact List.nodup_nil

theorem publishRoute_cases (hnumbered : broker.Numbered) (id : RouteId)
    (key : String) (payload : Payload) (timeToLive : UInt32) :
    (broker.targets (.publishRoute id key payload timeToLive) = [] ∧
      (broker.publishRoute id key payload timeToLive).state = broker ∧
      (broker.publishRoute id key payload timeToLive).signals = []) ∨
    ∃ turned : Broker, turned.Numbered ∧ turned.queues = broker.queues ∧
      (broker.publishRoute id key payload timeToLive).state =
        ((broker.targets (.publishRoute id key payload timeToLive)).foldl
          (Fanout.next payload timeToLive) ⟨turned, 0, []⟩).broker ∧
      (broker.publishRoute id key payload timeToLive).signals =
        ((broker.targets (.publishRoute id key payload timeToLive)).foldl
          (Fanout.next payload timeToLive) ⟨turned, 0, []⟩).signals := by
  unfold publishRoute targets
  dsimp only
  cases found : broker.routes.find? id with
  | none => exact .inl ⟨rfl, rfl, rfl⟩
  | some route =>
      cases htargets : route.targets key with
      | error failure => simp [htargets]
      | ok target =>
          obtain ⟨targets, next⟩ := target
          have hput := gains_putTargets hnumbered found htargets
          refine .inr ⟨broker.putRoute next,
            hnumbered.edits hput.arrangements.edits, rfl, ?_⟩
          simp [htargets]

/-- Whoever is pushed into gets its push, and the other queues stay. -/
def PushesInto (targets : List QueueId) (payload : Payload)
    (timeToLive : UInt32) (broker after : Broker) : Prop :=
  ∀ id, ∃ clock, after.queues.find? id =
    (broker.queues.find? id).map fun queue =>
      if id ∈ targets then (queue.push clock payload timeToLive).state.1
      else queue

theorem pushesInto_push (hnumbered : broker.Numbered) (target : QueueId)
    (payload : Payload) (timeToLive : UInt32) :
    PushesInto (broker.targets (.push target payload timeToLive)) payload
      timeToLive broker (broker.push target payload timeToLive).state :=
  find?_fanout ⟨broker, 0, []⟩ hnumbered payload timeToLive
    (List.nodup_singleton target)

theorem pushesInto_publishRoute (hnumbered : broker.Numbered) (id : RouteId)
    (key : String) (payload : Payload) (timeToLive : UInt32) :
    PushesInto (broker.targets (.publishRoute id key payload timeToLive))
      payload timeToLive broker
      (broker.publishRoute id key payload timeToLive).state := by
  intro target
  rcases publishRoute_cases hnumbered id key payload timeToLive with
    ⟨hnone, hstate, -⟩ | ⟨turned, hturned, hsame, hstate, -⟩
  · exact ⟨broker.clock, by simp [hnone, hstate]⟩
  · rw [hstate, ← hsame]
    exact find?_fanout ⟨turned, 0, []⟩ hturned payload timeToLive
      (broker.nodup_targets _) target

/-- What the pushes of one payload store in a queue. -/
def storedAt (broker : Broker) (serial : Nat) (targets : List QueueId)
    (payload : Payload) (timeToLive : UInt32) (id : QueueId) : Nat :=
  if payload.serial = serial ∧ id ∈ targets then
    (broker.pushedAt payload timeToLive id).buffered
  else 0

theorem PushesInto.shareAt {targets : List QueueId}
    (h : PushesInto targets payload timeToLive broker after)
    (hroomy : ∀ id queue, broker.queues.find? id = some queue →
      (∃ row, queue.Buffers row) ∧ 0 < queue.capacity)
    (serial : Nat) (id : QueueId) :
    broker.shareAt serial id +
        broker.storedAt serial targets payload timeToLive id =
      after.shareAt serial id + carrying serial
        (match broker.queues.find? id with
        | none => []
        | some queue =>
            if id ∈ targets then
              queue.releasedByPush broker.clock payload timeToLive
            else []) := by
  obtain ⟨clock, hfind⟩ := h id
  unfold Broker.shareAt storedAt pushedAt
  rw [hfind]
  cases found : broker.queues.find? id with
  | none => simp [Share.none]
  | some queue =>
      obtain ⟨⟨row, hrow⟩, hcapacity⟩ := hroomy id queue found
      by_cases htarget : id ∈ targets
      · have hpush := hrow.share_push hcapacity clock payload timeToLive serial
        have hclock := queue.pushed_eq clock broker.clock payload timeToLive
        unfold Queue.releasedByPush at hpush ⊢
        rw [hclock] at hpush
        simp only [Option.map_some, htarget, and_true, if_true]
        exact hpush
      · simp [htarget]

theorem shareAt_turn (hnumbered : broker.Numbered)
    {released : Queue → List Message}
    (hturn : (broker.queues.find? target = none ∧ after = broker) ∨
      ∃ queue next, broker.queues.find? target = some queue ∧
        next.id = queue.id ∧ after = broker.putQueue next ∧
        queue.share serial =
          next.share serial + carrying serial (released queue))
    (id : QueueId) :
    broker.shareAt serial id =
      after.shareAt serial id + carrying serial
        (match broker.queues.find? id with
        | none => []
        | some queue => if id = target then released queue else []) := by
  rcases hturn with ⟨habsent, rfl⟩ | ⟨queue, next, found, hid, rfl, hshare⟩
  · split
    · rfl
    · rename_i queue found
      rw [if_neg]
      · rfl
      · rintro rfl
        rw [habsent] at found
        cases found
  · have hfind : ∀ other, (broker.putQueue next).queues.find? other =
        if other = target then some next else broker.queues.find? other :=
      hnumbered.queues.find?_put found hid
    by_cases hsame : id = target
    · subst hsame
      have hnext := hfind id
      rw [if_pos rfl] at hnext
      rw [shareAt_of_found found, shareAt_of_found hnext, found, hshare]
      simp only [if_true]
    · have hother := hfind id
      rw [if_neg hsame] at hother
      rw [shareAt_congr hother]
      simp only [hsame, if_false]
      split <;> rfl

theorem Reached.shareAt_pop (reached : Reached stamps broker)
    (target : QueueId) (holdTime : UInt32) (serial : Nat) (id : QueueId) :
    broker.shareAt serial id =
      (broker.pop target holdTime).state.shareAt serial id +
        carrying serial (broker.releasedAt (.pop target holdTime) id) := by
  refine shareAt_turn reached.consistent.numbered ?_ id
  unfold Broker.pop
  cases found : broker.queues.find? target with
  | none => exact .inl ⟨rfl, rfl⟩
  | some queue =>
      obtain ⟨row, hrow⟩ := (reached.limited target queue found).row
      exact .inr ⟨queue, _, rfl, (Queue.refilled_pop queue _ _).id_eq, rfl,
        hrow.share_pop holdTime broker.now serial⟩

theorem shareAt_confirm (hnumbered : broker.Numbered) (target : QueueId)
    (tag : Tag) (serial : Nat) (id : QueueId) :
    broker.shareAt serial id =
      (broker.confirm target tag).state.shareAt serial id +
        carrying serial (broker.releasedAt (.confirm target tag) id) := by
  refine shareAt_turn hnumbered ?_ id
  unfold Broker.confirm
  cases found : broker.queues.find? target with
  | none => exact .inl ⟨rfl, rfl⟩
  | some queue =>
      right
      cases confirmed : queue.confirm tag with
      | ok next =>
          exact ⟨queue, next, rfl, (Queue.refilled_confirm confirmed).id_eq,
            by simp [confirmed], Queue.share_confirm confirmed serial⟩
      | error failure =>
          have hput := hnumbered.queues.put_self found
          refine ⟨queue, queue, rfl, rfl, by simp [confirmed, putQueue, hput],
            ?_⟩
          unfold Queue.confirm at confirmed
          unfold Queue.releasedByConfirm
          split at confirmed
          · rename_i hnone
            rw [hnone]
            rfl
          · cases confirmed

theorem shareAt_purge (hnumbered : broker.Numbered) (target : QueueId)
    (serial : Nat) (id : QueueId) :
    broker.shareAt serial id =
      (broker.purge target).state.shareAt serial id +
        carrying serial (broker.releasedAt (.purge target) id) := by
  refine shareAt_turn hnumbered ?_ id
  unfold Broker.purge
  cases found : broker.queues.find? target with
  | none => exact .inl ⟨rfl, rfl⟩
  | some queue =>
      exact .inr ⟨queue, queue.purge.1, rfl, rfl, rfl, queue.share_purge serial⟩

theorem Reached.shareAt_tick (reached : Reached stamps broker)
    (now : Timestamp) (serial : Nat) (id : QueueId) :
    broker.shareAt serial id =
      (broker.tick now).state.shareAt serial id +
        carrying serial (broker.releasedAt (.tick now) id) := by
  have hfind : (broker.tick now).state.queues.find? id =
      (broker.queues.find? id).map fun queue => (queue.sweep now).1 :=
    Registry.find?_mapEntities _ _ _
  unfold Broker.shareAt releasedAt
  rw [hfind]
  cases found : broker.queues.find? id with
  | none => rfl
  | some queue =>
      obtain ⟨row, hrow⟩ := (reached.limited id queue found).row
      exact hrow.share_sweep now serial

theorem shareAt_arranged (h : broker.Consistent) {command : Command}
    (hquiet : isTraffic command = false) (serial : Nat) (id : QueueId) :
    broker.shareAt serial id =
      (broker.perform command).state.shareAt serial id +
        carrying serial (broker.releasedAt command id) := by
  have hreleased : broker.releasedAt command id =
      match broker.queues.find? id with
      | none => []
      | some queue =>
          match (broker.perform command).state.queues.find? id with
          | none => queue.messages ++ queue.heldMessages
          | some _ => [] := by
    cases command <;> first | rfl | cases hquiet
  have hsettles := settles_arrangements h.numbered
    (arrangements_perform h hquiet)
  have hcontinues := hsettles.queues id
  rw [hreleased]
  unfold shareAt
  cases hafter : (broker.perform command).state.queues.find? id with
  | none =>
      cases broker.queues.find? id with
      | none => rfl
      | some queue =>
          exact (Message.carrying_append _ _).symm.trans (Nat.zero_add _).symm
  | some next =>
      rcases hcontinues next hafter with
        ⟨queue, found, hsame⟩ | ⟨hnew, hvacant⟩
      · rw [found]
        exact (Queue.share_congr hsame.buffer hsame.held serial).symm
      · rw [h.numbered.queues.find?_eq_none (Nat.not_le.mpr hnew)]
        have hempty : next.Stores (fun _ => False) (fun _ => False) :=
          .of_vacant hvacant
        exact (hempty.share_eq_zero (fun _ => False.elim)
          fun _ => False.elim).symm

/-- What a command stores of its payload in a queue. -/
def storedBy (broker : Broker) (serial : Nat) (command : Command)
    (id : QueueId) : Nat :=
  match command with
  | .push _ payload timeToLive | .publishRoute _ _ payload timeToLive =>
      broker.storedAt serial (broker.targets command) payload timeToLive id
  | _ => 0

theorem Reached.shareAt_perform (reached : Reached stamps broker)
    (command : Command) (serial : Nat) (id : QueueId) :
    broker.shareAt serial id + broker.storedBy serial command id =
      (broker.perform command).state.shareAt serial id +
        carrying serial (broker.releasedAt command id) := by
  have h := reached.consistent
  have hroomy : ∀ id queue, broker.queues.find? id = some queue →
      (∃ row, queue.Buffers row) ∧ 0 < queue.capacity := fun id queue found =>
    ⟨(reached.limited id queue found).row,
      capacity_pos (reached.listed.queues.proper id queue found)⟩
  cases command with
  | push target payload timeToLive =>
      exact (pushesInto_push h.numbered target payload timeToLive).shareAt
        hroomy serial id
  | publishRoute route key payload timeToLive =>
      exact (pushesInto_publishRoute h.numbered route key payload
        timeToLive).shareAt hroomy serial id
  | pop target holdTime => exact reached.shareAt_pop target holdTime serial id
  | confirm target tag => exact shareAt_confirm h.numbered target tag serial id
  | purge target => exact shareAt_purge h.numbered target serial id
  | tick now => exact reached.shareAt_tick now serial id
  | _ => exact shareAt_arranged h rfl serial id

theorem releasedAt_of_absent (absent : broker.queues.find? id = none)
    (command : Command) : broker.releasedAt command id = [] := by
  unfold releasedAt
  rw [absent]

theorem storedBy_of_absent (absent : broker.queues.find? id = none)
    (serial : Nat) (command : Command) :
    broker.storedBy serial command id = 0 := by
  have hnone : ∀ payload timeToLive,
      (broker.pushedAt payload timeToLive id).buffered = 0 := by
    intro payload timeToLive
    unfold pushedAt
    rw [absent]
    rfl
  unfold storedBy storedAt
  split
  · rw [hnone]
    exact ite_self 0
  · rw [hnone]
    exact ite_self 0
  · rfl

theorem sum_storedAt {targets : List QueueId} (hnodup : targets.Nodup)
    (serial : Nat) (payload : Payload) (timeToLive : UInt32) :
    (broker.queues.entities.keys.map
        (broker.storedAt serial targets payload timeToLive)).sum =
      if payload.serial = serial then
        (Share.total (targets.map
          (broker.pushedAt payload timeToLive))).buffered
      else 0 := by
  have habsent : ∀ id, broker.queues.find? id = none →
      broker.storedAt serial targets payload timeToLive id = 0 := by
    intro id absent
    unfold storedAt pushedAt
    rw [absent]
    exact ite_self 0
  by_cases hserial : payload.serial = serial
  · let ids := broker.queues.entities.keys.toFinset ∪ targets.toFinset
    have hkeys : ∀ id ∈ broker.queues.entities.keys, id ∈ ids := fun id hmem =>
      Finset.mem_union_left _ (List.mem_toFinset.mpr hmem)
    have htargets : ∑ id ∈ targets.toFinset,
          broker.storedAt serial targets payload timeToLive id =
        ∑ id ∈ ids, broker.storedAt serial targets payload timeToLive id := by
      refine Finset.sum_subset Finset.subset_union_right fun id _ hother => ?_
      exact if_neg fun h => hother (List.mem_toFinset.mpr h.2)
    rw [if_pos hserial, sum_keys_eq hkeys habsent, ← htargets,
      List.sum_toFinset _ hnodup, Share.total, List.map_map]
    refine congrArg List.sum (List.map_congr_left fun id hmem => ?_)
    exact if_pos ⟨hserial, hmem⟩
  · rw [if_neg hserial]
    refine List.sum_eq_zero fun number hmem => ?_
    obtain ⟨id, -, rfl⟩ := List.mem_map.mp hmem
    exact if_neg fun h => hserial h.1

/-- What all queues had of a payload, and what a command adds to it, is what they
have of it afterwards and what the command lets go. -/
theorem Reached.holders_perform (reached : Reached stamps broker)
    (command : Command) (serial : Nat) :
    broker.holders serial +
        (broker.queues.entities.keys.map
          (broker.storedBy serial command)).sum =
      (broker.perform command).state.holders serial +
        carrying serial (broker.released command) :=
  holders_balance (reached.shareAt_perform command serial)
    (fun _ absent => storedBy_of_absent absent serial command)
    fun _ absent => releasedAt_of_absent absent command

theorem sum_storedBy_of_not_gives {command : Command}
    (hother : ¬ command.Gives serial) (broker : Broker) :
    (broker.queues.entities.keys.map (broker.storedBy serial command)).sum =
      0 := by
  refine List.sum_eq_zero fun number hmem => ?_
  obtain ⟨id, -, rfl⟩ := List.mem_map.mp hmem
  unfold storedBy storedAt
  split
  · exact if_neg fun h => hother (Command.gives_iff.mpr ⟨_, rfl, h.1⟩)
  · exact if_neg fun h => hother (Command.gives_iff.mpr ⟨_, rfl, h.1⟩)
  · rfl

theorem sum_storedBy_of_gives {command : Command}
    (hgives : command.Gives serial) (broker : Broker) :
    (broker.queues.entities.keys.map (broker.storedBy serial command)).sum =
      (broker.adds command).buffered := by
  obtain ⟨payload, hpayload, hserial⟩ := Command.gives_iff.mp hgives
  cases command with
  | push id other timeToLive =>
      cases hpayload
      have hsum := broker.sum_storedAt (List.nodup_singleton id) serial payload
        timeToLive
      rw [if_pos hserial] at hsum
      exact hsum.trans (Nat.add_zero _)
  | publishRoute id key other timeToLive =>
      cases hpayload
      have hsum := broker.sum_storedAt (broker.nodup_targets
        (.publishRoute id key payload timeToLive)) serial payload timeToLive
      rw [if_pos hserial] at hsum
      exact hsum
  | publishChannel id topic other =>
      have hnothing : (broker.adds (.publishChannel id topic other)).buffered =
          0 := by
        unfold adds
        dsimp only
        split <;> rfl
      rw [hnothing]
      refine List.sum_eq_zero fun number hmem => ?_
      obtain ⟨other, -, rfl⟩ := List.mem_map.mp hmem
      rfl
  | _ => cases hpayload

end Broker

end MessageBroker
