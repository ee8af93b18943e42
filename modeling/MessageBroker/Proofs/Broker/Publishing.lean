import MessageBroker.Proofs.Broker.Pushing
import MessageBroker.Proofs.Broker.Shares

/-! A publish through a route is a push into each of its targets, and each of
them comes out as if it had been the only one. -/

namespace MessageBroker

namespace TagClock

variable {clock : TagClock} {count : Nat}

theorem length_nextTags (clock : TagClock) (more : Nat) :
    (clock.nextTags more).1.length = more := by
  induction more generalizing clock with
  | zero => rfl
  | succ more ih => exact congrArg (· + 1) (ih clock.stamped)

theorem lt_of_mem_nextTags {last tag : Tag} {more : Nat}
    (h : clock.Within count) (hbound : count + more ≤ UInt32.size)
    (hlast : clock.lastTag = some last) (hmem : tag ∈ (clock.nextTags more).1) :
    last < tag := by
  induction more generalizing clock count last with
  | zero => cases hmem
  | succ more ih =>
      have hcount : count < UInt32.size := by omega
      have hnext := h.last_lt_nextTag hcount hlast
      rcases List.mem_cons.mp hmem with rfl | hlater
      · exact hnext
      · exact Nat.lt_trans hnext
          (ih (h.stamped hcount) (by omega) clock.lastTag_stamped hlater)

theorem pairwise_nextTags {more : Nat} (h : clock.Within count)
    (hbound : count + more ≤ UInt32.size) :
    (clock.nextTags more).1.Pairwise (· < ·) := by
  induction more generalizing clock count with
  | zero => exact .nil
  | succ more ih =>
      have hstamped := h.stamped (by omega : count < UInt32.size)
      refine List.pairwise_cons.mpr ⟨fun tag hmem => ?_, ih hstamped (by omega)⟩
      exact lt_of_mem_nextTags hstamped (by omega) clock.lastTag_stamped hmem

end TagClock

namespace Message

/-- A copy of the message for each queue, under one tag after another. -/
def copies (message : Message) (ids : List QueueId) (tags : List Tag) :
    List (QueueId × Message) :=
  (ids.zip tags).map fun entry => (entry.1, { message with tag := entry.2 })

variable {message : Message}

@[simp] theorem copies_nil (tags : List Tag) : message.copies [] tags = [] :=
  rfl

theorem keys_copies {ids : List QueueId} {tags : List Tag}
    (hlength : tags.length = ids.length) :
    (message.copies ids tags).map Prod.fst = ids := by
  unfold copies
  rw [List.map_map]
  exact List.map_fst_zip (Nat.le_of_eq hlength.symm)

theorem mem_copies {ids : List QueueId} {tags : List Tag} {id : QueueId}
    {tag : Tag} (hmem : (id, tag) ∈ ids.zip tags) :
    (id, { message with tag := tag }) ∈ message.copies ids tags :=
  List.mem_map.mpr ⟨_, hmem, rfl⟩

@[simp] theorem copies_cons (id : QueueId) (ids : List QueueId) (tag : Tag)
    (tags : List Tag) :
    message.copies (id :: ids) (tag :: tags) =
      (id, { message with tag := tag }) :: message.copies ids tags := rfl

theorem stamp_eq {first second : TagClock} (hnow : first.now = second.now)
    (payload : Payload) (timeToLive : UInt32) :
    stamp first payload timeToLive =
      { stamp second payload timeToLive with tag := first.nextTag } := by
  unfold stamp
  rw [hnow]

end Message

/-- The members of a key that something published under it goes to: the one
rotated to the front, or all of them. -/
def Route.recipients (route : Route) (members : MemberSet QueueId) :
    List QueueId :=
  if route.flags.roundRobin then members.rotate.items.take 1 else members.items

def Route.turned (route : Route) (key : String) : Route :=
  if route.flags.roundRobin then route.rotate key else route

theorem Route.name_turned (route : Route) (key : String) :
    (route.turned key).name = route.name := by
  unfold turned
  split <;> rfl

theorem Route.targets_eq {route : Route} {key : String}
    {members : MemberSet QueueId}
    (bound : route.bindings.group? key = some members) :
    route.targets key = .ok (route.recipients members, route.turned key) := by
  unfold targets recipients turned MemberSet.first?
  rw [bound]
  dsimp only
  split
  · cases members.rotate.items <;> rfl
  · rfl

namespace Registry

variable {ι : Type u} {ε : Type v} [DecidableEq ι]

theorem find?_foldl_update_of_not_mem {σ : Type w} (target : σ → ι)
    (change : σ → ε → ε) (registry : Registry ι ε) {steps : List σ} {id : ι}
    (habsent : id ∉ steps.map target) :
    (steps.foldl (fun registry step =>
        registry.update (target step) (change step)) registry).find? id =
      registry.find? id := by
  induction steps generalizing registry with
  | nil => rfl
  | cons step rest ih =>
      rw [List.map_cons, List.mem_cons, not_or] at habsent
      rw [List.foldl_cons, ih _ habsent.2, find?_update_ne _ habsent.1]

/-- Where every entity is changed once, it is changed as if alone. -/
theorem find?_foldl_update {σ : Type w} (target : σ → ι)
    (change : σ → ε → ε) (registry : Registry ι ε) {steps : List σ}
    (hnodup : (steps.map target).Nodup) {step : σ} (hmem : step ∈ steps) :
    (steps.foldl (fun registry step =>
        registry.update (target step) (change step)) registry).find?
        (target step) =
      (registry.find? (target step)).map (change step) := by
  induction steps generalizing registry with
  | nil => cases hmem
  | cons first rest ih =>
      obtain ⟨hapart, hrest⟩ := List.nodup_cons.mp hnodup
      rw [List.foldl_cons]
      rcases List.mem_cons.mp hmem with rfl | hlater
      · rw [find?_foldl_update_of_not_mem _ _ _ hapart, find?_update, if_pos rfl]
      · have hother : target step ≠ target first := by
          intro hsame
          exact hapart (hsame ▸ List.mem_map_of_mem hlater)
        rw [ih _ hrest hlater, find?_update_ne _ hother]

end Registry

namespace Broker

/-- Whether a push into this queue alone would be accepted. -/
def accepts (broker : Broker) (payload : Payload) (timeToLive : UInt32)
    (id : QueueId) : Bool :=
  (broker.push id payload timeToLive).result.isOk

/-- Who is told of a message that this queue accepts, and what. -/
def acceptingSignals (broker : Broker) (message : Message) (id : QueueId) :
    List Signal :=
  match broker.queues.find? id with
  | none => []
  | some queue => queue.acceptingSignals message

def acceptAll (queues : Registry QueueId Queue)
    (messages : List (QueueId × Message)) : Registry QueueId Queue :=
  messages.foldl (fun queues entry =>
    queues.update entry.1 fun queue => queue.accepting entry.2) queues

variable {broker before : Broker} {payload : Payload} {timeToLive : UInt32}

theorem accepts_eq (hnumbered : broker.Numbered) {id : QueueId} {queue : Queue}
    (found : broker.queues.find? id = some queue)
    (hfollows : queue.FollowsVerdict) (payload : Payload)
    (timeToLive : UInt32) :
    broker.accepts payload timeToLive id = (queue.verdict payload).isOk := by
  unfold accepts
  rw [push_eq hnumbered found hfollows]
  cases queue.verdict payload <;> rfl

namespace Fanout

variable {fanout : Fanout} {target : QueueId} {targets : List QueueId}
  {queue : Queue}

theorem next_of_refused (hnumbered : fanout.broker.Numbered)
    (found : fanout.broker.queues.find? target = some queue)
    (hfollows : queue.FollowsVerdict) {rejection : Rejection}
    (hverdict : queue.verdict payload = .error rejection) :
    fanout.next payload timeToLive target =
      { fanout with failed := fanout.failed + 1 } := by
  unfold next
  rw [push_eq hnumbered found hfollows, hverdict]
  dsimp only [Outcome.refused]
  rw [List.append_nil]

theorem next_of_accepted (hnumbered : fanout.broker.Numbered)
    (found : fanout.broker.queues.find? target = some queue)
    (hfollows : queue.FollowsVerdict) (hverdict : queue.verdict payload = .ok ()) :
    fanout.next payload timeToLive target = {
      fanout with
      broker := {
        fanout.broker with
        clock := fanout.broker.clock.stamped
        queues := fanout.broker.queues.update target fun queue =>
          queue.accepting (.stamp fanout.broker.clock payload timeToLive) }
      signals := fanout.signals ++ queue.acceptingSignals
        (.stamp fanout.broker.clock payload timeToLive) } := by
  unfold next
  rw [push_eq hnumbered found hfollows, hverdict]

/-- The end of a publish, by what each of its targets would do alone before
it. -/
def finished (before : Broker) (payload : Payload) (timeToLive : UInt32)
    (targets : List QueueId) (fanout : Fanout) : Fanout :=
  let accepting := targets.filter (before.accepts payload timeToLive)
  let (tags, clock) := fanout.broker.clock.nextTags accepting.length
  let messages :=
    (Message.stamp before.clock payload timeToLive).copies accepting tags
  {
    broker := {
      fanout.broker with
      clock := clock
      queues := acceptAll fanout.broker.queues messages
    }
    failed := fanout.failed +
      targets.countP fun target => !before.accepts payload timeToLive target
    signals := fanout.signals ++ messages.flatMap fun entry =>
      before.acceptingSignals entry.2 entry.1
  }

theorem finished_nil (fanout : Fanout) :
    fanout.finished before payload timeToLive [] = fanout := by
  unfold finished
  simp only [List.filter_nil, List.length_nil, TagClock.nextTags,
    Message.copies_nil, List.flatMap_nil, List.countP_nil, List.append_nil]
  rfl

theorem finished_cons_of_refused
    (hrefuses : before.accepts payload timeToLive target = false) :
    fanout.finished before payload timeToLive (target :: targets) =
      { fanout with failed := fanout.failed + 1 }.finished before payload
        timeToLive targets := by
  unfold finished
  rw [List.filter_cons_of_neg (by simp [hrefuses]),
    List.countP_cons_of_pos (by simp [hrefuses])]
  dsimp only
  rw [Nat.add_right_comm, Nat.add_assoc]

theorem finished_cons_of_accepted
    (haccepts : before.accepts payload timeToLive target = true)
    (found : before.queues.find? target = some queue)
    (hnow : fanout.broker.clock.now = before.clock.now) :
    fanout.finished before payload timeToLive (target :: targets) =
      finished before payload timeToLive targets {
        fanout with
        broker := {
          fanout.broker with
          clock := fanout.broker.clock.stamped
          queues := fanout.broker.queues.update target fun queue =>
            queue.accepting (.stamp fanout.broker.clock payload timeToLive) }
        signals := fanout.signals ++ queue.acceptingSignals
          (.stamp fanout.broker.clock payload timeToLive) } := by
  have hmessage := Message.stamp_eq hnow payload timeToLive
  have htold : before.acceptingSignals
      (.stamp fanout.broker.clock payload timeToLive) target =
        queue.acceptingSignals
          (.stamp fanout.broker.clock payload timeToLive) := by
    unfold acceptingSignals
    rw [found]
  unfold finished
  rw [List.filter_cons_of_pos haccepts,
    List.countP_cons_of_neg (by simp [haccepts])]
  simp only [List.length_cons, TagClock.nextTags, Message.copies_cons,
    List.flatMap_cons, ← hmessage, htold, List.append_assoc]
  rfl

theorem find?_finished_of_not_mem {id : QueueId}
    (habsent : id ∉ targets.filter (before.accepts payload timeToLive)) :
    (fanout.finished before payload timeToLive targets).broker.queues.find? id =
      fanout.broker.queues.find? id := by
  refine Registry.find?_foldl_update_of_not_mem Prod.fst _ _ ?_
  rw [Message.keys_copies (TagClock.length_nextTags _ _)]
  exact habsent

theorem find?_finished {id : QueueId} {tag : Tag} (hnodup : targets.Nodup)
    (hmem : (id, tag) ∈
      (targets.filter (before.accepts payload timeToLive)).zip
        (fanout.broker.clock.nextTags
          (targets.filter (before.accepts payload timeToLive)).length).1) :
    (fanout.finished before payload timeToLive targets).broker.queues.find? id =
      (fanout.broker.queues.find? id).map fun queue => queue.accepting
        { Message.stamp before.clock payload timeToLive with tag := tag } := by
  refine Registry.find?_foldl_update Prod.fst _ _ ?_ (Message.mem_copies hmem)
  rw [Message.keys_copies (TagClock.length_nextTags _ _)]
  exact hnodup.filter _

structure Begins (before : Broker) (fanout : Fanout) : Prop where
  numbered : fanout.broker.Numbered
  clock : fanout.broker.clock = before.clock
  queues : fanout.broker.queues = before.queues

end Fanout

/-- Queues that are there, each listed once, and go by their verdicts. -/
structure Targets (broker : Broker) (targets : List QueueId) : Prop where
  numbered : broker.Numbered
  nodup : targets.Nodup
  present : ∀ target ∈ targets, ∃ queue,
    broker.queues.find? target = some queue ∧ queue.FollowsVerdict

namespace Targets

variable {fanout : Fanout} {target : QueueId}
  {targets earlier later : List QueueId}

theorem left (h : before.Targets (earlier ++ later)) :
    before.Targets earlier where
  numbered := h.numbered
  nodup := (List.nodup_append.mp h.nodup).1
  present target hmem := h.present target (List.mem_append_left later hmem)

theorem tail (h : before.Targets (target :: later)) :
    before.Targets later where
  numbered := h.numbered
  nodup := (List.nodup_cons.mp h.nodup).2
  present other hmem := h.present other (List.mem_cons_of_mem target hmem)

/-- Each target does what it would do alone. The targets still to come are as
they were before the publish. -/
theorem foldl_next (h : before.Targets targets)
    (hnumbered : fanout.broker.Numbered)
    (hnow : fanout.broker.clock.now = before.clock.now)
    (hsame : ∀ target ∈ targets,
      fanout.broker.queues.find? target = before.queues.find? target) :
    targets.foldl (Fanout.next payload timeToLive) fanout =
      fanout.finished before payload timeToLive targets := by
  induction targets generalizing fanout with
  | nil => exact fanout.finished_nil.symm
  | cons target rest ih =>
      obtain ⟨habsent, -⟩ := List.nodup_cons.mp h.nodup
      obtain ⟨queue, found, hfollows⟩ := h.present target List.mem_cons_self
      obtain ⟨hfirst, hothers⟩ := List.forall_mem_cons.mp hsame
      have haccepts := accepts_eq h.numbered found hfollows payload timeToLive
      have hnext := hnumbered.edits
        (edits_push hnumbered target payload timeToLive)
      change (fanout.next payload timeToLive target).broker.Numbered at hnext
      rw [List.foldl_cons]
      cases hverdict : queue.verdict payload with
      | error rejection =>
          rw [hverdict] at haccepts
          rw [Fanout.next_of_refused hnumbered (hfirst.trans found) hfollows
              hverdict,
            Fanout.finished_cons_of_refused haccepts]
          exact ih h.tail hnumbered hnow hothers
      | ok =>
          rw [hverdict] at haccepts
          rw [Fanout.next_of_accepted hnumbered (hfirst.trans found) hfollows
            hverdict] at hnext ⊢
          rw [Fanout.finished_cons_of_accepted haccepts found hnow]
          apply ih h.tail hnext hnow
          intro id hmem
          have hne : id ≠ target := fun heq => habsent (heq ▸ hmem)
          exact (Registry.find?_update_ne _ hne _).trans (hothers id hmem)

theorem foldl_next_of_begins (h : before.Targets targets)
    (hbegins : fanout.Begins before) (payload : Payload)
    (timeToLive : UInt32) :
    targets.foldl (Fanout.next payload timeToLive) fanout =
      fanout.finished before payload timeToLive targets := by
  apply h.foldl_next hbegins.numbered
  · rw [hbegins.clock]
  · intro target _
    rw [hbegins.queues]

theorem turn (h : before.Targets (earlier ++ target :: later))
    (hbegins : fanout.Begins before) (payload : Payload)
    (timeToLive : UInt32) :
    let reached := earlier.foldl (Fanout.next payload timeToLive) fanout
    (∃ queue, reached.broker.queues.find? target = some queue) ∧
    reached.broker.accepts payload timeToLive target =
      before.accepts payload timeToLive target := by
  obtain ⟨queue, hqueue, hfollows⟩ :=
    h.present target (List.mem_append_right _ List.mem_cons_self)
  have hapart := (List.nodup_append.mp h.nodup).2.2
  have habsent : target ∉ earlier.filter (before.accepts payload timeToLive) :=
    fun hmem => hapart target (List.mem_filter.mp hmem).1 target
      List.mem_cons_self rfl
  have hthere :
      (earlier.foldl (Fanout.next payload timeToLive)
        fanout).broker.queues.find? target = some queue := by
    rw [h.left.foldl_next_of_begins hbegins,
      Fanout.find?_finished_of_not_mem habsent, hbegins.queues]
    exact hqueue
  have hnumbered := hbegins.numbered.edits
    (edits_fanout fanout hbegins.numbered payload timeToLive earlier)
  refine ⟨⟨queue, hthere⟩, ?_⟩
  rw [accepts_eq hnumbered hthere hfollows, accepts_eq h.numbered hqueue hfollows]

theorem find?_push (h : before.Targets targets) (hmem : target ∈ targets)
    (haccepts : before.accepts payload timeToLive target = true) :
    ∃ queue, before.queues.find? target = some queue ∧
      (before.push target payload timeToLive).state.queues.find? target =
        some (queue.accepting (.stamp before.clock payload timeToLive)) := by
  obtain ⟨queue, hqueue, hfollows⟩ := h.present target hmem
  refine ⟨queue, hqueue, ?_⟩
  rw [accepts_eq h.numbered hqueue hfollows] at haccepts
  rw [push_eq h.numbered hqueue hfollows]
  cases hverdict : queue.verdict payload with
  | error rejection =>
      rw [hverdict] at haccepts
      cases haccepts
  | ok => exact Registry.find?_update_self hqueue _

end Targets

/-- All that a publish under a key that is bound does: which queues it goes to,
and the tags that it stamps for those that accept. -/
structure PublishesExactly (broker : Broker) (stamps : Nat) (id : RouteId)
    (route : Route) (key : String) (payload : Payload) (timeToLive : UInt32)
    (targets : List QueueId) (tags : List Tag) : Prop where
  once : targets.Nodup
  attempts : (broker.publishRoute id key payload timeToLive).state =
    (targets.foldl (Fanout.next payload timeToLive)
      ⟨broker.putRoute (route.turned key), 0, []⟩).broker
  /-- At its turn every target is there, and accepts or not as it would alone
  before the publish. -/
  turn : ∀ earlier target later, targets = earlier ++ target :: later →
    let reached := earlier.foldl (Fanout.next payload timeToLive)
      ⟨broker.putRoute (route.turned key), 0, []⟩
    (∃ queue, reached.broker.queues.find? target = some queue) ∧
    reached.broker.accepts payload timeToLive target =
      broker.accepts payload timeToLive target
  tagged : tags.length =
    (targets.filter (broker.accepts payload timeToLive)).length
  increasing : stamps + tags.length ≤ UInt32.size → tags.Pairwise (· < ·)
  /-- Each accepting queue is as after its push alone, but for the tag. -/
  accepted : ∀ target tag,
    (target, tag) ∈
      (targets.filter (broker.accepts payload timeToLive)).zip tags →
    ∃ queue, broker.queues.find? target = some queue ∧
      (broker.push target payload timeToLive).state.queues.find? target =
        some (queue.accepting (.stamp broker.clock payload timeToLive)) ∧
      (broker.publishRoute id key payload timeToLive).state.queues.find?
          target =
        some (queue.accepting
          { Message.stamp broker.clock payload timeToLive with tag := tag })
  /-- Any other queue is as it was, be it a target or not. -/
  unchanged : ∀ other,
    other ∉ targets.filter (broker.accepts payload timeToLive) →
    (broker.publishRoute id key payload timeToLive).state.queues.find? other =
      broker.queues.find? other
  others : ∃ queues, (broker.publishRoute id key payload timeToLive).state = {
    broker with
    clock := (broker.clock.nextTags tags.length).2
    queues := queues
    routes := broker.routes.put (route.turned key) }
  told : (broker.publishRoute id key payload timeToLive).signals =
    ((targets.filter (broker.accepts payload timeToLive)).zip tags).flatMap
      fun entry => broker.acceptingSignals
        { Message.stamp broker.clock payload timeToLive with tag := entry.2 }
        entry.1
  result : (broker.publishRoute id key payload timeToLive).result =
    let failed := targets.countP fun target =>
      !broker.accepts payload timeToLive target
    if failed = 0 then .ok () else .error (.deliveryFailed route.name failed)

theorem publishRoute_eq {id : RouteId} {route : Route}
    (found : broker.routes.find? id = some route) {key : String}
    {members : MemberSet QueueId}
    (bound : route.bindings.group? key = some members) (payload : Payload)
    (timeToLive : UInt32) :
    broker.publishRoute id key payload timeToLive =
      let fanout := (route.recipients members).foldl
        (Fanout.next payload timeToLive)
        ⟨broker.putRoute (route.turned key), 0, []⟩
      {
        state := fanout.broker
        result :=
          if fanout.failed = 0 then .ok ()
          else .error (.deliveryFailed route.name fanout.failed)
        signals := fanout.signals } := by
  unfold publishRoute
  rw [found]
  dsimp only
  rw [Route.targets_eq bound]
  dsimp only
  rw [Route.name_turned]

variable {stamps : Nat}

theorem Reached.targets (reached : Reached stamps broker) {id : RouteId}
    {route : Route} (found : broker.routes.find? id = some route) {key : String}
    {members : MemberSet QueueId}
    (bound : route.bindings.group? key = some members) :
    broker.Targets (route.recipients members) where
  numbered := reached.consistent.numbered
  nodup := nodup_of_targets (Route.targets_eq bound)
  present target hmem := by
    have hmember : target ∈ members.items := by
      unfold Route.recipients at hmem
      split at hmem
      · exact MemberSet.mem_items_rotate.mp (List.mem_of_mem_take hmem)
      · exact hmem
    have hbound : route.isBound target key = true :=
      MemberIndex.contains_iff_holds.mpr ⟨members, bound, hmember⟩
    obtain ⟨queue, hqueue, -⟩ :=
      (reached.consistent.bindings key id target).mp ⟨route, found, hbound⟩
    exact ⟨queue, hqueue, reached.followsVerdict target queue hqueue⟩

/-- A publish tries every target, and what one of them does makes no difference
to the others. -/
theorem Reached.publishRoute_exact (reached : Reached stamps broker)
    {id : RouteId} {route : Route}
    (found : broker.routes.find? id = some route) {key : String}
    {members : MemberSet QueueId}
    (bound : route.bindings.group? key = some members) (payload : Payload)
    (timeToLive : UInt32) :
    ∃ tags, broker.PublishesExactly stamps id route key payload timeToLive
      (route.recipients members) tags := by
  have htargets := reached.targets found bound
  have hturned := gains_putTargets htargets.numbered found
    (Route.targets_eq bound)
  have hbegins : Fanout.Begins broker
      ⟨broker.putRoute (route.turned key), 0, []⟩ :=
    ⟨htargets.numbered.edits hturned.arrangements.edits, rfl, rfl⟩
  have hpublish := publishRoute_eq found bound payload timeToLive
  have hwhole := htargets.foldl_next_of_begins hbegins payload
    timeToLive
  generalize route.recipients members = targets at *
  have hlength := TagClock.length_nextTags broker.clock
    (targets.filter (broker.accepts payload timeToLive)).length
  refine ⟨(broker.clock.nextTags
    (targets.filter (broker.accepts payload timeToLive)).length).1, {
      once := htargets.nodup
      attempts := ?attempts
      turn := ?turn
      tagged := hlength
      increasing := ?increasing
      accepted := ?accepted
      unchanged := ?unchanged
      others := ?others
      told := ?told
      result := ?result
    }⟩
  case attempts =>
    rw [hpublish]
  case turn =>
    intro earlier target later hsplit
    rw [hsplit] at htargets
    exact htargets.turn hbegins payload timeToLive
  case increasing =>
    intro hbound
    rw [hlength] at hbound
    exact TagClock.pairwise_nextTags (reached.stocked (by omega)).clock hbound
  case accepted =>
    intro target tag hmem
    obtain ⟨hmember, haccepts⟩ :=
      List.mem_filter.mp (List.of_mem_zip hmem).1
    obtain ⟨queue, hqueue, hlone⟩ := htargets.find?_push hmember haccepts
    refine ⟨queue, hqueue, hlone, ?_⟩
    rw [hpublish, hwhole, Fanout.find?_finished htargets.nodup hmem]
    exact congrArg (Option.map _) hqueue
  case unchanged =>
    intro other habsent
    rw [hpublish, hwhole]
    exact Fanout.find?_finished_of_not_mem habsent
  case others =>
    rw [hpublish, hwhole, hlength]
    exact ⟨_, rfl⟩
  case told =>
    rw [hpublish, hwhole]
    exact List.flatMap_map _ _ _
  case result =>
    rw [hpublish, hwhole]
    unfold Fanout.finished
    dsimp only
    rw [Nat.zero_add]

/-- The queue that is full refuses, and the other one gets the message. -/
theorem Reached.publishRoute_exact_full :
    (let broker := (idle .default ⟨0⟩).run [
      .createQueue "jobs" ⟨1, 64, ⟨false, false, false, false⟩⟩,
      .createQueue "mail" ⟨10, 64, ⟨false, false, false, false⟩⟩,
      .createRoute "work" ⟨false, false, false⟩,
      .bind ⟨3⟩ ⟨1⟩ "urgent",
      .bind ⟨3⟩ ⟨2⟩ "urgent",
      .push ⟨1⟩ ⟨[1], 1⟩ 0]
    ∃ stamps route members tags, broker.routes.find? ⟨3⟩ = some route ∧
      route.bindings.group? "urgent" = some members ∧
      (route.recipients members).filter (broker.accepts ⟨[2], 2⟩ 0) = [⟨2⟩] ∧
      stamps + tags.length ≤ UInt32.size ∧
      broker.PublishesExactly stamps ⟨3⟩ route "urgent" ⟨[2], 2⟩ 0
        (route.recipients members) tags) := by
  have hidle : Reached 0 (idle .default ⟨0⟩) :=
    .start (start_of_sound (by decide))
  intro broker
  have reached : Reached _ broker := hidle.run _
  obtain ⟨route, found, members, bound, haccepting⟩ :
      ∃ route, broker.routes.find? ⟨3⟩ = some route ∧
        ∃ members, route.bindings.group? "urgent" = some members ∧
          (route.recipients members).filter (broker.accepts ⟨[2], 2⟩ 0) =
            [⟨2⟩] :=
    ⟨_, rfl, _, rfl, rfl⟩
  obtain ⟨tags, hexact⟩ := reached.publishRoute_exact found bound ⟨[2], 2⟩ 0
  refine ⟨_, route, members, tags, found, bound, haccepting, ?_, hexact⟩
  rw [hexact.tagged, haccepting]
  decide

end Broker

end MessageBroker
