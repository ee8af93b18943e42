import MessageBroker.Proofs.Broker.Removal
import MessageBroker.Proofs.Broker.Stock

/-! The ways of a message through a broker, command by command. -/

namespace MessageBroker

namespace Queue

variable {queue middle final : Queue} {tag : Tag} {message : Message}

theorem Passages.of_buffered {last : Place}
    (h : final.Passages .push (.buffered message) last) :
    last = .buffered message ∨ last = .gone := by
  induction h with
  | refl => exact .inl rfl
  | tail _ passage ih =>
      rcases ih with rfl | rfl
      · cases passage with
        | evicted => exact .inr rfl
      · cases passage

/-- A queue after some pushes: its messages have moved as they may, and others
may be new. -/
structure Pushed (queue final : Queue) : Prop where
  settings : final.settings = queue.settings
  full : queue.isFull = true → final.isFull = true
  places : ∀ tag,
    final.Passages .push (queue.place tag) (final.place tag) ∨
      (queue.place tag = .gone ∧ ∃ message, final.place tag = .buffered message)

namespace Pushed

theorem refl (queue : Queue) : Pushed queue queue :=
  ⟨rfl, fun hfull => hfull, fun _ => .inl .refl⟩

theorem trans (hfirst : Pushed queue middle) (hsecond : Pushed middle final)
    (hstays : ∀ tag, queue.place tag ≠ .gone → middle.place tag = .gone →
      final.place tag = .gone) : Pushed queue final where
  settings := hsecond.settings.trans hfirst.settings
  full hfull := hsecond.full (hfirst.full hfull)
  places tag := by
    rcases hfirst.places tag with hmoved | ⟨hgone, message, hplace⟩
    · have hlater := hmoved.later hsecond.settings hsecond.full
      rcases hsecond.places tag with hagain | ⟨habsent, hentered⟩
      · exact .inl (hlater.trans hagain)
      · -- What the first pushes evict cannot be what the later ones enter.
        by_cases hnew : queue.place tag = .gone
        · exact .inr ⟨hnew, hentered⟩
        · rw [hstays tag hnew habsent] at hentered
          obtain ⟨message, hplace⟩ := hentered
          cases hplace
    · rcases hsecond.places tag with hagain | ⟨habsent, -⟩
      · rw [hplace] at hagain
        rcases hagain.of_buffered with hkept | hleft
        · exact .inr ⟨hgone, message, hkept⟩
        · rw [hgone, hleft]
          exact .inl .refl
      · rw [hplace] at habsent
        cases habsent

end Pushed

theorem Keeps.pushed {row : List (Handle × Message)} (h : queue.Keeps row)
    {clock : TagClock} {payload : Payload} {timeToLive : UInt32}
    (hfresh : (queue.push clock payload timeToLive).result = .ok () →
      queue.place clock.nextTag = .gone) :
    Pushed queue (queue.push clock payload timeToLive).state.1 where
  settings := (sameMembers_push queue clock payload timeToLive).settings
  full hfull := h.buffers.isFull_push hfull clock payload timeToLive
  places tag := by
    rcases (h.push hfresh).2 tag with hmoved | ⟨rfl, hok, hplace⟩
    · exact .inl hmoved
    · exact .inr ⟨hfresh hok, _, hplace⟩

end Queue

namespace Broker

def handedOut? (broker : Broker) (id : QueueId) : Command → Option Message
  | .pop target holdTime =>
      if target = id then
        match (broker.pop target holdTime).result with
        | .ok message? => message?
        | .error _ => none
      else none
  | _ => none

/-- What a command asks of a queue that moves its messages. -/
def asks (broker : Broker) (id : QueueId) : Command → Option Act
  | .push target _ _ => if target = id then some .push else none
  | .publishRoute .. => some .push
  | .pop target holdTime =>
      if target = id then
        some (.pop holdTime broker.now
          (broker.handedOut? id (.pop target holdTime)))
      else none
  | .confirm target tag =>
      if target = id then some (.confirm tag) else none
  | .purge target => if target = id then some .purge else none
  | .tick now => some (.sweep now)
  | _ => none

/-- What may become of a message while a command is performed, as seen from one
queue. -/
inductive Fate (broker : Broker) (command : Command) (id : QueueId) :
    Place → Place → Prop
  | stays {place : Place} : Fate broker command id place place
  | moves {first last : Place} {act : Act} {final : Queue}
      (asked : broker.asks id command = some act)
      (found : (broker.perform command).state.queues.find? id = some final)
      (passages : final.Passages act first last) :
      Fate broker command id first last
  | removed {first : Place} {queue : Queue}
      (found : broker.queues.find? id = some queue)
      (goes : queue.mayGo command)
      (absent : (broker.perform command).state.queues.find? id = none) :
      Fate broker command id first .gone
  | enters {message : Message} (asked : broker.asks id command = some .push)
      (fresh : ¬ broker.clock.Stamped message.tag)
      (free : message.heldUntil = none) :
      Fate broker command id .gone (.buffered message)

variable {stamps : Nat} {broker after : Broker} {id target : QueueId}
  {queue next : Queue} {tag : Tag} {command : Command}

theorem handedOut?_elsewhere (hother : target ≠ id) (holdTime : UInt32) :
    broker.handedOut? id (.pop target holdTime) = none :=
  if_neg hother

theorem handedOut?_absent (absent : broker.queues.find? target = none)
    (holdTime : UInt32) :
    broker.handedOut? id (.pop target holdTime) = none := by
  simp only [handedOut?, Broker.pop, absent]
  exact ite_self _

theorem handedOut?_found (found : broker.queues.find? id = some queue)
    (holdTime : UInt32) :
    broker.handedOut? id (.pop id holdTime) =
      (queue.pop holdTime broker.now).1 := by
  simp only [handedOut?, Broker.pop, found, if_true, Outcome.result_done]

theorem handedOut?_quiet {command : Command}
    (hquiet : ∀ holdTime, command ≠ .pop id holdTime) :
    broker.handedOut? id command = none := by
  cases command with
  | pop target holdTime =>
      refine handedOut?_elsewhere ?_ holdTime
      rintro rfl
      exact hquiet holdTime rfl
  | _ => rfl

theorem fate_quiet (h : broker.Consistent) (hquiet : isTraffic command = false)
    (id : QueueId) (tag : Tag) :
    Fate broker command id (broker.place id tag)
      ((broker.perform command).state.place id tag) := by
  have hsettles := settles_arrangements h.numbered
    (arrangements_perform h hquiet)
  rcases hsettles.place_eq h.numbered id tag with hsame | habsent
  · rw [hsame]
    exact .stays
  · rw [place_of_absent habsent]
    cases found : broker.queues.find? id with
    | none =>
        rw [place_of_absent found]
        exact .stays
    | some queue =>
        rcases houses_perform h hquiet found with hgoes | ⟨held, hheld, -⟩
        · exact .removed found hgoes habsent
        · rw [habsent] at hheld
          cases hheld

theorem fate_put (hnumbered : broker.Numbered)
    (found : broker.queues.find? target = some queue) (hid : next.id = queue.id)
    (hqueues : (broker.perform command).state.queues = broker.queues.put next)
    {act : Act} (hasked : broker.asks target command = some act)
    (hmoves : Queue.Moves act queue next) (id : QueueId) (tag : Tag) :
    Fate broker command id (broker.place id tag)
      ((broker.perform command).state.place id tag) := by
  have hafter : (broker.perform command).state.queues.find? id =
      if id = target then some next else broker.queues.find? id := by
    rw [hqueues]
    exact hnumbered.queues.find?_put found hid id
  by_cases hsame : id = target
  · subst hsame
    rw [if_pos rfl] at hafter
    rw [place_of_found found, place_of_found hafter]
    exact .moves hasked hafter (hmoves.passages tag)
  · rw [if_neg hsame] at hafter
    have hplace : (broker.perform command).state.place id tag =
        broker.place id tag := by
      unfold place
      rw [hafter]
    rw [hplace]
    exact .stays

theorem fate_unchanged (hstate : (broker.perform command).state = broker)
    (id : QueueId) (tag : Tag) :
    Fate broker command id (broker.place id tag)
      ((broker.perform command).state.place id tag) := by
  rw [hstate]
  exact .stays

theorem fate_pop (h : Stocked stamps broker) (hnumbered : broker.Numbered)
    (target : QueueId) (holdTime : UInt32) (id : QueueId) (tag : Tag) :
    Fate broker (.pop target holdTime) id (broker.place id tag)
      ((broker.perform (.pop target holdTime)).state.place id tag) := by
  have hstate : (broker.perform (.pop target holdTime)).state =
      (broker.pop target holdTime).state := rfl
  unfold pop at hstate
  cases found : broker.queues.find? target with
  | none =>
      rw [found] at hstate
      exact fate_unchanged hstate id tag
  | some queue =>
      rw [found] at hstate
      obtain ⟨row, hkeeps⟩ := h.keeps target queue found
      have hasked : broker.asks target (.pop target holdTime) =
          some (.pop holdTime broker.now
            (queue.pop holdTime broker.now).1) := by
        rw [← handedOut?_found found]
        exact if_pos rfl
      exact fate_put hnumbered found
        (queue.refilled_pop holdTime broker.now).id_eq
        (congrArg Broker.queues hstate) hasked
        (hkeeps.moves_pop holdTime broker.now) id tag

theorem fate_confirm (h : Stocked stamps broker) (hnumbered : broker.Numbered)
    (target : QueueId) (confirmed : Tag) (id : QueueId) (tag : Tag) :
    Fate broker (.confirm target confirmed) id (broker.place id tag)
      ((broker.perform (.confirm target confirmed)).state.place id tag) := by
  have hstate : (broker.perform (.confirm target confirmed)).state =
      (broker.confirm target confirmed).state := rfl
  unfold confirm at hstate
  cases found : broker.queues.find? target with
  | none =>
      rw [found] at hstate
      exact fate_unchanged hstate id tag
  | some queue =>
      simp only [found] at hstate
      cases hconfirm : queue.confirm confirmed with
      | error failure =>
          rw [hconfirm] at hstate
          exact fate_unchanged hstate id tag
      | ok next =>
          rw [hconfirm] at hstate
          obtain ⟨row, hkeeps⟩ := h.keeps target queue found
          have hasked : broker.asks target (.confirm target confirmed) =
              some (.confirm confirmed) := if_pos rfl
          exact fate_put hnumbered found
            (Queue.refilled_confirm hconfirm).id_eq
            (congrArg Broker.queues hstate) hasked
            (hkeeps.moves_confirm hconfirm) id tag

theorem fate_purge (h : Stocked stamps broker) (hnumbered : broker.Numbered)
    (target : QueueId) (id : QueueId) (tag : Tag) :
    Fate broker (.purge target) id (broker.place id tag)
      ((broker.perform (.purge target)).state.place id tag) := by
  have hstate : (broker.perform (.purge target)).state =
      (broker.purge target).state := rfl
  unfold purge at hstate
  cases found : broker.queues.find? target with
  | none =>
      rw [found] at hstate
      exact fate_unchanged hstate id tag
  | some queue =>
      rw [found] at hstate
      obtain ⟨row, hkeeps⟩ := h.keeps target queue found
      have hasked : broker.asks target (.purge target) = some .purge :=
        if_pos rfl
      exact fate_put hnumbered found
        (Queue.rebuffered_purge queue).refilled.id_eq
        (congrArg Broker.queues hstate) hasked hkeeps.moves_purge id tag

theorem fate_tick (h : Stocked stamps broker) (now : Timestamp) (id : QueueId)
    (tag : Tag) :
    Fate broker (.tick now) id (broker.place id tag)
      ((broker.perform (.tick now)).state.place id tag) := by
  have hafter : (broker.perform (.tick now)).state.queues.find? id =
      (broker.queues.find? id).map fun queue => (queue.sweep now).1 :=
    Registry.find?_mapEntities _ _ _
  cases found : broker.queues.find? id with
  | none =>
      rw [found] at hafter
      rw [place_of_absent found, place_of_absent hafter]
      exact .stays
  | some queue =>
      obtain ⟨row, hkeeps⟩ := h.keeps id queue found
      rw [found] at hafter
      rw [place_of_found found, place_of_found hafter]
      exact .moves rfl hafter ((hkeeps.moves_sweep now).passages tag)

structure Pushes (broker after : Broker) : Prop where
  absent : ∀ id, broker.queues.find? id = none → after.queues.find? id = none
  pushed : ∀ id queue, broker.queues.find? id = some queue →
    ∃ final, after.queues.find? id = some final ∧ Queue.Pushed queue final

theorem Pushes.refl (broker : Broker) : Pushes broker broker where
  absent _ habsent := habsent
  pushed _ queue found := ⟨queue, found, .refl queue⟩

theorem Pushes.trans {middle : Broker} (hfirst : Pushes broker middle)
    (hsecond : Pushes middle after)
    (hstays : ∀ id tag, broker.place id tag ≠ .gone →
      middle.place id tag = .gone → after.place id tag = .gone) :
    Pushes broker after where
  absent id habsent := hsecond.absent id (hfirst.absent id habsent)
  pushed id queue found := by
    obtain ⟨next, hnext, hpushed⟩ := hfirst.pushed id queue found
    obtain ⟨final, hfinal, hagain⟩ := hsecond.pushed id next hnext
    refine ⟨final, hfinal, hpushed.trans hagain fun tag hthere hgone => ?_⟩
    rw [← place_of_found found] at hthere
    rw [← place_of_found hnext] at hgone
    rw [← place_of_found hfinal]
    exact hstays id tag hthere hgone

theorem find?_push (hnumbered : broker.Numbered)
    (found : broker.queues.find? target = some queue) (payload : Payload)
    (timeToLive : UInt32) (id : QueueId) :
    (broker.push target payload timeToLive).state.queues.find? id =
      if id = target then
        some (queue.push broker.clock payload timeToLive).state.1
      else broker.queues.find? id := by
  unfold push
  rw [found]
  exact hnumbered.queues.find?_put found
    (Queue.sameMembers_push queue broker.clock payload timeToLive).id id

theorem pushes_push (h : Stocked stamps broker) (hnumbered : broker.Numbered)
    (payload : Payload) (timeToLive : UInt32)
    (hbound : stamps + broker.pushStamps target payload timeToLive ≤
      UInt32.size) :
    Pushes broker (broker.push target payload timeToLive).state := by
  cases found : broker.queues.find? target with
  | none =>
      unfold push
      rw [found]
      exact .refl broker
  | some queue =>
      obtain ⟨row, hkeeps⟩ := h.keeps target queue found
      have hfresh : (queue.push broker.clock payload timeToLive).result =
          .ok () → queue.place broker.clock.nextTag = .gone := by
        intro hok
        have hone : broker.pushStamps target payload timeToLive = 1 := by
          unfold pushStamps push
          simp only [found, Outcome.lift, hok]
        rw [← place_of_found found]
        exact h.place_nextTag (by omega) target
      have hfind := find?_push hnumbered found payload timeToLive
      constructor
      · intro id habsent
        rw [hfind, if_neg]
        · exact habsent
        · rintro rfl
          rw [found] at habsent
          cases habsent
      · intro id entry hentry
        rw [hfind]
        split
        · rename_i hsame
          rw [hsame, found] at hentry
          cases hentry
          exact ⟨_, rfl, hkeeps.pushed hfresh⟩
        · exact ⟨entry, hentry, .refl entry⟩

theorem pushes_fanout (fanout : Fanout) (h : Stocked stamps fanout.broker)
    (hnumbered : fanout.broker.Numbered) (payload : Payload)
    (timeToLive : UInt32) (targets : List QueueId)
    (hbound : stamps + Fanout.stamps payload timeToLive fanout targets ≤
      UInt32.size) :
    Pushes fanout.broker
      (targets.foldl (Fanout.next payload timeToLive) fanout).broker := by
  induction targets generalizing fanout stamps with
  | nil => exact .refl _
  | cons target rest ih =>
      have hedits := edits_push hnumbered target payload timeToLive
      unfold Fanout.stamps at hbound
      rw [← Nat.add_assoc] at hbound
      have hearlier := Nat.le_trans (Nat.le_add_right _ _) hbound
      have hnext : Stocked _ (fanout.next payload timeToLive target).broker :=
        h.edits hnumbered hedits hearlier
      have hnumberedNext := hnumbered.edits hedits
      refine (pushes_push h hnumbered payload timeToLive hearlier).trans
        (ih (fanout.next payload timeToLive target) hnext hnumberedNext hbound)
        fun id tag hthere hgone => ?_
      have hstamped := h.stamped_later hnumbered hedits hearlier
        (h.stamped id tag hthere)
      exact hnext.stays_gone hnumberedNext
        (edits_fanout _ hnumberedNext payload timeToLive rest) hbound hstamped
        hgone

theorem fate_pushes (h : Stocked stamps broker) (hconsistent : broker.Consistent)
    (hbound : stamps + broker.stamps command ≤ UInt32.size)
    (hpushes : Pushes broker (broker.perform command).state)
    (hasked : broker.asks id command = some .push) (tag : Tag) :
    Fate broker command id (broker.place id tag)
      ((broker.perform command).state.place id tag) := by
  have hnumbered := hconsistent.numbered
  have hedits := edits_perform hconsistent command
  cases found : broker.queues.find? id with
  | none =>
      rw [place_of_absent found, place_of_absent (hpushes.absent id found)]
      exact .stays
  | some queue =>
      obtain ⟨final, hfinal, hpushed⟩ := hpushes.pushed id queue found
      rcases hpushed.places tag with hmoved | ⟨hgone, message, hplace⟩
      · rw [place_of_found found, place_of_found hfinal]
        exact .moves hasked hfinal hmoved
      · obtain ⟨row, hkeeps⟩ :=
          (h.edits hnumbered hedits hbound).keeps id final hfinal
        obtain ⟨hmem, rfl⟩ := hkeeps.place_eq_buffered_iff.mp hplace
        have hfree := hkeeps.coherent.free message hmem
        rw [← place_of_found found] at hgone
        rw [← place_of_found hfinal] at hplace
        rw [hgone, hplace]
        -- Had the tag been stamped before, the message would have come back.
        refine .enters hasked (fun hstamped => ?_) hfree
        rw [h.stays_gone hnumbered hedits hbound hstamped hgone] at hplace
        cases hplace

theorem fate_push (h : Stocked stamps broker) (hconsistent : broker.Consistent)
    (target : QueueId) (payload : Payload) (timeToLive : UInt32)
    (hbound : stamps + broker.stamps (.push target payload timeToLive) ≤
      UInt32.size) (id : QueueId) (tag : Tag) :
    Fate broker (.push target payload timeToLive) id (broker.place id tag)
      ((broker.perform (.push target payload timeToLive)).state.place id
        tag) := by
  have hpushes := pushes_push h hconsistent.numbered payload timeToLive hbound
  by_cases hsame : target = id
  · exact fate_pushes h hconsistent hbound hpushes (if_pos hsame) tag
  · have hplace : (broker.push target payload timeToLive).state.place id tag =
        broker.place id tag := by
      cases found : broker.queues.find? target with
      | none =>
          unfold push
          rw [found]
          rfl
      | some queue =>
          unfold place
          rw [find?_push hconsistent.numbered found, if_neg (Ne.symm hsame)]
    rw [show (broker.perform (.push target payload timeToLive)).state.place id
      tag = broker.place id tag from hplace]
    exact .stays

theorem fate_publishRoute (h : Stocked stamps broker)
    (hconsistent : broker.Consistent) (route : RouteId) (key : String)
    (payload : Payload) (timeToLive : UInt32)
    (hbound : stamps + broker.stamps (.publishRoute route key payload
      timeToLive) ≤ UInt32.size) (id : QueueId) (tag : Tag) :
    Fate broker (.publishRoute route key payload timeToLive) id
      (broker.place id tag)
      ((broker.perform (.publishRoute route key payload
        timeToLive)).state.place id tag) := by
  refine fate_pushes h hconsistent hbound ?_ rfl tag
  show Pushes broker (broker.publishRoute route key payload timeToLive).state
  unfold Broker.stamps at hbound
  unfold publishRoute
  cases found : broker.routes.find? route with
  | none => exact .refl broker
  | some entry =>
      simp only [found] at hbound ⊢
      cases htargets : entry.targets key with
      | error failure => exact .refl broker
      | ok chosen =>
          obtain ⟨targets, next⟩ := chosen
          simp only [htargets] at hbound ⊢
          have hput := (gains_putTargets hconsistent.numbered found
            htargets).arrangements.edits
          have hstocked : Stocked stamps (broker.putRoute next) :=
            h.edits hconsistent.numbered hput (by omega)
          have hpushes := pushes_fanout ⟨broker.putRoute next, 0, []⟩ hstocked
            (hconsistent.numbered.edits hput) payload timeToLive targets hbound
          exact ⟨hpushes.absent, hpushes.pushed⟩

theorem fate_perform (h : Stocked stamps broker)
    (hconsistent : broker.Consistent) (command : Command)
    (hbound : stamps + broker.stamps command ≤ UInt32.size) (id : QueueId)
    (tag : Tag) :
    Fate broker command id (broker.place id tag)
      ((broker.perform command).state.place id tag) := by
  have hnumbered := hconsistent.numbered
  cases command with
  | push target payload timeToLive =>
      exact fate_push h hconsistent target payload timeToLive hbound id tag
  | pop target holdTime => exact fate_pop h hnumbered target holdTime id tag
  | confirm target confirmed =>
      exact fate_confirm h hnumbered target confirmed id tag
  | purge target => exact fate_purge h hnumbered target id tag
  | publishRoute route key payload timeToLive =>
      exact fate_publishRoute h hconsistent route key payload timeToLive hbound
        id tag
  | tick now => exact fate_tick h now id tag
  | _ => exact fate_quiet hconsistent rfl id tag

theorem place_push (h : Stocked stamps broker) (hnumbered : broker.Numbered)
    (found : broker.queues.find? id = some queue)
    (hnobody : queue.messageSubscribers.isEmpty = true) {payload : Payload}
    {timeToLive : UInt32}
    (hbound : stamps + broker.pushStamps id payload timeToLive ≤ UInt32.size)
    (haccepted : (broker.push id payload timeToLive).result = .ok ()) :
    (broker.push id payload timeToLive).state.place id broker.clock.nextTag =
      .buffered (.stamp broker.clock payload timeToLive) := by
  obtain ⟨row, hkeeps⟩ := h.keeps id queue found
  have hone : broker.pushStamps id payload timeToLive = 1 := by
    unfold pushStamps
    rw [haccepted]
  have hfresh := h.place_nextTag (by omega) id
  rw [place_of_found found] at hfresh
  have hnext := find?_push hnumbered found payload timeToLive id
  rw [if_pos rfl] at hnext
  rw [place_of_found hnext]
  unfold push at haccepted
  simp only [found, Outcome.lift] at haccepted
  rcases queue.push_cases broker.clock payload timeToLive with
    ⟨-, hpush⟩ | ⟨-, hsomebody, -⟩ | ⟨-, -, -, hpush⟩ | ⟨-, -, -, hpush⟩
  · rw [hpush] at haccepted
    cases haccepted
  · rw [hnobody] at hsomebody
    cases hsomebody
  · rw [hpush]
    obtain ⟨-, hplace⟩ := hkeeps.accept
      (show (Message.stamp broker.clock payload timeToLive).heldUntil = none
        from rfl) hfresh
    exact (hplace _).trans (if_pos rfl)
  · rw [hpush] at haccepted
    cases haccepted

theorem confirm_eq_ok_iff (h : Stocked stamps broker) (id : QueueId)
    (tag : Tag) :
    (broker.perform (.confirm id tag)).result = .ok .done ↔
      ∃ message, broker.place id tag = .awaiting message := by
  simp only [perform, Result.reply, Outcome.lift, confirm]
  cases found : broker.queues.find? id with
  | none => simp [place_of_absent found, Outcome.refused]
  | some queue =>
      obtain ⟨row, hkeeps⟩ := h.keeps id queue found
      simp only [place_of_found found, hkeeps.place_eq_awaiting_iff,
        Queue.confirm]
      cases queue.held.get? tag with
      | none => simp [Outcome.refused]
      | some message => simp [Outcome.done]

theorem place_confirm (h : Stocked stamps broker) (hnumbered : broker.Numbered)
    (hconfirm : (broker.perform (.confirm id tag)).result = .ok .done) :
    (broker.perform (.confirm id tag)).state.place id tag = .gone := by
  simp only [perform, Result.reply, Outcome.lift, confirm] at hconfirm ⊢
  cases found : broker.queues.find? id with
  | none => simp [found, Outcome.refused] at hconfirm
  | some queue =>
      obtain ⟨row, hkeeps⟩ := h.keeps id queue found
      simp only [found] at hconfirm ⊢
      cases hqueue : queue.confirm tag with
      | error failure => simp [hqueue, Outcome.refused] at hconfirm
      | ok next =>
          have hafter := hnumbered.queues.find?_put found
            (Queue.refilled_confirm hqueue).id_eq id
          rw [if_pos rfl] at hafter
          refine (place_of_found hafter tag).trans ?_
          rw [hkeeps.place_confirm hqueue, if_pos rfl]

/-- A pop hands out the oldest message, which is then where the pop says. -/
theorem pop_hands_out (h : Stocked stamps broker) (hnumbered : broker.Numbered)
    (found : broker.queues.find? id = some queue) (holdTime : UInt32) :
    (queue.messages = [] → broker.handedOut? id (.pop id holdTime) = none) ∧
    ∀ message rest, queue.messages = message :: rest →
      broker.handedOut? id (.pop id holdTime) =
        some { message with
          heldUntil := Message.deadline? broker.now holdTime } ∧
      (broker.perform (.pop id holdTime)).state.place id message.tag =
        if holdTime = 0 then .gone
        else .awaiting { message with
          heldUntil := Message.deadline? broker.now holdTime } := by
  obtain ⟨row, hkeeps⟩ := h.keeps id queue found
  rw [handedOut?_found found, hkeeps.buffers.messages_eq]
  constructor
  · intro hnothing
    obtain rfl := List.map_eq_nil_iff.mp hnothing
    rw [hkeeps.pop_nil]
  · intro message rest hmessages
    obtain ⟨⟨handle, first⟩, left, rfl, rfl, -⟩ := List.map_eq_cons_iff.mp hmessages
    obtain ⟨next, hpop, -, hplace⟩ := hkeeps.pop_cons holdTime broker.now
    refine ⟨congrArg Prod.fst hpop, ?_⟩
    have hstate : (broker.perform (.pop id holdTime)).state.queues =
        broker.queues.put next := by
      show (broker.pop id holdTime).state.queues = _
      unfold pop
      rw [found]
      dsimp only
      rw [hpop]
      rfl
    have hid : next.id = queue.id := by
      have hrefilled := (queue.refilled_pop holdTime broker.now).id_eq
      rwa [hpop] at hrefilled
    have hafter := hnumbered.queues.find?_put found hid id
    rw [if_pos rfl, ← hstate] at hafter
    rw [place_of_found hafter, hplace, if_pos rfl]

/-- What was in a queue and is gone from it is gone from the broker. -/
theorem gone_run (h : Stocked stamps broker) (hconsistent : broker.Consistent)
    (earlier later : List Command)
    (hbound : stamps + broker.runStamps (earlier ++ later) ≤ UInt32.size)
    (hthere : broker.place id tag ≠ .gone)
    (hgone : (broker.run earlier).place id tag = .gone) (other : QueueId) :
    (broker.run (earlier ++ later)).place other tag = .gone := by
  have hstamped := h.stamped id tag hthere
  by_cases hsame : other = id
  · -- In its own queue the message is gone after the first commands only.
    subst hsame
    have hedits := edits_run hconsistent earlier
    rw [runStamps_append, ← Nat.add_assoc] at hbound
    have hearlier := Nat.le_trans (Nat.le_add_right _ _) hbound
    have hmiddle := h.edits hconsistent.numbered hedits hearlier
    have hstill := h.stamped_later hconsistent.numbered hedits hearlier hstamped
    have hlater := hconsistent.edits hedits
    rw [run_append]
    exact hmiddle.stays_gone hlater.numbered (edits_run hlater later) hbound
      hstill hgone
  · refine h.stays_gone hconsistent.numbered (edits_run hconsistent _) hbound
      hstamped ?_
    by_contra hother
    exact hsame (h.apart other id tag hother hthere)

theorem elsewhere_run (h : Stocked stamps broker)
    (hconsistent : broker.Consistent) (commands : List Command)
    (hbound : stamps + broker.runStamps commands ≤ UInt32.size)
    (hthere : broker.place id tag ≠ .gone) {other : QueueId}
    (hother : other ≠ id) : (broker.run commands).place other tag = .gone := by
  refine h.stays_gone hconsistent.numbered (edits_run hconsistent _) hbound
    (h.stamped id tag hthere) ?_
  by_contra hboth
  exact hother (h.apart other id tag hboth hthere)

/-- Every message has a tag of its own and one place, it moves as its fate
allows, and once it is gone it never comes back. What a pop takes from the
buffer is the oldest message, and that is what the pop hands out. -/
theorem Reached.messages_accounted (reached : Reached stamps broker)
    (hbound : stamps ≤ UInt32.size) :
    (broker.messages.map Message.tag).Nodup ∧
    (∀ id queue, broker.queues.find? id = some queue → ∀ message,
      (message ∈ queue.messages ↔
        broker.place id message.tag = .buffered message) ∧
      (message ∈ queue.heldMessages ↔
        broker.place id message.tag = .awaiting message)) ∧
    (∀ id queue payload timeToLive, broker.queues.find? id = some queue →
      queue.messageSubscribers.isEmpty = true →
      stamps + broker.stamps (.push id payload timeToLive) ≤ UInt32.size →
      (broker.push id payload timeToLive).result = .ok () →
      (broker.push id payload timeToLive).state.place id broker.clock.nextTag =
        .buffered (.stamp broker.clock payload timeToLive)) ∧
    (∀ command, stamps + broker.stamps command ≤ UInt32.size → ∀ id tag,
      Fate broker command id (broker.place id tag)
        ((broker.perform command).state.place id tag)) ∧
    (∀ commands, stamps + broker.runStamps commands ≤ UInt32.size →
      ∀ id tag, broker.place id tag ≠ .gone → ∀ other, other ≠ id →
      (broker.run commands).place other tag = .gone) ∧
    (∀ earlier later,
      stamps + broker.runStamps (earlier ++ later) ≤ UInt32.size →
      ∀ id tag, broker.place id tag ≠ .gone →
      (broker.run earlier).place id tag = .gone → ∀ other,
      (broker.run (earlier ++ later)).place other tag = .gone) ∧
    (∀ id queue, broker.queues.find? id = some queue → ∀ holdTime,
      (queue.messages = [] → broker.handedOut? id (.pop id holdTime) = none) ∧
      ∀ message rest, queue.messages = message :: rest →
        broker.handedOut? id (.pop id holdTime) =
          some { message with
            heldUntil := Message.deadline? broker.now holdTime } ∧
        (broker.perform (.pop id holdTime)).state.place id message.tag =
          if holdTime = 0 then .gone
          else .awaiting { message with
            heldUntil := Message.deadline? broker.now holdTime }) ∧
    (∀ id tag,
      ((broker.perform (.confirm id tag)).result = .ok .done ↔
        ∃ message, broker.place id tag = .awaiting message) ∧
      ((broker.perform (.confirm id tag)).result = .ok .done →
        (broker.perform (.confirm id tag)).state.place id tag = .gone)) := by
  have h := reached.stocked hbound
  have hconsistent := reached.consistent
  refine ⟨h.nodup_tags, ?places, ?accepted, fate_perform h hconsistent,
    ?elsewhere, ?gone, fun _ _ => pop_hands_out h hconsistent.numbered,
    fun id tag => ⟨confirm_eq_ok_iff h id tag,
      place_confirm h hconsistent.numbered⟩⟩
  case places =>
    intro id queue found message
    obtain ⟨row, hkeeps⟩ := h.keeps id queue found
    rw [place_of_found found, hkeeps.place_eq_buffered_iff,
      hkeeps.place_eq_awaiting_iff, hkeeps.mem_heldMessages]
    exact ⟨(and_iff_left rfl).symm, Iff.rfl⟩
  case accepted =>
    intro id queue payload timeToLive found hnobody hmore haccepted
    exact place_push h hconsistent.numbered found hnobody hmore haccepted
  case elsewhere =>
    intro commands hmore id tag hthere other hother
    exact elsewhere_run h hconsistent commands hmore hthere hother
  case gone =>
    intro earlier later hmore id tag hthere hgone other
    exact gone_run h hconsistent earlier later hmore hthere hgone other

theorem Reached.messages_accounted_held :
    (let broker := (idle .default ⟨0⟩).run [
      .createQueue "jobs" ⟨10, 64, ⟨true, false, false, false⟩⟩,
      .push ⟨1⟩ ⟨[1], 1⟩ 100, .push ⟨1⟩ ⟨[2], 2⟩ 0, .pop ⟨1⟩ 5]
    broker.place ⟨1⟩ ⟨0⟩ = .awaiting ⟨⟨[1], 1⟩, ⟨0⟩, some ⟨100⟩, some ⟨5⟩⟩ ∧
      (broker.run [.tick ⟨7⟩]).place ⟨1⟩ ⟨0⟩ =
        .buffered ⟨⟨[1], 1⟩, ⟨0⟩, some ⟨100⟩, none⟩ ∧
      (broker.perform (.confirm ⟨1⟩ ⟨0⟩)).result = .ok .done) := by
  have hidle : Reached 0 (idle .default ⟨0⟩) :=
    .start (start_of_sound (by decide))
  intro broker
  have reached : Reached _ broker := hidle.run _
  refine ⟨rfl, rfl, ?_⟩
  obtain ⟨-, -, -, -, -, -, -, hconfirm⟩ :=
    reached.messages_accounted (by decide)
  exact (hconfirm ⟨1⟩ ⟨0⟩).1.mpr ⟨_, rfl⟩

end Broker

end MessageBroker
