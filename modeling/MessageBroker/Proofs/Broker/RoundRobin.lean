import MessageBroker.Proofs.Broker.Serving

/-! Members of a round-robin set are served in turn. While nobody joins or
leaves, as many turns as there are members serve each of them once and leave
the set in the order that it had. -/

namespace MessageBroker.Broker

variable {broker : Broker} {stamps : Nat}

theorem served_of_quiet {command : Command}
    (hquiet : isPublishing command = false) (wheel : Wheel) :
    broker.served command wheel = [] := by
  cases wheel with
  | subscribers id =>
      cases found : broker.queues.find? id with
      | none => simp only [served, found]
      | some queue =>
          rw [served_subscribers found]
          exact Signal.messagesOf_eq_nil fun client _ _ =>
            not_deliver_mem_signals hquiet client _
  | bindings id key =>
      cases command with
      | publishRoute => cases hquiet
      | _ => rfl
  | listeners id topic =>
      cases found : broker.channels.find? id with
      | none => simp only [served, found]
      | some channel =>
          rw [served_listeners found]
          exact Signal.copiesOf_eq_nil fun client _ =>
            not_deliver_mem_signals hquiet client _

theorem turns_of_quiet {command : Command}
    (hquiet : isPublishing command = false) (wheel : Wheel) :
    broker.turns command wheel = false := by
  cases command with
  | push | publishRoute | publishChannel => cases hquiet
  | _ => cases wheel <;> rfl

/-- While nobody joins or leaves, a command serves nobody and leaves the
members in their order, or it takes a turn. -/
theorem Reached.serves (reached : Reached stamps broker) {command : Command}
    {wheel : Wheel} {members next : List wheel.Member}
    (hmembers : broker.roster? wheel = some members)
    (hnext : (broker.perform command).state.roster? wheel = some next)
    (hsame : ∀ member, member ∈ next ↔ member ∈ members) :
    broker.Serves command wheel members := by
  by_cases hpublishing : isPublishing command = true
  · cases command with
    | push id payload timeToLive =>
        exact reached.serves_push id payload timeToLive hmembers
    | publishRoute id key payload timeToLive =>
        exact reached.serves_publishRoute id key payload timeToLive hmembers
    | publishChannel id topic payload =>
        exact reached.serves_publishChannel id topic payload hmembers
    | _ => cases hpublishing
  · have hquiet := Bool.eq_false_iff.mpr hpublishing
    have hkept := (nests_perform reached.consistent hquiet wheel).eq hmembers
      hnext (nodup_roster hmembers) (nodup_roster hnext) hsame
    refine ⟨?_, ?_⟩
    · rw [served_of_quiet hquiet, turns_of_quiet hquiet]
      rfl
    · rw [turns_of_quiet hquiet, hnext, hkept]
      rfl

def turnCount (broker : Broker) (wheel : Wheel) : List Command → Nat
  | [] => 0
  | command :: rest =>
      (broker.turns command wheel).toNat +
        (broker.perform command).state.turnCount wheel rest

def servedIn (broker : Broker) (wheel : Wheel) :
    List Command → List wheel.Member
  | [] => []
  | command :: rest =>
      broker.served command wheel ++
        (broker.perform command).state.servedIn wheel rest

/-- All through the run the set is there and has these members, in whatever
order. -/
def Steady (broker : Broker) (wheel : Wheel) (members : List wheel.Member)
    (commands : List Command) : Prop :=
  ∀ earlier, earlier <+: commands → ∃ now,
    (broker.run earlier).roster? wheel = some now ∧
    ∀ member, member ∈ now ↔ member ∈ members

instance : (wheel : Wheel) → DecidableEq wheel.Member
  | .subscribers _ => inferInstanceAs (DecidableEq ClientId)
  | .bindings _ _ => inferInstanceAs (DecidableEq QueueId)
  | .listeners _ _ => inferInstanceAs (DecidableEq ClientId)

theorem steady_iff {wheel : Wheel} {members : List wheel.Member}
    {commands : List Command} (hnodup : members.Nodup) :
    broker.Steady wheel members commands ↔
      ∀ earlier ∈ commands.inits,
        ((broker.run earlier).roster? wheel).any fun now =>
          now.isPerm members := by
  simp only [List.mem_inits, Option.any_eq_true, List.isPerm_iff]
  refine forall₂_congr fun earlier _ => exists_congr fun now => ?_
  refine and_congr_right fun hnow => ?_
  exact (List.perm_ext_iff_of_nodup (nodup_roster hnow) hnodup).symm

theorem Steady.next {wheel : Wheel} {members : List wheel.Member}
    {command : Command} {rest : List Command}
    (h : broker.Steady wheel members (command :: rest)) :
    (broker.perform command).state.Steady wheel members rest := by
  intro earlier hearlier
  exact h (command :: earlier) (List.cons_prefix_cons.mpr ⟨rfl, hearlier⟩)

theorem reverse_rotateItems (members : List α) :
    (MemberSet.rotateItems members).reverse = members.reverse.rotate 1 := by
  cases members using List.reverseRecOn with
  | nil => rfl
  | append_singleton front last => simp [MemberSet.rotateItems]

theorem length_rotateItems (members : List α) :
    (MemberSet.rotateItems members).length = members.length :=
  (MemberSet.rotateItems_perm members).length_eq

theorem getLast_append_take_rotateItems {members : List α} {more : Nat}
    (hmore : more + 1 ≤ members.length) :
    members.getLast?.toList ++
        (MemberSet.rotateItems members).reverse.take more =
      members.reverse.take (more + 1) := by
  cases members using List.reverseRecOn with
  | nil => cases hmore
  | append_singleton front last =>
      have hfront : more ≤ front.reverse.length := by
        simpa using hmore
      rw [reverse_rotateItems, List.reverse_concat', List.rotate_cons_succ,
        List.rotate_zero, List.take_append_of_le_length hfront]
      simp

/-- So many turns serve as many members, from the last one on, as long as none
would be served again. -/
theorem Reached.served_run (reached : Reached stamps broker) {wheel : Wheel}
    {members now : List wheel.Member} {commands : List Command}
    (hnow : broker.roster? wheel = some now)
    (hsteady : broker.Steady wheel members commands)
    (hturns : broker.turnCount wheel commands ≤ now.length) :
    broker.servedIn wheel commands =
        now.reverse.take (broker.turnCount wheel commands) ∧
      (broker.run commands).roster? wheel =
        some (now.reverse.rotate (broker.turnCount wheel commands)).reverse := by
  induction commands generalizing broker stamps now with
  | nil =>
      refine ⟨rfl, hnow.trans ?_⟩
      simp [turnCount]
  | cons command rest ih =>
      obtain ⟨before, hbefore, hmembers⟩ := hsteady [] List.nil_prefix
      obtain ⟨next, hnext, hnextmembers⟩ := hsteady.next [] List.nil_prefix
      cases hnow.symm.trans hbefore
      have hserves := reached.serves hnow hnext fun member =>
        (hnextmembers member).trans (hmembers member).symm
      have hrest := ih (reached.perform command) hserves.roster hsteady.next
      rw [turnCount] at hturns
      rw [servedIn, turnCount, hserves.served]
      show _ ∧ ((broker.perform command).state.run rest).roster? wheel = _
      cases hturn : broker.turns command wheel with
      | false =>
          rw [hturn, Bool.toNat_false, Nat.zero_add] at hturns
          rw [hturn, if_neg Bool.false_ne_true] at hrest
          rw [if_neg Bool.false_ne_true, Bool.toNat_false, Nat.zero_add]
          exact hrest hturns
      | true =>
          rw [hturn, Bool.toNat_true, Nat.add_comm] at hturns
          rw [hturn, if_pos rfl, length_rotateItems] at hrest
          rw [Bool.toNat_true, Nat.add_comm]
          obtain ⟨hserved, hroster⟩ := hrest (by omega)
          constructor
          · rw [if_pos rfl, hserved]
            exact getLast_append_take_rotateItems hturns
          · rw [hroster, reverse_rotateItems, List.rotate_rotate,
              Nat.add_comm]

/-- As many turns as there are members serve each of them once. Other commands
may come in between, and the set is then in its order again. -/
theorem Reached.serves_each_once (reached : Reached stamps broker)
    {wheel : Wheel} {members : List wheel.Member} {commands : List Command}
    (hmembers : broker.roster? wheel = some members)
    (hsteady : broker.Steady wheel members commands)
    (hturns : broker.turnCount wheel commands = members.length) :
    (broker.servedIn wheel commands).Nodup ∧
      (broker.servedIn wheel commands).Perm members ∧
      broker.servedIn wheel commands = members.reverse ∧
      (broker.run commands).roster? wheel = some members := by
  obtain ⟨hserved, hroster⟩ :=
    reached.served_run hmembers hsteady (Nat.le_of_eq hturns)
  have hlength := members.length_reverse
  rw [hturns, ← hlength, List.take_length] at hserved
  rw [hturns, ← hlength, List.rotate_length, List.reverse_reverse] at hroster
  rw [hserved]
  exact ⟨List.nodup_reverse.mpr (nodup_roster hmembers),
    members.reverse_perm, rfl, hroster⟩

/-- Two subscribers of a queue and two of a topic, and two queues under a key.
One publish under the key is refused by the queue whose turn it is, and the
other is a turn of that queue too. -/
theorem Reached.serves_each_once_interleaved :
    let broker := (idle .default ⟨0⟩).run [
      .connect ⟨7⟩, .connect ⟨8⟩,
      .createQueue "jobs" ⟨10, 64, ⟨false, false, true, false⟩⟩,
      .createQueue "mail" ⟨10, 1, ⟨false, false, false, false⟩⟩,
      .createRoute "work" ⟨false, true, false⟩,
      .createChannel "news" ⟨false, true⟩,
      .subscribeQueue ⟨7⟩ ⟨1⟩ false, .subscribeQueue ⟨8⟩ ⟨1⟩ false,
      .bind ⟨3⟩ ⟨1⟩ "urgent", .bind ⟨3⟩ ⟨2⟩ "urgent",
      .subscribeTopic ⟨7⟩ ⟨4⟩ "sport", .subscribeTopic ⟨8⟩ ⟨4⟩ "sport"]
    let commands : List Command := [
      .publishChannel ⟨4⟩ "sport" ⟨[1], 1⟩,
      .publishRoute ⟨3⟩ "urgent" ⟨[2, 2], 2⟩ 0,
      .push ⟨1⟩ ⟨[3], 3⟩ 0,
      .tick ⟨9⟩,
      .publishRoute ⟨3⟩ "urgent" ⟨[4], 4⟩ 0,
      .publishChannel ⟨4⟩ "sport" ⟨[5], 5⟩]
    (broker.publishRoute ⟨3⟩ "urgent" ⟨[2, 2], 2⟩ 0).result.isOk = false ∧
    ((broker.servedIn (.subscribers ⟨1⟩) commands).Nodup ∧
      (broker.servedIn (.subscribers ⟨1⟩) commands).Perm [⟨7⟩, ⟨8⟩] ∧
      broker.servedIn (.subscribers ⟨1⟩) commands = [⟨8⟩, ⟨7⟩] ∧
      (broker.run commands).roster? (.subscribers ⟨1⟩) =
        some [⟨7⟩, ⟨8⟩]) ∧
    ((broker.servedIn (.bindings ⟨3⟩ "urgent") commands).Nodup ∧
      (broker.servedIn (.bindings ⟨3⟩ "urgent") commands).Perm [⟨1⟩, ⟨2⟩] ∧
      broker.servedIn (.bindings ⟨3⟩ "urgent") commands = [⟨2⟩, ⟨1⟩] ∧
      (broker.run commands).roster? (.bindings ⟨3⟩ "urgent") =
        some [⟨1⟩, ⟨2⟩]) ∧
    ((broker.servedIn (.listeners ⟨4⟩ "sport") commands).Nodup ∧
      (broker.servedIn (.listeners ⟨4⟩ "sport") commands).Perm [⟨7⟩, ⟨8⟩] ∧
      broker.servedIn (.listeners ⟨4⟩ "sport") commands = [⟨8⟩, ⟨7⟩] ∧
      (broker.run commands).roster? (.listeners ⟨4⟩ "sport") =
        some [⟨7⟩, ⟨8⟩]) := by
  have hidle : Reached 0 (idle .default ⟨0⟩) :=
    .start (start_of_sound (by decide))
  intro broker commands
  have reached : Reached _ broker := hidle.run _
  refine ⟨rfl, ?subscribers, ?bindings, ?listeners⟩
  case subscribers =>
    exact reached.serves_each_once (by decide +kernel)
      ((steady_iff (by decide)).mpr (by decide +kernel)) (by decide +kernel)
  case bindings =>
    exact reached.serves_each_once (by decide +kernel)
      ((steady_iff (by decide)).mpr (by decide +kernel)) (by decide +kernel)
  case listeners =>
    exact reached.serves_each_once (by decide +kernel)
      ((steady_iff (by decide)).mpr (by decide +kernel)) (by decide +kernel)

end MessageBroker.Broker
