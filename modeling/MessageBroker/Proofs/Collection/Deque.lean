import MessageBroker.Proofs.Collection.Sequence

/-! A sequence is a deque of handles and values. Its links never lead to a slot
that is not in use, and any store of links will do that puts what enters into a
vacant slot: each is that of some policy. -/

namespace MessageBroker.Sequence

variable {α : Type u}

/-- What is done to a sequence. Which slot a value gets is up to the store. -/
inductive Step (α : Type u) where
  | pushNewest (slot : Handle) (value : α)
  | pushOldest (slot : Handle) (value : α)
  | popOldest
  | remove (handle : Handle)
  | clear
  deriving DecidableEq

inductive Reply (α : Type u) where
  | entered (handle : Handle)
  | popped (entry : Option (Handle × α))
  | removed (value : Option α)
  | cleared (count : Nat)
  deriving DecidableEq

/-! The operations, where it is an error to look into a slot that is not in
use. -/

namespace Checked

def link (links : Arena (Link α)) (handle : Handle) :
    Except Handle (Link α) :=
  match links.get? handle with
  | some link => .ok link
  | none => .error handle

def relink (links : Arena (Link α)) (neighbour : Option Handle)
    (change : Link α → Link α) : Except Handle (Arena (Link α)) :=
  match neighbour with
  | some handle => (link links handle).map fun _ => links.modify handle change
  | none => .ok links

def oldest? (sequence : Sequence α) : Except Handle (Option (Handle × α)) :=
  match sequence.oldest with
  | some handle =>
      (link sequence.links handle).map fun link => some (handle, link.value)
  | none => .ok none

def pushNewest (sequence : Sequence α) (slot : Handle) (value : α) :
    Except Handle (Sequence α) :=
  (relink (sequence.links.fill slot ⟨value, none, sequence.newest⟩)
      sequence.newest fun link => { link with newer := some slot }).map
    fun links => {
      links := links
      newest := some slot
      oldest := if sequence.newest.isSome then sequence.oldest else some slot
    }

def pushOldest (sequence : Sequence α) (slot : Handle) (value : α) :
    Except Handle (Sequence α) :=
  (relink (sequence.links.fill slot ⟨value, sequence.oldest, none⟩)
      sequence.oldest fun link => { link with older := some slot }).map
    fun links => {
      links := links
      newest := if sequence.oldest.isSome then sequence.newest else some slot
      oldest := some slot
    }

def remove (sequence : Sequence α) (handle : Handle) :
    Except Handle (Option α × Sequence α) :=
  match sequence.links.get? handle with
  | none => .ok (none, sequence)
  | some link =>
      (relink (sequence.links.erase handle) link.newer fun neighbour =>
          { neighbour with older := link.older }).bind fun links =>
        (relink links link.older fun neighbour =>
            { neighbour with newer := link.newer }).map fun links =>
          (some link.value, {
            links := links
            newest := if link.newer.isSome then sequence.newest else link.older
            oldest := if link.older.isSome then sequence.oldest else link.newer
          })

def popOldest (sequence : Sequence α) :
    Except Handle (Option (Handle × α) × Sequence α) :=
  match sequence.oldest with
  | none => .ok (none, sequence)
  | some handle =>
      (remove sequence handle).map fun (value, rest) =>
        (value.map fun value => (handle, value), rest)

end Checked

def perform (sequence : Sequence α) :
    Step α → Except Handle (Reply α × Sequence α)
  | .pushNewest slot value =>
      (Checked.pushNewest sequence slot value).map fun next =>
        (.entered slot, next)
  | .pushOldest slot value =>
      (Checked.pushOldest sequence slot value).map fun next =>
        (.entered slot, next)
  | .popOldest =>
      (Checked.popOldest sequence).map fun (entry, rest) => (.popped entry, rest)
  | .remove handle =>
      (Checked.remove sequence handle).map fun (value, rest) =>
        (.removed value, rest)
  | .clear => .ok (.cleared sequence.clear.2, sequence.clear.1)

def run : Sequence α → List (Step α) → Except Handle (List (Reply α) × Sequence α)
  | sequence, [] => .ok ([], sequence)
  | sequence, step :: rest =>
      (sequence.perform step).bind fun (reply, next) =>
        (next.run rest).map fun (replies, last) => (reply :: replies, last)

/-- What enters gets a vacant slot. -/
def Step.fits (sequence : Sequence α) : Step α → Bool
  | pushNewest slot _ => (sequence.links.get? slot).isNone
  | pushOldest slot _ => (sequence.links.get? slot).isNone
  | popOldest => true
  | remove _ => true
  | clear => true

def fits : Sequence α → List (Step α) → Bool
  | _, [] => true
  | sequence, step :: rest =>
      step.fits sequence &&
        match sequence.perform step with
        | .ok (_, next) => next.fits rest
        | .error _ => true

/-! The same for a row of handles and values, the oldest first. -/

def Step.onRow : Step α → List (Handle × α) → Reply α × List (Handle × α)
  | pushNewest slot value, row => (.entered slot, row ++ [(slot, value)])
  | pushOldest slot value, row => (.entered slot, (slot, value) :: row)
  | popOldest, row => (.popped row.head?, row.tail)
  | remove handle, row =>
      (.removed ((row.find? fun entry => entry.1 = handle).map Prod.snd),
        row.eraseP fun entry => entry.1 = handle)
  | clear, row => (.cleared row.length, [])

def runRow : List (Handle × α) → List (Step α) →
    List (Reply α) × List (Handle × α)
  | row, [] => ([], row)
  | row, step :: rest =>
      let (reply, next) := step.onRow row
      let (replies, last) := runRow next rest
      (reply :: replies, last)

/-- A sequence and the row that it stands for. -/
structure Shows (sequence : Sequence α) (row : List (Handle × α)) : Prop where
  distinct : (row.map Prod.fst).Nodup
  yields : Yields sequence.links sequence.oldest row
  toList : sequence.toList = row.map Prod.snd
  size : sequence.size = row.length
  oldest? : Checked.oldest? sequence = .ok row.head?
  live_iff : ∀ handle,
    (sequence.links.get? handle).isSome = true ↔ handle ∈ row.map Prod.fst

/-- The operations that do not ask whether a slot is in use do the same, and what
enters gets a vacant slot. -/
structure Agrees (sequence : Sequence α) : Prop where
  vacant : sequence.links.get? sequence.freshHandle = none
  oldest? : Checked.oldest? sequence = .ok sequence.oldest?
  pushNewest : ∀ value,
    Checked.pushNewest sequence sequence.freshHandle value =
      .ok (sequence.pushNewest value)
  pushOldest : ∀ value,
    Checked.pushOldest sequence sequence.freshHandle value =
      .ok (sequence.pushOldest value)
  remove : ∀ handle, Checked.remove sequence handle =
    .ok (match sequence.remove? handle with
      | none => (none, sequence)
      | some (value, rest) => (some value, rest))
  popOldest : Checked.popOldest sequence =
    .ok (match sequence.popOldest? with
      | none => (none, sequence)
      | some (handle, value, rest) => (some (handle, value), rest))

def relinked (links : Arena (Link α)) (neighbour : Option Handle)
    (change : Link α → Link α) : Arena (Link α) :=
  match neighbour with
  | some handle => links.modify handle change
  | none => links

theorem relink_eq_ok {links : Arena (Link α)} {neighbour : Option Handle}
    (hlive : ∀ handle, neighbour = some handle → links.get? handle ≠ none)
    (change : Link α → Link α) :
    Checked.relink links neighbour change =
      .ok (relinked links neighbour change) := by
  cases neighbour with
  | none => rfl
  | some handle =>
      obtain ⟨link, hlink⟩ := Option.ne_none_iff_exists'.mp (hlive handle rfl)
      simp only [Checked.relink, Checked.link, hlink]
      rfl

theorem get?_relinked_ne_none {links : Arena (Link α)} {handle : Handle}
    (hlive : links.get? handle ≠ none) (neighbour : Option Handle)
    (change : Link α → Link α) :
    (relinked links neighbour change).get? handle ≠ none := by
  cases neighbour with
  | none => exact hlive
  | some other =>
      unfold relinked
      rw [Arena.get?_modify]
      split
      · exact fun hnone => hlive (Option.map_eq_none_iff.mp hnone)
      · exact hlive

theorem get?_fill_ne_none {links : Arena (Link α)} {slot handle : Handle}
    {link : Link α} (hlive : links.get? handle ≠ none) :
    (links.fill slot link).get? handle ≠ none := by
  rw [Arena.get?_fill]
  split
  · exact Option.some_ne_none _
  · exact hlive

theorem bypass_eq_relinked (links : Arena (Link α)) (link : Link α) :
    bypass links link =
      relinked
        (relinked links link.newer fun neighbour =>
          { neighbour with older := link.older })
        link.older fun neighbour => { neighbour with newer := link.newer } := by
  unfold bypass
  cases link.newer <;> cases link.older <;> rfl

namespace Represents

variable {sequence : Sequence α} {row : List (Handle × α)}

theorem live_iff (h : sequence.Represents row) {handle : Handle} :
    sequence.links.get? handle ≠ none ↔ handle ∈ row.map Prod.fst := by
  rw [ne_eq, h.vacant_iff, Decidable.not_not]

theorem newest_live (h : sequence.Represents row) {handle : Handle}
    (hnewest : sequence.newest = some handle) :
    sequence.links.get? handle ≠ none := by
  rw [h.newest] at hnewest
  exact h.live_iff.mpr (mem_of_lastHandle? hnewest)

theorem oldest_live (h : sequence.Represents row) {handle : Handle}
    (holdest : sequence.oldest = some handle) :
    sequence.links.get? handle ≠ none := by
  rw [h.oldest] at holdest
  exact h.live_iff.mpr (mem_of_firstHandle? holdest)

theorem checkedOldest?_eq (h : sequence.Represents row) :
    Checked.oldest? sequence = .ok sequence.oldest? := by
  unfold Checked.oldest? Sequence.oldest? Sequence.get?
  cases holdest : sequence.oldest with
  | none => rfl
  | some handle =>
      obtain ⟨link, hlink⟩ :=
        Option.ne_none_iff_exists'.mp (h.oldest_live holdest)
      simp only [Checked.link, hlink, Option.bind_some, Option.map_some]
      rfl

theorem checkedPushNewest_eq (h : sequence.Represents row) (slot : Handle)
    (value : α) :
    Checked.pushNewest sequence slot value =
      .ok (sequence.enterNewest slot value) := by
  unfold Checked.pushNewest Sequence.enterNewest
  rw [relink_eq_ok fun handle hnewest =>
    get?_fill_ne_none (h.newest_live hnewest)]
  cases sequence.newest <;> rfl

theorem checkedPushOldest_eq (h : sequence.Represents row) (slot : Handle)
    (value : α) :
    Checked.pushOldest sequence slot value =
      .ok (sequence.enterOldest slot value) := by
  unfold Checked.pushOldest Sequence.enterOldest
  rw [relink_eq_ok fun handle holdest =>
    get?_fill_ne_none (h.oldest_live holdest)]
  cases sequence.oldest <;> rfl

theorem neighbour_live (h : sequence.Represents row) {handle other : Handle}
    {link : Link α} (hlink : sequence.links.get? handle = some link)
    (hother : link.newer = some other ∨ link.older = some other) :
    (sequence.links.erase handle).get? other ≠ none := by
  have hmem : (handle, link.value) ∈ row := h.get?_iff.mp (by
    unfold Sequence.get?
    rw [hlink]
    rfl)
  obtain ⟨front, back, rfl⟩ := List.append_of_mem hmem
  have hneighbours := Option.some.inj (hlink.symm.trans h.link_eq)
  have hkept : other ∈ (front ++ back).map Prod.fst := by
    rw [List.map_append]
    rw [hneighbours] at hother
    rcases hother with hnewer | holder
    · exact List.mem_append_right _ (mem_of_firstHandle? hnewer)
    · exact List.mem_append_left _ (mem_of_lastHandle? holder)
  have hne : other ≠ handle := fun heq => h.parted.1 (heq ▸ hkept)
  rw [Arena.get?_erase, if_neg hne]
  exact h.live_iff.mpr ((List.perm_middle.map Prod.fst).mem_iff.mpr
    (List.mem_cons_of_mem _ hkept))

theorem checkedRemove_eq (h : sequence.Represents row) (handle : Handle) :
    Checked.remove sequence handle =
      .ok (match sequence.remove? handle with
        | none => (none, sequence)
        | some (value, rest) => (some value, rest)) := by
  unfold Checked.remove Sequence.remove?
  cases hlink : sequence.links.get? handle with
  | none => rfl
  | some link =>
      dsimp only [Option.map_some]
      rw [bypass_eq_relinked, relink_eq_ok fun other hnewer =>
        h.neighbour_live hlink (.inl hnewer)]
      dsimp only [Except.bind]
      rw [relink_eq_ok fun other holder =>
        get?_relinked_ne_none (h.neighbour_live hlink (.inr holder)) _ _]
      rfl

theorem checkedPopOldest_eq (h : sequence.Represents row) :
    Checked.popOldest sequence =
      .ok (match sequence.popOldest? with
        | none => (none, sequence)
        | some (handle, value, rest) => (some (handle, value), rest)) := by
  unfold Checked.popOldest popOldest?
  cases sequence.oldest with
  | none => rfl
  | some handle =>
      simp only [Option.bind_some, h.checkedRemove_eq]
      cases sequence.remove? handle with
      | none => rfl
      | some entry => rfl

theorem shows (h : sequence.Represents row) : sequence.Shows row where
  distinct := h.nodup
  yields := h.yields
  toList := congrArg (List.map Prod.snd) h.entries_eq
  size := h.size
  oldest? := by rw [h.checkedOldest?_eq, h.oldest?_eq]
  live_iff handle := Option.isSome_iff_ne_none.trans h.live_iff

theorem agrees (h : sequence.Represents row) : sequence.Agrees where
  vacant := sequence.links.get?_vacant
  oldest? := h.checkedOldest?_eq
  pushNewest value := h.checkedPushNewest_eq _ value
  pushOldest value := h.checkedPushOldest_eq _ value
  remove := h.checkedRemove_eq
  popOldest := h.checkedPopOldest_eq

theorem performRemove (h : sequence.Represents row) (handle : Handle) :
    ∃ next, sequence.perform (.remove handle) =
        .ok (((Step.remove handle).onRow row).1, next) ∧
      next.Represents ((Step.remove handle).onRow row).2 := by
  rw [Sequence.perform, h.checkedRemove_eq]
  by_cases hmem : handle ∈ row.map Prod.fst
  · obtain ⟨⟨other, value⟩, hentry, hother⟩ := List.mem_map.mp hmem
    obtain rfl : other = handle := hother
    obtain ⟨front, back, rfl⟩ := List.append_of_mem hentry
    have hfront : ∀ entry ∈ front, ¬ decide (entry.1 = other) = true := by
      intro entry hbefore hsame
      exact h.parted.1 (List.mem_map.mpr ⟨entry,
        List.mem_append_left _ hbefore, of_decide_eq_true hsame⟩)
    obtain ⟨rest, hremove, hrest⟩ := h.remove
    refine ⟨rest, ?_, ?_⟩
    · simp only [Step.onRow, List.find?_append,
        List.find?_eq_none.mpr hfront, hremove]
      simp [Except.map]
    · simp only [Step.onRow]
      rw [List.eraseP_append_right _ hfront]
      simpa using hrest
  · have hother : ∀ entry ∈ row, ¬ decide (entry.1 = handle) = true :=
      fun entry hentry hsame => hmem
        (List.mem_map.mpr ⟨entry, hentry, of_decide_eq_true hsame⟩)
    refine ⟨sequence, ?_, ?_⟩
    · simp only [Step.onRow, List.find?_eq_none.mpr hother,
        h.remove?_eq_none hmem]
      rfl
    · simp only [Step.onRow]
      rw [List.eraseP_of_forall_not hother]
      exact h

theorem performPopOldest (h : sequence.Represents row) :
    ∃ next, sequence.perform .popOldest =
        .ok ((Step.popOldest.onRow row).1, next) ∧
      next.Represents (Step.popOldest.onRow row).2 := by
  rw [Sequence.perform, h.checkedPopOldest_eq]
  cases row with
  | nil =>
      rw [h.popOldest?_nil]
      exact ⟨sequence, rfl, h⟩
  | cons entry rest =>
      obtain ⟨next, hpop, hnext⟩ := h.popOldest?_cons
      rw [hpop]
      exact ⟨next, rfl, hnext⟩

theorem perform (h : sequence.Represents row) {step : Step α}
    (hfits : step.fits sequence = true) :
    ∃ next, sequence.perform step = .ok ((step.onRow row).1, next) ∧
      next.Represents (step.onRow row).2 := by
  cases step with
  | pushNewest slot value =>
      rw [Sequence.perform, h.checkedPushNewest_eq]
      exact ⟨_, rfl, h.enterNewest (Option.isNone_iff_eq_none.mp hfits) value⟩
  | pushOldest slot value =>
      rw [Sequence.perform, h.checkedPushOldest_eq]
      exact ⟨_, rfl, h.enterOldest (Option.isNone_iff_eq_none.mp hfits) value⟩
  | popOldest => exact h.performPopOldest
  | remove handle => exact h.performRemove handle
  | clear =>
      refine ⟨sequence.clear.1, ?_, represents_clear sequence⟩
      rw [Sequence.perform, Step.onRow, ← h.size]
      rfl

theorem run (h : sequence.Represents row) {steps : List (Step α)}
    (hfits : sequence.fits steps = true) :
    ∃ last, sequence.run steps = .ok ((runRow row steps).1, last) ∧
      last.Represents (runRow row steps).2 := by
  induction steps generalizing sequence row with
  | nil => exact ⟨sequence, rfl, h⟩
  | cons step rest ih =>
      obtain ⟨hfirst, hlater⟩ := Bool.and_eq_true_iff.mp hfits
      obtain ⟨next, hstep, hnext⟩ := h.perform hfirst
      rw [hstep] at hlater
      obtain ⟨last, hrun, hlast⟩ := ih hnext hlater
      refine ⟨last, ?_, hlast⟩
      unfold Sequence.run
      rw [hstep]
      dsimp only [Except.bind]
      rw [hrun]
      rfl

end Represents

/-! Whichever vacant slots a run goes through, they are those of some policy. -/

def Step.slot? : Step α → Option Handle
  | pushNewest slot _ => some slot
  | pushOldest slot _ => some slot
  | popOldest => none
  | remove _ => none
  | clear => none

/-- The policy that takes the slots of these steps in turn. -/
def policyOf (steps : List (Step α)) : SlotPolicy :=
  .following fun index => (steps.filterMap Step.slot?).getD index 0

def follows : Sequence α → List (Step α) → Bool
  | _, [] => true
  | sequence, step :: rest =>
      step.slot?.all (· = sequence.freshHandle) &&
        match sequence.perform step with
        | .ok (_, next) => next.follows rest
        | .error _ => true

theorem vacant_of_fits {sequence : Sequence α} {step : Step α} {slot : Handle}
    (hfits : step.fits sequence = true) (hslot : step.slot? = some slot) :
    sequence.links.get? slot = none := by
  cases step <;> cases hslot <;> exact Option.isNone_iff_eq_none.mp hfits

/-- The links keep their policy, and count so many values more. -/
structure Continues (before after : Arena (Link α)) (more : Nat) : Prop where
  policy : after.policy = before.policy
  entered : after.entered = before.entered + more

theorem continues_remove? {sequence rest : Sequence α} {handle : Handle}
    {value : α} (hremove : sequence.remove? handle = some (value, rest)) :
    Continues sequence.links rest.links 0 := by
  obtain ⟨link, -, hlink⟩ := Option.map_eq_some_iff.mp hremove
  cases hlink
  dsimp only
  unfold bypass
  cases link.newer <;> cases link.older <;> exact ⟨rfl, rfl⟩

theorem Represents.continues {sequence next : Sequence α}
    {row : List (Handle × α)} {step : Step α} {reply : Reply α}
    (h : sequence.Represents row)
    (hstep : sequence.perform step = .ok (reply, next)) :
    Continues sequence.links next.links step.slot?.toList.length := by
  cases step with
  | pushNewest slot value =>
      rw [Sequence.perform, h.checkedPushNewest_eq] at hstep
      cases hstep
      unfold Sequence.enterNewest
      split <;> exact ⟨rfl, rfl⟩
  | pushOldest slot value =>
      rw [Sequence.perform, h.checkedPushOldest_eq] at hstep
      cases hstep
      unfold Sequence.enterOldest
      split <;> exact ⟨rfl, rfl⟩
  | popOldest =>
      rw [Sequence.perform, h.checkedPopOldest_eq] at hstep
      cases hpop : sequence.popOldest? with
      | none =>
          rw [hpop] at hstep
          cases hstep
          exact ⟨rfl, rfl⟩
      | some entry =>
          rw [hpop] at hstep
          cases hstep
          obtain ⟨handle, -, hentry⟩ := Option.bind_eq_some_iff.mp hpop
          obtain ⟨removed, hremove, hremoved⟩ :=
            Option.map_eq_some_iff.mp hentry
          cases hremoved
          exact continues_remove? hremove
  | remove handle =>
      rw [Sequence.perform, h.checkedRemove_eq] at hstep
      cases hremove : sequence.remove? handle with
      | none =>
          rw [hremove] at hstep
          cases hstep
          exact ⟨rfl, rfl⟩
      | some entry =>
          rw [hremove] at hstep
          cases hstep
          exact continues_remove? hremove
  | clear =>
      cases hstep
      exact ⟨rfl, rfl⟩

theorem Represents.follows {sequence : Sequence α} {row : List (Handle × α)}
    {slots : Nat → Handle} {steps : List (Step α)}
    (h : sequence.Represents row)
    (hpolicy : sequence.links.policy = .following slots)
    (hslots : ∀ index slot, (steps.filterMap Step.slot?)[index]? = some slot →
      slots (sequence.links.entered + index) = slot)
    (hfits : sequence.fits steps = true) : sequence.follows steps = true := by
  induction steps generalizing sequence row with
  | nil => rfl
  | cons step rest ih =>
      obtain ⟨hfirst, hlater⟩ := Bool.and_eq_true_iff.mp hfits
      obtain ⟨next, hstep, hnext⟩ := h.perform hfirst
      have hcontinues := h.continues hstep
      rw [hstep] at hlater
      refine Bool.and_eq_true_iff.mpr ⟨?_, ?_⟩
      · cases hslot : step.slot? with
        | none => rfl
        | some slot =>
            have hturn : slots sequence.links.entered = slot :=
              hslots 0 slot (by simp [hslot])
            have hvacant := vacant_of_fits hfirst hslot
            rw [← hturn] at hvacant
            have hchosen := Arena.vacant_of_following hpolicy hvacant
            exact decide_eq_true (hturn.symm.trans hchosen.symm)
      · rw [hstep]
        refine ih hnext (hcontinues.policy.trans hpolicy) ?_ hlater
        intro index slot hlist
        have hshift : (step.slot?.toList ++
            rest.filterMap Step.slot?)[step.slot?.toList.length + index]? =
              some slot := by
          rw [List.getElem?_append_right (Nat.le_add_right _ _),
            Nat.add_sub_cancel_left]
          exact hlist
        rw [hcontinues.entered, Nat.add_assoc]
        refine hslots _ slot ?_
        rw [← hshift]
        cases hslot : step.slot? <;> simp [hslot]

/-- A sequence can be given a policy under which a run over vacant slots is what
it does by itself. -/
theorem follows_policyOf {steps : List (Step α)}
    (hfits : fits (.empty (policyOf steps)) steps = true) :
    follows (.empty (policyOf steps)) steps = true := by
  refine (represents_empty _).follows rfl (fun index slot hslot => ?_) hfits
  rw [show (empty (policyOf steps) : Sequence α).links.entered = 0 from rfl,
    Nat.zero_add, List.getD_eq_getElem?_getD, hslot]
  rfl

/-- Whatever is done to a sequence, no slot is looked into that is not in use, and
the replies are those of a row to which the same is done, as far as that enters
somewhere, with the handle that it gets. Going through the sequence ends, and yields
that row. -/
theorem runs_as_deque {slots : SlotPolicy} {steps : List (Step α)}
    (hfits : fits (.empty slots) steps = true) :
    ∃ sequence,
      run (.empty slots) steps = .ok ((runRow [] steps).1, sequence) ∧
      sequence.Shows (runRow [] steps).2 ∧ sequence.Agrees := by
  obtain ⟨sequence, hrun, hrepresents⟩ := (represents_empty slots).run hfits
  exact ⟨sequence, hrun, hrepresents.shows, hrepresents.agrees⟩

/-- A store that uses the slot again that was given up last. Handle 0 is stale when
it is removed again, and handle 1 then leads to another value. -/
theorem runs_as_deque_reused :
    let steps : List (Step Nat) := [
      .pushNewest 0 10, .pushNewest 1 20, .remove 0, .remove 1,
      .pushNewest 1 30, .remove 0, .pushOldest 0 40, .pushNewest 2 50,
      .remove 1, .popOldest]
    fits .empty steps = true ∧
    ∃ sequence,
      run .empty steps = .ok ([.entered 0, .entered 1, .removed (some 10),
        .removed (some 20), .entered 1, .removed none, .entered 0, .entered 2,
        .removed (some 30), .popped (some (0, 40))], sequence) ∧
      sequence.Shows [(2, 50)] ∧ sequence.Agrees := by
  intro steps
  have hfits : fits .empty steps = true := by decide
  exact ⟨hfits, runs_as_deque hfits⟩

end MessageBroker.Sequence
