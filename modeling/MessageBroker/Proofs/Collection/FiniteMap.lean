import MessageBroker.Proofs.Collection.AssocList

/-! An association is a finite map that lists its keys in the order in which they
were added, and its entries can be found and changed by their positions. -/

namespace MessageBroker.AssocList

variable {κ : Type u} {ν : Type v}

inductive Call (κ : Type u) (ν : Type v) where
  | get (key : κ)
  | contains (key : κ)
  | find (test : κ → Bool)
  | insert (key : κ) (value : ν)
  | ensure (key : κ) (make : Unit → ν)
  | modify (key : κ) (change : ν → ν)
  | remove (key : κ)
  | filter (test : κ → ν → Bool)
  | each (change : ν → ν)
  /-- Change every value, or remove its key. -/
  | retain (keep : κ → ν → Option ν)
  | clear

inductive Reply (κ : Type u) (ν : Type v) where
  | value (value : Option ν)
  | truth (truth : Bool)
  | entry (entry : Option (κ × ν))
  | done
  deriving DecidableEq

def retained (entries : List (κ × ν)) (keep : κ → ν → Option ν) :
    List (κ × ν) :=
  entries.filterMap fun entry =>
    (keep entry.1 entry.2).map fun value => (entry.1, value)

theorem sublist_keys_retained (entries : List (κ × ν))
    (keep : κ → ν → Option ν) :
    ((retained entries keep).map Prod.fst).Sublist (entries.map Prod.fst) := by
  induction entries with
  | nil => exact .slnil
  | cons entry rest ih =>
      unfold retained at ih ⊢
      cases hkeep : keep entry.1 entry.2 with
      | none => simpa [hkeep] using ih.cons entry.1
      | some value => simpa [hkeep] using ih.cons_cons entry.1

def retain (list : AssocList κ ν) (keep : κ → ν → Option ν) :
    AssocList κ ν where
  entries := retained list.entries keep
  nodup_keys := list.nodup_keys.sublist (sublist_keys_retained _ _)

namespace Positional

def valueAt? (entries : List (κ × ν)) (index : Nat) : Option ν :=
  entries[index]?.map Prod.snd

def changeAt (entries : List (κ × ν)) (index : Nat) (change : ν → ν) :
    List (κ × ν) :=
  entries.modify index fun entry => (entry.1, change entry.2)

theorem valueAt?_middle (front : List (κ × ν)) (entry : κ × ν)
    (back : List (κ × ν)) :
    valueAt? (front ++ entry :: back) front.length = some entry.2 := by
  unfold valueAt?
  simp

end Positional

/-! A finite map, which also keeps when each of its keys was added. -/

structure Table (κ : Type u) (ν : Type v) where
  value? : κ → Option ν
  /-- When the key was last added while it was absent. -/
  addedAt : κ → Nat
  time : Nat

namespace Table

def empty : Table κ ν where
  value? _ := none
  addedAt _ := 0
  time := 0

/-- The first entry whose key passes the test, if one does. -/
def IsFirst (table : Table κ ν) (test : κ → Bool) : Option (κ × ν) → Prop
  | none => ∀ key, test key = true → table.value? key = none
  | some (key, value) =>
      test key = true ∧ table.value? key = some value ∧
        ∀ other, other ≠ key → test other = true →
          table.value? other ≠ none → table.addedAt key < table.addedAt other

variable [DecidableEq κ]

def put (table : Table κ ν) (key : κ) (value : ν) : Table κ ν where
  value? other := if other = key then some value else table.value? other
  addedAt other :=
    if other = key ∧ (table.value? key).isNone then table.time
    else table.addedAt other
  time := table.time

def change (table : Table κ ν) : Call κ ν → Table κ ν
  | .get _ => table
  | .contains _ => table
  | .find _ => table
  | .insert key value => table.put key value
  | .ensure key make =>
      if (table.value? key).isNone then table.put key (make ()) else table
  | .modify key change => { table with
      value? := fun other =>
        if other = key then (table.value? other).map change
        else table.value? other }
  | .remove key => { table with
      value? := fun other => if other = key then none else table.value? other }
  | .filter test => { table with
      value? := fun key => (table.value? key).filter (test key) }
  | .each change => { table with
      value? := fun key => (table.value? key).map change }
  | .retain keep => { table with
      value? := fun key => (table.value? key).bind (keep key) }
  | .clear => { table with value? := fun _ => none }

def after (table : Table κ ν) (call : Call κ ν) : Table κ ν where
  value? := (table.change call).value?
  addedAt := (table.change call).addedAt
  time := table.time + 1

theorem change_ensure_of_absent {table : Table κ ν} {key : κ}
    (habsent : table.value? key = none) (make : Unit → ν) :
    table.change (.ensure key make) = table.put key (make ()) :=
  if_pos (Option.isNone_iff_eq_none.mpr habsent)

theorem change_ensure_of_present {table : Table κ ν} {key : κ} {value : ν}
    (hvalue : table.value? key = some value) (make : Unit → ν) :
    table.change (.ensure key make) = table :=
  if_neg (by simp [hvalue])

def Answers (table : Table κ ν) : Call κ ν → Reply κ ν → Prop
  | .get key, reply => reply = .value (table.value? key)
  | .contains key, reply => reply = .truth (table.value? key).isSome
  | .find test, reply =>
      ∃ entry, reply = .entry entry ∧ table.IsFirst test entry
  | .insert key _, reply => reply = .value (table.value? key)
  | .ensure key make, reply =>
      reply = .value (some ((table.value? key).getD (make ())))
  | .modify key change, reply =>
      reply = .value ((table.value? key).map change)
  | .remove key, reply => reply = .value (table.value? key)
  | .filter _, reply => reply = .done
  | .each _, reply => reply = .done
  | .retain _, reply => reply = .done
  | .clear, reply => reply = .done

/-- All replies, one after another, and the finite map after the last call. -/
inductive Answered : Table κ ν → List (Call κ ν) → List (Reply κ ν) →
    Table κ ν → Prop
  | nil {table : Table κ ν} : Answered table [] [] table
  | cons {table last : Table κ ν} {call : Call κ ν} {calls : List (Call κ ν)}
      {reply : Reply κ ν} {replies : List (Reply κ ν)}
      (hreply : table.Answers call reply)
      (hrest : Answered (table.after call) calls replies last) :
      Answered table (call :: calls) (reply :: replies) last

end Table

variable [DecidableEq κ]

def perform (list : AssocList κ ν) : Call κ ν → Reply κ ν × AssocList κ ν
  | .get key => (.value (list.get? key), list)
  | .contains key => (.truth (list.contains key), list)
  | .find test => (.entry (list.findKey? test), list)
  | .insert key value => (.value (list.get? key), list.insert key value)
  | .ensure key make =>
      (.value ((list.ensure key (make ())).get? key),
        list.ensure key (make ()))
  | .modify key change =>
      (.value ((list.modify key change).get? key), list.modify key change)
  | .remove key => (.value (list.get? key), list.erase key)
  | .filter test => (.done, list.filter test)
  | .each change => (.done, list.mapValues change)
  | .retain keep => (.done, list.retain keep)
  | .clear => (.done, .empty)

def run : AssocList κ ν → List (Call κ ν) → List (Reply κ ν) × AssocList κ ν
  | list, [] => ([], list)
  | list, call :: rest =>
      let (reply, next) := list.perform call
      let (replies, last) := next.run rest
      (reply :: replies, last)

namespace Positional

def position? (entries : List (κ × ν)) (key : κ) : Option Nat :=
  entries.findIdx? fun entry => entry.1 = key

def perform (entries : List (κ × ν)) :
    Call κ ν → Reply κ ν × List (κ × ν)
  | .get key =>
      (.value ((position? entries key).bind (valueAt? entries)), entries)
  | .contains key => (.truth (position? entries key).isSome, entries)
  | .find test => (.entry (entries.find? fun entry => test entry.1), entries)
  | .insert key value =>
      match position? entries key with
      | some index =>
          (.value (valueAt? entries index),
            changeAt entries index fun _ => value)
      | none => (.value none, entries ++ [(key, value)])
  | .ensure key make =>
      match position? entries key with
      | some index => (.value (valueAt? entries index), entries)
      | none => (.value (some (make ())), entries ++ [(key, make ())])
  | .modify key change =>
      match position? entries key with
      | some index =>
          (.value ((valueAt? entries index).map change),
            changeAt entries index change)
      | none => (.value none, entries)
  | .remove key =>
      match position? entries key with
      | some index =>
          (.value (valueAt? entries index), entries.eraseIdx index)
      | none => (.value none, entries)
  | .filter test => (.done, entries.filter fun entry => test entry.1 entry.2)
  | .each change =>
      (.done, entries.map fun entry => (entry.1, change entry.2))
  | .retain keep => (.done, retained entries keep)
  | .clear => (.done, [])

def run : List (κ × ν) → List (Call κ ν) → List (Reply κ ν) × List (κ × ν)
  | entries, [] => ([], entries)
  | entries, call :: rest =>
      let (reply, next) := perform entries call
      let (replies, last) := run next rest
      (reply :: replies, last)

end Positional

section

variable {list : AssocList κ ν} {key : κ} {value : ν}
  {front back : List (κ × ν)}

theorem get?_retain (list : AssocList κ ν) (keep : κ → ν → Option ν)
    (key : κ) :
    (list.retain keep).get? key = (list.get? key).bind (keep key) := by
  apply Option.ext
  intro value
  rw [get?_eq_some_iff, Option.bind_eq_some_iff]
  simp only [retain, retained, List.mem_filterMap, Option.map_eq_some_iff,
    Prod.mk.injEq, get?_eq_some_iff]
  constructor
  · rintro ⟨⟨other, before⟩, hentry, after, hkeep, rfl, rfl⟩
    exact ⟨before, hentry, hkeep⟩
  · rintro ⟨before, hentry, hkeep⟩
    exact ⟨(key, before), hentry, value, hkeep, rfl, rfl⟩

theorem position?_of_entries_eq
    (hentries : list.entries = front ++ (key, value) :: back) :
    Positional.position? list.entries key = some front.length := by
  have hfront : ∀ entry ∈ front, decide (entry.1 = key) = false :=
    fun entry hmem => decide_eq_false
      (ne_of_entries_eq hentries (List.mem_append_left _ hmem))
  unfold Positional.position?
  rw [hentries, List.findIdx?_append, List.findIdx?_eq_none_iff.mpr hfront]
  simp [List.findIdx?_cons]

theorem entries_modify_of_entries_eq
    (hentries : list.entries = front ++ (key, value) :: back)
    (change : ν → ν) :
    (list.modify key change).entries =
      front ++ (key, change value) :: back := by
  have hothers : ∀ entries : List (κ × ν),
      (∀ entry ∈ entries, entry ∈ front ++ back) →
      (entries.map fun entry =>
        if entry.1 = key then (entry.1, change entry.2) else entry) =
          entries := by
    intro entries hall
    refine (List.map_congr_left fun entry hmem => ?_).trans (List.map_id _)
    exact if_neg (ne_of_entries_eq hentries (hall entry hmem))
  unfold modify
  dsimp only
  rw [hentries, List.map_append, List.map_cons, if_pos rfl,
    hothers front fun _ => List.mem_append_left _,
    hothers back fun _ => List.mem_append_right _]

theorem changeAt_of_entries_eq
    (hentries : list.entries = front ++ (key, value) :: back)
    (change : ν → ν) :
    Positional.changeAt list.entries front.length change =
      (list.modify key change).entries := by
  rw [entries_modify_of_entries_eq hentries, hentries]
  exact List.modifyTailIdx_add _ 0 front _

theorem eraseIdx_of_entries_eq
    (hentries : list.entries = front ++ (key, value) :: back) :
    list.entries.eraseIdx front.length = (list.erase key).entries := by
  rw [entries_erase_of_entries_eq hentries, hentries,
    List.eraseIdx_append_of_length_le (Nat.le_refl _), Nat.sub_self]
  rfl

theorem valueAt?_of_entries_eq
    (hentries : list.entries = front ++ (key, value) :: back) :
    Positional.valueAt? list.entries front.length = list.get? key := by
  rw [get?_of_entries_eq hentries, hentries, Positional.valueAt?_middle]

theorem position?_of_absent (habsent : list.get? key = none) :
    Positional.position? list.entries key = none := by
  refine List.findIdx?_eq_none_iff.mpr fun entry hmem => decide_eq_false ?_
  rintro rfl
  exact get?_eq_none_iff.mp habsent (List.mem_map_of_mem hmem)

theorem absent_or_entries_eq (list : AssocList κ ν) (key : κ) :
    list.get? key = none ∨
      ∃ front value back, list.entries = front ++ (key, value) :: back := by
  cases hvalue : list.get? key with
  | none => exact .inl rfl
  | some value =>
      obtain ⟨front, back, hentries⟩ :=
        List.append_of_mem (get?_eq_some_iff.mp hvalue)
      exact .inr ⟨front, value, back, hentries⟩

end

theorem positional_perform (list : AssocList κ ν) (call : Call κ ν) :
    Positional.perform list.entries call =
      ((list.perform call).1, (list.perform call).2.entries) := by
  unfold Positional.perform perform
  cases call with
  | get key =>
      rcases list.absent_or_entries_eq key with habsent | ⟨_, _, _, hentries⟩
      · simp only [position?_of_absent habsent, habsent, Option.bind_none]
      · simp only [position?_of_entries_eq hentries,
          get?_of_entries_eq hentries, Option.bind_some,
          valueAt?_of_entries_eq hentries]
  | contains key =>
      unfold contains
      rcases list.absent_or_entries_eq key with habsent | ⟨_, _, _, hentries⟩
      · simp only [position?_of_absent habsent, habsent, Option.isSome_none]
      · simp only [position?_of_entries_eq hentries,
          get?_of_entries_eq hentries, Option.isSome_some]
  | find test => rfl
  | insert key value =>
      rcases list.absent_or_entries_eq key with habsent | ⟨_, _, _, hentries⟩
      · simp only [position?_of_absent habsent, habsent,
          entries_insert_of_absent habsent]
      · have hvalue := get?_of_entries_eq hentries
        simp only [position?_of_entries_eq hentries,
          insert_of_present hvalue, valueAt?_of_entries_eq hentries,
          changeAt_of_entries_eq hentries]
  | ensure key make =>
      rcases list.absent_or_entries_eq key with habsent | ⟨_, _, _, hentries⟩
      · simp only [position?_of_absent habsent, get?_ensure, habsent, if_pos,
          Option.getD_none, entries_ensure_of_absent habsent]
      · have hvalue := get?_of_entries_eq hentries
        simp only [position?_of_entries_eq hentries,
          valueAt?_of_entries_eq hentries, ensure_of_present hvalue]
  | modify key change =>
      rcases list.absent_or_entries_eq key with habsent | ⟨_, _, _, hentries⟩
      · simp only [position?_of_absent habsent, modify_of_absent habsent,
          habsent]
      · have hvalue := get?_of_entries_eq hentries
        simp only [position?_of_entries_eq hentries, get?_modify, if_pos,
          hvalue, valueAt?_of_entries_eq hentries,
          changeAt_of_entries_eq hentries]
  | remove key =>
      rcases list.absent_or_entries_eq key with habsent | ⟨_, _, _, hentries⟩
      · simp only [position?_of_absent habsent, habsent, erase_eq_self habsent]
      · simp only [position?_of_entries_eq hentries,
          get?_of_entries_eq hentries, valueAt?_of_entries_eq hentries,
          eraseIdx_of_entries_eq hentries]
  | filter test => rfl
  | each change => rfl
  | retain keep => rfl
  | clear => rfl

theorem positional_run (list : AssocList κ ν) (calls : List (Call κ ν)) :
    Positional.run list.entries calls =
      ((list.run calls).1, (list.run calls).2.entries) := by
  induction calls generalizing list with
  | nil => rfl
  | cons call rest ih =>
      unfold Positional.run run
      rw [positional_perform]
      dsimp only
      rw [ih]

/-- The association has what the finite map has, in the order in which the keys
were added. -/
structure Stands (list : AssocList κ ν) (table : Table κ ν) : Prop where
  get? : ∀ key, list.get? key = table.value? key
  ordered : list.keys.Pairwise fun first second =>
    table.addedAt first < table.addedAt second
  past : ∀ key ∈ list.keys, table.addedAt key < table.time

namespace Stands

variable {list next : AssocList κ ν} {table after : Table κ ν} {key : κ}
  {value : ν}

theorem empty : (empty : AssocList κ ν).Stands .empty where
  get? _ := rfl
  ordered := .nil
  past _ hmem := nomatch hmem

theorem present_iff (h : list.Stands table) :
    key ∈ list.keys ↔ (table.value? key).isSome = true := by
  rw [← h.get?, Option.isSome_iff_ne_none, ne_eq, get?_eq_none_iff,
    Decidable.not_not]

theorem thin (h : list.Stands table) (hkeys : next.keys.Sublist list.keys)
    (hget : ∀ key, next.get? key = after.value? key)
    (hadded : after.addedAt = table.addedAt)
    (htime : table.time ≤ after.time) : next.Stands after where
  get? := hget
  ordered := by
    rw [hadded]
    exact h.ordered.sublist hkeys
  past key hmem := by
    rw [hadded]
    exact Nat.lt_of_lt_of_le (h.past key (hkeys.subset hmem)) htime

theorem add (h : list.Stands table) (habsent : list.get? key = none)
    (hkeys : next.keys = list.keys ++ [key])
    (hget : ∀ other, next.get? other = (table.put key value).value? other) :
    next.Stands { table.put key value with time := table.time + 1 } := by
  have hkey : key ∉ list.keys := get?_eq_none_iff.mp habsent
  have hadded : (table.put key value).addedAt key = table.time := by
    simp [Table.put, ← h.get?, habsent]
  have hothers : ∀ other ∈ list.keys,
      (table.put key value).addedAt other = table.addedAt other := by
    intro other hother
    have hne : other ≠ key := fun heq => hkey (heq ▸ hother)
    simp [Table.put, hne]
  refine ⟨hget, ?_, ?_⟩
  · dsimp only
    rw [hkeys, List.pairwise_append]
    refine ⟨?_, List.pairwise_singleton _ _, fun other hother last hlast => ?_⟩
    · refine h.ordered.imp_of_mem fun hfirst hsecond hlt => ?_
      rwa [hothers _ hfirst, hothers _ hsecond]
    · obtain rfl := List.mem_singleton.mp hlast
      rw [hothers _ hother, hadded]
      exact h.past other hother
  · intro other hother
    rw [hkeys, List.mem_append, List.mem_singleton] at hother
    rcases hother with hold | rfl
    · exact Nat.lt_succ_of_lt (by rw [hothers _ hold]; exact h.past other hold)
    · exact hadded ▸ Nat.lt_succ_self _

/-- The first key that passes a test is the one that was added first. -/
theorem isFirst (h : list.Stands table) (test : κ → Bool) :
    table.IsFirst test (list.findKey? test) := by
  unfold findKey?
  cases hfind : list.entries.find? fun entry => test entry.1 with
  | none =>
      intro key htest
      rw [← h.get?, get?_eq_none_iff]
      intro hmem
      obtain ⟨value, hentry⟩ := mem_keys_iff.mp hmem
      exact List.find?_eq_none.mp hfind _ hentry htest
  | some entry =>
      obtain ⟨key, value⟩ := entry
      obtain ⟨htest, front, back, hentries, hfront⟩ :=
        List.find?_eq_some_iff_append.mp hfind
      refine ⟨htest, (h.get? key).symm.trans (get?_of_entries_eq hentries), ?_⟩
      intro other hne hother hpresent
      rw [← h.get?] at hpresent
      obtain ⟨current, hcurrent⟩ := Option.ne_none_iff_exists'.mp hpresent
      have hmem := get?_eq_some_iff.mp hcurrent
      rw [hentries, List.mem_append, List.mem_cons] at hmem
      have hlater : (other, current) ∈ back := by
        rcases hmem with hbefore | hsame | hlater
        · simpa [hother] using hfront _ hbefore
        · exact absurd (congrArg Prod.fst hsame) hne
        · exact hlater
      have hordered := h.ordered
      unfold keys at hordered
      rw [hentries, List.map_append, List.map_cons, List.pairwise_append,
        List.pairwise_cons] at hordered
      exact hordered.2.1.1 other (List.mem_map_of_mem hlater)

theorem answers (h : list.Stands table) (call : Call κ ν) :
    table.Answers call (list.perform call).1 := by
  cases call with
  | get key => exact congrArg Reply.value (h.get? key)
  | contains key =>
      exact congrArg (fun value => Reply.truth value.isSome) (h.get? key)
  | find test => exact ⟨_, rfl, h.isFirst test⟩
  | insert key value => exact congrArg Reply.value (h.get? key)
  | ensure key make =>
      show Reply.value _ = _
      rw [get?_ensure, if_pos rfl, h.get?]
  | modify key change =>
      show Reply.value _ = _
      rw [get?_modify, if_pos rfl, h.get?]
  | remove key => exact congrArg Reply.value (h.get? key)
  | filter test => rfl
  | each change => rfl
  | retain keep => rfl
  | clear => rfl

theorem insert (h : list.Stands table) (key : κ) (value : ν) :
    (list.insert key value).Stands (table.after (.insert key value)) := by
  have hget : ∀ other, (list.insert key value).get? other =
      (table.put key value).value? other := by
    intro other
    rw [get?_insert, h.get?]
    rfl
  cases hvalue : list.get? key with
  | none =>
      refine h.add hvalue ?_ hget
      rw [keys_insert, if_neg (get?_eq_none_iff.mp hvalue)]
  | some current =>
      have hkeys : (list.insert key value).keys = list.keys := by
        rw [insert_of_present hvalue, keys_modify]
      have hadded : (table.put key value).addedAt = table.addedAt := by
        funext other
        simp [Table.put, ← h.get?, hvalue]
      exact h.thin (hkeys ▸ List.Sublist.refl _) hget hadded (Nat.le_succ _)

theorem ensure (h : list.Stands table) (key : κ) (make : Unit → ν) :
    (list.ensure key (make ())).Stands (table.after (.ensure key make)) := by
  unfold Table.after
  cases hvalue : list.get? key with
  | none =>
      rw [Table.change_ensure_of_absent ((h.get? key).symm.trans hvalue)]
      refine h.add hvalue ?_ fun other => ?_
      · unfold keys
        rw [entries_ensure_of_absent hvalue, List.map_append]
        rfl
      · rw [get?_ensure, hvalue, h.get?]
        rfl
  | some current =>
      rw [Table.change_ensure_of_present ((h.get? key).symm.trans hvalue),
        ensure_of_present hvalue]
      exact h.thin (.refl _) h.get? rfl (Nat.le_succ _)

theorem perform (h : list.Stands table) (call : Call κ ν) :
    (list.perform call).2.Stands (table.after call) := by
  have hlater : table.time ≤ table.time + 1 := Nat.le_succ _
  cases call with
  | get key => exact h.thin (.refl _) h.get? rfl hlater
  | contains key => exact h.thin (.refl _) h.get? rfl hlater
  | find test => exact h.thin (.refl _) h.get? rfl hlater
  | insert key value => exact h.insert key value
  | ensure key make => exact h.ensure key make
  | modify key change =>
      refine h.thin ?_ (fun other => ?_) rfl hlater
      · exact list.keys_modify key change ▸ .refl _
      · rw [AssocList.perform, get?_modify, h.get?]
        rfl
  | remove key =>
      refine h.thin (List.filter_sublist.map Prod.fst) (fun other => ?_) rfl
        hlater
      rw [AssocList.perform, get?_erase, h.get?]
      rfl
  | filter test =>
      refine h.thin (List.filter_sublist.map Prod.fst) (fun key => ?_) rfl
        hlater
      rw [AssocList.perform, get?_filter, h.get?]
      rfl
  | each change =>
      refine h.thin ?_ (fun key => ?_) rfl hlater
      · exact list.keys_mapValues change ▸ .refl _
      · rw [AssocList.perform, get?_mapValues, h.get?]
        rfl
  | retain keep =>
      refine h.thin (sublist_keys_retained _ _) (fun key => ?_) rfl hlater
      rw [AssocList.perform, get?_retain, h.get?]
      rfl
  | clear => exact h.thin (List.nil_sublist _) (fun _ => rfl) rfl hlater

theorem run (h : list.Stands table) (calls : List (Call κ ν)) :
    ∃ last, table.Answered calls (list.run calls).1 last ∧
      (list.run calls).2.Stands last := by
  induction calls generalizing list table with
  | nil => exact ⟨table, .nil, h⟩
  | cons call rest ih =>
      obtain ⟨last, hrest, hlast⟩ := ih (h.perform call)
      exact ⟨last, .cons (h.answers call) hrest, hlast⟩

end Stands

/-- What a new association replies to calls, and what it holds after them. -/
structure Keeps (calls : List (Call κ ν)) (replies : List (Reply κ ν))
    (list : AssocList κ ν) : Prop where
  run : AssocList.run .empty calls = (replies, list)
  positional : Positional.run [] calls = (replies, list.entries)
  nodup_keys : list.keys.Nodup
  finiteMap : ∃ table : Table κ ν,
    Table.Answered .empty calls replies table ∧ list.Stands table ∧
      ∀ key, key ∈ list.keys ↔ (table.value? key).isSome = true

theorem keeps_run (calls : List (Call κ ν)) :
    Keeps calls (run .empty calls).1 (run .empty calls).2 where
  run := rfl
  positional := positional_run .empty calls
  nodup_keys := (AssocList.run .empty calls).2.nodup_keys
  finiteMap := by
    obtain ⟨table, hanswered, hstands⟩ := Stands.empty.run calls
    exact ⟨table, hanswered, hstands, fun _ => hstands.present_iff⟩

/-- A key that is replaced stays where it is, and one that was removed comes
last. -/
example : (run (empty : AssocList Nat Nat)
    [.insert 1 10, .insert 2 20, .insert 3 30, .insert 2 21, .remove 1,
      .insert 1 11]).2.keys = [2, 3, 1] := by decide

end MessageBroker.AssocList
