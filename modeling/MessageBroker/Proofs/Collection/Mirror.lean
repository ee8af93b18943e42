import MessageBroker.Proofs.Collection.AssocList

/-! Two associations whose values list each other's keys, kept in step by edits
of both. -/

namespace MessageBroker

variable {κ : Type u} {ι : Type v} {ν : Type w} {μ : Type x} {σ : Type y}

section Mirrored

variable [DecidableEq κ] [DecidableEq ι]

/-- What a value on the left lists, the value there lists back, and the other
way round. -/
def Mirrored (left : AssocList κ ν) (right : AssocList ι μ)
    (lists : ν → ι → Prop) (listsBack : μ → κ → Prop) : Prop :=
  ∀ key other,
    left.Holds key (lists · other) ↔ right.Holds other (listsBack · key)

end Mirrored

namespace AssocList

variable [DecidableEq κ] {list : AssocList κ ν} {key other : κ}
  {lists : ν → ι → Prop}

theorem holds_modify_link {change : ν → ν} {item another : ι}
    (hpresent : list.contains key = true)
    (hlink : ∀ value another,
      lists (change value) another ↔ lists value another ∨ another = item) :
    (list.modify key change).Holds other (lists · another) ↔
      list.Holds other (lists · another) ∨ (other = key ∧ another = item) := by
  rw [holds_modify]
  by_cases hkey : other = key
  · subst hkey
    obtain ⟨value, hvalue⟩ := Option.isSome_iff_exists.mp hpresent
    simp [holds_iff_of_get? hvalue, hlink]
  · simp [hkey]

theorem holds_modify_unlink {change : ν → ν} {item another : ι}
    (hunlink : ∀ value another,
      lists (change value) another ↔ lists value another ∧ another ≠ item) :
    (list.modify key change).Holds other (lists · another) ↔
      list.Holds other (lists · another) ∧
        ¬ (other = key ∧ another = item) := by
  rw [holds_modify]
  by_cases hkey : other = key
  · subst hkey
    simp only [↓reduceIte, hunlink, true_and, Holds]
    constructor
    · rintro ⟨value, hvalue, hlisted, hne⟩
      exact ⟨⟨value, hvalue, hlisted⟩, hne⟩
    · rintro ⟨⟨value, hvalue, hlisted⟩, hne⟩
      exact ⟨value, hvalue, hlisted, hne⟩
  · simp [hkey]

/-- One item taken away under many keys, one after the other. Not every step
concerns the list in question. -/
theorem holds_foldl_unlink {target : σ → κ} {change : σ → ν → ν}
    {concerns : σ → Prop} {item another : ι} (steps : List σ)
    (hunlink : ∀ step value another, lists (change step value) another ↔
      lists value another ∧ ¬ (concerns step ∧ another = item)) :
    (steps.foldl (fun list step => list.modify (target step) (change step))
        list).Holds other (lists · another) ↔
      list.Holds other (lists · another) ∧
        ¬ (another = item ∧ ∃ step ∈ steps, target step = other ∧
          concerns step) := by
  induction steps generalizing list with
  | nil => simp
  | cons step rest ih =>
      rw [List.foldl_cons, ih]
      have hstep : (list.modify (target step) (change step)).Holds other
            (lists · another) ↔
          list.Holds other (lists · another) ∧
            ¬ (another = item ∧ target step = other ∧ concerns step) := by
        by_cases hconcerns : concerns step
        · have htaken : ∀ value another, lists (change step value) another ↔
              lists value another ∧ another ≠ item := by
            intro value another
            simp [hunlink, hconcerns]
          rw [holds_modify_unlink htaken]
          simp only [hconcerns, and_true]
          rw [and_comm (a := another = item), eq_comm (a := other)]
        · rw [holds_modify_of_iff]
          · simp [hconcerns]
          · intro value
            simp [hunlink, hconcerns]
      rw [hstep, and_assoc]
      apply and_congr_right
      intro _
      simp only [List.mem_cons, exists_eq_or_imp]
      rw [← not_or, ← and_or_left]

end AssocList

namespace Mirrored

variable [DecidableEq κ] [DecidableEq ι] {left : AssocList κ ν}
  {right : AssocList ι μ} {lists : ν → ι → Prop} {listsBack : μ → κ → Prop}

theorem symm (h : Mirrored left right lists listsBack) :
    Mirrored right left listsBack lists :=
  fun key other => (h other key).symm

theorem link (h : Mirrored left right lists listsBack) {key : κ} {other : ι}
    {change : ν → ν} {changeBack : μ → μ}
    (hkey : left.contains key = true) (hother : right.contains other = true)
    (hlink : ∀ value item,
      lists (change value) item ↔ lists value item ∨ item = other)
    (hlinkBack : ∀ value item,
      listsBack (changeBack value) item ↔ listsBack value item ∨ item = key) :
    Mirrored (left.modify key change) (right.modify other changeBack) lists
      listsBack := by
  intro someKey someOther
  rw [AssocList.holds_modify_link hkey hlink,
    AssocList.holds_modify_link hother hlinkBack, h someKey someOther,
    and_comm]

theorem unlink (h : Mirrored left right lists listsBack) {key : κ} {other : ι}
    {change : ν → ν} {changeBack : μ → μ}
    (hunlink : ∀ value item,
      lists (change value) item ↔ lists value item ∧ item ≠ other)
    (hunlinkBack : ∀ value item,
      listsBack (changeBack value) item ↔ listsBack value item ∧ item ≠ key) :
    Mirrored (left.modify key change) (right.modify other changeBack) lists
      listsBack := by
  intro someKey someOther
  rw [AssocList.holds_modify_unlink hunlink,
    AssocList.holds_modify_unlink hunlinkBack, h someKey someOther,
    and_comm (a := someKey = key)]

theorem modifyLeft (h : Mirrored left right lists listsBack) {key : κ}
    {change : ν → ν}
    (hsame : ∀ value item, lists (change value) item ↔ lists value item) :
    Mirrored (left.modify key change) right lists listsBack := by
  intro someKey someOther
  rw [AssocList.holds_modify_of_iff fun value => hsame value someOther]
  exact h someKey someOther

theorem modifyRight (h : Mirrored left right lists listsBack) {other : ι}
    {change : μ → μ}
    (hsame : ∀ value item, listsBack (change value) item ↔ listsBack value item) :
    Mirrored left (right.modify other change) lists listsBack :=
  (h.symm.modifyLeft hsame).symm

theorem modifyBoth (h : Mirrored left right lists listsBack) {key : κ}
    {other : ι} {change : ν → ν} {changeBack : μ → μ}
    (hsame : ∀ value item, lists (change value) item ↔ lists value item)
    (hsameBack : ∀ value item,
      listsBack (changeBack value) item ↔ listsBack value item) :
    Mirrored (left.modify key change) (right.modify other changeBack) lists
      listsBack :=
  (h.modifyLeft hsame).modifyRight hsameBack

theorem linkWhen (h : Mirrored left right lists listsBack) {key : κ}
    {other : ι} {change : ν → ν} {changeBack : μ → μ} {concerned : Prop}
    (hkey : left.contains key = true) (hother : right.contains other = true)
    (hlink : ∀ value item, lists (change value) item ↔
      lists value item ∨ (concerned ∧ item = other))
    (hlinkBack : ∀ value item, listsBack (changeBack value) item ↔
      listsBack value item ∨ (concerned ∧ item = key)) :
    Mirrored (left.modify key change) (right.modify other changeBack) lists
      listsBack := by
  by_cases hconcerned : concerned
  · apply h.link hkey hother
    · simpa [hconcerned] using hlink
    · simpa [hconcerned] using hlinkBack
  · apply h.modifyBoth
    · simpa [hconcerned] using hlink
    · simpa [hconcerned] using hlinkBack

theorem unlinkWhen (h : Mirrored left right lists listsBack) {key : κ}
    {other : ι} {change : ν → ν} {changeBack : μ → μ} {concerned : Prop}
    (hunlink : ∀ value item, lists (change value) item ↔
      lists value item ∧ ¬ (concerned ∧ item = other))
    (hunlinkBack : ∀ value item, listsBack (changeBack value) item ↔
      listsBack value item ∧ ¬ (concerned ∧ item = key)) :
    Mirrored (left.modify key change) (right.modify other changeBack) lists
      listsBack := by
  by_cases hconcerned : concerned
  · apply h.unlink
    · simpa [hconcerned] using hunlink
    · simpa [hconcerned] using hunlinkBack
  · apply h.modifyBoth
    · simpa [hconcerned] using hunlink
    · simpa [hconcerned] using hunlinkBack

theorem foldlLeft (h : Mirrored left right lists listsBack) {target : σ → κ}
    {change : σ → ν → ν} (steps : List σ)
    (hsame : ∀ step value item,
      lists (change step value) item ↔ lists value item) :
    Mirrored
      (steps.foldl (fun list step => list.modify (target step) (change step))
        left) right lists listsBack := by
  apply List.foldlRecOn
    (motive := fun list => Mirrored list right lists listsBack)
  · exact h
  · intro list hlist step _
    exact hlist.modifyLeft (hsame step)

theorem foldlRight (h : Mirrored left right lists listsBack) {target : σ → ι}
    {change : σ → μ → μ} (steps : List σ)
    (hsame : ∀ step value item,
      listsBack (change step value) item ↔ listsBack value item) :
    Mirrored left
      (steps.foldl (fun list step => list.modify (target step) (change step))
        right) lists listsBack :=
  (h.symm.foldlLeft steps hsame).symm

theorem replaceLeft (h : Mirrored left right lists listsBack) {key : κ}
    {value next : ν} (hvalue : left.get? key = some value)
    (hsame : ∀ item, lists next item ↔ lists value item) :
    Mirrored (left.modify key fun _ => next) right lists listsBack := by
  intro someKey someOther
  rw [AssocList.holds_modify_const_of_iff hvalue (hsame someOther)]
  exact h someKey someOther

theorem replaceRight (h : Mirrored left right lists listsBack) {other : ι}
    {value next : μ} (hvalue : right.get? other = some value)
    (hsame : ∀ item, listsBack next item ↔ listsBack value item) :
    Mirrored left (right.modify other fun _ => next) lists listsBack :=
  (h.symm.replaceLeft hvalue hsame).symm

theorem mapLeft (h : Mirrored left right lists listsBack) {change : ν → ν}
    (hsame : ∀ value item, lists (change value) item ↔ lists value item) :
    Mirrored (left.mapValues change) right lists listsBack := by
  intro someKey someOther
  rw [AssocList.holds_mapValues, ← h someKey someOther]
  simp only [hsame]

theorem mapRight (h : Mirrored left right lists listsBack) {change : μ → μ}
    (hsame : ∀ value item,
      listsBack (change value) item ↔ listsBack value item) :
    Mirrored left (right.mapValues change) lists listsBack :=
  (h.symm.mapLeft hsame).symm

theorem of_nothing (hleft : ∀ key other, ¬ left.Holds key (lists · other))
    (hright : ∀ key other, ¬ right.Holds other (listsBack · key)) :
    Mirrored left right lists listsBack := by
  intro key other
  exact iff_of_false (hleft key other) (hright key other)

theorem insertLeft (h : Mirrored left right lists listsBack) {key : κ}
    {value : ν} (hfresh : left.get? key = none)
    (hnothing : ∀ item, ¬ lists value item) :
    Mirrored (left.insert key value) right lists listsBack := by
  intro someKey someOther
  rw [AssocList.holds_insert]
  split
  · rename_i hkey
    subst hkey
    rw [← h someKey someOther]
    simp [hnothing, AssocList.not_holds_of_get? hfresh]
  · exact h someKey someOther

theorem insertRight (h : Mirrored left right lists listsBack) {other : ι}
    {value : μ} (hfresh : right.get? other = none)
    (hnothing : ∀ item, ¬ listsBack value item) :
    Mirrored left (right.insert other value) lists listsBack :=
  (h.symm.insertLeft hfresh hnothing).symm

theorem eraseLeft (h : Mirrored left right lists listsBack) {key : κ}
    {remaining : AssocList ι μ}
    (hremaining : ∀ other item, remaining.Holds other (listsBack · item) ↔
      right.Holds other (listsBack · item) ∧ item ≠ key) :
    Mirrored (left.erase key) remaining lists listsBack := by
  intro someKey someOther
  rw [AssocList.holds_erase, hremaining, h someKey someOther, and_comm]

theorem eraseRight (h : Mirrored left right lists listsBack) {other : ι}
    (hnothing : ∀ key, ¬ right.Holds other (listsBack · key)) :
    Mirrored left (right.erase other) lists listsBack := by
  intro someKey someOther
  rw [AssocList.holds_erase, h someKey someOther]
  constructor
  · intro hlisted
    refine ⟨?_, hlisted⟩
    rintro rfl
    exact hnothing someKey hlisted
  · exact And.right

/-- A key goes away together with every pair that it is in, which the other
side gives up step by step. -/
theorem drop (h : Mirrored left right lists listsBack) {key : κ}
    {target : σ → ι} {change : σ → μ → μ} (concerns : σ → Prop)
    (steps : List σ)
    (hunlink : ∀ step value item, listsBack (change step value) item ↔
      listsBack value item ∧ ¬ (concerns step ∧ item = key))
    (hcover : ∀ other, left.Holds key (lists · other) →
      ∃ step ∈ steps, target step = other ∧ concerns step) :
    Mirrored (left.erase key)
      (steps.foldl (fun list step => list.modify (target step) (change step))
        right) lists listsBack := by
  apply h.eraseLeft
  intro other item
  rw [AssocList.holds_foldl_unlink steps hunlink]
  constructor
  · rintro ⟨hlisted, hgone⟩
    refine ⟨hlisted, ?_⟩
    rintro rfl
    exact hgone ⟨rfl, hcover other ((h item other).mpr hlisted)⟩
  · rintro ⟨hlisted, hne⟩
    exact ⟨hlisted, fun hgone => hne hgone.1⟩

theorem dropKey (h : Mirrored left right lists listsBack) {key : κ}
    {target : σ → ι} {change : σ → μ → μ} (steps : List σ)
    (hforget : ∀ step value item,
      listsBack (change step value) item ↔ listsBack value item ∧ item ≠ key)
    (hcover : ∀ other, left.Holds key (lists · other) →
      ∃ step ∈ steps, target step = other) :
    Mirrored (left.erase key)
      (steps.foldl (fun list step => list.modify (target step) (change step))
        right) lists listsBack := by
  refine h.drop (fun _ => True) steps ?_ ?_
  · intro step value item
    rw [hforget, true_and]
  · intro other hlisted
    obtain ⟨step, hstep, htarget⟩ := hcover other hlisted
    exact ⟨step, hstep, htarget, trivial⟩

end Mirrored

end MessageBroker
