import MessageBroker.Time

/-! Delivery tags and the clock that stamps them. -/

namespace MessageBroker

structure Tag where
  value : UInt64
  deriving DecidableEq

namespace Tag

def toNat (tag : Tag) : Nat :=
  tag.value.toNat

theorem toNat_inj {first second : Tag} :
    first.toNat = second.toNat ↔ first = second := by
  constructor
  · intro h
    cases first
    cases second
    exact congrArg Tag.mk (UInt64.toNat_inj.mp h)
  · rintro rfl
    rfl

instance : LT Tag := ⟨fun first second => first.toNat < second.toNat⟩

instance : LE Tag := ⟨fun first second => first.toNat ≤ second.toNat⟩

instance (first second : Tag) : Decidable (first < second) :=
  inferInstanceAs (Decidable (first.toNat < second.toNat))

instance (first second : Tag) : Decidable (first ≤ second) :=
  inferInstanceAs (Decidable (first.toNat ≤ second.toNat))

/-- The low 32 bits of a clock reading, followed by a 32-bit counter. -/
def compose (millis : UInt64) (counter : UInt32) : Tag :=
  ⟨millis * 4294967296 + counter.toUInt64⟩

/-- The clock reading a tag was composed from, in its low 32 bits. -/
def millis (tag : Tag) : UInt64 :=
  tag.value / 4294967296

def counter (tag : Tag) : UInt32 :=
  tag.value.toUInt32

/-- The tag after this one, wrapping around at the last. -/
def next (tag : Tag) : Tag :=
  ⟨tag.value + 1⟩

theorem toNat_compose (millis : UInt64) (counter : UInt32) :
    (compose millis counter).toNat =
      millis.toNat % UInt32.size * UInt32.size + counter.toNat := by
  have hcounter : counter.toNat < UInt32.size := counter.toNat_lt
  simp only [compose, toNat, UInt64.toNat_add, UInt64.toNat_mul,
    UInt32.toNat_toUInt64]
  have hfactor : (4294967296 : UInt64).toNat = UInt32.size := rfl
  rw [hfactor]
  simp only [UInt32.size] at *
  omega

theorem toNat_millis (tag : Tag) :
    tag.millis.toNat = tag.toNat / UInt32.size := by
  simp only [millis, toNat, UInt64.toNat_div]
  rfl

theorem toNat_counter (tag : Tag) :
    tag.counter.toNat = tag.toNat % UInt32.size := by
  simp [counter, toNat, UInt32.size]

end Tag

/-- Time as the broker sees it, with the tags stamped so far. -/
structure TagClock where
  now : Timestamp
  /-- Tags stamped since the clock last moved. -/
  counter : UInt32
  lastTag : Option Tag
  deriving DecidableEq

namespace TagClock

def start (now : Timestamp) : TagClock where
  now := now
  counter := 0
  lastTag := none

def advance (clock : TagClock) (now : Timestamp) : TagClock :=
  { clock with now := now, counter := 0 }

/-- The tag that the clock reading and the counter alone would give. -/
def rawTag (clock : TagClock) : Tag :=
  Tag.compose clock.now.millis clock.counter

/-- The raw tag where it lies above the last one, and the successor of the last
one where the clock has not moved on. -/
def nextTag (clock : TagClock) : Tag :=
  match clock.lastTag with
  | none => clock.rawTag
  | some last => if clock.rawTag ≤ last then last.next else clock.rawTag

def stamped (clock : TagClock) : TagClock :=
  { clock with counter := clock.counter + 1, lastTag := some clock.nextTag }

/-- So many tags one after another, and the clock after them. -/
def nextTags : TagClock → Nat → List Tag × TagClock
  | clock, 0 => ([], clock)
  | clock, count + 1 =>
      let (tags, last) := nextTags clock.stamped count
      (clock.nextTag :: tags, last)

@[simp] theorem now_start (now : Timestamp) : (start now).now = now := rfl

@[simp] theorem now_advance (clock : TagClock) (now : Timestamp) :
    (clock.advance now).now = now := rfl

@[simp] theorem now_stamped (clock : TagClock) :
    clock.stamped.now = clock.now := rfl

@[simp] theorem lastTag_stamped (clock : TagClock) :
    clock.stamped.lastTag = some clock.nextTag := rfl

end TagClock

end MessageBroker
