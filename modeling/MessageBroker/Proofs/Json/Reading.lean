import MessageBroker.Proofs.Json.Tokens

/-! Every text that is written by the grammar is read as the value that it was
written for, however deep that is. -/

namespace MessageBroker.Json

variable {chars rest gap : List Char} {first middle last : Reading}

theorem isBlank_of_mem {c : Char} (h : c ∈ [' ', '\t', '\n', '\r']) :
    isBlank c = true := by
  simp only [List.mem_cons, List.not_mem_nil, or_false] at h
  rcases h with rfl | rfl | rfl | rfl <;> rfl

theorem readToken?_blank {c : Char} (h : isBlank c = true) (chars : List Char) :
    readToken? (c :: chars) = none := by
  simp only [isBlank, Bool.or_eq_true, beq_iff_eq, or_assoc] at h
  rcases h with rfl | rfl | rfl | rfl <;>
    simp [readToken?, readNumber?, readMagnitude?]

def followers : List Char :=
  [' ', '\t', '\n', '\r', ',', ']', '\x7d']

theorem delimited_cons {c : Char} (hc : c ∈ followers) (rest : List Char) :
    Delimited (c :: rest) := by
  intro d hd
  cases hd
  simp only [followers, List.mem_cons, List.not_mem_nil, or_false] at hc
  rcases hc with rfl | rfl | rfl | rfl | rfl | rfl | rfl <;> decide

theorem delimited_blank (hgap : Blank gap) (hrest : Delimited rest) :
    Delimited (gap ++ rest) := by
  cases gap with
  | nil => exact hrest
  | cons c gap =>
      have hc := hgap c List.mem_cons_self
      exact delimited_cons (List.mem_append_left [',', ']', '\x7d'] hc) _

namespace Reading

/-- Where a reading gets with the characters that come next. -/
def advance (reading : Reading) (chars : List Char) : Option Reading :=
  (tokens? chars).bind fun tokens => tokens.foldlM step reading

theorem advance_blank (hgap : Blank gap) (reading : Reading)
    (rest : List Char) :
    reading.advance (gap ++ rest) = reading.advance rest := by
  induction gap with
  | nil => rfl
  | cons c gap ih =>
      have hblank := isBlank_of_mem (hgap c List.mem_cons_self)
      rw [← ih fun d hd => hgap d (List.mem_cons_of_mem c hd), List.cons_append]
      unfold advance
      rw [tokens?, if_pos hblank]

theorem advance_token {token : Token}
    (hread : readToken? chars = some (token, rest))
    (hstep : first.step token = some last) :
    first.advance chars = last.advance rest := by
  cases chars with
  | nil => cases hread
  | cons c chars =>
      have hblank : ¬isBlank c = true := by
        intro hblank
        rw [readToken?_blank hblank] at hread
        cases hread
      unfold advance
      rw [tokens?, if_neg hblank]
      split
      · rename_i hnone
        rw [hread] at hnone
        cases hnone
      · rename_i hsome
        rw [hread] at hsome
        cases hsome
        cases tokens? rest with
        | none => rfl
        | some tokens => simp [hstep]

/-- The characters lead from one state to another, whatever follows, as long as
it is no part of a number. -/
def Leads (first : Reading) (chars : List Char) (last : Reading) : Prop :=
  ∀ rest, Delimited rest → first.advance (chars ++ rest) = last.advance rest

namespace Leads

theorem refl (reading : Reading) : reading.Leads [] reading :=
  fun _ _ => rfl

theorem blank (hgap : Blank gap) (h : first.Leads chars last) :
    first.Leads (gap ++ chars) last := by
  intro rest hrest
  rw [List.append_assoc, advance_blank hgap]
  exact h rest hrest

theorem sign {c : Char} {token : Token}
    (hread : ∀ rest, readToken? (c :: rest) = some (token, rest))
    (hstep : first.step token = some middle) (h : middle.Leads chars last) :
    first.Leads (c :: chars) last := by
  intro rest hrest
  rw [List.cons_append, advance_token (hread _) hstep]
  exact h rest hrest

theorem text {pieces : List Piece} {inner : List Char}
    (hpieces : PiecesText pieces inner)
    (hstep : first.step (.text pieces) = some middle)
    (h : middle.Leads chars last) :
    first.Leads ('"' :: (inner ++ '"' :: chars)) last := by
  intro rest hrest
  have hread : readToken? ('"' :: (inner ++ '"' :: (chars ++ rest))) =
      some (.text pieces, chars ++ rest) := by
    rw [readToken?, readPieces?_of_piecesText hpieces]
    rfl
  rw [List.cons_append, List.append_assoc, List.cons_append,
    advance_token hread hstep]
  exact h rest hrest

theorem trans {c : Char} {others : List Char} (hc : c ∈ followers)
    (hfirst : first.Leads chars middle)
    (hlast : middle.Leads (c :: others) last) :
    first.Leads (chars ++ c :: others) last := by
  intro rest hrest
  rw [List.append_assoc, List.cons_append,
    hfirst _ (delimited_cons hc (others ++ rest))]
  exact hlast rest hrest

end Leads

/-- A state in which a value can begin, with these brackets open around it. -/
def Opens (reading : Reading) (stack : List Frame) : Prop :=
  ∀ token next, enter stack token = some next → reading.step token = some next

/-- A state in which a member can begin, after these of the same object. -/
def Names (reading : Reading) (members : List (List Piece × Value))
    (stack : List Frame) : Prop :=
  ∀ key, reading.step (.text key) = some ⟨.key members key, stack⟩

theorem opens_start (stack : List Frame) : Opens ⟨.start, stack⟩ stack :=
  fun _ _ h => h

theorem opens_arrayOpened (stack : List Frame) :
    Opens ⟨.arrayOpened, stack⟩ (.array [] :: stack) := by
  intro token next h
  cases token with
  | closeArray => cases h
  | _ => exact h

theorem names_objectOpened (stack : List Frame) :
    Names ⟨.objectOpened, stack⟩ [] stack :=
  fun _ => rfl

theorem names_members (members : List (List Piece × Value))
    (stack : List Frame) : Names ⟨.members members, stack⟩ members stack :=
  fun _ => rfl

end Reading

open Reading

/-- What reading a phrase comes to. Items and members are read up to the bracket
that closes them. -/
def Read : Phrase → List Char → Prop
  | .value value, chars | .item value, chars =>
      ∀ (reading : Reading) stack, reading.Opens stack →
        reading.Leads chars ⟨.complete value, stack⟩
  | .items values, chars =>
      ∀ (reading : Reading) stack before, reading.Opens (.array before :: stack) →
        reading.Leads (chars ++ [']'])
          ⟨.complete (.array (before.reverse ++ values)), stack⟩
  | .member (name, value), chars =>
      ∀ (reading : Reading) stack before, reading.Names before stack →
        reading.Leads chars ⟨.complete value, .object before name :: stack⟩
  | .members members, chars =>
      ∀ (reading : Reading) stack before, reading.Names before stack →
        reading.Leads (chars ++ ['\x7d'])
          ⟨.complete (.object (before.reverse ++ members)), stack⟩

theorem read_of_written {phrase : Phrase} (h : Written phrase chars) :
    Read phrase chars := by
  induction h with
  | null | true | false =>
      intro reading stack hopens rest hrest
      exact advance_token rfl (hopens _ _ rfl)
  | number hliteral =>
      intro reading stack hopens rest hrest
      have hread := readToken?_of_readNumber? (readNumber?_append hliteral hrest)
      exact advance_token hread (hopens _ _ rfl)
  | text hpieces =>
      intro reading stack hopens
      exact .text hpieces (hopens _ _ rfl) (.refl _)
  | emptyArray hgap =>
      intro reading stack hopens
      exact .sign (fun _ => rfl) (hopens _ _ rfl)
        (.blank hgap (.sign (fun _ => rfl) rfl (.refl _)))
  | array hitems ih =>
      intro reading stack hopens
      exact .sign (fun _ => rfl) (hopens _ _ rfl)
        (ih _ _ [] (opens_arrayOpened stack))
  | emptyObject hgap =>
      intro reading stack hopens
      exact .sign (fun _ => rfl) (hopens _ _ rfl)
        (.blank hgap (.sign (fun _ => rfl) rfl (.refl _)))
  | object hmembers ih =>
      intro reading stack hopens
      exact .sign (fun _ => rfl) (hopens _ _ rfl)
        (ih _ _ [] (names_objectOpened stack))
  | item hbefore hvalue hafter ih =>
      intro reading stack hopens
      refine .blank hbefore fun rest hrest => ?_
      rw [List.append_assoc, ih _ _ hopens _ (delimited_blank hafter hrest),
        advance_blank hafter]
  | @lastItem value chars hitem ih =>
      intro reading stack before hopens
      have hclose : step ⟨.complete value, .array before :: stack⟩ .closeArray =
          some ⟨.complete (.array (before.reverse ++ [value])), stack⟩ := by
        rw [step, List.reverse_cons]
      exact .trans (by decide) (ih _ _ hopens)
        (.sign (fun _ => rfl) hclose (.refl _))
  | @nextItem value values chars rest hitem hitems ihitem ihitems =>
      intro reading stack before hopens
      -- The item joins those before it, of which the frame has the last first.
      have hlast := ihitems _ stack (value :: before) (opens_start _)
      rw [List.reverse_cons, List.append_assoc, List.singleton_append] at hlast
      rw [List.append_assoc, List.cons_append]
      exact .trans (by decide) (ihitem _ _ hopens)
        (.sign (fun _ => rfl) rfl hlast)
  | member hbefore hname hafter hvalue ih =>
      intro reading stack before hnames
      exact .blank hbefore (.text hname (hnames _) (.blank hafter
        (.sign (fun _ => rfl) rfl (ih _ _ (opens_start _)))))
  | @lastMember member chars hmember ih =>
      intro reading stack before hnames
      have hclose : step ⟨.complete member.2, .object before member.1 :: stack⟩
          .closeObject =
            some ⟨.complete (.object (before.reverse ++ [member])), stack⟩ := by
        rw [step, List.reverse_cons]
      exact .trans (by decide) (ih _ _ _ hnames)
        (.sign (fun _ => rfl) hclose (.refl _))
  | @nextMember member members chars rest hmember hmembers ihmember ihmembers =>
      intro reading stack before hnames
      have hlast := ihmembers _ stack (member :: before) (names_members _ _)
      rw [List.reverse_cons, List.append_assoc, List.singleton_append] at hlast
      rw [List.append_assoc, List.cons_append]
      exact .trans (by decide) (ihmember _ _ _ hnames)
        (.sign (fun _ => rfl) rfl hlast)

theorem parse?_of_written {value : Value} {text : String}
    (h : Written (.item value) text.toList) : parse? text = some value := by
  have hread := read_of_written h ⟨.start, []⟩ [] (opens_start []) [] nofun
  rw [List.append_nil] at hread
  have hend : advance ⟨.complete value, []⟩ [] =
      some ⟨.complete value, []⟩ := by
    simp [advance, tokens?]
  have hparse : parse? text =
      (advance ⟨.start, []⟩ text.toList).bind finished? := by
    unfold parse? advance
    rw [Option.bind_assoc]
  rw [hparse, hread, hend]
  rfl

end MessageBroker.Json
