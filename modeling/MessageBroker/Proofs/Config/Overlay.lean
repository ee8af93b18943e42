import MessageBroker.Config.Text
import MessageBroker.Proofs.Json.Quoted
import MessageBroker.Proofs.Json.Reading

/-! A configuration as a text lies over the defaults: what the text lists is
replaced, and nothing else. -/

namespace MessageBroker.Config

open Json (Piece Value Spells Written)

variable {base config : Config} {field : Field} {fields : List Field}
  {value : Value} {key : List Piece} {members : List (List Piece × Value)}
  {settings : List (Field × Value)}

def overlay (base config : Config) (fields : List Field) : Config :=
  let source := fun field => if field ∈ fields then config else base
  { maxMessageSize := (source .maxMessageSize).maxMessageSize
    maxQueueMessages := (source .maxQueueMessages).maxQueueMessages
    channelMaxMessageSize := (source .channelMaxMessageSize).channelMaxMessageSize
    mailboxCapacity := (source .mailboxCapacity).mailboxCapacity
    snapshotPath := (source .snapshotPath).snapshotPath
    saveIntervalSecs := (source .saveIntervalSecs).saveIntervalSecs }

def Holds (config : Config) (field : Field) (value : Value) : Prop :=
  match field with
  | .maxMessageSize => Json.IsNatural config.maxMessageSize.toNat value
  | .maxQueueMessages => Json.IsNatural config.maxQueueMessages.toNat value
  | .channelMaxMessageSize =>
      Json.IsNatural config.channelMaxMessageSize.toNat value
  | .mailboxCapacity => Json.IsNatural config.mailboxCapacity.toNat value
  | .snapshotPath => Json.IsText config.snapshotPath value
  | .saveIntervalSecs => Json.IsNatural config.saveIntervalSecs.toNat value

/-- The members are these fields of the configuration, and any others between
them that are not fields. -/
inductive Lists (config : Config) :
    List Field → List (List Piece × Value) → Prop
  | nil : Lists config [] []
  | field {field : Field} {fields : List Field} {key : List Piece}
      {value : Value} {members : List (List Piece × Value)}
      (hkey : Spells key field.name.toList) (hvalue : config.Holds field value)
      (hrest : Lists config fields members) :
      Lists config (field :: fields) ((key, value) :: members)
  | other {name : String} {fields : List Field} {key : List Piece}
      {value : Value} {members : List (List Piece × Value)}
      (hkey : Spells key name.toList) (hname : ∀ field, Field.name field ≠ name)
      (hrest : Lists config fields members) :
      Lists config fields ((key, value) :: members)

theorem overlay_nil (base config : Config) : base.overlay config [] = base := by
  simp [overlay]

theorem overlay_cons (base config : Config) (field : Field)
    (fields : List Field) :
    (base.overlay config [field]).overlay config fields =
      base.overlay config (field :: fields) := by
  simp only [overlay, List.mem_cons, List.not_mem_nil, or_false, mk.injEq]
  refine ⟨?_, ?_, ?_, ?_, ?_, ?_⟩ <;> split <;> rename_i hmem <;> simp [hmem]

theorem overlay_all (base config : Config) :
    base.overlay config Field.all = config := by
  simp [overlay, Field.all]

theorem Field.ofName?_name (field : Field) : ofName? field.name = some field := by
  cases field <;> decide

theorem Field.ofName?_eq_none {name : String}
    (h : ∀ field, Field.name field ≠ name) : ofName? name = none := by
  unfold ofName?
  rw [List.find?_eq_none]
  intro field _
  simp [h field]

def setting? (member : List Piece × Value) : Option (Field × Value) :=
  (Json.textOf? member.1).bind fun name =>
    (Field.ofName? name).map fun field => (field, member.2)

theorem settings?_cons (member : List Piece × Value)
    (members : List (List Piece × Value)) :
    settings? (member :: members) =
      (Json.textOf? member.1).bind fun _ =>
        (settings? members).map fun settings =>
          (setting? member).toList ++ settings := by
  unfold settings? setting?
  rw [List.mapM_cons]
  cases Json.textOf? member.1 with
  | none => rfl
  | some name =>
      cases members.mapM fun member => Json.textOf? member.1 with
      | none => rfl
      | some names => cases hname : Field.ofName? name <;> simp [hname]

theorem setAll?_cons (config : Config) (setting : Field × Value)
    (settings : List (Field × Value)) :
    config.setAll? (setting :: settings) =
      (config.set? setting.1 setting.2).bind fun config =>
        config.setAll? settings :=
  List.foldlM_cons ..

theorem uint32?_of_isNatural {number : UInt32}
    (h : Json.IsNatural number.toNat value) : uint32? value = some number := by
  rw [uint32?, Json.toNatBelow?_of_isNatural h number.toNat_lt, Option.map_some,
    UInt32.ofNat_toNat]

theorem uint64?_of_isNatural {number : UInt64}
    (h : Json.IsNatural number.toNat value) : uint64? value = some number := by
  rw [uint64?, Json.toNatBelow?_of_isNatural h number.toNat_lt, Option.map_some,
    UInt64.ofNat_toNat]

theorem set?_of_holds (base : Config) (h : config.Holds field value) :
    base.set? field value = some (base.overlay config [field]) := by
  cases field with
  | maxMessageSize | maxQueueMessages | channelMaxMessageSize =>
      simp [set?, uint32?_of_isNatural h, overlay]
  | mailboxCapacity | saveIntervalSecs =>
      simp [set?, uint64?_of_isNatural h, overlay]
  | snapshotPath => simp [set?, Json.toText?_of_isText h, overlay]

theorem settings?_of_lists (h : config.Lists fields members) :
    ∃ settings, settings? members = some settings ∧
      settings.map Prod.fst = fields ∧
      ∀ base : Config, base.setAll? settings =
        some (base.overlay config fields) := by
  induction h with
  | nil =>
      refine ⟨[], rfl, rfl, fun base => ?_⟩
      rw [overlay_nil]
      rfl
  | @field field fields key value members hkey hvalue hrest ih =>
      obtain ⟨settings, hsettings, hfields, hset⟩ := ih
      have hsetting : setting? (key, value) = some (field, value) := by
        simp [setting?, Json.textOf?_of_spells hkey, Field.ofName?_name]
      refine ⟨(field, value) :: settings, ?_, ?_, fun base => ?_⟩
      · rw [settings?_cons, hsettings, hsetting, Json.textOf?_of_spells hkey]
        rfl
      · rw [List.map_cons, hfields]
      · rw [setAll?_cons, set?_of_holds base hvalue, Option.bind_some, hset,
          overlay_cons]
  | @other name fields key value members hkey hname hrest ih =>
      obtain ⟨settings, hsettings, hfields, hset⟩ := ih
      have hsetting : setting? (key, value) = none := by
        simp [setting?, Json.textOf?_of_spells hkey, Field.ofName?_eq_none hname]
      refine ⟨settings, ?_, hfields, hset⟩
      rw [settings?_cons, hsettings, hsetting, Json.textOf?_of_spells hkey]
      rfl

theorem eq_filterMap_of_settings? (h : settings? members = some settings) :
    settings = members.filterMap setting? := by
  induction members generalizing settings with
  | nil =>
      cases h
      rfl
  | cons member members ih =>
      rw [settings?_cons] at h
      obtain ⟨name, hname, h⟩ := Option.bind_eq_some_iff.mp h
      obtain ⟨rest, hrest, rfl⟩ := Option.map_eq_some_iff.mp h
      rw [List.filterMap_cons, ← ih hrest]
      cases setting? member <;> rfl

theorem parse_of_lists {text : String} (hfields : fields.Nodup)
    (hwritten : Written (.item (.object members)) text.toList)
    (hlists : config.Lists fields members) :
    parse text = (default.overlay config fields).validate := by
  obtain ⟨settings, hsettings, rfl, hset⟩ := settings?_of_lists hlists
  unfold parse
  rw [Json.parse?_of_written hwritten, Option.bind_some, ofJson?, hsettings,
    Option.bind_some, if_pos hfields, hset]

/-- Two members for one field are refused, whatever their values are. -/
theorem ofJson?_of_repeated {first second : List Piece × Value}
    (hmembers : [first, second].Sublist members)
    (hfirst : Spells first.1 field.name.toList)
    (hsecond : Spells second.1 field.name.toList) :
    ofJson? (.object members) = none := by
  simp only [ofJson?]
  rw [Option.bind_eq_none_iff]
  intro settings hsettings
  have hsublist := (hmembers.filterMap setting?).map Prod.fst
  rw [← eq_filterMap_of_settings? hsettings] at hsublist
  have hrepeated : ([first, second].filterMap setting?).map Prod.fst =
      [field, field] := by
    simp [setting?, Json.textOf?_of_spells hfirst,
      Json.textOf?_of_spells hsecond, Field.ofName?_name]
  rw [hrepeated] at hsublist
  rw [if_neg fun hnodup => absurd (hsublist.nodup hnodup) (by simp)]

theorem parse_of_repeated {text : String} {first second : List Piece × Value}
    (hwritten : Written (.item (.object members)) text.toList)
    (hmembers : [first, second].Sublist members)
    (hfirst : Spells first.1 field.name.toList)
    (hsecond : Spells second.1 field.name.toList) :
    parse text = .error .malformed := by
  unfold parse
  rw [Json.parse?_of_written hwritten, Option.bind_some,
    ofJson?_of_repeated hmembers hfirst hsecond]

theorem exists_value (config : Config) (field : Field) :
    ∃ value, config.Holds field value ∧
      Written (.value value) (config.fieldText field).toList := by
  cases field with
  | snapshotPath =>
      obtain ⟨pieces, inner, hquote, hpieces, hspells⟩ :=
        Json.exists_quote config.snapshotPath
      refine ⟨.text pieces, ⟨pieces, rfl, hspells⟩, ?_⟩
      rw [fieldText, hquote]
      exact .text hpieces
  | _ => exact ⟨_, rfl, .number (Json.numberText_toString _)⟩

def memberText (config : Config) (field : Field) : String :=
  Json.quote field.name ++ ":" ++ config.fieldText field

theorem exists_member (config : Config) (field : Field) :
    ∃ member : List Piece × Value,
      Spells member.1 field.name.toList ∧ config.Holds field member.2 ∧
      Written (.member member) (config.memberText field).toList := by
  obtain ⟨pieces, inner, hquote, hpieces, hspells⟩ :=
    Json.exists_quote field.name
  obtain ⟨value, hvalue, hwritten⟩ := config.exists_value field
  refine ⟨(pieces, value), hspells, hvalue, ?_⟩
  have hmember := Written.denseMember hpieces hwritten
  simpa [memberText, hquote] using hmember

theorem exists_members (config : Config) (hnonempty : fields ≠ []) :
    ∃ members, config.Lists fields members ∧
      Written (.members members)
        (",".intercalate (fields.map config.memberText)).toList := by
  rw [String.toList_intercalate, List.map_map]
  change ∃ members, _ ∧ Written (.members members) ([','].intercalate _)
  induction fields with
  | nil => exact absurd rfl hnonempty
  | cons field fields ih =>
      obtain ⟨member, hname, hvalue, hmember⟩ := config.exists_member field
      cases fields with
      | nil =>
          refine ⟨[member], .field hname hvalue .nil, ?_⟩
          rw [List.map_cons, List.map_nil, List.intercalate_singleton]
          exact .lastMember hmember
      | cons next fields =>
          obtain ⟨members, hlists, hmembers⟩ := ih (List.cons_ne_nil next fields)
          refine ⟨member :: members, .field hname hvalue hlists, ?_⟩
          rw [List.map_cons, List.map_cons, List.intercalate_cons_cons,
            List.append_assoc, List.singleton_append]
          exact .nextMember hmember hmembers

theorem parse_toText (config : Config) :
    parse config.toText = config.validate := by
  have hall : Field.all ≠ [] := by decide
  obtain ⟨members, hlists, hmembers⟩ := config.exists_members hall
  have htext : config.toText.toList = '\x7b' :: ((",".intercalate
      (Field.all.map config.memberText)).toList ++ ['\x7d']) := by
    rw [toText, String.toList_append, String.toList_append]
    rfl
  have hitem := (Written.object hmembers).dense
  rw [← htext] at hitem
  rw [parse_of_lists (by decide) hitem hlists, overlay_all]

theorem validate_of_fault?_eq_none (h : config.fault? = none) :
    config.validate = .ok config := by
  rw [validate, h]

/-- A text that lists fields of a configuration in any order, each once and with
anything else between them, gives the defaults with these fields replaced, as long
as they are valid together. A field that is listed again makes the text malformed.
Whatever a valid configuration is, its text gives it back. -/
theorem parse_overlays :
    (∀ (config : Config) (fields : List Field)
      (members : List (List Piece × Value)) (text : String),
      fields.Nodup → config.Lists fields members →
      Written (.item (.object members)) text.toList →
        parse text = (default.overlay config fields).validate) ∧
    (∀ (members : List (List Piece × Value)) (text : String) (field : Field)
      (first second : List Piece × Value),
      Written (.item (.object members)) text.toList →
      [first, second].Sublist members →
      Spells first.1 field.name.toList → Spells second.1 field.name.toList →
        parse text = .error .malformed) ∧
    ∀ config : Config, config.fault? = none →
      parse config.toText = .ok config := by
  refine ⟨?listed, ?repeated, ?returned⟩
  case listed =>
    intro config fields members text hfields hlists hwritten
    exact parse_of_lists hfields hwritten hlists
  case repeated =>
    intro members text field first second hwritten hmembers hfirst hsecond
    exact parse_of_repeated hwritten hmembers hfirst hsecond
  case returned =>
    intro config hvalid
    rw [parse_toText, validate_of_fault?_eq_none hvalid]

/-- A path and a limit, of which only the path gets into the text. -/
def relocated : Config :=
  { default with snapshotPath := "é", maxQueueMessages := 0 }

def relocatedText : String :=
  "\x7b\"x\" : [null],\"snapshot_path\":\"\\u00E9\"\x7d"

def relocatedMembers : List (List Piece × Value) := [
  ("x".toList.map .char, .array [.null]),
  ("snapshot_path".toList.map .char, .text [.unit 233])]

theorem relocated_lists : relocated.Lists [.snapshotPath] relocatedMembers := by
  have hother : ∀ field, Field.name field ≠ "x" := by
    intro field
    cases field <;> decide
  have hpath : Spells [.unit 233] "é".toList := .unit (c := 'é') .nil
  exact .other (Json.spells_chars "x".toList) hother
    (.field (Json.spells_chars "snapshot_path".toList) ⟨_, rfl, hpath⟩ .nil)

theorem relocated_written :
    Written (.item (.object relocatedMembers)) relocatedText.toList := by
  have hblank : Json.Blank [' '] := by simp [Json.Blank]
  have hother := Written.member Json.blank_nil
    (Json.piecesText_chars "x".toList (by simp)) hblank
    (.item hblank (.array (.lastItem Written.null.dense)) Json.blank_nil)
  have hzero : Json.IsHexDigit '0' 0 := ⟨by decide, .inl rfl⟩
  have hpath : Json.PiecesText [.unit 233] "\\u00E9".toList :=
    .unit (c := 14) (d := 9) hzero hzero ⟨by decide, .inr rfl⟩
      ⟨by decide, .inl rfl⟩ .nil
  have hfield := Written.denseMember
    (Json.piecesText_chars "snapshot_path".toList (by simp))
    (.text hpath)
  exact (Written.object (.nextMember hother (.lastMember hfield))).dense

def repeatedText : String :=
  "\x7b\"mailbox_capacity\":null,\"mailbox_capacity\":true\x7d"

def repeatedMembers : List (List Piece × Value) := [
  ("mailbox_capacity".toList.map .char, .null),
  ("mailbox_capacity".toList.map .char, .boolean true)]

theorem repeated_written :
    Written (.item (.object repeatedMembers)) repeatedText.toList := by
  have hname := Json.piecesText_chars "mailbox_capacity".toList (by simp)
  exact (Written.object (.nextMember (.denseMember hname .null)
    (.lastMember (.denseMember hname .true)))).dense

theorem parse_overlays_relocated :
    parse relocatedText = .ok { default with snapshotPath := "é" } ∧
      parse repeatedText = .error .malformed ∧
      parse (toText default) = .ok default :=
  ⟨parse_overlays.1 relocated [.snapshotPath] relocatedMembers relocatedText
      (by decide) relocated_lists relocated_written,
    parse_overlays.2.1 repeatedMembers repeatedText .mailboxCapacity _ _
      repeated_written (List.Sublist.refl _) (Json.spells_chars _)
      (Json.spells_chars _),
    parse_overlays.2.2 default (by decide)⟩

end MessageBroker.Config
