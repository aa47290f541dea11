import ScriptSense.Proofs.Schema.Written
import ScriptSense.Record.ClassRecord

/-! Class records that are written and read again. A written record holds each field under its usual
key, and none of the keys that are rewritten before reading; so reading gives the record back. Main
statement: what is read from data is written as data without null, and read from there as the same
record; writing what was read is therefore idempotent. -/
namespace ScriptSense

open Schema Value

/-! ## Places -/

namespace Position

def fields (p : Position) : List (Key × Option Value) :=
  [(.plain "line", some (.int p.line)), (.plain "column", some (.int p.column)),
    (.plain "index", some (.int p.index))]

theorem toValue_eq (p : Position) : p.toValue = .map (written p.fields) := rfl

theorem separate_fields (p : Position) : Separate p.fields := by
  simp [Separate, fields, Key.apart_iff, Key.plain]

theorem undoes : Undoes decode toValue where
  decode_write p := by
    rw [toValue_eq]
    have hf := Key.find?_written p.separate_fields
    simp only [fields, List.forall_mem_cons] at hf
    obtain ⟨hline, hcolumn, hindex, _⟩ := hf
    refine Checked.ok_seq (Checked.ok_seq (Checked.ok_map ?_) ?_) ?_
    · exact required_of_find? hline rfl
    · exact required_of_find? hcolumn rfl
    · exact required_of_find? hindex rfl
  isFull p := by
    rw [toValue_eq]
    refine isFull_written p.separate_fields ?_
    simp [fields, undoes_integer.isFull]

end Position

namespace Span

def fields (s : Span) : List (Key × Option Value) :=
  [(.plain "start", some s.start.toValue), (.plain "end", some s.stop.toValue)]

theorem toValue_eq (s : Span) : s.toValue = .map (written s.fields) := rfl

theorem separate_fields (s : Span) : Separate s.fields := by
  simp [Separate, fields, Key.apart_iff, Key.plain]

theorem undoes : Undoes decode toValue where
  decode_write s := by
    rw [toValue_eq]
    have hf := Key.find?_written s.separate_fields
    simp only [fields, List.forall_mem_cons] at hf
    obtain ⟨hstart, hstop, _⟩ := hf
    refine Checked.ok_seq (Checked.ok_map ?_) ?_
    · exact required_of_find? hstart (Position.undoes.decode_write s.start)
    · exact required_of_find? hstop (Position.undoes.decode_write s.stop)
  isFull s := by
    rw [toValue_eq]
    refine isFull_written s.separate_fields ?_
    simp [fields, Position.undoes.isFull]

end Span

/-! ## Documentation -/

namespace ParamDoc

def fields (p : ParamDoc) : List (Key × Option Value) :=
  [(⟨"paramName", "param_name"⟩, some (.str p.name)), (.plain "type", p.type.map .str),
    (.plain "description", p.description.map .str)]

theorem toValue_eq (p : ParamDoc) : p.toValue = .map (written p.fields) := rfl

theorem separate_fields (p : ParamDoc) : Separate p.fields := by
  simp [Separate, fields, Key.apart_iff, Key.plain]

theorem withDescription_written (p : ParamDoc) :
    withDescription (written p.fields) = written p.fields := by
  have hd : (written p.fields).get? "desc" = none :=
    get?_written_eq_none (by simp [fields, Key.plain])
  rw [withDescription, hd]
  split <;> rfl

theorem undoes : Undoes decode toValue where
  decode_write p := by
    rw [toValue_eq]
    have hf := Key.find?_written p.separate_fields
    rw [← withDescription_written] at hf
    simp only [fields, List.forall_mem_cons] at hf
    obtain ⟨hname, htype, hdescription, _⟩ := hf
    refine Checked.ok_seq (Checked.ok_seq (Checked.ok_map ?_) ?_) ?_
    · exact orElse_of_find? hname rfl
    · exact undoes_text.maybe htype
    · exact undoes_text.maybe hdescription
  isFull p := by
    rw [toValue_eq]
    refine isFull_written p.separate_fields ?_
    simp [fields, undoes_text.isFull]

end ParamDoc

namespace ReturnDoc

def fields (r : ReturnDoc) : List (Key × Option Value) :=
  [(.plain "type", r.type.map .str), (.plain "description", r.description.map .str)]

theorem toValue_eq (r : ReturnDoc) : r.toValue = .map (written r.fields) := rfl

theorem separate_fields (r : ReturnDoc) : Separate r.fields := by
  simp [Separate, fields, Key.apart_iff, Key.plain]

theorem undoes : Undoes decode toValue where
  decode_write r := by
    rw [toValue_eq]
    have hf := Key.find?_written r.separate_fields
    simp only [fields, List.forall_mem_cons] at hf
    obtain ⟨htype, hdescription, _⟩ := hf
    refine Checked.ok_seq (Checked.ok_map ?_) ?_
    · exact undoes_text.maybe htype
    · exact undoes_text.maybe hdescription
  isFull r := by
    rw [toValue_eq]
    refine isFull_written r.separate_fields ?_
    simp [fields, undoes_text.isFull]

end ReturnDoc

namespace BodyDoc

def fields (b : BodyDoc) : List (Key × Option Value) := [(.plain "body", some (.str b.body))]

theorem toValue_eq (b : BodyDoc) : b.toValue = .map (written b.fields) := rfl

theorem separate_fields (b : BodyDoc) : Separate b.fields :=
  List.pairwise_singleton _ _

theorem undoes : Undoes decode toValue where
  decode_write b := by
    rw [toValue_eq]
    have hf := Key.find?_written b.separate_fields
    simp only [fields, List.forall_mem_cons] at hf
    exact Checked.ok_map (orElse_of_find? hf.1 rfl)
  isFull b := by
    rw [toValue_eq]
    refine isFull_written b.separate_fields ?_
    simp [fields, undoes_text.isFull]

end BodyDoc

namespace Doc

def fields (d : Doc) : List (Key × Option Value) :=
  [(⟨"@param", "params"⟩, some (.list (d.params.map ParamDoc.toValue))),
    (⟨"@return", "returns"⟩, some (.list (d.returns.map ReturnDoc.toValue))),
    (⟨"@description", "descriptions"⟩, some (.list (d.descriptions.map BodyDoc.toValue))),
    (⟨"@type", "types"⟩, some (.list (d.types.map BodyDoc.toValue)))]

theorem toValue_eq (d : Doc) : d.toValue = .map (written d.fields) := rfl

theorem separate_fields (d : Doc) : Separate d.fields := by
  simp [Separate, fields, Key.apart_iff]

theorem undoes : Undoes decode toValue where
  decode_write d := by
    rw [toValue_eq]
    have hf := Key.find?_written d.separate_fields
    simp only [fields, List.forall_mem_cons] at hf
    obtain ⟨hparams, hreturns, hdescriptions, htypes, _⟩ := hf
    refine Checked.ok_seq (Checked.ok_seq (Checked.ok_seq (Checked.ok_map ?_) ?_) ?_) ?_
    · exact orElse_of_find? hparams (ParamDoc.undoes.list.decode_write d.params)
    · exact orElse_of_find? hreturns (ReturnDoc.undoes.list.decode_write d.returns)
    · exact orElse_of_find? hdescriptions (BodyDoc.undoes.list.decode_write d.descriptions)
    · exact orElse_of_find? htypes (BodyDoc.undoes.list.decode_write d.types)
  isFull d := by
    rw [toValue_eq]
    refine isFull_written d.separate_fields ?_
    simp [fields, ParamDoc.undoes.list.isFull, ReturnDoc.undoes.list.isFull,
      BodyDoc.undoes.list.isFull]

end Doc

/-! ## Members and properties -/

theorem MemberKind.undoes : Undoes (among options) fun kind => .str kind.name :=
  undoes_among fun kind => by cases kind <;> rfl

theorem Access.undoes : Undoes (among options) fun access => .str access.name :=
  undoes_among fun access => by cases access <;> rfl

namespace Member

def fields (m : Member) : List (Key × Option Value) :=
  [(.plain "type", m.kind.map fun kind => .str kind.name),
    (.plain "access", some (.str m.access.name)), (.plain "location", m.location.map Span.toValue),
    (.plain "jsdoc", m.doc.map Doc.toValue),
    (⟨"overriddenFrom", "overridden_from"⟩, m.overriddenFrom.map .str),
    (⟨"inheritedFrom", "inherited_from"⟩, m.inheritedFrom.map .str),
    (.plain "mixin", m.mixin.map .str)]

theorem toValue_eq (m : Member) : m.toValue = .map (written m.fields) := rfl

theorem separate_fields (m : Member) : Separate m.fields := by
  simp [Separate, fields, Key.apart_iff, Key.plain]

theorem undoes : Undoes decode toValue where
  decode_write m := by
    rw [toValue_eq]
    have hf := Key.find?_written m.separate_fields
    simp only [fields, List.forall_mem_cons] at hf
    obtain ⟨hkind, haccess, hlocation, hdoc, hoverridden, hinherited, hmixin, _⟩ := hf
    refine Checked.ok_seq (Checked.ok_seq (Checked.ok_seq (Checked.ok_seq (Checked.ok_seq
      (Checked.ok_seq (Checked.ok_map ?_) ?_) ?_) ?_) ?_) ?_) ?_
    · exact MemberKind.undoes.maybe hkind
    · exact orElse_of_find? haccess (Access.undoes.decode_write m.access)
    · exact Span.undoes.maybe hlocation
    · exact Doc.undoes.maybe hdoc
    · exact undoes_text.maybe hoverridden
    · exact undoes_text.maybe hinherited
    · exact undoes_text.maybe hmixin
  isFull m := by
    rw [toValue_eq]
    refine isFull_written m.separate_fields ?_
    simp [fields, undoes_text.isFull, Span.undoes.isFull, Doc.undoes.isFull]

end Member

namespace Property

def fields (p : Property) : List (Key × Option Value) :=
  [(.plain "name", p.name.map .str), (.plain "check", p.check.map .str),
    (.plain "event", p.event.map .str), (.plain "nullable", some (.bool p.nullable)),
    (.plain "location", p.location.map Span.toValue), (.plain "jsdoc", p.doc.map Doc.toValue),
    (⟨"inheritedFrom", "inherited_from"⟩, p.inheritedFrom.map .str)]

theorem toValue_eq (p : Property) : p.toValue = .map (written p.fields) := rfl

theorem separate_fields (p : Property) : Separate p.fields := by
  simp [Separate, fields, Key.apart_iff, Key.plain]

theorem lift_written (p : Property) : lift (written p.fields) = written p.fields := by
  have hj : (written p.fields).get? "json" = none :=
    get?_written_eq_none (by simp [fields, Key.plain])
  rw [lift, hj]

theorem check_of_find? {entries : Assoc Value} {check : Option String}
    (hf : (Key.plain "check").find? entries =
      (check.map Value.str).map (Prod.mk (Key.plain "check").usual)) :
    orElse (.plain "check") none checkName entries = .ok check := by
  cases check with
  | none => rw [orElse, hf]; rfl
  | some name => exact orElse_of_find? hf rfl

theorem undoes : Undoes decode toValue where
  decode_write p := by
    rw [toValue_eq]
    have hf := Key.find?_written p.separate_fields
    rw [← lift_written] at hf
    simp only [fields, List.forall_mem_cons] at hf
    obtain ⟨hname, hcheck, hevent, hnullable, hlocation, hdoc, hinherited, _⟩ := hf
    refine Checked.ok_seq (Checked.ok_seq (Checked.ok_seq (Checked.ok_seq (Checked.ok_seq
      (Checked.ok_seq (Checked.ok_map ?_) ?_) ?_) ?_) ?_) ?_) ?_
    · exact undoes_text.maybe hname
    · exact check_of_find? hcheck
    · exact undoes_text.maybe hevent
    · exact orElse_of_find? hnullable rfl
    · exact Span.undoes.maybe hlocation
    · exact Doc.undoes.maybe hdoc
    · exact undoes_text.maybe hinherited
  isFull p := by
    rw [toValue_eq]
    refine isFull_written p.separate_fields ?_
    simp [fields, undoes_text.isFull, undoes_truth.isFull, Span.undoes.isFull, Doc.undoes.isFull]

end Property

/-! ## Class records -/

namespace ClassRecord

def fields (r : ClassRecord) : List (Key × Option Value) :=
  [(⟨"className", "class_name"⟩, some (.str r.name)),
    (⟨"superClass", "super_class"⟩, r.superClass.map .str),
    (.plain "mixins", some (Value.strings r.mixins)),
    (⟨"isSingleton", "is_singleton"⟩, some (.bool r.isSingleton)),
    (⟨"construct", "constructor"⟩, r.constructor.map Member.toValue),
    (.plain "members", some (membersValue r.members)),
    (.plain "statics", some (membersValue r.statics)),
    (.plain "properties",
      some (.map (r.properties.map fun entry => (entry.1, entry.2.toValue)))),
    (.plain "location", r.location.map Span.toValue)]

theorem toValue_eq (r : ClassRecord) : r.toValue = .map (written r.fields) := rfl

theorem separate_fields (r : ClassRecord) : Separate r.fields := by
  simp [Separate, fields, Key.apart_iff, Key.plain]

theorem decode_toValue (r : ClassRecord) : decode r.toValue = .ok r := by
  have hf := Key.find?_written r.separate_fields
  simp only [fields, List.forall_mem_cons] at hf
  obtain ⟨hname, hsuper, hmixins, hsingle, hconstruct, hmembers, hstatics, hproperties,
    hlocation, _⟩ := hf
  refine Checked.ok_seq (Checked.ok_seq (Checked.ok_seq (Checked.ok_seq (Checked.ok_seq
    (Checked.ok_seq (Checked.ok_seq (Checked.ok_seq (Checked.ok_map ?_) ?_) ?_) ?_) ?_) ?_) ?_)
    ?_) ?_
  · exact required_of_find? hname rfl
  · exact undoes_text.maybe hsuper
  · exact orElse_of_find? hmixins (undoes_text.listOrNothing.decode_write r.mixins)
  · exact orElse_of_find? hsingle rfl
  · exact Member.undoes.maybe hconstruct
  · exact orElse_of_find? hmembers (Member.undoes.mapOrNothing r.members)
  · exact orElse_of_find? hstatics (Member.undoes.mapOrNothing r.statics)
  · exact orElse_of_find? hproperties (Property.undoes.mapOrNothing r.properties)
  · exact Span.undoes.maybe hlocation

/-- No name is declared twice among the members, among the statics or among the properties. -/
structure IsKeyed (r : ClassRecord) : Prop where
  members : r.members.keys.Nodup
  statics : r.statics.keys.Nodup
  properties : r.properties.keys.Nodup

theorem isKeyed_of_decode {v : Value} {r : ClassRecord} (hv : v.IsJson) (h : decode v = .ok r) :
    r.IsKeyed := by
  obtain ⟨entries, hentries, hread⟩ := exists_of_record h
  have he := hv.of_entries? hentries
  obtain ⟨_, location, hrest, _, rfl⟩ := Checked.seq_eq_ok.mp hread
  obtain ⟨_, properties, hfirst, hproperties, rfl⟩ := Checked.seq_eq_ok.mp hrest
  obtain ⟨_, statics, hsecond, hstatics, rfl⟩ := Checked.seq_eq_ok.mp hfirst
  obtain ⟨_, members, hthird, hmembers, rfl⟩ := Checked.seq_eq_ok.mp hsecond
  obtain ⟨_, construct, hfourth, _, rfl⟩ := Checked.seq_eq_ok.mp hthird
  obtain ⟨_, single, hfifth, _, rfl⟩ := Checked.seq_eq_ok.mp hfourth
  obtain ⟨_, mixins, hsixth, _, rfl⟩ := Checked.seq_eq_ok.mp hfifth
  obtain ⟨_, super, hname, _, rfl⟩ := Checked.seq_eq_ok.mp hsixth
  obtain ⟨name, _, rfl⟩ := Checked.map_eq_ok.mp hname
  exact ⟨nodup_keys_of_orElse he hmembers, nodup_keys_of_orElse he hstatics,
    nodup_keys_of_orElse he hproperties⟩

theorem isFull_toValue {r : ClassRecord} (h : r.IsKeyed) : r.toValue.IsFull := by
  rw [toValue_eq]
  refine isFull_written r.separate_fields ?_
  have hmixins : (Value.strings r.mixins).IsFull := undoes_text.list.isFull r.mixins
  have hmembers : (membersValue r.members).IsFull := Member.undoes.isFull_map h.members
  have hstatics : (membersValue r.statics).IsFull := Member.undoes.isFull_map h.statics
  have hproperties := Property.undoes.isFull_map h.properties
  simp [fields, undoes_text.isFull, undoes_truth.isFull, Span.undoes.isFull, Member.undoes.isFull,
    hmixins, hmembers, hstatics, hproperties]

/-- Reads a record and writes it again. -/
def normalize (v : Value) : Checked Value := toValue <$> decode v

/-- What is read from data is written as data without null, and read from there as the same record,
with its members, statics and properties in the same order. Reading and writing a second time
changes nothing. -/
theorem normalize_stable {v : Value} (hv : v.IsJson) {r : ClassRecord} (h : decode v = .ok r) :
    r.toValue.IsJson ∧ r.toValue.IsFull ∧ decode r.toValue = .ok r ∧
      normalize v = .ok r.toValue ∧ (normalize v).andThen normalize = normalize v := by
  have hfull : r.toValue.IsFull := isFull_toValue (isKeyed_of_decode hv h)
  have hfirst : normalize v = .ok r.toValue := Checked.ok_map h
  have hagain : normalize r.toValue = .ok r.toValue := Checked.ok_map (decode_toValue r)
  refine ⟨hfull.isJson, hfull, decode_toValue r, hfirst, ?_⟩
  rw [hfirst]
  exact hagain

def spelledLeniently : Value :=
  .map [("class_name", .str "a.B"), ("mixins", .null), ("is_singleton", .str "Yes"),
    ("construct", .null), ("statics", .null),
    ("members", .map [("m", .map [("type", .str "function"), ("overridden_from", .str "a.A"),
        ("jsdoc", .map [("params", .list [.map [("param_name", .str "x"), ("desc", .str "an x")]]),
          ("@return", .list [.map [("type", .null)]])])]),
      ("a", .map [("type", .str "variable"), ("access", .str "private")])]),
    ("properties", .map [("p", .map [("json", .map [("check", .list [.str "l", .str "r"]),
        ("event", .str "changeP"), ("nullable", .int 1)])]),
      ("b", .map [("check", .str "String"), ("json", .map [("check", .str "Map")])])]),
    ("location", .map [("start", .map [("line", .str " 1_0 "), ("column", .bool false),
        ("index", .float (.finite false 8 (-1)))]),
      ("end", .map [("line", .int 2), ("column", .int 3), ("index", .str "+4.0")])]),
    ("future", .list [.null])]

def spelled : ClassRecord where
  name := "a.B"
  superClass := none
  mixins := []
  isSingleton := true
  constructor := none
  members :=
    [("m", ⟨some .function, .anywhere, none,
      some ⟨[⟨"x", none, some "an x"⟩], [⟨none, none⟩], [], []⟩, some "a.A", none, none⟩),
    ("a", ⟨some .variable, .ownClass, none, none, none, none, none⟩)]
  statics := []
  properties :=
    [("p", ⟨none, none, some "changeP", true, none, none, none⟩),
    ("b", ⟨none, some "String", none, false, none, none, none⟩)]
  location := some ⟨⟨10, 0, 4⟩, ⟨2, 3, 4⟩⟩

theorem isJson_spelledLeniently : spelledLeniently.IsJson := by
  simp [spelledLeniently, isJson_map, isJson_list, isJson_null, IsJson.of_scalar, IsScalar.str,
    IsScalar.int, IsScalar.bool, IsScalar.float]

theorem decode_spelledLeniently : decode spelledLeniently = .ok spelled :=
  Checked.value?_eq_some.mp (by decide +kernel)

theorem normalize_stable_spelledLeniently :
    spelledLeniently.IsJson ∧ decode spelledLeniently = .ok spelled ∧ spelled.toValue.IsJson ∧
      spelled.toValue.IsFull ∧ decode spelled.toValue = .ok spelled ∧
      normalize spelledLeniently = .ok spelled.toValue ∧
      (normalize spelledLeniently).andThen normalize = normalize spelledLeniently :=
  ⟨isJson_spelledLeniently, decode_spelledLeniently,
    normalize_stable isJson_spelledLeniently decode_spelledLeniently⟩

end ClassRecord
end ScriptSense
