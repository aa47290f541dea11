import Mathlib.Data.List.Nodup
import ScriptSense.Proofs.Data.Assoc
import ScriptSense.Record.Doc

/-! Typed values that are written out and read again. A record is written field by field under the
usual spellings of its keys, and absent fields leave no trace; as long as the spellings of its keys
keep apart, every field is found again under its own key. -/
namespace ScriptSense

namespace Value

/-- Values that lists and maps build up from `atom`. The keys of a map are distinct. -/
inductive BuiltFrom (atom : Value → Prop) : Value → Prop
  | atom {v : Value} (h : atom v) : BuiltFrom atom v
  | list {items : List Value} (h : ∀ v ∈ items, BuiltFrom atom v) : BuiltFrom atom (.list items)
  | map {entries : List (String × Value)} (distinct : (Assoc.keys entries).Nodup)
      (h : ∀ entry ∈ entries, BuiltFrom atom entry.2) : BuiltFrom atom (.map entries)

inductive IsScalar : Value → Prop
  | bool (b : Bool) : IsScalar (.bool b)
  | int (n : Int) : IsScalar (.int n)
  | float (x : Binary64) : IsScalar (.float x)
  | str (s : String) : IsScalar (.str s)

def IsJson (v : Value) : Prop := BuiltFrom (fun a => a.IsScalar ∨ a = .null) v

def IsFull (v : Value) : Prop := BuiltFrom IsScalar v

theorem BuiltFrom.mono {atom more : Value → Prop} (h : ∀ a, atom a → more a) {v : Value}
    (hv : BuiltFrom atom v) : BuiltFrom more v := by
  induction hv with
  | atom ha => exact .atom (h _ ha)
  | list _ ih => exact .list ih
  | map distinct _ ih => exact .map distinct ih

theorem IsFull.isJson {v : Value} (h : v.IsFull) : v.IsJson :=
  BuiltFrom.mono (fun _ ha => Or.inl ha) h

theorem IsFull.ne_null {v : Value} (h : v.IsFull) : v ≠ .null := by
  rintro rfl
  cases h with
  | atom ha => cases ha

theorem IsFull.of_scalar {v : Value} (h : v.IsScalar) : v.IsFull := .atom h

theorem IsJson.of_scalar {v : Value} (h : v.IsScalar) : v.IsJson := .atom (.inl h)

theorem isJson_null : IsJson .null := .atom (.inr rfl)

theorem isJson_list {items : List Value} : (list items).IsJson ↔ ∀ v ∈ items, v.IsJson := by
  constructor
  · intro h
    cases h with
    | atom ha => rcases ha with ha | ha <;> cases ha
    | list hall => exact hall
  · exact .list

theorem isJson_map {entries : Assoc Value} :
    (map entries).IsJson ↔ entries.keys.Nodup ∧ ∀ entry ∈ entries, entry.2.IsJson := by
  constructor
  · intro h
    cases h with
    | atom ha => rcases ha with ha | ha <;> cases ha
    | map distinct hall => exact ⟨distinct, hall⟩
  · exact fun h => .map h.1 h.2

theorem IsJson.of_entries? {v : Value} (hv : v.IsJson) {entries : Assoc Value}
    (h : v.entries? = some entries) : ∀ key w, (key, w) ∈ entries → w.IsJson := by
  cases hv with
  | atom ha =>
    rcases ha with ha | rfl
    · cases ha <;> cases h
    · cases h
  | list _ => cases h
  | map _ hall =>
    obtain rfl : _ = entries := Option.some.inj h
    exact fun key w hw => hall (key, w) hw

end Value

namespace Checked

variable {α β : Type}

theorem map_eq_ok {f : α → β} {a : Checked α} {b : β} :
    f <$> a = ok b ↔ ∃ x, a = ok x ∧ f x = b := by
  cases a with
  | ok x => simp
  | failed v vs =>
    show failed v vs = ok b ↔ _
    simp

theorem seq_eq_ok {f : Checked (α → β)} {a : Checked α} {b : β} :
    f <*> a = ok b ↔ ∃ g x, f = ok g ∧ a = ok x ∧ g x = b := by
  show apply f (fun _ => a) = ok b ↔ _
  cases f <;> cases a <;> simp [apply]

theorem below_eq_ok {key : String} {a : Checked α} {x : α} : a.below key = ok x ↔ a = ok x := by
  cases a <;> simp [below]

theorem value?_eq_some {a : Checked α} {x : α} : a.value? = some x ↔ a = ok x := by
  cases a <;> simp [value?]

theorem ok_map {f : α → β} {a : Checked α} {x : α} (h : a = ok x) : f <$> a = ok (f x) := by
  rw [h, map_ok]

theorem ok_seq {f : Checked (α → β)} {g : α → β} {a : Checked α} {x : α} (hf : f = ok g)
    (h : a = ok x) : f <*> a = ok (g x) := by
  rw [hf, h, seq_ok]

end Checked

namespace Schema

variable {α : Type}

/-! ## Fields of written records -/

@[mk_iff]
structure Key.Apart (key other : Key) : Prop where
  usual : key.usual ≠ other.usual
  left : key.other ≠ other.usual
  right : key.usual ≠ other.other

/-- The keys of fields keep apart. -/
def Separate (fields : List (Key × Option Value)) : Prop :=
  fields.Pairwise fun f g => f.1.Apart g.1

/-- The entries of a record with the given fields. -/
def written (fields : List (Key × Option Value)) : Assoc Value :=
  presentEntries (fields.map fun field => (field.1.usual, field.2))

variable {fields : List (Key × Option Value)}

theorem written_cons_some (key : Key) (v : Value) (rest : List (Key × Option Value)) :
    written ((key, some v) :: rest) = (key.usual, v) :: written rest := rfl

theorem written_cons_none (key : Key) (rest : List (Key × Option Value)) :
    written ((key, none) :: rest) = written rest := rfl

theorem mem_written {name : String} {v : Value} :
    (name, v) ∈ written fields ↔ ∃ key, (key, some v) ∈ fields ∧ key.usual = name := by
  induction fields with
  | nil => simp [written, presentEntries]
  | cons field rest ih =>
    obtain ⟨k, o⟩ := field
    cases o with
    | none => simp [written_cons_none, ih]
    | some w =>
      rw [written_cons_some, List.mem_cons, ih]
      constructor
      · rintro (he | ⟨key, hmem, hk⟩)
        · cases he
          exact ⟨k, by simp, rfl⟩
        · exact ⟨key, List.mem_cons_of_mem _ hmem, hk⟩
      · rintro ⟨key, hmem, hk⟩
        rcases List.mem_cons.mp hmem with he | hr
        · cases he
          exact Or.inl (by rw [hk])
        · exact Or.inr ⟨key, hr, hk⟩

theorem get?_written_eq_none {name : String} (h : ∀ field ∈ fields, field.1.usual ≠ name) :
    (written fields).get? name = none := by
  rw [← Option.not_isSome_iff_eq_none]
  intro hs
  obtain ⟨v, hv⟩ := Option.isSome_iff_exists.mp hs
  obtain ⟨key, hmem, hk⟩ := mem_written.mp (Assoc.mem_of_get? hv)
  exact h _ hmem hk

theorem Key.find?_cons_of_ne {key : Key} {name : String} (hu : name ≠ key.usual)
    (ho : name ≠ key.other) (v : Value) (rest : Assoc Value) :
    key.find? ((name, v) :: rest) = key.find? rest := by
  simp [find?, Assoc.get?_cons, hu.symm, ho.symm]

theorem Key.find?_written (separate : Separate fields) :
    ∀ field ∈ fields, field.1.find? (written fields) = field.2.map (Prod.mk field.1.usual) := by
  induction fields with
  | nil => simp
  | cons field rest ih =>
    obtain ⟨hfirst, hrest⟩ := List.pairwise_cons.mp separate
    obtain ⟨k, o⟩ := field
    refine List.forall_mem_cons.mpr ⟨?_, fun other hmem => ?_⟩
    · cases o with
      | some w => simp [written_cons_some, find?, Assoc.get?_cons]
      | none =>
        have hu : (written rest).get? k.usual = none :=
          get?_written_eq_none fun g hg => ((hfirst g hg).usual).symm
        have ho : (written rest).get? k.other = none :=
          get?_written_eq_none fun g hg => ((hfirst g hg).left).symm
        simp [written_cons_none, find?, hu, ho]
    · have hk : k.Apart other.1 := hfirst _ hmem
      cases o with
      | none => exact ih hrest other hmem
      | some w =>
        rw [written_cons_some, find?_cons_of_ne hk.usual hk.right]
        exact ih hrest other hmem

theorem nodup_keys_written (separate : Separate fields) :
    (written fields).keys.Nodup := by
  induction fields with
  | nil => exact List.nodup_nil
  | cons field rest ih =>
    obtain ⟨hfirst, hrest⟩ := List.pairwise_cons.mp separate
    obtain ⟨k, o⟩ := field
    cases o with
    | none => exact ih hrest
    | some w =>
      rw [written_cons_some, Assoc.keys_cons, List.nodup_cons]
      refine ⟨?_, ih hrest⟩
      intro hmem
      have hn : (written rest).get? k.usual = none :=
        get?_written_eq_none fun g hg => ((hfirst g hg).usual).symm
      rw [Assoc.mem_keys_iff, hn] at hmem
      cases hmem

theorem isFull_written (separate : Separate fields)
    (h : ∀ field ∈ fields, ∀ v ∈ field.2, v.IsFull) : (Value.map (written fields)).IsFull := by
  refine .map (nodup_keys_written separate) ?_
  rintro ⟨name, v⟩ hv
  obtain ⟨key, hmem, _⟩ := mem_written.mp hv
  exact h _ hmem v rfl

/-! ## Decoders that undo writing -/

/-- What is written in full is read as what it was. -/
structure Undoes (decode : Decoder α) (write : α → Value) : Prop where
  decode_write : ∀ a, decode (write a) = .ok a
  isFull : ∀ a, (write a).IsFull

theorem undoes_text : Undoes text .str := ⟨fun _ => rfl, fun s => .of_scalar (.str s)⟩

theorem undoes_integer : Undoes integer .int := ⟨fun _ => rfl, fun n => .of_scalar (.int n)⟩

theorem undoes_truth : Undoes truth .bool := ⟨fun _ => rfl, fun b => .of_scalar (.bool b)⟩

theorem undoes_among {options : List (String × α)} {name : α → String}
    (h : ∀ a, Assoc.get? options (name a) = some a) :
    Undoes (among options) fun a => .str (name a) where
  decode_write a := by simp [among, choice, Value.str?, h]
  isFull a := .of_scalar (.str _)

variable {decode : Decoder α} {write : α → Value}

theorem Undoes.ne_null (hd : Undoes decode write) (a : α) : write a ≠ .null := (hd.isFull a).ne_null

theorem all_zipIdx {xs : List α} (h : ∀ x ∈ xs, decode (write x) = .ok x) (n : Nat) :
    Checked.all (fun item => (decode item.1).below (toString item.2)) ((xs.map write).zipIdx n) =
      .ok xs := by
  induction xs generalizing n with
  | nil => rfl
  | cons x xs ih =>
    rw [List.map_cons, List.zipIdx_cons, Checked.all]
    have hx : (decode (write x)).below (toString n) = .ok x :=
      Checked.below_eq_ok.mpr (h x List.mem_cons_self)
    exact Checked.ok_seq (Checked.ok_map hx) (ih (fun y hy => h y (List.mem_cons_of_mem _ hy)) (n + 1))

theorem list_map {xs : List α} (h : ∀ x ∈ xs, decode (write x) = .ok x) :
    list decode (.list (xs.map write)) = .ok xs := all_zipIdx h 0

theorem Undoes.list (hd : Undoes decode write) :
    Undoes (list decode) fun xs => .list (xs.map write) where
  decode_write xs := list_map fun x _ => hd.decode_write x
  isFull xs := by
    refine .list fun v hv => ?_
    obtain ⟨x, _, rfl⟩ := List.mem_map.mp hv
    exact hd.isFull x

theorem Undoes.listOrNothing (hd : Undoes decode write) :
    Undoes (listOrNothing decode) fun xs => .list (xs.map write) where
  decode_write xs := by
    cases xs with
    | nil => rfl
    | cons x xs => exact hd.list.decode_write (x :: xs)
  isFull := hd.list.isFull

theorem Undoes.mapOrNothing (hd : Undoes decode write) (m : Assoc α) :
    mapOrNothing decode (.map (m.map fun entry => (entry.1, write entry.2))) = .ok m := by
  have hall : Checked.all (fun entry => ((decode entry.2).below entry.1).map (Prod.mk entry.1))
      (m.map fun entry => (entry.1, write entry.2)) = .ok m := by
    induction m with
    | nil => rfl
    | cons entry rest ih =>
      have hv : (decode (write entry.2)).below entry.1 = .ok entry.2 :=
        Checked.below_eq_ok.mpr (hd.decode_write entry.2)
      exact Checked.ok_seq (Checked.ok_map (Checked.ok_map (f := Prod.mk entry.1) hv)) ih
  cases m with
  | nil => rfl
  | cons entry rest => exact hall

theorem Undoes.isFull_map (hd : Undoes decode write) {m : Assoc α} (distinct : m.keys.Nodup) :
    (Value.map (m.map fun entry => (entry.1, write entry.2))).IsFull := by
  have hk : Assoc.keys (m.map fun entry => (entry.1, write entry.2)) = m.keys := by
    simp [Assoc.keys]
  refine .map (hk ▸ distinct) fun entry hentry => ?_
  obtain ⟨e, _, rfl⟩ := List.mem_map.mp hentry
  exact hd.isFull e.2

section Fields

variable {key : Key} {entries : Assoc Value} {name : String} {v : Value} {a : α}

theorem required_of_find? (hf : key.find? entries = some (name, v)) (hv : decode v = .ok a) :
    required key decode entries = .ok a := by
  rw [required, hf]
  exact Checked.below_eq_ok.mpr hv

theorem orElse_of_find? {absent : α} (hf : key.find? entries = some (name, v))
    (hv : decode v = .ok a) : orElse key absent decode entries = .ok a := by
  rw [orElse, hf]
  exact Checked.below_eq_ok.mpr hv

theorem Undoes.maybe (hd : Undoes decode write) {o : Option α}
    (hf : key.find? entries = (o.map write).map (Prod.mk name)) :
    maybe key decode entries = .ok o := by
  cases o with
  | none => rw [Schema.maybe, orElse, hf]; rfl
  | some a =>
    have ho : optional decode (write a) = .ok (some a) := by
      have hn := hd.ne_null a
      rw [optional, hd.decode_write]
      · rfl
      · exact hn
    exact orElse_of_find? hf ho

/-- What a field gives is what stands for its absence, or was read from an entry. -/
theorem eq_or_mem_of_orElse {absent : α} (h : orElse key absent decode entries = .ok a) :
    a = absent ∨ ∃ name v, (name, v) ∈ entries ∧ decode v = .ok a := by
  rw [orElse] at h
  split at h
  · rename_i name v hf
    refine Or.inr ⟨name, v, ?_, Checked.below_eq_ok.mp h⟩
    rw [Key.find?] at hf
    split at hf
    · rename_i w hw
      cases hf
      exact Assoc.mem_of_get? hw
    · obtain ⟨w, hw, he⟩ := Option.map_eq_some_iff.mp hf
      cases he
      exact Assoc.mem_of_get? hw
  · exact Or.inl (Checked.ok.inj h).symm

end Fields

theorem exists_of_record {shape : String} {read : Assoc Value → Checked α} {v : Value} {a : α}
    (h : record shape read v = .ok a) :
    ∃ entries, v.entries? = some entries ∧ read entries = .ok a := by
  rw [record] at h
  split at h
  · exact ⟨_, ‹_›, h⟩
  · cases h

theorem keys_of_map {entries : Assoc Value} {m : Assoc α}
    (h : Schema.map decode (.map entries) = .ok m) : m.keys = entries.keys := by
  rw [Schema.map] at h
  induction entries generalizing m with
  | nil => rw [← Checked.ok.inj h]; rfl
  | cons entry rest ih =>
    obtain ⟨cons, tail, hhead, htail, rfl⟩ := Checked.seq_eq_ok.mp h
    obtain ⟨head, hone, rfl⟩ := Checked.map_eq_ok.mp hhead
    obtain ⟨value, _, rfl⟩ := Checked.map_eq_ok.mp hone
    rw [Assoc.keys_cons, Assoc.keys_cons, ih htail]

theorem nodup_keys_of_mapOrNothing {v : Value} (hv : v.IsJson) {m : Assoc α}
    (h : mapOrNothing decode v = .ok m) : m.keys.Nodup := by
  rw [mapOrNothing] at h
  split at h
  · rw [← Checked.ok.inj h]
    exact List.nodup_nil
  · cases v with
    | map entries =>
      rw [keys_of_map h]
      exact (Value.isJson_map.mp hv).1
    | _ => cases h

theorem nodup_keys_of_orElse {key : Key} {entries : Assoc Value}
    (he : ∀ key w, (key, w) ∈ entries → w.IsJson) {m : Assoc α}
    (h : orElse key [] (mapOrNothing decode) entries = .ok m) : m.keys.Nodup := by
  rcases eq_or_mem_of_orElse h with rfl | ⟨name, v, hmem, hv⟩
  · exact List.nodup_nil
  · exact nodup_keys_of_mapOrNothing (he name v hmem) hv

end Schema
end ScriptSense
