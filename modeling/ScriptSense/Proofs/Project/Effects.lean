import ScriptSense.Proofs.Project.Isolation

/-! What a finding does to the holdings of a project, told by what is read of them afterwards: the
records of the classes, and the class that each file is known to describe. -/
namespace ScriptSense

namespace Namespace

theorem Placed.mem_classNames {ns : Namespace} (h : ns.Placed) {name : String} :
    name ∈ ns.classNames ↔ ns.isClass name = true := by
  rw [classNames, (sortTexts_perm _).mem_iff, h.mem_registered_iff]

theorem Placed.classNames_congr {ns ns' : Namespace} (h : ns.Placed) (h' : ns'.Placed)
    (same : ∀ name, ns.record? name = ns'.record? name) : ns.classNames = ns'.classNames := by
  have hmem : ∀ name, (ns'.record? name).isSome = true ↔ name ∈ ns'.classNames.toFinset := by
    intro name
    rw [List.mem_toFinset, h'.mem_classNames, isClass]
  exact (h.classNames_eq_sort fun name => same name ▸ hmem name).trans
    (h'.classNames_eq_sort hmem).symm

end Namespace

namespace Project

namespace Holdings

def names (h : Holdings) : Namespace := h.database.names

@[simp] theorem files_drop (h : Holdings) (name : String) : (h.drop name).files = h.files := by
  rw [drop]
  cases h.database.remove name <;> rfl

theorem names_drop (h : Holdings) (name : String) :
    (h.drop name).names = if h.names.isClass name then h.names.remove name else h.names := by
  rw [names, drop_database, Database.remove, names]
  split <;> rfl

theorem record?_drop (h : Holdings) (name other : String) :
    (h.drop name).names.record? other = if other = name then none else h.names.record? other := by
  rw [names_drop]
  split
  · exact Namespace.record?_remove _ _ _
  · rename_i hc
    by_cases ho : other = name
    · have hn : h.names.record? name = none := by simpa [Namespace.isClass] using hc
      rw [if_pos ho, ho, hn]
    · rw [if_neg ho]

theorem placed_drop (h : Holdings) (hp : h.names.Placed) (name : String) :
    (h.drop name).names.Placed := by
  rw [names_drop]
  split
  · exact hp.remove name
  · exact hp

@[simp] theorem files_dropAny (h : Holdings) (former : Option String) :
    (h.dropAny former).files = h.files := by
  cases former with
  | none => rfl
  | some name => exact h.files_drop name

theorem record?_dropAny (h : Holdings) (former : Option String) (name : String) :
    (h.dropAny former).names.record? name =
      if former == some name then none else h.names.record? name := by
  cases former with
  | none => rfl
  | some other =>
    refine (h.record?_drop other name).trans (if_congr ?_ rfl rfl)
    rw [beq_iff_eq, Option.some.injEq, eq_comm]

theorem placed_dropAny (h : Holdings) (hp : h.names.Placed) (former : Option String) :
    (h.dropAny former).names.Placed := by
  cases former with
  | none => exact hp
  | some name => exact h.placed_drop hp name

@[simp] theorem files_register (h : Holdings) (r : ClassRecord) : (h.register r).files = h.files := by
  rw [register]
  cases h.database.ingest r <;> rfl

theorem insert_register (h : Holdings) {r : ClassRecord}
    (hr : (Text.segments? r.name).isSome = true) :
    h.names.insert r = .ok (h.register r).names := by
  have hn : "" ∉ Text.segments r.name := Text.empty_notMem_segments hr
  rw [Namespace.insert_eq, if_neg hn, names, register, Database.ingest_eq, if_neg hn]
  rfl

theorem record?_register (h : Holdings) {r : ClassRecord}
    (hr : (Text.segments? r.name).isSome = true) (name : String) :
    (h.register r).names.record? name = if r.name = name then some r else h.names.record? name := by
  rw [Namespace.record?_insert (h.insert_register hr)]
  simp [eq_comm]

theorem placed_register {h : Holdings} (hp : h.names.Placed) {r : ClassRecord}
    (hr : (Text.segments? r.name).isSome = true) : (h.register r).names.Placed :=
  hp.insert (h.insert_register hr)

theorem known_assign (h : Holdings) (path : FilePath) (name : String) (former : Option String)
    (q : FilePath) : (h.assign path name former).known q =
      if q.toText = path.toText then some name else h.known q := by
  rw [known, assign, files_dropAny, Assoc.get?_put]
  rfl

theorem record?_assign (h : Holdings) (path : FilePath) (name : String) (former : Option String)
    (other : String) : (h.assign path name former).names.record? other =
      if former == some other && name != other then none else h.names.record? other := by
  have hf : (former.filter (· != name) == some other) = (former == some other && name != other) := by
    rw [Bool.eq_iff_iff, beq_iff_eq, Option.filter_eq_some_iff, Bool.and_eq_true, beq_iff_eq,
      bne_iff_ne, bne_iff_ne, ne_comm]
  rw [assign, record?_dropAny, hf]
  rfl

theorem placed_assign {h : Holdings} (hp : h.names.Placed) (path : FilePath) (name : String)
    (former : Option String) : (h.assign path name former).names.Placed :=
  placed_dropAny { h with files := h.files.put path.toText name } hp _

end Holdings

namespace Finding

/-- What a finding changes, whether it ends the operation or not. -/
def take (path : FilePath) (former : Option String) (f : Finding) (h : Holdings) : Holdings :=
  match f.failure? with
  | none => f.settle path former h
  | some _ => f.upset path former h

theorem take_gone (path : FilePath) (former : Option String) (h : Holdings) :
    gone.take path former h = { h with files := h.files.erase path.toText }.dropAny former := rfl

theorem take_record (r : ClassRecord) (path : FilePath) (former : Option String) (h : Holdings) :
    (record r).take path former h = (h.assign path r.name former).register r := rfl

theorem take_misnamed (r : ClassRecord) (path : FilePath) (former : Option String) (h : Holdings) :
    (misnamed r).take path former h = h.assign path r.name former := rfl

def brings? (name : String) : Finding → Option ClassRecord
  | record r => if r.name = name then some r else none
  | _ => none

theorem eq_record_of_brings? {f : Finding} {name : String} {r : ClassRecord}
    (h : f.brings? name = some r) : f = record r ∧ r.name = name := by
  cases f with
  | record r' =>
    rw [brings?] at h
    split at h
    · rename_i hname
      obtain rfl := Option.some.inj h
      exact ⟨rfl, hname⟩
    · cases h
  | gone => cases h
  | misnamed r' => cases h
  | foreign => cases h
  | useless => cases h
  | fatal e => cases h

/-- A finding takes away the class that its file was known to describe, unless the file still
describes it. -/
def sheds (former : Option String) (name : String) : Finding → Bool
  | gone => former == some name
  | record r => former == some name && r.name != name
  | misnamed r => former == some name && r.name != name
  | _ => false

/-- The class that a file is known to describe after a finding. -/
def leaves (known : Option String) : Finding → Option String
  | gone => none
  | record r => some r.name
  | misnamed r => some r.name
  | _ => known

def Proper : Finding → Prop
  | record r => (Text.segments? r.name).isSome = true
  | _ => True

theorem known_take (f : Finding) (path : FilePath) (former : Option String) (h : Holdings)
    (q : FilePath) : (f.take path former h).known q =
      if q.toText = path.toText then f.leaves (h.known q) else h.known q := by
  cases f with
  | gone =>
    rw [take_gone, Holdings.known, Holdings.files_dropAny, Assoc.get?_erase]
    rfl
  | record r =>
    rw [take_record, Holdings.known, Holdings.files_register]
    exact h.known_assign path r.name former q
  | misnamed r => exact h.known_assign path r.name former q
  | foreign => exact (ite_self _).symm
  | useless => exact (ite_self _).symm
  | fatal e => exact (ite_self _).symm

theorem record?_take {f : Finding} (proper : f.Proper) (path : FilePath) (former : Option String)
    (h : Holdings) (name : String) : (f.take path former h).names.record? name =
      (f.brings? name).or (if f.sheds former name then none else h.names.record? name) := by
  cases f with
  | gone =>
    rw [take_gone, Holdings.record?_dropAny]
    rfl
  | record r =>
    rw [take_record, Holdings.record?_register _ proper, Holdings.record?_assign, brings?, sheds]
    split <;> rfl
  | misnamed r => exact h.record?_assign path r.name former name
  | foreign => rfl
  | useless => rfl
  | fatal e => rfl

theorem placed_take {f : Finding} (proper : f.Proper) (path : FilePath) (former : Option String)
    {h : Holdings} (hp : h.names.Placed) : (f.take path former h).names.Placed := by
  cases f with
  | gone =>
    rw [take_gone]
    exact Holdings.placed_dropAny { h with files := h.files.erase path.toText } hp former
  | record r =>
    rw [take_record]
    exact Holdings.placed_register (Holdings.placed_assign hp path r.name former) proper
  | misnamed r => exact take_misnamed r path former h ▸ Holdings.placed_assign hp path r.name former
  | foreign => exact hp
  | useless => exact hp
  | fatal e => exact hp

end Finding

theorem proper_contentAt (p : Project) (path : FilePath) : (p.contentAt path).Proper := by
  rw [contentAt]
  cases p.readRecord path with
  | error e => trivial
  | ok found =>
    cases found with
    | error d => trivial
    | ok r =>
      dsimp only
      split
      · assumption
      · trivial

theorem proper_changeAt (p : Project) (path : FilePath) : (p.changeAt path).Proper := by
  rw [changeAt]
  cases p.isRecordFile path with
  | false => trivial
  | true =>
    cases p.find path with
    | error e => trivial
    | ok there =>
      cases there with
      | none => trivial
      | some there => exact p.proper_contentAt path

theorem holdings_applyChange (p : Project) (path : FilePath) :
    (p.applyChange path).2.holdings =
      (p.changeAt path).take path (p.holdings.known path) p.holdings := by
  refine (p.applyChange_frame path).2.2.trans ?_
  cases hf : (p.changeAt path).failure? with
  | none => simp only [Finding.take, hf]
  | some e => simp only [Finding.take, hf]

/-- What every finding preserves is preserved by an operation, also by one that ends early. -/
theorem Ran.preserves {found : FilePath → Finding} {known : Holdings → FilePath → Option String}
    {paths : List FilePath} {before after : Holdings} {failure : Option Failure}
    (run : Ran found known paths before failure after) (inv : Holdings → Prop)
    (step : ∀ path ∈ paths, ∀ h, inv h → inv ((found path).take path (known h path) h))
    (start : inv before) : inv after := by
  induction run with
  | done => exact start
  | @next path rest h _ _ hf _ ih =>
    refine ih (fun q hq => step q (List.mem_cons_of_mem _ hq)) ?_
    have htake := step path (by simp) h start
    rwa [Finding.take, hf] at htake
  | @stop path rest h e hf =>
    have htake := step path (by simp) h start
    rwa [Finding.take, hf] at htake

end Project
end ScriptSense
