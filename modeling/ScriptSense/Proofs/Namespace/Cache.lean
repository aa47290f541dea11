import Mathlib
import ScriptSense.Proofs.Namespace.History
import ScriptSense.Proofs.Namespace.Lineage

/-! Remembered views. A view is remembered only if it was built along the lineage of its class, so
every answer is the one that the classes alone determine; what was asked before, and the order in
which the classes arrived, leave no trace. -/
namespace ScriptSense
namespace Namespace

/-- The descendants on the way to a class: registered, none twice, and each leads to the class if the
class is registered. -/
structure Approach (ns : Namespace) (chain : List String) (name : String) : Prop where
  distinct : chain.Nodup
  isClass : ∀ c ∈ chain, ns.isClass c = true
  leads : ns.isClass name = true → ∀ c ∈ chain, ∃ k, ns.ancestor? (k + 1) c = some name

theorem approach_nil (ns : Namespace) (name : String) : ns.Approach [] name :=
  ⟨List.nodup_nil, by simp, by simp⟩

theorem Approach.next {ns : Namespace} {chain : List String} {name superClass : String}
    {r : ClassRecord} (h : ns.Approach chain name) (hc : name ∉ chain)
    (hr : ns.record? name = some r) (hs : View.mergedSuper? ns.roots r = some superClass) :
    ns.Approach (chain ++ [name]) superClass := by
  have hclass := isClass_of_record? hr
  refine ⟨?_, isClass_append h.isClass hclass, ?_⟩
  · rw [List.nodup_append]
    refine ⟨h.distinct, by simp, ?_⟩
    intro a ha b hb he
    rw [List.mem_singleton.mp hb] at he
    exact hc (he ▸ ha)
  · intro hsuper c hm
    have hn : ns.next? name = some superClass := by
      rw [next?_of_record? hr, hs]
      exact Option.filter_eq_some_iff.mpr ⟨rfl, hsuper⟩
    have hone : ns.ancestor? 1 name = some superClass := by simp [ancestor?, hn, hsuper]
    rcases List.mem_append.mp hm with hm | hm
    · obtain ⟨k, hk⟩ := h.leads hclass c hm
      exact ⟨k + 1, (ns.ancestor?_add hk 1).trans hone⟩
    · exact ⟨0, (List.mem_singleton.mp hm) ▸ hone⟩

theorem Approach.disjoint {ns : Namespace} {chain rest : List String} {name : String}
    {v : ClassRecord} (h : ns.Approach chain name) (hb : ns.Built (name :: rest) v) :
    ∀ c ∈ name :: rest, c ∉ chain := by
  intro c hc hm
  obtain ⟨k, hk⟩ := h.leads (hb.isClass name (by simp)) c hm
  exact hb.no_return hc k hk

/-- The way to a class and its lineage together are no longer than there are classes. -/
theorem Approach.length_le {ns : Namespace} {chain rest : List String} {name : String}
    {v : ClassRecord} (h : ns.Approach chain name)
    (hb : ns.Built (name :: rest) v) : chain.length + (name :: rest).length ≤ ns.classCount := by
  have hnodup : (chain ++ name :: rest).Nodup := by
    rw [List.nodup_append]
    exact ⟨h.distinct, hb.nodup, fun a ha b hm he => h.disjoint hb b hm (he ▸ ha)⟩
  have hlen := length_le_of_nodup hnodup fun c hc =>
    (List.mem_append.mp hc).elim (h.isClass c) (hb.isClass c)
  rwa [List.length_append] at hlen

theorem viewAfter_unregistered {ns : Namespace} {chain : List String} {name : String}
    (hclass : ∀ c ∈ chain, ns.isClass c = true) (hn : ns.isClass name = false) (fuel : Nat) :
    ns.viewAfter fuel chain name = .ok none := by
  cases fuel with
  | zero => rfl
  | succ fuel =>
    have hr : ns.record? name = none := by simpa [Namespace.isClass] using hn
    have hc : name ∉ chain := fun hm => by simp [hclass name hm] at hn
    simp [viewAfter, hc, hr]

/-- What is built along a lineage is the view, whatever the way to the class was. -/
theorem Built.viewAfter_eq {ns : Namespace} {name : String} {rest chain : List String}
    {v : ClassRecord} (h : ns.Built (name :: rest) v) {fuel : Nat}
    (hclass : ∀ c ∈ chain, ns.isClass c = true) (hd : ∀ c ∈ name :: rest, c ∉ chain)
    (hf : (name :: rest).length ≤ fuel) : ns.viewAfter fuel chain name = .ok (some v) := by
  generalize hw : name :: rest = walk at h
  induction h generalizing name rest chain fuel with
  | @last c r record next =>
    obtain ⟨rfl, rfl⟩ := List.cons.inj hw
    cases fuel with
    | zero => simp at hf
    | succ fuel =>
      have hc : name ∉ chain := hd name (by simp)
      cases hs : View.mergedSuper? ns.roots r with
      | none => simp [viewAfter, hc, record, hs]
      | some superClass =>
        have hsuper : ns.isClass superClass = false := by
          rw [next?_of_record? record, hs] at next
          simpa [Option.filter] using next
        have hu := viewAfter_unregistered (isClass_append hclass (isClass_of_record? record))
          hsuper fuel
        simp [viewAfter, hc, record, hs, hu]
  | @step c superClass more r view record next parent ih =>
    obtain ⟨rfl, rfl⟩ := List.cons.inj hw
    cases fuel with
    | zero => simp at hf
    | succ fuel =>
      have hc : name ∉ chain := hd name (by simp)
      obtain ⟨r', hr', hs, -⟩ := next?_eq_some next
      obtain rfl := Option.some.inj (record.symm.trans hr')
      have hnodup := (Built.step record next parent).nodup
      have hd' : ∀ d ∈ superClass :: more, d ∉ chain ++ [name] := by
        intro d hm hin
        rcases List.mem_append.mp hin with hin | hin
        · exact hd d (List.mem_cons_of_mem _ hm) hin
        · exact (List.nodup_cons.mp hnodup).1 ((List.mem_singleton.mp hin) ▸ hm)
      have hf' : (superClass :: more).length ≤ fuel := by simpa using hf
      have hp := ih (isClass_append hclass (isClass_of_record? record)) hd' hf' rfl
      simp [viewAfter, hc, record, hs, hp]

theorem viewAfter_eq_ok {ns : Namespace} {fuel : Nat} {chain : List String}
    {name : String} {found : Option ClassRecord} (ha : ns.Approach chain name)
    (hf : ns.classCount < fuel + chain.length) (h : ns.viewAfter fuel chain name = .ok found) :
    (found = none ∧ ns.record? name = none) ∨
      ∃ v rest, found = some v ∧ ns.Built (name :: rest) v := by
  induction fuel generalizing chain name found with
  | zero =>
    have hl := length_le_of_nodup ha.distinct ha.isClass
    omega
  | succ fuel ih =>
    by_cases hc : name ∈ chain
    · simp [viewAfter, hc] at h
    · cases hr : ns.record? name with
      | none =>
        left
        simpa [viewAfter, hc, hr, eq_comm] using h
      | some r =>
        right
        cases hs : View.mergedSuper? ns.roots r with
        | none =>
          have hn : ns.next? name = none := by simp [next?_of_record? hr, hs]
          refine ⟨_, [], ?_, .last hr hn⟩
          simpa [viewAfter, hc, hr, hs, eq_comm] using h
        | some superClass =>
          cases hv : ns.viewAfter fuel (chain ++ [name]) superClass with
          | error e => simp [viewAfter, hc, hr, hs, hv] at h
          | ok parent =>
            have hfound : found = some (View.assemble r (ns.mixinsOf r)
                (parent.map (Prod.mk superClass))) := by
              simpa [viewAfter, hc, hr, hs, hv, eq_comm] using h
            have hf' : ns.classCount < fuel + (chain ++ [name]).length := by
              simp only [List.length_append, List.length_singleton]
              omega
            rcases ih (ha.next hc hr hs) hf' hv with ⟨rfl, hnone⟩ | ⟨v, rest, rfl, hb⟩
            · have hn : ns.next? name = none := by
                simp [next?_of_record? hr, hs, isClass, hnone]
              exact ⟨_, [], hfound, .last hr hn⟩
            · have hn : ns.next? name = some superClass := by
                rw [next?_of_record? hr, hs]
                exact Option.filter_eq_some_iff.mpr ⟨rfl, hb.isClass superClass (by simp)⟩
              exact ⟨_, _, hfound, .step hr hn hb⟩

theorem Built.view_eq {ns : Namespace} {name : String} {rest : List String}
    {v : ClassRecord} (h : ns.Built (name :: rest) v) : ns.view name = .ok (some v) := by
  have hl := (approach_nil ns name).length_le h
  simp only [List.length_nil, Nat.zero_add] at hl
  exact h.viewAfter_eq (by simp) (by simp) (by omega)

theorem mixinsOf_congr {ns ns' : Namespace} (h : ∀ name, ns.record? name = ns'.record? name)
    (r : ClassRecord) : ns.mixinsOf r = ns'.mixinsOf r := by simp [mixinsOf, h]

theorem viewAfter_congr {ns ns' : Namespace} (hroots : ns.roots = ns'.roots)
    (h : ∀ name, ns.record? name = ns'.record? name) (fuel : Nat) (chain : List String)
    (name : String) : ns.viewAfter fuel chain name = ns'.viewAfter fuel chain name := by
  induction fuel generalizing chain name with
  | zero => rfl
  | succ fuel ih => simp only [viewAfter, h, hroots, ih, mixinsOf_congr h]

end Namespace

namespace Database

/-- Nothing is on its way, and every remembered view was built along the lineage of its class. -/
structure Sound (db : Database) : Prop where
  placed : db.names.Placed
  idle : db.arrival = none
  built : ∀ name v, db.views.get? name = some v → ∃ rest, db.names.Built (name :: rest) v

theorem Sound.remember {db later : Database} {name : String} {rest : List String} {v : ClassRecord}
    (h : later.Sound) (hn : later.names = db.names) (hb : db.names.Built (name :: rest) v)
    (generation : Nat) : (later.remember generation name v).Sound := by
  refine ⟨by simpa using h.placed, by simpa using h.idle, ?_⟩
  intro other w hw
  rw [remember_names]
  unfold Database.remember at hw
  split at hw
  · rw [Assoc.get?_put] at hw
    split at hw
    · rename_i ho
      obtain rfl := Option.some.inj hw
      exact ⟨rest, hn ▸ ho ▸ hb⟩
    · exact h.built other w hw
  · exact h.built other w hw

/-- With remembered views as without them, the same view is found, or the same cycle. -/
theorem Sound.viewAfter_eq {db : Database} (h : db.Sound) (generation : Nat) {fuel : Nat}
    {chain : List String} {name : String} (ha : db.names.Approach chain name)
    (hf : db.names.classCount < fuel + chain.length) :
    ∃ later, viewAfter generation fuel chain name db =
      ((db.names.viewAfter fuel chain name).mapError .cyclic, later, []) ∧
      later.Sound ∧ later.names = db.names := by
  induction fuel generalizing chain name with
  | zero =>
    have hl := Namespace.length_le_of_nodup ha.distinct ha.isClass
    omega
  | succ fuel ih =>
    rw [viewAfter_idle h.idle]
    by_cases hc : name ∈ chain
    · exact ⟨db, by simp [hc, Namespace.viewAfter, Except.mapError], h, rfl⟩
    · cases hv : db.views.get? name with
      | some v =>
        obtain ⟨rest, hb⟩ := h.built name v hv
        have hl := ha.length_le hb
        have hview : db.names.viewAfter (fuel + 1) chain name = .ok (some v) :=
          hb.viewAfter_eq ha.isClass (ha.disjoint hb) (by omega)
        exact ⟨db, by simp [hc, hview, Except.mapError], h, rfl⟩
      | none =>
        cases hr : db.names.record? name with
        | none => exact ⟨db, by simp [hc, hr, Namespace.viewAfter, Except.mapError], h, rfl⟩
        | some r =>
          cases hs : View.mergedSuper? db.names.roots r with
          | none =>
            have hview : db.names.viewAfter (fuel + 1) chain name =
                .ok (some (View.assemble r (db.names.mixinsOf r) none)) := by
              simp [Namespace.viewAfter, hc, hr, hs]
            have hn : db.names.next? name = none := by simp [Namespace.next?_of_record? hr, hs]
            refine ⟨_, by simp [hc, hs, hview, Except.mapError]; rfl, ?_, remember_names _ _ _ _⟩
            exact h.remember rfl (.last hr hn) generation
          | some superClass =>
            have hf' : db.names.classCount < fuel + (chain ++ [name]).length := by
              simp only [List.length_append, List.length_singleton]
              omega
            obtain ⟨later, he, hsound, hnames⟩ := ih (ha.next hc hr hs) hf'
            cases hp : db.names.viewAfter fuel (chain ++ [name]) superClass with
            | error e =>
              rw [hp] at he
              exact ⟨later, by simp [hc, hs, he, Namespace.viewAfter, hr, hp, Except.mapError],
                hsound, hnames⟩
            | ok parent =>
              rw [hp] at he
              have hview : db.names.viewAfter (fuel + 1) chain name =
                  .ok (some (View.assemble r (db.names.mixinsOf r)
                    (parent.map (Prod.mk superClass)))) := by
                simp [Namespace.viewAfter, hc, hr, hs, hp]
              obtain ⟨hnone, -⟩ | ⟨v, rest, hfound, hb⟩ :=
                Namespace.viewAfter_eq_ok ha hf hview
              · cases hnone
              · refine ⟨_, by simp [hc, hs, he, hview, Except.mapError]; rfl, ?_,
                  (remember_names _ _ _ _).trans hnames⟩
                exact hsound.remember hnames (Option.some.inj hfound ▸ hb) generation

/-- What is reported about a view. -/
def reports (name : String) : Except View.Cycle (Option ClassRecord) → List Event
  | .ok _ => []
  | .error cycle => [cyclic name cycle]

/-- The answer of a sound database is the one that its classes determine, and it stays sound. -/
theorem Sound.view_eq {db : Database} (h : db.Sound) (name : String) :
    ∃ later, db.view name =
      (.ok (db.names.view? name), later, reports name (db.names.view name)) ∧ later.Sound := by
  have hf : db.names.classCount < db.names.classCount + 2 + ([] : List String).length := by simp
  obtain ⟨later, he, hsound, -⟩ := h.viewAfter_eq db.generation (db.names.approach_nil name) hf
  refine ⟨later, ?_, hsound⟩
  have hfuel : db.names.classCount + db.arrival.toList.length + 2 = db.names.classCount + 2 := by
    simp [h.idle]
  simp only [view, hfuel, he]
  change _ = (Except.ok ((db.names.viewAfter _ [] name).toOption.join), later,
    reports name (db.names.viewAfter _ [] name))
  cases db.names.viewAfter (db.names.classCount + 2) [] name with
  | ok found => rfl
  | error cycle => rfl

theorem sound_renew {db : Database} (hi : db.arrival = none) {names : Namespace}
    (hp : names.Placed) : (db.renew names).Sound := ⟨hp, hi, by intro name v hv; cases hv⟩

theorem sound_empty (roots : List String) : (empty roots).Sound :=
  ⟨Namespace.placed_empty roots, rfl, by intro name v hv; cases hv⟩

theorem Sound.after {db : Database} (h : db.Sound) (call : Call) : (db.after call).Sound := by
  cases call with
  | ingest r =>
    simp only [Database.after, Database.ingest]
    cases hi : db.names.insert r with
    | error e => exact h
    | ok names => exact sound_renew h.idle (h.placed.insert hi)
  | remove name =>
    simp only [Database.after, Database.remove]
    by_cases hc : db.names.isClass name = true
    · simp only [if_pos hc]
      exact sound_renew h.idle (h.placed.remove name)
    · simp only [if_neg hc]
      exact h
  | clear => exact sound_renew h.idle (Namespace.placed_empty _)
  | view name =>
    obtain ⟨later, he, hs⟩ := h.view_eq name
    simpa [Database.after, he] using hs

theorem sound_ofHistory (roots : List String) (calls : List Call) : (ofHistory roots calls).Sound := by
  have h : ∀ db : Database, db.Sound → (db.afterAll calls).Sound := by
    induction calls with
    | nil => exact fun db h => h
    | cons call calls ih => exact fun db h => ih (db.after call) (h.after call)
  exact h _ (sound_empty roots)

theorem roots_after {db : Database} (h : db.arrival = none) (call : Call) :
    (db.after call).names.roots = db.names.roots := by
  cases call with
  | ingest r =>
    simp only [Database.after, Database.ingest]
    cases hi : db.names.insert r with
    | error e => rfl
    | ok names => exact Namespace.roots_insert hi
  | remove name =>
    simp only [Database.after, Database.remove]
    by_cases hc : db.names.isClass name = true
    · simp only [if_pos hc]
      exact Namespace.roots_remove _ _
    · simp only [if_neg hc]
  | clear => rfl
  | view name => exact congrArg Namespace.roots (view_frame h name).1

theorem roots_ofHistory (roots : List String) (calls : List Call) :
    (ofHistory roots calls).names.roots = roots := by
  have h : ∀ db : Database, db.Sound → (db.afterAll calls).names.roots = db.names.roots := by
    induction calls with
    | nil => exact fun db _ => rfl
    | cons call calls ih =>
      exact fun db h => (ih (db.after call) (h.after call)).trans (roots_after h.idle call)
  exact h _ (sound_empty roots)

/-- Two histories that leave the same records give the same answers about views. -/
theorem view_ofHistory_congr {roots : List String} {calls other : List Call}
    (h : ∀ name, (ofHistory roots other).names.record? name =
      (ofHistory roots calls).names.record? name) (name : String) :
    ((ofHistory roots other).view name).1 = ((ofHistory roots calls).view name).1 ∧
      ((ofHistory roots other).view name).2.2 = ((ofHistory roots calls).view name).2.2 := by
  have ht := tracks_ofHistory roots calls
  have ht' := tracks_ofHistory roots other
  have hm : Registry.ofHistory other = Registry.ofHistory calls :=
    Finmap.ext_lookup fun name => by rw [← ht'.record?, ← ht.record?, h]
  have hcount : (ofHistory roots other).names.classCount =
      (ofHistory roots calls).names.classCount := by
    rw [ht'.represents.classCount_eq_card, ht.represents.classCount_eq_card, hm]
  have hroots : (ofHistory roots other).names.roots = (ofHistory roots calls).names.roots := by
    rw [roots_ofHistory, roots_ofHistory]
  have hview : (ofHistory roots other).names.view name = (ofHistory roots calls).names.view name := by
    rw [Namespace.view, hcount]
    exact Namespace.viewAfter_congr hroots h _ _ _
  obtain ⟨later, he, -⟩ := (sound_ofHistory roots calls).view_eq name
  obtain ⟨later', he', -⟩ := (sound_ofHistory roots other).view_eq name
  rw [he, he', Namespace.view?, Namespace.view?, hview]
  exact ⟨rfl, rfl⟩

end Database

/-- The records of all classes, in the order of their names. -/
def Namespace.records (ns : Namespace) : List ClassRecord := ns.classNames.filterMap ns.record?

theorem Namespace.Placed.mem_records_iff {ns : Namespace} (h : ns.Placed) (r : ClassRecord) :
    r ∈ ns.records ↔ ns.record? r.name = some r := by
  constructor
  · intro hm
    obtain ⟨name, -, hr⟩ := List.mem_filterMap.mp hm
    rw [h.record?_name hr, hr]
  · intro hr
    have hn : r.name ∈ ns.classNames :=
      (sortTexts_perm _).mem_iff.mpr ((h.mem_registered_iff r.name).mpr (by simp [isClass, hr]))
    exact List.mem_filterMap.mpr ⟨r.name, hn, hr⟩

theorem Registry.lookup_afterAll_ingest (m : Registry) {records : List ClassRecord}
    (hn : ∀ r ∈ records, "" ∉ Text.segments r.name)
    (hd : ∀ r ∈ records, ∀ r' ∈ records, r.name = r'.name → r = r') (name : String) :
    (m.afterAll (records.map .ingest)).lookup name =
      (records.find? (·.name == name)).or (m.lookup name) := by
  induction records generalizing m with
  | nil => simp [afterAll]
  | cons r rest ih =>
    have hstep : m.afterAll ((r :: rest).map .ingest) =
        afterAll (m.insert r.name r) (rest.map .ingest) := by
      simp [afterAll, after, hn r (by simp)]
    rw [hstep, ih (m.insert r.name r) (fun s hs => hn s (by simp [hs]))
      (fun s hs s' hs' => hd s (by simp [hs]) s' (by simp [hs']))]
    by_cases he : r.name = name
    · subst he
      rw [Finmap.lookup_insert]
      cases hf : rest.find? (·.name == r.name) with
      | none => simp
      | some r' =>
        have hm : r' ∈ rest := List.mem_of_find?_eq_some hf
        have hname : r'.name = r.name := by simpa using List.find?_some hf
        simp [hd r' (by simp [hm]) r (by simp) hname]
    · rw [Finmap.lookup_insert_of_ne _ (Ne.symm he)]
      simp [he]

namespace Database

/-- A fresh database to which the records of another are given, in any order, has the same
records. -/
theorem record?_ofHistory_ingest {roots : List String} {calls : List Call}
    {records : List ClassRecord} (h : records.Perm (ofHistory roots calls).names.records)
    (name : String) : (ofHistory roots (records.map .ingest)).names.record? name =
      (ofHistory roots calls).names.record? name := by
  have hp := (tracks_ofHistory roots calls).placed
  have hmem : ∀ r ∈ records, (ofHistory roots calls).names.record? r.name = some r := fun r hr =>
    (hp.mem_records_iff r).mp (h.mem_iff.mp hr)
  have hn : ∀ r ∈ records, "" ∉ Text.segments r.name := by
    intro r hr
    obtain ⟨path, hs, -⟩ := Option.bind_eq_some_iff.mp
      ((Namespace.record?_eq _ _).symm.trans (hmem r hr))
    exact (Text.segments?_eq_some.mp hs).1
  have hd : ∀ r ∈ records, ∀ r' ∈ records, r.name = r'.name → r = r' := by
    intro r hr r' hr' he
    have hs := (hmem r hr).symm.trans (he ▸ hmem r' hr')
    exact Option.some.inj hs
  rw [(tracks_ofHistory roots (records.map .ingest)).record?, Registry.ofHistory,
    Registry.lookup_afterAll_ingest ∅ hn hd, Finmap.lookup_empty, Option.or_none]
  cases hr : (ofHistory roots calls).names.record? name with
  | none =>
    rw [List.find?_eq_none]
    intro r hm he
    have hname : r.name = name := by simpa using he
    rw [← hname, hmem r hm] at hr
    cases hr
  | some r =>
    have hname := hp.record?_name hr
    have hm : r ∈ records := h.mem_iff.mpr ((hp.mem_records_iff r).mpr (hname ▸ hr))
    cases hf : records.find? (·.name == name) with
    | none => exact absurd (List.find?_eq_none.mp hf r hm) (by simp [hname])
    | some r' =>
      have hname' : r'.name = name := by simpa using List.find?_some hf
      have hr' := hmem r' (List.mem_of_find?_eq_some hf)
      rw [hname', hr] at hr'
      exact hr'.symm

/-- Remembered views are invisible. After any history, a view and what is reported about it are those
of a fresh database that is given the current records in any order, and those of every other history
that leaves the same records. -/
theorem view_ofHistory_eq_fresh (roots : List String) (calls : List Call)
    (records : List ClassRecord) (h : records.Perm (ofHistory roots calls).names.records)
    (name : String) :
    ((ofHistory roots calls).view name).1 =
        ((ofHistory roots (records.map .ingest)).view name).1 ∧
      ((ofHistory roots calls).view name).2.2 =
        ((ofHistory roots (records.map .ingest)).view name).2.2 ∧
      ∀ other, (∀ n, (ofHistory roots other).names.record? n =
          (ofHistory roots calls).names.record? n) →
        ((ofHistory roots other).view name).1 = ((ofHistory roots calls).view name).1 ∧
        ((ofHistory roots other).view name).2.2 = ((ofHistory roots calls).view name).2.2 := by
  obtain ⟨hv, he⟩ := view_ofHistory_congr (record?_ofHistory_ingest h) name
  exact ⟨hv.symm, he.symm, fun other ho => view_ofHistory_congr ho name⟩

/-- A class is looked at before its superclass arrives, and the superclass closes a cycle. -/
def lateCycle : List Call :=
  [.ingest (.bare "b" (some "a")), .view "b", .ingest (.bare "a" (some "b")), .view "b"]

theorem view_lateCycle_eq_fresh :
    [ClassRecord.bare "b" (some "a"), .bare "a" (some "b")].Perm
      (ofHistory [] lateCycle).names.records ∧
    ((ofHistory [] lateCycle).view "b").2.2 =
      ((ofHistory [] [.ingest (.bare "b" (some "a")), .ingest (.bare "a" (some "b"))]).view
        "b").2.2 := by
  have hr : (ofHistory [] lateCycle).names.records =
      [ClassRecord.bare "a" (some "b"), .bare "b" (some "a")] := by cbv
  have hp : [ClassRecord.bare "b" (some "a"), .bare "a" (some "b")].Perm
      (ofHistory [] lateCycle).names.records := hr ▸ List.Perm.swap _ _ _
  exact ⟨hp, (view_ofHistory_eq_fresh [] lateCycle _ hp "b").2.1⟩

end Database
end ScriptSense
