import Mathlib.Algebra.Ring.Int.Defs
import ScriptSense.Data.Merge
import ScriptSense.Proofs.Data.Assoc

/-! Structures laid over each other, read by paths of keys. Laying one mapping over another acts key by
key, and everything else replaces what it is laid over. Main statement: the leaves of the result are
the leaves of the upper structure, and those of the lower one that the upper one neither has at their
path nor cuts off on the way. -/
namespace ScriptSense

namespace Binary64.Exact

theorem unitsAt_lower (x : Exact) {low m : Int} (hlow : low ≤ x.exponent) (hm : m ≤ low) :
    x.unitsAt m = x.unitsAt low * 2 ^ (low - m).toNat := by
  have hexp : (x.exponent - m).toNat = (x.exponent - low).toNat + (low - m).toNat := by omega
  change x.units * (2 : Int) ^ (x.exponent - m).toNat =
    x.units * (2 : Int) ^ (x.exponent - low).toNat * 2 ^ (low - m).toNat
  rw [hexp, Int.pow_add, Int.mul_assoc]

/-- Numbers are compared by their units at any exponent that is low enough for both. -/
theorem same_iff {x y : Exact} {m : Int} (hx : m ≤ x.exponent) (hy : m ≤ y.exponent) :
    x.same y = true ↔ x.unitsAt m = y.unitsAt m := by
  have hm : m ≤ min x.exponent y.exponent := by omega
  have hne : (2 : Int) ^ (min x.exponent y.exponent - m).toNat ≠ 0 :=
    Int.pow_ne_zero (by decide)
  rw [same, beq_iff_eq, x.unitsAt_lower (Int.min_le_left _ _) hm,
    y.unitsAt_lower (Int.min_le_right _ _) hm, Int.mul_eq_mul_right_iff hne]

theorem same_symm {x y : Exact} (h : x.same y = true) : y.same x = true := by
  have hx := Int.min_le_left x.exponent y.exponent
  have hy := Int.min_le_right x.exponent y.exponent
  rw [same_iff hx hy] at h
  rw [same_iff hy hx, h]

theorem same_trans {x y z : Exact} (h : x.same y = true) (h' : y.same z = true) :
    x.same z = true := by
  have hm : ∃ m, m ≤ x.exponent ∧ m ≤ y.exponent ∧ m ≤ z.exponent :=
    ⟨min x.exponent (min y.exponent z.exponent), by omega, by omega, by omega⟩
  obtain ⟨m, hx, hy, hz⟩ := hm
  rw [same_iff hx hy] at h
  rw [same_iff hy hz] at h'
  rw [same_iff hx hz, h, h']

end Binary64.Exact

namespace Value

/-! Keys. -/

inductive SameKey : Value → Value → Prop
  | null : SameKey null null
  | str (s : String) : SameKey (str s) (str s)
  | bytes (content : List UInt8) : SameKey (bytes content) (bytes content)
  | infinite (negative : Bool) : SameKey (float (.infinite negative)) (float (.infinite negative))
  | other (shown : String) (text text' : String) : SameKey (other text shown) (other text' shown)
  | number {a b : Value} {x y : Binary64.Exact} (ha : a.number? = some x) (hb : b.number? = some y)
      (h : x.same y = true) : SameKey a b

theorem sameKey_iff (a b : Value) : a.sameKey b = true ↔ SameKey a b := by
  constructor
  · intro h
    unfold sameKey at h
    split at h
    · exact .null
    · rw [beq_iff_eq.mp h]
      exact .str _
    · rw [beq_iff_eq.mp h]
      exact .bytes _
    · rw [beq_iff_eq.mp h]
      exact .infinite _
    · rw [beq_iff_eq.mp h]
      exact .other _ _ _
    · split at h
      · rename_i x y ha hb
        exact .number ha hb h
      · cases h
  · intro h
    cases h with
    | null => rfl
    | str s => simp [sameKey]
    | bytes content => simp [sameKey]
    | infinite negative => simp [sameKey]
    | other shown text text' => simp [sameKey]
    | number ha hb h =>
      unfold sameKey
      split
      case h_6 => rw [ha, hb]; exact h
      all_goals cases ha

theorem SameKey.symm {a b : Value} (h : SameKey a b) : SameKey b a := by
  cases h with
  | number ha hb h => exact .number hb ha (Binary64.Exact.same_symm h)
  | other shown text text' => exact .other shown text' text
  | _ => constructor

theorem SameKey.trans {a b c : Value} (h : SameKey a b) (h' : SameKey b c) : SameKey a c := by
  cases h with
  | number ha hb h =>
    cases h' with
    | number hb' hc h' =>
      cases hb.symm.trans hb'
      exact .number ha hc (Binary64.Exact.same_trans h h')
    | _ => cases hb
  | other shown text text' =>
    cases h' with
    | other => exact .other shown text _
    | number hb => cases hb
  | _ => exact h'

/-! Rows. -/

def Distinct (rows : List (Value × Value)) : Prop :=
  rows.Pairwise fun row other => ¬ row.1.sameKey other.1 = true

def named (entries : Assoc Value) : List (Value × Value) := entries.map fun e => (str e.1, e.2)

theorem rowOf?_cons (row : Value × Value) (rest : List (Value × Value)) (key : Value) :
    rowOf? (row :: rest) key = if row.1.sameKey key then some row.2 else rowOf? rest key := by
  rw [rowOf?, rowOf?, List.find?_cons]
  cases row.1.sameKey key <;> rfl

theorem rowOf?_eq_some {rows : List (Value × Value)} {key v : Value} (h : rowOf? rows key = some v) :
    ∃ row ∈ rows, row.1.sameKey key = true ∧ row.2 = v := by
  obtain ⟨row, hrow, hv⟩ := Option.map_eq_some_iff.mp h
  have hsame := List.find?_some hrow
  exact ⟨row, List.mem_of_find?_eq_some hrow, hsame, hv⟩

theorem rowOf?_congr (rows : List (Value × Value)) {key other : Value} (h : SameKey key other) :
    rowOf? rows key = rowOf? rows other := by
  induction rows with
  | nil => rfl
  | cons row rest ih =>
    have hsame : row.1.sameKey key = row.1.sameKey other := by
      rw [Bool.eq_iff_iff, sameKey_iff, sameKey_iff]
      exact ⟨fun hk => hk.trans h, fun hk => hk.trans h.symm⟩
    rw [rowOf?_cons, rowOf?_cons, hsame, ih]

theorem rowOf?_putRow (rows : List (Value × Value)) (key value other : Value) :
    rowOf? (putRow rows key value) other =
      if key.sameKey other then some value else rowOf? rows other := by
  induction rows with
  | nil => rw [putRow, rowOf?_cons]
  | cons row rest ih =>
    rw [putRow]
    by_cases hrow : row.1.sameKey key = true
    · have hsame : row.1.sameKey other = key.sameKey other := by
        rw [Bool.eq_iff_iff, sameKey_iff, sameKey_iff]
        have hkey := (sameKey_iff _ _).mp hrow
        exact ⟨hkey.symm.trans, hkey.trans⟩
      rw [if_pos hrow, rowOf?_cons, rowOf?_cons, hsame]
      cases key.sameKey other <;> simp
    · rw [if_neg hrow, rowOf?_cons, rowOf?_cons, ih]
      by_cases hkey : key.sameKey other = true
      · have hne : ¬ row.1.sameKey other = true := by
          rw [sameKey_iff] at hrow hkey ⊢
          exact fun h => hrow (h.trans hkey.symm)
        simp [hkey, hne]
      · simp [hkey]

theorem rowOf?_mergeRows (base : List (Value × Value)) {top : List (Value × Value)}
    (h : Distinct top) (key : Value) : rowOf? (mergeRows base top) key =
      match rowOf? top key with
      | some v => some (merge (rowOf? base key) v)
      | none => rowOf? base key := by
  induction top generalizing base with
  | nil => rw [mergeRows]; rfl
  | cons row rest ih =>
    obtain ⟨k, v⟩ := row
    obtain ⟨hfirst, hrest⟩ := List.pairwise_cons.mp h
    rw [mergeRows, ih _ hrest, rowOf?_cons, rowOf?_putRow]
    by_cases hk : k.sameKey key = true
    · have hnone : rowOf? rest key = none := by
        cases hr : rowOf? rest key with
        | none => rfl
        | some w =>
          obtain ⟨row, hmem, hsame, -⟩ := rowOf?_eq_some hr
          have hkeys := ((sameKey_iff _ _).mp hk).trans ((sameKey_iff _ _).mp hsame).symm
          exact absurd ((sameKey_iff _ _).mpr hkeys) (hfirst row hmem)
      have hbase := rowOf?_congr base ((sameKey_iff _ _).mp hk)
      simp [hk, hnone, hbase]
    · simp [hk]

theorem mem_putRow {rows : List (Value × Value)} {key value : Value} {row : Value × Value}
    (h : row ∈ putRow rows key value) : row.1 = key ∨ ∃ old ∈ rows, old.1 = row.1 := by
  induction rows with
  | nil => exact .inl (by rw [List.mem_singleton.mp h])
  | cons first rest ih =>
    rw [putRow] at h
    split at h
    · rcases List.mem_cons.mp h with rfl | hr
      · exact .inr ⟨first, List.mem_cons_self, rfl⟩
      · exact .inr ⟨row, List.mem_cons_of_mem _ hr, rfl⟩
    · rcases List.mem_cons.mp h with rfl | hr
      · exact .inr ⟨row, List.mem_cons_self, rfl⟩
      · rcases ih hr with he | ⟨old, hold, he⟩
        · exact .inl he
        · exact .inr ⟨old, List.mem_cons_of_mem _ hold, he⟩

theorem Distinct.putRow {rows : List (Value × Value)} (h : Distinct rows) (key value : Value) :
    Distinct (putRow rows key value) := by
  induction rows with
  | nil => exact List.pairwise_singleton _ _
  | cons first rest ih =>
    obtain ⟨hfirst, hrest⟩ := List.pairwise_cons.mp h
    rw [Value.putRow]
    split
    · exact List.pairwise_cons.mpr ⟨hfirst, hrest⟩
    · rename_i hne
      refine List.pairwise_cons.mpr ⟨fun row hrow => ?_, ih hrest⟩
      rcases mem_putRow hrow with he | ⟨old, hold, he⟩
      · rwa [he]
      · rw [← he]
        exact hfirst old hold

theorem Distinct.mergeRows {base : List (Value × Value)} (h : Distinct base)
    (top : List (Value × Value)) : Distinct (mergeRows base top) := by
  induction top generalizing base with
  | nil => rwa [Value.mergeRows]
  | cons row rest ih =>
    rw [Value.mergeRows]
    exact ih (h.putRow _ _)

/-! Maps are tables whose keys are texts. -/

theorem str_sameKey (a b : String) : (str a).sameKey (str b) = (a == b) := rfl

theorem named_put (m : Assoc Value) (key : String) (value : Value) :
    named (m.put key value) = putRow (named m) (str key) value := by
  induction m with
  | nil => rfl
  | cons entry rest ih =>
    have hrow : putRow (named (entry :: rest)) (str key) value =
        if entry.1 == key then (str entry.1, value) :: named rest
        else (str entry.1, entry.2) :: putRow (named rest) (str key) value := rfl
    rw [Assoc.put, hrow]
    by_cases he : entry.1 = key
    · simp [he, named]
    · have hne : (entry.1 == key) = false := by simpa using he
      rw [hne, if_neg Bool.false_ne_true, if_neg Bool.false_ne_true, ← ih]
      rfl

theorem rowOf?_named (m : Assoc Value) (key : String) : rowOf? (named m) (str key) = m.get? key := by
  induction m with
  | nil => rfl
  | cons entry rest ih =>
    have hrow : rowOf? (named (entry :: rest)) (str key) =
        if entry.1 == key then some entry.2 else rowOf? (named rest) (str key) := by
      rw [named, List.map_cons, rowOf?_cons]
      rfl
    rw [hrow, ih, Assoc.get?_cons, BEq.comm]

theorem sameKey_str (a : Value) (key : String) : a.sameKey (str key) = true ↔ a = str key := by
  rw [sameKey_iff]
  constructor
  · intro h
    cases h with
    | str => rfl
    | number _ hb => cases hb
  · rintro rfl
    exact .str key

theorem namedRows_cons (row : Value × Value) (rest : List (Value × Value)) :
    (∃ key, row.1 = str key ∧ namedRows (row :: rest) = (key, row.2) :: namedRows rest) ∨
      (∀ key, row.1 ≠ str key) ∧ namedRows (row :: rest) = namedRows rest := by
  obtain ⟨k, v⟩ := row
  cases k with
  | str key => exact .inl ⟨key, rfl, rfl⟩
  | _ => exact .inr ⟨by simp, rfl⟩

theorem get?_namedRows (rows : List (Value × Value)) (key : String) :
    Assoc.get? (namedRows rows) key = rowOf? rows (str key) := by
  induction rows with
  | nil => rfl
  | cons row rest ih =>
    rw [rowOf?_cons]
    rcases namedRows_cons row rest with ⟨k, hk, hrows⟩ | ⟨hother, hrows⟩
    · rw [hrows, Assoc.get?_cons, ih, hk, str_sameKey, BEq.comm]
    · have hne : ¬ row.1.sameKey (str key) = true := by
        rw [sameKey_str]
        exact hother key
      rw [hrows, ih, if_neg hne]

theorem named_mergeEntries (base top : Assoc Value) :
    named (mergeEntries base top) = mergeRows (named base) (named top) := by
  induction top generalizing base with
  | nil => rw [mergeEntries_nil, named, named, List.map_nil, mergeRows]
  | cons entry rest ih =>
    obtain ⟨key, v⟩ := entry
    have hcons : named ((key, v) :: rest) = (str key, v) :: named rest := rfl
    rw [mergeEntries, ih, hcons, mergeRows, named_put, rowOf?_named]

theorem mergeNamed_eq (base : List (Value × Value)) (top : Assoc Value) :
    mergeNamed base top = mergeRows base (named top) := by
  induction top generalizing base with
  | nil => rw [mergeNamed, named, List.map_nil, mergeRows]
  | cons entry rest ih =>
    obtain ⟨key, v⟩ := entry
    have hcons : named ((key, v) :: rest) = (str key, v) :: named rest := rfl
    rw [mergeNamed, ih, hcons, mergeRows]

theorem named_namedRows {rows : List (Value × Value)}
    (h : (namedRows rows).length = rows.length) : named (namedRows rows) = rows := by
  induction rows with
  | nil => rfl
  | cons row rest ih =>
    have hle : (namedRows rest).length ≤ rest.length := List.length_filterMap_le _ _
    rcases namedRows_cons row rest with ⟨key, hk, hrows⟩ | ⟨-, hrows⟩
    · rw [hrows, List.length_cons, List.length_cons] at h
      have hrest := ih (Nat.succ.inj h)
      rw [named] at hrest
      rw [hrows, named, List.map_cons, hrest, ← hk]
    · rw [hrows, List.length_cons] at h
      omega

theorem rows?_map (entries : Assoc Value) : (map entries).rows? = some (named entries) := rfl

theorem rows?_ofRows (rows : List (Value × Value)) : (ofRows rows).rows? = some rows := by
  rw [ofRows]
  by_cases h : (namedRows rows).length = rows.length
  · simp [h, rows?_map, named_namedRows h]
  · simp [h, rows?, bare]

theorem namedRows_named (entries : Assoc Value) : namedRows (named entries) = entries := by
  induction entries with
  | nil => rfl
  | cons entry rest ih =>
    have hcons : namedRows (named (entry :: rest)) = entry :: namedRows (named rest) := rfl
    rw [hcons, ih]

theorem entries?_of_rows? {v : Value} {rows : List (Value × Value)} (h : v.rows? = some rows) :
    v.entries? = some (namedRows rows) := by
  rw [rows?] at h
  rw [entries?]
  cases hv : v.bare with
  | map entries =>
    rw [hv] at h
    obtain rfl := Option.some.inj h
    exact congrArg some (namedRows_named entries).symm
  | table inner =>
    rw [hv] at h
    obtain rfl := Option.some.inj h
    rfl
  | _ =>
    rw [hv] at h
    cases h

theorem rows?_merge {base : Value} {old : List (Value × Value)} (hb : base.rows? = some old) :
    ∀ {top : Value} {rows : List (Value × Value)}, top.rows? = some rows →
      (merge (some base) top).rows? = some (mergeRows old rows)
  | map entries, rows, ht => by
    obtain rfl : named entries = rows := Option.some.inj ht
    cases base with
    | map lower =>
      obtain rfl : named lower = old := Option.some.inj hb
      rw [merge_map_map, rows?_map, named_mergeEntries]
    | table lower => simp [merge, hb, rows?_ofRows, mergeNamed_eq]
    | styled text v => simp [merge, hb, rows?_ofRows, mergeNamed_eq]
    | _ => cases hb
  | table top, rows, ht => by
    obtain rfl : top = rows := Option.some.inj ht
    simp [merge, hb, rows?_ofRows]
  | styled text v, rows, ht => by
    have hv : v.rows? = some rows := ht
    have hmerge : merge (some base) (styled text v) = merge (some base) v := by
      simp [merge, hb, hv]
    rw [hmerge, rows?_merge hb hv]

theorem merge_of_rows?_none {top : Value} (h : top.rows? = none) (base : Option Value) :
    merge base top = top := by
  cases top with
  | map entries => cases h
  | table rows => cases h
  | styled text v =>
    have hv : v.rows? = none := h
    simp [merge, hv]
  | _ => simp [merge]

theorem merge_of_rows?_none_left {base : Value} (h : base.rows? = none) (top : Value) :
    merge (some base) top = top := by
  cases top with
  | map entries =>
    cases base with
    | map lower => cases h
    | _ => simp [merge, h]
  | table rows => simp [merge, h]
  | styled text v => simp [merge, h]
  | _ => simp [merge]

theorem merge_eq_or (base top : Value) : merge (some base) top = top ∨
    (base.rows?.isSome = true ∧ top.rows?.isSome = true) := by
  cases hb : base.rows? with
  | none => exact .inl (merge_of_rows?_none_left hb top)
  | some old =>
    cases ht : top.rows? with
    | none => exact .inl (merge_of_rows?_none ht _)
    | some rows => exact .inr ⟨rfl, rfl⟩

/-! Paths. -/

def child? (v key : Value) : Option Value := v.rows?.bind (rowOf? · key)

/-- What is found along a path of keys. -/
def at? : Value → List Value → Option Value
  | v, [] => some v
  | v, key :: path => (v.child? key).bind fun w => at? w path

/-- A path leads to something that is no mapping. -/
def Leaf (v : Value) (path : List Value) (w : Value) : Prop := v.at? path = some w ∧ w.rows? = none

/-- No mapping in a structure has a key twice. -/
def Tidy (v : Value) : Prop :=
  ∀ path w rows, v.at? path = some w → w.rows? = some rows → Distinct rows

theorem Tidy.child {v key w : Value} (h : v.Tidy) (hw : v.child? key = some w) : w.Tidy := by
  intro path u rows hu hrows
  refine h (key :: path) u rows ?_ hrows
  rw [at?, hw]
  exact hu

theorem Tidy.nodup_keys {entries : Assoc Value} (h : (map entries).Tidy) : entries.keys.Nodup := by
  have hdistinct : Distinct (named entries) := h [] (map entries) (named entries) rfl rfl
  rw [Distinct, named, List.pairwise_map] at hdistinct
  rw [Assoc.keys, List.Nodup, List.pairwise_map]
  exact hdistinct.imp fun hne he => hne (by rw [str_sameKey, he, beq_self_eq_true])

theorem child?_of_rows?_none {v : Value} (h : v.rows? = none) (key : Value) :
    v.child? key = none := by
  rw [child?, h]
  rfl

theorem leaf_nil (v w : Value) : v.Leaf [] w ↔ v = w ∧ v.rows? = none := by
  constructor
  · rintro ⟨hv, hw⟩
    obtain rfl := Option.some.inj hv
    exact ⟨rfl, hw⟩
  · rintro ⟨rfl, hv⟩
    exact ⟨rfl, hv⟩

theorem leaf_cons_of_child? {v key u : Value} (h : v.child? key = some u) (path : List Value)
    (w : Value) : v.Leaf (key :: path) w ↔ u.Leaf path w := by
  rw [Leaf, Leaf, at?, h, Option.bind_some]

theorem not_leaf_of_child? {v key : Value} (h : v.child? key = none) (path : List Value)
    (w : Value) : ¬ v.Leaf (key :: path) w := by
  rw [Leaf, at?, h]
  rintro ⟨hw, -⟩
  cases hw

theorem leaf_of_rows?_none {v : Value} (h : v.rows? = none) (path : List Value) (w : Value) :
    v.Leaf path w ↔ path = [] ∧ v = w := by
  cases path with
  | nil => simp [leaf_nil, h]
  | cons key path => simpa using not_leaf_of_child? (child?_of_rows?_none h key) path w

theorem child?_merge {base top : Value} (hb : base.rows?.isSome = true)
    (ht : top.rows?.isSome = true) (h : top.Tidy) (key : Value) :
    (merge (some base) top).child? key =
      match top.child? key with
      | some v => some (merge (base.child? key) v)
      | none => base.child? key := by
  obtain ⟨old, hold⟩ := Option.isSome_iff_exists.mp hb
  obtain ⟨rows, hrows⟩ := Option.isSome_iff_exists.mp ht
  have hdistinct : Distinct rows := h [] top rows rfl hrows
  rw [child?, rows?_merge hold hrows, child?, child?, hold, hrows]
  exact rowOf?_mergeRows old hdistinct key

theorem tidy_of_rows?_none {v : Value} (h : v.rows? = none) : v.Tidy := by
  intro path w rows hw hrows
  cases path with
  | nil =>
    obtain rfl := Option.some.inj hw
    rw [h] at hrows
    cases hrows
  | cons key path =>
    rw [at?, child?_of_rows?_none h] at hw
    cases hw

theorem Tidy.single {v : Value} (h : v.Tidy) (key : String) : (map [(key, v)]).Tidy := by
  intro path w rows hw hrows
  cases path with
  | nil =>
    obtain rfl := Option.some.inj hw
    obtain rfl := Option.some.inj hrows
    exact List.pairwise_singleton _ _
  | cons other path =>
    have hchild : (map [(key, v)]).child? other = if (str key).sameKey other then some v else none :=
      rowOf?_cons _ _ _
    rw [at?, hchild] at hw
    split at hw
    · exact h path w rows hw hrows
    · cases hw

theorem Tidy.merge {base top : Value} (hb : base.Tidy) (ht : top.Tidy) :
    (merge (some base) top).Tidy := by
  intro path u rows hu hrows
  induction path generalizing base top with
  | nil =>
    obtain rfl := Option.some.inj hu
    rcases merge_eq_or base top with he | ⟨hbr, htr⟩
    · exact ht [] top rows rfl (he ▸ hrows)
    · obtain ⟨old, hold⟩ := Option.isSome_iff_exists.mp hbr
      obtain ⟨new, hnew⟩ := Option.isSome_iff_exists.mp htr
      rw [rows?_merge hold hnew] at hrows
      obtain rfl := Option.some.inj hrows
      exact (hb [] base old rfl hold).mergeRows new
  | cons key path ih =>
    rcases merge_eq_or base top with he | ⟨hbr, htr⟩
    · exact ht (key :: path) u rows (he ▸ hu) hrows
    · have hchild := child?_merge hbr htr ht key
      cases hc : top.child? key with
      | none =>
        rw [hc] at hchild
        rw [at?, hchild] at hu
        exact hb (key :: path) u rows hu hrows
      | some v =>
        rw [hc] at hchild
        rw [at?, hchild, Option.bind_some] at hu
        cases hbc : base.child? key with
        | none =>
          rw [hbc, merge_none] at hu
          exact ht.child hc path u rows hu hrows
        | some b =>
          rw [hbc] at hu
          exact ih (hb.child hbc) (ht.child hc) hu

/-- The upper structure has something at the path, or something that is no mapping on the way. -/
def Covers (top : Value) (path : List Value) : Prop :=
  (∃ v, top.at? path = some v) ∨
    ∃ front, front <+: path ∧ front ≠ path ∧ ∃ v, top.Leaf front v

theorem covers_nil (top : Value) : top.Covers [] := .inl ⟨top, rfl⟩

theorem covers_of_rows?_none {top : Value} (h : top.rows? = none) (path : List Value) :
    top.Covers path := by
  cases path with
  | nil => exact covers_nil top
  | cons key path => exact .inr ⟨[], List.nil_prefix, by simp, top, rfl, h⟩

theorem not_covers_of_child? {top key : Value} (h : top.child? key = none)
    (ht : top.rows?.isSome = true) (path : List Value) : ¬ top.Covers (key :: path) := by
  rintro (⟨v, hv⟩ | ⟨front, hfront, -, v, hleaf⟩)
  · rw [at?, h] at hv
    cases hv
  · cases front with
    | nil =>
      rw [((leaf_nil top v).mp hleaf).2] at ht
      cases ht
    | cons other front =>
      obtain ⟨rfl, -⟩ := List.cons_prefix_cons.mp hfront
      exact not_leaf_of_child? h front v hleaf

theorem covers_cons_of_child? {top key v : Value} (h : top.child? key = some v)
    (ht : top.rows?.isSome = true) (path : List Value) :
    top.Covers (key :: path) ↔ v.Covers path := by
  constructor
  · rintro (⟨u, hu⟩ | ⟨front, hfront, hne, u, hleaf⟩)
    · rw [at?, h] at hu
      exact .inl ⟨u, hu⟩
    · cases front with
      | nil =>
        rw [((leaf_nil top u).mp hleaf).2] at ht
        cases ht
      | cons other front =>
        obtain ⟨rfl, hrest⟩ := List.cons_prefix_cons.mp hfront
        exact .inr ⟨front, hrest, fun he => hne (by rw [he]), u,
          (leaf_cons_of_child? h front u).mp hleaf⟩
  · rintro (⟨u, hu⟩ | ⟨front, hfront, hne, u, hleaf⟩)
    · refine .inl ⟨u, ?_⟩
      rw [at?, h]
      exact hu
    · exact .inr ⟨key :: front, List.cons_prefix_cons.mpr ⟨rfl, hfront⟩,
        fun he => hne (List.cons.inj he).2, u, (leaf_cons_of_child? h front u).mpr hleaf⟩

/-- The leaves of two mappings laid over each other. -/
theorem leaf_merge_iff {base top : Value} (hb : base.rows?.isSome = true)
    (ht : top.rows?.isSome = true) (h : top.Tidy) (path : List Value) (w : Value) :
    (merge (some base) top).Leaf path w ↔
      top.Leaf path w ∨ (base.Leaf path w ∧ ¬ top.Covers path) := by
  induction path generalizing base top with
  | nil =>
    obtain ⟨old, hold⟩ := Option.isSome_iff_exists.mp hb
    obtain ⟨rows, hrows⟩ := Option.isSome_iff_exists.mp ht
    simp [leaf_nil, rows?_merge hold hrows, hold, hrows]
  | cons key path ih =>
    have hchild := child?_merge hb ht h key
    cases hc : top.child? key with
    | none =>
      rw [hc] at hchild
      have hbase : (merge (some base) top).Leaf (key :: path) w ↔ base.Leaf (key :: path) w := by
        rw [Leaf, Leaf, at?, at?, hchild]
      simp [hbase, not_leaf_of_child? hc, not_covers_of_child? hc ht]
    | some v =>
      rw [hc] at hchild
      rw [leaf_cons_of_child? hchild, leaf_cons_of_child? hc, covers_cons_of_child? hc ht]
      cases hv : v.rows? with
      | none => simp [merge_of_rows?_none hv, covers_of_rows?_none hv]
      | some rows =>
        cases hbc : base.child? key with
        | none => simp [not_leaf_of_child? hbc]
        | some b =>
          rw [leaf_cons_of_child? hbc]
          cases hbr : b.rows? with
          | none =>
            have hcut : ¬ (b.Leaf path w ∧ ¬ v.Covers path) := by
              rintro ⟨hleaf, hcovers⟩
              obtain ⟨rfl, -⟩ := (leaf_of_rows?_none hbr path w).mp hleaf
              exact hcovers (covers_nil v)
            simp [merge_of_rows?_none_left hbr, hcut]
          | some old => exact ih (by rw [hbr]; rfl) (by rw [hv]; rfl) (h.child hc)

end Value

end ScriptSense
