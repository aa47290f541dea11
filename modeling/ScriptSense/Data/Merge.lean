import ScriptSense.Data.Value

/-! One structure laid over another. Maps are united key by key, at every depth; anything else,
lists included, replaces what it is laid over. -/
namespace ScriptSense
namespace Value

mutual

def mergeEntries (base : Assoc Value) : List (String × Value) → Assoc Value
  | [] => base
  | (key, top) :: rest => mergeEntries (Assoc.put base key (merge (Assoc.get? base key) top)) rest

def mergeNamed (base : List (Value × Value)) : List (String × Value) → List (Value × Value)
  | [] => base
  | (key, top) :: rest =>
    mergeNamed (putRow base (str key) (merge (rowOf? base (str key)) top)) rest

def mergeRows (base : List (Value × Value)) : List (Value × Value) → List (Value × Value)
  | [] => base
  | (key, top) :: rest => mergeRows (putRow base key (merge (rowOf? base key) top)) rest

/-- Lays a value over another one, if there is one. -/
def merge (base : Option Value) : Value → Value
  | map entries =>
    match base with
    | some (map old) => map (mergeEntries old entries)
    | some v =>
      match v.rows? with
      | some rows => ofRows (mergeNamed rows entries)
      | none => map entries
    | none => map entries
  | table rows =>
    match base.bind rows? with
    | some old => ofRows (mergeRows old rows)
    | none => table rows
  | styled text v =>
    match base.bind rows?, v.rows? with
    | some _, some _ => merge base v
    | _, _ => styled text v
  | top => top

end

@[simp] theorem mergeEntries_nil (base : Assoc Value) : mergeEntries base [] = base := by
  rw [mergeEntries]

@[simp] theorem merge_none (top : Value) : merge none top = top := by
  cases top <;> simp [merge]

theorem merge_map_map (old entries : Assoc Value) :
    merge (some (map old)) (map entries) = map (mergeEntries old entries) := by
  simp [merge]

theorem get?_mergeEntries (base top : Assoc Value) (h : (Assoc.keys top).Nodup) (key : String) :
    Assoc.get? (mergeEntries base top) key =
      match Assoc.get? top key with
      | some v => some (merge (Assoc.get? base key) v)
      | none => Assoc.get? base key := by
  induction top generalizing base with
  | nil => simp
  | cons entry rest ih =>
    obtain ⟨k, v⟩ := entry
    have hk : k ∉ Assoc.keys rest ∧ (Assoc.keys rest).Nodup := List.nodup_cons.1 h
    rw [mergeEntries, ih _ hk.2, Assoc.get?_put, Assoc.get?_cons]
    by_cases he : key = k
    · have hr : Assoc.get? rest k = none := Assoc.get?_eq_none hk.1
      simp [he, hr]
    · simp [he]

end Value
end ScriptSense
