/-! Finite maps that keep the order in which their keys arrived. Writing to a known key changes its
value in place; a new key goes to the end. -/
namespace ScriptSense

/-- Entries in the order of arrival. -/
abbrev Assoc (α : Type) := List (String × α)

namespace Assoc

variable {α : Type}

def get? (m : Assoc α) (key : String) : Option α := m.lookup key

def has (m : Assoc α) (key : String) : Bool := m.any fun entry => entry.1 == key

def keys (m : Assoc α) : List String := m.map (·.1)

/-- Writes a value; the last write to a key wins, the first gives it its place. -/
def put (m : Assoc α) (key : String) (value : α) : Assoc α :=
  match m with
  | [] => [(key, value)]
  | entry :: rest =>
    if entry.1 == key then (key, value) :: rest else entry :: put rest key value

def putNew (m : Assoc α) (key : String) (value : α) : Assoc α :=
  if m.has key then m else m ++ [(key, value)]

def erase (m : Assoc α) (key : String) : Assoc α := m.filter fun entry => entry.1 != key

def putAll (m more : Assoc α) : Assoc α := more.foldl (fun acc e => put acc e.1 e.2) m

def ofList (entries : List (String × α)) : Assoc α := putAll [] entries

@[simp] theorem get?_nil (key : String) : get? ([] : Assoc α) key = none := rfl

theorem get?_cons (entry : String × α) (rest : Assoc α) (key : String) :
    get? (entry :: rest) key = if key == entry.1 then some entry.2 else get? rest key := by
  obtain ⟨k, v⟩ := entry
  simp only [get?, List.lookup_cons]
  cases key == k <;> rfl

theorem get?_put (m : Assoc α) (key other : String) (value : α) :
    (put m key value).get? other = if other = key then some value else m.get? other := by
  induction m with
  | nil => by_cases h : other = key <;> simp [put, get?_cons, h]
  | cons entry rest ih =>
    unfold put
    by_cases he : entry.1 = key
    · by_cases h : other = key
      · simp [get?_cons, he, h]
      · simp [get?_cons, he, h]
    · by_cases h : other = entry.1
      · have hne : other ≠ key := fun hk => he (h ▸ hk)
        simp [get?_cons, he, h]
      · simp [get?_cons, he, h, ih]

theorem isSome_get? (m : Assoc α) (key : String) : (m.get? key).isSome = m.has key := by
  induction m with
  | nil => rfl
  | cons entry rest ih =>
    have hc : has (entry :: rest) key = (entry.1 == key || has rest key) := rfl
    rw [get?_cons, hc, BEq.comm (a := entry.1)]
    by_cases h : key = entry.1
    · simp [h]
    · simp [h, ih]

theorem get?_eq_none {m : Assoc α} {key : String} (h : key ∉ m.keys) : m.get? key = none := by
  induction m with
  | nil => rfl
  | cons entry rest ih =>
    have hk : key ≠ entry.1 ∧ key ∉ keys rest := by
      simpa [keys, List.mem_cons, not_or] using h
    rw [get?_cons, ih hk.2]
    simp [hk.1]

end Assoc
end ScriptSense
