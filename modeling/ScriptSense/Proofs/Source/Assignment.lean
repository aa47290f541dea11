import Mathlib.Data.List.Basic
import ScriptSense.Source.Assignment

/-! Where the nearest assignment before a cursor stands: it begins before the cursor, and a
semicolon lies between its beginning and the cursor. -/
namespace ScriptSense

namespace Occurrence

variable {α : Type}

/-- The pattern of an occurrence matches where it stands in a text that begins at `position`. -/
def StandsIn (pattern : Pattern α) (position : Nat) (text : List Char) (o : Occurrence α) : Prop :=
  ∃ front rest before n, text = front ++ rest ∧ o.start = position + front.length ∧
    pattern before rest = some (n, o.captured)

theorem StandsIn.cons {pattern : Pattern α} {position : Nat} {text : List Char} {o : Occurrence α}
    (h : StandsIn pattern (position + 1) text o) (c : Char) :
    StandsIn pattern position (c :: text) o := by
  obtain ⟨front, rest, before, n, rfl, hstart, hp⟩ := h
  refine ⟨c :: front, rest, before, n, rfl, ?_, hp⟩
  rw [hstart, List.length_cons]
  omega

theorem standsIn_of_mem_allFrom {pattern : Pattern α} {previous : Option Char}
    {position skip : Nat} {text : List Char} {o : Occurrence α}
    (h : o ∈ allFrom pattern previous position skip text) : StandsIn pattern position text o := by
  fun_induction allFrom pattern previous position skip text with
  | case1 previous position n a hp =>
    obtain rfl := List.mem_singleton.mp h
    exact ⟨[], [], previous, n, rfl, rfl, hp⟩
  | case2 => exact absurd h (by simp)
  | case3 previous position c cs k ih => exact (ih h).cons c
  | case4 previous position c cs n a hp ih =>
    rcases List.mem_cons.mp h with rfl | h
    · exact ⟨[], c :: cs, previous, n, rfl, rfl, hp⟩
    · exact (ih h).cons c
  | case5 previous position c cs hp ih => exact (ih h).cons c

end Occurrence

namespace Assignment

open Text

theorem eq_of_body? {text body : List Char} (h : body? text = some body) :
    ∃ more, text = body ++ ';' :: more := by
  induction text generalizing body with
  | nil => simp [body?] at h
  | cons c cs ih =>
    rw [body?] at h
    split at h
    · rename_i hc
      obtain rfl := Option.some.inj h
      obtain rfl : c = ';' := by simpa using hc
      exact ⟨cs, rfl⟩
    · split at h
      · exact absurd h (by simp)
      · obtain ⟨body', hbody, rfl⟩ := Option.map_eq_some_iff.mp h
        obtain ⟨more, rfl⟩ := ih hbody
        exact ⟨more, rfl⟩

theorem semicolon_of_definition? {rest body : List Char} {n : Nat}
    (h : definition? rest = some (n, body)) : ';' ∈ rest := by
  rw [definition?] at h
  split at h
  · rename_i after hrest
    split at h
    · exact absurd h (by simp)
    · obtain ⟨body', hbody, -⟩ := Option.map_eq_some_iff.mp h
      obtain ⟨more, hmore⟩ := eq_of_body? hbody
      have hin : ';' ∈ after.dropWhile isBlank := by
        rw [hmore]
        simp
      have hafter : ';' ∈ rest.dropWhile isBlank := by
        rw [hrest]
        exact List.mem_cons_of_mem _ ((List.dropWhile_suffix isBlank).subset hin)
      exact (List.dropWhile_suffix isBlank).subset hafter
  · exact absurd h (by simp)

theorem semicolon_of_pattern {name rest body : List Char} {before : Option Char} {n : Nat}
    (h : pattern name before rest = some (n, body)) : ';' ∈ rest := by
  rw [pattern] at h
  split at h
  · exact absurd h (by simp)
  · split at h
    · obtain ⟨⟨k, body'⟩, hd, -⟩ := Option.map_eq_some_iff.mp h
      exact (List.drop_suffix name.length rest).subset (semicolon_of_definition? hd)
    · exact absurd h (by simp)

theorem exists_of_nearest? {name source : List Char} {cursor : Int}
    {found : Occurrence (List Char)} (h : nearest? name source cursor = some found) :
    ∃ rest, Occurrence.upTo source cursor = Occurrence.upTo source found.start ++ rest ∧
      found.start + rest.length = (Occurrence.upTo source cursor).length ∧ ';' ∈ rest := by
  obtain ⟨front, rest, before, n, htext, hstart, hp⟩ :=
    Occurrence.standsIn_of_mem_allFrom (List.mem_of_getLast? h)
  rw [Nat.zero_add] at hstart
  have hfront : Occurrence.upTo source found.start = front := by
    have hle : front.length ≤ cursor.toNat := by
      have := congrArg List.length htext
      simp only [Occurrence.upTo, List.length_take, List.length_append] at this
      omega
    have hprefix : (source.take cursor.toNat).take front.length = front := by
      rw [← Occurrence.upTo, htext, List.take_left]
    rw [List.take_take, Nat.min_eq_left hle] at hprefix
    rw [hstart, Occurrence.upTo, Int.toNat_natCast, hprefix]
  refine ⟨rest, by rw [hfront]; exact htext, ?_, semicolon_of_pattern hp⟩
  rw [htext, hstart, List.length_append]

theorem start_lt_of_nearest? {name source : List Char} {cursor : Int}
    {found : Occurrence (List Char)} (h : nearest? name source cursor = some found) :
    (found.start : Int) < cursor := by
  obtain ⟨rest, -, hlen, hsemi⟩ := exists_of_nearest? h
  have hpos := List.length_pos_of_mem hsemi
  simp only [Occurrence.upTo, List.length_take] at hlen
  omega

/-- There are fewer semicolons before the nearest assignment than before the cursor. -/
theorem count_lt_of_nearest? {name source : List Char} {cursor : Int}
    {found : Occurrence (List Char)} (h : nearest? name source cursor = some found) :
    (Occurrence.upTo source found.start).count ';' < (Occurrence.upTo source cursor).count ';' := by
  obtain ⟨rest, hcut, -, hsemi⟩ := exists_of_nearest? h
  rw [hcut, List.count_append]
  have := List.count_pos_iff.mpr hsemi
  omega

end Assignment
end ScriptSense
