import Mathlib.Data.List.DropRight

/-!
Lists cut at a separator, where a separator at the very end ends the last segment
and begins no new one. Cutting and joining are inverse to each other on lists that
do not end in a separator.
-/

namespace Mqss.Segments
universe u

variable {α : Type u} [DecidableEq α] {sep : α}

/-- The segments of a list. -/
def cut (sep : α) : List α → List (List α)
  | [] => []
  | c :: rest =>
    if c = sep then [] :: cut sep rest
    else
      match cut sep rest with
      | [] => [[c]]
      | first :: others => (c :: first) :: others

/-- Segments with a separator between each two. -/
def join (sep : α) : List (List α) → List α
  | [] => []
  | [segment] => segment
  | segment :: next :: others => segment ++ sep :: join sep (next :: others)

/-- A list without the separators at its two ends. -/
def trim (sep : α) (list : List α) : List α := (list.dropWhile (· = sep)).rdropWhile (· = sep)

theorem cut_append {segment : List α} (plain : sep ∉ segment) (rest : List α) :
    cut sep (segment ++ sep :: rest) = segment :: cut sep rest := by
  induction segment with
  | nil => simp [cut]
  | cons c segment ih =>
    rw [List.mem_cons, not_or] at plain
    simp [cut, Ne.symm plain.1, ih plain.2]

theorem cut_plain {segment : List α} (plain : sep ∉ segment) (some : segment ≠ []) :
    cut sep segment = [segment] := by
  induction segment with
  | nil => exact absurd rfl some
  | cons c segment ih =>
    rw [List.mem_cons, not_or] at plain
    cases segment with
    | nil => simp [cut, Ne.symm plain.1]
    | cons d segment => rw [cut, if_neg (Ne.symm plain.1), ih plain.2 (by simp)]

theorem cut_eq_nil {list : List α} : cut sep list = [] ↔ list = [] := by
  cases list with
  | nil => simp [cut]
  | cons c rest =>
    simp only [cut, reduceCtorEq, iff_false]
    split
    · simp
    · split <;> simp

/-- No segment has a separator. -/
theorem plain_of_mem_cut {list segment : List α} (member : segment ∈ cut sep list) : sep ∉ segment := by
  induction list generalizing segment with
  | nil => cases member
  | cons c rest ih =>
    unfold cut at member
    split at member
    · rcases List.mem_cons.mp member with rfl | later
      · exact List.not_mem_nil
      · exact ih later
    · rename_i other
      split at member
      · obtain rfl := List.mem_singleton.mp member
        simpa using Ne.symm other
      · rename_i first others same
        rcases List.mem_cons.mp member with rfl | later
        · rw [List.mem_cons, not_or]
          exact ⟨Ne.symm other, ih (by rw [same]; exact List.mem_cons_self)⟩
        · exact ih (by rw [same]; exact List.mem_cons_of_mem _ later)

omit [DecidableEq α] in
theorem join_cons (segment : List α) {others : List (List α)} (more : others ≠ []) :
    join sep (segment :: others) = segment ++ sep :: join sep others := by
  cases others with
  | nil => exact absurd rfl more
  | cons next others => rfl

/-- What is cut joins to the list it was cut from. -/
theorem join_cut {list : List α} (ends : list.getLast? ≠ some sep) : join sep (cut sep list) = list := by
  induction list with
  | nil => rfl
  | cons c rest ih =>
    cases rest with
    | nil =>
      have other : c ≠ sep := by simpa using ends
      simp [cut, other, join]
    | cons d rest =>
      have later : join sep (cut sep (d :: rest)) = d :: rest := ih (by simpa using ends)
      have more : cut sep (d :: rest) ≠ [] := by simp [cut_eq_nil]
      rw [cut]
      split
      · rename_i same
        rw [join_cons _ more, later, same, List.nil_append]
      · split
        · rename_i none
          exact absurd none more
        · rename_i first others same
          rw [same] at later
          cases others with
          | nil =>
            have whole : first = d :: rest := later
            rw [whole]
            rfl
          | cons next others =>
            have whole : first ++ sep :: join sep (next :: others) = d :: rest := later
            show c :: (first ++ sep :: join sep (next :: others)) = _
            rw [whole]

/-- The last segment is not empty. -/
theorem cut_ends {list : List α} (ends : list.getLast? ≠ some sep) : (cut sep list).getLast? ≠ some [] := by
  induction list with
  | nil => simp [cut]
  | cons c rest ih =>
    cases rest with
    | nil =>
      have other : c ≠ sep := by simpa using ends
      simp [cut, other]
    | cons d rest =>
      have later : (cut sep (d :: rest)).getLast? ≠ some [] := ih (by simpa using ends)
      cases segments : cut sep (d :: rest) with
      | nil => simp [cut_eq_nil] at segments
      | cons first others =>
        rw [segments] at later
        rw [cut, segments]
        split
        · simpa using later
        · cases others with
          | nil => simp
          | cons next others => simpa using later

/-- Segments that are joined are cut again, unless an empty one comes last. -/
theorem cut_join {segments : List (List α)} (plain : ∀ segment ∈ segments, sep ∉ segment)
    (ends : segments.getLast? ≠ some []) : cut sep (join sep segments) = segments := by
  induction segments with
  | nil => rfl
  | cons segment others ih =>
    cases others with
    | nil =>
      have some : segment ≠ [] := by simpa using ends
      exact cut_plain (plain segment List.mem_cons_self) some
    | cons next others =>
      rw [join_cons _ (by simp), cut_append (plain segment List.mem_cons_self)]
      rw [ih (fun other member => plain other (List.mem_cons_of_mem _ member)) (by simpa using ends)]

omit [DecidableEq α] in
theorem join_eq_intercalate (segments : List (List α)) : join sep segments = [sep].intercalate segments := by
  induction segments with
  | nil => rfl
  | cons segment others ih =>
    cases others with
    | nil => simp [join]
    | cons next others => rw [join, ih, List.intercalate_cons_cons, List.append_assoc, List.singleton_append]

/-- There is a segment before each separator, and one more unless a separator or nothing
    comes last. -/
theorem length_cut (list : List α) : (cut sep list).length =
    list.count sep + if list = [] ∨ list.getLast? = some sep then 0 else 1 := by
  induction list with
  | nil => rfl
  | cons c rest ih =>
    rw [cut]
    by_cases same : c = sep
    · cases rest with
      | nil => simp [cut, same]
      | cons d rest =>
        rw [if_pos same, List.length_cons, ih, same, List.count_cons_self, List.getLast?_cons_cons]
        simp only [reduceCtorEq, false_or]
        omega
    · rw [if_neg same, List.count_cons_of_ne same]
      cases rest with
      | nil => simp [cut, same]
      | cons d rest =>
        have more : cut sep (d :: rest) ≠ [] := by simp [cut_eq_nil]
        cases segments : cut sep (d :: rest) with
        | nil => exact absurd segments more
        | cons first others =>
          rw [segments] at ih
          rw [List.length_cons, ← List.length_cons, ih, List.getLast?_cons_cons]
          simp only [reduceCtorEq, false_or]

/-- Segments that each end in a separator are cut again. -/
theorem cut_terminated {segments : List (List α)} (plain : ∀ segment ∈ segments, sep ∉ segment) :
    cut sep (segments.flatMap fun segment => segment ++ [sep]) = segments := by
  induction segments with
  | nil => rfl
  | cons segment others ih =>
    rw [List.flatMap_cons, List.append_assoc, List.singleton_append]
    rw [cut_append (plain segment List.mem_cons_self)]
    rw [ih fun other member => plain other (List.mem_cons_of_mem _ member)]

theorem trim_ends (list : List α) : (trim sep list).getLast? ≠ some sep := by
  intro last
  have some : trim sep list ≠ [] := by
    intro none
    rw [none] at last
    cases last
  have same : (trim sep list).getLast some = sep := by
    rw [List.getLast?_eq_some_getLast some, Option.some.injEq] at last
    exact last
  have other := List.rdropWhile_last_not (· = sep) (list.dropWhile (· = sep)) some
  exact other (decide_eq_true same)

end Mqss.Segments
