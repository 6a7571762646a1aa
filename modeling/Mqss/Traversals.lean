import Mathlib.Data.List.Forall2
import Mathlib.Data.List.Nodup

/-!
Traversals of a list that may fail, and assignments to the positions of a list. A
traversal that does not fail has handled every element in its place; assignments to
distinct positions have the same result in any order.
-/

namespace Mqss.Traversals
universe u v w

section
variable {ε : Type w} {α : Type v} {β : Type v}

/-- A sequence of two computations succeeds when both do. -/
theorem bind_eq_ok {first : Except ε α} {next : α → Except ε β} {b : β} :
    first >>= next = .ok b ↔ ∃ a, first = .ok a ∧ next a = .ok b := by
  cases first with
  | error failure => simp [bind, Except.bind]
  | ok a => simp [bind, Except.bind]
end

variable {α : Type u} {β : Type u} {ε : Type w}

/-- A traversal succeeds when every element does. -/
theorem mapM_eq_ok {f : α → Except ε β} {list : List α} {images : List β} :
    list.mapM f = .ok images ↔ List.Forall₂ (fun a b => f a = .ok b) list images := by
  induction list generalizing images with
  | nil =>
    rw [List.mapM_nil, List.forall₂_nil_left_iff]
    constructor
    · intro made
      exact (Except.ok.inj made).symm
    · rintro rfl
      rfl
  | cons a list ih =>
    rw [List.mapM_cons, bind_eq_ok, List.forall₂_cons_left_iff]
    constructor
    · rintro ⟨b, here, rest⟩
      obtain ⟨others, later, made⟩ := bind_eq_ok.mp rest
      exact ⟨b, others, here, ih.mp later, (Except.ok.inj made).symm⟩
    · rintro ⟨b, others, here, later, rfl⟩
      exact ⟨b, here, bind_eq_ok.mpr ⟨others, ih.mpr later, rfl⟩⟩

/-- A list whose elements give the images of the elements at the same positions of another
    list gives the first images of that list. -/
theorem filterMap_eq_take {γ : Type v} {δ : Type w} {f : α → Option δ} {g : γ → δ} {short : List α} {long : List γ}
    (pairs : ∀ (k : Nat) a, short[k]? = some a → ∃ c, long[k]? = some c ∧ f a = some (g c)) :
    short.filterMap f = (long.map g).take short.length := by
  induction short generalizing long with
  | nil => simp
  | cons a short ih =>
    obtain ⟨c, first, image⟩ := pairs 0 a rfl
    cases long with
    | nil => cases first
    | cons d long =>
      obtain rfl : d = c := Option.some.inj first
      have later : short.filterMap f = (long.map g).take short.length :=
        ih fun k b found => pairs (k + 1) b found
      rw [List.filterMap_cons_some image, later, List.map_cons, List.length_cons, List.take_succ_cons]

/-- Assign positions one after the other. -/
def assign (updates : List (Nat × α)) (list : List α) : List α :=
  updates.foldl (fun list update => list.set update.1 update.2) list

@[simp] theorem length_assign (updates : List (Nat × α)) (list : List α) :
    (assign updates list).length = list.length := by
  induction updates generalizing list with
  | nil => rfl
  | cons update updates ih =>
    rw [assign, List.foldl_cons, ← assign, ih, List.length_set]

/-- A position that is not assigned keeps its element. -/
theorem getElem?_assign_of_notMem {updates : List (Nat × α)} {i : Nat} (spared : i ∉ updates.map Prod.fst)
    (list : List α) : (assign updates list)[i]? = list[i]? := by
  induction updates generalizing list with
  | nil => rfl
  | cons update updates ih =>
    rw [List.map_cons, List.mem_cons, not_or] at spared
    rw [assign, List.foldl_cons, ← assign, ih spared.2, List.getElem?_set_ne (Ne.symm spared.1)]

/-- A position that is assigned once has what it was assigned. -/
theorem getElem?_assign_of_mem {updates : List (Nat × α)} (distinct : (updates.map Prod.fst).Nodup) {list : List α}
    {i : Nat} {a : α} (assigned : (i, a) ∈ updates) (inside : i < list.length) :
    (assign updates list)[i]? = some a := by
  induction updates generalizing list with
  | nil => cases assigned
  | cons update updates ih =>
    rw [List.map_cons, List.nodup_cons] at distinct
    rw [assign, List.foldl_cons, ← assign]
    rcases List.mem_cons.mp assigned with rfl | later
    · rw [getElem?_assign_of_notMem distinct.1, List.getElem?_set_self inside]
    · exact ih distinct.2 later (by rwa [List.length_set])

/-- When every position is assigned, in whatever order, only the assigned elements are left. -/
theorem assign_all {entries updates : List (Nat × α)} {list : List α} (order : updates.Perm entries)
    (numbered : entries.map Prod.fst = List.range list.length) : assign updates list = entries.map Prod.snd := by
  have distinct : (updates.map Prod.fst).Nodup := by
    rw [(order.map Prod.fst).nodup_iff, numbered]
    exact List.nodup_range
  have long : entries.length = list.length := by
    rw [← List.length_map (f := Prod.fst), numbered, List.length_range]
  apply List.ext_getElem?
  intro i
  by_cases inside : i < list.length
  · have within : i < entries.length := by omega
    have position : entries[i].1 = i := by
      have fst : (entries.map Prod.fst)[i]? = some i := by rw [numbered, List.getElem?_range inside]
      rw [List.getElem?_map, List.getElem?_eq_getElem within] at fst
      exact Option.some.inj fst
    have assigned : (i, entries[i].2) ∈ updates := by
      rw [order.mem_iff]
      nth_rewrite 1 [← position]
      exact List.getElem_mem within
    rw [getElem?_assign_of_mem distinct assigned inside, List.getElem?_map, List.getElem?_eq_getElem within]
    rfl
  · rw [List.getElem?_eq_none (by simpa using inside), List.getElem?_eq_none (by simpa [long] using inside)]

end Mqss.Traversals
