import Mathlib.Data.List.Nodup
import Mathlib.Data.List.Infix

/-!
Queues that take back what they handed out. Distinct items are put behind the
others and got from the front; what was got may be given back, to the front. The
items are then got for the first time in the order in which they were put,
whatever is given back and got again in between.
-/

namespace Mqss.Redelivery
universe u

variable {Item : Type u} [DecidableEq Item]

/-- The box holds the items that were given back, and behind them those that were never
    got; the others were first got in the order in which they were put. -/
structure InOrder (puts gets back box : List Item) : Prop where
  contents : box = back ++ puts.drop gets.eraseDups.length
  again : ∀ item ∈ back, item ∈ gets
  first : gets.eraseDups <+: puts

variable {puts gets back box : List Item}

theorem new_inOrder : InOrder ([] : List Item) [] [] [] := ⟨rfl, nofun, List.nil_prefix⟩

theorem InOrder.prefix_eq (order : InOrder puts gets back box) : gets.eraseDups = puts.take gets.eraseDups.length :=
  List.prefix_iff_eq_take.mp order.first

theorem InOrder.length_le (order : InOrder puts gets back box) : gets.eraseDups.length ≤ puts.length :=
  order.first.length_le

/-- What was put is either among what was got or still in the box. -/
theorem InOrder.got_or_boxed (order : InOrder puts gets back box) {item : Item} (member : item ∈ puts) :
    item ∈ gets ∨ item ∈ box := by
  rw [← List.take_append_drop gets.eraseDups.length puts, ← order.prefix_eq] at member
  rcases List.mem_append.mp member with early | late
  · exact .inl (List.mem_eraseDups.mp early)
  · right
    rw [order.contents]
    exact List.mem_append_right _ late

theorem put_inOrder (order : InOrder puts gets back box) (item : Item) :
    InOrder (puts ++ [item]) gets back (box ++ [item]) := by
  refine ⟨?_, order.again, order.first.trans (List.prefix_append _ _)⟩
  rw [List.drop_append_of_le_length order.length_le, ← List.append_assoc, ← order.contents]

/-- An item that was got before is not new. -/
theorem eraseDups_again {item : Item} (again : item ∈ gets) : (gets ++ [item]).eraseDups = gets.eraseDups := by
  rw [List.eraseDups_append]
  simp [List.removeAll, again]

theorem eraseDups_new {item : Item} (new : item ∉ gets) :
    (gets ++ [item]).eraseDups = gets.eraseDups ++ [item] := by
  rw [List.eraseDups_append]
  simp [List.removeAll, new, List.eraseDups_cons]

theorem get_inOrder {item : Item} {rest : List Item} (order : InOrder puts gets back (item :: rest))
    (distinct : puts.Nodup) : ∃ left, InOrder puts (gets ++ [item]) left rest := by
  cases back with
  | cons returned left =>
    -- An item that was given back is got again.
    have contents := order.contents
    rw [List.cons_append, List.cons.injEq] at contents
    obtain ⟨rfl, rfl⟩ := contents
    have again := order.again item List.mem_cons_self
    refine ⟨left, ?_, ?_, ?_⟩
    · rw [eraseDups_again again]
    · intro other member
      exact List.mem_append_left _ (order.again other (List.mem_cons_of_mem _ member))
    · rw [eraseDups_again again]
      exact order.first
  | nil =>
    -- The next item in the order is got for the first time.
    have split : puts = gets.eraseDups ++ item :: rest := by
      calc puts = puts.take gets.eraseDups.length ++ puts.drop gets.eraseDups.length :=
            (List.take_append_drop _ _).symm
        _ = gets.eraseDups ++ item :: rest := by rw [← order.prefix_eq, order.contents, List.nil_append]
    have new : item ∉ gets := by
      intro before
      rw [split] at distinct
      exact (List.nodup_append.mp distinct).2.2 item (List.mem_eraseDups.mpr before) item List.mem_cons_self rfl
    refine ⟨[], ?_, nofun, ?_⟩
    · rw [eraseDups_new new, List.nil_append]
      conv_rhs => rw [split]
      simp
    · rw [eraseDups_new new]
      exact ⟨rest, by rw [split, List.append_assoc, List.singleton_append]⟩

theorem giveBack_inOrder (order : InOrder puts gets back box) {returned : List Item}
    (again : ∀ item ∈ returned, item ∈ gets) : InOrder puts gets (returned ++ back) (returned ++ box) := by
  refine ⟨?_, ?_, order.first⟩
  · rw [order.contents, List.append_assoc]
  · intro item member
    rcases List.mem_append.mp member with now | before
    · exact again item now
    · exact order.again item before

end Mqss.Redelivery
