import Mqss.Machine
import Mathlib.Logic.Function.Basic

/-!
Mailboxes: one first-in first-out queue for every key. Whatever is put into a
box comes out of it once, unchanged and in order, and the boxes of other keys
are not touched.
-/

namespace Mqss.Mailbox
open Mqss.Machine
universe u v

variable {Key : Type u} {Item : Type v} [DecidableEq Key] [DecidableEq Item]

/-- The items waiting in every box, the oldest first. -/
abbrev Boxes (Key : Type u) (Item : Type v) := Key → List Item

inductive Action (Key : Type u) (Item : Type v)
  | put (key : Key) (item : Item)
  | get (key : Key) (item : Item)

/-- An item is put behind the others; an item is got when it is the oldest. -/
def act (boxes : Boxes Key Item) : Action Key Item → Option (Boxes Key Item)
  | .put key item => some (Function.update boxes key (boxes key ++ [item]))
  | .get key item =>
    match boxes key with
    | [] => none
    | oldest :: rest => if oldest = item then some (Function.update boxes key rest) else none

/-- The items put into a box, in order. -/
def puts (key : Key) : List (Action Key Item) → List Item
  | [] => []
  | .put k item :: rest => if k = key then item :: puts key rest else puts key rest
  | .get _ _ :: rest => puts key rest

/-- The items got from a box, in order. -/
def gets (key : Key) : List (Action Key Item) → List Item
  | [] => []
  | .get k item :: rest => if k = key then item :: gets key rest else gets key rest
  | .put _ _ :: rest => gets key rest

omit [DecidableEq Item] in
theorem puts_append (key : Key) (before after : List (Action Key Item)) :
    puts key (before ++ after) = puts key before ++ puts key after := by
  induction before with
  | nil => rfl
  | cons action rest ih =>
    cases action with
    | put k item =>
      by_cases same : k = key
      · simp [puts, same, ih]
      · simp [puts, same, ih]
    | get k item => simpa [puts] using ih

omit [DecidableEq Item] in
theorem gets_append (key : Key) (before after : List (Action Key Item)) :
    gets key (before ++ after) = gets key before ++ gets key after := by
  induction before with
  | nil => rfl
  | cons action rest ih =>
    cases action with
    | get k item =>
      by_cases same : k = key
      · simp [gets, same, ih]
      · simp [gets, same, ih]
    | put k item => simpa [gets] using ih

/-- What one action adds to a box and what it takes out of it balance. -/
theorem act_balance {boxes after : Boxes Key Item} {action : Action Key Item}
    (acted : act boxes action = some after) (key : Key) :
    boxes key ++ puts key [action] = gets key [action] ++ after key := by
  cases action with
  | put k item =>
    obtain rfl := Option.some.inj acted
    by_cases same : k = key
    · subst same; simp [puts, gets]
    · simp [puts, gets, same, Ne.symm same]
  | get k item =>
    simp only [act] at acted
    split at acted
    · cases acted
    · rename_i oldest rest contents
      split at acted
      · rename_i isOldest
        obtain rfl := Option.some.inj acted
        by_cases same : k = key
        · subst same; simp [puts, gets, contents, isOldest]
        · simp [puts, gets, same, Ne.symm same]
      · cases acted

/-- Over a whole run, what was in a box and what was put into it is what was
    got from it, followed by what is still in it. -/
theorem run_balance {boxes after : Boxes Key Item} {actions : List (Action Key Item)}
    (ran : run act boxes actions = some after) (key : Key) :
    boxes key ++ puts key actions = gets key actions ++ after key := by
  induction actions generalizing boxes with
  | nil =>
    have same : boxes = after := Option.some.inj ran
    simp [same, puts, gets]
  | cons action rest ih =>
    obtain ⟨next, acted, ran⟩ := run_cons.mp ran
    have here := act_balance acted key
    have later := ih ran
    calc boxes key ++ puts key (action :: rest)
        = (boxes key ++ puts key [action]) ++ puts key rest := by
          rw [List.append_assoc, ← puts_append]; rfl
      _ = gets key [action] ++ (next key ++ puts key rest) := by rw [here, List.append_assoc]
      _ = gets key (action :: rest) ++ after key := by
          rw [later, ← List.append_assoc, ← gets_append]; rfl

end Mqss.Mailbox
