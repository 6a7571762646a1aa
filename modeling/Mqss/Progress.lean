import Mqss.Machine
import Mathlib.Data.List.Nodup
import Mathlib.Logic.Function.Basic

/-!
Work that comes to an end. Some events of a machine are work: where an invariant
holds, each of them uses up a measure. A run takes no more work than there was at
its start, and a machine that does nothing else comes to rest, where no work is
left to do.
-/

namespace Mqss.Progress
open Mqss.Machine
universe u v

variable {State : Type u} {Event : Type v}

/-- Work keeps the invariant and makes the measure smaller. -/
def Uses (step : State → Event → Option State) (Inv : State → Prop) (work : Event → Bool) (measure : State → Nat) :
    Prop :=
  ∀ s e t, Inv s → work e = true → step s e = some t → Inv t ∧ measure t < measure s

/-- Events of another kind keep the invariant and make the measure no larger. -/
def Spares (step : State → Event → Option State) (Inv : State → Prop) (others : Event → Prop) (measure : State → Nat) :
    Prop :=
  ∀ s e t, Inv s → others e → step s e = some t → Inv t ∧ measure t ≤ measure s

/-- No work is left to do. -/
def Rests (step : State → Event → Option State) (work : Event → Bool) (s : State) : Prop :=
  ∀ e, work e = true → step s e = none

variable {step : State → Event → Option State} {Inv : State → Prop} {work : Event → Bool} {measure : State → Nat}

/-- A schedule of nothing but work is no longer than the measure allows. -/
theorem length_le (uses : Uses step Inv work measure) {s t : State} {es : List Event} (start : Inv s)
    (works : ∀ e ∈ es, work e = true) (ran : run step s es = some t) : Inv t ∧ es.length + measure t ≤ measure s := by
  induction es generalizing s with
  | nil =>
    obtain rfl := Option.some.inj ran
    exact ⟨start, by simp⟩
  | cons e es ih =>
    obtain ⟨next, stepped, rest⟩ := run_cons.mp ran
    obtain ⟨kept, less⟩ := uses s e next start (works e List.mem_cons_self) stepped
    obtain ⟨final, bound⟩ := ih kept (fun later member => works later (List.mem_cons_of_mem _ member)) rest
    refine ⟨final, ?_⟩
    rw [List.length_cons]
    omega

/-- Whatever else of the other kind happens, a run takes no more work than the measure allows. -/
theorem countP_le {others : Event → Prop} (uses : Uses step Inv work measure) (spares : Spares step Inv others measure)
    {s t : State} {es : List Event} (start : Inv s) (kinds : ∀ e ∈ es, work e = true ∨ others e)
    (ran : run step s es = some t) : Inv t ∧ es.countP work + measure t ≤ measure s := by
  induction es generalizing s with
  | nil =>
    obtain rfl := Option.some.inj ran
    exact ⟨start, by simp⟩
  | cons e es ih =>
    obtain ⟨next, stepped, rest⟩ := run_cons.mp ran
    have later : ∀ e ∈ es, work e = true ∨ others e := fun other member => kinds other (List.mem_cons_of_mem _ member)
    by_cases works : work e = true
    · obtain ⟨kept, less⟩ := uses s e next start works stepped
      obtain ⟨final, bound⟩ := ih kept later rest
      refine ⟨final, ?_⟩
      rw [List.countP_cons_of_pos works]
      omega
    · have other := (kinds e List.mem_cons_self).resolve_left works
      obtain ⟨kept, less⟩ := spares s e next start other stepped
      obtain ⟨final, bound⟩ := ih kept later rest
      refine ⟨final, ?_⟩
      rw [List.countP_cons_of_neg works]
      omega

/-- Where until the machine rests some work that meets a condition keeps the invariant and uses
    up the measure, it comes to rest by such work. -/
theorem comes_to_rest_along {condition : State → Event → Prop}
    (can : ∀ s, Inv s → ¬ Rests step work s →
      ∃ e t, work e = true ∧ condition s e ∧ step s e = some t ∧ Inv t ∧ measure t < measure s) {s : State}
    (start : Inv s) : ∃ es t, (∀ e ∈ es, work e = true) ∧ Along step condition s es ∧ run step s es = some t ∧ Inv t ∧
      Rests step work t := by
  -- The induction is on the work that is left.
  induction left : measure s using Nat.strongRecOn generalizing s with
  | _ n ih =>
    by_cases rests : Rests step work s
    · exact ⟨[], s, by simp, trivial, rfl, start, rests⟩
    · obtain ⟨e, next, works, met, stepped, kept, less⟩ := can s start rests
      obtain ⟨es, t, rest, along, ran, final, resting⟩ := ih (measure next) (by omega) kept rfl
      refine ⟨e :: es, t, ?_, (along_cons stepped).mpr ⟨met, along⟩, run_cons.mpr ⟨next, stepped, ran⟩, final, resting⟩
      intro f member
      rcases List.mem_cons.mp member with rfl | later
      · exact works
      · exact rest f later

/-- A machine that does nothing but work comes to rest. -/
theorem comes_to_rest (uses : Uses step Inv work measure) {s : State} (start : Inv s) :
    ∃ es t, (∀ e ∈ es, work e = true) ∧ run step s es = some t ∧ Inv t ∧ Rests step work t := by
  have can : ∀ s, Inv s → ¬ Rests step work s →
      ∃ e t, work e = true ∧ True ∧ step s e = some t ∧ Inv t ∧ measure t < measure s := by
    intro s inv busy
    unfold Rests at busy
    push Not at busy
    obtain ⟨e, works, enabled⟩ := busy
    obtain ⟨next, stepped⟩ := Option.ne_none_iff_exists'.mp enabled
    obtain ⟨kept, less⟩ := uses s e next inv works stepped
    exact ⟨e, next, works, trivial, stepped, kept, less⟩
  obtain ⟨es, t, works, _, ran, final, rests⟩ := comes_to_rest_along can start
  exact ⟨es, t, works, ran, final, rests⟩

/-! ### Work of several workers -/

section
variable {Worker : Type u} {Place : Type v} [DecidableEq Worker]

/-- The number of workers at places of a kind. -/
def stationed (kind : Place → Bool) (workers : List Worker) (places : Worker → Place) : Nat :=
  workers.countP fun worker => kind (places worker)

omit [DecidableEq Worker] in
theorem stationed_le (kind : Place → Bool) (workers : List Worker) (places : Worker → Place) :
    stationed kind workers places ≤ workers.length :=
  List.countP_le_length

/-- When one worker moves, only its own place is counted anew. -/
theorem stationed_update {workers : List Worker} (distinct : workers.Nodup) {worker : Worker}
    (member : worker ∈ workers) (kind : Place → Bool) (places : Worker → Place) (place : Place) :
    stationed kind workers (Function.update places worker place) + (kind (places worker)).toNat =
      stationed kind workers places + (kind place).toNat := by
  induction workers with
  | nil => cases member
  | cons first workers ih =>
    obtain ⟨new, distinct⟩ := List.nodup_cons.mp distinct
    simp only [stationed, List.countP_cons] at ih ⊢
    rcases List.mem_cons.mp member with rfl | later
    · have others : workers.countP (fun other => kind (Function.update places worker place other)) =
          workers.countP (fun other => kind (places other)) := by
        apply List.countP_congr
        intro other among
        have apart : other ≠ worker := fun same => new (same ▸ among)
        rw [Function.update_of_ne apart]
      rw [others, Function.update_self]
      cases kind (places worker) <;> cases kind place <;> simp
    · have apart : first ≠ worker := fun same => new (same ▸ later)
      have moved := ih distinct later
      rw [Function.update_of_ne apart]
      omega
end

end Mqss.Progress
