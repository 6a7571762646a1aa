import Mqss.Lives
import Mqss.Loops
import Mqss.PendingTasks

/-!
The ids that QRM sees, of one instance and of two, in any interleaving of their
workers. An id is a place of the stride of its instance, cut to 32 bits, so one
instance gives out 2^28 of them before it comes round, and two instances whose uids
differ by a multiple of 16 share theirs, one of them running behind the other by
a fixed lag.
-/

namespace Mqss.QOffload
open Mqss.Words Mqss.Machine Mqss.Progressions

namespace Service

variable {config : Config} {uid : UInt64} {s t : Service} {e : Event} {seen : List Seen} {es : List Event} {n : Nat}

/-! ### The ids of one instance -/

/-- The id that was given out for the task in a message to QRM. -/
def Seen.submission : Seen → Option UInt64
  | .forwarded task_id _ _ => some task_id
  | _ => none

/-- The ids in the messages that an instance sends to QRM, in order. -/
def forwardedIds (config : Config) (uid : UInt64) (es : List Event) : List Int32 :=
  ((history step (Service.seen config) (new uid) es).filterMap Seen.task).map QuantumTask.task_id

/-- The id of the task that a worker has numbered and not yet sent. -/
def TaskWorker.outbound : TaskWorker → List UInt64
  | .numbered _ id => [id]
  | .registered _ id => [id]
  | _ => []

def ControlWorker.outbound : ControlWorker → List UInt64
  | .numbered _ _ id => [id]
  | .registered _ _ id => [id]
  | _ => []

def outbound (s : Service) : List UInt64 := TaskWorker.outbound s.taskWorker ++ ControlWorker.outbound s.controlWorker

theorem Idle.outbound (idle : s.Idle) : s.outbound = [] := by
  rw [Service.outbound, idle.1, idle.2.1]
  rfl

/-- A message carries the id that was given out for its task, narrowed. -/
theorem Change.narrows (change : Change config s e t seen) :
    (seen.filterMap Seen.task).map QuantumTask.task_id = (seen.filterMap Seen.submission).map narrow := by
  cases change <;> rfl

/-- An id that is given out is outbound until its task is sent. -/
theorem Change.outbound (change : Change config s e t seen) :
    (seen.filterMap Seen.submission ++ t.outbound).Perm (s.outbound ++ s.numbers e) := by
  have quiet : seen.filterMap Seen.submission = [] → t.outbound = s.outbound → s.numbers e = [] →
      (seen.filterMap Seen.submission ++ t.outbound).Perm (s.outbound ++ s.numbers e) := by
    intro silent same none
    rw [silent, same, none, List.append_nil, List.nil_append]
  cases change with
  | numberTask loc =>
    simp only [Service.outbound, numbers, loc, TaskWorker.outbound, List.filterMap_nil, List.nil_append]
    exact List.perm_append_comm
  | numberRequest loc creates =>
    simp [Service.outbound, numbers, loc, creates, Control.creates, ControlWorker.outbound]
  | sendTask loc =>
    simp only [Service.outbound, numbers, loc, TaskWorker.outbound, List.append_nil]
    rfl
  | sendOutboundTask loc =>
    simp only [Service.outbound, numbers, loc, ControlWorker.outbound, List.append_nil]
    exact List.perm_append_comm
  | receiveTask loc | registerTask loc =>
    exact quiet rfl (by simp [Service.outbound, loc, TaskWorker.outbound]) rfl
  | status loc asks =>
    exact quiet rfl (by simp [Service.outbound, loc, ControlWorker.outbound])
      (by simp [numbers, loc, asks, Control.creates])
  | refuse loc asks | look loc asks =>
    refine quiet rfl (by simp [Service.outbound, loc, ControlWorker.outbound]) ?_
    rcases asks with asks | asks <;> simp [numbers, loc, asks, Control.creates]
  | inform loc query =>
    exact quiet rfl (by simp [Service.outbound, loc, ControlWorker.outbound]) (by simp [numbers, loc, query])
  | receiveRequest loc | registerRequest loc | take loc | announce loc | answer loc =>
    exact quiet rfl (by simp [Service.outbound, loc, ControlWorker.outbound]) rfl
  | _ => exact quiet rfl rfl rfl

/-- What was sent and what is outbound is what was outbound and what was given out. -/
theorem run_outbound (config : Config) (ran : run step s es = some t) :
    ((history step (Service.seen config) s es).filterMap Seen.submission ++ t.outbound).Perm
      (s.outbound ++ history step numbers s es) := by
  induction es generalizing s with
  | nil =>
    obtain rfl := Option.some.inj ran
    simp
  | cons e es ih =>
    obtain ⟨next, stepped, rest⟩ := run_cons.mp ran
    have change := @step_change config s next e stepped
    rw [history_cons stepped, history_cons stepped, List.filterMap_append, List.append_assoc]
    have later := (ih rest).append_left ((Service.seen config s e).filterMap Seen.submission)
    have now : ((Service.seen config s e).filterMap Seen.submission ++ (next.outbound ++ history step numbers next es)).Perm
        (s.outbound ++ (s.numbers e ++ history step numbers next es)) := by
      rw [← List.append_assoc, ← List.append_assoc]
      exact change.outbound.append_right _
    exact later.trans now

theorem run_narrows (config : Config) (ran : run step s es = some t) :
    ((history step (Service.seen config) s es).filterMap Seen.task).map QuantumTask.task_id =
      ((history step (Service.seen config) s es).filterMap Seen.submission).map narrow := by
  induction es generalizing s with
  | nil => rfl
  | cons e es ih =>
    obtain ⟨next, stepped, rest⟩ := run_cons.mp ran
    have change := @step_change config s next e stepped
    rw [history_cons stepped, List.filterMap_append, List.filterMap_append, List.map_append, List.map_append, ih rest,
      change.narrows]

/-- The ids are given out in the order of the stride. -/
theorem run_numbers (forwarder : s.forwarder = ⟨uid, UInt64.ofNat n⟩) (ran : run step s es = some t) :
    history step numbers s es = (List.range' n (s.numbered es)).map (stride uid) := by
  induction es generalizing s n with
  | nil => rfl
  | cons e es ih =>
    obtain ⟨next, stepped, rest⟩ := run_cons.mp ran
    have change := @step_change makeDefaultConfig s next e stepped
    rw [history_cons stepped, numbered_cons stepped]
    rcases change.counts.2 with ⟨none, same⟩ | ⟨one, after⟩
    · rw [none, List.nil_append, List.length_nil, Nat.zero_add]
      exact ih (same.trans forwarder) rest
    · have counted : next.forwarder = ⟨uid, UInt64.ofNat (n + 1)⟩ := by
        rw [after, forwarder]
        simp [Forward.nextTaskId]
      have given : s.forwarder.nextTaskId.1 = stride uid n := by
        rw [forwarder]
        rfl
      rw [one, ih counted rest, given, List.length_singleton, Nat.add_comm 1, List.range'_succ, List.map_cons,
        List.singleton_append]

/-- The ids that were sent and those still outbound are the first places of the stride. -/
theorem forwardedIds_perm (config : Config) (ran : run step (new uid) es = some t) :
    (forwardedIds config uid es ++ t.outbound.map narrow).Perm
      ((List.range ((new uid).numbered es)).map fun i => narrow (stride uid i)) := by
  have sent := run_outbound config ran
  rw [run_numbers (n := 0) rfl ran, ← List.range_eq_range'] at sent
  have narrowed := sent.map narrow
  rwa [List.map_append, ← run_narrows config ran, List.map_append, List.map_map] at narrowed

/-! ### Where two instances meet -/

/-- How far the ids of the second instance run behind those of the first, once their uids
    are congruent: the quotient of the difference by the stride, modulo 2^28. -/
def lag (u v : UInt64) : Nat := (v - u).toNat / 16 * 184254097 % 2 ^ 28

/-- The uids and the numbers of submissions for which two instances share no id. -/
def Apart (u v : UInt64) (n m : Nat) : Prop :=
  n = 0 ∨ m = 0 ∨ ¬ 16 ∣ (v - u).toNat ∨ n ≤ lag u v ∧ lag u v + m ≤ 2 ^ 28

instance (u v : UInt64) (n m : Nat) : Decidable (Apart u v n m) := by
  unfold Apart
  infer_instance

theorem odd_unit_field : 625 * 184254097 ≡ 1 [ZMOD 2 ^ 28] := by decide

/-- Two places have one id when the uids differ by a multiple of 16 and the places by the lag. -/
theorem id_eq_iff {u v : UInt64} {i j : Nat} : narrow (stride u i) = narrow (stride v j) ↔
    16 ∣ (v - u).toNat ∧ (i - j : ℤ) ≡ lag u v [ZMOD 2 ^ 28] := by
  have field : narrow (stride u i) = narrow (stride v j) ↔
      (16 * 625 * i + u.toNat : ℤ) ≡ 16 * 625 * j + v.toNat [ZMOD 16 * 2 ^ 28] := by
    rw [narrow_inj, toNat_stride, toNat_stride, Int.ModEq, Int.ModEq]
    omega
  have below : u.toNat < 2 ^ 64 := u.toNat_lt
  have gap : (v - u).toNat = (2 ^ 64 - u.toNat + v.toNat) % 2 ^ 64 := UInt64.toNat_sub v u
  have multiple : (16 : ℤ) ∣ v.toNat - u.toNat ↔ 16 ∣ (v - u).toNat := by
    rw [gap]
    omega
  rw [field, meet_iff (by decide) odd_unit_field, multiple]
  apply and_congr_right
  intro shared
  have quotient : ((v.toNat - u.toNat : ℤ) / 16) ≡ ((v - u).toNat / 16 : ℕ) [ZMOD 2 ^ 28] := by
    rw [gap] at shared ⊢
    rw [Int.ModEq]
    omega
  have same : ((v.toNat - u.toNat : ℤ) / 16) * 184254097 ≡ lag u v [ZMOD 2 ^ 28] := by
    calc ((v.toNat - u.toNat : ℤ) / 16) * 184254097
      _ ≡ ((v - u).toNat / 16 : ℕ) * 184254097 [ZMOD 2 ^ 28] := quotient.mul_right _
      _ ≡ lag u v [ZMOD 2 ^ 28] := by
        rw [Int.ModEq, lag]
        omega
  exact ⟨fun apart => apart.trans same, fun apart => apart.trans same.symm⟩

/-- One instance gives out an id again after 2^28 others. -/
theorem id_again {i j : Nat} : narrow (stride uid i) = narrow (stride uid j) ↔ (i : ℤ) ≡ j [ZMOD 2 ^ 28] := by
  have none : lag uid uid = 0 := by simp [lag]
  rw [id_eq_iff, none, Int.modEq_iff_dvd, Int.modEq_iff_dvd]
  constructor
  · rintro ⟨_, apart⟩
    omega
  · intro apart
    exact ⟨by simp, by omega⟩

theorem apart_iff {u v : UInt64} {m : Nat} :
    Apart u v n m ↔ ∀ i < n, ∀ j < m, narrow (stride u i) ≠ narrow (stride v j) := by
  have below : lag u v < 2 ^ 28 := Nat.mod_lt _ (by decide)
  have within := meet_within_iff (n := n) (m := m) (Int.natCast_nonneg (lag u v)) (Int.ofNat_lt.mpr below)
  constructor
  · intro apart i first j second same
    obtain ⟨shared, behind⟩ := id_eq_iff.mp same
    have meet := within.mp ⟨i, first, j, second, behind⟩
    unfold Apart at apart
    omega
  · intro different
    unfold Apart
    by_cases shared : 16 ∣ (v - u).toNat
    · have never : ¬ ∃ i < n, ∃ j < m, (i - j : ℤ) ≡ lag u v [ZMOD (2 ^ 28 : Nat)] := by
        rintro ⟨i, first, j, second, behind⟩
        exact different i first j second (id_eq_iff.mpr ⟨shared, behind⟩)
      rw [within] at never
      omega
    · exact .inr (.inr (.inl shared))

theorem distinct_iff : ((List.range n).map fun i => narrow (stride uid i)).Nodup ↔ n ≤ 2 ^ 28 := by
  constructor
  · intro distinct
    by_contra more
    have same : narrow (stride uid 0) = narrow (stride uid (2 ^ 28)) := id_again.mpr (by decide)
    have first : 0 ∈ List.range n := List.mem_range.mpr (by omega)
    have second : 2 ^ 28 ∈ List.range n := List.mem_range.mpr (by omega)
    have equal := List.inj_on_of_nodup_map distinct first second same
    cases equal
  · intro few
    apply List.nodup_range.map_on
    intro i first j second same
    have below := List.mem_range.mp first
    have under := List.mem_range.mp second
    have again : (i : ℤ) % 2 ^ 28 = j % 2 ^ 28 := id_again.mp same
    omega

/-- Every id that was sent is the narrowed id of some submission. -/
theorem mem_forwardedIds (ran : run step (new uid) es = some t) {id : Int32} (sent : id ∈ forwardedIds config uid es) :
    ∃ i < (new uid).numbered es, narrow (stride uid i) = id := by
  have among := (forwardedIds_perm config ran).subset (List.mem_append_left _ sent)
  obtain ⟨i, first, same⟩ := List.mem_map.mp among
  exact ⟨i, List.mem_range.mp first, same⟩

/-- Between the loops of the workers every submission was sent. -/
theorem forwardedIds_idle (ran : run step (new uid) es = some t) (idle : t.Idle) :
    (forwardedIds config uid es).Perm ((List.range ((new uid).numbered es)).map fun i => narrow (stride uid i)) := by
  have sent := forwardedIds_perm config ran
  rwa [idle.outbound, List.map_nil, List.append_nil] at sent

/-- The ids that QRM sees of one instance are distinct as long as it has submitted no more
    than 2^28 tasks, and those of two instances are distinct as long as these are apart;
    between the loops of the workers these are the only cases in which they are. -/
theorem forwarded_ids_unique_iff (config config' : Config) {u v : UInt64} {es' : List Event}
    (ran : run step (new u) es = some s) (ran' : run step (new v) es' = some t) :
    ((new u).numbered es ≤ 2 ^ 28 → (forwardedIds config u es).Nodup) ∧
      (Apart u v ((new u).numbered es) ((new v).numbered es') →
        (forwardedIds config u es).Disjoint (forwardedIds config' v es')) ∧
      (s.Idle → ((forwardedIds config u es).Nodup ↔ (new u).numbered es ≤ 2 ^ 28)) ∧
      (s.Idle → t.Idle → ((forwardedIds config u es).Disjoint (forwardedIds config' v es') ↔
        Apart u v ((new u).numbered es) ((new v).numbered es'))) := by
  have distinct : (new u).numbered es ≤ 2 ^ 28 → (forwardedIds config u es).Nodup := by
    intro few
    have all := (forwardedIds_perm config ran).nodup_iff.mpr (distinct_iff.mpr few)
    exact all.of_append_left
  have disjoint : Apart u v ((new u).numbered es) ((new v).numbered es') →
      (forwardedIds config u es).Disjoint (forwardedIds config' v es') := by
    intro apart id ofFirst ofSecond
    obtain ⟨i, first, rfl⟩ := mem_forwardedIds ran ofFirst
    obtain ⟨j, second, same⟩ := mem_forwardedIds ran' ofSecond
    exact apart_iff.mp apart i first j second same.symm
  refine ⟨distinct, disjoint, ?_, ?_⟩
  · intro idle
    rw [(forwardedIds_idle ran idle).nodup_iff]
    exact distinct_iff
  · intro idle idle'
    refine ⟨?_, disjoint⟩
    intro shareNone
    rw [apart_iff]
    intro i first j second same
    have ofFirst : narrow (stride u i) ∈ forwardedIds config u es :=
      (forwardedIds_idle ran idle).mem_iff.mpr (List.mem_map.mpr ⟨i, List.mem_range.mpr first, rfl⟩)
    have ofSecond : narrow (stride u i) ∈ forwardedIds config' v es' :=
      (forwardedIds_idle ran' idle').mem_iff.mpr (List.mem_map.mpr ⟨j, List.mem_range.mpr second, same.symm⟩)
    exact shareNone ofFirst ofSecond

/-- The tasks of instances 0 and 1 differ, here one sent directly and one by a control command. -/
theorem neighbouring_uids_differ : (forwardedIds makeDefaultConfig 0 (directLoop false ++ createLoop false)).Nodup ∧
    (forwardedIds makeDefaultConfig 0 (directLoop false ++ createLoop false)).Disjoint
      (forwardedIds makeDefaultConfig 1 (directLoop false)) := by
  have ids := @forwarded_ids_unique_iff _ _ (directLoop false ++ createLoop false) makeDefaultConfig makeDefaultConfig 0 1
    (directLoop false) rfl rfl
  exact ⟨ids.1 (by decide), ids.2.1 (by decide)⟩

/-- The second task of instance 0 has the id of the first task of instance 10000. -/
theorem strided_uids_share_id : ∃ s t, run step (new 0) (directLoop false ++ createLoop false) = some s ∧
    run step (new 10000) (directLoop false) = some t ∧
    ¬ (forwardedIds makeDefaultConfig 0 (directLoop false ++ createLoop false)).Disjoint
      (forwardedIds makeDefaultConfig 10000 (directLoop false)) := by
  refine ⟨_, _, rfl, rfl, ?_⟩
  intro disjoint
  exact @disjoint 10000 (by decide) (by decide)

end Service
end Mqss.QOffload
