import Mqss.Messages
import Mqss.Words
import Mqss.Segments
import Mqss.FiniteMap

/-!
The submitter of the workflow example gathers a histogram from two results of the device,
a text of comma-separated keys and a vector of counts. Its loop goes over the keys with
a 32-bit index and reads the counts at that index without a look at how many there are.
-/

namespace Mqss.QrmWorkflow
open Mqss.Words Mqss.Segments Mqss.FiniteMap
universe u

/-- What a call comes to within a number of rounds of its loop: it returns, it reads
    outside of a container, or it is still running. -/
inductive Outcome (α : Type u)
  | returned (value : α)
  | outOfBounds
  | running
  deriving DecidableEq

/-! ### The two loops -/

/-- The loop over the segments of the key text. -/
def splitKeys (key_list : String) : List String := (cut ',' key_list.toList).map String.ofList

/-- The loop over the keys. -/
def gather (key_vec : List String) (counts : List UInt64) : Nat → UInt32 → Counts → Outcome Counts
  | 0, _, _ => .running
  | rounds + 1, i, result =>
    match key_vec[i.toNat]? with
    | none => .returned result
    | some key =>
      match counts[i.toNat]? with
      | none => .outOfBounds
      | some count => gather key_vec counts rounds (i + 1) (result.insert key (narrow count))

/-- The assembly of a counts map from what the device returned. -/
def assemble (key_list : String) (counts : List UInt64) (rounds : Nat) : Outcome Counts :=
  gather (splitKeys key_list) counts rounds 0 ∅

/-! ### What is asked of it -/

/-- No round reads the counts outside of their vector. -/
def Safe (key_list : String) (counts : List UInt64) : Prop :=
  ∀ rounds, assemble key_list counts rounds ≠ .outOfBounds

/-- The key text joins distinct keys, and there is a count below 2^31 for each. -/
structure Joins (key_list : String) (counts : List UInt64) (keys : List String) : Prop where
  joined : key_list = ",".intercalate keys
  distinct : keys.Nodup
  named : ∀ key ∈ keys, key ≠ ""
  plain : ∀ key ∈ keys, ',' ∉ key.toList
  paired : counts.length = keys.length
  small : ∀ count ∈ counts, count.toNat < 2 ^ 31

/-- The map has exactly the pairs of a key and its count. -/
def Shows (result : Counts) (keys : List String) (counts : List UInt64) : Prop :=
  ∀ key (value : Int), (result.lookup key).map Int32.toInt = some value ↔
    ∃ (i : Nat) (count : UInt64), keys[i]? = some key ∧ counts[i]? = some count ∧ value = count.toNat

/-- The assembly returns the map of the pairs, for every way of reading the text as keys. -/
def Exact (key_list : String) (counts : List UInt64) : Prop :=
  ∀ keys, Joins key_list counts keys →
    ∃ rounds result, assemble key_list counts rounds = .returned result ∧ Shows result keys counts

/-- How many keys are in a text: one before each comma, and one more unless the text is
    empty or ends in a comma. -/
def keyCount (key_list : String) : Nat :=
  key_list.toList.count ',' + if key_list = "" ∨ key_list.toList.getLast? = some ',' then 0 else 1

/-- The counts suffice for the keys that the 32-bit index reaches, and, where there is a map
    to return, the index passes the last key. -/
structure Covers (key_list : String) (counts : List UInt64) : Prop where
  bounded : min (keyCount key_list) (2 ^ 32) ≤ counts.length
  passed : (∃ keys, Joins key_list counts keys) → keyCount key_list < 2 ^ 32

/-! ### The keys -/

theorem length_splitKeys (key_list : String) : (splitKeys key_list).length = keyCount key_list := by
  have empty : key_list.toList = [] ↔ key_list = "" := String.toList_eq_nil_iff
  simp only [splitKeys, List.length_map, length_cut, keyCount, empty]

/-- Splitting is inverse to joining. -/
theorem splitKeys_intercalate {keys : List String} (named : ∀ key ∈ keys, key ≠ "")
    (plain : ∀ key ∈ keys, ',' ∉ key.toList) : splitKeys (",".intercalate keys) = keys := by
  have text : (",".intercalate keys).toList = join ',' (keys.map String.toList) := by
    rw [String.toList_intercalate, join_eq_intercalate]
    rfl
  have whole : ∀ segment ∈ keys.map String.toList, ',' ∉ segment := by
    intro segment member
    obtain ⟨key, inside, rfl⟩ := List.mem_map.mp member
    exact plain key inside
  have ends : (keys.map String.toList).getLast? ≠ some [] := by
    intro last
    obtain ⟨key, inside, empty⟩ := List.mem_map.mp (List.mem_of_getLast? last)
    exact named key inside (String.toList_inj.mp empty)
  rw [splitKeys, text, cut_join whole ends, List.map_map]
  simp [Function.comp_def]

theorem splitKeys_joined {key_list : String} {counts : List UInt64} {keys : List String}
    (joins : Joins key_list counts keys) : splitKeys key_list = keys := by
  rw [joins.joined]
  exact splitKeys_intercalate joins.named joins.plain

/-! ### The reads of the counts -/

theorem gather_safe {key_vec : List String} {counts : List UInt64}
    (enough : ∀ i < 2 ^ 32, i < key_vec.length → i < counts.length) (rounds : Nat) (i : UInt32) (result : Counts) :
    gather key_vec counts rounds i result ≠ .outOfBounds := by
  induction rounds generalizing i result with
  | zero => simp [gather]
  | succ rounds ih =>
    unfold gather
    cases key : key_vec[i.toNat]? with
    | none => simp
    | some name =>
      have inside : i.toNat < key_vec.length := (List.getElem?_eq_some_iff.mp key).1
      have below : i.toNat < counts.length := enough _ i.toNat_lt inside
      simp only [List.getElem?_eq_getElem below]
      exact ih (i + 1) _

/-- The keys with the counts at their index. -/
def pairs (key_vec : List String) (counts : List UInt64) : List (Sigma fun _ : String => UInt64) :=
  (key_vec.zip counts).map fun pair => ⟨pair.1, pair.2⟩

theorem getElem?_pairs {key_vec : List String} {counts : List UInt64} {i : Nat} {key : String} {count : UInt64} :
    (pairs key_vec counts)[i]? = some ⟨key, count⟩ ↔ key_vec[i]? = some key ∧ counts[i]? = some count := by
  rw [pairs, List.getElem?_map, Option.map_eq_some_iff]
  constructor
  · rintro ⟨⟨_, _⟩, found, same⟩
    cases same
    exact List.getElem?_zip_eq_some.mp found
  · intro found
    exact ⟨(key, count), List.getElem?_zip_eq_some.mpr found, rfl⟩

/-- The map after some rounds. -/
def gathered (key_vec : List String) (counts : List UInt64) (rounds : Nat) : Counts :=
  ((pairs key_vec counts).take rounds).foldl (fun result entry => result.insert entry.1 (narrow entry.2)) ∅

/-- While there are keys and counts at the index, a round adds the next pair. -/
theorem gather_rounds {key_vec : List String} {counts : List UInt64} {k : Nat} (keys : k ≤ key_vec.length)
    (values : k ≤ counts.length) (index : k < 2 ^ 32) (rounds : Nat) :
    gather key_vec counts (k + rounds) 0 ∅ =
      gather key_vec counts rounds (.ofNat k) (gathered key_vec counts k) := by
  induction k generalizing rounds with
  | zero =>
    rw [Nat.zero_add]
    rfl
  | succ k ih =>
    have before := ih (by omega) (by omega) (by omega) (rounds + 1)
    have at_k : (UInt32.ofNat k).toNat = k := UInt32.toNat_ofNat_of_lt' (show k < 2 ^ 32 by omega)
    have key : key_vec[k]? = some key_vec[k] := List.getElem?_eq_getElem (by omega)
    have count : counts[k]? = some counts[k] := List.getElem?_eq_getElem (by omega)
    have next : UInt32.ofNat k + 1 = .ofNat (k + 1) := by simp
    have added : gathered key_vec counts (k + 1) = (gathered key_vec counts k).insert key_vec[k] (narrow counts[k]) := by
      have pair := getElem?_pairs.mpr ⟨key, count⟩
      rw [gathered, List.take_add_one, pair, List.foldl_append]
      rfl
    rw [show k + 1 + rounds = k + (rounds + 1) by omega, before, gather]
    simp only [at_k, key, count, next, added]

/-- The reads are safe if and only if the counts suffice for the keys that the index reaches. -/
theorem safe_iff (key_list : String) (counts : List UInt64) :
    Safe key_list counts ↔ min (keyCount key_list) (2 ^ 32) ≤ counts.length := by
  rw [← length_splitKeys]
  constructor
  · intro safe
    by_contra short
    have missing : counts.length < (splitKeys key_list).length ∧ counts.length < 2 ^ 32 := by omega
    have reached := @gather_rounds (splitKeys key_list) counts counts.length (by omega) le_rfl missing.2 1
    refine safe (counts.length + 1) ?_
    have here : (UInt32.ofNat counts.length).toNat = counts.length := UInt32.toNat_ofNat_of_lt' missing.2
    rw [assemble, reached, gather]
    simp [here, List.getElem?_eq_getElem missing.1]
  · intro enough rounds
    exact gather_safe (fun i index inside => by omega) rounds 0 ∅

/-! ### The map -/

theorem gather_endless {key_vec : List String} (many : 2 ^ 32 ≤ key_vec.length) (counts : List UInt64) (rounds : Nat)
    (i : UInt32) (result finished : Counts) : gather key_vec counts rounds i result ≠ .returned finished := by
  induction rounds generalizing i result with
  | zero => simp [gather]
  | succ rounds ih =>
    have index : i.toNat < 2 ^ 32 := i.toNat_lt
    have inside : i.toNat < key_vec.length := by omega
    unfold gather
    simp only [List.getElem?_eq_getElem inside]
    cases counts[i.toNat]? with
    | none => simp
    | some count => exact ih (i + 1) _

/-- With as many counts as keys, and fewer than the index can pass, the loop ends. -/
theorem gather_returns {key_vec : List String} {counts : List UInt64} (paired : counts.length = key_vec.length)
    (few : key_vec.length < 2 ^ 32) :
    gather key_vec counts (key_vec.length + 1) 0 ∅ = .returned (gathered key_vec counts key_vec.length) := by
  have last : (UInt32.ofNat key_vec.length).toNat = key_vec.length := UInt32.toNat_ofNat_of_lt' few
  rw [gather_rounds le_rfl (by omega) few, gather]
  simp [last]

theorem lookup_gathered {keys : List String} {counts : List UInt64} (distinct : keys.Nodup)
    (paired : counts.length = keys.length) (key : String) (value : Int32) :
    (gathered keys counts keys.length).lookup key = some value ↔
      ∃ (i : Nat) (count : UInt64), keys[i]? = some key ∧ counts[i]? = some count ∧ value = narrow count := by
  have names : (pairs keys counts).keys = keys := by
    rw [List.keys, pairs, List.map_map]
    exact List.map_fst_zip (by omega)
  have nodup : (pairs keys counts).NodupKeys := by
    rw [List.NodupKeys, names]
    exact distinct
  have whole : (pairs keys counts).take keys.length = pairs keys counts := List.take_of_length_le (by simp [pairs])
  rw [gathered, whole, lookup_inserted narrow nodup, Option.map_eq_some_iff]
  constructor
  · rintro ⟨count, found, same⟩
    obtain ⟨i, here⟩ := List.mem_iff_getElem?.mp ((List.mem_dlookup_iff nodup).mp found)
    obtain ⟨atKey, atCount⟩ := getElem?_pairs.mp here
    exact ⟨i, count, atKey, atCount, same.symm⟩
  · rintro ⟨i, count, atKey, atCount, same⟩
    have here := List.mem_iff_getElem?.mpr ⟨i, getElem?_pairs.mpr ⟨atKey, atCount⟩⟩
    exact ⟨count, (List.mem_dlookup_iff nodup).mpr here, same.symm⟩

theorem gathered_shows {keys : List String} {counts : List UInt64} (distinct : keys.Nodup)
    (paired : counts.length = keys.length) (small : ∀ count ∈ counts, count.toNat < 2 ^ 31) :
    Shows (gathered keys counts keys.length) keys counts := by
  intro key value
  rw [Option.map_eq_some_iff]
  constructor
  · rintro ⟨field, found, same⟩
    obtain ⟨i, count, atKey, atCount, rfl⟩ := (lookup_gathered distinct paired key field).mp found
    have exactly := toInt_narrow_small (small count (List.mem_of_getElem? atCount))
    exact ⟨i, count, atKey, atCount, same.symm.trans exactly⟩
  · rintro ⟨i, count, atKey, atCount, same⟩
    have exactly := toInt_narrow_small (small count (List.mem_of_getElem? atCount))
    have found := (lookup_gathered distinct paired key (narrow count)).mpr ⟨i, count, atKey, atCount, rfl⟩
    exact ⟨narrow count, found, exactly.trans same.symm⟩

/-- A map of 32-bit counts shows no larger ones. -/
theorem Shows.small {result : Counts} {keys : List String} {counts : List UInt64} (shows_ : Shows result keys counts)
    (paired : counts.length = keys.length) : ∀ count ∈ counts, count.toNat < 2 ^ 31 := by
  intro count member
  obtain ⟨i, atCount⟩ := List.mem_iff_getElem?.mp member
  have inside : i < keys.length := by
    have below := (List.getElem?_eq_some_iff.mp atCount).1
    omega
  have pair := (shows_ keys[i] count.toNat).mpr ⟨i, count, List.getElem?_eq_getElem inside, atCount, rfl⟩
  obtain ⟨field, _, same⟩ := Option.map_eq_some_iff.mp pair
  have bound := field.toInt_lt
  omega

/-- The map is exact if and only if the index passes the last key of what is joined. -/
theorem exact_iff (key_list : String) (counts : List UInt64) :
    Exact key_list counts ↔ ((∃ keys, Joins key_list counts keys) → keyCount key_list < 2 ^ 32) := by
  rw [← length_splitKeys]
  constructor
  · rintro exact ⟨keys, joins⟩
    by_contra many
    obtain ⟨rounds, result, returned, _⟩ := exact keys joins
    exact gather_endless (by omega) counts rounds 0 ∅ result returned
  · intro few keys joins
    have short := few ⟨keys, joins⟩
    rw [splitKeys_joined joins] at short
    refine ⟨keys.length + 1, _, ?_, gathered_shows joins.distinct joins.paired joins.small⟩
    rw [assemble, splitKeys_joined joins]
    exact gather_returns joins.paired short

/-- The assembly reads no count that is not there, and returns exactly the pairs of keys and
    counts, if and only if the counts cover the keys of the text. -/
theorem assembly_safe_and_exact_iff (key_list : String) (counts : List UInt64) :
    Safe key_list counts ∧ Exact key_list counts ↔ Covers key_list counts := by
  rw [safe_iff, exact_iff]
  constructor
  · rintro ⟨bounded, passed⟩
    exact ⟨bounded, passed⟩
  · intro covers
    exact ⟨covers.bounded, covers.passed⟩

/-- Two keys and one count: the second round reads behind the end of the counts. -/
theorem missing_count_read : assemble "00,11" [5] 2 = .outOfBounds ∧
    ¬ (Safe "00,11" [5] ∧ Exact "00,11" [5]) := by
  have read : assemble "00,11" [5] 2 = .outOfBounds := by decide +kernel
  refine ⟨read, ?_⟩
  rintro ⟨safe, _⟩
  exact safe 2 read

end Mqss.QrmWorkflow
