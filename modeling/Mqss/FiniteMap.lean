import Mathlib.Data.Finmap

/-!
Finite maps over one type of values: mapping and filtering the values,
what an insertion or an erasure leaves, and loops that copy a map.
-/

namespace Mqss.FiniteMap
universe u v w x

variable {Key : Type u} {Value : Type v} {Image : Type w}

theorem filterMap_nodupKeys (f : Value → Option Image) (entries : Multiset (Sigma fun _ : Key => Value))
    (distinct : entries.NodupKeys) :
    Multiset.NodupKeys (β := fun _ : Key => Image)
      (entries.filterMap (fun entry => (f entry.2).map (Sigma.mk entry.1))) := by
  induction entries using Quot.induction_on with
  | h list =>
    have pairs := List.nodupKeys_iff_pairwise.mp distinct
    refine List.nodupKeys_iff_pairwise.mpr (pairs.filterMap _ ?_)
    rintro ⟨k, v⟩ ⟨l, w⟩ apart ⟨k', v'⟩ first ⟨l', w'⟩ second
    simp only [Option.map_eq_some_iff] at first second
    obtain ⟨_, _, same⟩ := first
    obtain ⟨_, _, same'⟩ := second
    cases same
    cases same'
    exact apart

/-- The images of the values that have one, under their keys. -/
def filterMapValues (f : Value → Option Image) (map : Finmap (fun _ : Key => Value)) :
    Finmap (fun _ : Key => Image) where
  entries := map.entries.filterMap (fun entry => (f entry.2).map (Sigma.mk entry.1))
  nodupKeys := filterMap_nodupKeys f map.entries map.nodupKeys

variable [DecidableEq Key] {map : Finmap (fun _ : Key => Value)} {key other : Key} {value new : Value}

theorem mem_filterMapValues {f : Value → Option Image} {image : Image} :
    image ∈ (filterMapValues f map).lookup key ↔ ∃ value ∈ map.lookup key, image ∈ f value := by
  rw [Finmap.mem_lookup_iff]
  simp only [filterMapValues, Multiset.mem_filterMap, Sigma.exists, Finmap.mem_lookup_iff]
  constructor
  · rintro ⟨k, value, entry, mapped⟩
    obtain ⟨found, has, same⟩ := Option.map_eq_some_iff.mp mapped
    cases same
    exact ⟨value, entry, has⟩
  · rintro ⟨value, entry, has⟩
    exact ⟨key, value, entry, Option.map_eq_some_iff.mpr ⟨image, has, rfl⟩⟩

theorem lookup_filterMapValues (f : Value → Option Image) (map : Finmap (fun _ : Key => Value)) (key : Key) :
    (filterMapValues f map).lookup key = (map.lookup key).bind f := by
  ext image
  rw [Option.bind_eq_some_iff]
  exact mem_filterMapValues

/-- What an erased map still has was there before. -/
theorem lookup_of_erase (found : (map.erase key).lookup other = some value) :
    other ≠ key ∧ map.lookup other = some value := by
  by_cases same : other = key
  · rw [same, Finmap.lookup_erase] at found
    cases found
  · rw [Finmap.lookup_erase_ne same] at found
    exact ⟨same, found⟩

/-- What a map has after an insertion is the new value or was there before. -/
theorem lookup_of_insert (found : (map.insert key new).lookup other = some value) :
    other = key ∧ new = value ∨ map.lookup other = some value := by
  by_cases same : other = key
  · rw [same, Finmap.lookup_insert, Option.some.injEq] at found
    exact .inl ⟨same, found⟩
  · rw [Finmap.lookup_insert_of_ne _ same] at found
    exact .inr found

/-- How often a key is in a map: once or not at all. -/
def count (map : Finmap (fun _ : Key => Value)) (key : Key) : Nat := if key ∈ map then 1 else 0

theorem count_insert_le (map : Finmap (fun _ : Key => Value)) (key other : Key) (value : Value) :
    count (map.insert key value) other ≤ (if other = key then 1 else 0) + count map other := by
  simp only [count, Finmap.mem_insert]
  split_ifs <;> first | omega | simp_all

theorem count_erase_le (map : Finmap (fun _ : Key => Value)) (key other : Key) :
    count (map.erase key) other ≤ count map other := by
  simp only [count, Finmap.mem_erase]
  split_ifs <;> first | omega | simp_all

/-- An erased key is no longer counted. -/
theorem count_erase (here : key ∈ map) (other : Key) :
    (if other = key then 1 else 0) + count (map.erase key) other = count map other := by
  simp only [count, Finmap.mem_erase]
  split_ifs <;> first | omega | simp_all

theorem count_eq_zero : count map key = 0 ↔ map.lookup key = none := by
  rw [Finmap.lookup_eq_none, count]
  split_ifs <;> simp_all

theorem count_eq_one (found : map.lookup key = some value) : count map key = 1 :=
  if_pos (Finmap.mem_iff.mpr ⟨value, found⟩)

/-! ### Copying a map entry by entry -/

/-- The entries of a map in one of the orders in which its iteration may visit them. -/
def Visits (entries : List (Sigma fun _ : Key => Value)) (map : Finmap (fun _ : Key => Value)) : Prop :=
  (entries : Multiset (Sigma fun _ : Key => Value)) = map.entries

omit [DecidableEq Key] in
theorem Visits.distinct {entries : List (Sigma fun _ : Key => Value)} (visits : Visits entries map) :
    entries.NodupKeys := by
  have nodup := map.nodupKeys
  rwa [← visits] at nodup

theorem Visits.dlookup {entries : List (Sigma fun _ : Key => Value)} (visits : Visits entries map) (key : Key) :
    entries.dlookup key = map.lookup key := by
  ext value
  rw [← Option.mem_def, ← Option.mem_def, List.mem_dlookup_iff visits.distinct, Finmap.mem_lookup_iff, ← visits]
  rfl

/-- Add an entry unless its key is there. -/
def emplace (map : AList (fun _ : Key => Value)) (key : Key) (value : Value) : AList (fun _ : Key => Value) :=
  if key ∈ map then map else AList.insert key value map

/-- A loop that writes the entries of a map one by one, by a write that sets its own key, or
    not even that when the value has no image, and leaves the others, has written them all
    at its end. -/
theorem lookup_written {Table : Type x} {read : Table → Key → Option Image} {write : Table → Key → Value → Table}
    {image : Value → Option Image}
    (sets : ∀ table key value, read table key = none → read (write table key value) key = image value)
    (leaves : ∀ table key value other, other ≠ key → read (write table key value) other = read table other)
    {entries : List (Sigma fun _ : Key => Value)} (distinct : entries.NodupKeys) {start : Table}
    (absent : ∀ entry ∈ entries, read start entry.1 = none) (key : Key) :
    read (entries.foldl (fun table entry => write table entry.1 entry.2) start) key =
      ((entries.dlookup key).bind image).or (read start key) := by
  induction entries generalizing start with
  | nil => simp
  | cons entry entries ih =>
    obtain ⟨first, value⟩ := entry
    obtain ⟨unique, distinct⟩ := List.nodupKeys_cons.mp distinct
    have apart : ∀ entry ∈ entries, entry.1 ≠ first := by
      intro entry member same
      have key := List.mem_keys_of_mem member
      rw [same] at key
      exact unique key
    have still : ∀ entry ∈ entries, read (write start first value) entry.1 = none := by
      intro entry member
      rw [leaves _ _ _ _ (apart entry member)]
      exact absent entry (List.mem_cons_of_mem _ member)
    rw [List.foldl_cons, ih distinct still]
    by_cases same : key = first
    · subst same
      have unset := absent ⟨key, value⟩ List.mem_cons_self
      rw [List.dlookup_eq_none.mpr unique, List.dlookup_cons_eq, sets start key value unset, unset]
      simp
    · rw [leaves _ _ _ _ same, List.dlookup_cons_ne _ _ same]

theorem lookup_emplace {copy : AList (fun _ : Key => Value)} (absent : copy.lookup key = none) :
    (emplace copy key value).lookup key = some value := by
  rw [emplace, if_neg (AList.lookup_eq_none.mp absent), AList.lookup_insert]

theorem lookup_emplace_ne (copy : AList (fun _ : Key => Value)) (apart : other ≠ key) :
    (emplace copy key value).lookup other = copy.lookup other := by
  unfold emplace
  split
  · rfl
  · exact AList.lookup_insert_ne apart

/-- Emplacing every entry of a map into an empty one copies it. -/
theorem lookup_emplaced (map : AList (fun _ : Key => Value)) (key : Key) :
    (map.entries.foldl (fun copy entry => emplace copy entry.1 entry.2) ∅).lookup key = map.lookup key := by
  have written := @lookup_written _ _ _ _ _ (fun copy key => AList.lookup key copy) emplace some
    (fun _ _ _ absent => lookup_emplace absent) (fun copy _ _ _ apart => lookup_emplace_ne copy apart) _
    map.nodupKeys ∅ (fun _ _ => AList.lookup_empty _) key
  simpa [AList.lookup] using written

/-- Inserting the image of every entry into an empty map. -/
theorem lookup_inserted (f : Value → Image) {entries : List (Sigma fun _ : Key => Value)} (distinct : entries.NodupKeys)
    (key : Key) :
    (entries.foldl (fun copy entry => AList.insert entry.1 (f entry.2) copy)
      (∅ : AList (fun _ : Key => Image))).lookup key = (entries.dlookup key).map f := by
  have written := @lookup_written _ _ _ _ _ (fun copy key => AList.lookup key copy)
    (fun copy key value => AList.insert key (f value) copy) (fun value => some (f value))
    (fun copy _ _ _ => AList.lookup_insert copy) (fun _ _ _ _ apart => AList.lookup_insert_ne apart) _ distinct ∅
    (fun _ _ => AList.lookup_empty _) key
  rw [AList.lookup_empty, Option.or_none] at written
  rw [Option.map_eq_bind]
  exact written

/-- Assigning every entry copies the map as well. -/
theorem lookup_assigned (map : AList (fun _ : Key => Value)) (key : Key) :
    (map.entries.foldl (fun copy entry => AList.insert entry.1 entry.2 copy)
      (∅ : AList (fun _ : Key => Value))).lookup key = map.lookup key := by
  have inserted := lookup_inserted (fun value : Value => value) map.nodupKeys key
  simpa [AList.lookup] using inserted

end Mqss.FiniteMap
