import Mathlib.Data.List.Forall2

/-!
Conveyors. Items stand on a belt in the order of what they were made of. On its way an
item is worked on in its place, or it falls off the belt; what is left on it is made of
some of the origins, in their order, and of each of them once. Where nothing falls off,
it is made of all of them.
-/

namespace Mqss.Conveyor
open List
universe u v w x

variable {Item : Type u} {Origin : Type v} {Stems : Item → Origin → Prop}

/-- Items that are left have kept their partners. -/
theorem forall₂_sublist {belt kept : List Item} {origins : List Origin} (pairs : Forall₂ Stems belt origins)
    (fewer : kept.Sublist belt) : ∃ left, Forall₂ Stems kept left ∧ left.Sublist origins := by
  induction fewer generalizing origins with
  | slnil => exact ⟨[], .nil, nil_sublist _⟩
  | cons item fewer ih =>
    obtain ⟨origin, rest, _, later, rfl⟩ := forall₂_cons_left_iff.mp pairs
    obtain ⟨left, partners, among⟩ := ih later
    exact ⟨left, partners, among.cons origin⟩
  | cons_cons item fewer ih =>
    obtain ⟨origin, rest, stems, later, rfl⟩ := forall₂_cons_left_iff.mp pairs
    obtain ⟨left, partners, among⟩ := ih later
    exact ⟨origin :: left, .cons stems partners, among.cons_cons origin⟩

/-- An item is worked on in its place. -/
theorem forall₂_work {before after : List Item} {item worked : Item} {origins : List Origin}
    (pairs : Forall₂ Stems (before ++ item :: after) origins)
    (works : ∀ origin, Stems item origin → Stems worked origin) :
    Forall₂ Stems (before ++ worked :: after) origins := by
  induction before generalizing origins with
  | nil =>
    obtain ⟨origin, rest, stems, later, rfl⟩ := forall₂_cons_left_iff.mp pairs
    exact .cons (works origin stems) later
  | cons first before ih =>
    obtain ⟨origin, rest, stems, later, rfl⟩ := forall₂_cons_left_iff.mp pairs
    exact .cons stems (ih later)

theorem forall₂_load {belt : List Item} {origins : List Origin} (pairs : Forall₂ Stems belt origins) {item : Item}
    {origin : Origin} (stems : Stems item origin) : Forall₂ Stems (belt ++ [item]) (origins ++ [origin]) :=
  rel_append pairs (.cons stems .nil)

/-- Items and origins that are picked out alike, where nothing is lost. -/
theorem forall₂_filter {picked : Item → Bool} {picks : Origin → Bool} {belt : List Item} {origins : List Origin}
    (pairs : Forall₂ Stems belt origins) (alike : ∀ item origin, Stems item origin → picked item = picks origin) :
    Forall₂ (fun item origin => Stems item origin ∧ picked item = true) (belt.filter picked) (origins.filter picks) := by
  induction pairs with
  | nil => exact .nil
  | @cons item origin _ _ stems _ ih =>
    by_cases here : picked item = true
    · rw [filter_cons_of_pos here, filter_cons_of_pos ((alike _ _ stems).symm.trans here)]
      exact .cons ⟨stems, here⟩ ih
    · have there : ¬ picks origin = true := by rwa [← alike _ _ stems]
      rw [filter_cons_of_neg here, filter_cons_of_neg there]
      exact ih

/-- Items and origins that are read in part, in the same places. -/
theorem forall₂_filterMap {Read : Type w} {Source : Type x} {reads : Item → Option Read} {sources : Origin → Option Source}
    {Made : Read → Source → Prop} {belt : List Item} {origins : List Origin} (pairs : Forall₂ Stems belt origins)
    (alike : ∀ item ∈ belt, ∀ origin ∈ origins, Stems item origin → Option.Rel Made (reads item) (sources origin)) :
    Forall₂ Made (belt.filterMap reads) (origins.filterMap sources) := by
  induction pairs with
  | nil => exact .nil
  | @cons item origin _ _ stems _ ih =>
    have later := ih fun other member origin among => alike other (mem_cons_of_mem _ member) origin (mem_cons_of_mem _ among)
    have here := alike item mem_cons_self origin mem_cons_self stems
    rw [filterMap_cons, filterMap_cons]
    generalize reads item = read, sources origin = source at here ⊢
    cases here with
    | none => exact later
    | some made => exact .cons made later

/-- Some of the items, or all of them where nothing is lost. -/
structure Kept (lossless : Prop) (kept items : List Item) : Prop where
  among : kept.Sublist items
  all : lossless → kept = items

namespace Kept
variable {lossless : Prop} {kept items more : List Item}

theorem same (equal : kept = items) : Kept lossless kept items := ⟨by rw [equal], fun _ => equal⟩

theorem trans (first : Kept lossless kept items) (second : Kept lossless items more) : Kept lossless kept more :=
  ⟨first.among.trans second.among, fun holds => (first.all holds).trans (second.all holds)⟩

theorem append_left (keeps : Kept lossless kept items) (before : List Item) :
    Kept lossless (before ++ kept) (before ++ items) :=
  ⟨keeps.among.append_left _, fun holds => by rw [keeps.all holds]⟩

theorem append_right (keeps : Kept lossless kept items) (after : List Item) :
    Kept lossless (kept ++ after) (items ++ after) :=
  ⟨keeps.among.append_right _, fun holds => by rw [keeps.all holds]⟩

theorem mono {less : Prop} (keeps : Kept lossless kept items) (gives : less → lossless) : Kept less kept items :=
  ⟨keeps.among, fun holds => keeps.all (gives holds)⟩

end Kept

/-! ### Belts that lose items -/

variable {belt : List Item} {origins : List Origin}

theorem image_load (image : SublistForall₂ Stems belt origins) {item : Item} {origin : Origin}
    (stems : Stems item origin) : SublistForall₂ Stems (belt ++ [item]) (origins ++ [origin]) := by
  obtain ⟨own, pairs, among⟩ := sublistForall₂_iff.mp image
  exact sublistForall₂_iff.mpr ⟨own ++ [origin], forall₂_load pairs stems, among.append (Sublist.refl _)⟩

theorem image_lose (image : SublistForall₂ Stems belt origins) {kept : List Item} (fewer : kept.Sublist belt) :
    SublistForall₂ Stems kept origins := by
  obtain ⟨own, pairs, among⟩ := sublistForall₂_iff.mp image
  obtain ⟨left, partners, fewer⟩ := forall₂_sublist pairs fewer
  exact sublistForall₂_iff.mpr ⟨left, partners, fewer.trans among⟩

theorem image_work {before after : List Item} {item worked : Item}
    (image : SublistForall₂ Stems (before ++ item :: after) origins)
    (works : ∀ origin, Stems item origin → Stems worked origin) :
    SublistForall₂ Stems (before ++ worked :: after) origins := by
  obtain ⟨own, pairs, among⟩ := sublistForall₂_iff.mp image
  exact sublistForall₂_iff.mpr ⟨own, forall₂_work pairs works, among⟩

theorem image_mono {Weaker : Item → Origin → Prop} (image : SublistForall₂ Stems belt origins)
    (weaken : ∀ item origin, Stems item origin → Weaker item origin) : SublistForall₂ Weaker belt origins := by
  obtain ⟨own, pairs, among⟩ := sublistForall₂_iff.mp image
  exact sublistForall₂_iff.mpr ⟨own, pairs.imp weaken, among⟩

/-- Items and origins that are picked out alike. -/
theorem image_filter {picked : Item → Bool} {picks : Origin → Bool} (image : SublistForall₂ Stems belt origins)
    (alike : ∀ item origin, Stems item origin → picked item = picks origin) :
    SublistForall₂ (fun item origin => Stems item origin ∧ picked item = true) (belt.filter picked)
      (origins.filter picks) := by
  induction image with
  | nil => exact .nil
  | @cons item origin _ _ stems _ ih =>
    by_cases here : picked item = true
    · rw [filter_cons_of_pos here, filter_cons_of_pos ((alike _ _ stems).symm.trans here)]
      exact .cons ⟨stems, here⟩ ih
    · have there : ¬ picks origin = true := by rwa [← alike _ _ stems]
      rw [filter_cons_of_neg here, filter_cons_of_neg there]
      exact ih
  | @cons_right origin _ _ _ ih =>
    by_cases there : picks origin = true
    · rw [filter_cons_of_pos there]
      exact .cons_right ih
    · rwa [filter_cons_of_neg there]

/-- Items and origins that are read in part, the origin of every item that is read among them. -/
theorem image_filterMap {Read : Type w} {Source : Type x} {reads : Item → Option Read} {sources : Origin → Option Source}
    {Made : Read → Source → Prop} (image : SublistForall₂ Stems belt origins)
    (alike : ∀ item ∈ belt, ∀ origin ∈ origins, Stems item origin → ∀ read, reads item = some read →
      ∃ source, sources origin = some source ∧ Made read source) :
    SublistForall₂ Made (belt.filterMap reads) (origins.filterMap sources) := by
  induction image with
  | nil => exact .nil
  | @cons item origin _ _ stems _ ih =>
    have later := ih fun other member origin among => alike other (mem_cons_of_mem _ member) origin (mem_cons_of_mem _ among)
    cases read : reads item with
    | some value =>
      obtain ⟨source, known, made⟩ := alike item mem_cons_self origin mem_cons_self stems value read
      rw [filterMap_cons_some read, filterMap_cons_some known]
      exact .cons made later
    | none =>
      rw [filterMap_cons_none read]
      cases known : sources origin with
      | some source =>
        rw [filterMap_cons_some known]
        exact .cons_right later
      | none => rwa [filterMap_cons_none known]
  | @cons_right origin _ _ _ ih =>
    have later := ih fun item member other among => alike item member other (mem_cons_of_mem _ among)
    cases known : sources origin with
    | some source =>
      rw [filterMap_cons_some known]
      exact .cons_right later
    | none => rwa [filterMap_cons_none known]

/-- Some of the origins are among more of them. -/
theorem image_among (image : SublistForall₂ Stems belt origins) {more : List Origin} (among : origins.Sublist more) :
    SublistForall₂ Stems belt more := by
  obtain ⟨own, pairs, fewer⟩ := sublistForall₂_iff.mp image
  exact sublistForall₂_iff.mpr ⟨own, pairs, fewer.trans among⟩

/-- Every item is made of one of the origins. -/
theorem image_stems (image : SublistForall₂ Stems belt origins) {item : Item} (member : item ∈ belt) :
    ∃ origin ∈ origins, Stems item origin := by
  induction image with
  | nil => cases member
  | cons stems _ ih =>
    rcases mem_cons.mp member with rfl | later
    · exact ⟨_, mem_cons_self, stems⟩
    · obtain ⟨origin, among, stems⟩ := ih later
      exact ⟨origin, mem_cons_of_mem _ among, stems⟩
  | cons_right _ ih =>
    obtain ⟨origin, among, stems⟩ := ih member
    exact ⟨origin, mem_cons_of_mem _ among, stems⟩

end Mqss.Conveyor
