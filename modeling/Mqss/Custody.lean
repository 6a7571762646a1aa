import Mathlib.Data.List.Perm.Basic
import Mathlib.Data.List.Nodup
import Mathlib.Logic.Function.Basic

/-!
Custody of tokens: places hold lists of distinct tokens, and a ledger names the
one place that holds a token, if any. Accepting, discarding and transferring
tokens keep a ledger that agrees with the places.
-/

namespace Mqss.Custody
universe u v

variable {Place : Type u} {Token : Type v} [DecidableEq Place] [DecidableEq Token]

/-- The ledger agrees with what the places hold. -/
structure Located (holds : Place → List Token) (owner : Token → Option Place) : Prop where
  distinct : ∀ place, (holds place).Nodup
  located : ∀ place token, token ∈ holds place ↔ owner token = some place

variable {holds : Place → List Token} {owner : Token → Option Place}

omit [DecidableEq Place] [DecidableEq Token] in
/-- No token is in two places. -/
theorem Located.unique (agrees : Located holds owner) {token : Token} {place other : Place}
    (here : token ∈ holds place) (there : token ∈ holds other) : place = other := by
  have first := (agrees.located place token).mp here
  have second := (agrees.located other token).mp there
  exact Option.some.inj (first.symm.trans second)

omit [DecidableEq Token] in
/-- The order within a place does not matter. -/
theorem Located.reorder (agrees : Located holds owner) {place : Place} {now : List Token}
    (order : now.Perm (holds place)) : Located (Function.update holds place now) owner := by
  constructor
  · intro other
    by_cases same : other = place
    · subst same
      simpa using order.nodup_iff.mpr (agrees.distinct other)
    · simpa [same] using agrees.distinct other
  · intro other token
    by_cases same : other = place
    · subst same
      rw [Function.update_self, order.mem_iff]
      exact agrees.located other token
    · rw [Function.update_of_ne same]
      exact agrees.located other token

/-- A token that is nowhere is accepted at a place. -/
theorem Located.accept (agrees : Located holds owner) {place : Place} {token : Token} (new : owner token = none)
    {now : List Token} (order : now.Perm (token :: holds place)) :
    Located (Function.update holds place now) (Function.update owner token (some place)) := by
  have nowhere : ∀ other, token ∉ holds other := by
    intro other member
    have owned := (agrees.located other token).mp member
    rw [new] at owned
    cases owned
  constructor
  · intro other
    by_cases same : other = place
    · subst same
      rw [Function.update_self, order.nodup_iff, List.nodup_cons]
      exact ⟨nowhere other, agrees.distinct other⟩
    · simpa [same] using agrees.distinct other
  · intro other t
    by_cases same : other = place
    · subst same
      rw [Function.update_self, order.mem_iff, List.mem_cons]
      by_cases isNew : t = token
      · simp [isNew]
      · simpa [isNew] using agrees.located other t
    · rw [Function.update_of_ne same]
      by_cases isNew : t = token
      · subst isNew
        simpa [nowhere other] using Ne.symm same
      · simpa [isNew] using agrees.located other t

/-- Some of the tokens of a place are discarded. -/
theorem Located.discard (agrees : Located holds owner) {place : Place} {gone kept : List Token}
    (order : (holds place).Perm (gone ++ kept)) :
    Located (Function.update holds place kept) (fun token => if token ∈ gone then none else owner token) := by
  have split := order.nodup_iff.mp (agrees.distinct place)
  have apart := List.nodup_append.mp split
  constructor
  · intro other
    by_cases same : other = place
    · subst same
      simpa using apart.2.1
    · simpa [same] using agrees.distinct other
  · intro other token
    by_cases same : other = place
    · subst same
      rw [Function.update_self]
      by_cases lost : token ∈ gone
      · simp only [lost, ↓reduceIte, reduceCtorEq, iff_false]
        intro member
        exact apart.2.2 token lost token member rfl
      · rw [if_neg lost, ← agrees.located other token, order.mem_iff, List.mem_append]
        simp [lost]
    · rw [Function.update_of_ne same, agrees.located other token]
      by_cases lost : token ∈ gone
      · have home := (agrees.located place token).mp (order.mem_iff.mpr (List.mem_append_left _ lost))
        simp [lost, home, Ne.symm same]
      · simp [lost]

/-- Some of the tokens of a place move to another place. -/
theorem Located.transfer (agrees : Located holds owner) {source target : Place} (different : source ≠ target)
    {moved kept now : List Token} (out : (holds source).Perm (moved ++ kept))
    (into : now.Perm (moved ++ holds target)) :
    Located (Function.update (Function.update holds source kept) target now)
      (fun token => if token ∈ moved then some target else owner token) := by
  have apart := List.nodup_append.mp (out.nodup_iff.mp (agrees.distinct source))
  have home : ∀ token ∈ moved, owner token = some source := fun token member =>
    (agrees.located source token).mp (out.mem_iff.mpr (List.mem_append_left _ member))
  constructor
  · intro other
    by_cases atTarget : other = target
    · subst atTarget
      rw [Function.update_self, into.nodup_iff, List.nodup_append]
      refine ⟨apart.1, agrees.distinct other, ?_⟩
      rintro token member _ there rfl
      have owned := (agrees.located other token).mp there
      rw [home token member] at owned
      exact different (Option.some.inj owned)
    · rw [Function.update_of_ne atTarget]
      by_cases atSource : other = source
      · subst atSource
        simpa using apart.2.1
      · simpa [atSource] using agrees.distinct other
  · intro other token
    by_cases moves : token ∈ moved
    · simp only [moves, ↓reduceIte, Option.some.injEq]
      by_cases atTarget : other = target
      · subst atTarget
        rw [Function.update_self, into.mem_iff]
        simp [moves]
      · rw [Function.update_of_ne atTarget]
        refine iff_of_false ?_ (Ne.symm atTarget)
        by_cases atSource : other = source
        · subst atSource
          rw [Function.update_self]
          intro member
          exact apart.2.2 token moves token member rfl
        · rw [Function.update_of_ne atSource, agrees.located other token, home token moves]
          intro owned
          exact atSource (Option.some.inj owned).symm
    · rw [if_neg moves, ← agrees.located other token]
      by_cases atTarget : other = target
      · subst atTarget
        rw [Function.update_self, into.mem_iff, List.mem_append]
        simp [moves]
      · rw [Function.update_of_ne atTarget]
        by_cases atSource : other = source
        · subst atSource
          rw [Function.update_self, out.mem_iff, List.mem_append]
          simp [moves]
        · rw [Function.update_of_ne atSource]

/-- The places hold exactly the accepted tokens that are not lost, each in one place. -/
structure Census (holds : Place → List Token) (accepted lost : List Token) : Prop where
  ledger : ∃ owner, Located holds owner ∧ ∀ token, (owner token).isSome ↔ token ∈ accepted ∧ token ∉ lost
  known : lost ⊆ accepted

variable {accepted lost : List Token}

omit [DecidableEq Place] [DecidableEq Token] in
theorem Census.unique (census : Census holds accepted lost) {token : Token} {place other : Place}
    (here : token ∈ holds place) (there : token ∈ holds other) : place = other := by
  obtain ⟨owner, agrees, _⟩ := census.ledger
  exact agrees.unique here there

omit [DecidableEq Place] [DecidableEq Token] in
theorem Census.distinct (census : Census holds accepted lost) (place : Place) : (holds place).Nodup := by
  obtain ⟨owner, agrees, _⟩ := census.ledger
  exact agrees.distinct place

omit [DecidableEq Place] [DecidableEq Token] in
/-- A token is somewhere exactly when it was accepted and is not lost. -/
theorem Census.somewhere (census : Census holds accepted lost) (token : Token) :
    (∃ place, token ∈ holds place) ↔ token ∈ accepted ∧ token ∉ lost := by
  obtain ⟨owner, agrees, counted⟩ := census.ledger
  rw [← counted token, Option.isSome_iff_exists]
  exact exists_congr fun place => agrees.located place token

omit [DecidableEq Place] [DecidableEq Token] in
theorem Census.empty : Census (fun _ : Place => ([] : List Token)) [] [] :=
  ⟨⟨fun _ => none, ⟨fun _ => List.nodup_nil, by simp⟩, by simp⟩, by simp⟩

omit [DecidableEq Token] in
theorem Census.reorder (census : Census holds accepted lost) {place : Place} {now : List Token}
    (order : now.Perm (holds place)) : Census (Function.update holds place now) accepted lost := by
  obtain ⟨⟨owner, agrees, counted⟩, known⟩ := census
  exact ⟨⟨owner, agrees.reorder order, counted⟩, known⟩

theorem Census.accept (census : Census holds accepted lost) {place : Place} {token : Token}
    (new : token ∉ accepted) {now : List Token} (order : now.Perm (token :: holds place)) :
    Census (Function.update holds place now) (accepted ++ [token]) lost := by
  obtain ⟨⟨owner, agrees, counted⟩, known⟩ := census
  have unowned : owner token = none := by
    rw [← Option.not_isSome_iff_eq_none, counted token]
    intro accepted
    exact new accepted.1
  refine ⟨⟨_, agrees.accept unowned order, fun other => ?_⟩, fun other gone => ?_⟩
  · by_cases same : other = token
    · subst same
      have kept : other ∉ lost := fun gone => new (known gone)
      simp [kept]
    · simp [same, counted other]
  · exact List.mem_append_left _ (known gone)

theorem Census.discard (census : Census holds accepted lost) {place : Place} {gone kept : List Token}
    (order : (holds place).Perm (gone ++ kept)) :
    Census (Function.update holds place kept) accepted (lost ++ gone) := by
  have members : gone ⊆ accepted := fun token member =>
    ((census.somewhere token).mp ⟨place, order.mem_iff.mpr (List.mem_append_left _ member)⟩).1
  obtain ⟨⟨owner, agrees, counted⟩, known⟩ := census
  refine ⟨⟨_, agrees.discard order, fun token => ?_⟩, List.append_subset.mpr ⟨known, members⟩⟩
  by_cases lostNow : token ∈ gone
  · simp [lostNow]
  · simp [lostNow, counted token]

theorem Census.transfer (census : Census holds accepted lost) {source target : Place} (different : source ≠ target)
    {moved kept now : List Token} (out : (holds source).Perm (moved ++ kept))
    (into : now.Perm (moved ++ holds target)) :
    Census (Function.update (Function.update holds source kept) target now) accepted lost := by
  obtain ⟨⟨owner, agrees, counted⟩, known⟩ := census
  refine ⟨⟨_, agrees.transfer different out into, fun token => ?_⟩, known⟩
  by_cases moves : token ∈ moved
  · have home := (agrees.located source token).mp (out.mem_iff.mpr (List.mem_append_left _ moves))
    simp [moves, ← counted token, home]
  · simp [moves, counted token]

end Mqss.Custody
