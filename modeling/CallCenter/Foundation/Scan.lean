import Mathlib.Data.List.Pairwise
import Mathlib.Logic.Relation
import Mathlib.Order.Lattice

/-!
# A pass that keeps an entry

A pass over entries in their order carries a bound: an entry that qualifies and improves on the
bound is kept, and its measure is the bound for the entries behind it.  The entries kept form a
chain, each the first behind the one before it that improves on its measure.  Where the pass
compares what it measures, the chain ends at the first of the greatest entries.
-/

namespace CallCenter.Foundation

open Relation (ReflTransGen)

/-- What a pass looks at in an entry. -/
structure Pass (Entry Bound : Type) where
  qualifies : Entry → Bool
  improves : Bound → Entry → Bool
  measure : Entry → Bound

namespace Pass

variable {Entry Bound : Type} (pass : Pass Entry Bound)

/-- The bound and the entry kept so far, after one more entry. -/
def keep (kept : Bound × Option Entry) (entry : Entry) : Bound × Option Entry :=
  if pass.qualifies entry && pass.improves kept.1 entry then (pass.measure entry, some entry) else kept

section Chain

variable (entries : List Entry) (before : Entry → Entry → Prop)

/-- The first entry of those behind that improves on the bound. -/
structure IsNext (behind : Entry → Prop) (bound : Bound) (entry : Entry) : Prop where
  member : entry ∈ entries
  isBehind : behind entry
  qualifies : pass.qualifies entry = true
  improves : pass.improves bound entry = true
  skipped : ∀ other ∈ entries, behind other → before other entry → pass.qualifies other = true →
    pass.improves bound other = false

/-- The entry next to be kept after `last`. -/
def Follows (last next : Entry) : Prop := pass.IsNext entries before (before last) (pass.measure last) next

/-- The chain of kept entries gets to the entry. -/
def Reaches (start : Bound) (entry : Entry) : Prop :=
  ∃ first, pass.IsNext entries before (fun _ => True) start first ∧
    ReflTransGen (pass.Follows entries before) first entry

/-- No entry behind improves on this one. -/
def Settles (entry : Entry) : Prop :=
  ∀ other ∈ entries, before entry other → pass.qualifies other = true →
    pass.improves (pass.measure entry) other = false

end Chain

variable {pass} {entries : List Entry} {before : Entry → Entry → Prop}

theorem total_of_pairwise (ordered : entries.Pairwise before) {first second : Entry} (one : first ∈ entries)
    (other : second ∈ entries) (differ : first ≠ second) : before first second ∨ before second first := by
  have symm : Std.Symm fun a b => before a b ∨ before b a := ⟨fun _ _ => Or.symm⟩
  have either : entries.Pairwise fun a b => before a b ∨ before b a := ordered.imp Or.inl
  exact either.forall one other differ

theorem IsNext.unique (ordered : entries.Pairwise before) {behind : Entry → Prop} {bound : Bound}
    {first second : Entry} (one : pass.IsNext entries before behind bound first)
    (other : pass.IsNext entries before behind bound second) : first = second := by
  by_contra differ
  rcases total_of_pairwise ordered one.member other.member differ with less | less
  · have skipped := other.skipped first one.member one.isBehind less one.qualifies
    exact absurd (skipped.symm.trans one.improves) (by decide)
  · have skipped := one.skipped second other.member other.isBehind less other.qualifies
    exact absurd (skipped.symm.trans other.improves) (by decide)

theorem Settles.not_follows {last next : Entry} (settles : pass.Settles entries before last) :
    ¬ pass.Follows entries before last next := by
  intro follows
  have worse := settles next follows.member follows.isBehind follows.qualifies
  exact absurd (worse.symm.trans follows.improves) (by decide)

theorem Reaches.member {start : Bound} {final : Entry} (reaches : pass.Reaches entries before start final) :
    final ∈ entries ∧ pass.qualifies final = true := by
  obtain ⟨first, isFirst, chain⟩ := reaches
  cases chain with
  | refl => exact ⟨isFirst.member, isFirst.qualifies⟩
  | tail _ follows => exact ⟨follows.member, follows.qualifies⟩

/-- The chain has one end. -/
theorem Reaches.unique (ordered : entries.Pairwise before) {start : Bound} {first second : Entry}
    (one : pass.Reaches entries before start first) (oneSettles : pass.Settles entries before first)
    (other : pass.Reaches entries before start second) (otherSettles : pass.Settles entries before second) :
    first = second := by
  obtain ⟨head, isHead, chain⟩ := one
  obtain ⟨head', isHead', chain'⟩ := other
  obtain rfl := isHead.unique ordered isHead'
  have unique : Relator.RightUnique (pass.Follows entries before) :=
    fun _ _ _ follows follows' => IsNext.unique ordered follows follows'
  rcases ReflTransGen.total_of_right_unique unique chain chain' with onward | onward
  · rcases onward.cases_head with same | ⟨_, follows, _⟩
    · exact same
    · exact absurd follows oneSettles.not_follows
  · rcases onward.cases_head with same | ⟨_, follows, _⟩
    · exact same.symm
    · exact absurd follows otherSettles.not_follows

section Ordered

variable (asymm : ∀ a b, before a b → ¬ before b a)
include asymm

/-- Nothing stands behind the entry a part of the pass ends with. -/
theorem settles_append_singleton {front back : List Entry} {entry : Entry}
    (ordered : (front ++ entry :: back).Pairwise before) : pass.Settles (front ++ [entry]) before entry := by
  obtain ⟨_, _, across⟩ := List.pairwise_append.mp ordered
  intro other inList behind
  rcases List.mem_append.mp inList with earlier | same
  · exact absurd behind (asymm _ _ (across other earlier entry (by simp)))
  · rw [List.mem_singleton.mp same] at behind
    exact absurd behind (asymm _ _ behind)

/-- An entry that improves on the bound is the next one where none before it does. -/
theorem isNext_of_append {front back : List Entry} {entry : Entry} {behind : Entry → Prop} {bound : Bound}
    (ordered : (front ++ entry :: back).Pairwise before) (isBehind : behind entry)
    (better : (pass.qualifies entry && pass.improves bound entry) = true)
    (worse : ∀ other ∈ front, behind other → pass.qualifies other = true → pass.improves bound other = false) :
    pass.IsNext (front ++ entry :: back) before behind bound entry := by
  obtain ⟨_, rest, _⟩ := List.pairwise_append.mp ordered
  obtain ⟨later, _⟩ := List.pairwise_cons.mp rest
  rw [Bool.and_eq_true] at better
  refine ⟨by simp, isBehind, better.1, better.2, ?_⟩
  intro other inList otherBehind less qualifies
  rw [List.mem_append, List.mem_cons] at inList
  rcases inList with earlier | rfl | behindEntry
  · exact worse other earlier otherBehind qualifies
  · exact absurd less (asymm _ _ less)
  · exact absurd less (asymm _ _ (later other behindEntry))

/-- From an entry on, the rest of the pass goes along the chain to its end. -/
theorem foldl_keep_from {front back : List Entry} {last : Entry} (ordered : (front ++ back).Pairwise before)
    (member : last ∈ front) (settled : pass.Settles front before last) :
    ∃ final, ReflTransGen (pass.Follows (front ++ back) before) last final ∧
      pass.Settles (front ++ back) before final ∧
      back.foldl pass.keep (pass.measure last, some last) = (pass.measure final, some final) := by
  -- the part already passed grows by one entry at a time
  induction back generalizing front last with
  | nil => exact ⟨last, .refl, by rwa [List.append_nil], rfl⟩
  | cons entry back inductionHypothesis =>
    have regroup : front ++ entry :: back = (front ++ [entry]) ++ back := by simp
    have isBehind : before last entry := (List.pairwise_append.mp ordered).2.2 last member entry (by simp)
    have nowSettled : pass.Settles (front ++ [entry]) before entry := settles_append_singleton asymm ordered
    rw [List.foldl_cons, keep]
    split
    · rename_i better
      have follows : pass.Follows (front ++ entry :: back) before last entry :=
        isNext_of_append asymm ordered isBehind better settled
      rw [regroup] at ordered follows ⊢
      obtain ⟨final, chain, settles, result⟩ := inductionHypothesis ordered (by simp) nowSettled
      exact ⟨final, .head follows chain, settles, result⟩
    · rename_i worse
      rw [regroup] at ordered ⊢
      refine inductionHypothesis ordered (List.mem_append_left _ member) ?_
      intro other inList behind qualifies
      rcases List.mem_append.mp inList with earlier | same
      · exact settled other earlier behind qualifies
      · rw [List.mem_singleton.mp same] at qualifies ⊢
        simpa [qualifies] using worse

/-- The pass ends with the end of the chain, or keeps nothing because nothing improves on the start. -/
theorem foldl_keep (ordered : entries.Pairwise before) (start : Bound) :
    (entries.foldl pass.keep (start, none) = (start, none) ∧
        ∀ other ∈ entries, pass.qualifies other = true → pass.improves start other = false) ∨
      ∃ final, pass.Reaches entries before start final ∧ pass.Settles entries before final ∧
        entries.foldl pass.keep (start, none) = (pass.measure final, some final) := by
  -- as long as nothing is kept, nothing passed so far improves on the start
  suffices general : ∀ front back, front ++ back = entries →
      (∀ other ∈ front, pass.qualifies other = true → pass.improves start other = false) →
      (back.foldl pass.keep (start, none) = (start, none) ∧
          ∀ other ∈ entries, pass.qualifies other = true → pass.improves start other = false) ∨
        ∃ final, pass.Reaches entries before start final ∧ pass.Settles entries before final ∧
          back.foldl pass.keep (start, none) = (pass.measure final, some final) from
    general [] entries rfl (by simp)
  intro front back
  induction back generalizing front with
  | nil =>
    rintro rfl worse
    exact .inl ⟨rfl, by rwa [List.append_nil]⟩
  | cons entry back inductionHypothesis =>
    rintro rfl worse
    have regroup : front ++ entry :: back = (front ++ [entry]) ++ back := by simp
    rw [List.foldl_cons, keep]
    split
    · rename_i better
      right
      have isFirst : pass.IsNext (front ++ entry :: back) before (fun _ => True) start entry :=
        isNext_of_append asymm ordered trivial better fun other earlier _ => worse other earlier
      have settled : pass.Settles (front ++ [entry]) before entry := settles_append_singleton asymm ordered
      obtain ⟨final, chain, settles, result⟩ :=
        foldl_keep_from asymm (regroup ▸ ordered) (by simp) settled
      rw [← regroup] at chain settles
      exact ⟨final, ⟨entry, isFirst, chain⟩, settles, result⟩
    · rename_i notBetter
      refine inductionHypothesis (front ++ [entry]) regroup.symm ?_
      intro other inList qualifies
      rcases List.mem_append.mp inList with earlier | same
      · exact worse other earlier qualifies
      · rw [List.mem_singleton.mp same] at qualifies ⊢
        simpa [qualifies] using notBetter

end Ordered

/-! ## Comparing what is measured -/

section Greatest

variable [LinearOrder Bound]

/-- Along the chain the entries before it all measure less. -/
theorem Reaches.less (ordered : entries.Pairwise before)
    (compares : ∀ bound entry, pass.improves bound entry = true ↔ bound < pass.measure entry) {start : Bound}
    {final : Entry} (reaches : pass.Reaches entries before start final) :
    final ∈ entries ∧ pass.qualifies final = true ∧ start < pass.measure final ∧
      ∀ other ∈ entries, before other final → pass.qualifies other = true →
        pass.measure other < pass.measure final := by
  have notLess : ∀ {bound entry}, pass.improves bound entry = false → pass.measure entry ≤ bound := by
    intro bound entry worse
    rw [← not_lt, ← compares, worse]
    decide
  obtain ⟨first, isFirst, chain⟩ := reaches
  induction chain with
  | refl =>
    refine ⟨isFirst.member, isFirst.qualifies, (compares _ _).mp isFirst.improves, ?_⟩
    intro other member less qualifies
    have worse := notLess (isFirst.skipped other member trivial less qualifies)
    exact lt_of_le_of_lt worse ((compares _ _).mp isFirst.improves)
  | @tail last next _ follows inductionHypothesis =>
    obtain ⟨lastMember, _, above, earlier⟩ := inductionHypothesis
    have rises := (compares _ _).mp follows.improves
    refine ⟨follows.member, follows.qualifies, above.trans rises, ?_⟩
    intro other member less qualifies
    by_cases same : other = last
    · rwa [same]
    · rcases total_of_pairwise ordered member lastMember same with beforeLast | behindLast
      · exact (earlier other member beforeLast qualifies).trans rises
      · exact lt_of_le_of_lt (notLess (follows.skipped other member behindLast less qualifies)) rises

/-- The end of the chain is the first of the greatest entries. -/
theorem Reaches.greatest (ordered : entries.Pairwise before)
    (compares : ∀ bound entry, pass.improves bound entry = true ↔ bound < pass.measure entry) {start : Bound}
    {final : Entry} (reaches : pass.Reaches entries before start final)
    (settles : pass.Settles entries before final)
    {other : Entry} (member : other ∈ entries) (qualifies : pass.qualifies other = true) :
    pass.measure other ≤ pass.measure final ∧
      (pass.measure other = pass.measure final → other = final ∨ before final other) := by
  obtain ⟨isMember, _, _, less⟩ := reaches.less ordered compares
  by_cases same : other = final
  · exact ⟨by rw [same], fun _ => .inl same⟩
  · rcases total_of_pairwise ordered member isMember same with earlier | behind
    · have below := less other member earlier qualifies
      exact ⟨below.le, fun equal => absurd equal below.ne⟩
    · have worse := settles other member behind qualifies
      refine ⟨?_, fun _ => .inr behind⟩
      rw [← not_lt, ← compares, worse]
      decide

end Greatest

end Pass

end CallCenter.Foundation
