import LoxValues.Proofs.Equivalence

/-!
# Comparing under assumptions

A comparison takes the pairs in progress for equal, so what it answers depends on them.  With other
pairs in progress it looks at other parts of the heap, and of two such comparisons neither repeats
the calls of the other.  What they have in common is seen from the answers: a comparison answers
whether the values are related by some bisimulation up to the pairs in progress, and every such
bisimulation is one up to more pairs as well (`Heap.IsBisimulationUpTo.mono`).  So a pair more in
progress may turn `false` into `true`, and never `true` into `false`
(`Heap.CyclesGuarded.assumptions_help`).
-/

set_option autoImplicit false
namespace LoxValues.Heap

variable {h : Heap}

/-- A bisimulation up to some pairs is one up to more of them. -/
theorem IsBisimulationUpTo.mono {pending more : Pending} {R : DescriptorRelation}
    (sub : ∀ x y, pending.Assumes x y → more.Assumes x y)
    (bisimulation : h.IsBisimulationUpTo pending R) : h.IsBisimulationUpTo more R := by
  intro x y related
  rcases bisimulation x y related with same | assumed | matching
  · exact .inl same
  · exact .inr (.inl (sub x y assumed))
  · exact .inr (.inr (matching.mono fun u v => Or.imp_right (Or.imp_left (sub u v))))

/-- Values are bisimilar up to some pairs if one bisimulation up to these relates all that they
consist of. -/
theorem related_bisimilarUpTo_iff {pending : Pending} {a b : Value} :
    a.Related (h.BisimilarUpTo pending) b ↔
      ∃ R, h.IsBisimulationUpTo pending R ∧ a.Related R b := by
  constructor
  · intro related
    exact ⟨_, bisimilarUpTo_isBisimulationUpTo pending, related⟩
  · rintro ⟨R, bisimulation, related⟩
    exact related.mono bisimulation.le

/-- **Assumptions only help.**  Where every cycle of references passes through an array or an object,
the comparison of any two values ends, whatever pairs are in progress.  The answer is whether there is
a relation that relates the values and is such that any two descriptors which it relates, if they are
different and not in progress, match, with parts that are related, in progress or the same.  If it is
`true`, it is `true` with more pairs in progress too. -/
theorem CyclesGuarded.assumptions_help (guarded : h.CyclesGuarded) (a b : Value)
    {pending more : Pending} (sub : ∀ x y, pending.Assumes x y → more.Assumes x y) :
    ∃ answer answer' : Bool,
      (∀ bound, h.depthBound ≤ bound →
        compareAll (h.compare bound) (a.goals b) pending = some (answer, pending) ∧
        compareAll (h.compare bound) (a.goals b) more = some (answer', more)) ∧
      (answer = true → answer' = true) ∧
      (answer = true ↔ ∃ R, h.IsBisimulationUpTo pending R ∧ a.Related R b) := by
  obtain ⟨answer, ended⟩ := guarded.exists_compareAll (Nat.le_refl _) (a.goals b) pending
  obtain ⟨answer', ended'⟩ := guarded.exists_compareAll (Nat.le_refl _) (a.goals b) more
  have iff := (related_iff_of_compareAll ended).trans related_bisimilarUpTo_iff
  have iff' := (related_iff_of_compareAll ended').trans related_bisimilarUpTo_iff
  refine ⟨answer, answer', fun bound enough => ⟨?_, ?_⟩, fun holds => ?_, iff⟩
  · rw [compareAll_of_depthBound_le enough, ended]
  · rw [compareAll_of_depthBound_le enough, ended']
  · obtain ⟨R, bisimulation, related⟩ := iff.mp holds
    exact iff'.mpr ⟨R, bisimulation.mono sub, related⟩

/-- Two arrays that each contain themselves and another array, which is of 1 and of 2. -/
def rungs : Heap :=
  { empty with
    arrays := [⟨2, [.array ⟨0⟩, .array ⟨2⟩]⟩, ⟨2, [.array ⟨1⟩, .array ⟨3⟩]⟩, ⟨1, [.int 1]⟩,
      ⟨1, [.int 2]⟩] }

/-- The two arrays differ, but not while the arrays of 1 and of 2 are being compared, nor while these
are being compared both ways round. -/
theorem rungs_assumed :
    rungs.equal? (.array ⟨0⟩) (.array ⟨1⟩) = some false ∧
    (∃ R, rungs.IsBisimulationUpTo [.arrays ⟨2⟩ ⟨3⟩] R ∧
      Value.Related R (.array ⟨0⟩) (.array ⟨1⟩)) ∧
    compareAll (rungs.compare rungs.depthBound) (Value.goals (.array ⟨0⟩) (.array ⟨1⟩))
        [.arrays ⟨3⟩ ⟨2⟩, .arrays ⟨2⟩ ⟨3⟩] =
      some (true, [.arrays ⟨3⟩ ⟨2⟩, .arrays ⟨2⟩ ⟨3⟩]) := by
  have sub : ∀ x y, Pending.Assumes [.arrays ⟨2⟩ ⟨3⟩] x y →
      Pending.Assumes [.arrays ⟨3⟩ ⟨2⟩, .arrays ⟨2⟩ ⟨3⟩] x y :=
    fun x y assumed => ⟨assumed.1, List.mem_cons_of_mem _ assumed.2⟩
  obtain ⟨answer, answer', ended, helps, iff⟩ :=
    CyclesGuarded.assumptions_help (cyclesGuarded_of_arrays rungs.arrays) (.array ⟨0⟩) (.array ⟨1⟩)
      sub
  have run : compareAll (rungs.compare rungs.depthBound) (Value.goals (.array ⟨0⟩) (.array ⟨1⟩))
      [.arrays ⟨2⟩ ⟨3⟩] = some (true, [.arrays ⟨2⟩ ⟨3⟩]) := by decide
  obtain ⟨first, second⟩ := ended rungs.depthBound (Nat.le_refl _)
  obtain rfl : answer = true := congrArg Prod.fst (Option.some.inj (first.symm.trans run))
  obtain rfl : answer' = true := helps rfl
  exact ⟨by decide, iff.mp rfl, second⟩

end LoxValues.Heap
