import LoxValues.Proofs.Comparison
import LoxValues.Proofs.References
import Mathlib.Data.Finset.Option
import Mathlib.Data.Finset.Prod
import Mathlib.Data.Fintype.Pigeonhole

/-!
# How deep comparisons nest

A comparison that does not come to an end under a bound has a chain of pairs below it, each waiting
for the next, which is as long as the bound (`Heap.Stuck.exists_descent`).  Along the chain no pair of
arrays or of objects comes twice, since the second would be settled.  So a chain longer than
`Heap.depthBound` has a pair of functions or of classes twice with the same pairs in progress, and
only such pairs in between (`Heap.Descent.exists_repeat`).  This has two consequences.

* The second pair waits for a third, and so on: the comparison does not come to an end under any
  bound (`Heap.Stuck.of_depthBound`).  So the bound that `Heap.equal?` works with is as good as
  none.
* The pair lies on a cycle of references among functions and classes.  In a heap that has no such
  cycle every comparison ends (`Heap.CyclesGuarded.exists_compareAll`).
-/

set_option autoImplicit false
namespace LoxValues

open Heap (Pending)

/-- What a comparison is asked at some moment: a goal, and the pairs in progress. -/
abbrev Query := Goal × Pending

namespace Heap

variable {h : Heap}

/-! ## The pairs of a heap -/

/-- The pairs of records of one kind, when there are so many of them. -/
def pairsBelow (n : Nat) (goal : Nat → Nat → Goal) : Finset Goal :=
  (Finset.range n ×ˢ Finset.range n).image fun p => goal p.1 p.2

theorem mem_pairsBelow {n i j : Nat} (goal : Nat → Nat → Goal) (hi : i < n) (hj : j < n) :
    goal i j ∈ pairsBelow n goal :=
  Finset.mem_image.mpr ⟨(i, j), by simp [hi, hj], rfl⟩

theorem card_pairsBelow_le (n : Nat) (goal : Nat → Nat → Goal) :
    (pairsBelow n goal).card ≤ n * n := by
  refine Finset.card_image_le.trans ?_
  simp

/-- The pairs that are remembered while they are compared. -/
def guardedPairs (h : Heap) : Finset Goal :=
  pairsBelow h.arrays.length (fun i j => .arrays ⟨i⟩ ⟨j⟩) ∪
    pairsBelow h.objects.length (fun i j => .objects ⟨i⟩ ⟨j⟩)

/-- The other pairs that have pairs among their parts. -/
def unguardedPairs (h : Heap) : Finset Goal :=
  pairsBelow h.functions.length (fun i j => .functions ⟨i⟩ ⟨j⟩) ∪
    pairsBelow h.classes.length (fun i j => .classes ⟨i⟩ ⟨j⟩)

theorem card_guardedPairs_le (h : Heap) :
    h.guardedPairs.card ≤ h.arrays.length * h.arrays.length + h.objects.length * h.objects.length :=
  (Finset.card_union_le _ _).trans (Nat.add_le_add (card_pairsBelow_le _ _) (card_pairsBelow_le _ _))

theorem card_unguardedPairs_le (h : Heap) :
    h.unguardedPairs.card ≤
      h.functions.length * h.functions.length + h.classes.length * h.classes.length :=
  (Finset.card_union_le _ _).trans (Nat.add_le_add (card_pairsBelow_le _ _) (card_pairsBelow_le _ _))

theorem both_read_of_part {α : Type} {recordGoals : α → α → List Goal} {r s : Option α} {part : Goal}
    (mem : part ∈ partsOf recordGoals r s) (pair : part.IsPair) : r.isSome ∧ s.isSome := by
  revert mem
  fun_cases partsOf recordGoals r s with
  | case1 x y => simp
  | case2 =>
    intro mem
    obtain rfl : part = .check false := by simpa using mem
    exact pair.elim

/-- A pair that has a pair among its parts is a pair of records of the heap, and not of traits. -/
theorem mem_pairs_of_part {goal part : Goal} (mem : part ∈ h.parts goal) (pair : part.IsPair) :
    goal ∈ if goal.isGuarded then h.guardedPairs else h.unguardedPairs := by
  cases goal with
  | check holds =>
    obtain rfl : part = .check holds := by simpa [parts] using mem
    exact pair.elim
  | functions f g =>
    obtain ⟨hf, hg⟩ := both_read_of_part mem pair
    refine Finset.mem_union_left _ (mem_pairsBelow (fun i j => .functions ⟨i⟩ ⟨j⟩) ?_ ?_)
    · simpa [function?] using hf
    · simpa [function?] using hg
  | classes c d =>
    obtain ⟨hc, hd⟩ := both_read_of_part mem pair
    refine Finset.mem_union_right _ (mem_pairsBelow (fun i j => .classes ⟨i⟩ ⟨j⟩) ?_ ?_)
    · simpa [class?] using hc
    · simpa [class?] using hd
  | objects o p =>
    obtain ⟨ho, hp⟩ := both_read_of_part mem pair
    refine Finset.mem_union_right _ (mem_pairsBelow (fun i j => .objects ⟨i⟩ ⟨j⟩) ?_ ?_)
    · simpa [object?] using ho
    · simpa [object?] using hp
  | traits s t =>
    revert mem
    rw [parts]
    fun_cases partsOf _ (h.trait? s) (h.trait? t) <;> intro mem
    all_goals
      rw [List.mem_singleton] at mem
      subst mem
      exact pair.elim
  | arrays a b =>
    obtain ⟨ha, hb⟩ := both_read_of_part mem pair
    refine Finset.mem_union_left _ (mem_pairsBelow (fun i j => .arrays ⟨i⟩ ⟨j⟩) ?_ ?_)
    · simpa [array?] using ha
    · simpa [array?] using hb

/-! ## Waiting for a part -/

/-- A query does not come to an end with `bound` levels left. -/
def Stuck (h : Heap) (bound : Nat) (q : Query) : Prop := h.compare bound q.1 q.2 = none

theorem Stuck.mono {bound more : Nat} (le : bound ≤ more) {q : Query} (stuck : h.Stuck more q) :
    h.Stuck bound q := by
  rw [Stuck, Option.eq_none_iff_forall_ne_some] at *
  exact fun r ended => stuck r (compare_mono le ended)

theorem Stuck.isPair {bound : Nat} {q : Query} (stuck : h.Stuck bound q) : q.1.IsPair := by
  obtain ⟨goal, pending⟩ := q
  rcases goal.check_or_pair with ⟨holds, rfl⟩ | pair
  · rw [Stuck, compare_check] at stuck
    cases stuck
  · exact pair

/-- With `bound` levels left for its parts, the query `q` does not come to an end because its part
`r` does not, and the same is so for every greater bound. -/
structure Awaits (h : Heap) (bound : Nat) (q r : Query) : Prop where
  /-- The pair is not settled. -/
  unsettled : ¬ q.1.Settled q.2
  /-- What it waits for is one of its parts. -/
  part : r.1 ∈ h.parts q.1
  /-- The part is checked with the pair in progress. -/
  pending : r.2 = q.1.enter q.2
  /-- The part does not come to an end. -/
  stuck : h.Stuck bound r
  /-- As long as the part does not come to an end, the pair does not. -/
  blocks : ∀ more, bound ≤ more → h.Stuck more r → h.Stuck (more + 1) q

/-- Of goals that do not come to an end, one does not and blocks the others.  Those in front of it
hold, and still hold under a greater bound. -/
theorem exists_stuck_of_compareAll {bound : Nat} {goals : List Goal} {pending : Pending}
    (stuck : compareAll (h.compare bound) goals pending = none) :
    ∃ goal ∈ goals, h.Stuck bound (goal, pending) ∧ ∀ more, bound ≤ more →
      h.Stuck more (goal, pending) → compareAll (h.compare more) goals pending = none := by
  induction goals with
  | nil => cases stuck
  | cons goal goals ih =>
    rw [compareAll] at stuck
    split at stuck
    · next first =>
      refine ⟨goal, List.mem_cons_self, first, fun more _ still => ?_⟩
      rw [compareAll, show h.compare more goal pending = none from still]
    · cases stuck
    · next left first =>
      obtain rfl : left = pending := compare_restores bound first
      obtain ⟨part, mem, partStuck, blocks⟩ := ih stuck
      refine ⟨part, List.mem_cons_of_mem _ mem, partStuck, fun more le still => ?_⟩
      rw [compareAll, compare_mono le first]
      exact blocks more le still

theorem Stuck.exists_awaits {bound : Nat} {q : Query} (stuck : h.Stuck (bound + 1) q) :
    ∃ r, h.Awaits bound q r := by
  obtain ⟨goal, pending⟩ := q
  have pair : goal.IsPair := stuck.isPair
  have unsettled : ¬ goal.Settled pending := by
    intro settled
    rw [Stuck, compare_of_settled pair settled] at stuck
    cases stuck
  rw [Stuck, compare_of_unsettled pair unsettled, Option.map_eq_none_iff] at stuck
  obtain ⟨part, mem, partStuck, blocks⟩ := exists_stuck_of_compareAll stuck
  refine ⟨(part, goal.enter pending), unsettled, mem, rfl, partStuck, fun more le still => ?_⟩
  rw [Stuck, compare_of_unsettled pair unsettled, blocks more le still, Option.map_none]

/-! ## Descents -/

/-- A chain of queries, each waiting for the next. -/
def Descent (h : Heap) (bound : Nat) (chain : Nat → Query) : Prop :=
  ∀ i < bound, h.Awaits (bound - (i + 1)) (chain i) (chain (i + 1))

/-- **A query that does not come to an end has a chain below it as long as the bound.** -/
theorem Stuck.exists_descent {bound : Nat} {q : Query} (stuck : h.Stuck bound q) :
    ∃ chain, chain 0 = q ∧ h.Descent bound chain := by
  induction bound generalizing q with
  | zero => exact ⟨fun _ => q, rfl, fun i hi => by omega⟩
  | succ bound ih =>
    obtain ⟨r, first⟩ := stuck.exists_awaits
    obtain ⟨chain, start, rest⟩ := ih first.stuck
    refine ⟨fun i => if i = 0 then q else chain (i - 1), rfl, fun i hi => ?_⟩
    rcases Nat.eq_zero_or_pos i with rfl | pos
    · simpa [start] using first
    · obtain ⟨i, rfl⟩ := Nat.exists_eq_add_one.mpr pos
      simpa using rest i (by omega)

namespace Descent

variable {bound : Nat} {chain : Nat → Query}

theorem stuck (d : h.Descent bound chain) (start : h.Stuck bound (chain 0)) {i : Nat}
    (hi : i ≤ bound) : h.Stuck (bound - i) (chain i) := by
  cases i with
  | zero => exact start
  | succ i => exact (d i (by omega)).stuck

/-- A query further down blocks one further up. -/
theorem blocks (d : h.Descent bound chain) {i k more : Nat} (hk : i + k ≤ bound)
    (le : bound - (i + k) ≤ more) (still : h.Stuck more (chain (i + k))) :
    h.Stuck (more + k) (chain i) := by
  induction k generalizing more with
  | zero => exact still
  | succ k ih =>
    have step := (d (i + k) (by omega)).blocks more (by omega) still
    rw [show more + (k + 1) = (more + 1) + k by omega]
    exact ih (by omega) (by omega) step

/-- What comes into progress on the way down is new each time, and a pair of the heap. -/
theorem exists_pending (d : h.Descent bound chain) {i : Nat} (hi : i < bound) :
    ∃ entered : Pending, (chain i).2 = entered ++ (chain 0).2 ∧ entered.Nodup ∧
      ∀ goal ∈ entered, goal ∈ h.guardedPairs := by
  induction i with
  | zero => exact ⟨[], rfl, List.nodup_nil, by simp⟩
  | succ i ih =>
    obtain ⟨entered, pending, nodup, sub⟩ := ih (by omega)
    have step := d i (by omega)
    rw [step.pending, Goal.enter]
    split
    · next guarded =>
      have new : (chain i).1 ∉ (chain i).2 := fun mem => step.unsettled (.inr ⟨guarded, mem⟩)
      refine ⟨(chain i).1 :: entered, by rw [pending, List.cons_append], ?_, ?_⟩
      · refine List.nodup_cons.mpr ⟨fun mem => new ?_, nodup⟩
        rw [pending]
        exact List.mem_append_left _ mem
      · refine List.forall_mem_cons.mpr ⟨?_, sub⟩
        simpa [guarded] using mem_pairs_of_part step.part step.stuck.isPair
    · exact ⟨entered, pending, nodup, sub⟩

theorem suffix (d : h.Descent bound chain) {i k : Nat} (hk : i + k ≤ bound) :
    (chain i).2 <:+ (chain (i + k)).2 := by
  induction k with
  | zero => exact List.suffix_refl _
  | succ k ih =>
    refine (ih (by omega)).trans ?_
    rw [← Nat.add_assoc, (d (i + k) (by omega)).pending]
    exact (chain (i + k)).1.suffix_enter _

theorem length_lt (d : h.Descent bound chain) {i j : Nat} (hij : i < j) (hj : j ≤ bound)
    (guarded : (chain i).1.isGuarded = true) : (chain i).2.length < (chain j).2.length := by
  obtain ⟨k, rfl⟩ := Nat.exists_eq_add_of_lt hij
  have later := (d.suffix (i := i + 1) (k := k) (by omega)).length_le
  rw [(d i (by omega)).pending, Goal.enter, if_pos guarded, List.length_cons] at later
  rw [show i + k + 1 = i + 1 + k by omega]
  omega

/-- What tells the queries of a descent apart: how many pairs have come into progress, and the goal
unless it is one of those that do. -/
def key (chain : Nat → Query) (i : Nat) : Nat × Option Goal :=
  ((chain i).2.length - (chain 0).2.length,
    if (chain i).1.isGuarded then none else some (chain i).1)

theorem key_mem (d : h.Descent bound chain) {i : Nat} (hi : i < bound) :
    key chain i ∈ Finset.range (h.guardedPairs.card + 1) ×ˢ h.unguardedPairs.insertNone := by
  obtain ⟨entered, pending, nodup, sub⟩ := d.exists_pending hi
  have few : entered.length ≤ h.guardedPairs.card := by
    rw [← List.toFinset_card_of_nodup nodup]
    exact Finset.card_le_card fun goal mem => sub goal (List.mem_toFinset.mp mem)
  have member := mem_pairs_of_part (d i hi).part (d i hi).stuck.isPair
  rw [Finset.mem_product, key, pending]
  refine ⟨by simpa using Nat.lt_succ_of_le few, ?_⟩
  split
  · exact Finset.none_mem_insertNone
  · next unguarded => simpa [unguarded] using member

theorem card_keys_lt (h : Heap) :
    (Finset.range (h.guardedPairs.card + 1) ×ˢ h.unguardedPairs.insertNone).card < h.depthBound := by
  rw [Finset.card_product, Finset.card_range, Finset.card_insertNone, depthBound]
  exact Nat.lt_succ_of_le (Nat.mul_le_mul (Nat.succ_le_succ h.card_guardedPairs_le)
    (Nat.succ_le_succ h.card_unguardedPairs_le))

/-- **A long descent repeats a query**, and on the way from the one to the other nothing comes into
progress. -/
theorem exists_repeat (d : h.Descent bound chain) (long : h.depthBound ≤ bound) :
    ∃ i j, i < j ∧ j < bound ∧ chain i = chain j ∧
      ∀ k, i ≤ k → k < j → (chain k).1.isGuarded = false := by
  obtain ⟨i, hi, j, hj, ne, same⟩ := Finset.exists_ne_map_eq_of_card_lt_of_maps_to
    (s := Finset.range bound) (f := key chain)
    (by rw [Finset.card_range]; exact (card_keys_lt h).trans_le long)
    (fun i hi => d.key_mem (Finset.mem_range.mp hi))
  wlog hij : i < j generalizing i j
  · exact this j hj i hi ne.symm same.symm (by omega)
  rw [Finset.mem_range] at hi hj
  obtain ⟨k, rfl⟩ := Nat.exists_eq_add_of_lt hij
  have suffix := d.suffix (i := i) (k := k + 1) (by omega)
  rw [← Nat.add_assoc] at suffix
  have above := (d.suffix (i := 0) (k := i) (by omega)).length_le
  rw [Nat.zero_add] at above
  have length : (chain i).2.length = (chain (i + k + 1)).2.length := by
    have := congrArg Prod.fst same
    have := suffix.length_le
    simp only [key] at *
    omega
  have pending : (chain i).2 = (chain (i + k + 1)).2 := suffix.eq_of_length length
  have unguarded : ∀ l, i ≤ l → l < i + k + 1 → (chain l).1.isGuarded = false := by
    intro l hil hl
    by_contra guarded
    have := d.length_lt hl (by omega) (by simpa using guarded)
    have := (d.suffix (i := i) (k := l - i) (by omega)).length_le
    rw [show i + (l - i) = l by omega] at this
    omega
  refine ⟨i, i + k + 1, hij, hj, Prod.ext ?_ pending, unguarded⟩
  have goal : some (chain i).1 =
      if (chain (i + k + 1)).1.isGuarded then none else some (chain (i + k + 1)).1 := by
    simpa [key, unguarded i (Nat.le_refl i) hij] using congrArg Prod.snd same
  split at goal
  · cases goal
  · exact Option.some.inj goal

end Descent

/-! ## The bound is no restriction -/

/-- A query that waits for itself does not come to an end under any bound. -/
theorem Descent.stuck_of_repeat {bound : Nat} {chain : Nat → Query} (d : h.Descent bound chain)
    (start : h.Stuck bound (chain 0)) {i k : Nat} (hk : i + (k + 1) ≤ bound)
    (same : chain i = chain (i + (k + 1))) (more : Nat) : h.Stuck more (chain i) := by
  induction more using Nat.strong_induction_on with
  | _ more ih =>
    rcases Nat.le_total more (bound - i) with le | ge
    · exact (d.stuck start (by omega)).mono le
    · have below : h.Stuck (more - (k + 1)) (chain (i + (k + 1))) := same ▸ ih _ (by omega)
      have blocked := d.blocks hk (by omega) below
      rwa [Nat.sub_add_cancel (by omega)] at blocked

/-- **A query that does not come to an end within `Heap.depthBound` never does.** -/
theorem Stuck.of_depthBound {q : Query} (stuck : h.Stuck h.depthBound q) (bound : Nat) :
    h.Stuck bound q := by
  obtain ⟨chain, rfl, d⟩ := stuck.exists_descent
  obtain ⟨i, j, hij, hj, same, -⟩ := d.exists_repeat (Nat.le_refl _)
  obtain ⟨k, rfl⟩ := Nat.exists_eq_add_of_lt hij
  have forever := d.stuck_of_repeat stuck (i := i) (k := k) (by omega) same
  have still : h.Stuck (bound + h.depthBound) (chain (0 + i)) := by
    rw [Nat.zero_add]
    exact forever _
  exact (d.blocks (by omega) (by omega) still).mono (by omega)

/-- Goals that come to an end under some bound do so within `Heap.depthBound`. -/
theorem compareAll_depthBound {bound : Nat} {goals : List Goal} {pending : Pending}
    {r : Bool × Pending} (ended : compareAll (h.compare bound) goals pending = some r) :
    compareAll (h.compare h.depthBound) goals pending = some r := by
  refine compareAll_mono (fun {goal pending r} first => ?_) ended
  cases within : h.compare h.depthBound goal pending with
  | none =>
    have never : h.Stuck bound (goal, pending) := Stuck.of_depthBound (q := (goal, pending)) within _
    rw [Stuck, first] at never
    cases never
  | some s =>
    rcases Nat.le_total bound h.depthBound with le | ge
    · rw [← within, compare_mono le first]
    · rw [← first, compare_mono ge within]

/-- A bound above `Heap.depthBound` makes no difference. -/
theorem compareAll_of_depthBound_le {bound : Nat} (enough : h.depthBound ≤ bound)
    (goals : List Goal) (pending : Pending) :
    compareAll (h.compare bound) goals pending =
      compareAll (h.compare h.depthBound) goals pending :=
  Option.ext fun _ => ⟨compareAll_depthBound, compareAll_mono (compare_mono enough)⟩

/-! ## Comparisons that come to an end -/

theorem exists_left_of_isPair {goal : Goal} (pair : goal.IsPair) : ∃ x, goal.left? = some x := by
  cases goal with
  | check => exact pair.elim
  | functions | classes | objects | traits | arrays => exact ⟨_, rfl⟩

/-- Where nothing comes into progress, a descent leads along references among functions and
classes. -/
theorem Descent.transGen {bound : Nat} {chain : Nat → Query} (d : h.Descent bound chain) {i k : Nat}
    (hk : i + (k + 1) ≤ bound)
    (unguarded : ∀ l, i ≤ l → l < i + (k + 1) → (chain l).1.isGuarded = false) {x y : Descriptor}
    (hx : (chain i).1.left? = some x) (hy : (chain (i + (k + 1))).1.left? = some y) :
    Relation.TransGen h.RefersUnguarded x y := by
  induction k generalizing y with
  | zero =>
    refine .single ⟨?_, refers_of_part (d i (by omega)).part hx hy⟩
    rw [Goal.isGuarded_of_left? hx]
    exact unguarded i (Nat.le_refl i) (by omega)
  | succ k ih =>
    obtain ⟨z, hz⟩ := exists_left_of_isPair (d (i + k) (by omega)).stuck.isPair
    refine (ih (by omega) (fun l hi hl => unguarded l hi (by omega)) hz).tail ⟨?_, ?_⟩
    · rw [Goal.isGuarded_of_left? hz]
      exact unguarded _ (by omega) (by omega)
    · exact refers_of_part (d (i + (k + 1)) (by omega)).part hz hy

/-- **Where every cycle of references passes through an array or an object, every goal comes to an
end**, whatever is in progress. -/
theorem CyclesGuarded.not_stuck (guarded : h.CyclesGuarded) (q : Query) :
    ¬ h.Stuck h.depthBound q := by
  intro stuck
  obtain ⟨chain, rfl, d⟩ := stuck.exists_descent
  obtain ⟨i, j, hij, hj, same, unguarded⟩ := d.exists_repeat (Nat.le_refl _)
  obtain ⟨k, rfl⟩ := Nat.exists_eq_add_of_lt hij
  obtain ⟨x, hx⟩ := exists_left_of_isPair (d.stuck stuck (i := i) (by omega)).isPair
  exact guarded.not_transGen x
    (d.transGen (k := k) (by omega) unguarded hx (by rw [← Nat.add_assoc, ← same]; exact hx))

theorem CyclesGuarded.exists_compareAll (guarded : h.CyclesGuarded) {bound : Nat}
    (enough : h.depthBound ≤ bound) (goals : List Goal) (pending : Pending) :
    ∃ answer, compareAll (h.compare bound) goals pending = some (answer, pending) := by
  cases ended : compareAll (h.compare bound) goals pending with
  | none =>
    obtain ⟨goal, -, stuck, -⟩ := exists_stuck_of_compareAll ended
    exact absurd (stuck.mono enough) (guarded.not_stuck _)
  | some r =>
    obtain ⟨answer, after⟩ := r
    obtain rfl : after = pending := compareAll_pending (compare_restores bound) ended
    exact ⟨answer, rfl⟩

end Heap
end LoxValues
