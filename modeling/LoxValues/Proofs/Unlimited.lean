import LoxValues.Proofs.Layers
import Mathlib.Data.Set.Card
import Mathlib.Data.Set.Finite.List

/-!
# Rendering where the limit is deep enough

No array is entered twice on one path, so a path is never longer than there are arrays to enter.  Where
the limit on depth is not below their number, it is never met, and what is written is the same as with
any other such limit.

## What is here

* `Heap.contents` — the arrays that a value contains.  There are finitely many
  (`Heap.finite_contents`).
* `Heap.UnfoldsTo` — unfolding without a limit: an array is only left out where it is on its own path.
* `Heap.Trail` — what holds of every path on which rendering comes to a value: it has no repetition, its
  arrays are among those of the root, and all of them lead to the value.  It leaves room for a new array
  (`Heap.Trail.length_lt`).
* `World.render_unlimited` — **a limit that is deep enough makes no difference.**
-/

set_option autoImplicit false
namespace LoxValues

open Relation (TransGen ReflTransGen)

namespace Heap

variable {h : Heap}

/-! ## The arrays that a value contains -/

/-- The arrays that a value contains, itself included if it is one. -/
def contents (h : Heap) (v : Value) : Set ArrayRef := {c | h.Contains v c}

theorem Encloses.mem_flatMap {a b : ArrayRef} (step : h.Encloses a b) :
    .array b ∈ h.arrays.flatMap (·.elements) := by
  rw [Encloses, elements, array?] at step
  cases there : h.arrays[a.index]? with
  | none =>
    rw [there] at step
    cases step
  | some r =>
    rw [there] at step
    exact List.mem_flatMap.mpr ⟨r, List.mem_of_getElem? there, step⟩

theorem finite_contents (h : Heap) (v : Value) : (h.contents v).Finite := by
  -- an array is contained as the value itself, or because it is an element somewhere
  refine ((List.finite_toSet (v :: h.arrays.flatMap (·.elements))).preimage
    (f := Value.array) fun a _ b _ same => Value.array.inj same).subset ?_
  rintro c ⟨a, rfl, walk⟩
  rcases ReflTransGen.cases_tail walk with same | ⟨b, -, step⟩
  · rw [same]
    exact List.mem_cons_self
  · exact List.mem_cons_of_mem _ step.mem_flatMap

/-! ## Unfolding without a limit -/

/-- The pieces that a value unfolds to where nothing limits the depth and an array is reached through the
arrays of `path`. -/
inductive UnfoldsTo (h : Heap) : List ArrayRef → Value → List Piece → Prop
  /-- A value other than an array has a text of its own. -/
  | plain {path : List ArrayRef} {v : Value} (other : ∀ a, v ≠ .array a) :
      UnfoldsTo h path v [.plain (h.text v)]
  /-- An array comes back to itself. -/
  | reentry {path : List ArrayRef} {a : ArrayRef} (entered : a ∈ path) :
      UnfoldsTo h path (.array a) [.ellipsis .cycle path.length]
  /-- Any other array shows all its elements. -/
  | elements {path : List ArrayRef} {a : ArrayRef} (new : a ∉ path) (pieces : Value → List Piece)
      (each : ∀ v ∈ h.elements a, UnfoldsTo h (path ++ [a]) v (pieces v)) :
      UnfoldsTo h path (.array a) (Piece.bracket ((h.elements a).map pieces))

theorem UnfoldsTo.unique {path : List ArrayRef} {v : Value} {ps qs : List Piece}
    (first : h.UnfoldsTo path v ps) (second : h.UnfoldsTo path v qs) : ps = qs := by
  induction first generalizing qs with
  | plain other =>
    cases second with
    | plain => rfl
    | reentry => exact absurd rfl (other _)
    | elements => exact absurd rfl (other _)
  | reentry entered =>
    cases second with
    | plain other => exact absurd rfl (other _)
    | reentry => rfl
    | elements new => exact absurd entered new
  | elements new pieces each ih =>
    cases second with
    | plain other => exact absurd rfl (other _)
    | reentry entered => exact absurd entered new
    | elements _ pieces' each' =>
      exact congrArg Piece.bracket (List.map_congr_left fun v mem => ih v mem (each' v mem))

/-! ## Paths -/

/-- On the way down from `root`, the path along which rendering comes to `v`. -/
structure Trail (h : Heap) (root : Value) (path : List ArrayRef) (v : Value) : Prop where
  /-- No array is entered twice. -/
  nodup : path.Nodup
  /-- What has been entered is among the arrays of the root. -/
  inside : ∀ c ∈ path, c ∈ h.contents root
  /-- So is what lies ahead. -/
  ahead : h.contents v ⊆ h.contents root
  /-- What has been entered leads, in one step or more, to what lies ahead. -/
  leads : ∀ c ∈ path, ∀ b ∈ h.contents v, TransGen h.Encloses c b

namespace Trail

variable {root v : Value} {path : List ArrayRef} {a : ArrayRef}

theorem start (root : Value) : h.Trail root [] root where
  nodup := List.nodup_nil
  inside := by simp
  ahead := subset_rfl
  leads := by simp

theorem nodup_enter (trail : h.Trail root path v) (new : a ∉ path) : (path ++ [a]).Nodup := by
  rw [← List.concat_eq_append]
  exact trail.nodup.concat new

/-- Entering an array makes the trail longer. -/
theorem enter (trail : h.Trail root path (.array a)) (new : a ∉ path) (mem : v ∈ h.elements a) :
    h.Trail root (path ++ [a]) v where
  nodup := trail.nodup_enter new
  inside c entered := by
    rcases List.mem_append.mp entered with before | now
    · exact trail.inside c before
    · obtain rfl := List.mem_singleton.mp now
      exact trail.ahead (contains_self c)
  ahead _ contained := trail.ahead (Contains.of_element mem contained)
  leads c entered b contained := by
    rcases List.mem_append.mp entered with before | now
    · exact trail.leads c before b (Contains.of_element mem contained)
    · obtain rfl := List.mem_singleton.mp now
      obtain ⟨d, rfl, walk⟩ := contained
      exact .head' mem walk

/-- **There is room for a new array**: fewer have been entered than there are. -/
theorem length_lt (trail : h.Trail root path (.array a)) (new : a ∉ path) :
    path.length < (h.contents root).ncard := by
  have distinct : (path ++ [a]).toFinset.card = path.length + 1 := by
    rw [List.toFinset_card_of_nodup (trail.nodup_enter new), List.length_append,
      List.length_singleton]
  have among : ((path ++ [a]).toFinset : Set ArrayRef) ⊆ h.contents root := by
    intro c mem
    rw [List.coe_toFinset] at mem
    rcases List.mem_append.mp mem with entered | now
    · exact trail.inside c entered
    · obtain rfl := List.mem_singleton.mp now
      exact trail.ahead (contains_self c)
  have few := Set.ncard_le_ncard among (h.finite_contents root)
  rw [Set.ncard_coe_finset, distinct] at few
  exact few

/-- **A limit that is deep enough is never met** on the way down from the root. -/
theorem unfoldsTo_unfolding {bound : Nat} (trail : h.Trail root path v)
    (deep : (h.contents root).ncard ≤ bound) : h.UnfoldsTo path v (h.unfolding bound path v) := by
  induction path, v using Heap.unfolding.induct bound with
  | case1 path a onPath =>
    rw [unfolding, if_pos onPath]
    exact .reentry onPath
  | case2 path a offPath full =>
    have := trail.length_lt offPath
    omega
  | case3 path a offPath room ih =>
    rw [unfolding, if_neg offPath, if_neg room]
    exact .elements offPath _ fun v mem => ih v (trail.enter offPath mem)
  | case4 path v other =>
    rw [unfolding_of_ne_array other]
    exact .plain other

end Trail

/-- Without a limit, an ellipsis stands for an array that contains itself. -/
theorem UnfoldsTo.cycle_of_ellipsis {root v : Value} {path : List ArrayRef} {pieces : List Piece}
    {why : Omission} {depth : Nat} (unfolds : h.UnfoldsTo path v pieces)
    (trail : h.Trail root path v) (mem : .ellipsis why depth ∈ pieces) :
    why = .cycle ∧ ∃ c ∈ h.contents root, TransGen h.Encloses c c := by
  induction unfolds with
  | plain =>
    rw [List.mem_singleton] at mem
    cases mem
  | reentry entered =>
    rw [List.mem_singleton] at mem
    cases mem
    exact ⟨rfl, _, trail.inside _ entered, trail.leads _ entered _ (contains_self _)⟩
  | elements new pieces each ih =>
    obtain ⟨part, elements, inPart⟩ := Piece.mem_of_ellipsis_mem_bracket mem
    obtain ⟨v, element, rfl⟩ := List.mem_map.mp elements
    exact ih v element (trail.enter new element) inPart

/-- Without a limit, all records are of arrays that come back to themselves. -/
theorem UnfoldsTo.eq_of_mem_recordsOf {root v : Value} {path : List ArrayRef} {pieces : List Piece}
    {r : Record} (unfolds : h.UnfoldsTo path v pieces) (trail : h.Trail root path v)
    (mem : r ∈ Piece.recordsOf pieces) :
    ∃ depth, r = ⟨.debug, "loxrt.eval.value", "render.cycle depth=" ++ Nat.repr depth⟩ := by
  obtain ⟨piece, written, record⟩ := List.mem_filterMap.mp mem
  cases piece with
  | plain => cases record
  | ellipsis why depth =>
    obtain ⟨rfl, -⟩ := unfolds.cycle_of_ellipsis trail written
    exact ⟨depth, (Option.some.inj record).symm⟩

end Heap

/-! ## Rendering -/

namespace World

/-- **A limit that is deep enough makes no difference.**  Of two worlds with the same descriptors, in
which nothing is being rendered, let both show at least as many arrays in one another as a value
contains.  Then rendering the value gives the same text in both, and leaves the same records after those
of reading the settings: those of unfolding the value without a limit.  An ellipsis is only written for
an array that comes back to itself, and all records say so.  Where both worlds have read their settings
and have the same log, they have the same log afterwards. -/
theorem render_unlimited {w w' : World} {v : Value} (idle : w.rendering = [])
    (idle' : w'.rendering = []) (sameHeap : w'.heap = w.heap)
    (deep : (w.heap.contents v).ncard ≤ w.depthLimit)
    (deep' : (w.heap.contents v).ncard ≤ w'.depthLimit) :
    (w.heap.contents v).Finite ∧
    ∃ pieces, w.heap.UnfoldsTo [] v pieces ∧
      w.render v = (Piece.textOf pieces, (w.prepared v).record pieces) ∧
      w'.render v = (Piece.textOf pieces, (w'.prepared v).record pieces) ∧
      (∀ why depth, .ellipsis why depth ∈ pieces →
        why = .cycle ∧ ∃ c ∈ w.heap.contents v, TransGen w.heap.Encloses c c) ∧
      (∀ r ∈ Piece.recordsOf pieces, ∃ depth,
        r = ⟨.debug, "loxrt.eval.value", "render.cycle depth=" ++ Nat.repr depth⟩) ∧
      (w.cache ≠ none → w'.cache ≠ none → w'.log = w.log →
        (w'.render v).2.log = (w.render v).2.log) := by
  have unfolds := (Heap.Trail.start v).unfoldsTo_unfolding deep
  have unfolds' := (Heap.Trail.start v).unfoldsTo_unfolding deep'
  have rendered := w.render_eq v
  have rendered' := w'.render_eq v
  rw [idle] at rendered
  rw [idle', sameHeap, unfolds'.unique unfolds] at rendered'
  refine ⟨w.heap.finite_contents v, _, unfolds, rendered, rendered',
    fun why depth => unfolds.cycle_of_ellipsis (.start v),
    fun r => unfolds.eq_of_mem_recordsOf (.start v), fun cached cached' sameLog => ?_⟩
  obtain ⟨s, cached⟩ := Option.ne_none_iff_exists'.mp cached
  obtain ⟨s', cached'⟩ := Option.ne_none_iff_exists'.mp cached'
  rw [rendered, rendered', prepared_of_cached cached, prepared_of_cached cached', record, record,
    sameLog]

/-- A world with an array that holds another one twice, which holds the first, and with a limit on
depth. -/
def knotted (depth : Nat) : World :=
  { fresh .empty none .listening with
    heap := { Heap.empty with
      arrays := [⟨2, [.array ⟨1⟩, .array ⟨1⟩]⟩, ⟨1, [.array ⟨0⟩]⟩] }
    cache := some ⟨"info", depth⟩ }

theorem ncard_knotted (depth : Nat) :
    ((knotted depth).heap.contents (.array ⟨0⟩)).ncard ≤ 2 := by
  have among : (knotted depth).heap.contents (.array ⟨0⟩) ⊆ {⟨0⟩, ⟨1⟩} := by
    rintro c ⟨a, same, walk⟩
    cases same
    rcases ReflTransGen.cases_tail walk with same | ⟨b, -, step⟩
    · exact .inl same
    · have element : .array c ∈ [Value.array ⟨1⟩, .array ⟨1⟩, .array ⟨0⟩] := step.mem_flatMap
      have : c = ⟨1⟩ ∨ c = ⟨0⟩ := by simpa using element
      exact this.symm
  exact (Set.ncard_le_ncard among (Set.toFinite _)).trans (Set.ncard_pair (by decide)).le

/-- A limit of two is deep enough for the two arrays, and shows the same as the usual one. -/
theorem render_knotted :
    ((knotted 2).heap.contents (.array ⟨0⟩)).ncard ≤ 2 ∧
    (knotted 2).depthLimit = 2 ∧ (knotted 64).depthLimit = 64 ∧
    ((knotted 64).render (.array ⟨0⟩)).1 = "[[[...]], [[...]]]" ∧
    ((knotted 64).render (.array ⟨0⟩)).2.log = ((knotted 2).render (.array ⟨0⟩)).2.log := by
  have few := ncard_knotted 2
  have limit : (knotted 2).depthLimit = 2 := rfl
  have limit' : (knotted 64).depthLimit = 64 := rfl
  have sameHeap : (knotted 64).heap = (knotted 2).heap := rfl
  obtain ⟨-, pieces, -, rendered, rendered', -, -, logs⟩ :=
    render_unlimited rfl rfl sameHeap few (few.trans (by decide))
  have text : ((knotted 2).render (.array ⟨0⟩)).1 = "[[[...]], [[...]]]" := by decide +kernel
  refine ⟨few, limit, limit', ?_, logs nofun nofun rfl⟩
  rw [rendered] at text
  rw [rendered']
  exact text

end World
end LoxValues
