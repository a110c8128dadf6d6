import LoxValues.Proofs.Layers
import LoxValues.Proofs.Records

/-!
# Plain rendering

A renderer that keeps no list of the arrays being rendered can still count them.  From a value without
cycles it writes what `World.render` writes, however often arrays are shared on the way down.

## What is here

* `Heap.plainText` — the text of a value by the renderer that counts, which is the text of the pieces of
  `Heap.layered` (`Heap.textOf_layered`).
* `Heap.WayDown` — a way down through arrays.  The renderer that counts leaves out an array exactly if
  some way down passes through more arrays than there may be (`Heap.exists_ellipsis_layered_iff`).
* `World.receives_render` — the records of rendering are those of the pieces written, after those of
  reading the settings, which come from elsewhere.
* `World.render_acyclic` — **without cycles, rendering is plain rendering.**
-/

set_option autoImplicit false
namespace LoxValues

/-- A piece between brackets is an ellipsis where one of the parts has it. -/
theorem Piece.ellipsis_mem_bracket_iff {why : Omission} {depth : Nat} {parts : List (List Piece)} :
    .ellipsis why depth ∈ bracket parts ↔ ∃ part ∈ parts, .ellipsis why depth ∈ part := by
  refine ⟨mem_of_ellipsis_mem_bracket, ?_⟩
  rintro ⟨part, mem, inPart⟩
  suffices inner : .ellipsis why depth ∈ [Piece.plain ", "].intercalate parts by
    simp [bracket, inner]
  induction parts with
  | nil => cases mem
  | cons first parts ih =>
    cases parts with
    | nil =>
      obtain rfl := List.mem_singleton.mp mem
      simpa using inPart
    | cons next parts =>
      rw [List.intercalate_cons_cons]
      rcases List.mem_cons.mp mem with rfl | later
      · simp [inPart]
      · simp [ih later]

namespace Heap

variable {h : Heap}

/-! ## The plain renderer -/

/-- The text of a value, where arrays may nest so many levels deep and nothing else is known of the
arrays around it. -/
def plainText (h : Heap) : (levels : Nat) → Value → String
  | 0, .array _ => ellipsis
  | levels + 1, .array a => bracketed ((h.elements a).map (h.plainText levels))
  | _, v => h.text v

/-- Induction down to where no more arrays may be, with one case for every value but an array. -/
@[elab_as_elim]
theorem levels_induction {motive : Nat → Nat → Value → Prop}
    (full : ∀ depth a, motive 0 depth (.array a))
    (room : ∀ levels depth a, (∀ v, motive levels (depth + 1) v) → motive (levels + 1) depth (.array a))
    (other : ∀ levels depth v, (∀ a, v ≠ .array a) → motive levels depth v)
    (levels depth : Nat) (v : Value) : motive levels depth v := by
  refine layered.induct motive full room (fun levels depth v none more => ?_) levels depth v
  refine other levels depth v fun a array => ?_
  cases levels with
  | zero => exact none a rfl array
  | succ levels => exact more levels a rfl array

theorem plainText_of_ne_array {levels : Nat} {v : Value} (other : ∀ a, v ≠ .array a) :
    h.plainText levels v = h.text v := by
  rw [plainText]
  · exact fun a _ => other a
  · exact fun _ a _ => other a

/-- The pieces of a renderer that counts say what the plain renderer says. -/
theorem textOf_layered (levels depth : Nat) (v : Value) :
    Piece.textOf (h.layered levels depth v) = h.plainText levels v := by
  induction levels, depth, v using levels_induction with
  | full depth a => rfl
  | room levels depth a ih =>
    rw [layered, plainText, Piece.textOf_bracket, List.map_map]
    exact congrArg bracketed (List.map_congr_left fun v _ => ih v)
  | other levels depth v other =>
    rw [layered_of_ne_array other, plainText_of_ne_array other, Piece.textOf_plain]

/-! ## Ways down -/

/-- A way down from a value, by the arrays that it passes through. -/
structure WayDown (h : Heap) (v : Value) (path : List ArrayRef) : Prop where
  /-- It starts at the value, if it passes through any array at all. -/
  starts : ∀ a ∈ path.head?, v = .array a
  /-- Each array is an element of the one before. -/
  descends : path.IsChain h.Encloses

theorem WayDown.start (a : ArrayRef) : h.WayDown (.array a) [a] where
  starts := by simp
  descends := by simp

theorem WayDown.cons {a : ArrayRef} {v : Value} {path : List ArrayRef} (mem : v ∈ h.elements a)
    (down : h.WayDown v path) : h.WayDown (.array a) (a :: path) where
  starts := by simp
  descends := by
    cases path with
    | nil => simp
    | cons b path =>
      obtain rfl := down.starts b rfl
      exact List.isChain_cons_cons.mpr ⟨mem, down.descends⟩

theorem WayDown.tail {a b : ArrayRef} {v : Value} {path : List ArrayRef}
    (down : h.WayDown v (a :: b :: path)) :
    .array b ∈ h.elements a ∧ h.WayDown (.array b) (b :: path) := by
  obtain ⟨step, below⟩ := List.isChain_cons_cons.mp down.descends
  exact ⟨step, by simp, below⟩

/-! ## What the renderer that counts leaves out -/

/-- An array is only left out with as many others around it as there may be. -/
theorem eq_of_ellipsis_mem_layered {levels depth : Nat} {v : Value} {why : Omission} {around : Nat}
    (mem : .ellipsis why around ∈ h.layered levels depth v) :
    why = .truncation ∧ around = depth + levels := by
  induction levels, depth, v using levels_induction with
  | full depth a =>
    rw [layered, List.mem_singleton] at mem
    cases mem
    exact ⟨rfl, rfl⟩
  | room levels depth a ih =>
    rw [layered, Piece.ellipsis_mem_bracket_iff] at mem
    obtain ⟨part, elements, inPart⟩ := mem
    obtain ⟨v, -, rfl⟩ := List.mem_map.mp elements
    obtain ⟨rfl, rfl⟩ := ih v inPart
    exact ⟨rfl, by omega⟩
  | other levels depth v other =>
    rw [layered_of_ne_array other, List.mem_singleton] at mem
    cases mem

/-- **An array is left out** exactly if some way down passes through more arrays than there may be,
whether or not other ways pass through the same ones. -/
theorem exists_ellipsis_layered_iff (levels depth : Nat) (v : Value) :
    (∃ why around, .ellipsis why around ∈ h.layered levels depth v) ↔
      ∃ path, h.WayDown v path ∧ levels < path.length := by
  induction levels, depth, v using levels_induction with
  | full depth a =>
    refine iff_of_true ⟨.truncation, depth, ?_⟩ ⟨[a], .start a, Nat.one_pos⟩
    rw [layered, List.mem_singleton]
  | room levels depth a ih =>
    rw [layered]
    constructor
    · rintro ⟨why, around, mem⟩
      obtain ⟨part, elements, inPart⟩ := Piece.ellipsis_mem_bracket_iff.mp mem
      obtain ⟨v, element, rfl⟩ := List.mem_map.mp elements
      obtain ⟨path, down, long⟩ := (ih v).mp ⟨why, around, inPart⟩
      exact ⟨a :: path, down.cons element, Nat.succ_lt_succ long⟩
    · rintro ⟨path, down, long⟩
      rcases path with _ | ⟨c, _ | ⟨b, path⟩⟩
      · cases long
      · cases Nat.lt_of_succ_lt_succ long
      · obtain rfl := Value.array.inj (down.starts c rfl)
        obtain ⟨element, below⟩ := down.tail
        obtain ⟨why, around, inPart⟩ :=
          (ih (.array b)).mpr ⟨b :: path, below, Nat.lt_of_succ_lt_succ long⟩
        exact ⟨why, around, Piece.ellipsis_mem_bracket_iff.mpr
          ⟨_, List.mem_map.mpr ⟨_, element, rfl⟩, inPart⟩⟩
  | other levels depth v other =>
    rw [layered_of_ne_array other]
    refine iff_of_false (by simp) ?_
    rintro ⟨path, down, long⟩
    cases path with
    | nil => cases long
    | cons a path => exact other a (down.starts a rfl)

end Heap

/-! ## The records of rendering -/

namespace World

/-- What comes with reading the settings is told by the modules that read them. -/
theorem receives_getSettings (w : World) :
    ∃ rs, w.log.Receives rs w.getSettings.2.log ∧ ∀ r ∈ rs, r.module ≠ "loxrt.eval.value" := by
  cases cached : w.cache with
  | some s =>
    rw [getSettings_of_cached cached]
    exact ⟨[], .refl w.log, List.forall_mem_nil _⟩
  | none =>
    obtain ⟨rs, read, malformed⟩ :=
      receives_malformed ((w.envFile.map EnvFile.malformedLines).getD []) w.log
    have elsewhere : ∀ r ∈ rs, r.module ≠ "loxrt.eval.value" := by
      intro r mem
      obtain ⟨-, line, rfl⟩ := malformed r mem
      exact (by decide : envFileModule ≠ "loxrt.eval.value")
    rw [getSettings, cached, loadSettings]
    cases Settings.load w.environment w.envFile with
    | ok s => exact ⟨rs, read, elsewhere⟩
    | error issue =>
      dsimp only
      rw [note_eq]
      split
      · refine ⟨rs ++ [invalidSettings], read.trans (Log.receives_offer _ _), ?_⟩
        rw [List.forall_mem_append, List.forall_mem_singleton]
        exact ⟨elsewhere, by decide⟩
      · exact ⟨rs, read, elsewhere⟩

/-- **The records of rendering** that the renderer makes itself are those of the ellipses written. -/
theorem receives_render {w : World} {v : Value} {pieces : List Piece}
    (rendered : (w.render v).2 = (w.prepared v).record pieces) :
    ∃ rs, w.log.Receives rs (w.render v).2.log ∧
      ∀ r ∈ rs, r.module = "loxrt.eval.value" → ∃ why depth, .ellipsis why depth ∈ pieces ∧
        r.message = Omission.event why ++ " depth=" ++ Nat.repr depth := by
  have before : ∃ rs, w.log.Receives rs (w.prepared v).log ∧
      ∀ r ∈ rs, r.module ≠ "loxrt.eval.value" := by
    rcases w.prepared_cases v with same | read
    · rw [same]
      exact ⟨[], .refl w.log, List.forall_mem_nil _⟩
    · rw [read]
      exact w.receives_getSettings
  obtain ⟨rs, first, elsewhere⟩ := before
  obtain ⟨qs, second, made⟩ := (w.prepared v).receives_record pieces
  rw [rendered]
  refine ⟨rs ++ qs, first.trans second, fun r mem own => ?_⟩
  rcases List.mem_append.mp mem with mem | mem
  · exact absurd own (elsewhere r mem)
  · obtain ⟨-, why, depth, written, rfl⟩ := made r mem
    exact ⟨why, depth, written, rfl⟩

/-- **Without cycles, rendering is plain rendering.**  When nothing is being rendered, let no array
reach itself through array elements from a value.  Then rendering the value gives the text that the
plain renderer writes, which only counts how many arrays it is in, and leaves the records of its pieces
once the settings have been read.  Every record that the renderer makes is of an array that is left out
for its depth, and none of a cycle.  An array is left out if and only if some way down from the value
passes through more arrays than there may be. -/
theorem render_acyclic {w : World} {v : Value} (idle : w.rendering = [])
    (acyclic : w.heap.AcyclicFrom v) :
    w.render v = (w.heap.plainText w.depthLimit v,
      (w.prepared v).record (w.heap.layered w.depthLimit 0 v)) ∧
    Piece.textOf (w.heap.layered w.depthLimit 0 v) = w.heap.plainText w.depthLimit v ∧
    (∃ rs, w.log.Receives rs (w.render v).2.log ∧
      ∀ r ∈ rs, r.module = "loxrt.eval.value" →
        r.message = "render.truncate depth=" ++ Nat.repr w.depthLimit) ∧
    ((∃ why depth, .ellipsis why depth ∈ w.heap.layered w.depthLimit 0 v) ↔
      ∃ path, w.heap.WayDown v path ∧ w.depthLimit < path.length) := by
  have text := w.heap.textOf_layered w.depthLimit 0 v
  have unfolded : w.heap.unfolding w.depthLimit [] v = w.heap.layered w.depthLimit 0 v :=
    acyclic.unfolding_eq (List.forall_mem_nil _)
  have rendered := w.render_eq v
  rw [idle, unfolded, text] at rendered
  obtain ⟨rs, received, made⟩ := receives_render (congrArg Prod.snd rendered)
  refine ⟨rendered, text, ⟨rs, received, fun r mem own => ?_⟩,
    Heap.exists_ellipsis_layered_iff w.depthLimit 0 v⟩
  obtain ⟨why, depth, written, message⟩ := made r mem own
  obtain ⟨rfl, rfl⟩ := Heap.eq_of_ellipsis_mem_layered written
  rw [message, Nat.zero_add]
  rfl

/-- A world with an array that has another one twice, which has a third one twice, and with a limit on
depth. -/
def braided (depth : Nat) : World :=
  { fresh .empty none .listening with
    heap := { Heap.empty with
      arrays := [⟨2, [.array ⟨1⟩, .array ⟨1⟩]⟩, ⟨2, [.array ⟨2⟩, .array ⟨2⟩]⟩, ⟨0, []⟩] }
    cache := some ⟨"info", depth⟩ }

theorem acyclicFrom_braided (depth : Nat) : (braided depth).heap.AcyclicFrom (.array ⟨0⟩) := by
  refine Heap.acyclicFrom_of_rank (fun a => 2 - a.index) (fun a b step => ?_) _
  have there := Heap.lt_length_of_encloses step
  obtain ⟨i⟩ := a
  have few : i < 3 := there
  match i, few with
  | 0, _ | 1, _ | 2, _ =>
    simp_all [Heap.Encloses, Heap.elements, Heap.array?, braided]

/-- In `braided` three arrays are in one another.  All of them are shown each time they come up where
three may be, and the innermost one is left out each time where two may be. -/
theorem render_braided :
    ((braided 3).render (.array ⟨0⟩)).1 = "[[[], []], [[], []]]" ∧
    (∀ path, (braided 3).heap.WayDown (.array ⟨0⟩) path → path.length ≤ 3) ∧
    ((braided 2).render (.array ⟨0⟩)).1 = "[[[...], [...]], [[...], [...]]]" ∧
    ∃ path, (braided 2).heap.WayDown (.array ⟨0⟩) path ∧ 2 < path.length := by
  obtain ⟨rendered, -, -, omitted⟩ := render_acyclic (w := braided 3) rfl (acyclicFrom_braided 3)
  obtain ⟨rendered', -, -, omitted'⟩ := render_acyclic (w := braided 2) rfl (acyclicFrom_braided 2)
  have shown : ∀ p ∈ (braided 3).heap.layered 3 0 (.array ⟨0⟩), p.record? = none := by
    decide +kernel
  refine ⟨?_, fun path down => Nat.le_of_not_lt fun long => ?_, ?_, omitted'.mp ?_⟩
  · rw [rendered]
    decide +kernel
  · obtain ⟨why, depth, written⟩ := omitted.mpr ⟨path, down, long⟩
    exact absurd (shown _ written) (by simp [Piece.record?])
  · rw [rendered']
    decide +kernel
  · exact ⟨.truncation, 2, by decide +kernel⟩

end World
end LoxValues
