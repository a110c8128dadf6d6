import LoxValues.Proofs.Observation

/-!
# Rendering ends and cleans up

`World.render` counts down how much deeper it may go.  Here rendering is told without a count, as a
relation between what it starts from and what it comes to: `Renders v w text after` has a derivation
exactly if rendering `v` in the world `w` comes to an end after finitely many calls, with `text` and in
the world `after`.  What is being rendered and the settings are read from the world at each call, as
they are by then.

## What is here

* `Renders`, `RendersAll` — the calls that rendering makes.
* `World.renders_renderWithin` — with enough levels left, the count is never what rendering ends for.
  At each array one more is being rendered, and no more can be than the settings and the host allow
  (`World.depthLimit`); neither changes on the way.
* `World.render_ends` — rendering ends with one text, whatever the heap, the environment and the
  settings read so far, and leaves everything in its place.
-/

set_option autoImplicit false
namespace LoxValues

/-- The world when the elements of an array have been rendered. -/
def World.outside (w : World) : World := { w with rendering := w.rendering.dropLast }

mutual

/-- Rendering a value comes to an end, with a text and in a world. -/
inductive Renders : Value → World → String → World → Prop
  /-- A value other than an array has a text of its own. -/
  | plain {v : Value} {w : World} (other : ∀ a, v ≠ .array a) : Renders v w (w.heap.text v) w
  /-- An array that is being rendered already. -/
  | cycle {a : ArrayRef} {w : World} (entered : a ∈ w.rendering) :
      Renders (.array a) w ellipsis (w.noteRendering "render.cycle")
  /-- An array with as many arrays around it as the settings allow, which are read for it. -/
  | truncation {a : ArrayRef} {w : World} (new : a ∉ w.rendering)
      (full : w.depthLimit ≤ w.rendering.length) :
      Renders (.array a) w ellipsis (w.getSettings.2.noteRendering "render.truncate")
  /-- An array whose elements are rendered. -/
  | elements {a : ArrayRef} {w after : World} {texts : List String} (new : a ∉ w.rendering)
      (room : w.rendering.length < w.depthLimit)
      (all : RendersAll (w.getSettings.2.heap.elements a) (w.getSettings.2.inside a) texts after) :
      Renders (.array a) w (bracketed texts) after.outside

/-- Rendering values one after the other comes to an end, with their texts and in a world. -/
inductive RendersAll : List Value → World → List String → World → Prop
  /-- There is nothing to render. -/
  | nil {w : World} : RendersAll [] w [] w
  /-- The first value, and then the others in the world that it leaves. -/
  | cons {v : Value} {vs : List Value} {w between after : World} {text : String}
      {texts : List String} (first : Renders v w text between)
      (others : RendersAll vs between texts after) : RendersAll (v :: vs) w (text :: texts) after

end

/-! ## There is only one end -/

mutual

/-- Rendering comes to one end at most. -/
theorem Renders.unique {v : Value} {w after after' : World} {text text' : String} :
    Renders v w text after → Renders v w text' after' → text = text' ∧ after = after'
  | .plain other, second => by
    cases second with
    | plain => exact ⟨rfl, rfl⟩
    | cycle => exact absurd rfl (other _)
    | truncation => exact absurd rfl (other _)
    | elements => exact absurd rfl (other _)
  | .cycle entered, second => by
    cases second with
    | plain other => exact absurd rfl (other _)
    | cycle => exact ⟨rfl, rfl⟩
    | truncation new => exact absurd entered new
    | elements new => exact absurd entered new
  | .truncation new full, second => by
    cases second with
    | plain other => exact absurd rfl (other _)
    | cycle entered => exact absurd entered new
    | truncation => exact ⟨rfl, rfl⟩
    | elements _ room => omega
  | .elements new room all, second => by
    cases second with
    | plain other => exact absurd rfl (other _)
    | cycle entered => exact absurd entered new
    | truncation _ full => omega
    | elements _ _ all' =>
      obtain ⟨rfl, rfl⟩ := all.unique all'
      exact ⟨rfl, rfl⟩

/-- So do values that are rendered one after the other. -/
theorem RendersAll.unique {vs : List Value} {w after after' : World} {texts texts' : List String} :
    RendersAll vs w texts after → RendersAll vs w texts' after' → texts = texts' ∧ after = after'
  | .nil, second => by
    cases second
    exact ⟨rfl, rfl⟩
  | .cons first others, second => by
    cases second with
    | cons first' others' =>
      obtain ⟨rfl, rfl⟩ := first.unique first'
      obtain ⟨rfl, rfl⟩ := others.unique others'
      exact ⟨rfl, rfl⟩

end

namespace World

/-! ## There is an end -/

/-- Values come to an end one after the other if each does, whatever records came before it, and leaves
nothing but records. -/
theorem rendersAll_renderAll {render : Value → World → String × World} {w : World}
    (ends : ∀ v ps, Renders v (w.record ps) (render v (w.record ps)).1 (render v (w.record ps)).2)
    (leaves : ∀ v ps, ∃ qs, (render v (w.record ps)).2 = w.record qs)
    (vs : List Value) (ps : List Piece) :
    RendersAll vs (w.record ps) (renderAll render vs (w.record ps)).1
      (renderAll render vs (w.record ps)).2 := by
  induction vs generalizing ps with
  | nil => exact .nil
  | cons v vs ih =>
    have first := ends v ps
    obtain ⟨qs, left⟩ := leaves v ps
    rw [left] at first
    simp only [renderAll, left]
    exact .cons first (ih qs)

/-- While the elements of an array are rendered, the bound on depth is what it was before, whatever
records have come since. -/
theorem depthLimit_inside (w : World) (a : ArrayRef) (ps : List Piece) :
    ((w.getSettings.2.inside a).record ps).depthLimit = w.depthLimit :=
  depthLimit_of_read w.cache_getSettings w.callLimit_getSettings

/-- While the elements of an array are rendered, there is one array more around them. -/
theorem length_inside (w : World) (a : ArrayRef) (ps : List Piece) :
    ((w.getSettings.2.inside a).record ps).rendering.length = w.rendering.length + 1 := by
  rw [← w.rendering_getSettings]
  exact List.length_append

/-- **Rendering comes to an end** with enough levels left: the count of levels is not what stops it. -/
theorem renders_renderWithin {levels : Nat} {v : Value} {w : World}
    (enough : w.depthLimit < w.rendering.length + levels) (levelsPos : 0 < levels) :
    Renders v w (renderWithin levels v w).1 (renderWithin levels v w).2 := by
  induction levels generalizing v w with
  | zero => omega
  | succ levels ih =>
    rcases v.array_or_other with ⟨a, rfl⟩ | other
    · rw [renderWithin, renderArray, renderBound_eq]
      split_ifs with entered
      · exact .cycle entered
      · dsimp only
        split_ifs with full
        · exact .truncation entered (w.rendering_getSettings ▸ full)
        · rw [w.rendering_getSettings] at full
          have room : w.rendering.length < w.depthLimit := Nat.lt_of_not_le full
          have deeper (ps : List Piece) : ((w.getSettings.2.inside a).record ps).depthLimit <
              ((w.getSettings.2.inside a).record ps).rendering.length + levels := by
            rw [depthLimit_inside, length_inside]
            omega
          have leaves (v : Value) (ps : List Piece) : ∃ qs,
              (renderWithin levels v ((w.getSettings.2.inside a).record ps)).2 =
                (w.getSettings.2.inside a).record qs := by
            rw [renderWithin_eq (w := (w.getSettings.2.inside a).record ps) w.cache_getSettings
              (by omega) (deeper ps), record_record]
            exact ⟨_, rfl⟩
          have all := rendersAll_renderAll (fun v ps => ih (deeper ps) (by omega)) leaves
            (w.getSettings.2.heap.elements a) []
          rw [record_nil] at all
          exact .elements entered room all
    · rw [renderWithin_of_ne_array other]
      exact .plain other

theorem depthLimit_le_deepestRendering (w : World) : w.depthLimit ≤ w.deepestRendering :=
  Nat.min_le_right _ _

/-- The settings read are kept by rendering if there are any, and if what is rendered is no array. -/
theorem cache_render {v : Value} {w : World}
    (kept : w.cache ≠ none ∨ ∀ a, v ≠ .array a) : (w.render v).2.cache = w.cache := by
  have prepared : (w.prepared v).cache = w.cache := by
    rcases kept with read | other
    · obtain ⟨s, cached⟩ := Option.ne_none_iff_exists'.mp read
      rw [prepared_of_cached cached]
    · rw [prepared_of_ne_array other]
  rw [render_eq]
  exact prepared

/-- **Rendering never fails and leaves everything in its place.**  Whatever the heap, the environment
and its file, the settings read and the arrays being rendered are, rendering a value comes to one end
after finitely many calls, which is what `World.render` gives; levels beyond those that it is given
make no difference.  As a step it answers with a text.  Afterwards the heap and what is being rendered
are the same, and with them everything but the log's lines and the settings read; and these are the
same if there were any, or if the value is no array. -/
theorem render_ends (v : Value) (w : World) :
    (∀ text after, Renders v w text after ↔ w.render v = (text, after)) ∧
    (∀ levels, w.deepestRendering < levels → renderWithin levels v w = w.render v) ∧
    w.step (.render v) = (.ok (.text (w.render v).1), (w.render v).2) ∧
    (w.render v).2.heap = w.heap ∧ (w.render v).2.rendering = w.rendering ∧
    (w.render v).2.rest = w.rest ∧ (w.render v).2.log.setup = w.log.setup ∧
    (w.cache ≠ none ∨ (∀ a, v ≠ .array a) → (w.render v).2.cache = w.cache) := by
  have most := w.depthLimit_le_deepestRendering
  have ends : Renders v w (w.render v).1 (w.render v).2 :=
    renders_renderWithin (by omega) (Nat.succ_pos _)
  have rest := (w.reads_render v).rest
  have sameHeap := congrArg World.heap rest
  have sameRendering := congrArg World.rendering rest
  refine ⟨fun text after => ⟨fun other => ?_, fun same => ?_⟩, fun levels enough => ?_, rfl,
    sameHeap, sameRendering, rest,
    congrArg (fun f => f.2.2) (w.frame_render v),
    cache_render⟩
  · obtain ⟨sameText, sameWorld⟩ := ends.unique other
    exact Prod.ext sameText sameWorld
  · rw [same] at ends
    exact ends
  · have other : Renders v w (renderWithin levels v w).1 (renderWithin levels v w).2 :=
      renders_renderWithin (by omega) (by omega)
    obtain ⟨sameText, sameWorld⟩ := other.unique ends
    exact Prod.ext sameText sameWorld

end World
end LoxValues
