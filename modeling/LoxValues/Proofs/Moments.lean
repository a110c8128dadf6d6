import LoxValues.Proofs.Layers
import LoxValues.Proofs.RenderingEnds
import Mathlib.Computability.StateTransition
import Mathlib.Data.List.Chain

/-!
# The moments of rendering

All the calls that rendering makes share one list of the arrays being rendered, and each call puts an
array on it and takes it off again.  What a call comes to (`World.render`) does not tell what the list
is like in between.  So rendering is taken apart here into single moments: `Moment.next?` does one
thing at a time — it looks at a value, reads the settings, enters an array, turns to an element, keeps
a text or leaves an array — and what a call would come back to is kept in the moment.

## What is here

* `Renders.reaches` — from the moment at which a value is to be rendered, one moment after another
  comes to that at which its text is there, in the world that rendering leaves.
* `Heap.Stacked` — what holds of the arrays being rendered: there is no repetition and not more of them
  than the bound, the first is the root, and each is an element of the one before.
* `Moment.Sound` — what holds of a moment once the settings have been read.  Every moment hands it on
  to the next (`Moment.Sound.next`).
* `World.rendering_stacked` — **at every moment** the arrays being rendered are stacked, and the records
  made so far say depths within the bound.
-/

set_option autoImplicit false
namespace LoxValues

open Relation (ReflTransGen)
open StateTransition (Reaches)

/-! ## Moments -/

/-- What rendering is at. -/
inductive Focus where
  /-- A value is to be rendered. -/
  | value (v : Value)
  /-- An array that was not being rendered has read how many may be. -/
  | array (a : ArrayRef) (bound : Nat)
  /-- The array entered last goes on with its elements. -/
  | elements
  /-- A text has come out. -/
  | text (s : String)

/-- An array whose elements are being rendered. -/
structure OpenArray where
  /-- The array. -/
  array : ArrayRef
  /-- The texts of the elements rendered so far. -/
  texts : List String
  /-- The elements that have not had their turn. -/
  rest : List Value

/-- A moment of rendering. -/
structure Moment where
  /-- What rendering is at. -/
  focus : Focus
  /-- The arrays it will come back to, the one entered last first. -/
  opened : List OpenArray
  /-- The world. -/
  world : World

namespace Moment

/-- The next moment, if this is not the end. -/
def next? : Moment → Option Moment
  | ⟨.value (.array a), opened, w⟩ =>
    if a ∈ w.rendering then some ⟨.text ellipsis, opened, w.noteRendering "render.cycle"⟩
    else some ⟨.array a w.renderBound.1, opened, w.renderBound.2⟩
  | ⟨.value v, opened, w⟩ => some ⟨.text (w.heap.text v), opened, w⟩
  | ⟨.array a bound, opened, w⟩ =>
    if bound ≤ w.rendering.length then
      some ⟨.text ellipsis, opened, w.noteRendering "render.truncate"⟩
    else some ⟨.elements, ⟨a, [], w.heap.elements a⟩ :: opened, w.inside a⟩
  | ⟨.elements, ⟨a, texts, v :: rest⟩ :: opened, w⟩ =>
    some ⟨.value v, ⟨a, texts, rest⟩ :: opened, w⟩
  | ⟨.elements, ⟨_, texts, []⟩ :: opened, w⟩ => some ⟨.text (bracketed texts), opened, w.outside⟩
  | ⟨.text s, ⟨a, texts, rest⟩ :: opened, w⟩ =>
    some ⟨.elements, ⟨a, texts ++ [s], rest⟩ :: opened, w⟩
  | ⟨.elements, [], _⟩ => none
  | ⟨.text _, [], _⟩ => none

/-- The first moment of rendering a value. -/
def start (v : Value) (w : World) : Moment := ⟨.value v, [], w⟩

/-- The last moment of rendering a value. -/
def finish (v : Value) (w : World) : Moment := ⟨.text (w.render v).1, [], (w.render v).2⟩

section Steps

variable {opened : List OpenArray} {w : World} {a : ArrayRef}

theorem next?_value_of_ne_array {v : Value} (other : ∀ a, v ≠ .array a) :
    next? ⟨.value v, opened, w⟩ = some ⟨.text (w.heap.text v), opened, w⟩ := by
  rw [next?]
  exact fun a array => other a array

theorem next?_value_of_mem (entered : a ∈ w.rendering) :
    next? ⟨.value (.array a), opened, w⟩ =
      some ⟨.text ellipsis, opened, w.noteRendering "render.cycle"⟩ := by
  rw [next?, if_pos entered]

theorem next?_value_of_notMem (new : a ∉ w.rendering) :
    next? ⟨.value (.array a), opened, w⟩ =
      some ⟨.array a w.depthLimit, opened, w.getSettings.2⟩ := by
  rw [next?, if_neg new, World.renderBound_eq]

theorem next?_array_of_full {bound : Nat} (full : bound ≤ w.rendering.length) :
    next? ⟨.array a bound, opened, w⟩ =
      some ⟨.text ellipsis, opened, w.noteRendering "render.truncate"⟩ := by
  rw [next?, if_pos full]

theorem next?_array_of_room {bound : Nat} (room : w.rendering.length < bound) :
    next? ⟨.array a bound, opened, w⟩ =
      some ⟨.elements, ⟨a, [], w.heap.elements a⟩ :: opened, w.inside a⟩ := by
  rw [next?, if_neg (Nat.not_le_of_lt room)]

end Steps

end Moment

/-! ## The moments lead to where rendering ends -/

mutual

/-- Rendering a value goes from moment to moment, whatever it will come back to. -/
theorem Renders.reaches {v : Value} {w after : World} {text : String} :
    Renders v w text after → ∀ opened : List OpenArray,
      Reaches Moment.next? ⟨.value v, opened, w⟩ ⟨.text text, opened, after⟩
  | .plain other, _ => ReflTransGen.single (Moment.next?_value_of_ne_array other)
  | .cycle entered, _ => ReflTransGen.single (Moment.next?_value_of_mem entered)
  | .truncation new full, _ =>
    ReflTransGen.head (Moment.next?_value_of_notMem new)
      (ReflTransGen.single (Moment.next?_array_of_full (w.rendering_getSettings ▸ full)))
  | .elements new room all, opened => by
    refine ReflTransGen.head (Moment.next?_value_of_notMem new) ?_
    refine ReflTransGen.head (Moment.next?_array_of_room (w.rendering_getSettings ▸ room)) ?_
    -- once all texts are there, the array is left
    exact ReflTransGen.tail (all.reaches _ [] opened) rfl

/-- So does rendering the elements of an array one after the other. -/
theorem RendersAll.reaches {vs : List Value} {w after : World} {texts : List String} :
    RendersAll vs w texts after → ∀ (a : ArrayRef) (before : List String) (opened : List OpenArray),
      Reaches Moment.next? ⟨.elements, ⟨a, before, vs⟩ :: opened, w⟩
        ⟨.elements, ⟨a, before ++ texts, []⟩ :: opened, after⟩
  | .nil, _, before, _ => by
    rw [List.append_nil]
    exact ReflTransGen.refl
  | .cons first others, a, before, opened => by
    rw [List.append_cons]
    refine ReflTransGen.head rfl ((first.reaches _).trans ?_)
    exact ReflTransGen.head rfl (others.reaches a _ opened)

end

/-! ## Arrays in one another -/

namespace Heap

variable {h : Heap} {root : Value} {bound : Nat} {stack : List ArrayRef}

/-- What holds of the arrays that are being rendered on the way down from a value, outermost first. -/
structure Stacked (h : Heap) (root : Value) (bound : Nat) (stack : List ArrayRef) : Prop where
  /-- No array is being rendered twice. -/
  nodup : stack.Nodup
  /-- No more are being rendered than may be. -/
  length_le : stack.length ≤ bound
  /-- The first is the value itself. -/
  head : ∀ a ∈ stack.head?, root = .array a
  /-- Each is an element of the one before. -/
  chain : stack.IsChain h.Encloses

/-- A value that may have its turn while these arrays are being rendered: an element of the last of
them, or the root if there are none. -/
structure Ahead (h : Heap) (root : Value) (stack : List ArrayRef) (v : Value) : Prop where
  /-- In no array, it is the root. -/
  outset : stack = [] → root = v
  /-- Otherwise it is an element of the last. -/
  element : ∀ a ∈ stack.getLast?, v ∈ h.elements a

/-- What rendering looks at first has its turn. -/
theorem Ahead.start (root : Value) : h.Ahead root [] root where
  outset _ := rfl
  element := nofun

/-- In an array that is being rendered, its elements have theirs. -/
theorem Ahead.of_element {a : ArrayRef} {v : Value} (mem : v ∈ h.elements a) :
    h.Ahead root (stack ++ [a]) v where
  outset none := absurd none (List.append_ne_nil_of_right_ne_nil _ (List.cons_ne_nil a []))
  element b last := by
    rw [List.getLast?_concat] at last
    obtain rfl : a = b := Option.some.inj last
    exact mem

namespace Stacked

theorem nil : h.Stacked root bound [] where
  nodup := List.nodup_nil
  length_le := Nat.zero_le bound
  head := nofun
  chain := .nil

/-- A new array goes on top if there is room for it. -/
theorem concat {a : ArrayRef} (stacked : h.Stacked root bound stack)
    (ahead : h.Ahead root stack (.array a)) (new : a ∉ stack) (room : stack.length < bound) :
    h.Stacked root bound (stack ++ [a]) where
  nodup := by
    rw [← List.concat_eq_append]
    exact stacked.nodup.concat new
  length_le := by
    rw [List.length_append, List.length_singleton]
    exact room
  head := by
    cases stack with
    | nil =>
      rintro b ⟨⟩
      exact ahead.outset rfl
    | cons => exact stacked.head
  chain := by
    refine List.isChain_append.mpr ⟨stacked.chain, .singleton a, fun b last c top => ?_⟩
    obtain rfl : a = c := Option.some.inj top
    exact ahead.element b last

/-- The array on top can be taken off. -/
theorem of_concat {a : ArrayRef} (stacked : h.Stacked root bound (stack ++ [a])) :
    h.Stacked root bound stack where
  nodup := stacked.nodup.of_append_left
  length_le := by
    have := stacked.length_le
    rw [List.length_append] at this
    omega
  head := by
    cases stack with
    | nil => nofun
    | cons => exact stacked.head
  chain := (List.isChain_append.mp stacked.chain).1

end Stacked
end Heap

/-! ## What holds of every moment -/

/-- The depths at which an array is left out. -/
def Omission.OccursAt (bound depth : Nat) : Omission → Prop
  | .cycle => 1 ≤ depth ∧ depth ≤ bound
  | .truncation => depth = bound

namespace World

variable {w : World} {pieces : List Piece} {stack : List ArrayRef}

/-- The world in the middle of rendering: the settings have been read, there are the records of some
pieces, and some arrays are being rendered. -/
def midway (w : World) (pieces : List Piece) (stack : List ArrayRef) : World :=
  { w.getSettings.2.record pieces with rendering := stack }

theorem heap_midway : (w.midway pieces stack).heap = w.heap := w.heap_getSettings

theorem getSettings_midway :
    (w.midway pieces stack).getSettings = (w.getSettings.1, w.midway pieces stack) :=
  getSettings_of_cached w.cache_getSettings

theorem depthLimit_midway : (w.midway pieces stack).depthLimit = w.depthLimit :=
  depthLimit_of_read w.cache_getSettings w.callLimit_getSettings

theorem noteRendering_midway (why : Omission) :
    (w.midway pieces stack).noteRendering why.event =
      w.midway (pieces ++ [.ellipsis why stack.length]) stack := by
  rw [noteRendering_eq, midway, midway, ← record_record]
  rfl

theorem outside_midway {a : ArrayRef} :
    (w.midway pieces (stack ++ [a])).outside = w.midway pieces stack := by
  show w.midway pieces (stack ++ [a]).dropLast = _
  rw [List.dropLast_concat]

/-- Where nothing is being rendered, rendering starts from the settings with nothing else done. -/
theorem getSettings_eq_midway (idle : w.rendering = []) : w.getSettings.2 = w.midway [] [] := by
  rw [midway, record_nil, ← idle, ← w.rendering_getSettings]

end World

/-- The arrays to come back to, outermost first. -/
def pathOf (opened : List OpenArray) : List ArrayRef := (opened.map OpenArray.array).reverse

theorem pathOf_cons (o : OpenArray) (opened : List OpenArray) :
    pathOf (o :: opened) = pathOf opened ++ [o.array] :=
  List.reverse_cons

/-- What holds while an array is rendered, once the settings have been read: of the arrays that
rendering will come back to, and of the world. -/
structure Underway (w : World) (root : Value) (opened : List OpenArray) (now : World) : Prop where
  /-- The arrays are stacked. -/
  stacked : w.heap.Stacked root w.depthLimit (pathOf opened)
  /-- What has not had its turn is among their elements. -/
  rest : ∀ o ∈ opened, o.rest ⊆ w.heap.elements o.array
  /-- They are what the world says is being rendered, and the records are of arrays left out. -/
  world : ∃ pieces, now = w.midway pieces (pathOf opened) ∧
    ∀ why depth, .ellipsis why depth ∈ pieces → why.OccursAt w.depthLimit depth

/-- What the heap and the arrays being rendered have to do with what rendering is at. -/
def Focus.Fits (w : World) (root : Value) (stack : List ArrayRef) : Focus → Prop
  | .value v => w.heap.Ahead root stack v
  | .array a bound => w.heap.Ahead root stack (.array a) ∧ a ∉ stack ∧ bound = w.depthLimit
  | .elements => True
  | .text _ => True

namespace Underway

variable {w now : World} {root : Value} {opened : List OpenArray} {o : OpenArray} {a : ArrayRef}

theorem rendering_eq (u : Underway w root opened now) : now.rendering = pathOf opened := by
  obtain ⟨pieces, rfl, -⟩ := u.world
  rfl

theorem heap_eq (u : Underway w root opened now) : now.heap = w.heap := by
  obtain ⟨pieces, rfl, -⟩ := u.world
  exact w.heap_midway

theorem getSettings_eq (u : Underway w root opened now) : now.getSettings.2 = now := by
  obtain ⟨pieces, rfl, -⟩ := u.world
  rw [World.getSettings_midway]

theorem depthLimit_eq (u : Underway w root opened now) : now.depthLimit = w.depthLimit := by
  obtain ⟨pieces, rfl, -⟩ := u.world
  exact w.depthLimit_midway

/-- An array is left out. -/
theorem leaveOut (u : Underway w root opened now) (why : Omission)
    (occurs : why.OccursAt w.depthLimit (pathOf opened).length) :
    Underway w root opened (now.noteRendering why.event) := by
  obtain ⟨pieces, rfl, within⟩ := u.world
  refine ⟨u.stacked, u.rest, _, w.noteRendering_midway why, fun why' depth mem => ?_⟩
  rcases List.mem_append.mp mem with before | new
  · exact within why' depth before
  · cases List.mem_singleton.mp new
    exact occurs

/-- An array is entered. -/
theorem enter (u : Underway w root opened now) (ahead : w.heap.Ahead root (pathOf opened) (.array a))
    (new : a ∉ pathOf opened) (room : (pathOf opened).length < w.depthLimit) :
    Underway w root (⟨a, [], now.heap.elements a⟩ :: opened) (now.inside a) := by
  obtain ⟨pieces, same, within⟩ := u.world
  refine ⟨?_, List.forall_mem_cons.mpr ⟨?_, u.rest⟩, pieces, ?_, within⟩
  · rw [pathOf_cons]
    exact u.stacked.concat ahead new room
  · rw [u.heap_eq]
    exact List.Subset.refl _
  · rw [same, pathOf_cons]
    rfl

/-- The array entered last is left. -/
theorem leave (u : Underway w root (o :: opened) now) : Underway w root opened now.outside := by
  obtain ⟨pieces, same, within⟩ := u.world
  refine ⟨?_, (List.forall_mem_cons.mp u.rest).2, pieces, ?_, within⟩
  · exact (pathOf_cons o opened ▸ u.stacked).of_concat
  · rw [same, pathOf_cons, World.outside_midway]

/-- The array entered last goes on to other elements of it. -/
theorem goOn (u : Underway w root (o :: opened) now) (texts : List String) {rest : List Value}
    (sub : rest ⊆ o.rest) : Underway w root (⟨o.array, texts, rest⟩ :: opened) now := by
  obtain ⟨still, others⟩ := List.forall_mem_cons.mp u.rest
  refine ⟨?_, List.forall_mem_cons.mpr ⟨List.Subset.trans sub still, others⟩, ?_⟩
  · exact pathOf_cons o opened ▸ pathOf_cons _ opened ▸ u.stacked
  · exact u.world

end Underway

/-- What holds of every moment at which the settings have been read. -/
structure Moment.Sound (w : World) (root : Value) (m : Moment) : Prop where
  /-- Rendering is under way. -/
  underway : Underway w root m.opened m.world
  /-- What it is at has its turn. -/
  focus : m.focus.Fits w root (pathOf m.opened)

/-- **Every moment hands on to the next what holds of it.** -/
theorem Moment.Sound.next {w : World} {root : Value} {m n : Moment} (sound : m.Sound w root)
    (step : m.next? = some n) : n.Sound w root := by
  obtain ⟨focus, opened, now⟩ := m
  obtain ⟨u, fits⟩ := sound
  cases focus with
  | value v =>
    rcases v.array_or_other with ⟨a, rfl⟩ | other
    · by_cases entered : a ∈ now.rendering
      · rw [next?_value_of_mem entered] at step
        cases step
        rw [u.rendering_eq] at entered
        have pos : 1 ≤ (pathOf opened).length := List.length_pos_of_mem entered
        exact ⟨u.leaveOut .cycle ⟨pos, u.stacked.length_le⟩, trivial⟩
      · rw [next?_value_of_notMem entered, u.getSettings_eq, u.depthLimit_eq] at step
        cases step
        exact ⟨u, fits, u.rendering_eq ▸ entered, rfl⟩
    · rw [next?_value_of_ne_array other] at step
      cases step
      exact ⟨u, trivial⟩
  | array a bound =>
    obtain ⟨ahead, new, rfl⟩ := fits
    rcases Nat.lt_or_ge now.rendering.length w.depthLimit with room | full
    · rw [next?_array_of_room room] at step
      cases step
      exact ⟨u.enter ahead new (u.rendering_eq ▸ room), trivial⟩
    · rw [next?_array_of_full full] at step
      cases step
      rw [u.rendering_eq] at full
      -- there are never more than the bound, so there are exactly as many
      exact ⟨u.leaveOut .truncation (Nat.le_antisymm u.stacked.length_le full), trivial⟩
  | elements =>
    rcases opened with _ | ⟨⟨a, texts, _ | ⟨v, rest⟩⟩, opened⟩
    · cases step
    · cases step
      exact ⟨u.leave, trivial⟩
    · cases step
      have element : v ∈ w.heap.elements a := (List.forall_mem_cons.mp u.rest).1 List.mem_cons_self
      refine ⟨u.goOn texts (List.subset_cons_self v rest), ?_⟩
      rw [pathOf_cons]
      exact .of_element element
  | text s =>
    rcases opened with _ | ⟨⟨a, texts, rest⟩, opened⟩
    · cases step
    · cases step
      exact ⟨u.goOn _ (List.Subset.refl rest), trivial⟩

theorem Moment.Sound.of_reaches {w : World} {root : Value} {m n : Moment} (sound : m.Sound w root)
    (reach : Reaches Moment.next? m n) : n.Sound w root := by
  induction reach with
  | refl => exact sound
  | tail _ step ih => exact ih.next step

/-- Until the settings are read the world is as it was at the start, and from then on every moment is
sound. -/
theorem Moment.unchanged_or_sound {w : World} (idle : w.rendering = []) {v : Value} {m : Moment}
    (reach : Reaches Moment.next? (.start v w) m) : m.world = w ∨ m.Sound w v := by
  rcases ReflTransGen.cases_head reach with rfl | ⟨n, step, onward⟩
  · exact .inl rfl
  · rcases v.array_or_other with ⟨a, rfl⟩ | other
    · have new : a ∉ w.rendering := by simp [idle]
      cases (next?_value_of_notMem new).symm.trans step
      have underway : Underway w (.array a) [] w.getSettings.2 :=
        ⟨.nil, List.forall_mem_nil _, [], World.getSettings_eq_midway idle, nofun⟩
      have sound : Moment.Sound w (.array a) ⟨.array a w.depthLimit, [], w.getSettings.2⟩ :=
        ⟨underway, .start _, List.not_mem_nil, rfl⟩
      exact .inr (sound.of_reaches onward)
    · cases (next?_value_of_ne_array other).symm.trans step
      rcases ReflTransGen.cases_head onward with rfl | ⟨n, none, -⟩
      · exact .inl rfl
      · cases none

/-! ## Rendering -/

/-- The records of arrays that are left out say where that may happen. -/
theorem Piece.eq_of_mem_recordsOf {pieces : List Piece} {bound : Nat} {r : Record}
    (within : ∀ why depth, .ellipsis why depth ∈ pieces → why.OccursAt bound depth)
    (mem : r ∈ recordsOf pieces) :
    (∃ depth, 1 ≤ depth ∧ depth ≤ bound ∧
      r = ⟨.debug, "loxrt.eval.value", "render.cycle depth=" ++ Nat.repr depth⟩) ∨
    r = ⟨.debug, "loxrt.eval.value", "render.truncate depth=" ++ Nat.repr bound⟩ := by
  obtain ⟨piece, written, record⟩ := List.mem_filterMap.mp mem
  rcases piece with s | ⟨_ | _, depth⟩
  · cases record
  · obtain ⟨pos, le⟩ := within .cycle depth written
    exact .inl ⟨depth, pos, le, (Option.some.inj record).symm⟩
  · obtain rfl : depth = bound := within .truncation depth written
    exact .inr (Option.some.inj record).symm

namespace World

/-- **At every moment of rendering, the arrays being rendered are stacked.**  When nothing is being
rendered, the moments of rendering a value lead, one after the other, to the text and the world that
`World.render` gives.  At each of them no array is being rendered twice, no more are being rendered than
the settings and the host allow, the first is the value, and each is an element of the one before.
Nothing else in the world has changed, but that the settings may have been read and records made: of
arrays that come back to themselves, with a depth from one to that bound, and of arrays left out for
their depth, which is the bound. -/
theorem rendering_stacked {w : World} (idle : w.rendering = []) (v : Value) :
    Moment.finish v w ∈ StateTransition.eval Moment.next? (.start v w) ∧
    ∀ m, Reaches Moment.next? (.start v w) m →
      w.heap.Stacked v w.depthLimit m.world.rendering ∧
      ∃ before records, (before = w ∨ before = w.getSettings.2) ∧
        m.world = { before with
          rendering := m.world.rendering
          log := before.log.offerDebug records } ∧
        ∀ r ∈ records,
          (∃ depth, 1 ≤ depth ∧ depth ≤ w.depthLimit ∧
            r = ⟨.debug, "loxrt.eval.value", "render.cycle depth=" ++ Nat.repr depth⟩) ∨
          r = ⟨.debug, "loxrt.eval.value", "render.truncate depth=" ++ Nat.repr w.depthLimit⟩ := by
  have most := w.depthLimit_le_deepestRendering
  have ends : Renders v w (w.render v).1 (w.render v).2 :=
    renders_renderWithin (by omega) (Nat.succ_pos _)
  refine ⟨StateTransition.mem_eval.mpr ⟨ends.reaches [], rfl⟩, fun m reach => ?_⟩
  rcases Moment.unchanged_or_sound idle reach with same | ⟨u, -⟩
  · rw [same, idle]
    refine ⟨.nil, w, [], .inl rfl, ?_, List.forall_mem_nil _⟩
    rw [← idle]
    exact w.record_nil.symm
  · have rendering := u.rendering_eq
    obtain ⟨pieces, world, within⟩ := u.world
    rw [rendering]
    refine ⟨u.stacked, _, Piece.recordsOf pieces, .inr rfl, world, fun r mem => ?_⟩
    exact Piece.eq_of_mem_recordsOf within mem

/-- A world that shows two arrays in one another, with an array that holds another one, which holds the
first and a third. -/
def cramped : World :=
  { fresh .empty none .listening with
    heap := { Heap.empty with
      arrays := [⟨1, [.array ⟨1⟩]⟩, ⟨2, [.array ⟨0⟩, .array ⟨2⟩]⟩, ⟨1, [.nil]⟩] }
    cache := some ⟨"info", 2⟩ }

/-- When the third array has its turn, the first two are being rendered, and it has been recorded that
the first came back to itself. -/
theorem cramped_stacked : ∃ m, Reaches Moment.next? (.start (.array ⟨0⟩) cramped) m ∧
    m.focus = .value (.array ⟨2⟩) ∧
    m.world.log.written.map (·.message) = ["render.cycle depth=2"] ∧
    cramped.heap.Stacked (.array ⟨0⟩) 2 [⟨0⟩, ⟨1⟩] := by
  have reach : Reaches Moment.next? (.start (.array ⟨0⟩) cramped) _ :=
    .head rfl (.head rfl (.head rfl (.head rfl (.head rfl (.head rfl (.head rfl (.head rfl
      (.single rfl))))))))
  obtain ⟨-, every⟩ := rendering_stacked (w := cramped) rfl (.array ⟨0⟩)
  exact ⟨_, reach, rfl, by decide, (every _ reach).1⟩

end World
end LoxValues
