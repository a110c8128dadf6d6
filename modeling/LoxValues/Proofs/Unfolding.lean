import LoxValues.Proofs.Frame
import LoxValues.World.Rendering

/-!
# Rendering and the unfolding of a value

Rendering keeps one list of arrays for all the calls it makes.  What it writes can be told without
such a list, from the *path* of each array: the arrays around it, from the root down.

## What is here

* `Heap.unfolding` — the pieces that a value consists of when it is unfolded as a tree.  An array is
  an ellipsis where it is on its own path, or else where the path is as long as the bound, and
  otherwise its elements between brackets.
* `Piece.textOf` and `Piece.recordsOf` — what the pieces say, and the records that their ellipses
  leave, in order.
* `World.renderWithin_eq` — rendering in the middle of other arrays gives the text of the unfolding
  along these, and offers its records to the log.
* `World.render_eq_unfolding` — the same from the root, whether or not the settings have been read.
-/

set_option autoImplicit false
namespace LoxValues

/-! ## Pieces -/

/-- Why the elements of an array are not shown. -/
inductive Omission where
  /-- The array is one of those around it. -/
  | cycle
  /-- There are as many arrays around it as there may be. -/
  | truncation
  deriving DecidableEq

/-- What the record of an omission says in front of the depth. -/
def Omission.event : Omission → String
  | .cycle => "render.cycle"
  | .truncation => "render.truncate"

/-- A piece of what is written for a value. -/
inductive Piece where
  /-- A text as it is. -/
  | plain (s : String)
  /-- What stands for an array with so many arrays around it. -/
  | ellipsis (why : Omission) (depth : Nat)
  deriving DecidableEq

namespace Piece

/-- The text of a piece. -/
def text : Piece → String
  | .plain s => s
  | .ellipsis _ _ => LoxValues.ellipsis

/-- The record that a piece leaves. -/
def record? : Piece → Option Record
  | .plain _ => none
  | .ellipsis why depth =>
    some ⟨.debug, "loxrt.eval.value", why.event ++ " depth=" ++ Nat.repr depth⟩

/-- The text of pieces. -/
def textOf (pieces : List Piece) : String := String.join (pieces.map text)

/-- The records that pieces leave, in order. -/
def recordsOf (pieces : List Piece) : List Record := pieces.filterMap record?

/-- Lists of pieces between brackets, with commas between the lists. -/
def bracket (parts : List (List Piece)) : List Piece :=
  .plain "[" :: [.plain ", "].intercalate parts ++ [.plain "]"]

theorem textOf_cons (p : Piece) (ps : List Piece) : textOf (p :: ps) = p.text ++ textOf ps := by
  rw [textOf, List.map_cons, String.join_cons, textOf]

theorem textOf_append (ps qs : List Piece) : textOf (ps ++ qs) = textOf ps ++ textOf qs := by
  rw [textOf, List.map_append, String.join_append, textOf, textOf]

theorem textOf_plain (s : String) : textOf [.plain s] = s := by
  rw [textOf_cons]
  exact String.append_empty

theorem recordsOf_nil : recordsOf [] = [] := rfl

theorem recordsOf_plain (s : String) (ps : List Piece) :
    recordsOf (.plain s :: ps) = recordsOf ps := rfl

theorem recordsOf_append (ps qs : List Piece) : recordsOf (ps ++ qs) = recordsOf ps ++ recordsOf qs :=
  List.filterMap_append

theorem textOf_intercalate (parts : List (List Piece)) :
    textOf ([.plain ", "].intercalate parts) = ", ".intercalate (parts.map textOf) := by
  induction parts with
  | nil => rfl
  | cons part parts ih =>
    cases parts with
    | nil => simp
    | cons next parts =>
      rw [List.intercalate_cons_cons, textOf_append, textOf_append, ih, List.map_cons, List.map_cons,
        List.map_cons, String.intercalate_cons_cons]
      rfl

theorem recordsOf_intercalate (parts : List (List Piece)) :
    recordsOf ([.plain ", "].intercalate parts) = recordsOf parts.flatten := by
  induction parts with
  | nil => rfl
  | cons part parts ih =>
    cases parts with
    | nil => simp
    | cons next parts =>
      rw [List.intercalate_cons_cons, recordsOf_append, recordsOf_append, ih, recordsOf_plain,
        recordsOf_nil, List.append_nil, ← recordsOf_append]
      rfl

theorem textOf_bracket (parts : List (List Piece)) :
    textOf (bracket parts) = bracketed (parts.map textOf) := by
  rw [bracket, List.cons_append, textOf_cons, textOf_append, textOf_intercalate, bracketed,
    String.append_assoc]
  rfl

theorem recordsOf_bracket (parts : List (List Piece)) :
    recordsOf (bracket parts) = recordsOf parts.flatten := by
  rw [bracket, List.cons_append, recordsOf_plain, recordsOf_append, recordsOf_intercalate,
    recordsOf_plain, recordsOf_nil, List.append_nil]

theorem mem_of_ellipsis_mem_bracket {why : Omission} {depth : Nat} {parts : List (List Piece)}
    (mem : .ellipsis why depth ∈ bracket parts) : ∃ part ∈ parts, .ellipsis why depth ∈ part := by
  have inner : .ellipsis why depth ∈ [.plain ", "].intercalate parts := by
    simpa [bracket] using mem
  clear mem
  induction parts with
  | nil => cases inner
  | cons part parts ih =>
    cases parts with
    | nil => exact ⟨part, List.mem_cons_self, by simpa using inner⟩
    | cons next parts =>
      rw [List.intercalate_cons_cons, List.append_assoc, List.mem_append, List.singleton_append,
        List.mem_cons] at inner
      rcases inner with here | separator | later
      · exact ⟨part, List.mem_cons_self, here⟩
      · cases separator
      · obtain ⟨found, mem, inFound⟩ := ih later
        exact ⟨found, List.mem_cons_of_mem _ mem, inFound⟩

end Piece

/-! ## Unfolding -/

/-- The pieces of a value, where an array is reached through the arrays of `path`, outermost first. -/
def Heap.unfolding (h : Heap) (bound : Nat) (path : List ArrayRef) : Value → List Piece
  | .array a =>
    if a ∈ path then [.ellipsis .cycle path.length]
    else if bound ≤ path.length then [.ellipsis .truncation path.length]
    else Piece.bracket ((h.elements a).map fun v => h.unfolding bound (path ++ [a]) v)
  | v => [.plain (h.text v)]
  termination_by bound - path.length
  decreasing_by
    rw [List.length_append, List.length_singleton]
    omega

/-- Two heaps agree on the names of functions, with their parameters, of classes and of traits, and on
the classes of objects. -/
structure Heap.SameNames (g h : Heap) : Prop where
  /-- The functions have the same names and parameters. -/
  functions : ∀ f, (g.function? f).map (fun r => (r.name, r.params)) =
    (h.function? f).map fun r => (r.name, r.params)
  /-- The classes have the same names. -/
  classes : ∀ c, (g.class? c).map (·.name) = (h.class? c).map (·.name)
  /-- The objects have the same classes. -/
  objects : ∀ o, (g.object? o).map (·.cls) = (h.object? o).map (·.cls)
  /-- The traits have the same names. -/
  traits : ∀ t, (g.trait? t).map (·.name) = (h.trait? t).map (·.name)

/-- The text of a function says its name and its parameters. -/
theorem FunctionRecord.map_text {r s : Option FunctionRecord}
    (same : r.map (fun r => (r.name, r.params)) = s.map fun r => (r.name, r.params)) :
    r.map FunctionRecord.text = s.map FunctionRecord.text := by
  have := congrArg (Option.map fun p => "<fn " ++ callText p.1 p.2 ++ ">") same
  rwa [Option.map_map, Option.map_map] at this

theorem FunctionRecord.map_name {r s : Option FunctionRecord}
    (same : r.map (fun r => (r.name, r.params)) = s.map fun r => (r.name, r.params)) :
    r.map (·.name) = s.map (·.name) := by
  have := congrArg (Option.map Prod.fst) same
  rwa [Option.map_map, Option.map_map] at this

namespace Heap

/-- Two heaps agree on what the text of a value on its own says: on the name and the parameters of a
function, the name of a class or trait, the name of an object's class, and the two names of a
method. -/
def SameLabels (g h : Heap) : Value → Prop
  | .function f => (g.function? f).map (fun r => (r.name, r.params)) =
      (h.function? f).map fun r => (r.name, r.params)
  | .method f o => (g.function? f).map (·.name) = (h.function? f).map (·.name) ∧
      g.classNameOf o = h.classNameOf o
  | .cls c => g.className c = h.className c
  | .object o => g.classNameOf o = h.classNameOf o
  | .trait t => (g.trait? t).map (·.name) = (h.trait? t).map (·.name)
  | _ => True

theorem text_eq_of_sameLabels {g h : Heap} {v : Value} (same : g.SameLabels h v) :
    g.text v = h.text v := by
  cases v with
  | function f => rw [text, text, FunctionRecord.map_text same]
  | method f o => rw [text, text, same.1, same.2]
  | cls c => exact same
  | object o =>
    have cls : g.classNameOf o = h.classNameOf o := same
    rw [text, text, cls]
  | trait t =>
    have name : (g.trait? t).map (·.name) = (h.trait? t).map (·.name) := same
    rw [text, text, name]
  | bool b => cases b <;> rfl
  | _ => rfl

theorem SameNames.className {g h : Heap} (same : g.SameNames h) (c : ClassRef) :
    g.className c = h.className c := by
  rw [Heap.className, Heap.className, same.classes]

theorem SameNames.classNameOf {g h : Heap} (same : g.SameNames h) (o : ObjectRef) :
    g.classNameOf o = h.classNameOf o := by
  have cls := congrArg (Option.map g.className) (same.objects o)
  rw [Option.map_map, Option.map_map, funext same.className] at cls
  rw [Heap.classNameOf, Heap.classNameOf, funext same.className]
  exact congrArg (Option.getD · "") cls

theorem SameNames.sameLabels {g h : Heap} (same : g.SameNames h) (v : Value) :
    g.SameLabels h v := by
  cases v with
  | function f => exact same.functions f
  | method f o => exact ⟨FunctionRecord.map_name (same.functions f), same.classNameOf o⟩
  | cls c => exact same.className c
  | object o => exact same.classNameOf o
  | trait t => exact same.traits t
  | _ => trivial

/-- The text of a value on its own depends on names only: not on elements, fields or closures. -/
theorem text_eq_of_sameNames {g h : Heap} (same : g.SameNames h) (v : Value) :
    g.text v = h.text v :=
  text_eq_of_sameLabels (same.sameLabels v)

end Heap

/-- A value is an array or it is not. -/
theorem Value.array_or_other (v : Value) : (∃ a, v = .array a) ∨ ∀ a, v ≠ .array a := by
  cases v with
  | array a => exact .inl ⟨a, rfl⟩
  | _ => exact .inr nofun

theorem Heap.unfolding_of_ne_array {h : Heap} {bound : Nat} {path : List ArrayRef} {v : Value}
    (other : ∀ a, v ≠ .array a) : h.unfolding bound path v = [.plain (h.text v)] := by
  rw [unfolding]
  exact other

/-- From a path within the bound on, only arrays with as many arrays around them as there may be are
cut off for that reason. -/
theorem Heap.depth_of_truncation {h : Heap} {bound : Nat} {path : List ArrayRef} {v : Value}
    {depth : Nat} (within : path.length ≤ bound)
    (mem : .ellipsis .truncation depth ∈ h.unfolding bound path v) : depth = bound := by
  induction path, v using Heap.unfolding.induct bound with
  | case1 path a onPath =>
    rw [unfolding, if_pos onPath, List.mem_singleton] at mem
    cases mem
  | case2 path a offPath full =>
    rw [unfolding, if_neg offPath, if_pos full, List.mem_singleton] at mem
    cases mem
    exact Nat.le_antisymm within full
  | case3 path a offPath room ih =>
    rw [unfolding, if_neg offPath, if_neg room] at mem
    obtain ⟨part, elements, inPart⟩ := Piece.mem_of_ellipsis_mem_bracket mem
    obtain ⟨v, -, rfl⟩ := List.mem_map.mp elements
    refine ih v ?_ inPart
    rw [List.length_append, List.length_singleton]
    omega
  | case4 path v other =>
    rw [unfolding_of_ne_array other, List.mem_singleton] at mem
    cases mem

namespace Log

/-- The log after records for debugging, which are not made if no sink hears them. -/
def offerDebug (l : Log) (rs : List Record) : Log := if l.hears .debug then rs.foldl offer l else l

theorem offerDebug_append (l : Log) (rs ss : List Record) :
    l.offerDebug (rs ++ ss) = (l.offerDebug rs).offerDebug ss := by
  have hears := hears_eq_of_setup (setup_foldl setup_offer rs l) .debug
  cases heard : l.hears .debug with
  | true => simp [offerDebug, heard, hears]
  | false => simp [offerDebug, heard]

@[simp] theorem setup_offerDebug (l : Log) (rs : List Record) :
    (l.offerDebug rs).setup = l.setup := by
  rw [offerDebug]
  split
  · exact setup_foldl setup_offer rs l
  · rfl

end Log

namespace World

/-! ## Rendering in the middle of other arrays -/

/-- The world after the records of some pieces. -/
def record (w : World) (pieces : List Piece) : World :=
  { w with log := w.log.offerDebug (Piece.recordsOf pieces) }

theorem record_nil (w : World) : w.record [] = w := by
  simp [record, Log.offerDebug, Piece.recordsOf_nil]

theorem record_plain (w : World) (s : String) : w.record [.plain s] = w := record_nil w

theorem record_record (w : World) (ps qs : List Piece) :
    (w.record ps).record qs = w.record (ps ++ qs) := by
  rw [record, record, record, Piece.recordsOf_append, Log.offerDebug_append]

theorem record_bracket (w : World) (parts : List (List Piece)) :
    w.record (Piece.bracket parts) = w.record parts.flatten := by
  rw [record, record, Piece.recordsOf_bracket]

theorem noteRendering_eq (why : Omission) (w : World) :
    w.noteRendering why.event = w.record [.ellipsis why w.rendering.length] := by
  rw [noteRendering, note_eq, record, Log.offerDebug]
  rfl

/-- Values rendered one after the other give their texts, and the records of all of them in order,
where each on its own gives a text and leaves records. -/
theorem renderAll_eq {render : Value → World → String × World} {w : World}
    {pieces : Value → List Piece}
    (each : ∀ v ps, render v (w.record ps) =
      (Piece.textOf (pieces v), (w.record ps).record (pieces v)))
    (vs : List Value) (ps : List Piece) :
    renderAll render vs (w.record ps) =
      (vs.map fun v => Piece.textOf (pieces v), (w.record ps).record (vs.map pieces).flatten) := by
  induction vs generalizing ps with
  | nil => simp [renderAll, record_nil]
  | cons v vs ih =>
    simp only [renderAll, each, record_record, ih, List.map_cons, List.flatten_cons,
      List.append_assoc]

/-- How many arrays may be rendered inside one another, by the settings and by the host. -/
def depthLimit (w : World) : Nat := min w.getSettings.1.maxRenderDepth (w.callLimit / 8)

theorem renderBound_eq (w : World) : w.renderBound = (w.depthLimit, w.getSettings.2) := by
  simp only [renderBound, depthLimit, deepestRendering, callLimit_getSettings]

theorem depthLimit_of_cached {w : World} {s : Settings} (cached : w.cache = some s) :
    w.depthLimit = min s.maxRenderDepth (w.callLimit / 8) := by
  rw [depthLimit, getSettings_of_cached cached]

/-- Where the settings of a world have been read and as many calls may nest, so may as many arrays. -/
theorem depthLimit_of_read {w now : World} (read : now.cache = some w.getSettings.1)
    (limit : now.callLimit = w.callLimit) : now.depthLimit = w.depthLimit := by
  rw [depthLimit_of_cached read, limit, depthLimit]

theorem renderWithin_of_ne_array {v : Value} (other : ∀ a, v ≠ .array a) (levels : Nat) (w : World) :
    renderWithin levels v w = (w.heap.text v, w) := by
  rw [renderWithin]
  exact fun _ a _ array => other a array

/-- The world while the elements of an array are rendered. -/
def inside (w : World) (a : ArrayRef) : World := { w with rendering := w.rendering ++ [a] }

/-- An array that is being rendered already. -/
theorem renderArray_of_mem {render : Value → World → String × World} {w : World} {a : ArrayRef}
    (onPath : a ∈ w.rendering) :
    renderArray render a w =
      (Piece.textOf [.ellipsis .cycle w.rendering.length],
        w.record [.ellipsis .cycle w.rendering.length]) := by
  rw [renderArray, if_pos onPath]
  exact congrArg (Prod.mk _) (noteRendering_eq .cycle w)

/-- An array, once the settings have been read, where each of its elements gives the text of some
pieces and leaves their records. -/
theorem renderArray_eq {render : Value → World → String × World} {w : World} {s : Settings}
    {a : ArrayRef} {pieces : Value → List Piece} (cached : w.cache = some s)
    (each : w.rendering.length < w.depthLimit → ∀ v ps, render v ((w.inside a).record ps) =
      (Piece.textOf (pieces v), ((w.inside a).record ps).record (pieces v)))
    {written : List Piece}
    (rule : written =
      if a ∈ w.rendering then [.ellipsis .cycle w.rendering.length]
      else if w.depthLimit ≤ w.rendering.length then [.ellipsis .truncation w.rendering.length]
      else Piece.bracket ((w.heap.elements a).map pieces)) :
    renderArray render a w = (Piece.textOf written, w.record written) := by
  subst rule
  by_cases onPath : a ∈ w.rendering
  · rw [if_pos onPath, renderArray_of_mem onPath]
  · rw [renderArray, if_neg onPath, if_neg onPath, renderBound_eq, getSettings_of_cached cached]
    dsimp only
    by_cases full : w.depthLimit ≤ w.rendering.length
    · rw [if_pos full, if_pos full]
      exact congrArg (Prod.mk _) (noteRendering_eq .truncation w)
    · rw [if_neg full, if_neg full]
      have all := renderAll_eq (each (Nat.lt_of_not_le full)) (w.heap.elements a) []
      rw [record_nil, inside] at all
      rw [all, Piece.textOf_bracket, List.map_map, record_bracket]
      show (_, { w.record _ with rendering := (w.rendering ++ [a]).dropLast }) = _
      rw [List.dropLast_concat]
      rfl

/-- **Rendering in the middle of other arrays** gives the unfolding along these, once the settings
have been read and if there are levels left for as many arrays as there may be. -/
theorem renderWithin_eq {levels : Nat} {v : Value} {w : World} {s : Settings}
    (cached : w.cache = some s) (levelsPos : 0 < levels)
    (enough : w.depthLimit < w.rendering.length + levels) :
    renderWithin levels v w =
      (Piece.textOf (w.heap.unfolding w.depthLimit w.rendering v),
        w.record (w.heap.unfolding w.depthLimit w.rendering v)) := by
  induction levels generalizing v w with
  | zero => omega
  | succ levels ih =>
    rcases v.array_or_other with ⟨a, rfl⟩ | other
    · rw [renderWithin]
      refine renderArray_eq cached (fun room v ps => ?_) (by rw [Heap.unfolding])
      have sameLimit : ((w.inside a).record ps).depthLimit = w.depthLimit :=
        (depthLimit_of_cached (w := (w.inside a).record ps) cached).trans
          (depthLimit_of_cached cached).symm
      have longer : ((w.inside a).record ps).rendering.length = w.rendering.length + 1 :=
        List.length_append
      have deeper := ih (v := v) (w := (w.inside a).record ps) cached
      rw [sameLimit, longer] at deeper
      exact deeper (by omega) (by omega)
    · rw [renderWithin_of_ne_array other, Heap.unfolding_of_ne_array other, Piece.textOf_plain,
        record_plain]

/-! ## Rendering -/

/-- The world once rendering a value has read the settings, which only an array needs. -/
def prepared (w : World) (v : Value) : World :=
  match v with
  | .array a => if a ∈ w.rendering then w else w.getSettings.2
  | _ => w

theorem prepared_of_ne_array {v : Value} (other : ∀ a, v ≠ .array a) (w : World) :
    w.prepared v = w := by
  rw [prepared]
  exact other

theorem prepared_cases (w : World) (v : Value) : w.prepared v = w ∨ w.prepared v = w.getSettings.2 := by
  cases v with
  | array a =>
    by_cases onPath : a ∈ w.rendering
    · exact .inl (if_pos onPath)
    · exact .inr (if_neg onPath)
  | _ => exact .inl rfl

theorem prepared_of_cached {w : World} {s : Settings} (cached : w.cache = some s) (v : Value) :
    w.prepared v = w := by
  rcases w.prepared_cases v with same | read
  · exact same
  · rw [read, getSettings_of_cached cached]

theorem setup_prepared (w : World) (v : Value) : (w.prepared v).log.setup = w.log.setup := by
  rcases w.prepared_cases v with same | read
  · rw [same]
  · rw [read, setup_getSettings]

theorem depthLimit_getSettings (w : World) : w.getSettings.2.depthLimit = w.depthLimit :=
  depthLimit_of_read w.cache_getSettings w.callLimit_getSettings

/-- An array that is not being rendered reads the settings before everything else. -/
theorem render_getSettings {w : World} {a : ArrayRef} (offPath : a ∉ w.rendering) :
    w.getSettings.2.render (.array a) = w.render (.array a) := by
  have offPath' : a ∉ w.getSettings.2.rendering := by rwa [w.rendering_getSettings]
  have again := getSettings_of_cached w.cache_getSettings
  rw [render, render, renderWithin, renderWithin, renderArray, renderArray, if_neg offPath,
    if_neg offPath', renderBound_eq, renderBound_eq, again, w.depthLimit_getSettings,
    deepestRendering, deepestRendering, w.callLimit_getSettings]

/-- **Rendering a value gives its unfolding** along the arrays that are being rendered. -/
theorem render_eq (w : World) (v : Value) :
    w.render v =
      (Piece.textOf (w.heap.unfolding w.depthLimit w.rendering v),
        (w.prepared v).record (w.heap.unfolding w.depthLimit w.rendering v)) := by
  rcases v.array_or_other with ⟨a, rfl⟩ | other
  · rw [prepared]
    by_cases onPath : a ∈ w.rendering
    · rw [if_pos onPath, Heap.unfolding, if_pos onPath, render, renderWithin,
        renderArray_of_mem onPath]
    · rw [if_neg onPath, ← render_getSettings onPath, render]
      have enough : w.getSettings.2.depthLimit < w.getSettings.2.rendering.length +
          (w.getSettings.2.deepestRendering + 1) := by
        have := Nat.min_le_right w.getSettings.2.getSettings.1.maxRenderDepth
          (w.getSettings.2.callLimit / 8)
        rw [depthLimit, deepestRendering]
        omega
      rw [renderWithin_eq w.cache_getSettings (Nat.succ_pos _) enough, w.depthLimit_getSettings,
        w.heap_getSettings, w.rendering_getSettings]
  · rw [render, renderWithin_of_ne_array other, prepared_of_ne_array other,
      Heap.unfolding_of_ne_array other, Piece.textOf_plain, record_plain]

/-! ## Rendering from the root -/

/-- **Rendering equals its path specification.**  When nothing is being rendered, rendering a value
gives the text of its unfolding from the root.  A log that hears debugging is offered one record for
each ellipsis, in the order of the text, and otherwise nothing changes once the settings have been
read.  What is cut off for its depth is at the bound, and a value other than an array is written
from the names alone. -/
theorem render_eq_unfolding {w : World} {v : Value} (idle : w.rendering = []) :
    (w.render v).1 = Piece.textOf (w.heap.unfolding w.depthLimit [] v) ∧
    (w.log.hears .debug = true → (w.render v).2 =
      { w.prepared v with
        log := (Piece.recordsOf (w.heap.unfolding w.depthLimit [] v)).foldl Log.offer
          (w.prepared v).log }) ∧
    (w.log.hears .debug = false → (w.render v).2 = w.prepared v) ∧
    (∀ s, w.cache = some s →
      w.depthLimit = min s.maxRenderDepth (w.callLimit / 8) ∧ w.prepared v = w) ∧
    (∀ depth, .ellipsis .truncation depth ∈ w.heap.unfolding w.depthLimit [] v →
      depth = w.depthLimit) ∧
    ((∀ a, v ≠ .array a) → ∀ h, w.heap.SameNames h → w.render v = (h.text v, w)) := by
  have hears := Log.hears_eq_of_setup (w.setup_prepared v) .debug
  rw [w.render_eq v, idle, record, Log.offerDebug, hears]
  refine ⟨rfl, fun heard => ?_, fun unheard => ?_, fun s cached => ⟨?_, ?_⟩, fun depth mem => ?_,
    fun other h same => ?_⟩
  · rw [if_pos heard]
  · rw [unheard]
    rfl
  · exact depthLimit_of_cached cached
  · exact prepared_of_cached cached v
  · exact Heap.depth_of_truncation (Nat.zero_le _) mem
  · rw [Heap.unfolding_of_ne_array other, Piece.textOf_plain, prepared_of_ne_array other,
      Heap.text_eq_of_sameNames same]
    exact congrArg (Prod.mk _) (record_plain w _)

/-- A world that hears debugging and shows no array in another, with an array that has another array
twice among its elements, and itself between the two. -/
def shallow : World :=
  { fresh .empty none .listening with
    heap := { Heap.empty with
      arrays := [⟨3, [.array ⟨1⟩, .array ⟨0⟩, .array ⟨1⟩]⟩, ⟨1, [.nil]⟩] }
    cache := some ⟨"info", 1⟩ }

theorem unfolding_shallow : shallow.heap.unfolding shallow.depthLimit [] (.array ⟨0⟩) =
    Piece.bracket [[.ellipsis .truncation 1], [.ellipsis .cycle 1], [.ellipsis .truncation 1]] := by
  have limit : shallow.depthLimit = 1 := rfl
  have elements : shallow.heap.elements ⟨0⟩ = [.array ⟨1⟩, .array ⟨0⟩, .array ⟨1⟩] := rfl
  simp [limit, Heap.unfolding, elements]

/-- The three omissions of `shallow` look the same and leave records that tell them apart. -/
theorem render_shallow :
    (shallow.render (.array ⟨0⟩)).1 = "[[...], [...], [...]]" ∧
    (shallow.render (.array ⟨0⟩)).2.log.written.map (·.message) =
      ["render.truncate depth=1", "render.cycle depth=1", "render.truncate depth=1"] := by
  have result := render_eq_unfolding (w := shallow) (v := .array ⟨0⟩) rfl
  rw [unfolding_shallow] at result
  obtain ⟨text, heard, -⟩ := result
  rw [text, heard rfl]
  exact ⟨by decide, by decide⟩

end World
end LoxValues
