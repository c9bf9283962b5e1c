import SegmentWire.CommandLine.Directory
import SegmentWire.CommandLine.Run
import SegmentWire.Proofs.JsonTexts
import SegmentWire.Sample

/-!
# Files of segments

A list of segments that has been written in JSON is loaded as it was, unless its text opens
too many containers within each other. A composition opens two, and a literal that has
interfaces three, so that fewer wrappers are read back than the depth limit of messages
would admit.
-/
namespace SegmentWire

/-! ### Containers in the text of a segment -/

mutual

/-- Containers that are open at the same time in the text of a segment. -/
def Segment.nesting : Segment → Nat
  | .literal [] => 2
  | .literal (_ :: _) => 3
  | .composition segments => segments.nesting + 2

/-- The largest nesting in a list, zero if the list is empty. -/
def SegmentList.nesting : SegmentList → Nat
  | .nil => 0
  | .cons head tail => max head.nesting tail.nesting

end

/-- Containers that are open at the same time in the text of a list of segments. -/
def Segment.nestingOfList (segments : List Segment) : Nat :=
  (segments.map Segment.nesting).foldr max 0 + 1

lemma PathInterface.nestingOfItems_toJson (hop : PathInterface) (interfaces : List PathInterface) :
    Json.nestingOfItems (hop.toJson :: interfaces.map toJson) = 1 := by
  induction interfaces generalizing hop with
  | nil => rfl
  | cons next interfaces ih =>
    rw [List.map_cons, Json.nestingOfItems, ih next]
    rfl

mutual

lemma Segment.nesting_toJson : ∀ s : Segment, s.toJson.nesting = s.nesting
  | .literal [] => rfl
  | .literal (hop :: interfaces) => by
    have hitems := PathInterface.nestingOfItems_toJson hop interfaces
    simp [Segment.toJson, Segment.nesting, Json.nesting, Json.nestingOfFields, hitems]
  | .composition segments => by
    have hitems := SegmentList.nestingOfItems_toJsonItems segments
    simp [Segment.toJson, Segment.nesting, Json.nesting, Json.nestingOfFields, hitems]

lemma SegmentList.nestingOfItems_toJsonItems : ∀ segments : SegmentList,
    Json.nestingOfItems segments.toJsonItems = segments.nesting
  | .nil => rfl
  | .cons head tail => by
    rw [SegmentList.toJsonItems, Json.nestingOfItems, SegmentList.nesting, head.nesting_toJson,
      tail.nestingOfItems_toJsonItems]

end

namespace Segment

lemma nesting_listToJson (segments : List Segment) :
    (listToJson segments).nesting = nestingOfList segments := by
  have hitems : Json.nestingOfItems (segments.map toJson) =
      (segments.map nesting).foldr max 0 := by
    induction segments with
    | nil => rfl
    | cons s segments ih => simp [Json.nestingOfItems, nesting_toJson, ih]
  rw [listToJson, Json.nesting, hitems, nestingOfList]

end Segment

/-! ### Reading the text of a segment -/

section Texts

variable {layout : Json.Layout}

lemma PathInterface.readsBack_toJson (hop : PathInterface) :
    Json.ReadsBack layout hop.toJson :=
  Json.readsBack_object (by simp [Json.readsBack_unsigned])

namespace SegmentList

lemma toJsonItems_eq_map (segments : SegmentList) :
    segments.toJsonItems = segments.toList.map Segment.toJson := by
  match segments with
  | .nil => rfl
  | .cons head tail => rw [toJsonItems, toJsonItems_eq_map tail, toList_cons, List.map_cons]

end SegmentList

namespace Segment

lemma readsBack_toJson (s : Segment) : Json.ReadsBack layout s.toJson := by
  induction s using Segment.induction with
  | literal interfaces =>
    have hentries : Json.ReadsBack layout (.array (interfaces.map PathInterface.toJson)) :=
      Json.readsBack_array (by simp [PathInterface.readsBack_toJson])
    exact Json.readsBack_object (by simp [Json.readsBack_string, hentries])
  | composition segments ih =>
    have hentries : Json.ReadsBack layout (.array segments.toJsonItems) :=
      Json.readsBack_array (by simpa [SegmentList.toJsonItems_eq_map] using ih)
    exact Json.readsBack_object (by simp [Json.readsBack_string, hentries])

lemma readsBack_listToJson (segments : List Segment) :
    Json.ReadsBack layout (listToJson segments) :=
  Json.readsBack_array (by simp [readsBack_toJson])

end Segment

end Texts

/-! ### Segments from their values -/

/-- Elements that are all read back from their values are read back from the list of these. -/
lemma mapM_map_eq_some {α β : Type} {f : α → β} {g : β → Option α} {xs : List α}
    (h : ∀ x ∈ xs, g (f x) = some x) : (xs.map f).mapM g = some xs := by
  induction xs with
  | nil => rfl
  | cons x xs ih =>
    obtain ⟨hx, hxs⟩ := List.forall_mem_cons.mp h
    rw [List.map_cons, List.mapM_cons, hx, ih hxs]
    rfl

namespace PathInterface

lemma ofJson?_toJson (hop : PathInterface) : ofJson? hop.toJson = some hop := rfl

lemma listOfJson?_toJson (interfaces : List PathInterface) :
    listOfJson? (.array (interfaces.map toJson)) = some interfaces :=
  mapM_map_eq_some fun hop _ => hop.ofJson?_toJson

end PathInterface

lemma SegmentList.ofItems?_toJsonItems (segments : SegmentList)
    (h : ∀ c ∈ segments.toList, Segment.ofJson? true c.toJson = some c) :
    ofItems? segments.toJsonItems = some segments := by
  match segments with
  | .nil => rfl
  | .cons head tail =>
    obtain ⟨hhead, htail⟩ := List.forall_mem_cons.mp h
    rw [toJsonItems, ofItems?, hhead, ofItems?_toJsonItems tail htail]
    rfl

namespace Segment

/-- A segment is read back from its value, whether it stands alone or within a composition. -/
theorem ofJson?_toJson (s : Segment) (nested : Bool) : ofJson? nested s.toJson = some s := by
  induction s using Segment.induction generalizing nested with
  | literal interfaces =>
    calc ofJson? nested (literal interfaces).toJson
      _ = (PathInterface.listOfJson? (.array (interfaces.map PathInterface.toJson))).map literal :=
        rfl
      _ = some (literal interfaces) := by
        rw [PathInterface.listOfJson?_toJson, Option.map_some]
  | composition segments ih =>
    calc ofJson? nested (composition segments).toJson
      _ = (SegmentList.ofItems? segments.toJsonItems).map composition := rfl
      _ = some (composition segments) := by
        rw [SegmentList.ofItems?_toJsonItems segments fun c hc => ih c hc true, Option.map_some]

theorem listOfJson?_listToJson (segments : List Segment) :
    listOfJson? (listToJson segments) = some segments :=
  mapM_map_eq_some fun s _ => s.ofJson?_toJson false

/-- The text of a list of segments is read back in either layout, unless too many containers are
open in it. -/
theorem listOfBytes?_render (layout : Json.Layout) (segments : List Segment) :
    listOfBytes? (Json.textBytes ((listToJson segments).render layout)) =
      if nestingOfList segments ≤ Json.maxNesting then some segments else none := by
  rw [listOfBytes?, Json.ofBytes?_render (readsBack_listToJson segments), nesting_listToJson]
  split_ifs
  · exact listOfJson?_listToJson segments
  · rfl

@[simp] lemma nesting_wrapper (s : Segment) : s.wrapper.nesting = s.nesting + 2 := by
  rw [wrapper, nesting, SegmentList.nesting, SegmentList.nesting, Nat.max_zero]

/-- Every wrapper opens two containers. -/
lemma nesting_wrappers (s : Segment) (n : Nat) :
    (Nat.repeat wrapper n s).nesting = s.nesting + 2 * n := by
  induction n with
  | zero => rfl
  | succ n ih =>
    rw [Nat.repeat, nesting_wrapper, ih]
    omega

end Segment

/-! ### Loading files -/

namespace Command

variable {σ : Type} {files : FileAccess (StateM σ)} {name : String} {before after : σ}

lemma run_readFile {bs : Bytes} (h : (files.read name).run before = (.ok bs, after)) :
    (readFile files name).run.run before = (.ok bs, after) := by
  simp only [readFile, ExceptT.run_bind, ExceptT.run_liftM, bind_map_left, StateT.run_bind, h]
  rfl

lemma run_loadSegments {bs : Bytes} (h : (files.read name).run before = (.ok bs, after)) :
    (loadSegments files name).run.run before =
      (match Segment.listOfBytes? bs with
        | some segments => .ok segments
        | none => .error .json, after) := by
  rw [loadSegments, ExceptT.run_bind, StateT.run_bind, run_readFile h]
  show (match Segment.listOfBytes? bs with
    | some segments => pure segments
    | none => throw .json : ExceptT CommandFault (StateM σ) (List Segment)).run.run after = _
  cases Segment.listOfBytes? bs <;> rfl

end Command

/-- A file that holds the text of a list of segments, in either layout, is loaded as that list if
fewer than 128 containers are open in it at the same time, and is no file of segments
otherwise. -/
theorem loadSegments_render {σ : Type} {files : FileAccess (StateM σ)} {name : String}
    {before after : σ} (layout : Json.Layout) (segments : List Segment)
    (h : (files.read name).run before =
      (.ok (Json.textBytes ((Segment.listToJson segments).render layout)), after)) :
    (Command.loadSegments files name).run.run before =
      (if Segment.nestingOfList segments < 128 then .ok segments else .error .json, after) := by
  have hlt : Segment.nestingOfList segments < 128 ↔
      Segment.nestingOfList segments ≤ Json.maxNesting := Nat.lt_succ_iff
  rw [Command.run_loadSegments h, Segment.listOfBytes?_render, if_congr hlt rfl rfl]
  split_ifs <;> rfl

/-- Messages admit sixty-two wrappers around each other by default, yet a file that holds them is
refused. A file with sixty-one of them is read back. -/
theorem loadSegments_wrappers :
    let wrapped (n : Nat) : Segment := Nat.repeat Segment.wrapper n (Sample.literal 7 1)
    let directory (n : Nat) : Directory := ⟨[("tall.json",
      Json.textBytes ((Segment.listToJson [wrapped n]).render .indented))]⟩
    (wrapped 62).height ≤ ({} : Config).maxDepth ∧
      (Command.loadSegments Directory.access "tall.json").run.run (directory 62) =
        (.error .json, directory 62) ∧
      (Command.loadSegments Directory.access "tall.json").run.run (directory 61) =
        (.ok [wrapped 61], directory 61) := by
  intro wrapped directory
  have hread (n : Nat) : (Directory.access.read "tall.json").run (directory n) =
      (.ok (Json.textBytes ((Segment.listToJson [wrapped n]).render .indented)), directory n) := rfl
  have hnesting (n : Nat) : Segment.nestingOfList [wrapped n] = 3 + 2 * n + 1 :=
    congrArg (· + 1) ((Nat.max_zero _).trans (Segment.nesting_wrappers _ n))
  refine ⟨by decide +kernel, ?_, ?_⟩
  · rw [loadSegments_render .indented [wrapped 62] (hread 62), hnesting]
    rfl
  · rw [loadSegments_render .indented [wrapped 61] (hread 61), hnesting]
    rfl

end SegmentWire
