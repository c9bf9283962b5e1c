import Std.Data.TreeMap.Lemmas
import SegmentWire.Proofs.Memos
import SegmentWire.Segment.Node.Heights

/-!
# Height guards

A guard that holds true heights only tells the height of a node if it is within the limit,
and refuses the node otherwise. Neither what it was asked before nor where a shared node is
first met makes a difference, and a walk that ends in a refusal leaves true heights behind.
No walk looks at a node that lies deeper below the one asked for than the limit.
-/
namespace SegmentWire

lemma SegmentList.levels_ofList (segments : List Segment) :
    (ofList segments).levels = (segments.map Segment.height).max?.elim 0 (· + 1) := by
  induction segments with
  | nil => rfl
  | cons s segments ih =>
    rw [ofList_cons, levels_cons, ih, List.map_cons, List.max?_cons]
    cases (segments.map Segment.height).max? with
    | none => simp
    | some tallest => simp [Nat.add_max_add_right]

/-- The height of a segment without children is zero, of another one more than its tallest
child's. -/
lemma Segment.height_eq (s : Segment) :
    s.height = (s.children.map Segment.height).max?.elim 0 (· + 1) := by
  cases s with
  | literal interfaces => rfl
  | composition segments =>
    rw [children_composition, ← SegmentList.levels_ofList, SegmentList.ofList_toList]
    rfl

namespace HeightGuard

variable {memory : Memory} {guard : HeightGuard} {node : Node} {address depth height : Nat}

@[simp] lemma limit_look (guard : HeightGuard) (depth : Nat) :
    (guard.look depth).limit = guard.limit := rfl

@[simp] lemma heights_look (guard : HeightGuard) (depth : Nat) :
    (guard.look depth).heights = guard.heights := rfl

@[simp] lemma checked_look (guard : HeightGuard) (depth : Nat) :
    (guard.look depth).checked = guard.checked := rfl

lemma checked_of_le (h : depth + height ≤ guard.limit) : guard.checked depth height = .ok height :=
  if_neg (Nat.not_lt.mpr h)

lemma checked_of_lt (h : guard.limit < depth + height) :
    guard.checked depth height = .error (.nestingTooDeep guard.limit) :=
  if_pos h

/-! ### What a guard holds -/

/-- Every height that the guard holds is that of the node at its address, and no node was looked at
beyond the limit. -/
structure Sound (memory : Memory) (guard : HeightGuard) : Prop where
  heights_true : ∀ address height, guard.heights[address]? = some height →
    ∃ node ∈ memory.nodes, node.address = address ∧ node.segment.height = height
  depths_le : ∀ depth ∈ guard.depths, depth ≤ guard.limit

namespace Sound

lemma start (memory : Memory) (limit : Nat) : (start limit).Sound memory where
  heights_true address height h := by simp [HeightGuard.start] at h
  depths_le depth h := by simp [HeightGuard.start] at h

lemma look (sound : guard.Sound memory) (h : depth ≤ guard.limit) :
    (guard.look depth).Sound memory where
  heights_true := sound.heights_true
  depths_le := List.forall_mem_cons.mpr ⟨h, sound.depths_le⟩

lemma enter (sound : guard.Sound memory) (hnode : node ∈ memory.nodes) :
    (guard.enter node.address node.segment.height).Sound memory where
  heights_true address height h := by
    rw [HeightGuard.enter, Std.TreeMap.getElem?_insert] at h
    split at h
    · rename_i haddress
      exact ⟨node, hnode, Std.LawfulEqCmp.eq_of_compare haddress, Option.some.inj h⟩
    · exact sound.heights_true address height h
  depths_le := sound.depths_le

/-- What a sound guard holds of a node is its height. -/
lemma height_eq (sound : guard.Sound memory) (hnode : node ∈ memory.nodes)
    (h : guard.heights[node.address]? = some height) : node.segment.height = height := by
  obtain ⟨other, hother, haddress, hheight⟩ := sound.heights_true _ _ h
  rwa [memory.address_inj hother hnode haddress] at hheight

end Sound

/-! ### One walk -/

/-- The walk gives the result, and leaves a sound guard with the limit. -/
def Answers {α : Type} (memory : Memory) (limit : Nat) (walk : α × HeightGuard) (result : α) :
    Prop :=
  ∃ after : HeightGuard, walk = (result, after) ∧ after.Sound memory ∧ after.limit = limit

/-- A composition that is not known is walked through by its children, one level further down. -/
lemma heightAt_cons (guard : HeightGuard) (depth address : Nat) (head : Node) (tail : NodeList) :
    guard.heightAt depth (.composition address (.cons head tail)) =
      match guard.heights[address]? with
      | some height => (guard.checked depth height, guard.look depth)
      | none =>
        if guard.limit ≤ depth then (.error guard.refusal, guard.look depth)
        else
          match (guard.look depth).levelsAt (depth + 1) (.cons head tail) with
          | (.error e, guard) => (.error e, guard)
          | (.ok levels, guard) => (guard.checked depth levels, guard.enter address levels) := by
  rw [heightAt, levelsAt, heights_look, limit_look]
  cases guard.heights[address]? with
  | some height => rfl
  | none =>
    simp only
    split
    · rfl
    · split
      · rfl
      · split <;> rfl

-- The induction is over nodes and lists of nodes together. A shared node is met again with the same
-- memory but with another guard and at another depth, so that these are free in both statements.
mutual

/-- A walk finds the height of a node at a depth, unless the two together exceed the limit. -/
theorem heightAt_answers (node : Node) {guard : HeightGuard} {depth : Nat}
    (hnode : node ∈ memory.nodes) (sound : guard.Sound memory) (hdepth : depth ≤ guard.limit) :
    Answers memory guard.limit (guard.heightAt depth node)
      (guard.checked depth node.segment.height) := by
  have hlooked := sound.look hdepth
  match node with
  | .literal address interfaces =>
    exact ⟨guard.look depth, by rw [checked_of_le hdepth]; rfl, hlooked, rfl⟩
  | .composition address .nil =>
    exact ⟨guard.look depth, by rw [checked_of_le hdepth]; rfl, hlooked, rfl⟩
  | .composition address (.cons head tail) =>
    have hheight : (Node.composition address (.cons head tail)).segment.height =
        (NodeList.cons head tail).segments.levels := rfl
    rw [heightAt_cons]
    cases hknown : guard.heights[address]? with
    | some height =>
      rw [sound.height_eq hnode hknown]
      exact ⟨guard.look depth, rfl, hlooked, rfl⟩
    | none =>
      dsimp only
      rw [hheight]
      by_cases hroom : depth < guard.limit
      · obtain ⟨after, hwalk, hafter, hlimit⟩ := levelsAt_answers (.cons head tail)
          (fun c hc => memory.children_mem hnode hc) hlooked hroom
        rw [if_neg (Nat.not_le.mpr hroom), hwalk, checked_look]
        by_cases hle : depth + (NodeList.cons head tail).segments.levels ≤ guard.limit
        · rw [checked_of_le hle]
          dsimp only
          rw [checked_of_le (hlimit.symm ▸ hle)]
          exact ⟨_, rfl, hafter.enter hnode, hlimit⟩
        · rw [checked_of_lt (Nat.lt_of_not_le hle)]
          exact ⟨after, rfl, hafter, hlimit⟩
      · -- There is no room for the children, which make the node one level high at least.
        have hpositive : 0 < (NodeList.cons head tail).segments.levels := by
          rw [NodeList.segments, SegmentList.levels_cons]
          omega
        rw [if_pos (Nat.not_lt.mp hroom), checked_of_lt (by omega)]
        exact ⟨guard.look depth, rfl, hlooked, rfl⟩

/-- Below a composition the limit is reached one level earlier. -/
theorem levelsAt_answers (nodes : NodeList) {guard : HeightGuard} {depth : Nat}
    (hnodes : ∀ node ∈ nodes.toList, node ∈ memory.nodes) (sound : guard.Sound memory)
    (hdepth : depth < guard.limit) :
    Answers memory guard.limit (guard.levelsAt (depth + 1) nodes)
      (guard.checked depth nodes.segments.levels) := by
  match nodes with
  | .nil => exact ⟨guard, by rw [checked_of_le (Nat.le_of_lt hdepth)]; rfl, sound, rfl⟩
  | .cons head tail =>
    have hlevels : (NodeList.cons head tail).segments.levels =
      max (head.segment.height + 1) tail.segments.levels := rfl
    obtain ⟨hhead, htail⟩ := List.forall_mem_cons.mp hnodes
    obtain ⟨middle, hwalk, hmiddle, hlimit⟩ := heightAt_answers head hhead sound hdepth
    rw [levelsAt, hwalk]
    by_cases hfits : depth + 1 + head.segment.height ≤ guard.limit
    · obtain ⟨after, hrest, hafter, hlast⟩ :=
        levelsAt_answers tail htail hmiddle (hlimit.symm ▸ hdepth)
      rw [checked_of_le hfits]
      dsimp only
      rw [hrest]
      by_cases hle : depth + tail.segments.levels ≤ guard.limit
      · rw [checked_of_le (hlimit.symm ▸ hle), checked_of_le (by omega)]
        exact ⟨after, rfl, hafter, hlast.trans hlimit⟩
      · rw [checked_of_lt (hlimit.symm ▸ Nat.lt_of_not_le hle), checked_of_lt (by omega), hlimit]
        exact ⟨after, rfl, hafter, hlast.trans hlimit⟩
    · rw [checked_of_lt (Nat.lt_of_not_le hfits), checked_of_lt (by omega)]
      exact ⟨middle, rfl, hmiddle, hlimit⟩

end

/-! ### One question after the other -/

/-- The answer for a node, whatever the guard was asked before. -/
def answer (limit : Nat) (node : Node) : Except CodecError Nat :=
  if node.segment.height ≤ limit then .ok node.segment.height else .error (.nestingTooDeep limit)

/-- The heights of nodes, asked for one after the other. A refusal does not end the run. -/
def heightEach (guard : HeightGuard) : List Node → List (Except CodecError Nat) × HeightGuard
  | [] => ([], guard)
  | node :: nodes =>
    let (result, guard) := guard.height node
    let (results, guard) := guard.heightEach nodes
    (result :: results, guard)

/-- Asked for a node, a sound guard gives the answer for it and stays sound. -/
theorem height_answers (hnode : node ∈ memory.nodes) (sound : guard.Sound memory) :
    Answers memory guard.limit (guard.height node) (answer guard.limit node) := by
  have hanswer : answer guard.limit node = guard.checked 0 node.segment.height := by
    by_cases hle : node.segment.height ≤ guard.limit
    · rw [answer, if_pos hle, checked_of_le (by omega)]
    · rw [answer, if_neg hle, checked_of_lt (by omega)]
  rw [hanswer]
  exact heightAt_answers node hnode sound (Nat.zero_le _)

theorem heightEach_answers {nodes : List Node} (hnodes : ∀ node ∈ nodes, node ∈ memory.nodes)
    (sound : guard.Sound memory) :
    Answers memory guard.limit (guard.heightEach nodes) (nodes.map (answer guard.limit)) := by
  induction nodes generalizing guard with
  | nil => exact ⟨guard, rfl, sound, rfl⟩
  | cons node nodes ih =>
    rw [List.forall_mem_cons] at hnodes
    obtain ⟨middle, hfirst, hmiddle, hlimit⟩ := height_answers hnodes.1 sound
    obtain ⟨after, hrest, hafter, hlast⟩ := ih hnodes.2 hmiddle
    refine ⟨after, ?_, hafter, hlast.trans hlimit⟩
    rw [heightEach, hfirst]
    dsimp only
    rw [hrest, hlimit, List.map_cons]

/-- Asked for nodes one after the other, a guard gives the height of each that is within the limit
and refuses each other one. All that it holds then are true heights, and no node was looked at that
lies deeper than the limit below the one asked for. -/
theorem heightEach_exact {memory : Memory} (limit : Nat) {nodes : List Node}
    (hnodes : ∀ node ∈ nodes, node ∈ memory.nodes) :
    ∃ after : HeightGuard,
      (start limit).heightEach nodes = (nodes.map fun node =>
        if node.segment.height ≤ limit then .ok node.segment.height
        else .error (.nestingTooDeep limit), after) ∧
      (∀ s : Segment, s.height = (s.children.map Segment.height).max?.elim 0 (· + 1)) ∧
      (∀ address height, after.heights[address]? = some height →
        ∃ node ∈ memory.nodes, node.address = address ∧ node.segment.height = height) ∧
      ∀ depth ∈ after.depths, depth ≤ limit := by
  obtain ⟨after, hrun, hafter, hlimit⟩ := heightEach_answers hnodes (Sound.start memory limit)
  have hdepths := hafter.depths_le
  rw [hlimit] at hdepths
  exact ⟨after, hrun, Segment.height_eq, hafter.heights_true, hdepths⟩

/-- A node over a leaf, which both nodes above it share. -/
def flatNode : Node := .composition 2 (.ofList [.literal 3 []])

def middleNode : Node := .composition 1 (.ofList [flatNode, flatNode])

def tallNode : Node := .composition 0 (.ofList [flatNode, middleNode])

def tallMemory : Memory :=
  .ofList [tallNode, middleNode, flatNode, .literal 3 []]
    (by simp [tallNode, middleNode, flatNode, Node.children]) (by decide)

/-- The walk from the top is refused twice: first at the shared node, known from its higher place
but too deep below the middle, and then at the middle, known from the question in between. -/
theorem heightEach_exact_tall :
    (∀ node ∈ [tallNode, middleNode, tallNode], node ∈ tallMemory.nodes) ∧
      ∃ after : HeightGuard, (start 2).heightEach [tallNode, middleNode, tallNode] =
          ([.error (.nestingTooDeep 2), .ok 2, .error (.nestingTooDeep 2)], after) ∧
        ∀ depth ∈ after.depths, depth ≤ 2 := by
  have hnodes : ∀ node ∈ [tallNode, middleNode, tallNode], node ∈ tallMemory.nodes := by
    have hmem : [tallNode, middleNode, tallNode] ⊆
        [tallNode, middleNode, flatNode, .literal 3 []] := by simp
    exact fun node hnode => hmem hnode
  obtain ⟨after, hrun, -, -, hdepths⟩ := heightEach_exact 2 hnodes
  exact ⟨hnodes, after, hrun, hdepths⟩

end HeightGuard

end SegmentWire
