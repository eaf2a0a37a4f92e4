import Mathlib.Data.List.Nodup
import ReversePolish.Tree

set_option autoImplicit false

/-! # Places in a tree

A node is reached from the root by a list of steps to the left and to the right. The subtree at a
place is found step by step; the other way round, the nodes are listed with their places, each
before those below it and the left ones before the right ones. -/

namespace ReversePolish

/-- The way down from an operator to one of its subtrees. -/
inductive Side where
  | left
  | right
deriving DecidableEq, Repr

/-- The subtree that is reached by the steps. -/
def Tree.subtree? {ω α : Type} : Tree ω α → List Side → Option (Tree ω α)
  | t, [] => some t
  | .node _ l _, .left :: place => l.subtree? place
  | .node _ _ r, .right :: place => r.subtree? place
  | .leaf _, _ :: _ => none

namespace Tree

variable {ω α : Type}

/-- The label at the root. -/
def root : Tree ω α → ω ⊕ α
  | leaf a => .inr a
  | node op _ _ => .inl op

/-- The labels in preorder, each with its place. -/
def placed : Tree ω α → List (List Side × (ω ⊕ α))
  | leaf a => [([], .inr a)]
  | node op l r =>
    ([], .inl op) :: (l.placed.map (Prod.map (.left :: ·) id) ++
      r.placed.map (Prod.map (.right :: ·) id))

@[simp] theorem subtree?_nil (t : Tree ω α) : t.subtree? [] = some t := by
  cases t <;> rfl

@[simp] theorem subtree?_leaf (a : α) (side : Side) (place : List Side) :
    (leaf a : Tree ω α).subtree? (side :: place) = none := by
  cases side <;> rfl

@[simp] theorem subtree?_left (op : ω) (l r : Tree ω α) (place : List Side) :
    (node op l r).subtree? (.left :: place) = l.subtree? place := rfl

@[simp] theorem subtree?_right (op : ω) (l r : Tree ω α) (place : List Side) :
    (node op l r).subtree? (.right :: place) = r.subtree? place := rfl

theorem map_snd_placed (t : Tree ω α) : t.placed.map Prod.snd = t.preorder := by
  induction t with
  | leaf a => rfl
  | node op l r ihl ihr =>
    simp only [placed, preorder, List.map_cons, List.map_append, List.map_map, ← ihl, ← ihr]
    rfl

/-- The places of a node: its own, and those of its subtrees behind the step to them. -/
theorem map_fst_placed_node (op : ω) (l r : Tree ω α) :
    (node op l r).placed.map Prod.fst =
      [] :: ((l.placed.map Prod.fst).map (Side.left :: ·) ++
        (r.placed.map Prod.fst).map (Side.right :: ·)) := by
  simp only [placed, List.map_cons, List.map_append, List.map_map]
  rfl

theorem nodup_places (t : Tree ω α) : (t.placed.map Prod.fst).Nodup := by
  induction t with
  | leaf a => exact List.nodup_singleton _
  | node op l r ihl ihr =>
    have hcons : ∀ side : Side, Function.Injective (side :: ·) := fun _ =>
      List.cons_injective
    rw [map_fst_placed_node, List.nodup_cons, List.nodup_append]
    refine ⟨by simp, ihl.map (hcons _), ihr.map (hcons _), ?_⟩
    -- the places on the two sides differ in their first step
    intro p hp q hq
    obtain ⟨p, -, rfl⟩ := List.mem_map.1 hp
    obtain ⟨q, -, rfl⟩ := List.mem_map.1 hq
    simp

/-- The labels are listed with the places where they are. -/
theorem mem_placed_iff {t : Tree ω α} {place : List Side} {x : ω ⊕ α} :
    (place, x) ∈ t.placed ↔ ∃ u, t.subtree? place = some u ∧ u.root = x := by
  induction t generalizing place with
  | leaf a =>
    cases place with
    | nil => simp [placed, root, eq_comm]
    | cons side place => simp [placed]
  | node op l r ihl ihr =>
    cases place with
    | nil => simp [placed, root, eq_comm]
    | cons side place =>
      cases side with
      | left => simp [placed, ← ihl]
      | right => simp [placed, ← ihr]

end Tree

end ReversePolish
