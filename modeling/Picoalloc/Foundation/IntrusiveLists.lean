import Mathlib

/-!
Intrusive doubly linked lists. A node's two links are read through the functions
`next` and `prev`, and `encode` gives the stored form of an optional neighbour.
Both edits below change the links of at most two nodes, which is what keeps the
rest of a list intact when other lists live in the same memory.
-/

namespace Picoalloc.IntrusiveLists

variable {Node Link : Type} (encode : Option Node → Link)

/-- The links of a stretch of nodes whose outer neighbours are `before` and `after`. -/
def Segment (next prev : Node → Link) : Option Node → List Node → Option Node → Prop
  | _, [], _ => True
  | before, node :: rest, after =>
      prev node = encode before ∧ next node = encode (rest.head?.or after) ∧
        Segment next prev (some node) rest after

def Linked (next prev : Node → Link) (nodes : List Node) : Prop :=
  Segment encode next prev none nodes none

variable {encode} {next prev next' prev' : Node → Link}

theorem segment_append (before after : Option Node) (left right : List Node) :
    Segment encode next prev before (left ++ right) after ↔
      Segment encode next prev before left (right.head?.or after) ∧
        Segment encode next prev (left.getLast?.or before) right after := by
  induction left generalizing before with
  | nil => simp [Segment]
  | cons node rest ih =>
      have last : (node :: rest).getLast?.or before = rest.getLast?.or (some node) := by
        cases rest <;> simp [List.getLast?_cons]
      simp only [List.cons_append, Segment, ih, last, List.head?_append, Option.or_assoc, and_assoc]

theorem segment_congr {before after : Option Node} {nodes : List Node}
    (same : ∀ node ∈ nodes, next' node = next node ∧ prev' node = prev node)
    (linked : Segment encode next prev before nodes after) :
    Segment encode next' prev' before nodes after := by
  induction nodes generalizing before with
  | nil => trivial
  | cons node rest ih =>
      obtain ⟨back, forth, tail⟩ := linked
      obtain ⟨sameNext, samePrev⟩ := same node List.mem_cons_self
      exact ⟨samePrev.trans back, sameNext.trans forth,
        ih (fun other member => same other (List.mem_cons_of_mem node member)) tail⟩

theorem linked_congr {nodes : List Node}
    (same : ∀ node ∈ nodes, next' node = next node ∧ prev' node = prev node)
    (linked : Linked encode next prev nodes) : Linked encode next' prev' nodes :=
  segment_congr same linked

theorem linked_at (left : List Node) {right : List Node} {node : Node}
    (linked : Linked encode next prev (left ++ node :: right)) :
    prev node = encode left.getLast? ∧ next node = encode right.head? := by
  have tail := ((segment_append none none left (node :: right)).mp linked).2
  simp only [Segment, Option.or_none] at tail
  exact ⟨tail.1, tail.2.1⟩

variable [DecidableEq Node]

def relink (links : Node → Link) (place : Option Node) (value : Link) : Node → Link :=
  match place with
  | none => links
  | some node => Function.update links node value

@[simp] theorem relink_none (links : Node → Link) (value : Link) :
    relink links none value = links := rfl

theorem relink_other {links : Node → Link} {place : Option Node} {value : Link} {node : Node}
    (other : place ≠ some node) : relink links place value node = links node := by
  cases place with
  | none => rfl
  | some target => exact Function.update_of_ne (fun same => other (congrArg some same.symm)) _ _

theorem relink_here (links : Node → Link) (node : Node) (value : Link) :
    relink links (some node) value node = value := Function.update_self _ _ _

theorem segment_retarget {before after : Option Node} {nodes : List Node} (after' : Option Node)
    (value : Link) (unique : nodes.Nodup) (target : value = encode after')
    (linked : Segment encode next prev before nodes after) :
    Segment encode (relink next nodes.getLast? value) prev before nodes after' := by
  rcases List.eq_nil_or_concat nodes with rfl | ⟨init, last, rfl⟩
  · trivial
  · rw [List.concat_eq_append, segment_append] at linked ⊢
    obtain ⟨inner, outer⟩ := linked
    rw [List.concat_eq_append] at unique
    have fresh : last ∉ init := fun member =>
      (List.nodup_append.mp unique).2.2 last member last (by simp) rfl
    simp only [List.getLast?_append, List.getLast?_singleton, Option.some_or]
    constructor
    · refine segment_congr (fun node member => ⟨relink_other ?_, rfl⟩) inner
      rintro ⟨⟩
      exact fresh member
    · simp only [Segment, List.head?_nil, Option.none_or, relink_here] at outer ⊢
      exact ⟨outer.1, target, trivial⟩

theorem segment_reroot {before after : Option Node} {nodes : List Node} (before' : Option Node)
    (value : Link) (unique : nodes.Nodup) (target : value = encode before')
    (linked : Segment encode next prev before nodes after) :
    Segment encode next (relink prev nodes.head? value) before' nodes after := by
  cases nodes with
  | nil => trivial
  | cons node rest =>
      obtain ⟨_, forth, tail⟩ := linked
      have fresh := (List.nodup_cons.mp unique).1
      refine ⟨(relink_here prev node value).trans target, forth, ?_⟩
      refine segment_congr (fun other member => ⟨rfl, relink_other ?_⟩) tail
      rintro ⟨⟩
      exact fresh member

/-- Unlinking a node: its two neighbours take over its own links. -/
theorem linked_unlink {left right : List Node} {node : Node}
    (unique : (left ++ node :: right).Nodup)
    (linked : Linked encode next prev (left ++ node :: right)) :
    Linked encode (relink next left.getLast? (next node)) (relink prev right.head? (prev node))
      (left ++ right) := by
  obtain ⟨back, forth⟩ := linked_at left linked
  obtain ⟨inner, outer⟩ := (segment_append none none left (node :: right)).mp linked
  obtain ⟨uniqueLeft, uniqueTail, apart⟩ := List.nodup_append.mp unique
  have uniqueRight := (List.nodup_cons.mp uniqueTail).2
  have crossing : ∀ x ∈ left, ∀ y ∈ right, x ≠ y := fun x hx y hy =>
    apart x hx y (List.mem_cons_of_mem node hy)
  refine (segment_append none none left right).mpr ⟨?_, ?_⟩
  · have moved := segment_retarget (right.head?.or none) (next node) uniqueLeft
      (by simpa using forth) inner
    refine segment_congr (fun x member => ⟨rfl, relink_other ?_⟩) moved
    intro same
    exact crossing x member x (List.mem_of_mem_head? same) rfl
  · have moved := segment_reroot (left.getLast?.or none) (prev node) uniqueRight
      (by simpa using back) outer.2.2
    refine segment_congr (fun x member => ⟨relink_other ?_, rfl⟩) moved
    intro same
    exact crossing x (List.mem_of_mem_getLast? same) x member rfl

/-- Linking a fresh node in at the head. -/
theorem linked_push {nodes : List Node} {node : Node} (unique : nodes.Nodup)
    (fresh : node ∉ nodes) (linked : Linked encode next prev nodes) :
    Linked encode (Function.update next node (encode nodes.head?))
      (relink (Function.update prev node (encode none)) nodes.head? (encode (some node)))
      (node :: nodes) := by
  have apart : nodes.head? ≠ some node := fun same => fresh (List.mem_of_mem_head? same)
  refine ⟨?_, ?_, ?_⟩
  · rw [relink_other apart, Function.update_self]
  · rw [Function.update_self, Option.or_none]
  · have kept : Segment encode (Function.update next node (encode nodes.head?))
        (Function.update prev node (encode none)) none nodes none := by
      refine segment_congr (fun x member => ?_) linked
      have different : x ≠ node := fun same => fresh (same ▸ member)
      exact ⟨Function.update_of_ne different _ _, Function.update_of_ne different _ _⟩
    exact segment_reroot (some node) _ unique rfl kept

theorem linked_relink {nodes : List Node} {place place' : Option Node} {value value' : Link}
    (apart : ∀ node ∈ nodes, place ≠ some node) (apart' : ∀ node ∈ nodes, place' ≠ some node)
    (linked : Linked encode next prev nodes) :
    Linked encode (relink next place value) (relink prev place' value') nodes :=
  linked_congr (fun node member =>
    ⟨relink_other (apart node member), relink_other (apart' node member)⟩) linked

section Following

variable {null : Link} [DecidableEq Link]

def follow (forth : Link → Link) (null : Link) : Nat → Link → List Link
  | 0, _ => []
  | fuel + 1, link => if link = null then [] else link :: follow forth null fuel (forth link)

theorem follow_null (forth : Link → Link) (fuel : Nat) : follow forth null fuel null = [] := by
  cases fuel with
  | zero => rfl
  | succ fuel => exact if_pos rfl

omit [DecidableEq Node] in
/-- Following a segment that ends the list meets its nodes. -/
theorem follow_segment {forth : Link → Link} {before : Option Node} {nodes : List Node} {fuel : Nat}
    (ends : encode none = null) (real : ∀ node ∈ nodes, encode (some node) ≠ null)
    (reads : ∀ node ∈ nodes, forth (encode (some node)) = next node)
    (linked : Segment encode next prev before nodes none) (enough : nodes.length ≤ fuel) :
    follow forth null fuel (encode nodes.head?) = nodes.map fun node => encode (some node) := by
  induction nodes generalizing before fuel with
  | nil => rw [List.head?_nil, ends, follow_null, List.map_nil]
  | cons node rest ih =>
      obtain ⟨fuel, rfl⟩ : ∃ more, fuel = more + 1 := ⟨fuel - 1, by simp at enough; omega⟩
      obtain ⟨_, next_eq, tail⟩ := linked
      rw [List.head?_cons, follow, if_neg (real node List.mem_cons_self),
        reads node List.mem_cons_self, next_eq, Option.or_none,
        ih (fun other member => real other (List.mem_cons_of_mem _ member))
          (fun other member => reads other (List.mem_cons_of_mem _ member)) tail
          (Nat.le_of_succ_le_succ enough), List.map_cons]

end Following

end Picoalloc.IntrusiveLists
