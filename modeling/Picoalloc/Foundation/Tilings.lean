import Mathlib

/-!
Tilings of an interval by a list of sized tiles. `TileAt` names the tiles by the
place where they start, and `Laid` says that a fact relating a tile's place, the
size of the tile before it and the tile itself holds all along the list, which
is how boundary tags describe a tiling.
-/

namespace Picoalloc.Tilings

variable {Tile : Type} (size : Tile → Nat)

def span (tiles : List Tile) : Nat := (tiles.map size).sum

def TileAt : Nat → List Tile → Nat → Tile → Prop
  | _, [], _, _ => False
  | start, first :: rest, place, tile =>
      (place = start ∧ tile = first) ∨ TileAt (start + size first) rest place tile

def Laid (fact : Nat → Nat → Tile → Prop) : Nat → Nat → List Tile → Prop
  | _, _, [] => True
  | start, before, first :: rest =>
      fact start before first ∧ Laid fact (start + size first) (size first) rest

def lastSize (before : Nat) : List Tile → Nat
  | [] => before
  | first :: rest => lastSize (size first) rest

def splitAt : Nat → List Tile → Option (List Tile × Tile × List Tile)
  | _, [] => none
  | place, first :: rest =>
      if place = 0 then some ([], first, rest)
      else (splitAt (place - size first) rest).map fun (before, tile, after) =>
        (first :: before, tile, after)

variable {size}

@[simp] theorem span_nil : span size ([] : List Tile) = 0 := rfl

@[simp] theorem span_cons (first : Tile) (rest : List Tile) :
    span size (first :: rest) = size first + span size rest := by
  simp [span]

@[simp] theorem span_append (left right : List Tile) :
    span size (left ++ right) = span size left + span size right := by
  simp [span]

@[simp] theorem tileAt_nil (start place : Nat) (tile : Tile) :
    TileAt size start [] place tile ↔ False := Iff.rfl

theorem tileAt_cons (start place : Nat) (first tile : Tile) (rest : List Tile) :
    TileAt size start (first :: rest) place tile ↔
      (place = start ∧ tile = first) ∨ TileAt size (start + size first) rest place tile := Iff.rfl

theorem tileAt_append (start place : Nat) (tile : Tile) (left right : List Tile) :
    TileAt size start (left ++ right) place tile ↔
      TileAt size start left place tile ∨ TileAt size (start + span size left) right place tile := by
  induction left generalizing start with
  | nil => simp
  | cons first rest ih =>
      simp only [List.cons_append, tileAt_cons, ih, span_cons, Nat.add_assoc, or_assoc]

theorem tileAt_split {start place : Nat} {tile : Tile} {tiles : List Tile}
    (here : TileAt size start tiles place tile) :
    ∃ left right, tiles = left ++ tile :: right ∧ place = start + span size left := by
  induction tiles generalizing start with
  | nil => exact here.elim
  | cons first rest ih =>
      rcases here with ⟨rfl, rfl⟩ | later
      · exact ⟨[], rest, rfl, rfl⟩
      · obtain ⟨left, right, rfl, rfl⟩ := ih later
        exact ⟨first :: left, right, rfl, by simp [Nat.add_assoc]⟩

theorem tileAt_middle (start : Nat) (tile : Tile) (left right : List Tile) :
    TileAt size start (left ++ tile :: right) (start + span size left) tile :=
  (tileAt_append start _ tile left _).mpr (Or.inr (Or.inl ⟨rfl, rfl⟩))

theorem tileAt_bounds {start place : Nat} {tile : Tile} {tiles : List Tile}
    (here : TileAt size start tiles place tile) :
    start ≤ place ∧ place + size tile ≤ start + span size tiles := by
  obtain ⟨left, right, rfl, rfl⟩ := tileAt_split here
  simp only [span_append, span_cons]
  omega

theorem tileAt_mem {start place : Nat} {tile : Tile} {tiles : List Tile}
    (here : TileAt size start tiles place tile) : tile ∈ tiles := by
  obtain ⟨left, right, rfl, _⟩ := tileAt_split here
  simp

theorem tileAt_disjoint {start place place' : Nat} {tile tile' : Tile} {tiles : List Tile}
    (here : TileAt size start tiles place tile) (there : TileAt size start tiles place' tile')
    (before : place < place') : place + size tile ≤ place' := by
  induction tiles generalizing start with
  | nil => exact here.elim
  | cons first rest ih =>
      rcases here with ⟨rfl, rfl⟩ | here
      · rcases there with ⟨rfl, _⟩ | there
        · omega
        · exact (tileAt_bounds there).1
      · rcases there with ⟨rfl, _⟩ | there
        · have := (tileAt_bounds here).1
          omega
        · exact ih here there

theorem tileAt_unique {start place : Nat} {tile tile' : Tile} {tiles : List Tile}
    (positive : ∀ tile ∈ tiles, 0 < size tile)
    (here : TileAt size start tiles place tile) (there : TileAt size start tiles place tile') :
    tile = tile' := by
  induction tiles generalizing start with
  | nil => exact here.elim
  | cons first rest ih =>
      have wide := positive first List.mem_cons_self
      have tail : ∀ {other}, TileAt size (start + size first) rest place other → start < place :=
        fun later => by have := (tileAt_bounds later).1; omega
      rcases here with ⟨same, rfl⟩ | here <;> rcases there with ⟨same', rfl⟩ | there
      · rfl
      · exact absurd (tail there) (by omega)
      · exact absurd (tail here) (by omega)
      · exact ih (fun other member => positive other (List.mem_cons_of_mem first member)) here there

theorem splitAt_middle {left right : List Tile} {tile : Tile}
    (positive : ∀ tile ∈ left, 0 < size tile) :
    splitAt size (span size left) (left ++ tile :: right) = some (left, tile, right) := by
  induction left with
  | nil => rfl
  | cons first rest ih =>
      have wide := positive first List.mem_cons_self
      rw [List.cons_append, splitAt, span_cons, if_neg (by omega), Nat.add_sub_cancel_left,
        ih fun other member => positive other (List.mem_cons_of_mem first member)]
      rfl

@[simp] theorem laid_nil (fact : Nat → Nat → Tile → Prop) (start before : Nat) :
    Laid size fact start before [] := trivial

theorem laid_append (fact : Nat → Nat → Tile → Prop) (start before : Nat)
    (left right : List Tile) :
    Laid size fact start before (left ++ right) ↔
      Laid size fact start before left ∧
        Laid size fact (start + span size left) (lastSize size before left) right := by
  induction left generalizing start before with
  | nil => simp [lastSize]
  | cons first rest ih =>
      simp only [List.cons_append, Laid, ih, span_cons, lastSize, Nat.add_assoc, and_assoc]

theorem laid_congr {fact fact' : Nat → Nat → Tile → Prop} {start before : Nat}
    {tiles : List Tile}
    (same : ∀ place before tile, TileAt size start tiles place tile →
      fact place before tile → fact' place before tile)
    (laid : Laid size fact start before tiles) : Laid size fact' start before tiles := by
  induction tiles generalizing start before with
  | nil => trivial
  | cons first rest ih =>
      exact ⟨same start before first (Or.inl ⟨rfl, rfl⟩) laid.1,
        ih (fun place before tile here => same place before tile (Or.inr here)) laid.2⟩

theorem laid_at {fact : Nat → Nat → Tile → Prop} {start before place : Nat} {tile : Tile}
    {tiles : List Tile} (laid : Laid size fact start before tiles)
    (here : TileAt size start tiles place tile) : ∃ before, fact place before tile := by
  obtain ⟨left, right, rfl, rfl⟩ := tileAt_split here
  exact ⟨_, ((laid_append fact start before left (tile :: right)).mp laid).2.1⟩

@[simp] theorem lastSize_append (before : Nat) (left right : List Tile) :
    lastSize size before (left ++ right) = lastSize size (lastSize size before left) right := by
  induction left generalizing before with
  | nil => rfl
  | cons first rest ih => exact ih (size first)

theorem lastSize_le_span (size : Tile → Nat) (tiles : List Tile) : lastSize size 0 tiles ≤ span size tiles := by
  rcases List.eq_nil_or_concat tiles with rfl | ⟨init, last, rfl⟩
  · exact Nat.le_refl _
  · simp [lastSize]

section Walking

def walk (size : Tile → Nat) (read : Nat → Tile) (total : Nat) : Nat → Nat → List Tile
  | 0, _ => []
  | fuel + 1, place =>
      if place < total then read place :: walk size read total fuel (place + size (read place))
      else []

theorem walk_end {read : Nat → Tile} {total place : Nat} (outside : total ≤ place) (fuel : Nat) :
    walk size read total fuel place = [] := by
  cases fuel with
  | zero => rfl
  | succ fuel => exact if_neg (Nat.not_lt.mpr outside)

/-- A walk over a tiling that can be read meets its tiles. -/
theorem walk_tiles {read : Nat → Tile} {total start fuel : Nat} {tiles : List Tile}
    (reads : ∀ place tile, TileAt size start tiles place tile → read place = tile)
    (positive : ∀ tile ∈ tiles, 0 < size tile) (whole : start + span size tiles = total)
    (enough : tiles.length ≤ fuel) : walk size read total fuel start = tiles := by
  induction tiles generalizing start fuel with
  | nil => exact walk_end whole.ge fuel
  | cons first rest ih =>
      obtain ⟨fuel, rfl⟩ : ∃ more, fuel = more + 1 := ⟨fuel - 1, by simp at enough; omega⟩
      have wide := positive first List.mem_cons_self
      rw [span_cons] at whole
      rw [walk, if_pos (by omega), reads start first (Or.inl ⟨rfl, rfl⟩),
        ih (fun place tile later => reads place tile (Or.inr later))
          (fun tile member => positive tile (List.mem_cons_of_mem _ member)) (by omega)
          (Nat.le_of_succ_le_succ enough)]

theorem length_le_span {tiles : List Tile} (positive : ∀ tile ∈ tiles, 0 < size tile) :
    tiles.length ≤ span size tiles := by
  induction tiles with
  | nil => exact Nat.le_refl _
  | cons first rest ih =>
      have wide := positive first List.mem_cons_self
      have shorter := ih fun tile member => positive tile (List.mem_cons_of_mem _ member)
      rw [span_cons, List.length_cons]
      omega

end Walking

section Canonical

variable {fixed : Tile → Prop} {start : Nat} {x y : Tile} {xs ys : List Tile}

theorem positive_of_cons (positive : ∀ tile ∈ x :: xs, 0 < size tile) :
    0 < size x ∧ ∀ tile ∈ xs, 0 < size tile :=
  ⟨positive x List.mem_cons_self, fun tile member => positive tile (List.mem_cons_of_mem x member)⟩

theorem tileAt_tail {place : Nat} {tile : Tile} (wide : 0 < size x)
    (same : TileAt size start (x :: xs) place tile → TileAt size start (x :: ys) place tile)
    (here : TileAt size (start + size x) xs place tile) :
    TileAt size (start + size x) ys place tile := by
  rcases same (Or.inr here) with ⟨rfl, -⟩ | there
  · have later := (tileAt_bounds here).1
    omega
  · exact there

theorem loose_size_le (chain : (x :: xs).IsChain fun tile next => fixed tile ∨ fixed next)
    (loose : ¬ fixed x) (loose' : ¬ fixed y) (whole : span size (x :: xs) = span size (y :: ys))
    (kept : ∀ place tile, fixed tile → TileAt size start (x :: xs) place tile →
      TileAt size start (y :: ys) place tile) : size y ≤ size x := by
  cases xs with
  | nil =>
      simp only [span_cons, span_nil] at whole
      omega
  | cons next rest =>
      have bound : fixed next := ((List.isChain_cons_cons.mp chain).1).resolve_left loose
      rcases kept _ next bound (Or.inr (Or.inl ⟨rfl, rfl⟩)) with ⟨-, rfl⟩ | there
      · exact absurd bound loose'
      · have later := (tileAt_bounds there).1
        omega

/-- A tiling without adjacent loose tiles is determined by its fixed ones. -/
theorem tiling_unique (determined : ∀ x y, ¬ fixed x → ¬ fixed y → size x = size y → x = y)
    (positive : ∀ tile ∈ xs, 0 < size tile) (positive' : ∀ tile ∈ ys, 0 < size tile)
    (chain : xs.IsChain fun tile next => fixed tile ∨ fixed next)
    (chain' : ys.IsChain fun tile next => fixed tile ∨ fixed next)
    (whole : span size xs = span size ys)
    (same : ∀ place tile, fixed tile →
      (TileAt size start xs place tile ↔ TileAt size start ys place tile)) : xs = ys := by
  induction xs generalizing start ys with
  | nil =>
      cases ys with
      | nil => rfl
      | cons y ys =>
          have wide := (positive_of_cons positive').1
          simp only [span_nil, span_cons] at whole
          omega
  | cons x xs ih =>
      obtain ⟨wide, rest⟩ := positive_of_cons positive
      cases ys with
      | nil =>
          simp only [span_nil, span_cons] at whole
          omega
      | cons y ys =>
          obtain ⟨-, rest'⟩ := positive_of_cons positive'
          have head : x = y := by
            by_cases bound : fixed x
            · have there := (same start x bound).mp (Or.inl ⟨rfl, rfl⟩)
              exact tileAt_unique positive' there (Or.inl ⟨rfl, rfl⟩)
            by_cases bound' : fixed y
            · have there := (same start y bound').mpr (Or.inl ⟨rfl, rfl⟩)
              exact tileAt_unique positive (Or.inl ⟨rfl, rfl⟩) there
            apply determined x y bound bound'
            apply Nat.le_antisymm
            · exact loose_size_le chain' bound' bound whole.symm fun place tile is => (same place tile is).mpr
            · exact loose_size_le chain bound bound' whole fun place tile is => (same place tile is).mp
          subst head
          congr 1
          have spans : span size xs = span size ys := by simpa using whole
          apply @ih (start + size x) ys rest rest' chain.tail chain'.tail spans
          intro place tile is
          constructor
          · exact tileAt_tail wide (same place tile is).mp
          · exact tileAt_tail wide (same place tile is).mpr

end Canonical

end Picoalloc.Tilings
