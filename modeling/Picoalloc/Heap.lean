import Picoalloc.Bins
import Picoalloc.Foundation.Tilings

/-!
The abstract heap: a tiling of the space by chunks, the free lists as lists of
unit offsets and the materialized part of the space. Every operation opens a gap
in the tiling, lets it take over free neighbours, and fills it with new chunks.
-/

namespace Picoalloc
open Tilings

structure Chunk where
  size : Nat
  isAllocated : Bool
  deriving DecidableEq, Repr

def Chunk.tag (chunk : Chunk) : Nat := 2 * chunk.size + chunk.isAllocated.toNat

abbrev ChunkAt (start : Nat) (chunks : List Chunk) (place : Nat) (chunk : Chunk) : Prop :=
  TileAt Chunk.size start chunks place chunk

structure Heap where
  chunks : List Chunk
  bins : Nat → List Nat
  allocatedSpace : Nat

def Separated (chunk next : Chunk) : Prop := chunk.isAllocated = true ∨ next.isAllocated = true

/-- The free lists hold exactly the free chunks, each in the bin of its size. -/
def Registered (target : Target) (bins : Nat → List Nat) (free : Nat → Nat → Prop) : Prop :=
  ∀ bin place, place ∈ bins bin ↔ ∃ size, free place size ∧ Bins.binOf target size = bin

def Materialized (space : Nat) (here : Nat → Chunk → Prop) : Prop :=
  ∀ place chunk, here place chunk →
    place < space ∧ (chunk.isAllocated = true → place + chunk.size ≤ space)

structure Heap.Valid (target : Target) (total : Nat) (heap : Heap) : Prop where
  positive : ∀ chunk ∈ heap.chunks, 0 < chunk.size
  tiles : span Chunk.size heap.chunks = total
  separated : heap.chunks.IsChain Separated
  registered : Registered target heap.bins fun place size => ChunkAt 0 heap.chunks place ⟨size, false⟩
  nodup : ∀ bin, (heap.bins bin).Nodup
  materialized : Materialized heap.allocatedSpace (ChunkAt 0 heap.chunks)
  within : heap.allocatedSpace ≤ total

/-- The units that hold no payload: what an operation may write headers and links to. -/
def Outside (space : Nat) (here : Nat → Chunk → Prop) (unit : Nat) : Prop :=
  unit < space ∧ ∀ place size, here place ⟨size, true⟩ → unit ≤ place ∨ place + size ≤ unit

/-- A heap with a gap of `size` units between two stretches of chunks. -/
structure Gap where
  before : List Chunk
  size : Nat
  after : List Chunk
  bins : Nat → List Nat

def Gap.start (gap : Gap) : Nat := span Chunk.size gap.before

def Gap.chunkAt (gap : Gap) (place : Nat) (chunk : Chunk) : Prop :=
  ChunkAt 0 gap.before place chunk ∨ ChunkAt (gap.start + gap.size) gap.after place chunk

def Gap.Room (gap : Gap) (place : Nat) (chunk : Chunk) : Prop :=
  gap.chunkAt place chunk ∨ gap.start ≤ place ∧ place + chunk.size ≤ gap.start + gap.size

structure Gap.Valid (target : Target) (total space : Nat) (gap : Gap) : Prop where
  positive : ∀ chunk, chunk ∈ gap.before ∨ chunk ∈ gap.after → 0 < chunk.size
  tiles : gap.start + gap.size + span Chunk.size gap.after = total
  left : gap.before.IsChain Separated
  right : gap.after.IsChain Separated
  registered : Registered target gap.bins fun place size => gap.chunkAt place ⟨size, false⟩
  nodup : ∀ bin, (gap.bins bin).Nodup
  materialized : Materialized space gap.chunkAt
  within : space ≤ total

def removeFree (bins : Nat → List Nat) (bin place : Nat) : Nat → List Nat :=
  Function.update bins bin ((bins bin).erase place)

def insertFree (bins : Nat → List Nat) (bin place : Nat) : Nat → List Nat :=
  Function.update bins bin (place :: bins bin)

namespace Gap

variable (target : Target)

def absorbNext (gap : Gap) : Gap :=
  match gap.after with
  | ⟨size, false⟩ :: rest =>
      { before := gap.before, size := gap.size + size, after := rest
        bins := removeFree gap.bins (Bins.binOf target size) (gap.start + gap.size) }
  | _ => gap

def absorbPrev (gap : Gap) : Gap :=
  match gap.before.getLast? with
  | some ⟨size, false⟩ =>
      { before := gap.before.dropLast, size := gap.size + size, after := gap.after
        bins := removeFree gap.bins (Bins.binOf target size) (span Chunk.size gap.before.dropLast) }
  | _ => gap

def place (chunk : Chunk) (gap : Gap) : Gap :=
  { before := gap.before ++ [chunk], size := gap.size - chunk.size, after := gap.after
    bins := if chunk.isAllocated then gap.bins
      else insertFree gap.bins (Bins.binOf target chunk.size) gap.start }

def placeFree (size : Nat) (gap : Gap) : Gap :=
  if size = 0 then gap else place target ⟨size, false⟩ gap

def resize (init : List Chunk) (old new : Nat) (gap : Gap) : Gap :=
  { before := init ++ [⟨new, true⟩], size := gap.size + old - new, after := gap.after
    bins := gap.bins }

def heap (space : Nat) (gap : Gap) : Heap :=
  { chunks := gap.before ++ gap.after, bins := gap.bins, allocatedSpace := space }

end Gap

section Lists

variable {bins : Nat → List Nat} {bin place : Nat}

theorem erase_middle {left right : List Nat} (fresh : place ∉ left) :
    (left ++ place :: right).erase place = left ++ right := by
  rw [List.erase_append_right _ fresh, List.erase_cons_head]

theorem mem_removeFree (nodup : ∀ bin, (bins bin).Nodup) (other otherPlace : Nat) :
    otherPlace ∈ removeFree bins bin place other ↔
      otherPlace ∈ bins other ∧ ¬ (other = bin ∧ otherPlace = place) := by
  by_cases same : other = bin
  · subst same
    simp only [removeFree, Function.update_self, (nodup other).mem_erase_iff, true_and]
    exact and_comm
  · simp [removeFree, same]

theorem mem_insertFree (other otherPlace : Nat) :
    otherPlace ∈ insertFree bins bin place other ↔
      (other = bin ∧ otherPlace = place) ∨ otherPlace ∈ bins other := by
  by_cases same : other = bin
  · subst same
    simp [insertFree]
  · simp [insertFree, same]

theorem nodup_removeFree (nodup : ∀ bin, (bins bin).Nodup) (other : Nat) :
    (removeFree bins bin place other).Nodup := by
  by_cases same : other = bin
  · subst same
    simpa [removeFree] using (nodup other).erase place
  · simpa [removeFree, same] using nodup other

theorem nodup_insertFree (nodup : ∀ bin, (bins bin).Nodup) (fresh : place ∉ bins bin)
    (other : Nat) : (insertFree bins bin place other).Nodup := by
  by_cases same : other = bin
  · subst same
    simpa [insertFree] using ⟨fresh, nodup other⟩
  · simpa [insertFree, same] using nodup other

variable {target : Target} {size : Nat} {free free' : Nat → Nat → Prop}

theorem registered_remove (registered : Registered target bins free)
    (nodup : ∀ bin, (bins bin).Nodup)
    (split : ∀ other otherSize, free other otherSize ↔
      (other = place ∧ otherSize = size) ∨ free' other otherSize)
    (gone : ∀ otherSize, ¬ free' place otherSize) :
    Registered target (removeFree bins (Bins.binOf target size) place) free' := by
  intro bin other
  rw [mem_removeFree nodup, registered]
  constructor
  · rintro ⟨⟨otherSize, here, rfl⟩, different⟩
    rcases (split other otherSize).mp here with ⟨rfl, rfl⟩ | kept
    · exact absurd ⟨rfl, rfl⟩ different
    · exact ⟨otherSize, kept, rfl⟩
  · rintro ⟨otherSize, kept, rfl⟩
    refine ⟨⟨otherSize, (split other otherSize).mpr (Or.inr kept), rfl⟩, ?_⟩
    rintro ⟨_, rfl⟩
    exact gone otherSize kept

theorem registered_insert (registered : Registered target bins free)
    (split : ∀ other otherSize, free' other otherSize ↔
      (other = place ∧ otherSize = size) ∨ free other otherSize) :
    Registered target (insertFree bins (Bins.binOf target size) place) free' := by
  intro bin other
  rw [mem_insertFree, registered]
  constructor
  · rintro (⟨rfl, rfl⟩ | ⟨otherSize, here, rfl⟩)
    · exact ⟨size, (split other size).mpr (Or.inl ⟨rfl, rfl⟩), rfl⟩
    · exact ⟨otherSize, (split other otherSize).mpr (Or.inr here), rfl⟩
  · rintro ⟨otherSize, here, rfl⟩
    rcases (split other otherSize).mp here with ⟨rfl, rfl⟩ | old
    · exact Or.inl ⟨rfl, rfl⟩
    · exact Or.inr ⟨otherSize, old, rfl⟩

theorem registered_congr (registered : Registered target bins free)
    (same : ∀ other otherSize, free' other otherSize ↔ free other otherSize) :
    Registered target bins free' := by
  intro bin other
  rw [registered]
  exact exists_congr fun otherSize => and_congr_left fun _ => (same other otherSize).symm

theorem materialized_mono {space space' : Nat} {here here' : Nat → Chunk → Prop}
    (grown : space ≤ space') (fewer : ∀ place chunk, here' place chunk → here place chunk)
    (materialized : Materialized space here) : Materialized space' here' := by
  intro place chunk at'
  obtain ⟨low, high⟩ := materialized place chunk (fewer place chunk at')
  exact ⟨by omega, fun allocated => by have := high allocated; omega⟩

end Lists

section Gaps

variable {target : Target} {total space : Nat} {gap : Gap}

theorem Gap.before_lt {place : Nat} {chunk : Chunk} (valid : gap.Valid target total space)
    (here : ChunkAt 0 gap.before place chunk) :
    place < gap.start ∧ place + chunk.size ≤ gap.start := by
  have wide := valid.positive chunk (Or.inl (tileAt_mem here))
  have bounds := (tileAt_bounds here).2
  simp only [Gap.start] at *
  omega

theorem Gap.after_ge {place : Nat} {chunk : Chunk}
    (here : ChunkAt (gap.start + gap.size) gap.after place chunk) :
    gap.start + gap.size ≤ place := (tileAt_bounds here).1

theorem Gap.not_chunkAt {place : Nat} {chunk : Chunk} (valid : gap.Valid target total space)
    (low : gap.start ≤ place) (high : place < gap.start + gap.size) :
    ¬ gap.chunkAt place chunk := by
  rintro (here | here)
  · have := (Gap.before_lt valid here).1
    omega
  · have := Gap.after_ge here
    omega

theorem Gap.absorbNext_valid (valid : gap.Valid target total space) :
    (gap.absorbNext target).Valid target total space := by
  obtain ⟨before, size, after, bins⟩ := gap
  match after, valid with
  | [], valid => exact valid
  | ⟨_, true⟩ :: _, valid => exact valid
  | ⟨next, false⟩ :: rest, valid =>
      have wide : 0 < next := valid.positive ⟨next, false⟩ (Or.inr List.mem_cons_self)
      have tiles := valid.tiles
      have start : ∀ {p c}, ChunkAt 0 before p c → p < span Chunk.size before :=
        fun here => (Gap.before_lt valid here).1
      simp only [Gap.start, span_cons] at tiles
      refine ⟨?_, ?_, valid.left, (List.isChain_cons.mp valid.right).2, ?_,
        nodup_removeFree valid.nodup, ?_, valid.within⟩
      · rintro chunk (member | member)
        · exact valid.positive chunk (Or.inl member)
        · exact valid.positive chunk (Or.inr (List.mem_cons_of_mem _ member))
      · simp only [Gap.absorbNext, Gap.start]
        omega
      · refine registered_remove valid.registered valid.nodup (fun p n => ?_) (fun n => ?_)
        · simp only [Gap.chunkAt, Gap.absorbNext, Gap.start, tileAt_cons, Chunk.mk.injEq, and_true,
            Nat.add_assoc]
          exact or_left_comm
        · rintro (here | here)
          · have := start here
            simp only [Gap.start] at *
            omega
          · have := (tileAt_bounds here).1
            simp only [Gap.absorbNext, Gap.start] at *
            omega
      · refine materialized_mono (Nat.le_refl _) (fun p c => ?_) valid.materialized
        rintro (here | here)
        · exact Or.inl here
        · refine Or.inr (Or.inr ?_)
          simpa [Gap.absorbNext, Gap.start, Nat.add_assoc] using here

theorem Gap.absorbPrev_concat (init : List Chunk) (prev size : Nat) (after : List Chunk)
    (bins : Nat → List Nat) :
    Gap.absorbPrev target ⟨init ++ [⟨prev, false⟩], size, after, bins⟩ =
      ⟨init, size + prev, after,
        removeFree bins (Bins.binOf target prev) (span Chunk.size init)⟩ := by
  simp [Gap.absorbPrev]

theorem Gap.absorbPrev_valid (valid : gap.Valid target total space) :
    (gap.absorbPrev target).Valid target total space := by
  obtain ⟨before, size, after, bins⟩ := gap
  rcases List.eq_nil_or_concat before with rfl | ⟨init, ⟨prev, allocated⟩, rfl⟩
  · exact valid
  rw [List.concat_eq_append] at valid ⊢
  cases allocated with
  | true =>
      rw [Gap.absorbPrev]
      simpa using valid
  | false =>
      rw [Gap.absorbPrev_concat]
      have wide : 0 < prev := valid.positive ⟨prev, false⟩ (Or.inl (by simp))
      have tiles := valid.tiles
      have ends : span Chunk.size (init ++ [⟨prev, false⟩]) + size = span Chunk.size init + (size + prev) := by
        simp only [span_append, span_cons, span_nil]
        omega
      simp only [Gap.start, ends] at tiles
      have initial : ∀ {p c}, ChunkAt 0 init p c → p < span Chunk.size init := fun here => by
        have positive := valid.positive _ (Or.inl (List.mem_append_left _ (tileAt_mem here)))
        have := (tileAt_bounds here).2
        omega
      refine ⟨?_, tiles, (List.isChain_append.mp valid.left).1, valid.right, ?_,
        nodup_removeFree valid.nodup, ?_, valid.within⟩
      · rintro chunk (member | member)
        · exact valid.positive chunk (Or.inl (List.mem_append_left _ member))
        · exact valid.positive chunk (Or.inr member)
      · refine registered_remove valid.registered valid.nodup (fun p n => ?_) (fun n => ?_)
        · simp only [Gap.chunkAt, Gap.start, ends, tileAt_append, tileAt_cons, tileAt_nil, or_false,
            Nat.zero_add, Chunk.mk.injEq, and_true]
          rw [or_comm (a := ChunkAt 0 init p _), or_assoc]
        · rintro (here | here)
          · exact absurd (initial here) (Nat.lt_irrefl _)
          · have := (tileAt_bounds here).1
            simp only [Gap.start] at this
            omega
      · refine materialized_mono (Nat.le_refl _) (fun p c => ?_) valid.materialized
        rintro (here | here)
        · exact Or.inl ((tileAt_append _ _ _ _ _).mpr (Or.inl here))
        · refine Or.inr ?_
          simpa only [Gap.start, ends] using here

theorem Gap.place_chunkAt (target : Target) (chunk : Chunk) (fits : chunk.size ≤ gap.size)
    (p : Nat) (c : Chunk) : (gap.place target chunk).chunkAt p c ↔ (p = gap.start ∧ c = chunk) ∨ gap.chunkAt p c := by
  have ends : span Chunk.size (gap.before ++ [chunk]) + (gap.size - chunk.size) =
      span Chunk.size gap.before + gap.size := by
    simp only [span_append, span_cons, span_nil]
    omega
  simp only [Gap.chunkAt, Gap.place, Gap.start, ends, tileAt_append, tileAt_cons, tileAt_nil,
    or_false, Nat.zero_add]
  rw [or_comm (a := ChunkAt 0 gap.before p c), or_assoc]

theorem Gap.place_valid (valid : gap.Valid target total space) (chunk : Chunk)
    (positive : 0 < chunk.size) (fits : chunk.size ≤ gap.size)
    (header : gap.start < space)
    (payload : chunk.isAllocated = true → gap.start + chunk.size ≤ space)
    (separated : ∀ last ∈ gap.before.getLast?, Separated last chunk) :
    (gap.place target chunk).Valid target total space := by
  obtain ⟨before, size, after, bins⟩ := gap
  have tiles := valid.tiles
  simp only [Gap.start] at tiles fits header payload separated
  have ends : span Chunk.size (before ++ [chunk]) + (size - chunk.size) = span Chunk.size before + size := by
    simp only [span_append, span_cons, span_nil]
    omega
  have split : ∀ p c, (Gap.place target chunk ⟨before, size, after, bins⟩).chunkAt p c ↔ _ :=
    Gap.place_chunkAt target chunk fits
  refine ⟨?_, ?_, ?_, valid.right, ?_, ?_, ?_, valid.within⟩
  · rintro other (member | member)
    · rcases List.mem_append.mp member with old | new
      · exact valid.positive other (Or.inl old)
      · rw [List.mem_singleton.mp new]
        exact positive
    · exact valid.positive other (Or.inr member)
  · simp only [Gap.place, Gap.start, ends]
    exact tiles
  · refine List.isChain_append.mpr ⟨valid.left, List.isChain_singleton _, fun last member => ?_⟩
    simpa using separated last member
  · obtain ⟨chunkSize, allocated⟩ := chunk
    cases allocated with
    | true =>
        refine registered_congr valid.registered fun p n => ?_
        simp [split]
    | false =>
        refine registered_insert valid.registered fun p n => ?_
        simp [split, Gap.start]
  · obtain ⟨chunkSize, allocated⟩ := chunk
    cases allocated with
    | true => exact valid.nodup
    | false =>
        refine nodup_insertFree valid.nodup fun member => ?_
        obtain ⟨n, here, _⟩ := (valid.registered _ _).mp member
        exact Gap.not_chunkAt valid (Nat.le_refl _) (by simp only [Gap.start] at *; omega) here
  · intro p c here
    rcases (split p c).mp here with ⟨rfl, rfl⟩ | old
    · exact ⟨header, payload⟩
    · exact valid.materialized p c old

theorem Gap.resize_chunkAt {init : List Chunk} {old new : Nat}
    (ends : gap.before = init ++ [⟨old, true⟩]) (fits : new ≤ gap.size + old) (p : Nat) (c : Chunk) :
    (gap.resize init old new).chunkAt p c ↔ ChunkAt 0 init p c ∨
      (p = span Chunk.size init ∧ c = ⟨new, true⟩) ∨
        ChunkAt (gap.start + gap.size) gap.after p c := by
  have same : span Chunk.size (init ++ [⟨new, true⟩]) + (gap.size + old - new) =
      span Chunk.size gap.before + gap.size := by
    rw [ends]
    simp only [span_append, span_cons, span_nil]
    omega
  simp only [Gap.chunkAt, Gap.resize, Gap.start, same, tileAt_append, tileAt_cons, tileAt_nil,
    or_false, Nat.zero_add, or_assoc]

theorem Gap.resize_wider {init : List Chunk} {old new p n : Nat}
    (ends : gap.before = init ++ [⟨old, true⟩]) (fits : new ≤ gap.size + old) (order : old ≤ new)
    (here : gap.chunkAt p ⟨n, true⟩) :
    ∃ wider ≥ n, (gap.resize init old new).chunkAt p ⟨wider, true⟩ := by
  simp only [Gap.resize_chunkAt ends fits]
  rcases here with early | late
  · rw [ends] at early
    rcases (tileAt_append 0 p _ init [⟨old, true⟩]).mp early with early | ⟨place, same⟩ | impossible
    · exact ⟨n, Nat.le_refl _, Or.inl early⟩
    · rw [Nat.zero_add] at place
      cases same
      exact ⟨new, order, Or.inr (Or.inl ⟨place, rfl⟩)⟩
    · exact impossible.elim
  · exact ⟨n, Nat.le_refl _, Or.inr (Or.inr late)⟩

theorem Gap.resize_valid {init : List Chunk} {old new : Nat} (valid : gap.Valid target total space)
    (ends : gap.before = init ++ [⟨old, true⟩]) (positive : 0 < new) (fits : new ≤ gap.size + old)
    (payload : span Chunk.size init + new ≤ space) :
    (gap.resize init old new).Valid target total space := by
  have tiles := valid.tiles
  have start : gap.start = span Chunk.size init + old := by
    rw [Gap.start, ends]
    simp
  have chains := List.isChain_append.mp (ends ▸ valid.left)
  have split := Gap.resize_chunkAt ends fits
  have around : ∀ p c, gap.chunkAt p c ↔ ChunkAt 0 init p c ∨
      (p = span Chunk.size init ∧ c = ⟨old, true⟩) ∨
        ChunkAt (gap.start + gap.size) gap.after p c := by
    intro p c
    simp only [Gap.chunkAt, ends, tileAt_append, tileAt_cons, tileAt_nil, or_false, Nat.zero_add,
      or_assoc]
  refine ⟨?_, ?_, ?_, valid.right, ?_, valid.nodup, ?_, valid.within⟩
  · rintro chunk (member | member)
    · rcases List.mem_append.mp member with early | late
      · exact valid.positive chunk (Or.inl (ends ▸ List.mem_append_left _ early))
      · rw [List.mem_singleton.mp late]
        exact positive
    · exact valid.positive chunk (Or.inr member)
  · simp only [Gap.resize, Gap.start, span_append, span_cons, span_nil]
    omega
  · refine List.isChain_append.mpr ⟨chains.1, List.isChain_singleton _, fun last _ first member => ?_⟩
    obtain rfl := Option.some.inj member
    exact Or.inr rfl
  · refine registered_congr valid.registered fun p n => ?_
    rw [split, around]
    simp
  · intro p c here
    rcases (split p c).mp here with early | ⟨rfl, rfl⟩ | late
    · exact valid.materialized p c ((around p c).mpr (Or.inl early))
    · exact ⟨by omega, fun _ => payload⟩
    · exact valid.materialized p c ((around p c).mpr (Or.inr (Or.inr late)))

theorem Gap.heap_valid (valid : gap.Valid target total space) (filled : gap.size = 0)
    (separated : ∀ last ∈ gap.before.getLast?, ∀ first ∈ gap.after.head?,
      Separated last first) :
    (gap.heap space).Valid target total := by
  obtain ⟨before, size, after, bins⟩ := gap
  subst filled
  have same : ∀ p c, ChunkAt 0 (before ++ after) p c ↔ Gap.chunkAt ⟨before, 0, after, bins⟩ p c := by
    intro p c
    simp [Gap.chunkAt, Gap.start, tileAt_append]
  refine ⟨?_, ?_, List.isChain_append.mpr ⟨valid.left, valid.right, separated⟩,
    registered_congr valid.registered fun p n => same p _, valid.nodup,
    materialized_mono (Nat.le_refl _) (fun p c => (same p c).mp) valid.materialized, valid.within⟩
  · intro chunk member
    exact valid.positive chunk (List.mem_append.mp member)
  · have tiles := valid.tiles
    simpa [Gap.heap, Gap.start] using tiles

theorem chunkAt_here {chunks before after : List Chunk} {chunk : Chunk}
    (here : chunks = before ++ chunk :: after) : ChunkAt 0 chunks (span Chunk.size before) chunk := by
  rw [here]
  simpa using tileAt_middle 0 chunk before after

/-- Opening the heap at one of its chunks, which leaves the free lists if it was free. -/
theorem Heap.Valid.openAt {heap : Heap} {before after : List Chunk} {chunk : Chunk}
    (valid : heap.Valid target total) (here : heap.chunks = before ++ chunk :: after) :
    Gap.Valid target total heap.allocatedSpace
      { before, size := chunk.size, after
        bins := if chunk.isAllocated then heap.bins
          else removeFree heap.bins (Bins.binOf target chunk.size) (span Chunk.size before) } := by
  obtain ⟨chunks, bins, space⟩ := heap
  subst here
  have wide := valid.positive chunk (by simp)
  have tiles := valid.tiles
  have chains := List.isChain_append.mp valid.separated
  have split : ∀ p c, ChunkAt 0 (before ++ chunk :: after) p c ↔
      (p = span Chunk.size before ∧ c = chunk) ∨ (ChunkAt 0 before p c ∨
        ChunkAt (span Chunk.size before + chunk.size) after p c) := by
    intro p c
    simp only [tileAt_append, tileAt_cons, Nat.zero_add]
    exact or_left_comm
  have gone : ∀ c, ¬ (ChunkAt 0 before (span Chunk.size before) c ∨
      ChunkAt (span Chunk.size before + chunk.size) after (span Chunk.size before) c) := by
    rintro c (here | here)
    · have positive := valid.positive c (List.mem_append_left _ (tileAt_mem here))
      have := (tileAt_bounds here).2
      omega
    · have := (tileAt_bounds here).1
      omega
  refine ⟨?_, ?_, chains.1, (List.isChain_cons.mp chains.2.1).2, ?_, ?_, ?_, valid.within⟩
  · rintro other (member | member) <;> exact valid.positive other (by simp [member])
  · simpa [Gap.start, Nat.add_assoc] using tiles
  · obtain ⟨size, allocated⟩ := chunk
    cases allocated with
    | true =>
        refine registered_congr valid.registered fun p n => ?_
        simp only [Gap.chunkAt, Gap.start, split]
        simp
    | false =>
        refine registered_remove valid.registered valid.nodup (fun p n => ?_) (fun n => gone _)
        simp only [Gap.chunkAt, Gap.start, split]
        simp
  · cases chunk.isAllocated
    · exact nodup_removeFree valid.nodup
    · exact valid.nodup
  · exact materialized_mono (Nat.le_refl _) (fun p c here => (split p c).mpr (Or.inr here))
      valid.materialized

theorem Heap.Valid.seam {heap : Heap} {left right : List Chunk} (valid : heap.Valid target total)
    (here : heap.chunks = left ++ right) :
    Gap.Valid target total heap.allocatedSpace
      { before := left, size := 0, after := right, bins := heap.bins } := by
  obtain ⟨chunks, bins, space⟩ := heap
  subst here
  have chains := List.isChain_append.mp valid.separated
  have same : ∀ p c, ChunkAt 0 (left ++ right) p c ↔ Gap.chunkAt ⟨left, 0, right, bins⟩ p c := by
    intro p c
    simp [Gap.chunkAt, Gap.start, tileAt_append]
  refine ⟨fun chunk member => valid.positive chunk (List.mem_append.mpr member), ?_, chains.1,
    chains.2.1, registered_congr valid.registered fun p n => (same p _).symm, valid.nodup,
    materialized_mono (Nat.le_refl _) (fun p c => (same p c).mpr) valid.materialized, valid.within⟩
  have tiles := valid.tiles
  simpa [Gap.start] using tiles

theorem Gap.chunkAt_apart {p q : Nat} {c d : Chunk} (valid : gap.Valid target total space)
    (here : gap.chunkAt p c) (there : gap.chunkAt q d) :
    p = q ∨ p + c.size ≤ q ∨ q + d.size ≤ p := by
  rcases here with here | here <;> rcases there with there | there
  · rcases Nat.lt_trichotomy p q with before | same | after
    · exact Or.inr (Or.inl (tileAt_disjoint here there before))
    · exact Or.inl same
    · exact Or.inr (Or.inr (tileAt_disjoint there here after))
  · have := (Gap.before_lt valid here).2
    have := Gap.after_ge there
    omega
  · have := (Gap.before_lt valid there).2
    have := Gap.after_ge here
    omega
  · rcases Nat.lt_trichotomy p q with before | same | after
    · exact Or.inr (Or.inl (tileAt_disjoint here there before))
    · exact Or.inl same
    · exact Or.inr (Or.inr (tileAt_disjoint there here after))

theorem Outside.mono {here here' : Nat → Chunk → Prop} {unit : Nat}
    (kept : ∀ place size, here place ⟨size, true⟩ → ∃ wider ≥ size, here' place ⟨wider, true⟩)
    (outside : Outside space here' unit) : Outside space here unit := by
  refine ⟨outside.1, fun place size at' => ?_⟩
  obtain ⟨wider, order, there⟩ := kept place size at'
  have := outside.2 place wider there
  omega

theorem Gap.outside_of_chunkAt {p : Nat} {c : Chunk} (valid : gap.Valid target total space)
    (here : gap.chunkAt p c) : Outside space gap.Room p := by
  refine ⟨(valid.materialized p c here).1, fun q n there => ?_⟩
  have wide := valid.positive c (here.imp tileAt_mem tileAt_mem)
  rcases there with there | ⟨low, high⟩
  · rcases Gap.chunkAt_apart valid here there with rfl | before | after
    · exact Or.inl (Nat.le_refl _)
    · exact Or.inl (by omega)
    · exact Or.inr after
  · rcases here with early | late
    · have := (Gap.before_lt valid early).1
      exact Or.inl (by omega)
    · have := Gap.after_ge late
      exact Or.inr (by simp only at high; omega)

theorem Gap.outside_start (valid : gap.Valid target total space) (inside : gap.start < space) :
    Outside space gap.Room gap.start := by
  refine ⟨inside, ?_⟩
  rintro q n ((here | here) | ⟨low, _⟩)
  · exact Or.inr (Gap.before_lt valid here).2
  · exact Or.inl (by have := Gap.after_ge here; omega)
  · exact Or.inl low

theorem Outside.around {unit : Nat} (outside : Outside space gap.Room unit) :
    Outside space gap.chunkAt unit :=
  outside.mono fun _ n here => ⟨n, Nat.le_refl _, Or.inl here⟩

section Closed

/-- The chunk after the gap is allocated, so free space in the gap need not be merged. -/
def Gap.ClosedRight (gap : Gap) : Prop := ∀ first ∈ gap.after.head?, first.isAllocated = true

def Gap.ClosedLeft (gap : Gap) : Prop := ∀ last ∈ gap.before.getLast?, last.isAllocated = true

@[simp] theorem Gap.absorbNext_before (target : Target) (gap : Gap) :
    (gap.absorbNext target).before = gap.before := by
  simp only [Gap.absorbNext]
  split <;> rfl

theorem Gap.absorbNext_closed (valid : gap.Valid target total space) :
    (gap.absorbNext target).ClosedRight := by
  obtain ⟨before, size, after, bins⟩ := gap
  intro first member
  match after, valid, member with
  | ⟨_, true⟩ :: _, _, member =>
      obtain rfl := Option.some.inj member
      rfl
  | ⟨_, false⟩ :: rest, valid, member =>
      exact ((List.isChain_cons.mp valid.right).1 first member).resolve_left Bool.false_ne_true

theorem Gap.absorbPrev_closed (valid : gap.Valid target total space) :
    (gap.absorbPrev target).ClosedLeft := by
  obtain ⟨before, size, after, bins⟩ := gap
  rcases List.eq_nil_or_concat before with rfl | ⟨init, ⟨prev, allocated⟩, rfl⟩
  · intro last member
    simp [Gap.absorbPrev] at member
  rw [List.concat_eq_append] at valid ⊢
  intro last member
  cases allocated with
  | true =>
      simp only [Gap.absorbPrev, List.getLast?_concat, Option.mem_def, Option.some.injEq] at member
      subst member
      rfl
  | false =>
      simp only [Gap.absorbPrev, List.getLast?_concat, List.dropLast_concat] at member
      exact ((List.isChain_append.mp valid.left).2.2 last member _ rfl).resolve_right
        Bool.false_ne_true

theorem Gap.absorbNext_chunkAt (p : Nat) (c : Chunk) (here : (gap.absorbNext target).chunkAt p c) :
    gap.chunkAt p c := by
  obtain ⟨before, size, after, bins⟩ := gap
  match after, here with
  | [], here => exact here
  | ⟨_, true⟩ :: _, here => exact here
  | ⟨next, false⟩ :: rest, here =>
      refine here.imp_right fun later => Or.inr ?_
      simpa [Gap.absorbNext, Gap.start, Nat.add_assoc] using later

theorem Gap.absorbNext_allocated (target : Target) (p n : Nat)
    (here : gap.chunkAt p ⟨n, true⟩) : (gap.absorbNext target).chunkAt p ⟨n, true⟩ := by
  obtain ⟨before, size, after, bins⟩ := gap
  match after, here with
  | [], here => exact here
  | ⟨_, true⟩ :: _, here => exact here
  | ⟨next, false⟩ :: rest, here =>
      refine here.imp_right fun later => ?_
      have later := later.resolve_left (by simp)
      simpa [Gap.absorbNext, Gap.start, Nat.add_assoc] using later

theorem Gap.absorbPrev_allocated (target : Target) (p n : Nat)
    (here : gap.chunkAt p ⟨n, true⟩) : (gap.absorbPrev target).chunkAt p ⟨n, true⟩ := by
  obtain ⟨before, size, after, bins⟩ := gap
  rcases List.eq_nil_or_concat before with rfl | ⟨init, ⟨prev, allocated⟩, rfl⟩
  · exact here
  rw [List.concat_eq_append] at here ⊢
  cases allocated with
  | true =>
      rw [Gap.absorbPrev]
      simpa using here
  | false =>
      rw [Gap.absorbPrev_concat]
      rcases here with here | here
      · refine Or.inl ?_
        simpa [tileAt_append, tileAt_cons] using here
      · refine Or.inr ?_
        have ends : span Chunk.size (init ++ [⟨prev, false⟩]) + size =
            span Chunk.size init + (size + prev) := by
          simp only [span_append, span_cons, span_nil]
          omega
        simpa only [Gap.start, ends] using here

end Closed

end Gaps

end Picoalloc
