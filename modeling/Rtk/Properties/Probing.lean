import Rtk.Core.Search
import Rtk.Core.Transition
import Rtk.Lib.HashTable

/-!
# The nodes that the hash table's functions access

`HashTableGet` does not wrap its index, and neither does the inner loop of
`HashTableInsert`.  In a table that was initialised and then only inserted into, a node
holds a key of its own bucket, so that the key and the free slots decide how far both
loops come.
-/

namespace Rtk.Lib

open Function
open Rtk.ByteMemory
open Rtk.Search
open Rtk.Transition

/-! ## Accesses -/

/-- The test of the loop of `HashTableGet`. -/
def found (ht : HashTable) (past : ℕ → HashTableNode) (key : Word) (i : ℕ) : Bool :=
  decide ((ht.read past (H key + i)).key = key)

/-- The indices of `ht->nodes` that `HashTableGet` reads. -/
def getIndices (ht : HashTable) (past : ℕ → HashTableNode) (key : Word) : List ℕ :=
  (examined (found ht past key) (List.range htNeighbourhoodSize)).map (H key + ·)

/-- The test of the inner loop of `HashTableInsert`. -/
def fits (ht : HashTable) (past : ℕ → HashTableNode) (index j : ℕ) : Bool :=
  let y := index + j % htSize
  let yHash := H (ht.read past y).key
  let yRange := yHash + htNeighbourhoodSize
  decide (yHash ≤ index ∧ index < yRange % htSize)

def neighbourhoodIndices (ht : HashTable) (past : ℕ → HashTableNode) (index : ℕ) : List ℕ :=
  (examined (fits ht past index) (List.range htNeighbourhoodSize)).map fun j =>
    index + j % htSize

/-- The test of the outer loop of `HashTableInsert`. -/
def settles (ht : HashTable) (past : ℕ → HashTableNode) (bucket i : ℕ) : Bool :=
  let index := (i + bucket) % htSize
  decide ((ht.nodes index).key = htSentinel) &&
    (decide (i < htNeighbourhoodSize) || neighbourhoodFits ht past index)

/-- The indices that a round of the outer loop reads. -/
def slotIndices (ht : HashTable) (past : ℕ → HashTableNode) (bucket i : ℕ) : List ℕ :=
  let index := (i + bucket) % htSize
  index ::
    if (ht.nodes index).key ≠ htSentinel ∨ i < htNeighbourhoodSize then []
    else neighbourhoodIndices ht past index

/-- The indices of `ht->nodes` that `HashTableInsert` reads or writes. -/
def insertIndices (ht : HashTable) (past : ℕ → HashTableNode) (key : Word) : List ℕ :=
  (examined (settles ht past (H key)) (List.range htSize)).flatMap
      (slotIndices ht past (H key)) ++
    if (insertAt ht past (H key)).isSome then [H key] else []

structure Insertion where
  past : ℕ → HashTableNode
  key : Word
  data : ℤ

/-- A table that is initialised and then inserted into. -/
def table : System HashTable Insertion where
  initial ht := ∃ before, ht = hashTableInitialize before
  step ht insertion ht' :=
    (hashTableInsert ht insertion.past insertion.key insertion.data).2 = ht'

/-! ## Conditions -/

def Free (ht : HashTable) (index : ℕ) : Prop := (ht.nodes index).key = htSentinel

/-- The neighbourhood of the bucket ends inside the table, or the key is in its bucket. -/
def GetsInside (ht : HashTable) (key : Word) : Prop :=
  H key + htNeighbourhoodSize ≤ htSize ∨ (ht.nodes (H key)).key = key

/-- Of the slots behind the neighbourhood of the bucket, a free one with a neighbourhood
that leaves the table comes after a free slot of the bucket's or of the table's first
neighbourhood. -/
def InsertsInside (ht : HashTable) (key : Word) : Prop :=
  ∀ i, htNeighbourhoodSize ≤ i → i < htSize → Free ht ((i + H key) % htSize) →
    htSize < (i + H key) % htSize + htNeighbourhoodSize →
      ∃ j < i, Free ht ((j + H key) % htSize) ∧
        (j < htNeighbourhoodSize ∨ (j + H key) % htSize < htNeighbourhoodSize)

section Accesses

variable {ht ht' : HashTable} {past past' : ℕ → HashTableNode} {key : Word}
  {data : ℤ} {bucket index i : ℕ}

theorem slot_lt (i bucket : ℕ) : (i + bucket) % htSize < htSize := Nat.mod_lt _ (by decide)

/-! ## Nothing else is accessed -/

theorem probe_eq_find? (ht : HashTable) (past : ℕ → HashTableNode) (key : Word) :
    probe ht past key = ((List.range htNeighbourhoodSize).find? (found ht past key)).map
      fun i => (ht.read past (H key + i)).data := by
  rw [probe, ← List.findSome?_guard, List.map_findSome?]
  congr 1
  funext i
  by_cases hkey : (ht.read past (H key + i)).key = key <;> simp [Option.guard, found, hkey]

theorem insertAt_eq_find? (ht : HashTable) (past : ℕ → HashTableNode) (bucket : ℕ) :
    insertAt ht past bucket = ((List.range htSize).find? (settles ht past bucket)).map
      fun i => (i + bucket) % htSize := by
  rw [insertAt, ← List.findSome?_guard, List.map_findSome?]
  congr 1
  funext i
  by_cases hfree : (ht.nodes ((i + bucket) % htSize)).key = htSentinel
  · by_cases hnear : i < htNeighbourhoodSize
    · simp [Option.guard, settles, hfree, hnear]
    · cases hfits : neighbourhoodFits ht past ((i + bucket) % htSize) <;>
        simp [Option.guard, settles, hfree, hnear, hfits]
  · simp [Option.guard, settles, hfree]

/-- What `HashTableGet` returns depends on the nodes that it reads. -/
theorem hashTableGet_congr
    (hsame : ∀ index ∈ getIndices ht past key, ht.read past index = ht'.read past' index) :
    hashTableGet ht past key data = hashTableGet ht' past' key data := by
  have hread : ∀ i ∈ examined (found ht past key) (List.range htNeighbourhoodSize),
      ht.read past (H key + i) = ht'.read past' (H key + i) := fun i hi =>
    hsame _ (List.mem_map_of_mem hi)
  have hfind : (List.range htNeighbourhoodSize).find? (found ht past key) =
      (List.range htNeighbourhoodSize).find? (found ht' past' key) := by
    apply find?_congr
    intro i hi
    rw [found, found, hread i hi]
  have hprobe : probe ht past key = probe ht' past' key := by
    rw [probe_eq_find?, probe_eq_find?, ← hfind]
    apply Option.map_congr
    intro i hi
    rw [hread i (mem_examined_of_find? hi)]
  rw [hashTableGet, hashTableGet, hprobe]

theorem neighbourhoodFits_congr
    (hsame : ∀ y ∈ neighbourhoodIndices ht past index, ht.read past y = ht'.read past' y) :
    neighbourhoodFits ht past index = neighbourhoodFits ht' past' index := by
  apply any_congr
  intro j hj
  have hread := hsame _ (List.mem_map_of_mem hj)
  simp only [hread]

theorem settles_congr
    (hsame : ∀ index ∈ slotIndices ht past bucket i, ht.read past index = ht'.read past' index) :
    settles ht past bucket i = settles ht' past' bucket i := by
  have hslot := hsame _ List.mem_cons_self
  rw [read_of_lt past (slot_lt _ _), read_of_lt past' (slot_lt _ _)] at hslot
  by_cases hfree : (ht.nodes ((i + bucket) % htSize)).key = htSentinel
  · by_cases hnear : i < htNeighbourhoodSize
    · simp [settles, ← hslot, hnear]
    · have hfits : neighbourhoodFits ht past ((i + bucket) % htSize) =
          neighbourhoodFits ht' past' ((i + bucket) % htSize) := by
        apply neighbourhoodFits_congr
        intro y hy
        apply hsame
        rw [slotIndices, if_neg (by simp [hfree, hnear])]
        exact List.mem_cons_of_mem _ hy
      rw [settles, settles, hfits, hslot]
  · simp [settles, ← hslot, hfree]

/-- Whether `HashTableInsert` succeeds depends on the nodes that it reads. -/
theorem hashTableInsert_status_congr
    (hsame : ∀ index ∈ insertIndices ht past key, ht.read past index = ht'.read past' index) :
    (hashTableInsert ht past key data).1 = (hashTableInsert ht' past' key data).1 := by
  have hfind : (List.range htSize).find? (settles ht past (H key)) =
      (List.range htSize).find? (settles ht' past' (H key)) := by
    apply find?_congr
    intro i hi
    apply settles_congr
    intro index hindex
    exact hsame index (List.mem_append_left _ (List.mem_flatMap_of_mem hi hindex))
  have hinsertAt : insertAt ht past (H key) = insertAt ht' past' (H key) := by
    rw [insertAt_eq_find?, insertAt_eq_find?, hfind]
  rw [hashTableInsert, hashTableInsert, hinsertAt]
  cases insertAt ht' past' (H key) <;> rfl

/-- `HashTableInsert` writes no other node. -/
theorem hashTableInsert_nodes_of_notMem (hindex : index ∉ insertIndices ht past key) :
    (hashTableInsert ht past key data).2.nodes index = ht.nodes index := by
  rw [hashTableInsert]
  cases hat : insertAt ht past (H key) with
  | none => rfl
  | some slot =>
      apply update_of_ne
      rintro rfl
      apply hindex
      rw [insertIndices, hat]
      exact List.mem_append_right _ List.mem_cons_self

/-! ## Reachable tables -/

theorem exists_stores_of_reachable (hreachable : Reachable table (fun _ _ => True) ht) :
    ∃ old insertions, Stores ht old insertions := by
  apply hreachable.invariant
  · rintro s ⟨before, rfl⟩
    exact ⟨_, [], stores_initial before⟩
  · intro s insertion s' hstores _ hstep
    obtain ⟨old, insertions, hstored⟩ := hstores
    have hinsert : hashTableInsert s insertion.past insertion.key insertion.data =
        ((hashTableInsert s insertion.past insertion.key insertion.data).1, s') :=
      Prod.ext rfl hstep
    cases hashTableInsert_status s insertion.past insertion.key insertion.data with
    | inl hsuccess =>
        rw [hsuccess] at hinsert
        exact ⟨old, _, hstored.insert hinsert⟩
    | inr hfailed =>
        rw [hfailed] at hinsert
        rw [hashTableInsert_failed hinsert]
        exact ⟨old, insertions, hstored⟩

/-- A node is free or holds a key of its own bucket. -/
def Placed (ht : HashTable) : Prop := ∀ index, Free ht index ∨ H (ht.nodes index).key = index

theorem placed_of_reachable (hreachable : Reachable table (fun _ _ => True) ht) :
    Placed ht := by
  intro index
  obtain ⟨old, insertions, hstores⟩ := exists_stores_of_reachable hreachable
  cases hlatest : latest insertions index with
  | none =>
      left
      rw [Free, hstores.unwritten hlatest]
  | some insertion =>
      right
      rw [hstores.written hlatest]
      exact H_of_latest hlatest

/-- A loop from `base` on that nothing in the table stops comes to its end. -/
theorem end_mem_examined {stops : ℕ → Bool} {base : ℕ} (hbase : base < htSize)
    (hout : htSize < base + htNeighbourhoodSize)
    (hmissed : ∀ j, base + j < htSize → stops j = false) :
    htSize - base ∈ examined stops (List.range htNeighbourhoodSize) := by
  rw [mem_examined_range]
  exact ⟨by omega, fun j hj => hmissed j (by omega)⟩

/-! ## Lookups -/

/-- In another bucket only the sentinel is found. -/
theorem Placed.key_ne (h : Placed ht) (hbucket : index ≠ H key) (hkey : H key ≠ 0) :
    (ht.nodes index).key ≠ key := by
  rintro rfl
  cases h index with
  | inl hfree =>
      rw [hfree] at hkey
      exact hkey rfl
  | inr hown => exact hbucket hown.symm

theorem Placed.getIndices_inside_iff (h : Placed ht) (past : ℕ → HashTableNode) (key : Word) :
    (∀ index ∈ getIndices ht past key, index < htSize) ↔ GetsInside ht key := by
  have hbucket := H_lt key
  constructor
  · intro hinside
    by_contra houtside
    obtain ⟨hout, hmissed⟩ := not_or.mp houtside
    have hreached : htSize - H key ∈
        examined (found ht past key) (List.range htNeighbourhoodSize) := by
      apply end_mem_examined hbucket (Nat.lt_of_not_le hout)
      intro j hj
      apply decide_eq_false
      rw [read_of_lt past hj]
      by_cases hfirst : j = 0
      · subst j
        exact hmissed
      · rw [htNeighbourhoodSize, htSize] at hout
        exact h.key_ne (by omega) (by omega)
    have hlast := hinside _ (List.mem_map_of_mem hreached)
    rw [Nat.add_sub_of_le (Nat.le_of_lt hbucket)] at hlast
    exact Nat.lt_irrefl _ hlast
  · intro hinside index hindex
    obtain ⟨i, hi, rfl⟩ := List.mem_map.mp hindex
    obtain ⟨hbound, hbelow⟩ := mem_examined_range.mp hi
    rcases hinside with hnear | hfirst
    · exact Nat.lt_of_lt_of_le (Nat.add_lt_add_left hbound _) hnear
    · cases i with
      | zero => exact hbucket
      | succ i =>
          have hmissed := of_decide_eq_false (hbelow 0 (Nat.succ_pos i))
          rw [Nat.add_zero, read_of_lt past hbucket] at hmissed
          exact absurd hfirst hmissed

/-! ## Insertions -/

/-- In the first neighbourhood of the table a free slot fits at its own node. -/
theorem neighbourhoodFits_of_near (past : ℕ → HashTableNode) (hfree : Free ht index)
    (hnear : index < htNeighbourhoodSize) : neighbourhoodFits ht past index = true := by
  have hindex : index < htSize := Nat.lt_trans hnear (by decide)
  have hread : ht.read past (index + 0 % htSize) = ht.nodes index := read_of_lt past hindex
  have hfits : fits ht past index 0 = true := by
    rw [fits, hread, hfree]
    exact decide_eq_true ⟨Nat.zero_le _, hnear⟩
  exact List.any_eq_true.mpr ⟨0, List.mem_range.mpr (by decide), hfits⟩

/-- Behind the first neighbourhood of the table no node inside it lets a free slot fit. -/
theorem Placed.fits_eq_false (h : Placed ht) (past : ℕ → HashTableNode) (hfree : Free ht index)
    (hfar : htNeighbourhoodSize ≤ index) {j : ℕ} (hinside : index + j < htSize) :
    fits ht past index j = false := by
  have hmod : j % htSize = j :=
    Nat.mod_eq_of_lt (Nat.lt_of_le_of_lt (Nat.le_add_left _ _) hinside)
  rw [fits, hmod, read_of_lt past hinside]
  apply decide_eq_false
  rintro ⟨hle, hlt⟩
  cases h (index + j) with
  | inl hsentinel =>
      rw [hsentinel] at hlt
      exact absurd hlt (Nat.not_lt_of_le hfar)
  | inr hown =>
      -- the slot is free, so that the node is another one
      rw [hown] at hle
      have hj : j = 0 := by omega
      subst j
      rw [Nat.add_zero, hfree] at hown
      rw [← hown] at hfar
      exact absurd hfar (by decide)

theorem Placed.neighbourhoodIndices_inside_iff (h : Placed ht) (past : ℕ → HashTableNode)
    (hindex : index < htSize) (hfree : Free ht index) :
    (∀ y ∈ neighbourhoodIndices ht past index, y < htSize) ↔
      index + htNeighbourhoodSize ≤ htSize := by
  constructor
  · intro hinside
    by_contra hout
    have hfar : htNeighbourhoodSize ≤ index := by
      rw [htSize, htNeighbourhoodSize] at *
      omega
    have hreached : htSize - index ∈
        examined (fits ht past index) (List.range htNeighbourhoodSize) :=
      end_mem_examined hindex (Nat.lt_of_not_le hout) fun _ hj =>
        h.fits_eq_false past hfree hfar hj
    have hlast := hinside _ (List.mem_map_of_mem hreached)
    have hmod : (htSize - index) % htSize = htSize - index := by
      apply Nat.mod_eq_of_lt
      rw [htNeighbourhoodSize] at hfar
      omega
    rw [hmod, Nat.add_sub_of_le (Nat.le_of_lt hindex)] at hlast
    exact Nat.lt_irrefl _ hlast
  · intro hinside y hy
    obtain ⟨j, hj, rfl⟩ := List.mem_map.mp hy
    have hbound := (mem_examined_range.mp hj).1
    rw [htSize, htNeighbourhoodSize] at *
    omega

theorem Placed.neighbourhoodFits_iff (h : Placed ht) (past : ℕ → HashTableNode)
    (hfree : Free ht index) (hinside : index + htNeighbourhoodSize ≤ htSize) :
    neighbourhoodFits ht past index = true ↔ index < htNeighbourhoodSize := by
  constructor
  · intro hfits
    by_contra hfar
    obtain ⟨j, hj, hfit⟩ := List.any_eq_true.mp hfits
    have hbound := Nat.add_lt_add_left (List.mem_range.mp hj) index
    have hmissed := h.fits_eq_false past hfree (Nat.le_of_not_lt hfar)
      (Nat.lt_of_lt_of_le hbound hinside)
    exact absurd (hmissed.symm.trans hfit) (by decide)
  · exact neighbourhoodFits_of_near past hfree

theorem settles_eq_true_iff {bucket i : ℕ} :
    settles ht past bucket i = true ↔
      Free ht ((i + bucket) % htSize) ∧
        (i < htNeighbourhoodSize ∨ neighbourhoodFits ht past ((i + bucket) % htSize) = true) := by
  simp [settles, Free]

/-- A round of the outer loop stays inside the table, but for a free slot behind the
neighbourhood of the bucket with a neighbourhood that leaves the table. -/
theorem Placed.slotIndices_inside_iff (h : Placed ht) (past : ℕ → HashTableNode)
    (bucket i : ℕ) :
    (∀ index ∈ slotIndices ht past bucket i, index < htSize) ↔
      (htNeighbourhoodSize ≤ i → Free ht ((i + bucket) % htSize) →
        (i + bucket) % htSize + htNeighbourhoodSize ≤ htSize) := by
  rw [slotIndices, List.forall_mem_cons, and_iff_right (slot_lt i bucket)]
  by_cases hfree : Free ht ((i + bucket) % htSize)
  · by_cases hnear : i < htNeighbourhoodSize
    · rw [if_pos (.inr hnear)]
      simp [Nat.not_le_of_lt hnear]
    · have hwalks : ¬((ht.nodes ((i + bucket) % htSize)).key ≠ htSentinel ∨
          i < htNeighbourhoodSize) := not_or.mpr ⟨not_not.mpr hfree, hnear⟩
      rw [if_neg hwalks, h.neighbourhoodIndices_inside_iff past (slot_lt i bucket) hfree]
      simp [hfree, Nat.le_of_not_lt hnear]
  · rw [if_pos (.inl hfree)]
    simp [hfree]

theorem Placed.insertIndices_inside_iff (h : Placed ht) (past : ℕ → HashTableNode)
    (key : Word) :
    (∀ index ∈ insertIndices ht past key, index < htSize) ↔ InsertsInside ht key := by
  have hrounds : (∀ index ∈ insertIndices ht past key, index < htSize) ↔
      ∀ i ∈ examined (settles ht past (H key)) (List.range htSize),
        ∀ index ∈ slotIndices ht past (H key) i, index < htSize := by
    constructor
    · intro hinside i hi index hindex
      exact hinside index (List.mem_append_left _ (List.mem_flatMap_of_mem hi hindex))
    · intro hinside index hindex
      rcases List.mem_append.mp hindex with hread | hwritten
      · obtain ⟨i, hi, hround⟩ := List.mem_flatMap.mp hread
        exact hinside i hi index hround
      · split_ifs at hwritten
        · rw [List.mem_singleton.mp hwritten]
          exact H_lt key
        · exact absurd hwritten List.not_mem_nil
  rw [hrounds]
  constructor
  · intro hinside i hfar hi hfree hout
    by_cases hreached : i ∈ examined (settles ht past (H key)) (List.range htSize)
    · have hround := (h.slotIndices_inside_iff past (H key) i).mp (hinside i hreached)
      exact absurd (hround hfar hfree) (Nat.not_le_of_lt hout)
    · -- the search has stopped, and the node it stopped at was looked at inside the table
      obtain ⟨j, hj, hstopped, hsettles⟩ := exists_stop hi hreached
      obtain ⟨hfree', hcases⟩ := settles_eq_true_iff.mp hsettles
      refine ⟨j, hj, hfree', ?_⟩
      by_cases hnear : j < htNeighbourhoodSize
      · exact .inl hnear
      · have hround := (h.slotIndices_inside_iff past (H key) j).mp (hinside j hstopped)
        have hwithin := hround (Nat.le_of_not_lt hnear) hfree'
        exact .inr ((h.neighbourhoodFits_iff past hfree' hwithin).mp
          (hcases.resolve_left hnear))
  · intro hinside i hreached
    obtain ⟨hi, hbelow⟩ := mem_examined_range.mp hreached
    apply (h.slotIndices_inside_iff past (H key) i).mpr
    intro hfar hfree
    by_contra hout
    obtain ⟨j, hj, hfree', hcases⟩ := hinside i hfar hi hfree (Nat.lt_of_not_le hout)
    have hsettles : settles ht past (H key) j = true :=
      settles_eq_true_iff.mpr ⟨hfree', hcases.imp_right (neighbourhoodFits_of_near past hfree')⟩
    rw [hbelow j hj] at hsettles
    exact absurd hsettles (by decide)

end Accesses

/-- In a table that was initialised and then inserted into, both functions keep to the
nodes of the table exactly under these conditions on the key and the free slots. -/
theorem accesses_inside_iff {ht : HashTable}
    (hreachable : Reachable table (fun _ _ => True) ht) (past : ℕ → HashTableNode)
    (key : Word) :
    ((∀ index ∈ getIndices ht past key, index < htSize) ↔ GetsInside ht key) ∧
      ((∀ index ∈ insertIndices ht past key, index < htSize) ↔ InsertsInside ht key) :=
  ⟨(placed_of_reachable hreachable).getIndices_inside_iff past key,
    (placed_of_reachable hreachable).insertIndices_inside_iff past key⟩

/-- The keys 100 to 115 are in the table, each in its own bucket. -/
def sampleTable : HashTable :=
  (List.range htNeighbourhoodSize).foldl (fun ht i =>
    (hashTableInsert ht (fun _ => ⟨0, 0⟩) (BitVec.ofNat 32 (100 + i)) 0).2)
      (hashTableInitialize .zero)

theorem reachable_sampleTable : Reachable table (fun _ _ => True) sampleTable := by
  rw [sampleTable]
  have hstart : Reachable table (fun _ _ => True) (hashTableInitialize .zero) :=
    .initial ⟨.zero, rfl⟩
  generalize hashTableInitialize .zero = ht at hstart ⊢
  induction List.range htNeighbourhoodSize generalizing ht with
  | nil => exact hstart
  | cons i rest ih =>
      have hinsert : table.step ht ⟨fun _ => ⟨0, 0⟩, BitVec.ofNat 32 (100 + i), 0⟩ _ := rfl
      exact ih _ (hstart.step trivial hinsert)

/-- A lookup of 115 ends at its bucket; another insertion of 100 finds no free slot in its
neighbourhood and reads behind the table. -/
theorem accesses_inside_sample :
    (∀ index ∈ getIndices sampleTable (fun _ => ⟨0, 0⟩) 115, index < htSize) ∧
      ¬InsertsInside sampleTable 100 := by
  constructor
  · apply (accesses_inside_iff reachable_sampleTable _ 115).1.mpr
    exact .inr (by decide +kernel)
  · intro hinside
    have hread : htSize ∈ insertIndices sampleTable (fun _ => ⟨0, 0⟩) 100 := by decide +kernel
    exact Nat.lt_irrefl _
      ((accesses_inside_iff reachable_sampleTable _ 100).2.mpr hinside _ hread)

/-- In a table that was just initialised, a lookup of 127 reads behind the last node. -/
theorem not_accesses_inside :
    ¬∀ {ht : HashTable}, Reachable table (fun _ _ => True) ht →
      ∀ (past : ℕ → HashTableNode) (key : Word),
        (∀ index ∈ getIndices ht past key, index < htSize) ∧
          ∀ index ∈ insertIndices ht past key, index < htSize := by
  intro hinside
  have hstart : Reachable table (fun _ _ => True) (hashTableInitialize .zero) :=
    .initial ⟨.zero, rfl⟩
  have hread : htSize ∈ getIndices (hashTableInitialize .zero) (fun _ => ⟨0, 0⟩) 127 := by
    decide
  exact Nat.lt_irrefl _ ((hinside hstart _ 127).1 _ hread)

end Rtk.Lib
