import Rtk.Lib.String

/-!
# Hashing and the hash table

`lib/hash.c` and `lib/hashtable.c`.  `HashTableInsert` searches a slot as hopscotch
hashing does, but writes the node of the key's own bucket.  Both functions may
compute an index behind the last node: the word there is `num_elements`, and what
follows the table in memory is `past`.
-/

namespace Rtk.Lib

open Function
open Rtk.ByteMemory

/-! ## `lib/hash.c` -/

def djb2Step (hash : Word) (c : Byte) : Word := (hash <<< 5) + hash + c.setWidth 32

/-- The loop of `djb2`, which is `none` while no terminator is found within `fuel`
characters. -/
def djb2From (str : ℕ → Byte) (index : ℕ) (hash : Word) : ℕ → Option Word
  | 0 => none
  | fuel + 1 =>
      if str index = 0 then some hash
      else djb2From str (index + 1) (djb2Step hash (str index)) fuel

/-- `Hash`, which is `djb2`. -/
def hash (str : ℕ → Byte) (fuel : ℕ) : Option Word := djb2From str 0 5381 fuel

def hashOf (chars : List Byte) : Word := chars.foldl djb2Step 5381

/-! ## `lib/hashtable.c` -/

def htSize : ℕ := 128

def htSentinel : Word := 0

def htNeighbourhoodSize : ℕ := 16

/-- `HT_INSERT_SUCCESS` and `HT_GET_SUCCESS`. -/
def htSuccess : ℤ := 0

/-- `HT_INSERT_FAILED` and `HT_GET_FAILED`. -/
def htFailed : ℤ := -1

@[ext]
structure HashTableNode where
  key : Word
  data : ℤ
  deriving DecidableEq

structure HashTable where
  nodes : ℕ → HashTableNode
  numElements : Word

def H (k : Word) : ℕ := k.toNat % htSize

def HashTable.zero : HashTable := ⟨fun _ => ⟨0, 0⟩, 0⟩

/-- `ht->nodes[index]` as read: the node behind the last one starts with
`num_elements`, the others behind it are memory that follows the table. -/
def HashTable.read (ht : HashTable) (past : ℕ → HashTableNode) (index : ℕ) :
    HashTableNode :=
  if index < htSize then ht.nodes index
  else if index = htSize then { past index with key := ht.numElements }
  else past index

def hashTableInitialize (ht : HashTable) : HashTable where
  nodes i := { ht.nodes i with key := htSentinel }
  numElements := 0

/-- The inner loop of `HashTableInsert`. -/
def neighbourhoodFits (ht : HashTable) (past : ℕ → HashTableNode) (index : ℕ) : Bool :=
  (List.range htNeighbourhoodSize).any fun j =>
    let y := index + j % htSize
    let yHash := H (ht.read past y).key
    let yRange := yHash + htNeighbourhoodSize
    decide (yHash ≤ index ∧ index < yRange % htSize)

/-- The outer loop of `HashTableInsert`, with the value of `insert_at`. -/
def insertAt (ht : HashTable) (past : ℕ → HashTableNode) (bucket : ℕ) : Option ℕ :=
  (List.range htSize).findSome? fun i =>
    let index := (i + bucket) % htSize
    if (ht.nodes index).key ≠ htSentinel then none
    else if i < htNeighbourhoodSize then some index
    else if neighbourhoodFits ht past index then some index
    else none

def hashTableInsert (ht : HashTable) (past : ℕ → HashTableNode) (key : Word) (data : ℤ) :
    ℤ × HashTable :=
  let bucket := H key
  match insertAt ht past bucket with
  | none => (htFailed, ht)
  | some _ =>
      -- the slot found is not the one written
      (htSuccess,
        { nodes := update ht.nodes bucket ⟨key, data⟩
          numElements := ht.numElements + 1 })

/-- The loop of `HashTableGet`. -/
def probe (ht : HashTable) (past : ℕ → HashTableNode) (key : Word) : Option ℤ :=
  (List.range htNeighbourhoodSize).findSome? fun i =>
    let node := ht.read past (H key + i)
    if node.key = key then some node.data else none

/-- `HashTableGet`, with the value that `*data` is left with when it had `data`. -/
def hashTableGet (ht : HashTable) (past : ℕ → HashTableNode) (key : Word) (data : ℤ) :
    ℤ × ℤ :=
  match probe ht past key with
  | none => (htFailed, data)
  | some found => (htSuccess, found)

/-! ## What a table holds -/

/-- The last insertion into a bucket, in a list of insertions with the newest first. -/
def latest (insertions : List (Word × ℤ)) (bucket : ℕ) : Option (Word × ℤ) :=
  insertions.find? fun insertion => H insertion.1 = bucket

/-- The table holds the last insertion of each bucket; a node that was never written
has the data that it had before the table was initialised. -/
structure Stores (ht : HashTable) (old : ℕ → ℤ) (insertions : List (Word × ℤ)) :
    Prop where
  written : ∀ {bucket insertion}, latest insertions bucket = some insertion →
    ht.nodes bucket = ⟨insertion.1, insertion.2⟩
  unwritten : ∀ {bucket}, latest insertions bucket = none →
    ht.nodes bucket = ⟨htSentinel, old bucket⟩
  numElements : ht.numElements = BitVec.ofNat 32 insertions.length

section Table

variable {ht ht' : HashTable} {past : ℕ → HashTableNode} {key : Word} {data : ℤ}
  {old : ℕ → ℤ} {insertions : List (Word × ℤ)} {bucket : ℕ}

theorem H_lt (key : Word) : H key < htSize := Nat.mod_lt _ (by decide)

theorem read_of_lt (past : ℕ → HashTableNode) {index : ℕ} (hindex : index < htSize) :
    ht.read past index = ht.nodes index := if_pos hindex

theorem key_read_end (ht : HashTable) (past : ℕ → HashTableNode) :
    (ht.read past htSize).key = ht.numElements := rfl

theorem read_of_gt (past : ℕ → HashTableNode) {index : ℕ} (hindex : htSize < index) :
    ht.read past index = past index := by
  rw [HashTable.read, if_neg (Nat.not_lt_of_gt hindex), if_neg (Nat.ne_of_gt hindex)]

theorem H_of_latest {insertion : Word × ℤ}
    (hlatest : latest insertions bucket = some insertion) : H insertion.1 = bucket := by
  have hfound := List.find?_some hlatest
  exact of_decide_eq_true hfound

theorem latest_cons_self (key : Word) (data : ℤ) (insertions : List (Word × ℤ)) :
    latest ((key, data) :: insertions) (H key) = some (key, data) := by
  simp [latest]

theorem latest_cons_of_ne (data : ℤ) (insertions : List (Word × ℤ))
    (hbucket : bucket ≠ H key) :
    latest ((key, data) :: insertions) bucket = latest insertions bucket := by
  rw [latest, List.find?_cons_of_neg, latest]
  simpa using hbucket.symm

theorem stores_initial (ht : HashTable) :
    Stores (hashTableInitialize ht) (fun i => (ht.nodes i).data) [] where
  written hlatest := by simp [latest] at hlatest
  unwritten _ := rfl
  numElements := rfl

/-- An insertion that fails changes nothing. -/
theorem hashTableInsert_failed (hinsert : hashTableInsert ht past key data = (htFailed, ht')) :
    ht' = ht := by
  rw [hashTableInsert] at hinsert
  cases hat : insertAt ht past (H key) with
  | none =>
      simp only [hat, Prod.mk.injEq] at hinsert
      exact hinsert.2.symm
  | some index => simp [hat, htSuccess, htFailed] at hinsert

theorem hashTableInsert_status (ht : HashTable) (past : ℕ → HashTableNode) (key : Word)
    (data : ℤ) :
    (hashTableInsert ht past key data).1 = htSuccess ∨
      (hashTableInsert ht past key data).1 = htFailed := by
  rw [hashTableInsert]
  cases insertAt ht past (H key) with
  | none => exact .inr rfl
  | some index => exact .inl rfl

/-- An insertion that succeeds writes the bucket of the key. -/
theorem hashTableInsert_success
    (hinsert : hashTableInsert ht past key data = (htSuccess, ht')) :
    ht'.nodes = update ht.nodes (H key) ⟨key, data⟩ ∧
      ht'.numElements = ht.numElements + 1 := by
  rw [hashTableInsert] at hinsert
  cases hat : insertAt ht past (H key) with
  | none => simp [hat, htSuccess, htFailed] at hinsert
  | some index =>
      simp only [hat, Prod.mk.injEq] at hinsert
      rw [← hinsert.2]
      exact ⟨rfl, rfl⟩

/-- What succeeds is then the last insertion of its bucket. -/
theorem Stores.insert (h : Stores ht old insertions)
    (hinsert : hashTableInsert ht past key data = (htSuccess, ht')) :
    Stores ht' old ((key, data) :: insertions) := by
  obtain ⟨hnodes, hnum⟩ := hashTableInsert_success hinsert
  refine ⟨?_, ?_, ?_⟩
  · intro bucket insertion hlatest
    rw [hnodes]
    by_cases hbucket : bucket = H key
    · subst hbucket
      rw [latest_cons_self, Option.some.injEq] at hlatest
      subst hlatest
      exact update_self _ _ _
    · rw [latest_cons_of_ne data insertions hbucket] at hlatest
      rw [update_of_ne hbucket]
      exact h.written hlatest
  · intro bucket hlatest
    have hbucket : bucket ≠ H key := by
      rintro rfl
      simp [latest_cons_self] at hlatest
    rw [latest_cons_of_ne data insertions hbucket] at hlatest
    rw [hnodes, update_of_ne hbucket]
    exact h.unwritten hlatest
  · calc
      ht'.numElements = BitVec.ofNat 32 insertions.length + 1 := by
        rw [hnum, h.numElements]
      _ = BitVec.ofNat 32 (insertions.length + 1) := by
        rw [BitVec.ofNat_add]
        rfl

/-- A node holds a key of its own bucket, or the sentinel of a node never written. -/
theorem Stores.key_eq_iff (h : Stores ht old insertions) (hbucket : bucket ≠ H key) :
    (ht.nodes bucket).key = key ↔ key = htSentinel ∧ latest insertions bucket = none := by
  cases hlatest : latest insertions bucket with
  | none =>
      rw [h.unwritten hlatest]
      simp [eq_comm]
  | some insertion =>
      have hown := H_of_latest hlatest
      rw [h.written hlatest]
      constructor
      · rintro rfl
        exact absurd hown.symm hbucket
      · rintro ⟨_, hnone⟩
        simp at hnone

/-! ## Probing -/

theorem probe_eq_none_iff :
    probe ht past key = none ↔
      ∀ i < htNeighbourhoodSize, (ht.read past (H key + i)).key ≠ key := by
  simp [probe]

/-- What a successful probe has found. -/
theorem probe_eq_some (hprobe : probe ht past key = some data) :
    ∃ i < htNeighbourhoodSize, (ht.read past (H key + i)).key = key ∧
      (ht.read past (H key + i)).data = data := by
  obtain ⟨i, hmem, hfound⟩ := List.exists_of_findSome?_eq_some hprobe
  simp only [Option.ite_none_right_eq_some, Option.some.injEq] at hfound
  exact ⟨i, List.mem_range.mp hmem, hfound⟩

/-- A key that is in its own bucket is found there. -/
theorem probe_of_nodes (hkey : (ht.nodes (H key)).key = key) :
    probe ht past key = some (ht.nodes (H key)).data := by
  have hread : ht.read past (H key + 0) = ht.nodes (H key) := read_of_lt past (H_lt key)
  have hrange : List.range htNeighbourhoodSize = 0 :: List.range' 1 15 := by decide
  rw [probe, hrange, List.findSome?_cons, hread, if_pos hkey]

end Table

/-! ## Hashes of strings -/

section Hash

variable {str : ℕ → Byte} {index : ℕ} {chars : List Byte}

theorem djb2From_of_spells (h : Spells str index chars) (start : Word) {fuel : ℕ}
    (hfuel : chars.length < fuel) :
    djb2From str index start fuel = some (chars.foldl djb2Step start) := by
  induction chars generalizing index start fuel with
  | nil =>
      have hstop : str index = 0 := h
      cases fuel with
      | zero => omega
      | succ fuel => rw [djb2From, if_pos hstop, List.foldl_nil]
  | cons char chars ih =>
      obtain ⟨hchar, hne, hrest⟩ := h
      rw [List.length_cons] at hfuel
      cases fuel with
      | zero => omega
      | succ fuel =>
          rw [djb2From, hchar, if_neg hne, ih hrest _ (by omega), List.foldl_cons]

/-- Fewer characters give no other hash. -/
theorem eq_of_djb2From (h : Spells str index chars) {start key : Word} {fuel : ℕ}
    (hhash : djb2From str index start fuel = some key) :
    key = chars.foldl djb2Step start := by
  induction fuel generalizing index start chars with
  | zero => simp [djb2From] at hhash
  | succ fuel ih =>
      cases chars with
      | nil =>
          have hstop : str index = 0 := h
          rw [djb2From, if_pos hstop, Option.some.injEq] at hhash
          exact hhash.symm
      | cons char chars =>
          obtain ⟨hchar, hne, hrest⟩ := h
          rw [djb2From, hchar, if_neg hne] at hhash
          rw [List.foldl_cons]
          exact ih hrest hhash

theorem eq_hashOf_of_hash (h : Spells str 0 chars) {key : Word} {fuel : ℕ}
    (hhash : hash str fuel = some key) : key = hashOf chars := eq_of_djb2From h hhash

theorem hash_of_spells (h : Spells str 0 chars) {fuel : ℕ} (hfuel : chars.length < fuel) :
    hash str fuel = some (hashOf chars) := djb2From_of_spells h 5381 hfuel

end Hash

end Rtk.Lib
