import Rtk.Properties.Probing

/-!
# What a lookup in the hash table returns

`HashTableInsert` writes the bucket of the key whatever slot it has found, so that a key
is in its own bucket or nowhere, and writing it again leaves no older value behind.
-/

namespace Rtk.Lib

open Rtk.ByteMemory
open Rtk.Transition

/-- The table with the insertions that succeeded, the newest first. -/
def recordedTable : System (HashTable × List (Word × ℤ)) Insertion :=
  table.recording (fun _ => []) fun ht insertion _ insertions =>
    if (hashTableInsert ht insertion.past insertion.key insertion.data).1 = htSuccess then
      (insertion.key, insertion.data) :: insertions
    else insertions

/-- The latest insertion of `key`, in a list of insertions with the newest first. -/
def LatestOf (insertions : List (Word × ℤ)) (key : Word) (data : ℤ) : Prop :=
  ∃ newer older, insertions = newer ++ (key, data) :: older ∧
    ∀ insertion ∈ newer, insertion.1 ≠ key

section Table

variable {ht : HashTable} {past : ℕ → HashTableNode} {key : Word} {data value : ℤ}
  {old : ℕ → ℤ} {insertions : List (Word × ℤ)}

/-- Every table of a run stores the insertions recorded in it. -/
theorem exists_stores_of_recorded
    (hreachable : Reachable recordedTable (fun _ _ => True) (ht, insertions)) :
    ∃ old, Stores ht old insertions := by
  apply @Reachable.recorded_invariant _ _ _ (fun _ _ => True) _ _ _
    (fun ht insertions => ∃ old, Stores ht old insertions) _ _ hreachable
  · rintro s ⟨before, rfl⟩
    exact ⟨_, stores_initial before⟩
  · intro s insertion s' insertions hstores _ hstep
    obtain ⟨old, hstored⟩ := hstores
    have hinsert : hashTableInsert s insertion.past insertion.key insertion.data =
        ((hashTableInsert s insertion.past insertion.key insertion.data).1, s') :=
      Prod.ext rfl hstep
    cases hashTableInsert_status s insertion.past insertion.key insertion.data with
    | inl hsuccess =>
        rw [if_pos hsuccess]
        rw [hsuccess] at hinsert
        exact ⟨old, hstored.insert hinsert⟩
    | inr hfailed =>
        have hnot : (hashTableInsert s insertion.past insertion.key insertion.data).1 ≠
            htSuccess := hfailed.trans_ne (by decide)
        rw [if_neg hnot]
        rw [hfailed] at hinsert
        rw [hashTableInsert_failed hinsert]
        exact ⟨old, hstored⟩

/-- The last insertion of a bucket is the latest one of its key. -/
theorem latestOf_of_latest (hlatest : latest insertions (H key) = some (key, data)) :
    LatestOf insertions key data := by
  obtain ⟨_, newer, older, hsplit, hnewer⟩ := List.find?_eq_some_iff_append.mp hlatest
  refine ⟨newer, older, hsplit, ?_⟩
  intro insertion hmem hkey
  have hbucket := hnewer insertion hmem
  simp [hkey] at hbucket

/-- A key other than the sentinel is found in its own bucket only. -/
theorem Stores.probe_eq_some_iff (h : Stores ht old insertions) (hkey : key ≠ htSentinel)
    (hwindow : H key + htNeighbourhoodSize ≤ htSize) :
    probe ht past key = some value ↔ latest insertions (H key) = some (key, value) := by
  constructor
  · intro hprobe
    obtain ⟨i, hi, hfound, hvalue⟩ := probe_eq_some hprobe
    rw [read_of_lt past (Nat.lt_of_lt_of_le (Nat.add_lt_add_left hi _) hwindow)] at hfound hvalue
    have hfirst : H key + i = H key := by
      by_contra hother
      exact hkey ((h.key_eq_iff hother).mp hfound).1
    rw [hfirst] at hfound hvalue
    cases hlatest : latest insertions (H key) with
    | none =>
        rw [h.unwritten hlatest] at hfound
        exact absurd hfound.symm hkey
    | some insertion =>
        rw [h.written hlatest] at hfound hvalue
        exact congrArg some (Prod.ext hfound hvalue)
  · intro hlatest
    have hnode := h.written hlatest
    have hbucket : (ht.nodes (H key)).key = key := by rw [hnode]
    rw [probe_of_nodes hbucket, hnode]

theorem hashTableGet_eq_success_iff :
    hashTableGet ht past key data = (htSuccess, value) ↔ probe ht past key = some value := by
  rw [hashTableGet]
  cases probe ht past key with
  | none => simp [htSuccess, htFailed]
  | some found => simp

end Table

/-- After any run of insertions, a lookup that succeeds returns what the latest successful
insertion of its key has stored. -/
theorem hashTableGet_latest {ht : HashTable} {insertions : List (Word × ℤ)}
    (hreachable : Reachable recordedTable (fun _ _ => True) (ht, insertions))
    (past : ℕ → HashTableNode) {key : Word} (hkey : key ≠ htSentinel)
    (hwindow : H key + htNeighbourhoodSize ≤ htSize) {data value : ℤ}
    (hget : hashTableGet ht past key data = (htSuccess, value)) :
    LatestOf insertions key value := by
  obtain ⟨old, hstores⟩ := exists_stores_of_recorded hreachable
  have hprobe := hashTableGet_eq_success_iff.mp hget
  exact latestOf_of_latest ((hstores.probe_eq_some_iff hkey hwindow).mp hprobe)

/-- The key 5, inserted twice, is found with the second value. -/
theorem hashTableGet_latest_sample :
    LatestOf [(5, 8), (5, 7)] 5 8 := by
  let insertion (data : ℤ) : Insertion := ⟨fun _ => ⟨0, 0⟩, 5, data⟩
  let first := hashTableInitialize .zero
  let second := (hashTableInsert first (fun _ => ⟨0, 0⟩) 5 7).2
  let third := (hashTableInsert second (fun _ => ⟨0, 0⟩) 5 8).2
  have hfirst : Reachable recordedTable (fun _ _ => True) (first, []) :=
    .initial ⟨⟨.zero, rfl⟩, rfl⟩
  have hsecond : Reachable recordedTable (fun _ _ => True) (second, [(5, 7)]) :=
    @Reachable.step _ _ _ _ _ _ (insertion 7) hfirst trivial ⟨rfl, by decide⟩
  have hthird : Reachable recordedTable (fun _ _ => True) (third, [(5, 8), (5, 7)]) :=
    @Reachable.step _ _ _ _ _ _ (insertion 8) hsecond trivial ⟨rfl, by decide⟩
  exact @hashTableGet_latest third _ hthird (fun _ => ⟨0, 0⟩) 5 (by decide) (by decide) 0 8
    (by decide)

end Rtk.Lib
