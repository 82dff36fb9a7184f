import Rtk.Usr.NameServer

/-!
# What the name server remembers

A registration is kept until another one falls into its bucket, and a name is found
when the last registration of its bucket has its hash.
-/

namespace Rtk.NameServer

open Function
open Rtk.ByteMemory
open Rtk.Lib
open Rtk.Transition

/-! ## Registrations -/

/-- The tid of the last task that registered the name. -/
def registrant (registered : List (List Byte × ℤ)) (name : List Byte) : Option ℤ :=
  (registered.find? fun entry => entry.1 = name).map Prod.snd

/-- The last registration that falls into the bucket. -/
def holder (registered : List (List Byte × ℤ)) (bucket : ℕ) : Option (List Byte × ℤ) :=
  registered.find? fun entry => H (hashOf entry.1) = bucket

def insertions (registered : List (List Byte × ℤ)) : List (Word × ℤ) :=
  registered.map fun entry => (hashOf entry.1, entry.2)

/-- Between two requests the table holds the registrations. -/
structure Tabled (s : State) : Prop where
  stores : Stores s.table (fun _ => 0) (insertions s.registered)
  spelled : ∀ entry ∈ s.registered, ∃ str, Spells str 0 entry.1

section Requests

variable {s s' : State} {visit : Visit} {str uninit : ℕ → Byte} {name : List Byte}
  {registered : List (List Byte × ℤ)} {bucket : ℕ}

theorem latest_insertions (registered : List (List Byte × ℤ)) (bucket : ℕ) :
    latest (insertions registered) bucket =
      (holder registered bucket).map fun entry => (hashOf entry.1, entry.2) := by
  rw [latest, insertions, List.find?_map, holder]
  rfl

theorem whoIsRequest_name_apply (str uninit : ℕ → Byte) (i : ℕ) :
    (whoIsRequest str uninit).name i =
      if i < strnlen str (nsNameBufferSize - 1) then str i
      else if i = strnlen str (nsNameBufferSize - 1) then 0 else uninit i :=
  strncpy_apply uninit str _ i

/-- The terminator that `RegisterAs` writes is already there. -/
theorem registerAsRequest_name (str uninit : ℕ → Byte) :
    (registerAsRequest str uninit).name = (whoIsRequest str uninit).name := by
  funext i
  by_cases hi : i = strnlen str (nsNameBufferSize - 1)
  · rw [whoIsRequest_name_apply, if_neg (by omega), if_pos hi, hi]
    exact update_self _ _ _
  · exact update_of_ne hi _ _

/-- `strnlen` counts the terminator. -/
theorem strnlen_of_spells (hname : Spells str 0 name)
    (hlength : name.length ≤ nsNameBufferSize - 1) :
    strnlen str (nsNameBufferSize - 1) = name.length + 1 := by
  rw [strnlen, strnlenFrom_of_spells hname, Nat.min_eq_left hlength, Nat.zero_add]

/-- The request holds the name. -/
theorem spells_whoIsRequest (hname : Spells str 0 name)
    (hlength : name.length ≤ nsNameBufferSize - 1) (uninit : ℕ → Byte) :
    Spells (whoIsRequest str uninit).name 0 name := by
  rw [whoIsRequest, strnlen_of_spells hname hlength]
  exact hname.strncpy

theorem spells_registerAsRequest (hname : Spells str 0 name)
    (hlength : name.length ≤ nsNameBufferSize - 1) (uninit : ℕ → Byte) :
    Spells (registerAsRequest str uninit).name 0 name := by
  rw [registerAsRequest_name]
  exact spells_whoIsRequest hname hlength uninit

/-- The answer to `WhoIs( name )`. -/
theorem serve_whoIsRequest (ht : HashTable) (leftover : Leftover) (sender : ℤ)
    (hname : Spells str 0 name) (hlength : name.length ≤ nsNameBufferSize - 1)
    {fuel : ℕ} (hfuel : name.length < fuel) :
    serve ht leftover fuel sender (whoIsRequest str uninit) =
      some (some (.whoIs
        { type := nsWhoIsReply
          status := (hashTableGet ht leftover.past (hashOf name) leftover.whoisTid).1
          whoisTid := (hashTableGet ht leftover.past (hashOf name) leftover.whoisTid).2 }),
        ht) := by
  have hhash := hash_of_spells (spells_whoIsRequest hname hlength uninit) hfuel
  rw [serve, if_pos (by rfl), hhash]
  rfl

/-- A `WhoIs` changes nothing, and a `RegisterAs` inserts the hash of the name. -/
theorem server_cases (hnamed : Named s visit) (hstep : server.step s visit s') :
    s' = s ∨
      ∃ status,
        hashTableInsert s.table visit.leftover.past (hashOf visit.name) visit.tid =
          (status, s'.table) ∧
        s'.registered =
          if status = htSuccess then (visit.name, visit.tid) :: s.registered
          else s.registered := by
  obtain ⟨hname, hlength⟩ := hnamed
  obtain ⟨fuel, response, hserve, hregistered⟩ := hstep
  have hbound : visit.name.length ≤ nsNameBufferSize - 1 := Nat.le_of_lt hlength
  cases hcall : visit.call with
  | whoIs =>
      left
      have hmsg : visit.msg = whoIsRequest visit.str visit.uninit := by
        rw [Visit.msg, hcall]
      rw [hmsg, serve, if_pos (by rfl), Option.map_eq_some_iff] at hserve
      obtain ⟨key, _, hresponse⟩ := hserve
      obtain ⟨rfl, htable⟩ := Prod.mk.inj hresponse
      have hsame : s'.registered = s.registered := hregistered
      calc
        s' = ⟨s'.table, s'.registered⟩ := rfl
        _ = s := by rw [← htable, hsame]
  | registerAs =>
      right
      have hmsg : visit.msg = registerAsRequest visit.str visit.uninit := by
        rw [Visit.msg, hcall]
      have hother : (registerAsRequest visit.str visit.uninit).type ≠ nsWhoIs :=
        (by decide : nsRegisterAs ≠ nsWhoIs)
      rw [hmsg, serve, if_neg hother, if_pos (by rfl), Option.map_eq_some_iff] at hserve
      obtain ⟨key, hhash, hresponse⟩ := hserve
      obtain ⟨rfl, htable⟩ := Prod.mk.inj hresponse
      have hkey := eq_hashOf_of_hash
        (spells_registerAsRequest hname hbound visit.uninit) hhash
      rw [hkey] at htable hregistered
      exact ⟨_, Prod.ext rfl htable, hregistered⟩

/-- A registration that is answered with status OK is recorded in the table, and no
other request changes it. -/
theorem Tabled.step (h : Tabled s) (hnamed : Named s visit)
    (hstep : server.step s visit s') : Tabled s' := by
  rcases server_cases hnamed hstep with rfl | ⟨status, hinsert, hregistered⟩
  · exact h
  · split_ifs at hregistered with hstatus
    · subst hstatus
      refine ⟨?_, ?_⟩
      · rw [hregistered]
        exact h.stores.insert hinsert
      · rw [hregistered]
        intro entry hentry
        rcases List.mem_cons.mp hentry with rfl | hold
        · exact ⟨_, hnamed.1⟩
        · exact h.spelled entry hold
    · have hfailed : status = htFailed := by
        have hcases := hashTableInsert_status s.table visit.leftover.past
          (hashOf visit.name) visit.tid
        rw [hinsert] at hcases
        exact hcases.resolve_left hstatus
      subst hfailed
      have htable := hashTableInsert_failed hinsert
      exact ⟨by rw [htable, hregistered]; exact h.stores,
        by rw [hregistered]; exact h.spelled⟩

theorem tabled_of_reachable (hreachable : Reachable server Named s) : Tabled s := by
  apply hreachable.invariant
  · intro s hinitial
    have hstart : s = start := hinitial
    subst hstart
    exact ⟨stores_initial _, by simp [start]⟩
  · exact fun htabled hnamed hstep => htabled.step hnamed hstep

end Requests

/-! ## Retention -/

/-- From now on every `WhoIs( name )` is answered with status OK and this tid, until
another registration. -/
def Retained (s : State) (name : List Byte) (tid : ℤ) : Prop :=
  ∀ {leftover : Leftover} {sender : ℤ} {str uninit : ℕ → Byte} {fuel : ℕ},
    Spells str 0 name → name.length < fuel →
      serve s.table leftover fuel sender (whoIsRequest str uninit) =
        some (some (.whoIs ⟨nsWhoIsReply, htSuccess, tid⟩), s.table)

/-- The last registration in the bucket of the name is of the same hash and tid.  Or
the hash of the name is the sentinel, which the probe finds, with data 0, in a node
that was never written. -/
def Kept (registered : List (List Byte × ℤ)) (name : List Byte) (tid : ℤ) : Prop :=
  ∃ other owner, holder registered (H (hashOf name)) = some (other, owner) ∧
    (hashOf other = hashOf name ∧ owner = tid ∨
      hashOf other ≠ hashOf name ∧ hashOf name = htSentinel ∧ tid = 0 ∧
        ∃ i < htNeighbourhoodSize, holder registered i = none)

section Lookups

variable {s : State} {name : List Byte} {tid : ℤ} {past : ℕ → HashTableNode} {bucket : ℕ}

theorem Tabled.nodes_of_holder (h : Tabled s) {other : List Byte} {owner : ℤ}
    (hholder : holder s.registered bucket = some (other, owner)) :
    s.table.nodes bucket = ⟨hashOf other, owner⟩ := by
  have hlatest : latest (insertions s.registered) bucket = some (hashOf other, owner) := by
    rw [latest_insertions, hholder]
    rfl
  exact h.stores.written hlatest

theorem Tabled.nodes_of_no_holder (h : Tabled s)
    (hholder : holder s.registered bucket = none) :
    s.table.nodes bucket = ⟨htSentinel, 0⟩ := by
  apply h.stores.unwritten
  rw [latest_insertions, hholder]
  rfl

/-- In another bucket the hash is found only as the sentinel of a node that was never
written. -/
theorem Tabled.key_eq_iff (h : Tabled s) (hbucket : bucket ≠ H (hashOf name)) :
    (s.table.nodes bucket).key = hashOf name ↔
      hashOf name = htSentinel ∧ holder s.registered bucket = none := by
  rw [h.stores.key_eq_iff hbucket, latest_insertions, Option.map_eq_none_iff]

/-- A registered name has a holder in its bucket. -/
theorem exists_holder (hname : registrant s.registered name = some tid) :
    ∃ other owner, holder s.registered (H (hashOf name)) = some (other, owner) := by
  rw [registrant, Option.map_eq_some_iff] at hname
  obtain ⟨entry, hfound, _⟩ := hname
  have hmem := List.mem_of_find?_eq_some hfound
  have hentry : entry.1 = name := by
    have hdecide := List.find?_some hfound
    exact of_decide_eq_true hdecide
  cases hholder : holder s.registered (H (hashOf name)) with
  | some last => exact ⟨last.1, last.2, rfl⟩
  | none =>
      rw [holder, List.find?_eq_none] at hholder
      have hnot := hholder entry hmem
      rw [hentry] at hnot
      simp at hnot

theorem H_of_sentinel (hsentinel : hashOf name = htSentinel) : H (hashOf name) = 0 := by
  rw [hsentinel]
  rfl

/-- A name that is kept is found. -/
theorem Kept.probe (h : Tabled s) (hkept : Kept s.registered name tid) :
    probe s.table past (hashOf name) = some tid := by
  obtain ⟨other, owner, hholder, hcases⟩ := hkept
  have hnode := h.nodes_of_holder hholder
  rcases hcases with ⟨hsame, rfl⟩ | ⟨hother, hsentinel, rfl, i, hi, hfree⟩
  · rw [probe_of_nodes, hnode]
    rw [hnode, hsame]
  · have hzero := H_of_sentinel hsentinel
    have hread : ∀ j < htNeighbourhoodSize,
        s.table.read past (H (hashOf name) + j) = s.table.nodes j := by
      intro j hj
      rw [hzero, Nat.zero_add]
      exact if_pos (Nat.lt_trans hj (by decide))
    cases hprobe : Lib.probe s.table past (hashOf name) with
    | none =>
        have hmiss := probe_eq_none_iff.mp hprobe i hi
        rw [hread i hi, h.nodes_of_no_holder hfree, hsentinel] at hmiss
        exact absurd rfl hmiss
    | some found =>
        obtain ⟨j, hj, hkey, hdata⟩ := probe_eq_some hprobe
        rw [hread j hj] at hkey hdata
        have hj0 : j ≠ H (hashOf name) := by
          rintro rfl
          rw [hnode] at hkey
          exact hother hkey
        rw [h.nodes_of_no_holder ((h.key_eq_iff hj0).mp hkey).2] at hdata
        exact congrArg some hdata.symm

/-- Memory behind the table that never answers with `tid`. -/
def strange (name : List Byte) (tid : ℤ) : ℕ → HashTableNode :=
  fun _ => ⟨hashOf name + 1, tid + 1⟩

/-- A name that is always found is kept. -/
theorem Kept.of_probe (h : Tabled s) (hname : registrant s.registered name = some tid)
    (hprobe : Lib.probe s.table (strange name tid) (hashOf name) = some tid) :
    Kept s.registered name tid := by
  obtain ⟨other, owner, hholder⟩ := exists_holder hname
  have hnode := h.nodes_of_holder hholder
  refine ⟨other, owner, hholder, ?_⟩
  by_cases hsame : hashOf other = hashOf name
  · left
    rw [probe_of_nodes (by rw [hnode, hsame]), hnode, Option.some.injEq] at hprobe
    exact ⟨hsame, hprobe⟩
  · right
    obtain ⟨i, hi, hkey, hdata⟩ := probe_eq_some hprobe
    have hstrange : hashOf name + 1 ≠ hashOf name := by
      intro heq
      simp at heq
    rw [HashTable.read] at hkey hdata
    split_ifs at hkey hdata with hinside hedge
    · have hi0 : H (hashOf name) + i ≠ H (hashOf name) := by
        intro heq
        rw [heq, hnode] at hkey
        exact hsame hkey
      obtain ⟨hsentinel, hfree⟩ := (h.key_eq_iff hi0).mp hkey
      rw [h.nodes_of_no_holder hfree] at hdata
      rw [H_of_sentinel hsentinel, Nat.zero_add] at hfree
      exact ⟨hsame, hsentinel, hdata.symm, i, hi, hfree⟩
    · have hown : tid + 1 = tid := hdata
      omega
    · exact absurd hkey hstrange

end Lookups

/-- A registered name is answered with the tid of its last registration exactly when
it is kept. -/
theorem retained_iff_kept {s : State} (hreachable : Reachable server Named s)
    {name : List Byte} {tid : ℤ} (hname : registrant s.registered name = some tid)
    (hlength : name.length < nsNameBufferSize - 1) :
    Retained s name tid ↔ Kept s.registered name tid := by
  have htabled := tabled_of_reachable hreachable
  have hbound := Nat.le_of_lt hlength
  constructor
  · intro hretained
    obtain ⟨entry, hfound, _⟩ := Option.map_eq_some_iff.mp hname
    obtain ⟨str, hspells⟩ := htabled.spelled entry (List.mem_of_find?_eq_some hfound)
    have hentry : entry.1 = name := by
      have hdecide := List.find?_some hfound
      exact of_decide_eq_true hdecide
    rw [hentry] at hspells
    have hanswer := @hretained ⟨strange name tid, 0⟩ 0 str str (name.length + 1) hspells
      (Nat.lt_succ_self _)
    rw [serve_whoIsRequest _ _ _ hspells hbound (Nat.lt_succ_self _)] at hanswer
    simp only [Option.some.injEq, Prod.mk.injEq, Response.whoIs.injEq,
      NameServerWhoIsResponse.mk.injEq, and_true, true_and] at hanswer
    apply Kept.of_probe htabled hname
    rw [hashTableGet] at hanswer
    cases hprobe : probe s.table (strange name tid) (hashOf name) with
    | none => simp [hprobe, htFailed, htSuccess] at hanswer
    | some found =>
        simp only [hprobe, true_and] at hanswer
        rw [hanswer]
  · intro hkept leftover sender str uninit fuel hspells hfuel
    rw [serve_whoIsRequest _ _ _ hspells hbound hfuel, hashTableGet, hkept.probe htabled]

def sampleVisit (tid : ℤ) (call : Call) (name : List Byte) : Visit where
  tid := tid
  call := call
  name := name
  str i := name.getD i 0
  uninit _ := 0
  leftover := ⟨fun _ => ⟨0, 0⟩, 0⟩

/-- `sem` and `gui` fall into one bucket and have different hashes. -/
def sem : List Byte := [115, 101, 109]
def gui : List Byte := [103, 117, 105]

/-- The server after `RegisterAs` of these names, by the tasks with the given tids. -/
def sampleState (visitors : List (ℤ × List Byte)) : State :=
  (visits 8 start (visitors.map fun visitor =>
    sampleVisit visitor.1 .registerAs visitor.2)).getD start

theorem reachable_sampleState {visitors : List (ℤ × List Byte)}
    (hnamed : ∀ visitor ∈ visitors, Spells (fun i => visitor.2.getD i 0) 0 visitor.2 ∧
      visitor.2.length < nsNameBufferSize - 1)
    (hvisits : (visits 8 start (visitors.map fun visitor =>
      sampleVisit visitor.1 .registerAs visitor.2)).isSome) :
    Reachable server Named (sampleState visitors) := by
  obtain ⟨s, hs⟩ := Option.isSome_iff_exists.mp hvisits
  rw [sampleState, hs, Option.getD_some]
  apply reachable_of_visits (.initial rfl) _ hs
  intro visit hvisit
  obtain ⟨visitor, hmem, rfl⟩ := List.mem_map.mp hvisit
  exact hnamed visitor hmem

theorem retained_sample :
    Retained (sampleState [(5, sem), (6, sem)]) sem 6 :=
  (retained_iff_kept (reachable_sampleState (by decide) (by decide +kernel))
    (by decide +kernel) (by decide)).mpr
    ⟨sem, 6, by decide +kernel, .inl ⟨rfl, rfl⟩⟩

/-- Task 5 registers `sem`, task 6 registers `gui`, and `sem` is gone. -/
theorem not_retained :
    ¬∀ {s : State}, Reachable server Named s → ∀ {name : List Byte} {tid : ℤ},
      registrant s.registered name = some tid → name.length < nsNameBufferSize - 1 →
        Retained s name tid := by
  intro hretained
  have hreachable : Reachable server Named (sampleState [(5, sem), (6, gui)]) :=
    reachable_sampleState (by decide) (by decide +kernel)
  have hname : registrant (sampleState [(5, sem), (6, gui)]).registered sem = some 5 := by
    decide +kernel
  have hanswer := @hretained _ hreachable sem 5 hname (by decide)
    (sampleVisit 7 .whoIs sem).leftover 7 (sampleVisit 7 .whoIs sem).str (fun _ => 0) 8
    (by decide) (by decide)
  have hfailed : (serve (sampleState [(5, sem), (6, gui)]).table
      (sampleVisit 7 .whoIs sem).leftover 8 7
      (whoIsRequest (sampleVisit 7 .whoIs sem).str fun _ => 0)).map Prod.fst =
        some (some (.whoIs ⟨nsWhoIsReply, htFailed, 0⟩)) := by
    decide +kernel
  rw [hanswer] at hfailed
  simp [htSuccess, htFailed] at hfailed

/-! ## Soundness -/

/-- The probe for a name meets no other registration's hash: not in its own bucket,
not as the sentinel of a free node, and not in the words behind the table, of which
the first counts the registrations. -/
structure Distinct (registered : List (List Byte × ℤ)) (past : ℕ → HashTableNode)
    (name : List Byte) : Prop where
  bucket : ∀ {other owner}, holder registered (H (hashOf name)) = some (other, owner) →
    hashOf other ≠ hashOf name
  sentinel : hashOf name = htSentinel →
    ∀ i < htNeighbourhoodSize, holder registered i ≠ none
  count : htSize < H (hashOf name) + htNeighbourhoodSize →
    BitVec.ofNat 32 registered.length ≠ hashOf name
  past : ∀ i, htSize < i → i < H (hashOf name) + htNeighbourhoodSize →
    (past i).key ≠ hashOf name

theorem Tabled.probe_eq_none_iff {s : State} (h : Tabled s) (past : ℕ → HashTableNode)
    (name : List Byte) :
    probe s.table past (hashOf name) = none ↔ Distinct s.registered past name := by
  rw [Lib.probe_eq_none_iff]
  have hlt := H_lt (hashOf name)
  have hcount : s.table.numElements = BitVec.ofNat 32 s.registered.length := by
    rw [h.stores.numElements, insertions, List.length_map]
  constructor
  · intro hmiss
    have hread : ∀ index, H (hashOf name) ≤ index →
        index < H (hashOf name) + htNeighbourhoodSize →
          (s.table.read past index).key ≠ hashOf name := by
      intro index hle hbound
      have hmissed := hmiss (index - H (hashOf name)) (by omega)
      rwa [Nat.add_sub_cancel' hle] at hmissed
    refine ⟨?_, ?_, ?_, ?_⟩
    · intro other owner hholder
      have hfirst := hread _ (Nat.le_refl _) (Nat.lt_add_of_pos_right (by decide))
      rwa [read_of_lt past hlt, h.nodes_of_holder hholder] at hfirst
    · intro hsentinel i hi hnone
      have hnode := hread i
      rw [H_of_sentinel hsentinel, Nat.zero_add, read_of_lt past (Nat.lt_trans hi (by decide)),
        h.nodes_of_no_holder hnone, hsentinel] at hnode
      exact hnode (Nat.zero_le i) hi rfl
    · intro hreach
      have hend := hread htSize (Nat.le_of_lt hlt) hreach
      rwa [key_read_end, hcount] at hend
    · intro i hlow hhigh
      have hbehind := hread i (Nat.le_of_lt (Nat.lt_trans hlt hlow)) hhigh
      rwa [read_of_gt past hlow] at hbehind
  · intro hdistinct i hi
    rcases Nat.lt_trichotomy (H (hashOf name) + i) htSize with hinside | hedge | hbehind
    · rw [read_of_lt past hinside]
      intro hkey
      cases i with
      | zero =>
          cases hholder : holder s.registered (H (hashOf name)) with
          | some last =>
              rw [Nat.add_zero, h.nodes_of_holder hholder] at hkey
              exact hdistinct.bucket hholder hkey
          | none =>
              rw [Nat.add_zero, h.nodes_of_no_holder hholder] at hkey
              rw [H_of_sentinel hkey.symm] at hholder
              exact hdistinct.sentinel hkey.symm 0 (by decide) hholder
      | succ i =>
          obtain ⟨hsentinel, hfree⟩ := (h.key_eq_iff (by omega)).mp hkey
          rw [H_of_sentinel hsentinel, Nat.zero_add] at hfree
          exact hdistinct.sentinel hsentinel _ hi hfree
    · rw [hedge, key_read_end, hcount]
      exact hdistinct.count (by omega)
    · rw [read_of_gt past hbehind]
      exact hdistinct.past _ hbehind (Nat.add_lt_add_left hi _)

/-- A lookup succeeds exactly when the probe meets some hash that it looks for. -/
theorem get_success_iff {s : State} (h : Tabled s) (past : ℕ → HashTableNode)
    (name : List Byte) (data : ℤ) :
    (hashTableGet s.table past (hashOf name) data).1 = htSuccess ↔
      ¬Distinct s.registered past name := by
  rw [← h.probe_eq_none_iff, hashTableGet]
  cases hprobe : probe s.table past (hashOf name) with
  | none => simp [htFailed, htSuccess]
  | some found => simp

/-- `WhoIs( name )` is answered with status OK for registered names only, exactly when
the name is registered or the probe for it meets no other hash. -/
theorem sound_iff_distinct {s : State} (hreachable : Reachable server Named s)
    {name : List Byte} {str : ℕ → Byte} (hspells : Spells str 0 name)
    (hlength : name.length < nsNameBufferSize - 1) (uninit : ℕ → Byte)
    (leftover : Leftover) (sender : ℤ) {fuel : ℕ} (hfuel : name.length < fuel) :
    (∀ whoisTid, serve s.table leftover fuel sender (whoIsRequest str uninit) =
        some (some (.whoIs ⟨nsWhoIsReply, htSuccess, whoisTid⟩), s.table) →
          ∃ owner, (name, owner) ∈ s.registered) ↔
      (∃ owner, (name, owner) ∈ s.registered) ∨
        Distinct s.registered leftover.past name := by
  have hget := get_success_iff (tabled_of_reachable hreachable) leftover.past name
    leftover.whoisTid
  rw [serve_whoIsRequest _ _ _ hspells (Nat.le_of_lt hlength) hfuel]
  simp only [Option.some.injEq, Prod.mk.injEq, Response.whoIs.injEq,
    NameServerWhoIsResponse.mk.injEq, and_true, true_and]
  constructor
  · intro hsound
    by_cases hdistinct : Distinct s.registered leftover.past name
    · exact .inr hdistinct
    · exact .inl (hsound _ ⟨hget.mpr hdistinct, rfl⟩)
  · rintro (hregistered | hdistinct) whoisTid ⟨hstatus, _⟩
    · exact hregistered
    · exact absurd hdistinct (hget.mp hstatus)

/-- `top` and `tpO` have the same hash. -/
def top : List Byte := [116, 111, 112]
def tpO : List Byte := [116, 112, 79]

theorem sound_sample :
    (∀ whoisTid, serve (sampleState [(5, top)]).table (sampleVisit 7 .whoIs gui).leftover 8 7
        (whoIsRequest (sampleVisit 7 .whoIs gui).str fun _ => 0) =
        some (some (.whoIs ⟨nsWhoIsReply, htSuccess, whoisTid⟩),
          (sampleState [(5, top)]).table) →
          ∃ owner, (gui, owner) ∈ (sampleState [(5, top)]).registered) ↔
      (∃ owner, (gui, owner) ∈ (sampleState [(5, top)]).registered) ∨
        Distinct (sampleState [(5, top)]).registered
          (sampleVisit 7 .whoIs gui).leftover.past gui :=
  sound_iff_distinct (reachable_sampleState (by decide) (by decide +kernel)) (by decide)
    (by decide) _ _ 7 (by decide)

/-- Task 5 registers `top`, and `tpO` is answered with its tid. -/
theorem not_sound :
    ¬∀ {s : State}, Reachable server Named s → ∀ {name : List Byte} {str : ℕ → Byte},
      Spells str 0 name → name.length < nsNameBufferSize - 1 →
        ∀ {uninit : ℕ → Byte} {leftover : Leftover} {sender : ℤ} {fuel : ℕ} {whoisTid : ℤ},
          serve s.table leftover fuel sender (whoIsRequest str uninit) =
            some (some (.whoIs ⟨nsWhoIsReply, htSuccess, whoisTid⟩), s.table) →
          ∃ owner, (name, owner) ∈ s.registered := by
  intro hsound
  have hreachable : Reachable server Named (sampleState [(5, top)]) :=
    reachable_sampleState (by decide) (by decide +kernel)
  have hregistered : (sampleState [(5, top)]).registered = [(top, 5)] := by
    decide +kernel
  have hfound : hashTableGet (sampleState [(5, top)]).table (fun _ => ⟨0, 0⟩) (hashOf tpO) 0 =
      (htSuccess, 5) := by
    decide +kernel
  have hanswer := @serve_whoIsRequest (sampleVisit 7 .whoIs tpO).str (fun _ => 0) tpO
    (sampleState [(5, top)]).table (sampleVisit 7 .whoIs tpO).leftover 7
    (by decide) (by decide) 8 (by decide)
  have hget : hashTableGet (sampleState [(5, top)]).table
      (sampleVisit 7 .whoIs tpO).leftover.past (hashOf tpO)
      (sampleVisit 7 .whoIs tpO).leftover.whoisTid = (htSuccess, 5) := hfound
  rw [hget] at hanswer
  obtain ⟨owner, hmem⟩ := @hsound _ hreachable tpO (sampleVisit 7 .whoIs tpO).str
    (by decide) (by decide) _ _ _ _ _ hanswer
  rw [hregistered] at hmem
  exact absurd (congrArg Prod.fst (List.mem_singleton.mp hmem)) (by decide : tpO ≠ top)

end Rtk.NameServer
