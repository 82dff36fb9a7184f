import Rtk.Core.Arm

/-!
# Rules for straight code

What a block transfer does to registers and to a stack, what a call of a compiled function
keeps, and how a piece of code runs instruction by instruction.
-/

namespace Rtk.Arm

open Function
open Rtk.ByteMemory

variable {F W : Type*}

/-! ## Block transfers -/

/-- A register that a block transfer may name. -/
def Register.Block (register : Register) : Prop := register ≠ .sp ∧ register ≠ .pc

instance (register : Register) : Decidable register.Block :=
  inferInstanceAs (Decidable (_ ∧ _))

section Blocks

variable {m : Machine} {register : Register} {registers : List Register} {words : List Word}
  {f : Register → Word}

theorem setAll_sp (hblock : ∀ register ∈ registers, register.Block) :
    (m.setAll registers words).sp = m.sp := by
  induction registers generalizing m words with
  | nil => rfl
  | cons first registers ih =>
      rw [List.forall_mem_cons] at hblock
      cases words with
      | nil => rfl
      | cons word words =>
          rw [Machine.setAll, ih hblock.2]
          cases first with
          | sp => exact absurd rfl hblock.1.1
          | _ => rfl

theorem pop_sp (hblock : ∀ register ∈ registers, register.Block) : (m.pop registers).sp =
    update m.sp m.bank (m.sp m.bank + BitVec.ofNat 32 (4 * registers.length)) := by
  rw [Machine.pop, setAll_sp hblock]

/-- A pushed block is above the new stack pointer. -/
theorem loadWords_push
    (hfits : wordAddress ((m.push registers).sp m.bank) + 4 * registers.length ≤ 2 ^ 32) :
    loadWords ((m.push registers).memory m.bank) ((m.push registers).sp m.bank)
      registers.length = registers.map m.get := by
  rw [Machine.push_sp, update_self] at hfits ⊢
  rw [Machine.push_memory, update_self, ← List.length_map (f := m.get),
    loadWords_storeWords]
  rwa [List.length_map]

end Blocks

/-! ## Stacks -/

/-- The stack of a bank holds `words` from its pointer up to `top`, and above that it is as in
`under`. -/
structure Stacked (m : Machine) (bank : Bank) (top : Word) (under : Memory)
    (words : List Word) : Prop where
  room : 4 * words.length ≤ top.toNat
  sp : m.sp bank = top - BitVec.ofNat 32 (4 * words.length)
  words : loadWords (m.memory bank) (m.sp bank) words.length = words
  under : ∀ target, wordAddress top ≤ target → m.memory bank target = under target

section Stacks

variable {m m' : Machine} {bank : Bank} {top : Word} {under : Memory} {words : List Word}
  {registers : List Register} {f : Register → Word}

/-- The pointer and what is pushed end at the top. -/
theorem Stacked.wordAddress_sp (h : Stacked m bank top under words) :
    wordAddress (m.sp bank) + 4 * words.length = wordAddress top := by
  rw [h.sp]
  exact wordAddress_sub h.room

theorem Stacked.fits (h : Stacked m bank top under words) :
    wordAddress (m.sp bank) + 4 * words.length ≤ 2 ^ 32 := by
  have hlast := wordAddress_lt top
  rw [h.wordAddress_sp]
  omega

/-- What is below the pointer does not count. -/
theorem Stacked.congr (h : Stacked m bank top under words) (hsp : m'.sp bank = m.sp bank)
    (hmemory : ∀ target, wordAddress (m.sp bank) ≤ target →
      m'.memory bank target = m.memory bank target) : Stacked m' bank top under words := by
  have hend := h.wordAddress_sp
  refine ⟨h.room, hsp.trans h.sp, ?_, ?_⟩
  · rw [hsp, ← h.words, length_loadWords]
    exact loadWords_congr h.fits fun target htarget => hmemory target htarget.1
  · intro target htarget
    rw [hmemory target (by omega), h.under target htarget]

theorem sub_sub_ofNat (word : Word) (left right : ℕ) :
    word - BitVec.ofNat 32 (4 * left) - BitVec.ofNat 32 (4 * right) =
      word - BitVec.ofNat 32 (4 * (right + left)) := by
  rw [BitVec.sub_sub, ← BitVec.ofNat_add, ← Nat.mul_add, Nat.add_comm]

theorem Stacked.push (h : Stacked m bank top under words) (registers : List Register)
    (hbank : m.bank = bank)
    (hroom : 4 * (registers.length + words.length) ≤ top.toNat) :
    Stacked (m.push registers) bank top under (registers.map m.get ++ words) := by
  subst bank
  have hlength : (registers.map m.get ++ words).length = registers.length + words.length := by
    rw [List.length_append, List.length_map]
  have hsp : (m.push registers).sp m.bank =
      top - BitVec.ofNat 32 (4 * (registers.map m.get ++ words).length) := by
    rw [Machine.push_sp, update_self, h.sp, sub_sub_ofNat, hlength]
  have hback : (m.push registers).sp m.bank + BitVec.ofNat 32 (4 * registers.length) =
      m.sp m.bank := by
    rw [Machine.push_sp, update_self, BitVec.sub_add_cancel]
  have hstart : wordAddress ((m.push registers).sp m.bank) + 4 * registers.length =
      wordAddress (m.sp m.bank) := by
    have hend := h.wordAddress_sp
    have htop : wordAddress (top -
        BitVec.ofNat 32 (4 * (registers.map m.get ++ words).length)) +
        4 * (registers.map m.get ++ words).length = wordAddress top :=
      wordAddress_sub (by rwa [hlength])
    rw [hlength] at htop hsp
    rw [hsp]
    omega
  have hfits := h.fits
  have hkept : ∀ target, wordAddress (m.sp m.bank) ≤ target →
      (m.push registers).memory m.bank target = m.memory m.bank target := by
    intro target htarget
    rw [Machine.push_memory, update_self]
    rw [Machine.push_sp, update_self] at hstart
    apply storeWords_of_not_inRange <;> rw [List.length_map]
    · omega
    · rintro ⟨_, hend⟩
      omega
  refine ⟨by rwa [hlength], hsp, ?_, ?_⟩
  · rw [hlength, loadWords_add, hback, loadWords_push (by omega)]
    congr 1
    rw [← h.words, length_loadWords]
    exact loadWords_congr h.fits fun target htarget => hkept target htarget.1
  · intro target htarget
    have hend := h.wordAddress_sp
    rw [hkept target (by omega), h.under target htarget]

/-- What a pop finds. -/
theorem Stacked.loadWords (h : Stacked m bank top under (registers.map f ++ words)) :
    ByteMemory.loadWords (m.memory bank) (m.sp bank) registers.length = registers.map f := by
  have hwords := h.words
  rw [List.length_append, List.length_map, loadWords_add] at hwords
  exact List.append_inj_left hwords (by rw [length_loadWords, List.length_map])

/-- The first word of a stack. -/
theorem Stacked.loadWord {word : Word} (h : Stacked m bank top under (word :: words)) :
    ByteMemory.loadWord (m.memory bank) (wordAddress (m.sp bank)) = word :=
  List.head_eq_of_cons_eq h.words

theorem Stacked.pop (h : Stacked m bank top under (registers.map f ++ words))
    (hbank : m.bank = bank) (hblock : ∀ register ∈ registers, register.Block) :
    Stacked (m.pop registers) bank top under words := by
  subst bank
  have hlength : (registers.map f ++ words).length = registers.length + words.length := by
    rw [List.length_append, List.length_map]
  have hroom := h.room
  have hwords := h.words
  have hsp : (m.pop registers).sp m.bank = m.sp m.bank +
      BitVec.ofNat 32 (4 * registers.length) := by
    rw [pop_sp hblock, update_self]
  rw [hlength] at hroom
  refine ⟨by omega, ?_, ?_, ?_⟩
  · rw [hsp, h.sp, hlength, ← sub_sub_ofNat, BitVec.sub_add_cancel]
  · rw [hlength, loadWords_add] at hwords
    rw [hsp, Machine.pop_memory]
    exact List.append_inj_right hwords (by rw [length_loadWords, List.length_map])
  · intro target htarget
    rw [Machine.pop_memory]
    exact h.under target htarget

end Stacks

/-! ## Calls -/

/-- What a call with this result and memory leaves of the machine. -/
structure Called (m m' : Machine) (result : Word) (memory : Memory) : Prop where
  result : m'.r 0 = result
  saved : ∀ index : Fin 13, 4 ≤ index.val → index.val < 12 → m'.r index = m.r index
  sp : m'.sp = m.sp
  lr : ∀ bank, bank ≠ m.bank → m'.lr bank = m.lr bank
  spsr : m'.spsr = m.spsr
  bank : m'.bank = m.bank
  privileged : m'.Privileged ↔ m.Privileged
  memory : m.bank ≠ .user → m'.memory .user = memory
  stack : m.bank ≠ .user → ∀ target, wordAddress (m.sp m.bank) ≤ target →
    m'.memory m.bank target = m.memory m.bank target

/-- A call keeps the stack of its caller. -/
theorem Stacked.called {m m' : Machine} {bank : Bank} {top result : Word} {under memory : Memory}
    {words : List Word} (h : Stacked m bank top under words) (hbank : m.bank = bank)
    (huser : bank ≠ .user) (hcalled : Called m m' result memory) :
    Stacked m' bank top under words := by
  subst bank
  exact h.congr (by rw [hcalled.sp]) (hcalled.stack huser)

namespace Env

variable (env : Env F W) {m : Machine} {w : W} {instr : Instr} {code rest : List Instr}

/-- The machine behind a call that has entered the function at `m`. -/
def behind (f : F) (m : Machine) (result : Word) (memory : Memory) : Machine :=
  m.returned (env.scratch f m) result memory

/-- The machine at the entry of a function that is called with the link register set. -/
def linked (m : Machine) (address : Word) : Machine :=
  { m with lr := update m.lr m.bank (m.pc + 4), pc := address }

def line (m : Machine) (code : List Instr) : Machine :=
  code.foldl (fun m instr => instr.exec m) m

end Env

end Rtk.Arm
