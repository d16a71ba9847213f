import URiscV.Asm.Programs

/-!
# Arrays on the stack

Two of the programs put an array of `N` words on their stack: `sp` goes down by `4 * N`,
with `N` in `x5` and `4 * N` in `x6`, and up again before the exit syscall. `Frame` is what
they leave alone in between.

## Key results

- `arr_update`: a store to an element
- `Frame.of_kept`: a step that writes scratch registers and elements only
- `Frame.exits`: the way out
-/

namespace URiscV.Asm

open Rv32i (State Word readReg wordIndex)

variable {d N : Nat} {σ₀ σ τ : State}

/-- `sp` while the array is there. -/
def stack (N : Nat) (σ₀ : State) : Word := readReg σ₀.x 2 - BitVec.ofNat 32 (4 * N)

/-- Where element `k` stands in memory. -/
def index (d N : Nat) (σ₀ : State) (k : Nat) : Nat :=
  wordIndex (2 ^ d) (stack N σ₀ + BitVec.ofNat 32 (4 * k))

/-- The array. -/
def arr (d N : Nat) (σ₀ σ : State) (k : Nat) : Word := σ.mem (index d N σ₀ k)

/-- The elements of the array have different places. -/
theorem index_inj (hd : d ≤ 30) (hN : N ≤ 2 ^ d) {j k : Nat} (hj : j < N) (hk : k < N)
    (h : index d N σ₀ j = index d N σ₀ k) : j = k :=
  Rv32i.wordIndex_add_inj hd _ (by omega) (by omega) h

/-- The array behind a store to element `m`. -/
theorem arr_update (hd : d ≤ 30) (hN : N ≤ 2 ^ d) {m k : Nat} {v : Word} (hm : m < N) (hk : k < N)
    (hmem : τ.mem = Function.update σ.mem (index d N σ₀ m) v) :
    arr d N σ₀ τ k = Function.update (arr d N σ₀ σ) m v k := by
  rw [arr, hmem]
  by_cases hkm : k = m
  · rw [hkm, Function.update_self, Function.update_self]
  · rw [Function.update_of_ne fun he => hkm (index_inj hd hN hk hm he),
      Function.update_of_ne hkm, arr]

/-- The registers that a program writes, besides those that hold the stack and the array. -/
structure Scratch where
  regs : List (BitVec 5)
  free : ∀ r ∈ ([2, 5, 6] : List (BitVec 5)), r ∉ regs

/-- What a program with these scratch registers leaves alone. -/
structure Frame (scratch : Scratch) (d N : Nat) (σ₀ σ : State) : Prop where
  x2 : readReg σ.x 2 = stack N σ₀
  x5 : readReg σ.x 5 = BitVec.ofNat 32 N
  x6 : readReg σ.x 6 = BitVec.ofNat 32 (4 * N)
  regs : ∀ r ∉ 2 :: 5 :: 6 :: scratch.regs, readReg σ.x r = readReg σ₀.x r
  mem : ∀ a, (∀ k < N, a ≠ index d N σ₀ k) → σ.mem a = σ₀.mem a

/-- At the exit syscall, with status 0; only the array and the scratch registers differ from
    the start. -/
structure Exits (scratch : Scratch) (d N : Nat) (σ₀ : State) (pc : Word) (σ : State) :
    Prop where
  pc : σ.pc = pc
  a0 : readReg σ.x 10 = 0
  a7 : readReg σ.x 17 = 93
  sp : readReg σ.x 2 = readReg σ₀.x 2
  regs : ∀ r ∉ 5 :: 6 :: scratch.regs, readReg σ.x r = readReg σ₀.x r
  mem : ∀ a, (∀ k < N, a ≠ index d N σ₀ k) → σ.mem a = σ₀.mem a

/-- The start of the programs in a simulator, where `sp` is set. -/
def started : State where
  pc := 0
  x := fun r => if r = 2 then 0x80 else 0
  mem := fun _ => 0

namespace Frame

variable {scratch : Scratch}

/-- Code that writes scratch registers and the array keeps the frame. -/
theorem of_kept (h : Frame scratch d N σ₀ σ)
    (hregs : ∀ r ∉ scratch.regs, readReg τ.x r = readReg σ.x r)
    (hmem : ∀ a, (∀ k < N, a ≠ index d N σ₀ k) → τ.mem a = σ.mem a) : Frame scratch d N σ₀ τ where
  x2 := (hregs 2 (scratch.free 2 (by decide))).trans h.x2
  x5 := (hregs 5 (scratch.free 5 (by decide))).trans h.x5
  x6 := (hregs 6 (scratch.free 6 (by decide))).trans h.x6
  regs r hr := by
    have hr' : r ∉ scratch.regs := fun hm => hr (by simp [hm])
    exact (hregs r hr').trans (h.regs r hr)
  mem a ha := (hmem a ha).trans (h.mem a ha)

/-- So does a jump. -/
theorem jump (h : Frame scratch d N σ₀ σ) {pc : Word} :
    Frame scratch d N σ₀ { σ with pc := pc } := ⟨h.x2, h.x5, h.x6, h.regs, h.mem⟩

/-- The last instructions: `sp += N*4`, and the arguments of the syscall. -/
theorem exits (h : Frame scratch d N σ₀ σ) {pc : Word} (hpc : τ.pc = pc)
    (ha0 : readReg τ.x 10 = 0) (ha7 : readReg τ.x 17 = 93)
    (hsp : readReg τ.x 2 = readReg σ.x 2 + readReg σ.x 6)
    (hregs : ∀ r ∉ 2 :: scratch.regs, readReg τ.x r = readReg σ.x r) (hmem : τ.mem = σ.mem) :
    Exits scratch d N σ₀ pc τ := by
  have hback : readReg τ.x 2 = readReg σ₀.x 2 := by
    rw [hsp, h.x2, h.x6, stack]
    exact BitVec.sub_add_cancel _ _
  refine ⟨hpc, ha0, ha7, hback, fun r hr => ?_, fun a ha => ?_⟩
  · by_cases hr2 : r = 2
    · rw [hr2, hback]
    · have hr' : r ∉ 2 :: 5 :: 6 :: scratch.regs := fun hm => (List.mem_cons.mp hm).elim hr2 hr
      have hr'' : r ∉ 2 :: scratch.regs := fun hm =>
        hr' (List.cons_subset_cons 2 (fun _ h => by simp [h]) hm)
      exact (hregs r hr'').trans (h.regs r hr')
  · rw [hmem, h.mem a ha]

end Frame

end URiscV.Asm
